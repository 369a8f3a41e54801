/-!
The operations that the host offers to scripts, as far as they carry no values of their own. A
`name` is what a script reads as the name of the function.
-/

namespace TsxPreview

inductive ConsoleLevel where
  | log | info | warn | error | debug
  deriving DecidableEq, Inhabited

namespace ConsoleLevel

def all : List ConsoleLevel := [log, info, warn, error, debug]

def name : ConsoleLevel → String
  | log => "log"
  | info => "info"
  | warn => "warn"
  | error => "error"
  | debug => "debug"

end ConsoleLevel

/-- The constructors of error objects. -/
inductive ErrorName where
  | error | typeError | rangeError | referenceError | syntaxError
  deriving DecidableEq, Inhabited

namespace ErrorName

def all : List ErrorName := [error, typeError, rangeError, referenceError, syntaxError]

def name : ErrorName → String
  | error => "Error"
  | typeError => "TypeError"
  | rangeError => "RangeError"
  | referenceError => "ReferenceError"
  | syntaxError => "SyntaxError"

end ErrorName

/-- Functions of `Math`. -/
inductive MathFunction where
  | abs | floor | ceil | round | trunc | sign | sqrt | cbrt | exp | log | log10 | log2 | sin | cos
  | tan | atan | max | min | pow | atan2 | hypot | random
  deriving DecidableEq, Inhabited

namespace MathFunction

/-- Those of one argument. -/
def unary : List MathFunction :=
  [abs, floor, ceil, round, trunc, sign, sqrt, cbrt, exp, log, log10, log2, sin, cos, tan, atan]

/-- Those of several arguments or none. -/
def others : List MathFunction := [max, min, pow, atan2, hypot, random]

def name : MathFunction → String
  | abs => "abs" | floor => "floor" | ceil => "ceil" | round => "round" | trunc => "trunc"
  | sign => "sign" | sqrt => "sqrt" | cbrt => "cbrt" | exp => "exp" | log => "log"
  | log10 => "log10" | log2 => "log2" | sin => "sin" | cos => "cos" | tan => "tan"
  | atan => "atan" | max => "max" | min => "min" | pow => "pow" | atan2 => "atan2"
  | hypot => "hypot" | random => "random"

end MathFunction

/-- Functions of `JSON`. -/
inductive JsonFunction where
  | stringify | parse
  deriving DecidableEq, Inhabited

def JsonFunction.name : JsonFunction → String
  | stringify => "stringify"
  | parse => "parse"

/-- Functions of `Object`. -/
inductive ObjectFunction where
  | keys | values | entries | assign | fromEntries | freeze | is
  deriving DecidableEq, Inhabited

namespace ObjectFunction

def all : List ObjectFunction := [keys, values, entries, assign, fromEntries, freeze, is]

def name : ObjectFunction → String
  | keys => "keys"
  | values => "values"
  | entries => "entries"
  | assign => "assign"
  | fromEntries => "fromEntries"
  | freeze => "freeze"
  | is => "is"

end ObjectFunction

/-- Functions of `Array`. -/
inductive ArrayFunction where
  | isArray | ofSource | ofItems
  deriving DecidableEq, Inhabited

namespace ArrayFunction

def all : List ArrayFunction := [isArray, ofSource, ofItems]

def name : ArrayFunction → String
  | isArray => "isArray"
  | ofSource => "from"
  | ofItems => "of"

end ArrayFunction

/-- Functions of `Number`; they look at the value as it is. -/
inductive NumberFunction where
  | isInteger | isFinite | isNaN | parseFloat
  deriving DecidableEq, Inhabited

namespace NumberFunction

def all : List NumberFunction := [isInteger, isFinite, isNaN, parseFloat]

def name : NumberFunction → String
  | isInteger => "isInteger"
  | isFinite => "isFinite"
  | isNaN => "isNaN"
  | parseFloat => "parseFloat"

end NumberFunction

/-- Globals that convert or construct. -/
inductive ConstructorName where
  | object | array | string | number | boolean | date
  deriving DecidableEq, Inhabited

def ConstructorName.name : ConstructorName → String
  | object => "Object"
  | array => "Array"
  | string => "String"
  | number => "Number"
  | boolean => "Boolean"
  | date => "Date"

/-- Plain global functions. -/
inductive GlobalFunction where
  | parseInt | parseFloat | isNaN | isFinite | structuredClone | setTimeout | setInterval
  | clearTimeout | clearInterval
  deriving DecidableEq, Inhabited

namespace GlobalFunction

def all : List GlobalFunction :=
  [parseInt, parseFloat, isNaN, isFinite, structuredClone, setTimeout, setInterval, clearTimeout,
    clearInterval]

def name : GlobalFunction → String
  | parseInt => "parseInt"
  | parseFloat => "parseFloat"
  | isNaN => "isNaN"
  | isFinite => "isFinite"
  | structuredClone => "structuredClone"
  | setTimeout => "setTimeout"
  | setInterval => "setInterval"
  | clearTimeout => "clearTimeout"
  | clearInterval => "clearInterval"

end GlobalFunction

/-- Methods of arrays. -/
inductive ArrayMethod where
  | map | filter | forEach | reduce | reduceRight | find | findIndex | findLast | findLastIndex
  | someItem | every | includes | indexOf | lastIndexOf | join | slice | concat | push | pop | shift
  | unshift | splice | reverse | sort | flat | flatMap | fill | atIndex | keys | entries | toText
  deriving DecidableEq, Inhabited

namespace ArrayMethod

def all : List ArrayMethod :=
  [map, filter, forEach, reduce, reduceRight, find, findIndex, findLast, findLastIndex, someItem,
    every, includes, indexOf, lastIndexOf, join, slice, concat, push, pop, shift, unshift, splice,
    reverse, sort, flat, flatMap, fill, atIndex, keys, entries, toText]

def name : ArrayMethod → String
  | map => "map" | filter => "filter" | forEach => "forEach" | reduce => "reduce"
  | reduceRight => "reduceRight" | find => "find" | findIndex => "findIndex"
  | findLast => "findLast" | findLastIndex => "findLastIndex" | someItem => "some"
  | every => "every" | includes => "includes" | indexOf => "indexOf"
  | lastIndexOf => "lastIndexOf" | join => "join" | slice => "slice" | concat => "concat"
  | push => "push" | pop => "pop" | shift => "shift" | unshift => "unshift"
  | splice => "splice" | reverse => "reverse" | sort => "sort" | flat => "flat"
  | flatMap => "flatMap" | fill => "fill" | atIndex => "at" | keys => "keys"
  | entries => "entries" | toText => "toString"

def ofName? (key : String) : Option ArrayMethod := all.find? (·.name == key)

end ArrayMethod

/-- Methods of strings. -/
inductive TextMethod where
  | toUpperCase | toLowerCase | trim | trimStart | trimEnd | split | includes | startsWith
  | endsWith | indexOf | lastIndexOf | slice | substring | charAt | replace | replaceAll | padStart
  | padEnd | repeat | atIndex | charCodeAt | localeCompare | concat | toText
  deriving DecidableEq, Inhabited

namespace TextMethod

def all : List TextMethod :=
  [toUpperCase, toLowerCase, trim, trimStart, trimEnd, split, includes, startsWith, endsWith,
    indexOf, lastIndexOf, slice, substring, charAt, replace, replaceAll, padStart, padEnd, .repeat,
    atIndex, charCodeAt, localeCompare, concat, toText]

def name : TextMethod → String
  | toUpperCase => "toUpperCase" | toLowerCase => "toLowerCase" | trim => "trim"
  | trimStart => "trimStart" | trimEnd => "trimEnd" | split => "split"
  | includes => "includes" | startsWith => "startsWith" | endsWith => "endsWith"
  | indexOf => "indexOf" | lastIndexOf => "lastIndexOf" | slice => "slice"
  | substring => "substring" | charAt => "charAt" | replace => "replace"
  | replaceAll => "replaceAll" | padStart => "padStart" | padEnd => "padEnd"
  | .repeat => "repeat" | atIndex => "at" | charCodeAt => "charCodeAt"
  | localeCompare => "localeCompare" | concat => "concat" | toText => "toString"

def ofName? (key : String) : Option TextMethod := all.find? (·.name == key)

end TextMethod

/-- Methods of numbers. -/
inductive NumberMethod where
  | toFixed | toText | toLocaleString | valueOf
  deriving DecidableEq, Inhabited

namespace NumberMethod

def all : List NumberMethod := [toFixed, toText, toLocaleString, valueOf]

def name : NumberMethod → String
  | toFixed => "toFixed"
  | toText => "toString"
  | toLocaleString => "toLocaleString"
  | valueOf => "valueOf"

def ofName? (key : String) : Option NumberMethod := all.find? (·.name == key)

end NumberMethod

/-- Methods of dates, in the order in which a date lists them. -/
inductive DateMethod where
  | getTime | valueOf | getFullYear | getMonth | getDate | getDay | getHours | getMinutes
  | getSeconds | getMilliseconds | toISOString | toJSON | toLocaleDateString | toLocaleTimeString
  | toLocaleString | toDateString
  deriving DecidableEq, Inhabited

namespace DateMethod

def all : List DateMethod :=
  [getTime, valueOf, getFullYear, getMonth, getDate, getDay, getHours, getMinutes, getSeconds,
    getMilliseconds, toISOString, toJSON, toLocaleDateString, toLocaleTimeString, toLocaleString,
    toDateString]

def name : DateMethod → String
  | getTime => "getTime" | valueOf => "valueOf" | getFullYear => "getFullYear"
  | getMonth => "getMonth" | getDate => "getDate" | getDay => "getDay" | getHours => "getHours"
  | getMinutes => "getMinutes" | getSeconds => "getSeconds"
  | getMilliseconds => "getMilliseconds" | toISOString => "toISOString" | toJSON => "toJSON"
  | toLocaleDateString => "toLocaleDateString" | toLocaleTimeString => "toLocaleTimeString"
  | toLocaleString => "toLocaleString" | toDateString => "toDateString"

end DateMethod

/-- Functions that a component calls while it renders. -/
inductive Hook where
  | useState | useReducer | useEffect | useLayoutEffect | useMemo | useCallback | useRef | useId
  | useContext
  deriving DecidableEq, Inhabited

namespace Hook

def all : List Hook :=
  [useState, useReducer, useEffect, useLayoutEffect, useMemo, useCallback, useRef, useId,
    useContext]

def name : Hook → String
  | useState => "useState"
  | useReducer => "useReducer"
  | useEffect => "useEffect"
  | useLayoutEffect => "useLayoutEffect"
  | useMemo => "useMemo"
  | useCallback => "useCallback"
  | useRef => "useRef"
  | useId => "useId"
  | useContext => "useContext"

end Hook

/-- Functions on the children of an element. -/
inductive ChildrenFunction where
  | toArray | count | map | forEach | only
  deriving DecidableEq, Inhabited

namespace ChildrenFunction

def all : List ChildrenFunction := [toArray, count, map, forEach, only]

def name : ChildrenFunction → String
  | toArray => "toArray"
  | count => "count"
  | map => "map"
  | forEach => "forEach"
  | only => "only"

end ChildrenFunction

/-- Other functions on elements. -/
inductive ElementFunction where
  | createElement | cloneElement | isValidElement | memo | forwardRef | createContext
  deriving DecidableEq, Inhabited

def ElementFunction.name : ElementFunction → String
  | createElement => "createElement"
  | cloneElement => "cloneElement"
  | isValidElement => "isValidElement"
  | memo => "memo"
  | forwardRef => "forwardRef"
  | createContext => "createContext"

/-- Functions on class names. -/
inductive ClassFunction where
  | clsx | twMerge | cn | cva
  deriving DecidableEq, Inhabited

def ClassFunction.name : ClassFunction → String
  | clsx => "clsx"
  | twMerge => "twMerge"
  | cn => "cn"
  | cva => "cva"

/-- Components and hooks of the router. -/
inductive RouterFunction where
  | browserRouter | memoryRouter | route | link | navLink | useNavigate | useLocation | useParams
  deriving DecidableEq, Inhabited

def RouterFunction.name : RouterFunction → String
  | browserRouter => "BrowserRouter"
  | memoryRouter => "MemoryRouter"
  | route => "Route"
  | link => "Link"
  | navLink => "NavLink"
  | useNavigate => "useNavigate"
  | useLocation => "useLocation"
  | useParams => "useParams"

/-- Methods of event objects. -/
inductive EventMethod where
  | preventDefault | stopPropagation | persist
  deriving DecidableEq, Inhabited

namespace EventMethod

def all : List EventMethod := [preventDefault, stopPropagation, persist]

def name : EventMethod → String
  | preventDefault => "preventDefault"
  | stopPropagation => "stopPropagation"
  | persist => "persist"

end EventMethod

end TsxPreview
