import Mathlib.Data.List.Forall2
import TsxPreview.Proofs.Lexer.Scanning
import TsxPreview.Proofs.Syntax.Height.Readers
import TsxPreview.Syntax.Printer

/-!
Formulas: what operators, calls and member accesses make of names and literals. Here is what a
formula is, the tokens that stand for it, and when two formulas are the same but for their spans. A
printed formula is read as its tokens: what the printer puts between two tokens keeps them apart, a
space, a bracket, or a character that neither goes on with a word nor with an operator.
-/

namespace TsxPreview

/-! ## The tokens of operators -/

def UnaryOp.kind : UnaryOp → TokenKind
  | not => .punct .bang
  | neg => .punct .minus
  | plus => .punct .plus
  | typeOf => .keyword .typeof
  | void => .keyword .void

def UpdateOp.kind : UpdateOp → TokenKind
  | increment => .punct .plusPlus
  | decrement => .punct .minusMinus

def BinaryOp.kind : BinaryOp → TokenKind
  | add => .punct .plus
  | sub => .punct .minus
  | mul => .punct .star
  | div => .punct .slash
  | mod => .punct .percent
  | exp => .punct .starStar
  | looseEq => .punct .eqEq
  | looseNotEq => .punct .bangEq
  | strictEq => .punct .eqEqEq
  | strictNotEq => .punct .bangEqEq
  | less => .punct .less
  | greater => .punct .greater
  | lessEq => .punct .lessEq
  | greaterEq => .punct .greaterEq
  | «in» => .keyword .in

def LogicalOp.kind : LogicalOp → TokenKind
  | and => .punct .ampAmp
  | or => .punct .pipePipe
  | nullish => .punct .questionQuestion

/-- The token of an operator that assigns; not every binary operator has one. -/
def AssignOp.kind : AssignOp → TokenKind
  | assign => .punct .eq
  | arithmetic .add => .punct .plusEq
  | arithmetic .sub => .punct .minusEq
  | arithmetic .mul => .punct .starEq
  | arithmetic .div => .punct .slashEq
  | arithmetic .mod => .punct .percentEq
  | logical .and => .punct .ampAmpEq
  | logical .or => .punct .pipePipeEq
  | logical .nullish => .punct .questionQuestionEq
  | arithmetic _ => .eof

namespace Parser.InfixOp

def kind : InfixOp → TokenKind
  | binary op => op.kind
  | logical op => op.kind

def text : InfixOp → String
  | binary op => op.text
  | logical op => op.text

/-- How tightly what the operator makes binds. -/
def level : InfixOp → Nat
  | binary op => Printer.binaryLevel op
  | logical op => Printer.logicalLevel op

/-- What the operator makes of two operands. -/
def node (op : InfixOp) (span : Span) (left right : Expr) : Expr :=
  match op with
  | binary op => .binary span op left right
  | logical op => .logical span op left right

/-- The operand on the left stands in parentheses. -/
def groupsLeft (e : Expr) : InfixOp → Bool
  | binary op =>
    Printer.level e < if op == .exp then Printer.binaryLevel op + 1 else Printer.binaryLevel op
  | logical op => Printer.mixesNullish op e || Printer.level e < Printer.logicalLevel op

/-- The operand on the right stands in parentheses. -/
def groupsRight (e : Expr) : InfixOp → Bool
  | binary op =>
    Printer.level e < if op == .exp then Printer.binaryLevel op else Printer.binaryLevel op + 1
  | logical op => Printer.mixesNullish op e || Printer.level e < Printer.logicalLevel op + 1

variable {op : InfixOp} {e : Expr}

theorem level_le_left (bare : op.groupsLeft e = false) :
    op.level ≤ Printer.level e ∧ (op = .binary .exp → op.level < Printer.level e) := by
  cases op with
  | binary op =>
    have le := Nat.not_lt.mp (of_decide_eq_false bare)
    by_cases power : op = .exp
    · subst power
      exact ⟨Nat.le_of_succ_le le, fun _ => le⟩
    · rw [if_neg (by simpa using power)] at le
      exact ⟨le, fun same => absurd (InfixOp.binary.inj same) power⟩
  | logical op =>
    simp only [groupsLeft, Bool.or_eq_false_iff, decide_eq_false_iff_not, Nat.not_lt] at bare
    exact ⟨bare.2, nofun⟩

theorem level_le_right (bare : op.groupsRight e = false) :
    op.level ≤ Printer.level e ∧ (op ≠ .binary .exp → op.level < Printer.level e) := by
  cases op with
  | binary op =>
    have le := Nat.not_lt.mp (of_decide_eq_false bare)
    by_cases power : op = .exp
    · subst power
      exact ⟨le, fun other => absurd rfl other⟩
    · rw [if_neg (by simpa using power)] at le
      exact ⟨Nat.le_of_succ_le le, fun _ => le⟩
  | logical op =>
    simp only [groupsRight, Bool.or_eq_false_iff, decide_eq_false_iff_not, Nat.not_lt] at bare
    exact ⟨Nat.le_of_succ_le bare.2, fun _ => bare.2⟩

end Parser.InfixOp

/-! ## Formulas -/

/-- A name that has no meaning of its own anywhere in an expression. -/
def isPlainName (name : String) : Bool :=
  Lexer.isWord name && (Keyword.ofText? name).isNone
    && !(["await", "async", "as", "satisfies"].contains name)

/-- The expression of an argument. -/
def Item.value? : Item → Option Expr
  | expr e | spread e => some e
  | hole => none

/-- An expression made of plain names, strings, truth values and `null` by operators, calls and
member accesses. The comparison `<` is not among the operators. -/
inductive Formula : Expr → Prop where
  | ident {span : Span} {name : String} (plain : isPlainName name = true) :
    Formula (.ident span name)
  | string {span : Span} {value : String} : Formula (.string span value)
  | bool {span : Span} {value : Bool} : Formula (.bool span value)
  | null {span : Span} : Formula (.null span)
  | unary {span : Span} {op : UnaryOp} {operand : Expr} (h : Formula operand) :
    Formula (.unary span op operand)
  | update {span : Span} {op : UpdateOp} {before : Bool} {target : Expr}
    (valid : target.isTarget = true) (h : Formula target) : Formula (.update span op before target)
  | binary {span : Span} {op : BinaryOp} {left right : Expr} (notLess : op ≠ .less)
    (hl : Formula left) (hr : Formula right) : Formula (.binary span op left right)
  | logical {span : Span} {op : LogicalOp} {left right : Expr} (hl : Formula left)
    (hr : Formula right) : Formula (.logical span op left right)
  | conditional {span : Span} {test yes no : Expr} (ht : Formula test) (hy : Formula yes)
    (hn : Formula no) : Formula (.conditional span test yes no)
  | assign {span : Span} {op : AssignOp} {target value : Expr}
    (spelled : Parser.assignOp? op.kind = some op) (valid : target.isTarget = true)
    (ht : Formula target) (hv : Formula value) : Formula (.assign span op target value)
  | sequence {span : Span} {exprs : List Expr} (two : 2 ≤ exprs.length)
    (h : ∀ e ∈ exprs, Formula e) : Formula (.sequence span exprs)
  | named {span : Span} {object : Expr} {name : String} {optional : Bool}
    (word : Lexer.isWord name = true) (h : Formula object) :
    Formula (.member span object (.named name) optional)
  | computed {span : Span} {object key : Expr} {optional : Bool} (ho : Formula object)
    (hk : Formula key) : Formula (.member span object (.computed key) optional)
  | call {span : Span} {callee : Expr} {args : List Item} {optional : Bool} (hc : Formula callee)
    (full : ∀ a ∈ args, a.value?.isSome = true)
    (ha : ∀ a ∈ args, ∀ e, a.value? = some e → Formula e) :
    Formula (.call span callee args optional)
  | new {span : Span} {callee : Expr} {args : List Item} (hc : Formula callee)
    (full : ∀ a ∈ args, a.value?.isSome = true)
    (ha : ∀ a ∈ args, ∀ e, a.value? = some e → Formula e) : Formula (.new span callee args)

/-! ## Tokens -/

/-- Tokens in parentheses, if they have to be. -/
def grouped (b : Bool) (kinds : List TokenKind) : List TokenKind :=
  if b then .punct .lParen :: kinds ++ [.punct .rParen] else kinds

/-- Groups of tokens with commas between them. -/
def commaKinds (parts : List (List TokenKind)) : List TokenKind :=
  [.punct .comma].intercalate parts

mutual

/-- The tokens of a printed formula. -/
def Expr.kinds : Expr → List TokenKind
  | .string _ value => [.string value]
  | .bool _ value => [.keyword (if value then .true else .false)]
  | .null _ => [.keyword .null]
  | .ident _ name => [Lexer.wordKind name]
  | .unary _ op operand =>
    op.kind :: grouped (Printer.isSignedOperand operand ||
      decide (Printer.level operand < Printer.unaryLevel)) operand.kinds
  | .update _ op before target =>
    let kinds := grouped (Printer.level target < Printer.postfixLevel) target.kinds
    if before then op.kind :: kinds else kinds ++ [op.kind]
  | .binary _ op left right =>
    grouped ((Parser.InfixOp.binary op).groupsLeft left) left.kinds ++ op.kind ::
      grouped ((Parser.InfixOp.binary op).groupsRight right) right.kinds
  | .logical _ op left right =>
    grouped ((Parser.InfixOp.logical op).groupsLeft left) left.kinds ++ op.kind ::
      grouped ((Parser.InfixOp.logical op).groupsRight right) right.kinds
  | .conditional _ test yes no =>
    grouped (Printer.level test < Printer.nullishLevel) test.kinds ++ .punct .question ::
      (grouped (Printer.level yes < Printer.assignLevel) yes.kinds ++ .punct .colon ::
        grouped (Printer.level no < Printer.assignLevel) no.kinds)
  | .assign _ op target value =>
    grouped (Printer.level target < Printer.callLevel) target.kinds ++ op.kind ::
      grouped (Printer.level value < Printer.assignLevel) value.kinds
  | .sequence _ exprs => commaKinds (listKinds exprs)
  | .member _ of key optional =>
    grouped (Printer.level of < Printer.callLevel) of.kinds ++ keyKinds optional key
  | .call _ callee args optional =>
    grouped (Printer.level callee < Printer.callLevel) callee.kinds ++
      ((if optional then [.punct .questionDot] else []) ++
        grouped true (commaKinds (itemKinds args)))
  | .new _ callee args =>
    .keyword .new :: (grouped (Printer.level callee < Printer.callLevel + 1) callee.kinds ++
      grouped true (commaKinds (itemKinds args)))
  | _ => []

def Expr.listKinds : List Expr → List (List TokenKind)
  | [] => []
  | e :: es => grouped (Printer.level e < Printer.assignLevel) e.kinds :: listKinds es

def Expr.itemKinds : List Item → List (List TokenKind)
  | [] => []
  | .expr e :: rest => grouped (Printer.level e < Printer.assignLevel) e.kinds :: itemKinds rest
  | .spread e :: rest =>
    (.punct .dotDotDot :: grouped (Printer.level e < Printer.assignLevel) e.kinds) :: itemKinds rest
  | .hole :: rest => [] :: itemKinds rest

def Expr.keyKinds (optional : Bool) : Key → List TokenKind
  | .named name => [.punct (if optional then .questionDot else .dot), Lexer.wordKind name]
  | .computed key =>
    (if optional then [.punct .questionDot] else []) ++
      .punct .lBracket :: (key.kinds ++ [.punct .rBracket])

end

/-! ## Spans -/

mutual

/-- The expression with its own place and those of its operands forgotten. Functions, objects and
markup stay as they are. -/
def Expr.withoutSpans : Expr → Expr
  | .number _ value => .number Span.start value
  | .string _ value => .string Span.start value
  | .template _ texts exprs => .template Span.start texts (listWithoutSpans exprs)
  | .bool _ value => .bool Span.start value
  | .null _ => .null Span.start
  | .ident _ name => .ident Span.start name
  | .array _ items => .array Span.start (itemsWithoutSpans items)
  | .member _ of key optional =>
    .member Span.start of.withoutSpans (keyWithoutSpans key) optional
  | .call _ callee args optional =>
    .call Span.start callee.withoutSpans (itemsWithoutSpans args) optional
  | .new _ callee args => .new Span.start callee.withoutSpans (itemsWithoutSpans args)
  | .unary _ op operand => .unary Span.start op operand.withoutSpans
  | .update _ op before target => .update Span.start op before target.withoutSpans
  | .binary _ op left right => .binary Span.start op left.withoutSpans right.withoutSpans
  | .logical _ op left right => .logical Span.start op left.withoutSpans right.withoutSpans
  | .conditional _ test yes no =>
    .conditional Span.start test.withoutSpans yes.withoutSpans no.withoutSpans
  | .assign _ op target value => .assign Span.start op target.withoutSpans value.withoutSpans
  | .sequence _ exprs => .sequence Span.start (listWithoutSpans exprs)
  | e => e

def Expr.listWithoutSpans : List Expr → List Expr
  | [] => []
  | e :: es => e.withoutSpans :: listWithoutSpans es

def Expr.itemsWithoutSpans : List Item → List Item
  | [] => []
  | .expr e :: rest => .expr e.withoutSpans :: itemsWithoutSpans rest
  | .spread e :: rest => .spread e.withoutSpans :: itemsWithoutSpans rest
  | .hole :: rest => .hole :: itemsWithoutSpans rest

def Expr.keyWithoutSpans : Key → Key
  | .named name => .named name
  | .computed key => .computed key.withoutSpans

end

/-- The same expression, perhaps at another place. -/
def Expr.Alike (e e' : Expr) : Prop := e.withoutSpans = e'.withoutSpans

theorem Expr.isTarget_withoutSpans (e : Expr) : e.withoutSpans.isTarget = e.isTarget := by
  cases e <;> simp [Expr.withoutSpans, Expr.isTarget]

theorem Expr.Alike.isTarget {e e' : Expr} (h : e.Alike e') : e.isTarget = e'.isTarget := by
  rw [← e.isTarget_withoutSpans, ← e'.isTarget_withoutSpans, show e.withoutSpans = _ from h]

/-- The same argument, perhaps at another place. -/
def Item.Alike : Item → Item → Prop
  | .expr e, .expr e' | .spread e, .spread e' => e.Alike e'
  | .hole, .hole => True
  | _, _ => False

theorem Expr.listWithoutSpans_eq {es es' : List Expr} (h : List.Forall₂ Alike es es') :
    listWithoutSpans es = listWithoutSpans es' := by
  induction h with
  | nil => rfl
  | cons first _ ih =>
    rw [listWithoutSpans, listWithoutSpans, ih, show withoutSpans _ = _ from first]

theorem Expr.itemsWithoutSpans_eq {items items' : List Item}
    (h : List.Forall₂ Item.Alike items items') :
    itemsWithoutSpans items = itemsWithoutSpans items' := by
  induction h with
  | nil => rfl
  | @cons a b _ _ first _ ih =>
    cases a <;> cases b <;> first
      | exact first.elim
      | rw [itemsWithoutSpans, itemsWithoutSpans, ih, show Expr.withoutSpans _ = _ from first]
      | rw [itemsWithoutSpans, itemsWithoutSpans, ih]

/-! ## Printed operands -/

namespace Printer

/-- A text in parentheses, if it has to be. -/
def place (b : Bool) (text : String) : String := if b then parens text else text

theorem atLeast_eq (least : Nat) (e : Expr) (text : String) :
    atLeast least e text = place (level e < least) text := by
  simp [atLeast, place]

theorem logicalOperand_eq (op : LogicalOp) (least : Nat) (e : Expr) (text : String) :
    logicalOperand op least e text = place (mixesNullish op e || level e < least) text := by
  cases h : mixesNullish op e <;> simp [logicalOperand, atLeast_eq, place, h]

theorem unaryOperand_eq (e : Expr) (text : String) :
    (if isSignedOperand e then parens text else atLeast unaryLevel e text)
      = place (isSignedOperand e || level e < unaryLevel) text := by
  cases isSignedOperand e <;> simp [atLeast_eq, place]

attribute [local simp] expr atLeast_eq

theorem toList_expr_node (indent : Nat) (op : Parser.InfixOp) (span : Span) (left right : Expr) :
    (expr indent (op.node span left right)).toList
      = (place (op.groupsLeft left) (expr indent left)).toList ++
        ' ' :: (op.text.toList ++
          ' ' :: (place (op.groupsRight right) (expr indent right)).toList) := by
  cases op with
  | binary op =>
    by_cases power : op = .exp
    · subst power
      simp [Parser.InfixOp.node, Parser.InfixOp.groupsLeft, Parser.InfixOp.groupsRight,
        Parser.InfixOp.text]
    · have other : (op == .exp) = false := by simp [power]
      simp [Parser.InfixOp.node, Parser.InfixOp.groupsLeft, Parser.InfixOp.groupsRight,
        Parser.InfixOp.text, other]
  | logical op =>
    simp [Parser.InfixOp.node, logicalOperand_eq, Parser.InfixOp.groupsLeft,
      Parser.InfixOp.groupsRight, Parser.InfixOp.text]

theorem toList_expr_conditional (indent : Nat) (span : Span) (test yes no : Expr) :
    (expr indent (.conditional span test yes no)).toList
      = (place (level test < nullishLevel) (expr indent test)).toList ++
        ' ' :: (['?'] ++ ' ' :: ((place (level yes < assignLevel) (expr indent yes)).toList ++
          ' ' :: ([':'] ++ ' ' :: (place (level no < assignLevel) (expr indent no)).toList))) := by
  simp

theorem toList_expr_assign (indent : Nat) (span : Span) (op : AssignOp) (target value : Expr) :
    (expr indent (.assign span op target value)).toList
      = (place (level target < callLevel) (expr indent target)).toList ++
        ' ' :: (op.text.toList ++
          ' ' :: (place (level value < assignLevel) (expr indent value)).toList) := by
  simp

theorem toList_expr_member (indent : Nat) (span : Span) {object : Expr} {key : Key}
    {optional : Bool} (noNumber : isNumber object = false) :
    (expr indent (.member span object key optional)).toList
      = (place (level object < callLevel) (expr indent object)).toList ++
        (memberKey indent optional key).toList := by
  simp [noNumber]

theorem toList_expr_call (indent : Nat) (span : Span) (callee : Expr) (args : List Item)
    (optional : Bool) :
    (expr indent (.call span callee args optional)).toList
      = (place (level callee < callLevel) (expr indent callee)).toList ++
        ((if optional then "?." else "").toList ++
          '(' :: ((commas (items indent args)).toList ++ [')'])) := by
  simp [parens]

theorem toList_expr_new (indent : Nat) (span : Span) (callee : Expr) (args : List Item) :
    (expr indent (.new span callee args)).toList
      = Keyword.new.text.toList ++
        ' ' :: ((place (level callee < callLevel + 1) (expr indent callee)).toList ++
          '(' :: ((commas (items indent args)).toList ++ [')'])) := by
  simp [parens, Keyword.text]

end Printer

namespace Lexer

variable {depth : Nat} {closer : Closer} {outer : List Mode} {cs ds rest : List Char}
  {kind : TokenKind} {kinds kinds' : List TokenKind} {level : Nat}

/-! ## What may follow an expression -/

/-- `rest` goes on with none of the tokens at the end of an expression that binds this tightly. Only
those that bind looser than calls may end with an operator. -/
structure Apart (level : Nat) (rest : List Char) : Prop where
  word : rest.head?.all (!isIdentContinue ·) = true
  punct : level < Printer.callLevel → rest.head?.all (!continuesPunct ·) = true

theorem Apart.of_le {lower : Nat} (h : Apart lower rest) (le : lower ≤ level) : Apart level rest :=
  ⟨h.word, fun less => h.punct (by omega)⟩

theorem Apart.loose (h : Apart level rest) (less : level < Printer.callLevel) {other : Nat} :
    Apart other rest := ⟨h.word, fun _ => h.punct less⟩

/-- A space, a bracket or a mark that ends what stands before it. -/
theorem Apart.of_mem {c : Char} (h : c ∈ [' ', ')', ']', ',', ':', ';']) :
    Apart level (c :: rest) := by
  simp only [List.mem_cons, List.not_mem_nil, or_false] at h
  rcases h with rfl | rfl | rfl | rfl | rfl | rfl <;> exact ⟨rfl, fun _ => rfl⟩

/-- Behind a call, a member or a whole expression a word is all that must not follow. -/
theorem Apart.of_callLevel {c : Char} (le : Printer.callLevel ≤ level)
    (h : c ∈ ['.', '?', '[', '(', '+', '-']) : Apart level (c :: rest) := by
  refine ⟨?_, fun less => absurd le (by omega)⟩
  simp only [List.mem_cons, List.not_mem_nil, or_false] at h
  rcases h with rfl | rfl | rfl | rfl | rfl | rfl <;> rfl

/-! ## Pieces of printed formulas -/

/-- The text is read as the tokens wherever it stands in code, if `rest` follows. -/
def ReadAs (text : List Char) (kinds : List TokenKind) (rest : List Char) : Prop :=
  ∀ depth closer outer,
    Scans (.code depth closer :: outer) text kinds (.code depth closer :: outer) rest

namespace ReadAs

theorem nil : ReadAs [] [] rest := fun _ _ _ => .nil

theorem append (h : ReadAs cs kinds (ds ++ rest)) (k : ReadAs ds kinds' rest) :
    ReadAs (cs ++ ds) (kinds ++ kinds') rest := fun _ _ _ => .append (h _ _ _) (k _ _ _)

theorem cons (h : ReadAs cs [kind] (ds ++ rest)) (k : ReadAs ds kinds rest) :
    ReadAs (cs ++ ds) (kind :: kinds) rest := append h k

theorem space (h : ReadAs cs kinds rest) : ReadAs (' ' :: cs) kinds rest :=
  fun _ _ _ => .space (h _ _ _)

theorem punct {p : Punct} (plain : isPlainPunct p = true)
    (apart : rest.head?.all (!continuesPunct ·) = true) : ReadAs p.text.toList [.punct p] rest :=
  fun _ _ _ => .punct plain apart

theorem solid {p : Punct} (solid : isSolid p = true) : ReadAs p.text.toList [.punct p] rest :=
  fun _ _ _ => .solid solid

theorem word {name : String} (word : isWord name = true)
    (ends : rest.head?.all (!isIdentContinue ·) = true) :
    ReadAs name.toList [wordKind name] rest := fun _ _ _ => .word word ends

theorem keyword {k : Keyword} (ends : rest.head?.all (!isIdentContinue ·) = true) :
    ReadAs k.text.toList [.keyword k] rest := wordKind_text k ▸ word (isWord_text k) ends

/-- An operator between spaces. -/
theorem spaced (h : ReadAs cs [kind] (' ' :: ds ++ rest)) (k : ReadAs ds kinds rest) :
    ReadAs (' ' :: (cs ++ ' ' :: ds)) (kind :: kinds) rest := space (cons h (space k))

theorem grouped (h : ReadAs cs kinds (')' :: rest)) :
    ReadAs ('(' :: (cs ++ [')'])) (TsxPreview.grouped true kinds) rest := by
  show ReadAs (['('] ++ (cs ++ [')'])) _ rest
  exact cons (solid (p := .lParen) rfl) (append h (solid (p := .rParen) rfl))

/-- An operand, in parentheses if it has to be. -/
theorem place {b : Bool} {text : String}
    (h : ∀ rest, Apart level rest → ReadAs text.toList kinds rest)
    (bare : b = false → Apart level rest) :
    ReadAs (Printer.place b text).toList (TsxPreview.grouped b kinds) rest := by
  cases b with
  | true => simpa [Printer.place, Printer.parens] using grouped (h _ (.of_mem (by simp)))
  | false => exact h rest (bare rfl)

/-- Texts with commas between them. -/
theorem commas {texts : List String} {parts : List (List TokenKind)}
    (h : List.Forall₂ (fun text kinds => ∀ rest, Apart 0 rest → ReadAs text.toList kinds rest)
      texts parts) (apart : Apart 0 rest) :
    ReadAs (Printer.commas texts).toList (commaKinds parts) rest := by
  induction h with
  | nil => exact nil
  | cons first others ih =>
    cases others with
    | nil => simpa [Printer.commas, commaKinds] using first rest apart
    | cons second others =>
      have behind : ReadAs ([','] ++ _) _ _ := cons (solid (p := .comma) rfl) (space ih)
      have whole := append (first _ (.of_mem (c := ',') (by simp))) behind
      simpa [Printer.commas, commaKinds, String.toList_intercalate] using whole

/-! ### Operators -/

theorem infixOp {op : Parser.InfixOp} (notLess : op ≠ .binary .less) :
    ReadAs op.text.toList [op.kind] (' ' :: rest) := by
  obtain op | op := op
  · cases op with
    | less => exact absurd rfl notLess
    | lessEq => exact fun _ _ _ => Scans.lessEq
    | «in» => exact keyword (k := .in) rfl
    | add => exact punct (p := .plus) rfl rfl
    | sub => exact punct (p := .minus) rfl rfl
    | mul => exact punct (p := .star) rfl rfl
    | div => exact punct (p := .slash) rfl rfl
    | mod => exact punct (p := .percent) rfl rfl
    | exp => exact punct (p := .starStar) rfl rfl
    | looseEq => exact punct (p := .eqEq) rfl rfl
    | looseNotEq => exact punct (p := .bangEq) rfl rfl
    | strictEq => exact punct (p := .eqEqEq) rfl rfl
    | strictNotEq => exact punct (p := .bangEqEq) rfl rfl
    | greater => exact punct (p := .greater) rfl rfl
    | greaterEq => exact punct (p := .greaterEq) rfl rfl
  · cases op with
    | and => exact punct (p := .ampAmp) rfl rfl
    | or => exact punct (p := .pipePipe) rfl rfl
    | nullish => exact punct (p := .questionQuestion) rfl rfl

theorem assignOp {op : AssignOp} (spelled : Parser.assignOp? op.kind = some op) :
    ReadAs op.text.toList [op.kind] (' ' :: rest) := by
  have read {p : Punct} (text : op.text = p.text) (kind : op.kind = .punct p)
      (plain : isPlainPunct p = true) : ReadAs op.text.toList [op.kind] (' ' :: rest) := by
    rw [text, kind]
    exact punct plain rfl
  cases op with
  | assign => exact read (p := .eq) rfl rfl rfl
  | arithmetic op =>
    cases op with
    | add => exact read (p := .plusEq) (by decide) rfl rfl
    | sub => exact read (p := .minusEq) (by decide) rfl rfl
    | mul => exact read (p := .starEq) (by decide) rfl rfl
    | div => exact read (p := .slashEq) (by decide) rfl rfl
    | mod => exact read (p := .percentEq) (by decide) rfl rfl
    | _ => cases spelled
  | logical op =>
    cases op with
    | and => exact read (p := .ampAmpEq) (by decide) rfl rfl
    | or => exact read (p := .pipePipeEq) (by decide) rfl rfl
    | nullish => exact read (p := .questionQuestionEq) (by decide) rfl rfl

/-- An operator in front of its operand. -/
theorem unaryOp {op : UnaryOp} (apart : (ds ++ rest).head?.all (!continuesPunct ·) = true)
    (h : ReadAs ds kinds rest) :
    ReadAs ((Printer.unaryText op).toList ++ ds) (op.kind :: kinds) rest := by
  cases op with
  | not => exact cons (punct (p := .bang) rfl apart) h
  | neg => exact cons (punct (p := .minus) rfl apart) h
  | plus => exact cons (punct (p := .plus) rfl apart) h
  | typeOf =>
    have text : (Printer.unaryText .typeOf).toList = Keyword.typeof.text.toList ++ [' '] := by decide
    rw [text, List.append_assoc]
    exact cons (keyword rfl) (space h)
  | void =>
    have text : (Printer.unaryText .void).toList = Keyword.void.text.toList ++ [' '] := by decide
    rw [text, List.append_assoc]
    exact cons (keyword rfl) (space h)

theorem updateOp {op : UpdateOp} (apart : rest.head?.all (!continuesPunct ·) = true) :
    ReadAs (Printer.updateText op).toList [op.kind] rest := by
  cases op with
  | increment => exact punct (p := .plusPlus) rfl apart
  | decrement => exact punct (p := .minusMinus) rfl apart

end ReadAs

/-! ## How printed formulas start -/

/-- The text begins with a character that goes on with no operator. -/
def OpensApart (text : List Char) : Prop :=
  ∃ c more, text = c :: more ∧ continuesPunct c = false

namespace OpensApart

theorem append (h : OpensApart cs) : OpensApart (cs ++ ds) := by
  obtain ⟨c, more, rfl, other⟩ := h
  exact ⟨c, more ++ ds, rfl, other⟩

theorem head (h : OpensApart cs) : (cs ++ rest).head?.all (!continuesPunct ·) = true := by
  obtain ⟨c, more, rfl, other⟩ := h
  simp [other]

theorem place {b : Bool} {text : String} (h : b = false → OpensApart text.toList) :
    OpensApart (Printer.place b text).toList := by
  cases b with
  | true => exact ⟨'(', (text ++ ")").toList, by simp [Printer.place, Printer.parens], by decide⟩
  | false => exact h rfl

theorem word {name : String} (h : isWord name = true) : OpensApart name.toList := by
  unfold isWord at h
  split at h
  · cases h
  · rename_i c more text
    simp only [Bool.and_eq_true] at h
    exact ⟨c, more, text, continuesPunct_of_isIdentStart h.1.1⟩

end OpensApart

end Lexer

open Lexer

theorem isWord_of_isPlainName {name : String} (h : isPlainName name = true) :
    isWord name = true := by
  simp only [isPlainName, Bool.and_eq_true] at h
  exact h.1.1

theorem Formula.isNumber {e : Expr} (h : Formula e) : Printer.isNumber e = false := by
  cases h <;> rfl

theorem Printer.binaryLevel_lt (op : BinaryOp) : binaryLevel op < unaryLevel := by
  cases op <;> decide

theorem Printer.logicalLevel_lt (op : LogicalOp) : logicalLevel op < unaryLevel := by
  cases op <;> decide

/-- Only prefix operators are taken in by operators before them. -/
theorem Formula.opensApart {e : Expr} (h : Formula e)
    (tight : Printer.postfixLevel ≤ Printer.level e) (indent : Nat) :
    OpensApart (Printer.expr indent e).toList := by
  have operand {e : Expr} {least : Nat} {more : List Char} (le : Printer.postfixLevel ≤ least)
      (ih : Printer.postfixLevel ≤ Printer.level e → OpensApart (Printer.expr indent e).toList) :
      OpensApart ((Printer.place (Printer.level e < least) (Printer.expr indent e)).toList
        ++ more) := by
    refine (OpensApart.place fun bare => ih ?_).append
    have := of_decide_eq_false bare
    omega
  have loose {n : Nat} (level : Printer.level e = n) (less : n < Printer.postfixLevel) :
      OpensApart (Printer.expr indent e).toList := absurd tight (by omega)
  induction h with
  | ident plain => exact .word (isWord_of_isPlainName plain)
  | @string _ value =>
    exact ⟨'"', value.toList.flatMap Quoted.escape ++ ['"'],
      by simp [Printer.expr, quote, Quoted.encode], by decide⟩
  | @bool _ value =>
    rw [Printer.expr]
    cases value with
    | true => exact .word (isWord_text .true)
    | false => exact .word (isWord_text .false)
  | null => exact .word (isWord_text .null)
  | unary => exact loose (n := Printer.unaryLevel) rfl (by decide)
  | @update _ _ before _ _ _ ih =>
    cases before with
    | true => exact loose (n := Printer.unaryLevel) rfl (by decide)
    | false =>
      rw [Printer.expr, if_neg (by decide), Printer.atLeast_eq, String.toList_append]
      exact operand (Nat.le_refl _) fun tight => ih tight fun level less => absurd tight (by omega)
  | @binary _ op => exact loose rfl (Nat.lt_succ_of_lt (Printer.binaryLevel_lt op))
  | @logical _ op => exact loose rfl (Nat.lt_succ_of_lt (Printer.logicalLevel_lt op))
  | conditional => exact loose (n := Printer.conditionalLevel) rfl (by decide)
  | assign => exact loose (n := Printer.assignLevel) rfl (by decide)
  | sequence => exact loose (n := Printer.sequenceLevel) rfl (by decide)
  | named _ object ih | computed object _ ih =>
    rw [Printer.toList_expr_member _ _ object.isNumber]
    exact operand (by decide) fun tight => ih tight fun level less => absurd tight (by omega)
  | call _ _ _ ih =>
    rw [Printer.toList_expr_call]
    exact operand (by decide) fun tight => ih tight fun level less => absurd tight (by omega)
  | new =>
    rw [Printer.toList_expr_new]
    exact (OpensApart.word (isWord_text .new)).append

/-! ## Printed formulas -/

/-- What can be assigned to binds as tightly as a call. -/
theorem Expr.callLevel_le_of_isTarget {e : Expr} (h : e.isTarget = true) :
    Printer.callLevel ≤ Printer.level e := by
  unfold Expr.isTarget at h
  split at h
  · exact show Printer.callLevel ≤ Printer.primaryLevel by decide
  · exact Nat.le_refl _
  · cases h

/-- Prefix operators are the only formulas of their level. -/
theorem Formula.postfixLevel_le {e : Expr} (h : Formula e)
    (unsigned : Printer.isSignedOperand e = false)
    (tight : Printer.unaryLevel ≤ Printer.level e) : Printer.postfixLevel ≤ Printer.level e := by
  cases h with
  | unary => cases unsigned
  | @update _ _ before =>
    cases before with
    | true => cases unsigned
    | false => exact Nat.le_refl _
  | @binary _ op => exact absurd tight (Nat.not_le_of_lt (Printer.binaryLevel_lt op))
  | @logical _ op => exact absurd tight (Nat.not_le_of_lt (Printer.logicalLevel_lt op))
  | conditional =>
    exact absurd tight (show ¬ Printer.unaryLevel ≤ Printer.conditionalLevel by decide)
  | assign => exact absurd tight (show ¬ Printer.unaryLevel ≤ Printer.assignLevel by decide)
  | sequence => exact absurd tight (show ¬ Printer.unaryLevel ≤ Printer.sequenceLevel by decide)
  | named | computed | call | new => exact show Printer.postfixLevel ≤ Printer.callLevel by decide
  | ident | string | bool | null =>
    exact show Printer.postfixLevel ≤ Printer.primaryLevel by decide

/-- The text of an expression is read as its tokens. -/
def Expr.Spelled (indent : Nat) (e : Expr) : Prop :=
  ∀ rest, Apart (Printer.level e) rest → ReadAs (Printer.expr indent e).toList e.kinds rest

namespace Expr.Spelled

-- Makes the equations once, before the proofs below ask for them all at the same time.
attribute [local simp] Expr.kinds

variable {indent : Nat} {e left right : Expr} {span : Span} {rest : List Char}

theorem exprs {es : List Expr} (h : ∀ e ∈ es, e.Spelled indent) :
    List.Forall₂ (fun text kinds => ∀ rest, Apart 0 rest → ReadAs text.toList kinds rest)
      (Printer.exprs indent Printer.assignLevel es) (Expr.listKinds es) := by
  induction es with
  | nil => exact .nil
  | cons e es ih =>
    refine .cons (fun rest apart => ?_) (ih fun e mem => h e (List.mem_cons_of_mem _ mem))
    rw [Printer.atLeast_eq]
    exact .place (h e List.mem_cons_self) fun _ => apart.of_le (Nat.zero_le _)

theorem items {args : List Item} (full : ∀ a ∈ args, a.value?.isSome = true)
    (h : ∀ a ∈ args, ∀ e, a.value? = some e → e.Spelled indent) :
    List.Forall₂ (fun text kinds => ∀ rest, Apart 0 rest → ReadAs text.toList kinds rest)
      (Printer.items indent args) (Expr.itemKinds args) := by
  induction args with
  | nil => exact .nil
  | cons a args ih =>
    have others := ih (fun a mem => full a (List.mem_cons_of_mem _ mem))
      fun a mem => h a (List.mem_cons_of_mem _ mem)
    have first {e : Expr} (value : a.value? = some e) {rest : List Char} (apart : Apart 0 rest) :
        ReadAs (Printer.atLeast Printer.assignLevel e (Printer.expr indent e)).toList
          (grouped (Printer.level e < Printer.assignLevel) e.kinds) rest := by
      rw [Printer.atLeast_eq]
      exact .place (h a List.mem_cons_self e value) fun _ => apart.of_le (Nat.zero_le _)
    cases a with
    | expr e => exact .cons (fun _ apart => first rfl apart) others
    | spread e =>
      refine .cons (fun rest apart => ?_) others
      rw [String.toList_append]
      exact .cons (.solid (p := .dotDotDot) rfl) (first rfl apart)
    | hole => exact absurd (full _ List.mem_cons_self) (by decide)

/-- The arguments of a call in their parentheses. -/
theorem arguments {args : List Item} (full : ∀ a ∈ args, a.value?.isSome = true)
    (h : ∀ a ∈ args, ∀ e, a.value? = some e → e.Spelled indent) :
    ReadAs ('(' :: ((Printer.commas (Printer.items indent args)).toList ++ [')']))
      (grouped true (commaKinds (Expr.itemKinds args))) rest :=
  .grouped (.commas (items full h) (.of_mem (by simp)))

theorem unary {op : UnaryOp} (formula : Formula e) (h : e.Spelled indent) :
    (Expr.unary span op e).Spelled indent := by
  intro rest apart
  rw [Printer.expr, Printer.unaryOperand_eq, String.toList_append, Expr.kinds]
  have bare (b : (Printer.isSignedOperand e ||
      decide (Printer.level e < Printer.unaryLevel)) = false) :
      Printer.isSignedOperand e = false ∧ Printer.unaryLevel ≤ Printer.level e := by
    simpa using b
  refine .unaryOp (OpensApart.place fun b => ?_).head (.place h fun b => apart.of_le (bare b).2)
  exact formula.opensApart (formula.postfixLevel_le (bare b).1 (bare b).2) indent

theorem update {op : UpdateOp} {before : Bool} (formula : Formula e) (valid : e.isTarget = true)
    (h : e.Spelled indent) : (Expr.update span op before e).Spelled indent := by
  intro rest apart
  have tight := callLevel_le_of_isTarget valid
  have whole : Printer.postfixLevel ≤ Printer.level e := Nat.le_trans (by decide) tight
  cases before with
  | true =>
    rw [Printer.expr, if_pos rfl, Expr.kinds, if_pos rfl, Printer.atLeast_eq, String.toList_append]
    refine .cons (.updateOp (OpensApart.place fun _ => formula.opensApart whole indent).head)
      (.place h fun _ => apart.of_le ?_)
    exact Nat.le_trans (show Printer.unaryLevel ≤ Printer.callLevel by decide) tight
  | false =>
    rw [Printer.expr, if_neg (by decide), Expr.kinds, if_neg (by decide), Printer.atLeast_eq,
      String.toList_append]
    refine .append (.place h fun _ => ?_) (.updateOp (apart.punct ?_))
    · cases op <;> exact .of_callLevel tight (by decide)
    · exact show Printer.postfixLevel < Printer.callLevel by decide

theorem node (op : Parser.InfixOp) (notLess : op ≠ .binary .less) (hl : left.Spelled indent)
    (hr : right.Spelled indent) : (op.node span left right).Spelled indent := by
  intro rest apart
  have level : Printer.level (op.node span left right) = op.level := by cases op <;> rfl
  have kinds : (op.node span left right).kinds = grouped (op.groupsLeft left) left.kinds ++
      op.kind :: grouped (op.groupsRight right) right.kinds := by cases op <;> rfl
  rw [Printer.toList_expr_node, kinds]
  refine .append (.place hl fun _ => .of_mem (by simp))
    (.spaced (.infixOp notLess) (.place hr fun bare => apart.of_le ?_))
  rw [level]
  exact (Parser.InfixOp.level_le_right bare).1

theorem conditional {test yes no : Expr} (ht : test.Spelled indent) (hy : yes.Spelled indent)
    (hn : no.Spelled indent) : (Expr.conditional span test yes no).Spelled indent := by
  intro rest apart
  rw [Printer.toList_expr_conditional, Expr.kinds]
  refine .append (.place ht fun _ => .of_mem (by simp)) (.spaced (.punct (p := .question) rfl rfl)
    (.append (.place hy fun _ => .of_mem (by simp)) (.spaced (.solid (p := .colon) rfl)
      (.place hn fun _ => apart.loose ?_))))
  exact show Printer.conditionalLevel < Printer.callLevel by decide

theorem assign {op : AssignOp} {target value : Expr}
    (spelled : Parser.assignOp? op.kind = some op) (ht : target.Spelled indent)
    (hv : value.Spelled indent) : (Expr.assign span op target value).Spelled indent := by
  intro rest apart
  rw [Printer.toList_expr_assign, Expr.kinds]
  refine .append (.place ht fun _ => .of_mem (by simp)) (.spaced (.assignOp spelled)
    (.place hv fun _ => apart.loose ?_))
  exact show Printer.assignLevel < Printer.callLevel by decide

theorem sequence {es : List Expr} (h : ∀ e ∈ es, e.Spelled indent) :
    (Expr.sequence span es).Spelled indent := by
  intro rest apart
  rw [Printer.expr, Expr.kinds]
  exact .commas (exprs h)
    (apart.loose (show Printer.sequenceLevel < Printer.callLevel by decide))

/-- An operand in front of a call or a member access. -/
theorem callee (h : e.Spelled indent) {more : List Char} {c : Char}
    (link : c ∈ ['.', '?', '[', '(', '+', '-']) :
    ReadAs (Printer.place (Printer.level e < Printer.callLevel) (Printer.expr indent e)).toList
      (grouped (Printer.level e < Printer.callLevel) e.kinds) (c :: more) :=
  .place h fun bare => .of_callLevel (Nat.not_lt.mp (of_decide_eq_false bare)) link

theorem named {name : String} {optional : Bool} (formula : Formula e) (word : isWord name = true)
    (h : e.Spelled indent) : (Expr.member span e (.named name) optional).Spelled indent := by
  intro rest apart
  rw [Printer.toList_expr_member _ _ formula.isNumber, Expr.kinds, Expr.keyKinds,
    Printer.memberKey, String.toList_append]
  have head : (name.toList ++ rest).head?.all (!continuesPunct ·) = true :=
    (OpensApart.word word).head
  cases optional with
  | true =>
    exact .append (h.callee (by decide)) (.cons (.punct (p := .questionDot) rfl head)
      (.word word apart.word))
  | false =>
    exact .append (h.callee (by decide)) (.cons (.punct (p := .dot) rfl head)
      (.word word apart.word))

theorem computed {key : Expr} {optional : Bool} (formula : Formula e) (h : e.Spelled indent)
    (hk : key.Spelled indent) :
    (Expr.member span e (.computed key) optional).Spelled indent := by
  intro rest apart
  have bracketed : ReadAs (['['] ++ ((Printer.expr indent key).toList ++ [']']))
      (.punct .lBracket :: (key.kinds ++ [.punct .rBracket])) rest :=
    .cons (.solid (p := .lBracket) rfl)
      (.append (hk _ (.of_mem (by simp))) (.solid (p := .rBracket) rfl))
  rw [Printer.toList_expr_member _ _ formula.isNumber, Expr.kinds, Expr.keyKinds,
    Printer.memberKey, String.toList_append, String.toList_append, List.append_assoc]
  cases optional with
  | true =>
    have link : ReadAs (['?', '.'] ++ _) _ rest :=
      .cons (.punct (p := .questionDot) rfl rfl) bracketed
    exact .append (h.callee (by decide)) link
  | false => exact .append (h.callee (by decide)) bracketed

theorem call {args : List Item} {optional : Bool} (h : e.Spelled indent)
    (full : ∀ a ∈ args, a.value?.isSome = true)
    (ha : ∀ a ∈ args, ∀ e, a.value? = some e → e.Spelled indent) :
    (Expr.call span e args optional).Spelled indent := by
  intro rest apart
  rw [Printer.toList_expr_call, Expr.kinds]
  cases optional with
  | true =>
    exact .append (h.callee (by decide)) (.cons (.punct (p := .questionDot) rfl rfl)
      (arguments full ha))
  | false => exact .append (h.callee (by decide)) (.append .nil (arguments full ha))

theorem new {args : List Item} (h : e.Spelled indent)
    (full : ∀ a ∈ args, a.value?.isSome = true)
    (ha : ∀ a ∈ args, ∀ e, a.value? = some e → e.Spelled indent) :
    (Expr.new span e args).Spelled indent := by
  intro rest apart
  rw [Printer.toList_expr_new, Expr.kinds]
  refine .cons (.keyword rfl) (.space (.append (.place h fun bare => ?_) (arguments full ha)))
  exact .of_callLevel (Nat.le_of_succ_le (Nat.not_lt.mp (of_decide_eq_false bare))) (by decide)

end Expr.Spelled

theorem Formula.spelled {e : Expr} (h : Formula e) (indent : Nat) : e.Spelled indent := by
  induction h with
  | ident plain => exact fun _ apart => .word (isWord_of_isPlainName plain) apart.word
  | @string _ value => exact fun _ _ _ _ _ => .string value
  | @bool _ value =>
    intro rest apart
    cases value with
    | true => exact .keyword (k := .true) apart.word
    | false => exact .keyword (k := .false) apart.word
  | null => exact fun _ apart => .keyword (k := .null) apart.word
  | unary formula ih => exact .unary formula ih
  | update valid formula ih => exact .update formula valid ih
  | @binary _ op _ _ notLess _ _ ihl ihr =>
    exact .node (.binary op) (fun less => notLess (by cases less; rfl)) ihl ihr
  | @logical _ op _ _ _ _ ihl ihr => exact .node (.logical op) nofun ihl ihr
  | conditional _ _ _ iht ihy ihn => exact .conditional iht ihy ihn
  | assign spelled _ _ _ iht ihv => exact .assign spelled iht ihv
  | sequence _ _ ih => exact .sequence ih
  | named word formula ih => exact .named formula word ih
  | computed formula _ iho ihk => exact .computed formula iho ihk
  | call _ full _ ihc iha => exact .call ihc full iha
  | new _ full _ ihc iha => exact .new ihc full iha

end TsxPreview
