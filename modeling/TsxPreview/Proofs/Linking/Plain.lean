import Mathlib.Logic.Basic
import TsxPreview.Proofs.Linking.Parts

/-!
What linking leaves of source code. A tree is raw where it has statements of module syntax, or
markup. Lowering removes all markup but what stands inside an export, and no module syntax; linking
replaces the module syntax of the top level. So a linked module is free of both exactly when the
module that was read has no import or export below its top level.
-/

namespace TsxPreview

/-! ## Raw trees -/

mutual

/-- An import or an export occurs in the tree, or markup where that counts. -/
def Expr.raw (markup : Bool) : Expr → Bool
  | .number _ _ | .string _ _ | .bool _ _ | .null _ | .ident _ _ => false
  | .template _ _ exprs => Expr.rawAny markup exprs
  | .array _ items => Expr.rawItems markup items
  | .object _ props => Expr.rawProperties markup props
  | .function _ fn => fn.raw markup
  | .member _ object key _ => object.raw markup || key.raw markup
  | .call _ callee args _ => callee.raw markup || Expr.rawItems markup args
  | .new _ callee args => callee.raw markup || Expr.rawItems markup args
  | .unary _ _ operand => operand.raw markup
  | .update _ _ _ target => target.raw markup
  | .binary _ _ left right => left.raw markup || right.raw markup
  | .logical _ _ left right => left.raw markup || right.raw markup
  | .conditional _ test yes no => test.raw markup || yes.raw markup || no.raw markup
  | .assign _ _ target value => target.raw markup || value.raw markup
  | .sequence _ exprs => Expr.rawAny markup exprs
  | .jsx _ element => markup || element.raw markup

def Expr.rawAny (markup : Bool) : List Expr → Bool
  | [] => false
  | e :: rest => e.raw markup || Expr.rawAny markup rest

def Expr.rawOption (markup : Bool) : Option Expr → Bool
  | none => false
  | some e => e.raw markup

def Expr.rawItems (markup : Bool) : List Item → Bool
  | [] => false
  | i :: rest => i.raw markup || Expr.rawItems markup rest

def Item.raw (markup : Bool) : Item → Bool
  | .expr value => value.raw markup
  | .spread value => value.raw markup
  | .hole => false

def Key.raw (markup : Bool) : Key → Bool
  | .named _ => false
  | .computed expr => expr.raw markup

def Expr.rawProperties (markup : Bool) : List Property → Bool
  | [] => false
  | p :: rest => p.raw markup || Expr.rawProperties markup rest

def Property.raw (markup : Bool) : Property → Bool
  | .pair key value => key.raw markup || value.raw markup
  | .shorthand _ => false
  | .spread value => value.raw markup

def Pattern.raw (markup : Bool) : Pattern → Bool
  | .ident _ => false
  | .object props rest => Pattern.rawProperties markup props || Pattern.rawOption markup rest
  | .array elems rest => Pattern.rawElements markup elems || Pattern.rawOption markup rest

def Pattern.rawOption (markup : Bool) : Option Pattern → Bool
  | none => false
  | some p => p.raw markup

def Pattern.rawProperties (markup : Bool) : List PatternProperty → Bool
  | [] => false
  | .mk key binding :: rest =>
    key.raw markup || binding.raw markup || Pattern.rawProperties markup rest

def Pattern.rawElements (markup : Bool) : List (Option Binding) → Bool
  | [] => false
  | none :: rest => Pattern.rawElements markup rest
  | some binding :: rest => binding.raw markup || Pattern.rawElements markup rest

def Binding.raw (markup : Bool) : Binding → Bool
  | .mk pattern fallback => pattern.raw markup || Expr.rawOption markup fallback

def Function.rawParams (markup : Bool) : List Binding → Bool
  | [] => false
  | b :: rest => b.raw markup || Function.rawParams markup rest

def Function.raw (markup : Bool) : Function → Bool
  | .mk _ params rest body _ _ =>
    Function.rawParams markup params || body.raw markup || Pattern.rawOption markup rest

def Body.raw (markup : Bool) : Body → Bool
  | .block stmts => Stmt.rawAny markup stmts
  | .expr value => value.raw markup

def Stmt.rawDeclarators (markup : Bool) : List Declarator → Bool
  | [] => false
  | .mk pattern init _ :: rest =>
    pattern.raw markup || Expr.rawOption markup init || Stmt.rawDeclarators markup rest

def Stmt.rawAny (markup : Bool) : List Stmt → Bool
  | [] => false
  | t :: rest => t.raw markup || Stmt.rawAny markup rest

def Stmt.rawOption (markup : Bool) : Option Stmt → Bool
  | none => false
  | some t => t.raw markup

def Stmt.rawBlock (markup : Bool) : Option (List Stmt) → Bool
  | none => false
  | some stmts => Stmt.rawAny markup stmts

def Stmt.rawCases (markup : Bool) : List SwitchCase → Bool
  | [] => false
  | .mk test body :: rest =>
    Expr.rawOption markup test || Stmt.rawAny markup body || Stmt.rawCases markup rest

def Stmt.raw (markup : Bool) : Stmt → Bool
  | .«import» _ _ | .«export» _ _ => true
  | .«break» _ | .«continue» _ | .empty _ => false
  | .var _ _ declarators => Stmt.rawDeclarators markup declarators
  | .function _ fn => fn.raw markup
  | .«return» _ value => Expr.rawOption markup value
  | .«if» _ test yes no => test.raw markup || yes.raw markup || Stmt.rawOption markup no
  | .«for» _ init test update body =>
    Stmt.rawOption markup init || Expr.rawOption markup test || Expr.rawOption markup update
      || body.raw markup
  | .forEach _ _ _ pattern iterable body =>
    pattern.raw markup || iterable.raw markup || body.raw markup
  | .«while» _ test body => test.raw markup || body.raw markup
  | .switch _ subject cases => subject.raw markup || Stmt.rawCases markup cases
  | .throw _ value => value.raw markup
  | .«try» _ block param handler finalizer =>
    Stmt.rawAny markup block || Pattern.rawOption markup param || Stmt.rawBlock markup handler
      || Stmt.rawBlock markup finalizer
  | .block _ stmts => Stmt.rawAny markup stmts
  | .expr _ value => value.raw markup

def JsxElement.raw (markup : Bool) : JsxElement → Bool
  | .mk name attrs children _ =>
    name.raw markup || JsxElement.rawAttrs markup attrs || JsxElement.rawChildren markup children

def JsxName.raw (markup : Bool) : JsxName → Bool
  | .fragment => false
  | .tag _ => false
  | .component expr => expr.raw markup

def JsxElement.rawAttrs (markup : Bool) : List JsxAttr → Bool
  | [] => false
  | .named _ value _ :: rest =>
    JsxElement.rawAttrValue markup value || JsxElement.rawAttrs markup rest
  | .spread value :: rest => value.raw markup || JsxElement.rawAttrs markup rest

def JsxElement.rawAttrValue (markup : Bool) : Option JsxContent → Bool
  | none => false
  | some (.text _) => false
  | some (.expr value) => value.raw markup
  | some (.element element) => element.raw markup

def JsxElement.rawChildren (markup : Bool) : List JsxContent → Bool
  | [] => false
  | .text _ :: rest => JsxElement.rawChildren markup rest
  | .expr value :: rest => value.raw markup || JsxElement.rawChildren markup rest
  | .element element :: rest => element.raw markup || JsxElement.rawChildren markup rest

end

/-! ## Lowering -/

namespace Traced

variable {α β : Type}

@[simp] theorem value_pure (a : α) : (pure a : Traced α).value = a := rfl

@[simp] theorem value_bind (x : Traced α) (f : α → Traced β) :
    (x >>= f).value = (f x.value).value := rfl

end Traced

mutual

/-- What lowering leaves raw is what had module syntax in it before. -/
theorem Expr.raw_lower : (e : Expr) → e.lower.value.raw true = e.raw false
  | .number _ _ | .string _ _ | .bool _ _ | .null _ | .ident _ _ => rfl
  | .template _ _ exprs => Expr.rawAny_lower exprs
  | .array _ items => Expr.rawItems_lower items
  | .object _ props => Expr.rawProperties_lower props
  | .function _ fn => Function.raw_lower fn
  | .member _ object key _ => congrArg₂ or (Expr.raw_lower object) (Key.raw_lower key)
  | .call _ callee args _ => congrArg₂ or (Expr.raw_lower callee) (Expr.rawItems_lower args)
  | .new _ callee args => congrArg₂ or (Expr.raw_lower callee) (Expr.rawItems_lower args)
  | .unary _ _ operand => Expr.raw_lower operand
  | .update _ _ _ target => Expr.raw_lower target
  | .binary _ _ left right => congrArg₂ or (Expr.raw_lower left) (Expr.raw_lower right)
  | .logical _ _ left right => congrArg₂ or (Expr.raw_lower left) (Expr.raw_lower right)
  | .conditional _ test yes no =>
    congrArg₂ or (congrArg₂ or (Expr.raw_lower test) (Expr.raw_lower yes)) (Expr.raw_lower no)
  | .assign _ _ target value => congrArg₂ or (Expr.raw_lower target) (Expr.raw_lower value)
  | .sequence _ exprs => Expr.rawAny_lower exprs
  | .jsx _ element => JsxElement.raw_lower element

theorem Expr.rawAny_lower :
    (exprs : List Expr) → Expr.rawAny true (Expr.lowerExprs exprs).value = Expr.rawAny false exprs
  | [] => rfl
  | e :: rest => congrArg₂ or (Expr.raw_lower e) (Expr.rawAny_lower rest)

theorem Expr.rawOption_lower :
    (e : Option Expr) → Expr.rawOption true (Expr.lowerOption e).value = Expr.rawOption false e
  | none => rfl
  | some e => Expr.raw_lower e

theorem Expr.rawItems_lower :
    (items : List Item) →
      Expr.rawItems true (Expr.lowerItems items).value = Expr.rawItems false items
  | [] => rfl
  | i :: rest => congrArg₂ or (Item.raw_lower i) (Expr.rawItems_lower rest)

theorem Item.raw_lower : (i : Item) → i.lower.value.raw true = i.raw false
  | .expr value => Expr.raw_lower value
  | .spread value => Expr.raw_lower value
  | .hole => rfl

theorem Key.raw_lower : (key : Key) → key.lower.value.raw true = key.raw false
  | .named _ => rfl
  | .computed expr => Expr.raw_lower expr

theorem Expr.rawProperties_lower :
    (props : List Property) →
      Expr.rawProperties true (Expr.lowerProperties props).value = Expr.rawProperties false props
  | [] => rfl
  | p :: rest => congrArg₂ or (Property.raw_lower p) (Expr.rawProperties_lower rest)

theorem Property.raw_lower : (p : Property) → p.lower.value.raw true = p.raw false
  | .pair key value => congrArg₂ or (Key.raw_lower key) (Expr.raw_lower value)
  | .shorthand _ => rfl
  | .spread value => Expr.raw_lower value

theorem Pattern.raw_lower : (p : Pattern) → p.lower.value.raw true = p.raw false
  | .ident _ => rfl
  | .object props rest =>
    congrArg₂ or (Pattern.rawProperties_lower props) (Pattern.rawOption_lower rest)
  | .array elems rest =>
    congrArg₂ or (Pattern.rawElements_lower elems) (Pattern.rawOption_lower rest)

theorem Pattern.rawOption_lower :
    (p : Option Pattern) →
      Pattern.rawOption true (Pattern.lowerOption p).value = Pattern.rawOption false p
  | none => rfl
  | some p => Pattern.raw_lower p

theorem Pattern.rawProperties_lower :
    (props : List PatternProperty) →
      Pattern.rawProperties true (Pattern.lowerProperties props).value
        = Pattern.rawProperties false props
  | [] => rfl
  | .mk key binding :: rest =>
    congrArg₂ or (congrArg₂ or (Key.raw_lower key) (Binding.raw_lower binding))
      (Pattern.rawProperties_lower rest)

theorem Pattern.rawElements_lower :
    (elems : List (Option Binding)) →
      Pattern.rawElements true (Pattern.lowerElements elems).value
        = Pattern.rawElements false elems
  | [] => rfl
  | none :: rest => Pattern.rawElements_lower rest
  | some binding :: rest =>
    congrArg₂ or (Binding.raw_lower binding) (Pattern.rawElements_lower rest)

theorem Binding.raw_lower : (b : Binding) → b.lower.value.raw true = b.raw false
  | .mk pattern fallback =>
    congrArg₂ or (Pattern.raw_lower pattern) (Expr.rawOption_lower fallback)

theorem Function.rawParams_lower :
    (params : List Binding) →
      Function.rawParams true (Function.lowerParams params).value = Function.rawParams false params
  | [] => rfl
  | b :: rest => congrArg₂ or (Binding.raw_lower b) (Function.rawParams_lower rest)

theorem Function.raw_lower : (fn : Function) → fn.lower.value.raw true = fn.raw false
  | .mk _ params rest body _ _ =>
    congrArg₂ or (congrArg₂ or (Function.rawParams_lower params) (Body.raw_lower body))
      (Pattern.rawOption_lower rest)

theorem Body.raw_lower : (body : Body) → body.lower.value.raw true = body.raw false
  | .block stmts => Stmt.rawAny_lower stmts
  | .expr value => Expr.raw_lower value

theorem Stmt.rawDeclarators_lower :
    (declarators : List Declarator) →
      Stmt.rawDeclarators true (Stmt.lowerDeclarators declarators).value
        = Stmt.rawDeclarators false declarators
  | [] => rfl
  | .mk pattern init _ :: rest =>
    congrArg₂ or (congrArg₂ or (Pattern.raw_lower pattern) (Expr.rawOption_lower init))
      (Stmt.rawDeclarators_lower rest)

theorem Stmt.rawAny_lower :
    (stmts : List Stmt) → Stmt.rawAny true (Stmt.lowerAll stmts).value = Stmt.rawAny false stmts
  | [] => rfl
  | t :: rest => congrArg₂ or (Stmt.raw_lower t) (Stmt.rawAny_lower rest)

theorem Stmt.rawOption_lower :
    (t : Option Stmt) → Stmt.rawOption true (Stmt.lowerOption t).value = Stmt.rawOption false t
  | none => rfl
  | some t => Stmt.raw_lower t

theorem Stmt.rawBlock_lower :
    (stmts : Option (List Stmt)) →
      Stmt.rawBlock true (Stmt.lowerBlock stmts).value = Stmt.rawBlock false stmts
  | none => rfl
  | some stmts => Stmt.rawAny_lower stmts

theorem Stmt.rawCases_lower :
    (cases : List SwitchCase) →
      Stmt.rawCases true (Stmt.lowerCases cases).value = Stmt.rawCases false cases
  | [] => rfl
  | .mk test body :: rest =>
    congrArg₂ or (congrArg₂ or (Expr.rawOption_lower test) (Stmt.rawAny_lower body))
      (Stmt.rawCases_lower rest)

theorem Stmt.raw_lower : (t : Stmt) → t.lower.value.raw true = t.raw false
  -- below the top level these two stay as they are
  | .«import» _ _ | .«export» _ _ => rfl
  | .«break» _ | .«continue» _ | .empty _ => rfl
  | .var _ _ declarators => Stmt.rawDeclarators_lower declarators
  | .function _ fn => Function.raw_lower fn
  | .«return» _ value => Expr.rawOption_lower value
  | .«if» _ test yes no =>
    congrArg₂ or (congrArg₂ or (Expr.raw_lower test) (Stmt.raw_lower yes)) (Stmt.rawOption_lower no)
  | .«for» _ init test update body =>
    congrArg₂ or
      (congrArg₂ or (congrArg₂ or (Stmt.rawOption_lower init) (Expr.rawOption_lower test))
        (Expr.rawOption_lower update))
      (Stmt.raw_lower body)
  | .forEach _ _ _ pattern iterable body =>
    congrArg₂ or (congrArg₂ or (Pattern.raw_lower pattern) (Expr.raw_lower iterable))
      (Stmt.raw_lower body)
  | .«while» _ test body => congrArg₂ or (Expr.raw_lower test) (Stmt.raw_lower body)
  | .switch _ subject cases => congrArg₂ or (Expr.raw_lower subject) (Stmt.rawCases_lower cases)
  | .throw _ value => Expr.raw_lower value
  | .«try» _ block param handler finalizer =>
    congrArg₂ or
      (congrArg₂ or (congrArg₂ or (Stmt.rawAny_lower block) (Pattern.rawOption_lower param))
        (Stmt.rawBlock_lower handler))
      (Stmt.rawBlock_lower finalizer)
  | .block _ stmts => Stmt.rawAny_lower stmts
  | .expr _ value => Expr.raw_lower value

/-- The call in the place of an element has its name, its attributes and its children. -/
theorem JsxElement.raw_lower :
    (element : JsxElement) → element.lower.value.raw true = element.raw false
  | .mk name attrs children span => by
    have name' := JsxName.raw_lower span name
    have attrs' := JsxElement.rawAttrs_lower span attrs
    have children' := JsxElement.rawChildren_lower span children
    cases attrs with
    | nil => simp [JsxElement.lower, JsxElement.raw, Expr.raw, Expr.rawItems, Item.raw, name',
        children', JsxElement.rawAttrs]
    | cons attr rest =>
      simp [JsxElement.lower, JsxElement.raw, Expr.raw, Expr.rawItems, Item.raw, name', attrs',
        children', Bool.or_assoc]

theorem JsxName.raw_lower (span : Span) :
    (name : JsxName) → (name.lower span).value.raw true = name.raw false
  | .fragment => rfl
  | .tag _ => rfl
  | .component expr => Expr.raw_lower expr

theorem JsxElement.rawAttrs_lower (span : Span) :
    (attrs : List JsxAttr) →
      Expr.rawProperties true (JsxElement.lowerAttrs span attrs).value
        = JsxElement.rawAttrs false attrs
  | [] => rfl
  | .named _ value s :: rest =>
    congrArg₂ or (JsxElement.rawAttrValue_lower s value) (JsxElement.rawAttrs_lower span rest)
  | .spread value :: rest =>
    congrArg₂ or (Expr.raw_lower value) (JsxElement.rawAttrs_lower span rest)

theorem JsxElement.rawAttrValue_lower (span : Span) :
    (value : Option JsxContent) →
      (JsxElement.lowerAttrValue span value).value.raw true = JsxElement.rawAttrValue false value
  | none => rfl
  | some (.text _) => rfl
  | some (.expr value) => Expr.raw_lower value
  | some (.element element) => JsxElement.raw_lower element

theorem JsxElement.rawChildren_lower (span : Span) :
    (children : List JsxContent) →
      Expr.rawItems true (JsxElement.lowerChildren span children).value
        = JsxElement.rawChildren false children
  | [] => rfl
  | .text raw :: rest => by
    have rest' := JsxElement.rawChildren_lower span rest
    simp only [JsxElement.lowerChildren, JsxElement.rawChildren, Traced.value_bind,
      Traced.value_pure]
    -- text becomes a string or nothing
    cases markupText? raw with
    | none => exact rest'
    | some text => exact rest'
  | .expr value :: rest =>
    congrArg₂ or (Expr.raw_lower value) (JsxElement.rawChildren_lower span rest)
  | .element element :: rest =>
    congrArg₂ or (JsxElement.raw_lower element) (JsxElement.rawChildren_lower span rest)

end

/-! ## Linking -/

def ExportDecl.raw (markup : Bool) : ExportDecl → Bool
  | .default value => value.raw markup
  | .defaultFunction fn => fn.raw markup
  | .decl t => t.raw markup
  | .named _ _ _ | .all _ _ _ => false

/-- A statement of the top level has module syntax below the top level. -/
def Stmt.nestsModuleSyntax : Stmt → Bool
  | .«import» _ _ => false
  | .«export» _ d => d.raw false
  | t => t.raw false

theorem Stmt.rawAny_append (markup : Bool) (a b : List Stmt) :
    rawAny markup (a ++ b) = (rawAny markup a || rawAny markup b) := by
  induction a with
  | nil => rfl
  | cons t rest ih =>
    rw [List.cons_append, rawAny, rawAny, ih, Bool.or_assoc]

/-- Statements that are made of names alone are not raw. -/
theorem Stmt.rawAny_map {α : Type} {markup : Bool} {f : α → Stmt}
    (h : ∀ a, (f a).raw markup = false) (list : List α) : rawAny markup (list.map f) = false := by
  induction list with
  | nil => rfl
  | cons a rest ih => rw [List.map_cons, rawAny, h, ih, Bool.or_self]

namespace Linking

attribute [local simp] Stmt.raw Stmt.rawAny

variable (resolution : String → Resolution)

/-- Something that a share adds is raw. -/
def Share.raw (d : Share) : Bool :=
  Stmt.rawAny true d.hoisted || Stmt.rawAny true (d.parts.map (Part.stmt resolution))

theorem Share.raw_append (a b : Share) :
    (a.append b).raw resolution = (a.raw resolution || b.raw resolution) := by
  simp only [raw, append, List.map_append, Stmt.rawAny_append]
  ac_rfl

theorem raw_exportAs (name : String) (value : Expr) (span : Span) :
    (exportAs name value span).raw true = value.raw true := rfl

theorem rawProperties_renamed (names : List ImportName) :
    Pattern.rawProperties true (names.map fun n => renamed n.imported n.name) = false := by
  induction names with
  | nil => rfl
  | cons n rest ih =>
    rw [List.map_cons, renamed, Pattern.rawProperties, ih]
    rfl

theorem Share.raw_ofBinding (b : ExternalBinding) (span : Span) :
    (ofBinding b span).raw resolution = false := by
  unfold ofBinding
  cases b.imported <;> rfl

theorem Share.raw_ofBindings (span : Span) (bindings : List ExternalBinding) :
    (ofBindings span bindings).raw resolution = false := by
  induction bindings with
  | nil => rfl
  | cons b rest ih => rw [ofBindings, raw_append, raw_ofBinding, ih, Bool.or_self]

theorem Share.raw_ofImport (d : ImportDecl) (span : Span) :
    (ofImport d span).raw resolution = false := by
  have sideEffect : (ofSideEffect d span).raw resolution = false := by
    unfold ofSideEffect
    split <;> rfl
  have default' : (ofDefaultName d span).raw resolution = false := by
    unfold ofDefaultName
    split <;> rfl
  have star : (ofStarName d span).raw resolution = false := by
    unfold ofStarName
    split <;> rfl
  have names : (ofNames d span).raw resolution = false := by
    unfold ofNames
    split
    · rfl
    · simp only [raw, ofImported, List.map_cons, List.map_nil, Part.stmt, constant, Stmt.rawAny,
        Stmt.raw, Stmt.rawDeclarators, Pattern.raw, rawProperties_renamed]
      rfl
  unfold ofImport
  split
  · rfl
  · split
    · exact sideEffect
    · rw [raw_append, raw_append, default', star, names, Bool.or_self, Bool.or_self]

/-- Exports of names come to assignments of names. -/
theorem Share.raw_ofCopies (source : String) (span : Span) (temps : Nat) {copies : List Stmt}
    (h : Stmt.rawAny true copies = false) :
    (ofCopies source span temps copies).raw resolution = false := by
  simp only [raw, ofCopies, List.map_cons, map_stmt_own, Stmt.rawAny, h]
  rfl

theorem Share.raw_ofDefaultFunction (fn : Function) (span : Span) :
    (ofDefaultFunction fn span).raw resolution = fn.raw false := by
  rw [← Function.raw_lower fn]
  unfold ofDefaultFunction
  dsimp only
  split <;> simp [raw, Part.stmt, raw_exportAs, Expr.raw]

theorem Share.raw_ofDeclaration (t : Stmt) (span : Span) :
    (ofDeclaration t span).raw resolution = t.raw false := by
  rw [← Stmt.raw_lower t]
  have hoisted : Stmt.rawAny true (hoistedExports span t.lower.value) = false := by
    unfold hoistedExports
    split
    · split <;> rfl
    · rfl
  have later : Stmt.rawAny true (laterExports span t.lower.value) = false := by
    unfold laterExports
    split
    · exact Stmt.rawAny_map (fun _ => rfl) _
    · rfl
  simp only [raw, ofDeclaration, hoisted, List.map_cons, map_stmt_own, Stmt.rawAny, later,
    Bool.false_or, Bool.or_false]
  rfl

theorem Share.raw_ofExport (d : ExportDecl) (span : Span) (temps : Nat) :
    (ofExport d span temps).raw resolution = d.raw false := by
  cases d with
  | default value =>
    rw [ExportDecl.raw, ← Expr.raw_lower value]
    simp [raw, ofExport, Part.stmt, raw_exportAs]
  | defaultFunction fn => exact raw_ofDefaultFunction resolution fn span
  | decl t => exact raw_ofDeclaration resolution t span
  | named names source? sourceSpan =>
    cases source? with
    | none =>
      simp only [ofExport, ofStmts, raw, map_stmt_own]
      exact Stmt.rawAny_map (fun _ => rfl) names
    | some source => exact raw_ofCopies resolution _ _ _ (Stmt.rawAny_map (fun _ => rfl) names)
  | all source sourceSpan exported =>
    cases exported with
    | some name => rfl
    | none => exact raw_ofCopies resolution _ _ _ rfl

theorem Share.raw_ofStmt (t : Stmt) (temps : Nat) :
    (ofStmt t temps).raw resolution = t.nestsModuleSyntax := by
  have lowered : Share.raw resolution
      { parts := [.own t.lower.value], usesMarkup := t.lower.metMarkup } = t.raw false := by
    rw [← Stmt.raw_lower t]
    simp [raw, Part.stmt]
  cases t with
  | «import» span d => exact raw_ofImport resolution d span
  | «export» span d => exact raw_ofExport resolution d span temps
  | _ => exact lowered

theorem Share.raw_ofBody (stmts : List Stmt) (temps : Nat) :
    (ofBody stmts temps).raw resolution = stmts.any Stmt.nestsModuleSyntax := by
  induction stmts generalizing temps with
  | nil => rfl
  | cons t rest ih => rw [ofBody, raw_append, raw_ofStmt, ih, List.any_cons]

/-- The statements of a linked module are raw where the module that was read nests module syntax. -/
theorem rawAny_parts (m : Module) (bindings : List ExternalBinding) :
    Stmt.rawAny true ((parts m bindings).map (Part.stmt resolution)) =
      m.body.any Stmt.nestsModuleSyntax := by
  have front' : Stmt.rawAny true ((front m).map (Part.stmt resolution)) = false := by
    rw [map_stmt_front]
    split <;> rfl
  have linked : Stmt.rawAny true
      ((Share.ofBindings m.span bindings).parts.map (Part.stmt resolution)) = false := by
    have := Share.raw_ofBindings resolution m.span bindings
    rw [Share.ofBindings_eq] at this
    exact this
  have body := Share.raw_ofBody resolution m.body 0
  simp only [parts, List.map_append, map_stmt_own, Stmt.rawAny_append, front', linked,
    Bool.false_or]
  exact body

end Linking

namespace Executable

/-- No imports, no exports and no markup are left, at any depth. -/
def IsPlain (e : Executable) : Prop := ∀ t ∈ e.body.body, t.raw true = false

theorem rawAny_eq_false_iff (stmts : List Stmt) :
    Stmt.rawAny true stmts = false ↔ ∀ t ∈ stmts, t.raw true = false := by
  induction stmts with
  | nil => simp [Stmt.rawAny]
  | cons t rest ih => simp [Stmt.rawAny, ih]

theorem isPlain_ofModule_iff (path : String) (resolution : String → Resolution)
    (bindings : List ExternalBinding) (m : Module) :
    (ofModule path resolution bindings m).IsPlain ↔
      ∀ t ∈ m.body, t.nestsModuleSyntax = false := by
  rw [IsPlain, ← rawAny_eq_false_iff, ofModule_eq]
  dsimp only
  rw [Linking.rawAny_parts, List.any_eq_false]
  simp

instance : DecidablePred IsPlain := fun e =>
  decidable_of_iff (Stmt.rawAny true e.body.body = false) (rawAny_eq_false_iff _)

/-- A text that reads has an executable form, and that is plain exactly when no import or export
stands below the top level of the text. -/
theorem isPlain_ofText_iff (path : String) (resolution : String → Resolution)
    (bindings : List ExternalBinding) {text : String} {m : Module}
    (read : (Parsed.ofFile ⟨path, text⟩).module? = some m) :
    ∃ e, ofText path resolution bindings text = .ok e ∧
      (e.IsPlain ↔ ∀ t ∈ m.body, t.nestsModuleSyntax = false) := by
  refine ⟨ofModule path resolution bindings m, ?_, isPlain_ofModule_iff path resolution bindings m⟩
  unfold ofText
  dsimp only
  rw [read]

/-- Imports, exports and markup, with an import and an element inside an element. -/
theorem isPlain_ofText_component :
    let text := "import a from './a';\nexport * from './b';\nexport default ({ x = <i/> }) => "
      ++ "<b c=<i/>>\x7ba(x) && <i/>\x7d</b>;\n"
    ∃ m, (Parsed.ofFile ⟨"/App.tsx", text⟩).module? = some m ∧
      ∃ e, ofText "/App.tsx" (fun _ => .unresolved) [⟨"React", .star, "react"⟩] text = .ok e ∧
        e.IsPlain := by
  intro text
  have flat : (Parsed.ofFile ⟨"/App.tsx", text⟩).module?.map
      (fun m => m.body.any Stmt.nestsModuleSyntax) = some false := by decide +kernel
  obtain ⟨m, read, none⟩ := Option.map_eq_some_iff.mp flat
  obtain ⟨e, made, plain⟩ :=
    isPlain_ofText_iff "/App.tsx" (fun _ => .unresolved) [⟨"React", .star, "react"⟩] read
  refine ⟨m, read, e, made, plain.mpr fun t ht => ?_⟩
  simpa using List.any_eq_false.mp none t ht

/-- In a block, imports and exports stay what they are, and so does the markup of an export. -/
theorem ofLoneText_not_isPlain :
    let text := "if (ready) \x7b\n  import \x7b a \x7d from \"./a\";\n"
      ++ "  export const view = <b>\x7ba\x7d</b>;\n\x7d\n"
    (ofLoneText "/App.tsx" text).toOption.map (fun e => (e.text, decide e.IsPlain)) =
      some (text, false) := by
  decide +kernel

end Executable

end TsxPreview
