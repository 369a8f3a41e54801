import TsxPreview.Syntax.Executable

/-!
What linking makes of a module, apart from the resolver. The statements of a linked module are known
before any specifier is resolved: most stand as they are, and the others wait for the target of one
request. Every specifier that is asked for is recorded as an import with what it resolved to, and the
executable form depends on the resolver through these answers only.
-/

namespace TsxPreview

namespace Linking

/-- A top-level statement of a linked module. -/
inductive Part where
  /-- It asks for no other module. -/
  | own (t : Stmt)
  /-- The binding of the element factory. -/
  | factories (span : Span)
  /-- A statement around the call that yields another module. -/
  | request (specifier : String) (all : Bool) (span : Span) (use : Expr → Stmt)

/-- What a linked module asks for in the place of a specifier. -/
def target (resolution : String → Resolution) (specifier : String) : String :=
  (resolution specifier).target?.getD specifier

namespace Part

/-- The statement, once specifiers are resolved. -/
def stmt (resolution : String → Resolution) : Part → Stmt
  | own t => t
  | factories span => Linking.factories span
  | request specifier all span use => use (requireCall (target resolution specifier) all span)

/-- The specifier that is to be resolved. -/
def specifier? : Part → Option String
  | own _ => none
  | factories _ => none
  | request specifier _ _ _ => some specifier

/-- What the generated call of `require` asks for, if there is one. -/
def target? (resolution : String → Resolution) : Part → Option String
  | own _ => none
  | factories _ => some HostPackage.jsxRuntime.specifier
  | request specifier _ _ _ => some (target resolution specifier)

end Part

/-- What one statement adds to a linked module. -/
structure Share where
  hoisted : List Stmt := []
  parts : List Part := []
  /-- How many temporary names it takes. -/
  temps : Nat := 0
  usesMarkup : Bool := false

namespace Share

def append (a b : Share) : Share :=
  { hoisted := a.hoisted ++ b.hoisted, parts := a.parts ++ b.parts, temps := a.temps + b.temps
    usesMarkup := a.usesMarkup || b.usesMarkup }

/-- Statements that stand as they are. -/
def ofStmts (stmts : List Stmt) : Share := { parts := stmts.map .own }

def ofBinding (b : ExternalBinding) (span : Span) : Share :=
  let name : Ident := ⟨b.name, span⟩
  let part (all : Bool) (pattern : Pattern) : Share :=
    { parts := [.request b.source all span fun call => constant pattern call span] }
  match b.imported with
  | .default => part false (.ident name)
  | .star => part true (.ident name)
  | .named imported => part true (.object [renamed imported name] none)

def ofBindings (span : Span) : List ExternalBinding → Share
  | [] => {}
  | b :: rest => (ofBinding b span).append (ofBindings span rest)

/-- The import of one pattern. -/
def ofImported (d : ImportDecl) (span : Span) (all : Bool) (pattern : Pattern) : Share :=
  { parts := [.request d.source all d.sourceSpan fun call => constant pattern call span] }

def ofSideEffect (d : ImportDecl) (span : Span) : Share :=
  if styleSheets.any fun ending => d.source.endsWith ending then {}
  else { parts := [.request d.source false d.sourceSpan (.expr span)] }

def ofDefaultName (d : ImportDecl) (span : Span) : Share :=
  match d.default with
  | some name => ofImported d span false (.ident name)
  | none => {}

def ofStarName (d : ImportDecl) (span : Span) : Share :=
  match d.star with
  | some name => ofImported d span true (.ident name)
  | none => {}

def ofNames (d : ImportDecl) (span : Span) : Share :=
  if d.named.isEmpty then {}
  else ofImported d span true (.object (d.named.map fun n => renamed n.imported n.name) none)

def ofImport (d : ImportDecl) (span : Span) : Share :=
  if d.typeOnly then {}
  else if d.default.isNone && d.star.isNone && d.named.isEmpty then ofSideEffect d span
  else (ofDefaultName d span).append ((ofStarName d span).append (ofNames d span))

def ofDefaultFunction (fn : Function) (span : Span) : Share :=
  let low := fn.lower
  match low.value.name? with
  | some name =>
    { hoisted := [exportAs "default" (.ident name.span name.name) span]
      parts := [.own (.function span low.value)], usesMarkup := low.metMarkup }
  | none =>
    { parts := [.own (exportAs "default" (.function span low.value) span)]
      usesMarkup := low.metMarkup }

/-- The exports of a declaration that come before the body. -/
def hoistedExports (span : Span) : Stmt → List Stmt
  | .function _ fn =>
    match fn.name? with
    | some name => [exportAs name.name (.ident name.span name.name) span]
    | none => []
  | _ => []

/-- The exports of a declaration that follow it. -/
def laterExports (span : Span) : Stmt → List Stmt
  | .var _ _ declarators =>
    (declarators.flatMap fun d => d.pattern.names).map fun name =>
      exportAs name (.ident span name) span
  | _ => []

def ofDeclaration (t : Stmt) (span : Span) : Share :=
  let low := t.lower
  { hoisted := hoistedExports span low.value
    parts := .own low.value :: (laterExports span low.value).map .own
    usesMarkup := low.metMarkup }

/-- The name that a module is bound to for the time of copying from it. -/
def tempName (temps : Nat) : String := s!"__reexport{temps}"

/-- A module under a temporary name, and what is copied from it. -/
def ofCopies (source : String) (span : Span) (temps : Nat) (copies : List Stmt) : Share :=
  { parts := .request source true span
      (fun call => constant (named span (tempName temps)) call span) :: copies.map .own
    temps := 1 }

def ofExport (d : ExportDecl) (span : Span) (temps : Nat) : Share :=
  match d with
  | .default value =>
    { parts := [.own (exportAs "default" value.lower.value span)]
      usesMarkup := value.lower.metMarkup }
  | .defaultFunction fn => ofDefaultFunction fn span
  | .decl t => ofDeclaration t span
  | .named names none _ =>
    ofStmts (names.map fun n => exportAs n.exported (.ident span n.name) span)
  | .named names (some source) sourceSpan =>
    ofCopies source (sourceSpan.getD span) temps (names.map fun n =>
      exportAs n.exported (.member span (.ident span (tempName temps)) (.named n.name) false) span)
  | .all source sourceSpan (some name) =>
    { parts := [.request source true sourceSpan fun call => exportAs name call span] }
  | .all source sourceSpan none =>
    ofCopies source sourceSpan temps [copyExports (tempName temps) span]

def ofStmt (t : Stmt) (temps : Nat) : Share :=
  match t with
  | .«import» span d => ofImport d span
  | .«export» span d => ofExport d span temps
  | t => { parts := [.own t.lower.value], usesMarkup := t.lower.metMarkup }

/-- What a list of statements adds after `temps` temporary names were taken. -/
def ofBody : List Stmt → (temps : Nat) → Share
  | [], _ => {}
  | t :: rest, temps => (ofStmt t temps).append (ofBody rest (temps + (ofStmt t temps).temps))

end Share

/-- The binding of the element factory, if it is needed. -/
def front (m : Module) : List Part :=
  if (Share.ofBody m.body 0).usesMarkup then [.factories m.span] else []

/-- The statements of a linked module in order. -/
def parts (m : Module) (bindings : List ExternalBinding) : List Part :=
  let body := Share.ofBody m.body 0
  front m ++ (Share.ofBindings m.span bindings).parts ++ body.hoisted.map .own ++ body.parts

/-- The specifiers that a linked module asks for, in order. -/
def specifiers (m : Module) (bindings : List ExternalBinding) : List String :=
  (parts m bindings).filterMap Part.specifier?

/-! ## The two descriptions agree -/

/-- Records an import unless the specifier has one. -/
def note (l : Linker) (imports : List ResolvedImport) (specifier : String) : List ResolvedImport :=
  if imports.any fun i => i.specifier == specifier then imports
  else imports ++ [⟨l.path, specifier, l.resolution specifier⟩]

/-- The imports after those of some parts. -/
def noteAll (l : Linker) (imports : List ResolvedImport) (parts : List Part) :
    List ResolvedImport :=
  (parts.filterMap Part.specifier?).foldl (note l) imports

/-- The state after a share is added. -/
def State.add (l : Linker) (s : State) (d : Share) : State :=
  { imports := noteAll l s.imports d.parts
    hoisted := s.hoisted ++ d.hoisted
    body := s.body ++ d.parts.map (Part.stmt l.resolution)
    temps := s.temps + d.temps
    usesMarkup := s.usesMarkup || d.usesMarkup }

variable (l : Linker) (s : State)

@[simp] theorem noteAll_nil (imports : List ResolvedImport) : noteAll l imports [] = imports := rfl

theorem noteAll_append (imports : List ResolvedImport) (a b : List Part) :
    noteAll l imports (a ++ b) = noteAll l (noteAll l imports a) b := by
  simp [noteAll]

theorem noteAll_own (imports : List ResolvedImport) (stmts : List Stmt) :
    noteAll l imports (stmts.map .own) = imports := by
  have h : (stmts.map Part.own).filterMap Part.specifier? = [] := by
    simp [Part.specifier?]
  rw [noteAll, h]
  rfl

@[simp] theorem noteAll_one_own (imports : List ResolvedImport) (t : Stmt) :
    noteAll l imports [.own t] = imports := rfl

@[simp] theorem noteAll_one_request (imports : List ResolvedImport) (specifier : String)
    (all : Bool) (span : Span) (use : Expr → Stmt) :
    noteAll l imports [.request specifier all span use] = note l imports specifier := rfl

@[simp] theorem State.add_empty : s.add l {} = s := by
  simp [State.add]

theorem State.add_append (a b : Share) : s.add l (a.append b) = (s.add l a).add l b := by
  simp [State.add, Share.append, noteAll_append, Nat.add_assoc, Bool.or_assoc]

/-- The state after a link is run. -/
def after (x : Link Unit) : State := ((x.run l).run s).2

theorem after_bind {α : Type} (x : Link α) (f : α → Link Unit) :
    after l s (x >>= f) = after l ((x.run l).run s).2 (f ((x.run l).run s).1) := rfl

theorem after_emit (t : Stmt) :
    after l s (emit t) = s.add l { parts := [.own t] } := by
  simp only [State.add, noteAll_one_own, List.map_cons, List.map_nil, Part.stmt, List.append_nil,
    Nat.add_zero, Bool.or_false]
  rfl

theorem run_require (specifier : String) (all : Bool) (span : Span) :
    ((require specifier all span).run l).run s =
      (requireCall (target l.resolution specifier) all span,
        { s with imports := note l s.imports specifier }) := by
  have h : (if s.imports.any fun j => j.specifier == specifier then s
      else { s with imports := s.imports ++ [⟨l.path, specifier, l.resolution specifier⟩] }) =
      { s with imports := note l s.imports specifier } := by
    unfold note
    split <;> rfl
  exact congrArg (Prod.mk _) h

/-- A statement around a request. -/
theorem after_request (specifier : String) (all : Bool) (span : Span) (use : Expr → Stmt) :
    after l s (require specifier all span >>= fun call => emit (use call)) =
      s.add l { parts := [.request specifier all span use] } := by
  rw [after_bind, run_require, after_emit]
  simp [State.add, Part.stmt]

/-- More work behind a statement around a request. -/
theorem after_request_then (specifier : String) (all : Bool) (span : Span) (use : Expr → Stmt)
    (x : Link Unit) :
    after l s (require specifier all span >>= fun call => do emit (use call); x) =
      after l (s.add l { parts := [.request specifier all span use] }) x := by
  rw [← after_request]
  rfl

theorem after_binding (b : ExternalBinding) (span : Span) :
    after l s (binding b span) = s.add l (Share.ofBinding b span) := by
  unfold binding Share.ofBinding
  cases b.imported with
  | default => exact after_request l s b.source false span _
  | star => exact after_request l s b.source true span _
  | named imported => exact after_request l s b.source true span _

theorem after_sideEffect (d : ImportDecl) (span : Span) :
    after l s (sideEffect d span) = s.add l (Share.ofSideEffect d span) := by
  unfold sideEffect Share.ofSideEffect
  split
  · rw [State.add_empty]
    rfl
  · exact after_request l s d.source false d.sourceSpan _

/-- The names of an import in braces come last. -/
theorem after_names (d : ImportDecl) (span : Span) :
    after l s (unless d.named.isEmpty do
        let props := d.named.map fun n => renamed n.imported n.name
        emit (constant (.object props none) (← require d.source true d.sourceSpan) span)) =
      s.add l (Share.ofNames d span) := by
  unfold Share.ofNames
  split
  · rw [State.add_empty]
    rfl
  · exact after_request l s d.source true d.sourceSpan _

theorem after_import (d : ImportDecl) (span : Span) :
    after l s («import» d span) = s.add l (Share.ofImport d span) := by
  unfold «import» Share.ofImport
  split
  · rw [State.add_empty]
    rfl
  · split
    · exact after_sideEffect l s d span
    · rw [State.add_append, State.add_append]
      simp only [Share.ofDefaultName, Share.ofStarName]
      cases d.default with
      | none =>
        rw [State.add_empty]
        cases d.star with
        | none =>
          rw [State.add_empty]
          exact after_names l s d span
        | some star =>
          rw [after_request_then, after_names]
          rfl
      | some name =>
        rw [after_request_then]
        cases d.star with
        | none =>
          rw [State.add_empty]
          exact after_names l _ d span
        | some star =>
          rw [after_request_then, after_names]
          rfl

theorem after_emit_then (t : Stmt) (x : Link Unit) :
    after l s (do emit t; x) = after l (s.add l { parts := [.own t] }) x := by
  rw [← after_emit]
  rfl

/-- One statement for each entry of a list. -/
theorem after_emits {α : Type} (f : α → Stmt) (list : List α) :
    after l s (for a in list do emit (f a)) = s.add l (Share.ofStmts (list.map f)) := by
  induction list generalizing s with
  | nil =>
    rw [show Share.ofStmts ([].map f) = {} from rfl, State.add_empty]
    rfl
  | cons a rest ih =>
    have step : after l s (for a in a :: rest do emit (f a)) =
        after l s (do emit (f a); for a in rest do emit (f a)) := by
      simp only [List.forIn_cons]
      rfl
    rw [step, after_emit_then, ih, ← State.add_append]
    rfl

/-- Work on a lowered node starts from a state that knows of its markup. -/
theorem after_lowered {α : Type} (x : Traced α) (f : α → Link Unit) :
    after l s (lowered x >>= f) =
      after l (s.add l { usesMarkup := x.metMarkup }) (f x.value) := by
  have h : s.add l { usesMarkup := x.metMarkup } =
      { s with usesMarkup := s.usesMarkup || x.metMarkup } := by
    simp [State.add]
  rw [h]
  rfl

theorem after_hoist_then (t : Stmt) (x : Link Unit) :
    after l s (do hoist t; x) = after l (s.add l { hoisted := [t] }) x := by
  have h : s.add l { hoisted := [t] } = { s with hoisted := s.hoisted ++ [t] } := by
    simp [State.add]
  rw [h]
  rfl

theorem after_defaultFunction (fn : Function) (span : Span) :
    after l s (defaultFunction fn span) = s.add l (Share.ofDefaultFunction fn span) := by
  unfold defaultFunction Share.ofDefaultFunction
  rw [after_lowered]
  dsimp only
  cases fn.lower.value.name? with
  | none =>
    rw [after_emit, ← State.add_append]
    simp [Share.append]
  | some name =>
    rw [after_hoist_then, after_emit, ← State.add_append, ← State.add_append]
    simp [Share.append]

/-- A declaration and the exports that follow it. -/
theorem after_declared (t : Stmt) (span : Span) :
    after l s (do
        emit t
        if let .var _ _ declarators := t then
          for name in declarators.flatMap fun d => d.pattern.names do
            emit (exportAs name (.ident span name) span)) =
      s.add l { parts := .own t :: (Share.laterExports span t).map .own } := by
  have only : after l s (do emit t) = s.add l { parts := [.own t] } := after_emit l s t
  cases t with
  | var at' kind declarators =>
    have rest := after_emits l (s.add l { parts := [.own (.var at' kind declarators)] })
      (fun name => exportAs name (.ident span name) span)
      (declarators.flatMap fun d => d.pattern.names)
    rw [← State.add_append] at rest
    rw [after_emit_then]
    exact rest
  | _ => exact only

theorem after_declaration (t : Stmt) (span : Span) :
    after l s (declaration t span) = s.add l (Share.ofDeclaration t span) := by
  unfold declaration Share.ofDeclaration
  rw [after_lowered]
  generalize t.lower = low
  obtain ⟨value, met⟩ := low
  have plain : after l (s.add l { usesMarkup := met }) (do
        emit value
        if let .var _ _ declarators := value then
          for name in declarators.flatMap fun d => d.pattern.names do
            emit (exportAs name (.ident span name) span)) =
      s.add l { parts := .own value :: (Share.laterExports span value).map .own
                usesMarkup := met } := by
    rw [after_declared, ← State.add_append]
    simp [Share.append]
  -- a function with a name is exported where it is hoisted to, anything else after its declaration
  cases value with
  | function _ fn =>
    dsimp only [Share.hoistedExports]
    cases fn.name? with
    | none => exact plain
    | some name =>
      dsimp only
      rw [after_hoist_then, after_emit_then, ← State.add_append, ← State.add_append]
      simp [Share.append, Share.laterExports]
      rfl
  | _ => exact plain

theorem after_requireTemp (source : String) (span : Span) (f : String → Link Unit) :
    after l s (requireTemp source span >>= f) =
      after l (s.add l (Share.ofCopies source span s.temps [])) (f (Share.tempName s.temps)) := by
  have named := after_request l { s with temps := s.temps + 1 } source true span
    fun call => constant (named span (Share.tempName s.temps)) call span
  have temps : State.add l { s with temps := s.temps + 1 }
      { parts := [.request source true span fun call =>
          constant (Linking.named span (Share.tempName s.temps)) call span] } =
      s.add l (Share.ofCopies source span s.temps []) := by
    simp [State.add, Share.ofCopies]
  rw [← temps, ← named]
  rfl

theorem after_export (d : ExportDecl) (span : Span) :
    after l s («export» d span) = s.add l (Share.ofExport d span s.temps) := by
  cases d with
  | default value =>
    simp only [«export»]
    rw [after_lowered, after_emit, ← State.add_append]
    simp [Share.append, Share.ofExport]
  | defaultFunction fn => exact after_defaultFunction l s fn span
  | decl t => exact after_declaration l s t span
  | named names source? sourceSpan =>
    cases source? with
    | none =>
      exact after_emits l s (fun n : ExportName => exportAs n.exported (.ident span n.name) span)
        names
    | some source =>
      simp only [«export»]
      rw [after_requireTemp]
      refine (after_emits l _ (fun n : ExportName => exportAs n.exported
        (.member span (.ident span (Share.tempName s.temps)) (.named n.name) false) span)
        names).trans ?_
      rw [← State.add_append]
      simp [Share.append, Share.ofExport, Share.ofCopies, Share.ofStmts]
  | all source sourceSpan exported =>
    cases exported with
    | some name => exact after_request l s source true sourceSpan _
    | none =>
      simp only [«export»]
      rw [after_requireTemp, after_emit, ← State.add_append]
      simp [Share.append, Share.ofExport, Share.ofCopies]

theorem after_statement (t : Stmt) :
    after l s (statement t) = s.add l (Share.ofStmt t s.temps) := by
  have plain (x : Traced Stmt) : after l s (do emit (← lowered x)) =
      s.add l { parts := [.own x.value], usesMarkup := x.metMarkup } := by
    rw [after_lowered, after_emit, ← State.add_append]
    simp [Share.append]
  cases t with
  | «import» span d => exact after_import l s d span
  | «export» span d => exact after_export l s d span
  | _ => exact plain _

theorem after_statements (stmts : List Stmt) :
    after l s (for t in stmts do statement t) = s.add l (Share.ofBody stmts s.temps) := by
  induction stmts generalizing s with
  | nil =>
    rw [Share.ofBody, State.add_empty]
    rfl
  | cons t rest ih =>
    have step : after l s (for t in t :: rest do statement t) =
        after l (after l s (statement t)) (for t in rest do statement t) := by
      simp only [List.forIn_cons]
      rfl
    rw [step, after_statement, ih, ← State.add_append]
    rfl

theorem after_bindings (span : Span) (bindings : List ExternalBinding) :
    after l s (for b in bindings do binding b span) = s.add l (Share.ofBindings span bindings) := by
  induction bindings generalizing s with
  | nil =>
    rw [Share.ofBindings, State.add_empty]
    rfl
  | cons b rest ih =>
    have step : after l s (for b in b :: rest do binding b span) =
        after l (after l s (binding b span)) (for b in rest do binding b span) := by
      simp only [List.forIn_cons]
      rfl
    rw [step, after_binding, ih, ← State.add_append]
    rfl

/-- Bindings hoist nothing, need no temporary names and hold no markup. -/
theorem Share.ofBindings_eq (span : Span) (bindings : List ExternalBinding) :
    ofBindings span bindings = { parts := (ofBindings span bindings).parts } := by
  induction bindings with
  | nil => rfl
  | cons b rest ih =>
    have one : ofBinding b span = { parts := (ofBinding b span).parts } := by
      unfold ofBinding
      cases b.imported <;> rfl
    rw [ofBindings, ih, one]
    rfl

theorem noteAll_front (imports : List ResolvedImport) (m : Module) :
    noteAll l imports (front m) = imports := by
  unfold front
  split <;> rfl

theorem map_stmt_front (resolution : String → Resolution) (m : Module) :
    (front m).map (Part.stmt resolution) =
      if (Share.ofBody m.body 0).usesMarkup then [factories m.span] else [] := by
  unfold front
  split <;> rfl

theorem map_stmt_own (resolution : String → Resolution) (stmts : List Stmt) :
    (stmts.map .own).map (Part.stmt resolution) = stmts := by
  simp [Part.stmt, Function.comp_def]

/-- The state that linking a module ends in. -/
theorem after_module (m : Module) (bindings : List ExternalBinding) :
    after l {} (module m bindings) =
      { imports := noteAll l [] (parts m bindings)
        hoisted := (Share.ofBody m.body 0).hoisted
        body := (parts m bindings).map (Part.stmt l.resolution)
        temps := (Share.ofBody m.body 0).temps
        usesMarkup := (Share.ofBody m.body 0).usesMarkup } := by
  have first : after l {} (for b in bindings do binding b m.span) =
      State.add l {} { parts := (Share.ofBindings m.span bindings).parts } := by
    rw [← Share.ofBindings_eq]
    exact after_bindings l {} m.span bindings
  -- the bindings are linked before the statements and use no temporaries
  have second (s : State) (h : s.temps = 0) :
      after l s (for t in m.body do statement t) = s.add l (Share.ofBody m.body 0) := by
    rw [← h]
    exact after_statements l s m.body
  have run : after l {} (module m bindings) =
      let s₁ := after l {} (for b in bindings do binding b m.span)
      let s₂ := after l { s₁ with body := [] } (for t in m.body do statement t)
      { s₂ with
        body := (if s₂.usesMarkup then [factories m.span] else []) ++ s₁.body ++ s₂.hoisted
          ++ s₂.body } := rfl
  rw [run, first]
  dsimp only
  rw [second _ rfl]
  simp only [parts, noteAll_append, noteAll_own, List.map_append, map_stmt_own, noteAll_front,
    map_stmt_front]
  simp [State.add]

end Linking

namespace Executable

open Linking

variable (path : String) (resolution : String → Resolution) (bindings : List ExternalBinding)
  (m : Module)

/-- An executable form is its parts with the targets filled in, and the imports are the requests. -/
theorem ofModule_eq :
    ofModule path resolution bindings m =
      { path
        body := ⟨(parts m bindings).map (Part.stmt resolution), m.span⟩
        imports := noteAll ⟨path, resolution⟩ [] (parts m bindings)
        usesMarkup := (Share.ofBody m.body 0).usesMarkup } := by
  have h := after_module ⟨path, resolution⟩ m bindings
  have run : ofModule path resolution bindings m =
      { path
        body := ⟨(after ⟨path, resolution⟩ {} (module m bindings)).body, m.span⟩
        imports := (after ⟨path, resolution⟩ {} (module m bindings)).imports
        usesMarkup := (after ⟨path, resolution⟩ {} (module m bindings)).usesMarkup } := rfl
  rw [run, h]

end Executable

/-! ## Recorded imports -/

namespace Linking

variable (l : Linker)

/-- The import that a request of a specifier records. -/
def entry (l : Linker) (specifier : String) : ResolvedImport :=
  ⟨l.path, specifier, l.resolution specifier⟩

theorem mem_note {imports : List ResolvedImport} (h : ∀ i ∈ imports, i = entry l i.specifier)
    (specifier : String) (i : ResolvedImport) :
    i ∈ note l imports specifier ↔ i ∈ imports ∨ i = entry l specifier := by
  unfold note
  split
  · rename_i found
    obtain ⟨j, hj, hs⟩ := List.any_eq_true.mp found
    -- the entry that is there is the one that would be added
    have same : j = entry l specifier := by
      rw [h j hj, eq_of_beq hs]
    constructor
    · exact Or.inl
    · rintro (hi | rfl)
      · exact hi
      · exact same ▸ hj
  · exact List.mem_append.trans (or_congr Iff.rfl List.mem_singleton)

/-- Every request is recorded, and nothing else is. -/
theorem mem_foldl_note (specifiers : List String) {imports : List ResolvedImport}
    (h : ∀ i ∈ imports, i = entry l i.specifier) (i : ResolvedImport) :
    i ∈ specifiers.foldl (note l) imports ↔
      i ∈ imports ∨ ∃ specifier ∈ specifiers, i = entry l specifier := by
  induction specifiers generalizing imports with
  | nil => simp
  | cons specifier rest ih =>
    have next : ∀ j ∈ note l imports specifier, j = entry l j.specifier := by
      intro j hj
      rcases (mem_note l h specifier j).mp hj with hj | rfl
      · exact h j hj
      · rfl
    rw [List.foldl_cons, ih next, mem_note l h specifier i, or_assoc]
    simp

/-- Only the answers to the requests matter. -/
theorem foldl_note_congr {path : String} {r₁ r₂ : String → Resolution} (specifiers : List String)
    (h : ∀ specifier ∈ specifiers, r₁ specifier = r₂ specifier) (imports : List ResolvedImport) :
    specifiers.foldl (note ⟨path, r₁⟩) imports = specifiers.foldl (note ⟨path, r₂⟩) imports := by
  induction specifiers generalizing imports with
  | nil => rfl
  | cons specifier rest ih =>
    have one : note ⟨path, r₁⟩ imports specifier = note ⟨path, r₂⟩ imports specifier := by
      simp only [note, h specifier List.mem_cons_self]
    rw [List.foldl_cons, List.foldl_cons, one]
    exact ih (fun s hs => h s (List.mem_cons_of_mem _ hs)) _

theorem Part.stmt_congr {r₁ r₂ : String → Resolution} (part : Part)
    (h : ∀ specifier ∈ part.specifier?, r₁ specifier = r₂ specifier) :
    part.stmt r₁ = part.stmt r₂ := by
  cases part with
  | own t => rfl
  | factories span => rfl
  | request specifier all span use =>
    have same : r₁ specifier = r₂ specifier := h specifier rfl
    simp only [Part.stmt, target, same]

/-- The targets of the calls of `require` that linking generates. -/
def targets (resolution : String → Resolution) (m : Module) (bindings : List ExternalBinding) :
    List String :=
  (parts m bindings).filterMap (Part.target? resolution)

/-- A generated call asks for the element factory or for the target of a request. -/
theorem mem_targets {resolution : String → Resolution} {m : Module}
    {bindings : List ExternalBinding} {t : String} (h : t ∈ targets resolution m bindings) :
    t = HostPackage.jsxRuntime.specifier ∨
      ∃ specifier ∈ specifiers m bindings, t = target resolution specifier := by
  obtain ⟨part, hp, ht⟩ := List.mem_filterMap.mp h
  cases part with
  | own t => exact absurd ht (by simp [Part.target?])
  | factories span => exact Or.inl (Option.some.inj ht).symm
  | request specifier all span use =>
    exact Or.inr ⟨specifier, List.mem_filterMap.mpr ⟨_, hp, rfl⟩, (Option.some.inj ht).symm⟩

/-- What an import that was removed bound is asked for. -/
theorem source_mem_specifiers (m : Module) {bindings : List ExternalBinding} {b : ExternalBinding}
    (mem : b ∈ bindings) : b.source ∈ specifiers m bindings := by
  have within : b.source ∈ (Share.ofBindings m.span bindings).parts.filterMap Part.specifier? := by
    induction bindings with
    | nil => cases mem
    | cons first rest ih =>
      rw [Share.ofBindings, Share.append, List.filterMap_append]
      obtain rfl | mem := List.mem_cons.mp mem
      · refine List.mem_append_left _ ?_
        obtain ⟨name, imported, source⟩ := b
        cases imported <;> exact List.mem_cons_self
      · exact List.mem_append_right _ (ih mem)
  unfold specifiers parts
  simp only [List.filterMap_append]
  exact List.mem_append_left _ (List.mem_append_left _ (List.mem_append_right _ within))

end Linking

namespace Executable

open Linking

variable (path : String) (resolution : String → Resolution) (bindings : List ExternalBinding)
  (m : Module)

/-- The imports of an executable form are the specifiers that it asks for, resolved. -/
theorem mem_imports_ofModule (i : ResolvedImport) :
    i ∈ (ofModule path resolution bindings m).imports ↔
      ∃ specifier ∈ specifiers m bindings, i = ⟨path, specifier, resolution specifier⟩ := by
  rw [ofModule_eq]
  exact (mem_foldl_note ⟨path, resolution⟩ (specifiers m bindings) (by simp) i).trans (by
    simp [entry])

/-- Two resolvers that answer the requests alike give the same executable form. -/
theorem ofModule_congr {r₁ r₂ : String → Resolution}
    (h : ∀ specifier ∈ specifiers m bindings, r₁ specifier = r₂ specifier) :
    ofModule path r₁ bindings m = ofModule path r₂ bindings m := by
  have body : (parts m bindings).map (Part.stmt r₁) = (parts m bindings).map (Part.stmt r₂) := by
    refine List.map_congr_left fun part hp => part.stmt_congr fun specifier hs => h specifier ?_
    exact List.mem_filterMap.mpr ⟨part, hp, hs⟩
  have imports : noteAll ⟨path, r₁⟩ [] (parts m bindings) =
      noteAll ⟨path, r₂⟩ [] (parts m bindings) :=
    foldl_note_congr (specifiers m bindings) h []
  rw [ofModule_eq, ofModule_eq, body, imports]

/-- A form that was made with another resolver is the form of this one if its imports resolve as
they did. -/
theorem ofModule_eq_of_imports {r₁ r₂ : String → Resolution}
    (h : ∀ i ∈ (ofModule path r₁ bindings m).imports, r₂ i.specifier = i.resolution) :
    ofModule path r₁ bindings m = ofModule path r₂ bindings m := by
  refine ofModule_congr path bindings m fun specifier hs => ?_
  have recorded := (mem_imports_ofModule path r₁ bindings m _).mpr ⟨specifier, hs, rfl⟩
  exact (h _ recorded).symm

end Executable

end TsxPreview
