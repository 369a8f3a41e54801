import TsxPreview.Proofs.Linking.Parts

/-!
The functions that a module exports. In a linked module their exports come before everything that
asks for another module of the project: only packages are bound until then.
-/

namespace TsxPreview

namespace Stmt

/-- The name of the function that a statement declares. -/
def functionName? : Stmt → Option String
  | .function _ fn => fn.name?.map Ident.name
  | _ => none

/-- The names of the variables that a statement declares. -/
def variableNames : Stmt → List String
  | .var _ _ declarators => declarators.flatMap fun d => d.pattern.names
  | _ => []

/-- The function that a statement exports, by the key of the export. -/
def exportedFunction? : Stmt → Option (String × Ident)
  | .«export» _ (.defaultFunction fn) => fn.name?.map fun name => ("default", name)
  | .«export» _ (.decl (.function _ fn)) => fn.name?.map fun name => (name.name, name)
  | _ => none

end Stmt

/-- The keys under which a module exports functions that it declares by name. -/
def Module.functionKeys (m : Module) : List String :=
  m.body.filterMap fun t => t.exportedFunction?.map Prod.fst

theorem Function.name?_lower (fn : Function) : fn.lower.value.name? = fn.name? := by
  cases fn
  rw [Function.lower]
  rfl

theorem Stmt.lower_function (span : Span) (fn : Function) :
    (Stmt.function span fn).lower.value = .function span fn.lower.value := by
  rw [Stmt.lower]
  rfl

namespace Linking

/-- The names that generated code relies on. -/
def IsReserved (name : String) : Prop := name = requireName ∨ name = exportsName

instance : DecidablePred IsReserved := fun _ => inferInstanceAs (Decidable (_ ∨ _))

/-- The names of the functions that statements declare. -/
def functionNames (stmts : List Stmt) : List String := stmts.filterMap Stmt.functionName?

/-- No declaration takes a name that generated code relies on, and no variable takes the name of a
function. -/
structure NamesApart (stmts : List Stmt) : Prop where
  functions : ∀ name ∈ functionNames stmts, ¬IsReserved name
  bound : ∀ name ∈ stmts.flatMap Stmt.variableNames,
    ¬IsReserved name ∧ name ∉ functionNames stmts

instance (stmts : List Stmt) : Decidable (NamesApart stmts) :=
  decidable_of_iff (_ ∧ _) ⟨fun h => ⟨h.1, h.2⟩, fun h => ⟨h.functions, h.bound⟩⟩

/-- What is bound to a module: a name, or names to some of its exports. -/
inductive Selects : Pattern → Prop where
  | name (x : Ident) : Selects (.ident x)
  | members (list : List (String × Ident)) :
    Selects (.object (list.map fun entry => renamed entry.1 entry.2) none)

theorem names_members (list : List (String × Ident)) :
    (Pattern.object (list.map fun entry => renamed entry.1 entry.2) none).names =
      list.map fun entry => entry.2.name := by
  rw [Pattern.names, Pattern.restNames, List.append_nil]
  induction list with
  | nil => rfl
  | cons entry rest ih =>
    rw [List.map_cons, renamed, Pattern.propertyNames, Pattern.bindingNames, Pattern.names, ih]
    rfl

/-- Statements that bind packages and export functions, and do nothing else. -/
inductive Opens (covered : String → Prop) (names : List String) :
    List Stmt → List String → Prop where
  | done : Opens covered names [] []
  | binds {target : String} {pattern : Pattern} {all : Bool} {site span : Span}
      {rest : List Stmt} {keys : List String} (package : covered target)
      (selects : Selects pattern)
      (free : ∀ name ∈ pattern.names, ¬IsReserved name ∧ name ∉ names)
      (later : Opens covered names rest keys) :
      Opens covered names (constant pattern (requireCall target all site) span :: rest) keys
  | exports {key name : String} {site span : Span} {rest : List Stmt} {keys : List String}
      (declared : name ∈ names) (later : Opens covered names rest keys) :
      Opens covered names (exportAs key (.ident site name) span :: rest) (key :: keys)

variable {covered : String → Prop} {names : List String}

theorem Opens.append {a b : List Stmt} {ka kb : List String} (ha : Opens covered names a ka)
    (hb : Opens covered names b kb) : Opens covered names (a ++ b) (ka ++ kb) := by
  induction ha with
  | done => exact hb
  | binds package selects free _ ih => exact .binds package selects free ih
  | exports declared _ ih => exact .exports declared ih

theorem Opens.mono {more : String → Prop} (imp : ∀ target, covered target → more target)
    {stmts : List Stmt} {keys : List String} (h : Opens covered names stmts keys) :
    Opens more names stmts keys := by
  induction h with
  | done => exact .done
  | binds package selects free _ ih => exact .binds (imp _ package) selects free ih
  | exports declared _ ih => exact .exports declared ih

/-! ## The exports of functions -/

/-- The export of a function that comes before the body. -/
def hoistedExport? (t : Stmt) : Option Stmt :=
  t.exportedFunction?.map fun e => exportAs e.1 (.ident e.2.span e.2.name) t.span

theorem hoisted_ofImport (d : ImportDecl) (span : Span) :
    (Share.ofImport d span).hoisted = [] := by
  unfold Share.ofImport Share.ofSideEffect Share.ofDefaultName Share.ofStarName Share.ofNames
  repeat' split
  all_goals rfl

theorem hoisted_ofDeclaration (t : Stmt) (span : Span) :
    (Share.ofDeclaration t span).hoisted = (hoistedExport? (.«export» span (.decl t))).toList := by
  unfold Share.ofDeclaration hoistedExport?
  dsimp only
  cases t with
  | function at' fn =>
    rw [Stmt.lower_function, Share.hoistedExports, Stmt.exportedFunction?, Function.name?_lower]
    cases fn.name? <;> rfl
  | _ =>
    rw [Stmt.lower]
    rfl

theorem hoisted_ofStmt (t : Stmt) (temps : Nat) :
    (Share.ofStmt t temps).hoisted = (hoistedExport? t).toList := by
  cases t with
  | «import» span d => exact hoisted_ofImport d span
  | «export» span d =>
    cases d with
    | default value => rfl
    | defaultFunction fn =>
      rw [Share.ofStmt, Share.ofExport, Share.ofDefaultFunction, hoistedExport?,
        Stmt.exportedFunction?, Function.name?_lower]
      cases fn.name? <;> rfl
    | decl t => exact hoisted_ofDeclaration t span
    | named names source? sourceSpan => cases source? <;> rfl
    | all source sourceSpan exported => cases exported <;> rfl
  | _ => rfl

theorem hoisted_ofBody (body : List Stmt) (temps : Nat) :
    (Share.ofBody body temps).hoisted = body.filterMap hoistedExport? := by
  induction body generalizing temps with
  | nil => rfl
  | cons t rest ih =>
    rw [Share.ofBody, Share.append, List.filterMap_cons]
    dsimp only
    rw [hoisted_ofStmt, ih]
    cases hoistedExport? t <;> rfl

/-- A function that is exported is declared. -/
theorem declares_ofStmt {t : Stmt} {key : String} {name : Ident}
    (h : t.exportedFunction? = some (key, name)) (temps : Nat) :
    ∃ span fn, .own (.function span fn) ∈ (Share.ofStmt t temps).parts ∧ fn.name? = some name := by
  unfold Stmt.exportedFunction? at h
  split at h
  · rename_i span fn
    obtain ⟨name, named, eq⟩ := Option.map_eq_some_iff.mp h
    cases eq
    have lowered := (Function.name?_lower fn).trans named
    refine ⟨span, fn.lower.value, ?_, lowered⟩
    rw [Share.ofStmt, Share.ofExport, Share.ofDefaultFunction, lowered]
    exact List.mem_cons_self
  · rename_i span at' fn
    obtain ⟨name, named, eq⟩ := Option.map_eq_some_iff.mp h
    cases eq
    refine ⟨at', fn.lower.value, ?_, (Function.name?_lower fn).trans named⟩
    rw [Share.ofStmt, Share.ofExport, Share.ofDeclaration, Stmt.lower_function]
    exact List.mem_cons_self
  · cases h

theorem declares_ofBody {body : List Stmt} {t : Stmt} (mem : t ∈ body) {key : String} {name : Ident}
    (h : t.exportedFunction? = some (key, name)) (temps : Nat) :
    ∃ span fn, .own (.function span fn) ∈ (Share.ofBody body temps).parts ∧
      fn.name? = some name := by
  induction body generalizing temps with
  | nil => cases mem
  | cons first rest ih =>
    rw [Share.ofBody, Share.append]
    obtain rfl | mem := List.mem_cons.mp mem
    · obtain ⟨span, fn, mem, named⟩ := declares_ofStmt h temps
      exact ⟨span, fn, List.mem_append_left _ mem, named⟩
    · obtain ⟨span, fn, mem, named⟩ := ih mem _
      exact ⟨span, fn, List.mem_append_right _ mem, named⟩

/-! ## How a linked module opens -/

theorem opens_hoisted {body : List Stmt} (declared : ∀ t ∈ body, ∀ key name,
    t.exportedFunction? = some (key, name) → name.name ∈ names) :
    Opens covered names (body.filterMap hoistedExport?)
      (body.filterMap fun t => t.exportedFunction?.map Prod.fst) := by
  induction body with
  | nil => exact .done
  | cons t rest ih =>
    obtain ⟨here, later⟩ := List.forall_mem_cons.mp declared
    rw [List.filterMap_cons, List.filterMap_cons]
    unfold hoistedExport?
    cases exported : t.exportedFunction? with
    | none => exact ih later
    | some e => exact .exports (here e.1 e.2 exported) (ih later)

/-- A package is bound. -/
theorem Opens.one {target : String} (package : covered target) {pattern : Pattern}
    (selects : Selects pattern) (all : Bool) (site span : Span)
    (free : ∀ name ∈ [constant pattern (requireCall target all site) span].flatMap
      Stmt.variableNames, ¬IsReserved name ∧ name ∉ names) :
    Opens covered names [constant pattern (requireCall target all site) span] [] := by
  refine .binds package selects (fun name mem => free name ?_) .done
  simpa [constant, Stmt.variableNames, Declarator.pattern] using mem

theorem opens_front (m : Module) (resolution : String → Resolution)
    (package : covered HostPackage.jsxRuntime.specifier)
    (free : ∀ name ∈ ((front m).map (Part.stmt resolution)).flatMap Stmt.variableNames,
      ¬IsReserved name ∧ name ∉ names) :
    Opens covered names ((front m).map (Part.stmt resolution)) [] := by
  unfold front at free ⊢
  split at free
  · rw [if_pos ‹_›]
    exact .one package (.members [("jsx", ⟨Lowering.factory, m.span⟩),
      ("Fragment", ⟨Lowering.fragment, m.span⟩)]) true m.span m.span free
  · rw [if_neg ‹_›]
    exact .done

theorem opens_binding (span : Span) (b : ExternalBinding) (resolution : String → Resolution)
    (package : covered (target resolution b.source))
    (free : ∀ name ∈ ((Share.ofBinding b span).parts.map (Part.stmt resolution)).flatMap
      Stmt.variableNames, ¬IsReserved name ∧ name ∉ names) :
    Opens covered names ((Share.ofBinding b span).parts.map (Part.stmt resolution)) [] := by
  obtain ⟨name, imported, source⟩ := b
  cases imported with
  | default => exact .one package (.name ⟨name, span⟩) false span span free
  | star => exact .one package (.name ⟨name, span⟩) true span span free
  | named imported =>
    exact .one package (.members [(imported, ⟨name, span⟩)]) true span span free

theorem opens_bindings (span : Span) (bindings : List ExternalBinding)
    (resolution : String → Resolution)
    (packages : ∀ b ∈ bindings, covered (target resolution b.source))
    (free : ∀ name ∈ ((Share.ofBindings span bindings).parts.map (Part.stmt resolution)).flatMap
      Stmt.variableNames, ¬IsReserved name ∧ name ∉ names) :
    Opens covered names ((Share.ofBindings span bindings).parts.map (Part.stmt resolution)) [] := by
  induction bindings with
  | nil => exact .done
  | cons b rest ih =>
    obtain ⟨here, later⟩ := List.forall_mem_cons.mp packages
    rw [Share.ofBindings, Share.append] at free ⊢
    rw [List.map_append] at free ⊢
    rw [List.flatMap_append] at free
    obtain ⟨first, others⟩ := List.forall_mem_append.mp free
    exact (opens_binding span b resolution here first).append (ih later others)

end Linking

namespace Executable

open Linking

/-- A linked module whose names are apart opens by binding packages and exporting its functions. -/
theorem opens_ofModule (path : String) (resolution : String → Resolution)
    (bindings : List ExternalBinding) (m : Module) (covered : String → Prop)
    (factories : covered HostPackage.jsxRuntime.specifier)
    (packages : ∀ b ∈ bindings, covered (target resolution b.source))
    (apart : NamesApart (ofModule path resolution bindings m).body.body) :
    ∃ first rest, (ofModule path resolution bindings m).body.body = first ++ rest ∧
      Opens covered (functionNames (first ++ rest)) first m.functionKeys := by
  let fill := List.map (Part.stmt resolution)
  let first := fill (front m) ++ fill (Share.ofBindings m.span bindings).parts ++
    m.body.filterMap hoistedExport?
  let rest := fill (Share.ofBody m.body 0).parts
  have whole : (ofModule path resolution bindings m).body.body = first ++ rest := by
    rw [ofModule_eq]
    simp only [parts, List.map_append, map_stmt_own, hoisted_ofBody, first, rest, fill]
  rw [whole] at apart
  refine ⟨first, rest, whole, ?_⟩
  have free {stmts : List Stmt} (part : ∀ t ∈ stmts, t ∈ first) :
      ∀ name ∈ stmts.flatMap Stmt.variableNames,
        ¬IsReserved name ∧ name ∉ functionNames (first ++ rest) := by
    intro name mem
    obtain ⟨t, within, declares⟩ := List.mem_flatMap.mp mem
    exact apart.bound name
      (List.mem_flatMap.mpr ⟨t, List.mem_append_left _ (part t within), declares⟩)
  have start := opens_front m resolution factories (free fun t mem =>
    List.mem_append_left _ (List.mem_append_left _ mem))
  have bound := opens_bindings m.span bindings resolution packages
    (free fun t mem => List.mem_append_left _ (List.mem_append_right _ mem))
  refine (start.append bound).append (opens_hoisted fun t mem key name exported => ?_)
  obtain ⟨span, fn, own, named⟩ := declares_ofBody mem exported 0
  refine List.mem_filterMap.mpr ⟨.function span fn, List.mem_append_right _ ?_, ?_⟩
  · exact List.mem_map.mpr ⟨_, own, rfl⟩
  · rw [Stmt.functionName?, named]
    rfl

end Executable

end TsxPreview
