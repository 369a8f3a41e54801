import TsxPreview.Proofs.Syntax.Progress.Basic

/-!
The parts of a tree that have a place in the text, and readers of the tokens between which they
stand. A part of the tree starts with one token and ends with another, so it lies within whatever
starts no later and ends no sooner. Where a reader stops is said here of success and failure only:
that it stops at all is another matter.
-/

namespace TsxPreview

/-- `a` is a range that lies within `b`. -/
structure Span.Inside (a b : Span) : Prop where
  lo : b.lo ≤ a.lo
  ordered : a.lo ≤ a.hi
  hi : a.hi ≤ b.hi

/-! ## Parts of trees -/

/-- A part of a tree that has a place in the text. -/
inductive SyntaxNode where
  | module (m : Module)
  | stmt (s : Stmt)
  | expr (e : Expr)
  | function (fn : Function)
  | declarator (d : Declarator)
  | ident (name : Ident)
  | element (e : JsxElement)
  | attr (name : String) (value : Option JsxContent) (span : Span)

/-! What has no place of its own hands on the parts below it. -/

def Item.nodes : Item → List SyntaxNode
  | .expr e | .spread e => [.expr e]
  | .hole => []

def Key.nodes : Key → List SyntaxNode
  | .named _ => []
  | .computed e => [.expr e]

def Property.nodes : Property → List SyntaxNode
  | .pair key value => key.nodes ++ [.expr value]
  | .shorthand name => [.ident name]
  | .spread value => [.expr value]

mutual

def Pattern.nodes : Pattern → List SyntaxNode
  | .ident name => [.ident name]
  | .object props rest => propertyNodes props ++ restNodes rest
  | .array elems rest => elementNodes elems ++ restNodes rest

def Pattern.bindingNodes : Binding → List SyntaxNode
  | .mk pattern fallback => pattern.nodes ++ fallback.toList.map .expr

def Pattern.memberNodes : PatternProperty → List SyntaxNode
  | .mk key binding => key.nodes ++ bindingNodes binding

def Pattern.propertyNodes : List PatternProperty → List SyntaxNode
  | [] => []
  | member :: rest => memberNodes member ++ propertyNodes rest

def Pattern.elementNodes : List (Option Binding) → List SyntaxNode
  | [] => []
  | none :: rest => elementNodes rest
  | some binding :: rest => bindingNodes binding ++ elementNodes rest

def Pattern.restNodes : Option Pattern → List SyntaxNode
  | none => []
  | some pattern => pattern.nodes

end

def Body.nodes : Body → List SyntaxNode
  | .block stmts => stmts.map .stmt
  | .expr e => [.expr e]

def Function.nodes : Function → List SyntaxNode
  | .mk name params rest body _ _ =>
    name.toList.map .ident ++ params.flatMap Pattern.bindingNodes ++ Pattern.restNodes rest
      ++ body.nodes

def Declarator.span : Declarator → Span
  | .mk _ _ span => span

def Declarator.nodes : Declarator → List SyntaxNode
  | .mk pattern init _ => pattern.nodes ++ init.toList.map .expr

def JsxName.nodes : JsxName → List SyntaxNode
  | .fragment | .tag _ => []
  | .component e => [.expr e]

def JsxContent.nodes : JsxContent → List SyntaxNode
  | .text _ => []
  | .expr e => [.expr e]
  | .element e => [.element e]

def JsxAttr.nodes : JsxAttr → List SyntaxNode
  | .named name value span => [.attr name value span]
  | .spread e => [.expr e]

def JsxElement.nodes : JsxElement → List SyntaxNode
  | .mk name attrs children _ =>
    name.nodes ++ attrs.flatMap JsxAttr.nodes ++ children.flatMap JsxContent.nodes

def ImportDecl.nodes (d : ImportDecl) : List SyntaxNode :=
  d.default.toList.map .ident ++ d.star.toList.map .ident ++ d.named.map fun n => .ident n.name

def ExportDecl.nodes : ExportDecl → List SyntaxNode
  | .default e => [.expr e]
  | .defaultFunction fn => [.function fn]
  | .decl s => [.stmt s]
  | .named .. | .all .. => []

def SwitchCase.nodes : SwitchCase → List SyntaxNode
  | .mk test body => test.toList.map .expr ++ body.map .stmt

def Expr.nodes : Expr → List SyntaxNode
  | .number .. | .string .. | .bool .. | .null .. | .ident .. => []
  | .template _ _ exprs | .sequence _ exprs => exprs.map .expr
  | .array _ items => items.flatMap Item.nodes
  | .object _ props => props.flatMap Property.nodes
  | .function _ fn => [.function fn]
  | .member _ of key _ => .expr of :: key.nodes
  | .call _ callee args _ | .new _ callee args => .expr callee :: args.flatMap Item.nodes
  | .unary _ _ operand => [.expr operand]
  | .update _ _ _ target => [.expr target]
  | .binary _ _ left right | .logical _ _ left right => [.expr left, .expr right]
  | .conditional _ test yes no => [.expr test, .expr yes, .expr no]
  | .assign _ _ target value => [.expr target, .expr value]
  | .jsx _ element => [.element element]

def Stmt.nodes : Stmt → List SyntaxNode
  | .import _ decl => decl.nodes
  | .export _ decl => decl.nodes
  | .var _ _ declarators => declarators.map .declarator
  | .function _ fn => [.function fn]
  | .return _ value => value.toList.map .expr
  | .if _ test yes no => [.expr test, .stmt yes] ++ no.toList.map .stmt
  | .for _ init test update body =>
    init.toList.map .stmt ++ test.toList.map .expr ++ update.toList.map .expr ++ [.stmt body]
  | .forEach _ _ _ pattern iterable body => pattern.nodes ++ [.expr iterable, .stmt body]
  | .while _ test body => [.expr test, .stmt body]
  | .switch _ subject cases => .expr subject :: cases.flatMap SwitchCase.nodes
  | .break _ | .continue _ | .empty _ => []
  | .throw _ value | .expr _ value => [.expr value]
  | .try _ body param handler finalizer =>
    body.map .stmt ++ Pattern.restNodes param ++ (handler.getD []).map .stmt
      ++ (finalizer.getD []).map .stmt
  | .block _ stmts => stmts.map .stmt

namespace SyntaxNode

def span : SyntaxNode → Span
  | module m => m.span
  | stmt s => s.span
  | expr e => e.span
  | function fn => fn.span
  | declarator d => d.span
  | ident name => name.span
  | element e => e.span
  | attr _ _ span => span

/-- The parts whose nearest part above is this one. -/
def children : SyntaxNode → List SyntaxNode
  | module m => m.body.map stmt
  | stmt s => s.nodes
  | expr e => e.nodes
  | function fn => fn.nodes
  | declarator d => d.nodes
  | ident _ => []
  | element e => e.nodes
  | attr _ value _ => value.toList.flatMap JsxContent.nodes

/-- A part and all parts below it: each lies within the nearest one above it. -/
inductive Nested : SyntaxNode → Prop where
  | mk {x : SyntaxNode} (inside : ∀ c ∈ x.children, c.span.Inside x.span)
    (below : ∀ c ∈ x.children, Nested c) : Nested x

/-- `x` is a part of `root`. -/
inductive IsPart (root : SyntaxNode) : SyntaxNode → Prop where
  | root : IsPart root root
  | child {x c : SyntaxNode} (part : IsPart root x) (mem : c ∈ x.children) : IsPart root c

theorem IsPart.nested {root x : SyntaxNode} (part : root.IsPart x) (h : root.Nested) :
    x.Nested := by
  induction part with
  | root => exact h
  | child _ mem ih =>
    obtain ⟨-, below⟩ := ih
    exact below _ mem

end SyntaxNode

theorem Pattern.propertyNodes_eq (props : List PatternProperty) :
    propertyNodes props = props.flatMap memberNodes := by
  induction props with
  | nil => rfl
  | cons member rest ih =>
    rw [propertyNodes, ih]
    rfl

theorem Pattern.elementNodes_eq (elems : List (Option Binding)) :
    elementNodes elems = elems.flatMap fun e => e.toList.flatMap bindingNodes := by
  induction elems with
  | nil => rfl
  | cons e rest ih => cases e <;> simp [elementNodes, ih]

theorem Expr.span_withSpan (s : Span) (e : Expr) : (e.withSpan s).span = s := by
  cases e <;> rfl

theorem Expr.nodes_withSpan (s : Span) (e : Expr) : (e.withSpan s).nodes = e.nodes := by
  cases e <;> rfl

namespace Parser

/-! ## Between tokens -/

/-- The tokens of an input follow one another. -/
structure Input.Ordered (i : Input) : Prop where
  lo_le_hi : ∀ n < i.tokens.size, (i.tokenAt n).span.lo ≤ (i.tokenAt n).span.hi
  hi_le_lo : ∀ m n, m < n → n < i.tokens.size → (i.tokenAt m).span.hi ≤ (i.tokenAt n).span.lo

variable {i : Input} {m n k p q : Nat} {a b c : Span}

namespace Input.Ordered

theorem lo_le_lo (ordered : i.Ordered) (le : m ≤ n) (inside : n < i.tokens.size) :
    (i.tokenAt m).span.lo ≤ (i.tokenAt n).span.lo := by
  rcases Nat.eq_or_lt_of_le le with rfl | lt
  · exact Nat.le_refl _
  · exact Nat.le_trans (ordered.lo_le_hi m (by omega)) (ordered.hi_le_lo m n lt inside)

theorem hi_le_hi (ordered : i.Ordered) (le : m ≤ n) (inside : n < i.tokens.size) :
    (i.tokenAt m).span.hi ≤ (i.tokenAt n).span.hi := by
  rcases Nat.eq_or_lt_of_le le with rfl | lt
  · exact Nat.le_refl _
  · exact Nat.le_trans (ordered.hi_le_lo m n lt inside) (ordered.lo_le_hi n inside)

end Input.Ordered

/-- The span `a` starts and ends with tokens from the one at `m` up to the one before `n`. -/
def Spans (i : Input) (m n : Nat) (a : Span) : Prop :=
  ∃ first last, m ≤ first ∧ first ≤ last ∧ last < n ∧ (i.tokenAt first).span.lo ≤ a.lo ∧
    a.lo ≤ a.hi ∧ a.hi ≤ (i.tokenAt last).span.hi

namespace Spans

theorem mono (h : Spans i m n a) (le : k ≤ m ∧ n ≤ p) : Spans i k p a := by
  obtain ⟨first, last, start, order, stop, bounds⟩ := h
  exact ⟨first, last, by omega, order, by omega, bounds⟩

theorem lt (h : Spans i m n a) : m < n := by
  obtain ⟨first, last, start, order, stop, -⟩ := h
  omega

theorem ordered (h : Spans i m n a) : a.lo ≤ a.hi := by
  obtain ⟨-, -, -, -, -, -, order, -⟩ := h
  exact order

section

variable (tokens : i.Ordered)

include tokens

theorem token (inside : n < i.tokens.size) : Spans i n (n + 1) (i.tokenAt n).span :=
  ⟨n, n, Nat.le_refl _, Nat.le_refl _, Nat.lt_succ_self _, Nat.le_refl _,
    tokens.lo_le_hi n inside, Nat.le_refl _⟩

theorem merge (ha : Spans i m n a) (hb : Spans i m n b) (inside : n ≤ i.tokens.size) :
    Spans i m n (a.merge b) := by
  obtain ⟨first, last, start, order, stop, lo, between, hi⟩ := ha
  obtain ⟨first', last', start', order', stop', lo', between', hi'⟩ := hb
  refine ⟨min first first', max last last', by omega, by omega, by omega, ?_, ?_, ?_⟩
  · have := tokens.lo_le_lo (Nat.min_le_left first first') (by omega)
    have := tokens.lo_le_lo (Nat.min_le_right first first') (by omega)
    show _ ≤ min a.lo b.lo
    omega
  · show min a.lo b.lo ≤ max a.hi b.hi
    omega
  · have := tokens.hi_le_hi (Nat.le_max_left last last') (by omega)
    have := tokens.hi_le_hi (Nat.le_max_right last last') (by omega)
    show max a.hi b.hi ≤ _
    omega

/-- What starts with a later token starts later. -/
theorem lo_le_lo (ha : Spans i m p a) (hc : Spans i p n c) (inside : n ≤ i.tokens.size) :
    a.lo ≤ c.lo := by
  obtain ⟨_, last, -, -, stop, -, between, hi⟩ := ha
  obtain ⟨first, _, start, order, stop', lo, -, -⟩ := hc
  have := tokens.hi_le_lo last first (by omega) (by omega)
  omega

theorem hi_le_hi (hc : Spans i m p c) (hb : Spans i p n b) (inside : n ≤ i.tokens.size) :
    c.hi ≤ b.hi := by
  obtain ⟨_, last, -, -, stop, -, -, hi⟩ := hc
  obtain ⟨first, _, start, order, stop', lo, between, -⟩ := hb
  have := tokens.hi_le_lo last first (by omega) (by omega)
  omega

theorem token_lo_le (hc : Spans i m n c) (inside : n ≤ i.tokens.size) :
    (i.tokenAt m).span.lo ≤ c.lo := by
  obtain ⟨first, _, start, order, stop, lo, -, -⟩ := hc
  exact Nat.le_trans (tokens.lo_le_lo start (by omega)) lo

theorem le_token_hi (hc : Spans i m (n + 1) c) (inside : n < i.tokens.size) :
    c.hi ≤ (i.tokenAt n).span.hi := by
  obtain ⟨_, last, -, -, stop, -, -, hi⟩ := hc
  exact Nat.le_trans hi (tokens.hi_le_hi (Nat.le_of_lt_succ stop) inside)

end

end Spans

/-- Two spans and what stands between them. -/
theorem inside_merge (lo : a.lo ≤ c.lo) (ordered : c.lo ≤ c.hi) (hi : c.hi ≤ b.hi) :
    c.Inside (a.merge b) where
  lo := Nat.le_trans (Nat.min_le_left _ _) lo
  ordered := ordered
  hi := Nat.le_trans hi (Nat.le_max_right _ _)

theorem inside_merge_left (ordered : a.lo ≤ a.hi) : a.Inside (a.merge b) where
  lo := Nat.min_le_left _ _
  ordered := ordered
  hi := Nat.le_max_left _ _

theorem inside_merge_right (ordered : b.lo ≤ b.hi) : b.Inside (a.merge b) where
  lo := Nat.min_le_right _ _
  ordered := ordered
  hi := Nat.le_max_right _ _

end Parser

namespace SyntaxNode

open Parser

/-- A part of a tree whose span starts and ends with tokens from the one at `m` up to the one before
`n`, and all parts below it. -/
structure Stands (i : Input) (m n : Nat) (x : SyntaxNode) : Prop where
  spans : Spans i m n x.span
  nested : x.Nested

/-- All parts stand between the tokens. -/
def Standing (i : Input) (m n : Nat) (xs : List SyntaxNode) : Prop := ∀ x ∈ xs, x.Stands i m n

namespace Stands

variable {i : Input} {m n k p q : Nat} {a b : Span} {x first last : SyntaxNode}

theorem mono (h : x.Stands i m n) (le : k ≤ m ∧ n ≤ p) : x.Stands i k p :=
  ⟨h.spans.mono le, h.nested⟩

theorem lt (h : x.Stands i m n) : m < n := h.spans.lt

/-- A part that only stands around another. -/
theorem around (h : x.Stands i m n) {y : SyntaxNode} (span : y.span = x.span)
    (children : y.children = [x]) : y.Stands i m n where
  spans := span ▸ h.spans
  nested := by
    refine .mk (fun c hc => ?_) fun c hc => ?_
    all_goals rw [children, List.mem_singleton] at hc
    · rw [hc, span]
      exact ⟨Nat.le_refl _, h.spans.ordered, Nat.le_refl _⟩
    · exact hc ▸ h.nested

section

variable (tokens : i.Ordered)

include tokens

theorem token (inside : n < i.tokens.size) (span : x.span = (i.tokenAt n).span)
    (children : x.children = []) : x.Stands i n (n + 1) where
  spans := span ▸ .token tokens inside
  nested := .mk (by simp [children]) (by simp [children])

theorem of_merge (ha : Spans i m n a) (hb : Spans i m n b) (inside : n ≤ i.tokens.size)
    (span : x.span = a.merge b)
    (children : ∀ c ∈ x.children, c.Nested ∧ c.span.Inside (a.merge b)) : x.Stands i m n where
  spans := span ▸ ha.merge tokens hb inside
  nested := .mk (fun c hc => span ▸ (children c hc).2) fun c hc => (children c hc).1

/-- From the token at `m` to the one before `n`. -/
theorem between (lt : m < n) (inside : n ≤ i.tokens.size)
    (span : x.span = (i.tokenAt m).span.merge (i.tokenAt (n - 1)).span)
    (children : Standing i m n x.children) : x.Stands i m n := by
  obtain _ | n := n
  · exact absurd lt (Nat.not_lt_zero _)
  · refine of_merge tokens (.mono (.token tokens (n := m) (by omega)) (by omega))
      (.mono (.token tokens (n := n) inside) (by omega)) inside span fun c hc => ?_
    have stands := children c hc
    exact ⟨stands.nested, inside_merge (stands.spans.token_lo_le tokens inside) stands.spans.ordered
      (stands.spans.le_token_hi tokens inside)⟩

/-- From the first part below to the token before `n`. -/
theorem onward (hf : first.Stands i m p) (le : p ≤ n) (inside : n ≤ i.tokens.size)
    (span : x.span = first.span.merge (i.tokenAt (n - 1)).span)
    (children : ∀ c ∈ x.children, c = first ∨ c.Stands i p n) : x.Stands i m n := by
  have start := hf.lt
  obtain _ | n := n
  · omega
  · refine of_merge tokens (hf.spans.mono (by omega))
      (.mono (.token tokens (n := n) inside) (by omega)) inside span fun c hc => ?_
    rcases children c hc with rfl | stands
    · exact ⟨hf.nested, inside_merge_left hf.spans.ordered⟩
    · exact ⟨stands.nested, inside_merge (hf.spans.lo_le_lo tokens stands.spans inside)
        stands.spans.ordered (stands.spans.le_token_hi tokens inside)⟩

/-- From the token at `m` to the only part below. -/
theorem ahead (hl : last.Stands i p n) (lt : m < p) (inside : n ≤ i.tokens.size)
    (span : x.span = (i.tokenAt m).span.merge last.span) (children : x.children = [last]) :
    x.Stands i m n := by
  have start := hl.lt
  refine of_merge tokens (.mono (.token tokens (n := m) (by omega)) (by omega))
      (hl.spans.mono (by omega)) inside span fun c hc => ?_
  rw [children, List.mem_singleton] at hc
  subst hc
  exact ⟨hl.nested, inside_merge_right hl.spans.ordered⟩

/-- From the first part below to the last one. -/
theorem join (hf : first.Stands i m p) (hl : last.Stands i q n) (le : p ≤ q)
    (inside : n ≤ i.tokens.size) (span : x.span = first.span.merge last.span)
    (children : ∀ c ∈ x.children, c = first ∨ c = last ∨ c.Stands i p q) : x.Stands i m n := by
  have start := hf.lt
  have stop := hl.lt
  refine of_merge tokens (hf.spans.mono (by omega)) (hl.spans.mono (by omega)) inside span
    fun c hc => ?_
  rcases children c hc with rfl | rfl | stands
  · exact ⟨hf.nested, inside_merge_left hf.spans.ordered⟩
  · exact ⟨hl.nested, inside_merge_right hl.spans.ordered⟩
  · exact ⟨stands.nested, inside_merge (hf.spans.lo_le_lo tokens stands.spans (by omega))
      stands.spans.ordered (stands.spans.hi_le_hi tokens hl.spans inside)⟩

/-- Two parts below, one behind the other. -/
theorem pair (hf : first.Stands i m p) (hl : last.Stands i q n) (le : p ≤ q)
    (inside : n ≤ i.tokens.size) (span : x.span = first.span.merge last.span)
    (children : x.children = [first, last]) : x.Stands i m n := by
  refine join tokens hf hl le inside span fun c hc => ?_
  rw [children] at hc
  rcases List.mem_cons.mp hc with rfl | hc
  · exact .inl rfl
  · exact .inr (.inl (List.mem_singleton.mp hc))

/-- An expression that is made to reach up to the token before `n`. -/
theorem widen {e : Expr} (he : (expr e).Stands i m p) (le : p ≤ n) (inside : n ≤ i.tokens.size) :
    (expr (e.withSpan (e.span.merge (i.tokenAt (n - 1)).span))).Stands i m n := by
  have start := he.lt
  obtain _ | n := n
  · omega
  · refine of_merge tokens (he.spans.mono (by omega))
      (.mono (.token tokens (n := n) inside) (by omega)) inside (Expr.span_withSpan _ _)
      fun c hc => ?_
    have below : c ∈ e.nodes := by
      rw [← Expr.nodes_withSpan (e.span.merge (i.tokenAt n).span)]
      exact hc
    obtain ⟨within, nested⟩ := he.nested
    have grown := inside_merge_left (b := (i.tokenAt n).span) he.spans.ordered
    have first := within c below
    exact ⟨nested c below, Nat.le_trans grown.lo first.lo, first.ordered,
      Nat.le_trans first.hi grown.hi⟩

end

end Stands

namespace Standing

variable {α : Type} {i : Input} {m n k p : Nat} {x : SyntaxNode} {xs ys : List SyntaxNode}

theorem mono (h : Standing i m n xs) (le : k ≤ m ∧ n ≤ p) : Standing i k p xs :=
  fun x hx => (h x hx).mono le

theorem nil : Standing i m n [] := fun _ hx => nomatch hx

theorem cons (h : x.Stands i m n) (hs : Standing i m n xs) : Standing i m n (x :: xs) := by
  intro y hy
  rcases List.mem_cons.mp hy with rfl | hy
  · exact h
  · exact hs y hy

theorem one (h : x.Stands i m n) : Standing i m n [x] := cons h nil

theorem append (h : Standing i m n xs) (hs : Standing i m n ys) : Standing i m n (xs ++ ys) := by
  intro y hy
  rcases List.mem_append.mp hy with hy | hy
  · exact h y hy
  · exact hs y hy

theorem reverse_map {f : α → SyntaxNode} {as : List α} (h : Standing i m n (as.map f)) :
    Standing i m n (as.reverse.map f) := fun y hy => h y (by simpa using hy)

theorem reverse_flatMap {f : α → List SyntaxNode} {as : List α}
    (h : Standing i m n (as.flatMap f)) : Standing i m n (as.reverse.flatMap f) :=
  fun y hy => h y (by simpa using hy)

/-- One more for a list that was read so far. -/
theorem push {f : α → List SyntaxNode} {a : α} {as : List α} (h : Standing i k m (as.flatMap f))
    (ha : Standing i p n (f a)) (le : k ≤ p ∧ m ≤ n) : Standing i k n ((a :: as).flatMap f) :=
  (ha.mono ⟨le.1, Nat.le_refl n⟩).append (h.mono ⟨Nat.le_refl k, le.2⟩)

end Standing

end SyntaxNode

end TsxPreview
