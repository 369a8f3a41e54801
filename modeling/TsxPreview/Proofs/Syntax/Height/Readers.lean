import TsxPreview.Proofs.Lexer.Reading
import TsxPreview.Proofs.Syntax.Nesting.Nodes

/-!
How high trees are, and readers that keep them low. The height of a tree is counted without the steps
along its chains: a chain of operators, members and calls is read by one loop, however long it is,
and opens no construct. Every other step is paid for by a construct that was open while it was read.
-/

namespace TsxPreview

/-! ## Height -/

namespace SyntaxNode

/-- `x` is at most `n` steps high. Steps to the first parts of a node, as many as are `free`, are not
counted. -/
inductive Height (free : SyntaxNode → Nat) : Nat → SyntaxNode → Prop where
  | last {n : Nat} {x : SyntaxNode} (none : x.children.drop (free x) = [])
    (along : ∀ c ∈ x.children.take (free x), Height free n c) : Height free n x
  | step {n : Nat} {x : SyntaxNode} (along : ∀ c ∈ x.children.take (free x), Height free (n + 1) c)
    (down : ∀ c ∈ x.children.drop (free x), Height free n c) : Height free (n + 1) x

theorem Height.mono {free : SyntaxNode → Nat} {m n : Nat} {x : SyntaxNode} (h : Height free m x)
    (le : m ≤ n) : Height free n x := by
  induction h generalizing n with
  | last none _ ih => exact .last none fun c hc => ih c hc le
  | step _ _ ihAlong ihDown =>
    obtain ⟨n, rfl⟩ : ∃ k, n = k + 1 := ⟨n - 1, by omega⟩
    exact .step (fun c hc => ihAlong c hc le) fun c hc => ihDown c hc (by omega)

end SyntaxNode

/-- How many of the first parts of an expression carry on a chain: the left operand, both operands of
a power, the object, the callee. -/
def Expr.links : Expr → Nat
  | .member .. | .call .. | .new .. | .logical .. => 1
  | .binary _ op _ _ => if op = .exp then 2 else 1
  | _ => 0

def SyntaxNode.links : SyntaxNode → Nat
  | expr e => e.links
  | _ => 0

/-- `x` is at most `n` steps high, steps along chains not counted. -/
abbrev SyntaxNode.Low (n : Nat) (x : SyntaxNode) : Prop := x.Height SyntaxNode.links n

/-- All of the nodes are low. -/
def AllLow (n : Nat) (xs : List SyntaxNode) : Prop := ∀ x ∈ xs, x.Low n

namespace AllLow

variable {α : Type} {m n : Nat} {x : SyntaxNode} {xs ys : List SyntaxNode}

theorem mono (h : AllLow m xs) (le : m ≤ n) : AllLow n xs := fun x hx => (h x hx).mono le

theorem nil : AllLow n [] := fun _ hx => nomatch hx

theorem cons (h : x.Low n) (hs : AllLow n xs) : AllLow n (x :: xs) := by
  intro y hy
  rcases List.mem_cons.mp hy with rfl | hy
  · exact h
  · exact hs y hy

theorem one (h : x.Low n) : AllLow n [x] := cons h nil

theorem append (h : AllLow n xs) (hs : AllLow n ys) : AllLow n (xs ++ ys) := by
  intro y hy
  rcases List.mem_append.mp hy with hy | hy
  · exact h y hy
  · exact hs y hy

theorem reverse_map {f : α → SyntaxNode} {as : List α} (h : AllLow n (as.map f)) :
    AllLow n (as.reverse.map f) := fun y hy => h y (by simpa using hy)

theorem reverse_flatMap {f : α → List SyntaxNode} {as : List α} (h : AllLow n (as.flatMap f)) :
    AllLow n (as.reverse.flatMap f) := fun y hy => h y (by simpa using hy)

end AllLow

namespace SyntaxNode

variable {n : Nat} {x first : SyntaxNode} {rest : List SyntaxNode}

/-- A node is one step higher than its parts. -/
theorem Low.of_children (h : AllLow n x.children) : x.Low (n + 1) :=
  .step (fun c hc => (h c (List.mem_of_mem_take hc)).mono (Nat.le_succ n))
    fun c hc => h c (List.mem_of_mem_drop hc)

/-- A node without parts. -/
theorem Low.leaf (h : x.children = []) : x.Low n := .last (by simp [h]) (by simp [h])

/-- A node that carries on a chain is as high as the chain, or one step higher than what hangs on
it. -/
theorem Low.link (children : x.children = first :: rest) (links : x.links = 1)
    (hf : first.Low (n + 1)) (hr : AllLow n rest) : x.Low (n + 1) := by
  refine .step (fun c hc => ?_) fun c hc => hr c ?_
  · rw [children, links] at hc
    exact List.mem_singleton.mp hc ▸ hf
  · rwa [children, links] at hc

/-- A node whose parts all carry on chains. -/
theorem Low.links (h : AllLow n x.children) (links : x.children.length ≤ x.links) : x.Low n := by
  refine .last (List.drop_eq_nil_iff.mpr links) fun c hc => h c (List.mem_of_mem_take hc)

/-- A node whose span changes. -/
theorem Low.withSpan {e : Expr} (h : (expr e).Low n) (s : Span) : (expr (e.withSpan s)).Low n := by
  have links : (expr (e.withSpan s)).links = (expr e).links := by cases e <;> rfl
  have children : (expr (e.withSpan s)).children = (expr e).children := Expr.nodes_withSpan s e
  cases h with
  | last none along =>
    exact .last (by rwa [children, links]) (by rwa [children, links])
  | step along down =>
    exact .step (by rwa [children, links]) (by rwa [children, links])

end SyntaxNode

namespace Parser

/-! ## What readers leave -/

/-- No more diagnostics are kept than are counted. -/
def Counted (d : Diagnostics) : Prop := d.errors.length ≤ d.total

theorem Counted.push {d : Diagnostics} (h : Counted d) (e : Diagnostic) : Counted (d.push e) :=
  (Diagnostics.grows_push d e).counted h

theorem Counted.truncate {d : Diagnostics} (h : Counted d) (mark : Nat) :
    Counted (d.truncate mark) := by
  unfold Diagnostics.truncate Counted
  split
  · exact List.length_take_le mark d.errors
  · exact h

/-- The parts of the state that a reader puts back: as many constructs are open, and `in` is an
operator again. If `c` holds, no default export was noted either. -/
structure State.Restores (c : Prop) (s t : State) : Prop where
  depth : t.depth = s.depth
  noIn : s.noIn = false → t.noIn = false
  counted : Counted s.found → Counted t.found
  defaultExport : c → t.defaultExport = s.defaultExport

theorem State.Restores.refl {c : Prop} (s : State) : s.Restores c s := ⟨rfl, id, id, fun _ => rfl⟩

theorem State.Restores.trans {c : Prop} {s t u : State} (h : s.Restores c t) (k : t.Restores c u) :
    s.Restores c u where
  depth := k.depth.trans h.depth
  noIn := k.noIn ∘ h.noIn
  counted := k.counted ∘ h.counted
  defaultExport hc := (k.defaultExport hc).trans (h.defaultExport hc)

variable {α β γ : Type}

/-- The state was restored, and `Q` holds of the result. -/
def Outcome.Gives (c : Prop) (s : State) (Q : α → Prop) : Outcome α → Prop
  | .parsed a t => s.Restores c t ∧ Q a
  | .failed t => s.Restores c t
  | .exhausted _ => True

/-- Started with `d` constructs open, the reader restores the state, and `Q` holds of its result. -/
def Gives (i : Input) (c : Prop) (d : Nat) (p : Parser α) (Q : α → Prop) : Prop :=
  ∀ s : State, s.depth = d → (p i s).Gives c s Q

/-- The reader restores the state. -/
abbrev Steady (i : Input) (c : Prop) (d : Nat) (p : Parser α) : Prop :=
  Gives i c d p fun _ => True

/-- What holds after a round of a loop with the invariant `I`. -/
def Round.Gives (I : β → Prop) (Q : γ → Prop) : Round β γ → Prop
  | .again acc => I acc
  | .done result => Q result

variable {i : Input} {c : Prop} {d : Nat} {p : Parser α} {f : α → Parser β} {Q Q' : α → Prop}
  {R : β → Prop} {s t : State}

theorem Outcome.Gives.after {o : Outcome α} (h : o.Gives c t Q) (before : s.Restores c t) :
    o.Gives c s Q := by
  cases o with
  | parsed a u => exact ⟨before.trans h.1, h.2⟩
  | failed u => exact before.trans h
  | exhausted u => trivial

namespace Gives

theorem imp (h : Gives i c d p Q) (hq : ∀ a, Q a → Q' a) : Gives i c d p Q' := by
  intro s start
  have whole := h s start
  cases hr : p i s with
  | parsed a t =>
    rw [hr] at whole
    exact ⟨whole.1, hq a whole.2⟩
  | failed t =>
    rw [hr] at whole
    exact whole
  | exhausted t => trivial

theorem steady (h : Gives i c d p Q) : Steady i c d p := h.imp fun _ _ => trivial

/-! ### Parts of productions -/

theorem pure {a : α} (h : Q a) : Gives i c d (Pure.pure a) Q := fun s _ => ⟨.refl s, h⟩

theorem stay {a : α} : Steady i c d (Pure.pure a) := pure trivial

/-- What follows something that is given. -/
theorem given {a : α} (hf : Gives i c d (f a) R) : Gives i c d (Pure.pure a >>= f) R := hf

theorem bind_at (first : (p i s).Gives c s Q)
    (rest : ∀ a t, t.depth = s.depth → Q a → (f a i t).Gives c t R) :
    ((p >>= f) i s).Gives c s R := by
  simp only [Bind.bind]
  cases h : p i s with
  | parsed a t =>
    rw [h] at first
    exact (rest a t first.1.depth first.2).after first.1
  | failed t =>
    rw [h] at first
    exact first
  | exhausted t => trivial

theorem bind (hp : Gives i c d p Q) (hf : ∀ a, Q a → Gives i c d (f a) R) :
    Gives i c d (p >>= f) R := fun s start =>
  bind_at (hp s start) fun a t same q => hf a q t (same.trans start)

/-- What follows a reader whose result does not matter. -/
theorem after (hp : Steady i c d p) (hf : ∀ a, Gives i c d (f a) R) : Gives i c d (p >>= f) R :=
  bind hp fun a _ => hf a

theorem map {r : α → β} (hp : Gives i c d p fun a => R (r a)) : Gives i c d (r <$> p) R := by
  intro s start
  change ((p >>= fun a => Pure.pure (r a)) i s).Gives c s R
  exact bind_at (hp s start) fun a t _ q => ⟨.refl t, q⟩

theorem ite {b : Prop} [Decidable b] {q : Parser α} (yes : b → Gives i c d p Q)
    (no : ¬ b → Gives i c d q Q) : Gives i c d (if b then p else q) Q := by
  by_cases h : b
  · rw [if_pos h]
    exact yes h
  · rw [if_neg h]
    exact no h

/-- A part that may be left out. -/
theorem when {b : Prop} [Decidable b] {q : Parser β} (hp : b → Steady i c d p)
    (hq : Gives i c d q R) : Gives i c d (if b then p >>= fun _ => q else q) R :=
  ite (fun h => after (hp h) fun _ => hq) fun _ => hq

/-! ### Readers that only look -/

theorem look_at (hp : Looks p) (hf : ∀ a, (f a i s).Gives c s R) : ((p >>= f) i s).Gives c s R := by
  obtain ⟨a, looked⟩ := hp i s
  simp only [Bind.bind]
  rw [looked]
  exact hf a

theorem look (hp : Looks p) (hf : ∀ a, Gives i c d (f a) R) : Gives i c d (p >>= f) R :=
  fun s start => look_at hp fun a => hf a s start

/-! ### Readers that fail -/

theorem fail : Gives i c d (Parser.fail : Parser α) Q := fun s _ => .refl s

theorem reportAt (code : ErrorCode) (message : String) (span : Span) :
    Steady i c d (Parser.reportAt code message span) := fun _ _ =>
  ⟨⟨rfl, id, fun h => h.push _, fun _ => rfl⟩, trivial⟩

theorem report (code : ErrorCode) (message : String) :
    Steady i c d (Parser.report code message) := look .here fun _ => reportAt _ _ _

theorem failAt (code : ErrorCode) (message : String) (span : Span) :
    Gives i c d (Parser.failAt code message span : Parser α) Q :=
  after (reportAt _ _ _) fun _ => fail

theorem failHere (code : ErrorCode) (message : String) :
    Gives i c d (Parser.failHere code message : Parser α) Q := after (report _ _) fun _ => fail

theorem unexpected (message : String → String) :
    Gives i c d (Parser.unexpected message : Parser α) Q :=
  look .peekKind fun _ => failHere _ _

theorem unsupported (what : String) (span : Span) :
    Gives i c d (Parser.unsupported what span : Parser α) Q := failAt _ _ _

/-- What stands behind a failure does not matter. -/
theorem failing (code : ErrorCode) (message : String) (span : Span) :
    Gives i c d ((Parser.failAt code message span : Parser α) >>= f) R :=
  bind (failAt (Q := fun _ => False) _ _ _) fun _ => False.elim

/-! ### Readers that take a token -/

theorem advance : Steady i c d Parser.advance := fun _ _ => ⟨⟨rfl, id, id, fun _ => rfl⟩, trivial⟩

theorem eat {x : Punct} : Steady i c d (Parser.eat x) :=
  look (.check _) fun _ => ite (fun _ => after advance fun _ => stay) fun _ => stay

theorem eatKeyword {w : Keyword} : Steady i c d (Parser.eatKeyword w) :=
  look (.checkKeyword _) fun _ => ite (fun _ => after advance fun _ => stay) fun _ => stay

theorem expectKind (matches' : TokenKind → Bool) (shown : String) (closer : Bool) :
    Steady i c d (Parser.expectKind matches' shown closer) :=
  look .peekKind fun _ => ite (fun _ => advance) fun _ => failHere _ _

theorem expect {x : Punct} : Steady i c d (Parser.expect x) := expectKind _ _ _

theorem expectKeyword {w : Keyword} : Steady i c d (Parser.expectKeyword w) := expectKind _ _ _

theorem expectWord {word : String} : Steady i c d (Parser.expectWord word) := expectKind _ _ _

theorem expectIdentifier : Steady i c d Parser.expectIdentifier := by
  refine look .peekKind fun kind => ?_
  split
  · exact after advance fun _ => stay
  · exact unexpected _

theorem expectPropertyName : Steady i c d Parser.expectPropertyName := by
  refine look .peekKind fun kind => ?_
  split
  · exact after advance fun _ => stay
  · exact unexpected _

theorem expectString : Steady i c d Parser.expectString := by
  refine look .peekKind fun kind => ?_
  split
  · exact after advance fun _ => stay
  · exact unexpected _

theorem semicolon : Steady i c d Parser.semicolon :=
  after eat fun _ => ite (fun _ => stay) fun _ => look .peek fun _ =>
    ite (fun _ => stay) fun _ => report _ _

theorem skipGroup : Steady i c d Parser.skipGroup := by
  intro s start
  unfold Parser.skipGroup
  rw [bind_look]
  cases h : i.matchingClose s.pos with
  | some close => exact ⟨⟨rfl, id, id, fun _ => rfl⟩, trivial⟩
  | none => exact look .peekKind (fun _ => failHere _ _) s start

/-! ### Nesting and speculation -/

theorem finally_at {change : State → State} (whole : (p i t).Gives c t Q)
    (restores : ∀ u, t.Restores c u → s.Restores c (change u)) :
    (Parser.finally' p change i t).Gives c s Q := by
  unfold Parser.finally'
  cases hr : p i t with
  | parsed a u =>
    rw [hr] at whole
    exact ⟨restores u whole.1, whole.2⟩
  | failed u =>
    rw [hr] at whole
    exact restores u whole
  | exhausted u => trivial

/-- One construct more is open inside, and there is room for it. -/
theorem nested (hp : d < nestingLimit → Gives i c (d + 1) p Q) :
    Gives i c d (Parser.nested p) Q := by
  rintro s rfl
  have looked : Parser.nested p i s = (if s.depth < nestingLimit then
      (Parser.update fun s => { s with depth := s.depth + 1 }) >>= fun _ =>
        Parser.finally' p fun s => { s with depth := s.depth - 1 }
      else Parser.failHere .nestingLimitExceeded s!"maximum nesting depth is {nestingLimit}") i s :=
    rfl
  rw [looked]
  by_cases room : s.depth < nestingLimit
  · rw [if_pos room]
    exact finally_at (hp room { s with depth := s.depth + 1 } rfl) fun u h =>
      ⟨by simp [h.depth], h.noIn, h.counted, h.defaultExport⟩
  · rw [if_neg room]
    exact failHere _ _ s rfl

theorem allowIn (hp : Gives i c d p Q) : Gives i c d (Parser.allowIn p) Q := fun s start =>
  finally_at (hp { s with noIn := false } start) fun _ h =>
    ⟨h.depth, id, h.counted, h.defaultExport⟩

theorem forbidIn (hp : Gives i c d p Q) : Gives i c d (Parser.forbidIn p) Q := fun s start =>
  finally_at (hp { s with noIn := true } start) fun _ h =>
    ⟨h.depth, fun _ => rfl, h.counted, h.defaultExport⟩

/-- An attempt, and what follows a result or a failure. -/
theorem attempt {f : Option α → Parser β} (hp : Gives i c d p Q)
    (parsed : ∀ a, Q a → Gives i c d (f (some a)) R) (failed : Gives i c d (f none) R) :
    Gives i c d (Parser.attempt p >>= f) R := by
  intro s start
  have first := hp s start
  simp only [Bind.bind, Parser.attempt]
  cases h : p i s with
  | parsed a t =>
    rw [h] at first
    exact (parsed a first.2 t (first.1.depth.trans start)).after first.1
  | failed t =>
    rw [h] at first
    exact (failed t (first.depth.trans start)).after first
  | exhausted t => trivial

theorem rewind (mark : Checkpoint) : Steady i c d (Parser.rewind mark) := fun _ _ =>
  ⟨⟨rfl, id, fun h => h.truncate _, fun _ => rfl⟩, trivial⟩

/-! ### Loops -/

/-- An invariant that every round keeps. -/
theorem loop {body : β → Parser (Round β γ)} {acc : β} (I : β → Prop) {T : γ → Prop} (start : I acc)
    (round : ∀ acc, I acc → Gives i c d (body acc) (Round.Gives I T)) :
    Gives i c d (Parser.loop acc body) T := by
  have rounds (fuel : Nat) : ∀ acc, I acc → Gives i c d (Parser.rounds body fuel acc) T := by
    induction fuel with
    | zero => exact fun _ _ _ _ => trivial
    | succ fuel ih =>
      intro acc start
      refine look (.look _) fun _ => bind (round acc start) fun r keeps => ?_
      cases r with
      | again acc' => exact look (.look _) fun _ => ite (fun _ => ih acc' keeps) fun _ _ _ => trivial
      | done result => exact pure keeps
  exact fun s => rounds _ acc start s

/-- A loop whose rounds restore the state. -/
theorem steadily {body : β → Parser (Round β γ)} {acc : β} (round : ∀ acc, Steady i c d (body acc)) :
    Steady i c d (Parser.loop acc body) :=
  loop (fun _ => True) trivial fun acc _ => (round acc).imp fun r _ => by cases r <;> trivial

theorem commaList {close : Punct} {item : Parser α} {n : Nat} {nodes : α → List SyntaxNode}
    (h : Gives i c d item fun a => AllLow n (nodes a)) :
    Gives i c d (Parser.commaList close item) fun xs => AllLow n (xs.flatMap nodes) := by
  refine loop (fun acc => AllLow n (acc.flatMap nodes)) .nil fun acc all => ?_
  refine look (.check _) fun _ => look .atEnd fun _ =>
    ite (fun _ => pure all.reverse_flatMap) fun _ => bind h fun x hx => ?_
  have more : AllLow n ((x :: acc).flatMap nodes) := hx.append all
  exact after eat fun _ => ite (fun _ => pure more) fun _ => pure more.reverse_flatMap

theorem commaListSteady {close : Punct} {item : Parser α} (h : Steady i c d item) :
    Steady i c d (Parser.commaList close item) :=
  (commaList (h.imp fun _ _ => .nil : Gives i c d item fun _ => AllLow 0 [])).steady

theorem synchronize : Steady i c d Parser.synchronize := by
  refine look (.look _) fun start => steadily fun _ => look .peek fun token => ?_
  refine look (.look _) fun moved => ite (fun _ => stay) fun _ =>
    ite (fun _ => ?_) fun _ => ite (fun _ => stay) fun _ => ?_
  · exact after advance fun _ => stay
  · exact after advance fun _ => stay

end Gives

/-! ## The nonterminals -/

/-- The height that is left for what is read with `d` constructs open. -/
def room (d : Nat) : Nat := 15 * (nestingLimit - d)

/-- One construct that is opened pays for a few steps. -/
theorem room_succ {d : Nat} (h : d < nestingLimit) : room (d + 1) + 15 = room d := by
  unfold room
  omega

/-- The nonterminals restore the state, and what they give is low. Without a brace among the tokens
there is no block, and hence no statement within an expression. -/
structure Grammar.KeepsLow (i : Input) (c : Prop) (g : Grammar) : Prop where
  noBlock : c → ∀ n, (i.kindAt n).isPunct .lBrace = false
  statement : ∀ {d}, Gives i False d g.statement fun s => (SyntaxNode.stmt s).Low (room d)
  assignment : ∀ {d}, Gives i c d g.assignment fun e => (SyntaxNode.expr e).Low (room d)
  binary : ∀ {d} least,
    Gives i c d (g.binary least) fun e => (SyntaxNode.expr e).Low (room d + 4 + (8 - least))
  unary : ∀ {d}, Gives i c d g.unary fun e => (SyntaxNode.expr e).Low (room d + 4) ∧
    (e.isTarget = true → (SyntaxNode.expr e).Low (room d + 3))
  newExpr : ∀ {d}, Gives i c d g.newExpr fun e => (SyntaxNode.expr e).Low (room d + 3)
  pattern : ∀ {d}, Gives i c d g.pattern fun p => AllLow (room d) p.nodes
  element : ∀ {d}, Gives i c d g.element fun e => (SyntaxNode.element e).Low (room d)
  type : ∀ {d}, Steady i c d g.type
  postfixType : ∀ {d}, Steady i c d g.postfixType
  primaryType : ∀ {d}, Steady i c d g.primaryType

theorem Gives.weaken (h : Gives i c d p Q) : Gives i False d p Q := by
  intro s start
  have whole := h s start
  have weaken {t : State} (h : s.Restores c t) : s.Restores False t :=
    ⟨h.depth, h.noIn, h.counted, False.elim⟩
  cases hr : p i s with
  | parsed a t =>
    rw [hr] at whole
    exact ⟨weaken whole.1, whole.2⟩
  | failed t =>
    rw [hr] at whole
    exact weaken whole
  | exhausted t => trivial

namespace Grammar.KeepsLow

variable {g : Grammar} (ready : g.KeepsLow i c)

include ready

theorem weaken : g.KeepsLow i False where
  noBlock := False.elim
  statement := ready.statement
  assignment := ready.assignment.weaken
  binary least := (ready.binary least).weaken
  unary := ready.unary.weaken
  newExpr := ready.newExpr.weaken
  pattern := ready.pattern.weaken
  element := ready.element.weaken
  type := ready.type.weaken
  postfixType := ready.postfixType.weaken
  primaryType := ready.primaryType.weaken

/-! ## Types -/

theorem typeArguments : Steady i c d g.typeArguments := by
  refine .after .expect fun _ => .after (.steadily fun _ => ?_) fun _ => .after .expect fun _ => .stay
  exact .after ready.type fun _ => .after .eat fun _ => .look (.check _) fun _ =>
    .ite (fun _ => .stay) fun _ => .stay

theorem typeParameters : Steady i c d g.typeParameters := by
  refine .after .expect fun _ => .after (.commaListSteady ?_) fun _ => .after .expect fun _ => .stay
  refine .look (.checkKeyword _) fun _ => .look (.checkWord _) fun _ =>
    .look (.checkKeyword _) fun _ => .look (.ahead _) fun _ => .when (fun _ => .advance)
    (.after .expectIdentifier fun _ => .after .eatKeyword fun _ => .when (fun _ => ready.type) ?_)
  exact .after .eat fun _ => .ite (fun _ => ready.type) fun _ => .stay

theorem typeParametersIfAny : Steady i c d g.typeParametersIfAny :=
  .look (.check _) fun _ => .ite (fun _ => ready.typeParameters) fun _ => .stay

theorem annotation : Steady i c d g.annotation :=
  .after .eat fun _ => .ite (fun _ => ready.type) fun _ => .stay

theorem typePredicate : Steady i c d g.typePredicate :=
  .look .peek fun _ => .ite (fun _ => .after .advance fun _ => ready.type) fun _ => .stay

theorem qualifiedRest : Steady i c d g.qualifiedRest := by
  refine .after (.steadily fun _ => ?_) fun _ => .look (.check _) fun _ =>
    .ite (fun _ => ready.typeArguments) fun _ => .stay
  exact .after .eat fun _ => .ite (fun _ => .after .expectPropertyName fun _ => .stay)
    fun _ => .stay

theorem functionType : Steady i c d g.functionType :=
  .look (.check _) fun _ => .when (fun _ => .expect)
    (.after .skipGroup fun _ => .after .expect fun _ => ready.type)

theorem namedType (word : String) : Steady i c d (g.namedType word) := by
  refine .look (.ahead _) fun _ => .after .advance fun _ => ?_
  refine .ite (fun _ => ready.postfixType) fun _ => .ite (fun _ => ?_) fun _ =>
    .ite (fun _ => ?_) fun _ => .ite (fun _ => ready.primaryType) fun _ => ?_
  · exact .after .advance fun _ => .stay
  · exact .after .advance fun _ => ready.typePredicate
  · exact .after ready.qualifiedRest fun _ => ready.typePredicate

theorem parenthesizedType : Steady i c d g.parenthesizedType :=
  .look (.afterGroup _) fun _ => .ite (fun _ => ready.functionType) fun _ =>
    .after .advance fun _ => .after ready.type fun _ => .after .expect fun _ => .stay

theorem templateType : Steady i c d g.templateType := by
  refine .steadily fun _ => .after ready.type fun _ => .look .peekKind fun kind => ?_
  split
  · exact .after .advance fun _ => .stay
  · exact .after .advance fun _ => .stay
  · exact .unexpected _

theorem primaryTypeBody : Steady i c d g.primaryTypeBody := by
  have invalid : Steady i c d primaryTypeBody.invalid := .unexpected _
  have taken : Steady i c d (do
      let _ ← Parser.advance) := .after .advance fun _ => .stay
  refine .look .peekKind fun kind => ?_
  split
  case h_1 => exact ready.namedType _
  case h_2 | h_3 | h_4 => exact taken
  case h_5 => exact .after .advance fun _ => ready.templateType
  case h_6 =>
    refine .ite (fun _ => ?_) fun _ => .ite (fun _ => ?_) fun _ => .ite (fun _ => taken)
      fun _ => invalid
    · exact .after .advance fun _ => .after .expectPropertyName fun _ => ready.qualifiedRest
    · exact .after .advance fun _ => .after ready.typeParametersIfAny fun _ => ready.functionType
  case h_7 =>
    refine .look (.ahead _) fun next => ?_
    split
    · exact .after .advance fun _ => taken
    · exact invalid
  case h_8 | h_9 => exact .skipGroup
  case h_10 => exact ready.parenthesizedType
  case h_11 => exact .after ready.typeParameters fun _ => ready.functionType
  case h_12 => exact invalid

theorem postfixTypeBody : Steady i c d g.postfixTypeBody := by
  refine .after ready.primaryType fun _ => .steadily fun _ => .look .peek fun _ =>
    .ite (fun _ => ?_) fun _ => .stay
  refine .after .advance fun _ => .after .eat fun _ => .ite (fun _ => ?_) fun _ => .stay
  exact .after ready.type fun _ => .after .expect fun _ => .stay

theorem unionType : Steady i c d g.unionType := by
  refine .look .peekKind fun _ => .when (fun _ => .advance)
    (.after ready.postfixType fun _ => .steadily fun _ => .look .peekKind fun _ => ?_)
  exact .ite (fun _ => .after .advance fun _ => .after ready.postfixType fun _ => .stay)
    fun _ => .stay

theorem typeBody : Steady i c d g.typeBody := by
  refine .nested fun _ => .after ready.unionType fun _ => .look .peek fun _ =>
    .ite (fun _ => ?_) fun _ => .stay
  exact .after .advance fun _ => .after ready.unionType fun _ => .after .expect fun _ =>
    .after ready.type fun _ => .after .expect fun _ => ready.type

omit ready in
theorem ambientRest : Steady i c d Grammar.ambientRest := by
  refine .steadily fun first => .look .peek fun _ => .ite (fun _ => .stay) fun _ =>
    .ite (fun _ => ?_) fun _ => .ite (fun _ => ?_) fun _ => ?_
  · exact .after .skipGroup fun _ => .stay
  · exact .after .skipGroup fun _ => .stay
  · exact .after .advance fun _ => .ite (fun _ => .stay) fun _ => .stay

theorem typeDeclaration : Steady i c d g.typeDeclaration := by
  refine .after .advance fun _ => .ite (fun _ => ?_) fun _ => .ite (fun _ => ?_)
    fun _ => ambientRest
  · exact .after .expectIdentifier fun _ => .after ready.typeParametersIfAny fun _ =>
      .after .expect fun _ => .after ready.type fun _ => .semicolon
  · have body : Steady i c d (do
        if !(← Parser.check .lBrace) then
          let _ ← Parser.expect .lBrace
        skipGroup) :=
      .look (.check _) fun _ => .when (fun _ => .expect) .skipGroup
    refine .after .expectIdentifier fun _ => .after ready.typeParametersIfAny fun _ =>
      .after .eatKeyword fun _ => .when (fun _ => .steadily fun _ => ?_) body
    exact .after ready.type fun _ => .after .eat fun _ => .ite (fun _ => .stay) fun _ => .stay

end Grammar.KeepsLow

end Parser

end TsxPreview
