import TsxPreview.Proofs.Syntax.Progress.Functions

/-!
The readers of elements and of expressions go on. The chains of operands, of calls and of members
take a token in every round but the last; a guess that fails takes back what it read.
-/

namespace TsxPreview.Parser

namespace Grammar.Proceeds

variable {i : Input} {m : Nat} {P : TokenKind → Prop} {g : Grammar}

theorem dottedName (closed : i.Closed) (first : Ident) :
    Runs i m P (Grammar.dottedName first) None :=
  .loop (fun (_, _) => .eat closed (.bind (.expectIdentifier closed) fun _ => .pure _) (.done _)) _

theorem elementName {Q : JsxName × String → Prop} (closed : i.Closed) :
    Runs i m P Grammar.elementName Q := by
  refine .first (.expectIdentifier closed) fun first => .eat closed ?_ ?_
  · exact .bind (.expectIdentifier closed) fun _ => .pure _
  · exact .look (.check _) fun _ => .ite (fun _ => dottedName closed first) fun _ =>
      .ite (fun _ => .pure _) fun _ => .pure _

theorem container (ready : g.Proceeds i m) : Runs i m P g.container None :=
  .bind (.allowIn (expression ready.closed ready.assignment)) fun _ =>
    .bind (.expect ready.closed) fun _ => .pure _

theorem attributeValue (ready : g.Proceeds i m) : Runs i m P g.attributeValue None := by
  refine .peekKind fun k _ => ?_
  split
  · exact .bind .advanceAny fun _ => .pure _
  · refine .bind .advanceAny fun _ => .look (.check _) fun _ => .ite (fun _ => ?_) fun _ => ?_
    · exact .look .here fun _ => .failAt _ _ _
    · exact .bind ready.container fun _ => .pure _
  · exact .bind ready.element fun _ => .pure _
  · exact .unexpected _

section

variable (ready : g.Proceeds i (m + 1))

include ready

theorem namedAttribute {Q : JsxAttr → Prop} : Runs i m P g.namedAttribute Q := by
  have closed := ready.closed
  have value (name : String) (start : Span) : Runs i (m + 1) Any (do
      let value ← if ← Parser.eat .eq then some <$> g.attributeValue else Pure.pure none
      return JsxAttr.named name value (← Parser.spanFrom start)) None := by
    refine .eat closed ?_ ?_
    · exact .bind (.map ready.next.attributeValue) fun _ => .look (.spanFrom _) fun _ => .pure _
    · exact .bind (.pure _) fun _ => .look (.spanFrom _) fun _ => .pure _
  refine .first (.expectIdentifier closed) fun first => .eat closed ?_ ?_
  · exact .bind (.expectIdentifier closed) fun _ => .bind (.pure _) fun _ =>
      (value _ _).mono (Nat.le_succ _)
  · exact .bind (.pure _) fun _ => value _ _

theorem attributes : Runs i m P g.attributes None := by
  have closed := ready.closed
  refine .loop (fun _ => .peekKind fun k _ => ?_) []
  split
  · refine .take closed (by simp) fun _ => .eat closed ?_ (.failAt _ _ _)
    exact .bind ready.next.container fun _ => .pure _
  · exact .first ready.namedAttribute fun _ => .pure _
  · exact .done _
  · exact .done _
  · exact .failHere _ _
  · exact .unexpected _

theorem children (start : Span) (name : String) (element : ∀ {P Q}, Runs i m P g.element Q) :
    Runs i m P (g.children start name) None := by
  have closed := ready.closed
  refine .loop (fun _ => .peekKind fun k _ => ?_) []
  split
  · exact .take closed (by simp) fun _ => .pure _
  · refine .take closed (by simp) fun _ => .eat closed (.pure _) (.bind .eatAny fun _ => ?_)
    exact .bind ready.container fun _ => .pure _
  · exact .first element fun _ => .pure _
  · exact .take closed (by simp) fun _ => .pure _
  · exact .failAt _ _ _
  · exact .unexpected _

theorem elementBody {Q : JsxElement → Prop} : Runs i m P g.elementBody Q := by
  have closed := ready.closed
  refine .nested (.first (.expect closed) fun token => .eat closed ?_ ?_)
  · exact .bind (ready.next.next.children _ _ ready.next.element) fun _ =>
      .bind (.expect closed) fun _ => .look (.spanFrom _) fun _ => .pure _
  · refine .bind (elementName closed) fun (_, text) => .bind ready.next.attributes fun _ => ?_
    refine .eat closed (.look (.spanFrom _) fun _ => .pure _) (.bind (.expect closed) fun _ => ?_)
    refine .bind (ready.next.children _ _ ready.element) fun _ => .look .here fun _ => ?_
    refine .bind (elementName closed) fun (_, closing) => .ite (fun _ => ?_) fun _ => ?_
    · exact .look (.spanFrom _) fun _ => .failing _ _ _
    · exact .bind (.expect closed) fun _ => .look (.spanFrom _) fun _ => .pure _

end

end Grammar.Proceeds

namespace Grammar

variable {i : Input} {m : Nat} {g : Grammar}

/-! ## Every reader of elements -/

/-- From the position `m` on every reader of elements, attributes and children proceeds. -/
structure MarkupReaders (i : Input) (m : Nat) (g : Grammar) : Prop where
  dottedName : ∀ first, Goes i m (Grammar.dottedName first)
  elementName : Takes i m Grammar.elementName
  container : Goes i m g.container
  attributeValue : Goes i m g.attributeValue
  namedAttribute : Takes i m g.namedAttribute
  attributes : Goes i m g.attributes
  children : ∀ start name, Goes i m (g.children start name)
  elementBody : Takes i m g.elementBody

theorem Proceeds.markupReaders (ready : g.Proceeds i m) : g.MarkupReaders i m where
  dottedName first := dottedName ready.closed first
  elementName := elementName ready.closed
  container := ready.container
  attributeValue := ready.attributeValue
  namedAttribute := ready.next.namedAttribute
  attributes := ready.next.attributes
  children start name := ready.next.children start name ready.element
  elementBody := ready.next.elementBody

end Grammar

/-! ## Guesses -/

theorem Looks.arrowShape : Looks arrowShape := by
  refine .bind .peekKind fun k => ?_
  split
  · refine .bind (.ahead _) fun next => .bind (.newlineAhead _) fun newline => ?_
    have rest (startsAsync : Bool) : Looks (if startsAsync then Pure.pure ArrowShape.async
        else if next.isPunct .arrow && !newline then Pure.pure .simple else Pure.pure .none) :=
      .ite (.pure _) (.ite (.pure _) (.pure _))
    refine .ite (.bind (.pure _) rest) (.ite (.bind (.pure _) rest) (.ite ?_ (.ite ?_ ?_)))
    · exact .bind (.ahead _) fun _ => .bind (.pure _) rest
    · exact .bind (.afterGroup _) fun _ => .bind (.pure _) rest
    · exact .bind (.pure _) rest
  · refine .bind (.afterGroup _) fun after => ?_
    split
    · exact .pure _
    · exact .pure _
    · exact .pure _
  · exact .pure _

theorem Looks.startsAwait : Looks Grammar.startsAwait :=
  .bind (.ahead _) fun _ => .bind (.checkWord _) fun _ => .bind (.newlineAhead _) fun _ => .pure _

namespace Grammar.Proceeds

variable {i : Input} {m : Nat} {P : TokenKind → Prop} {g : Grammar}

/-! ### Literals -/

theorem templateParts (ready : g.Proceeds i m) (head : String) :
    Runs i m P (g.templateParts head) None := by
  refine .loop (fun (_, _) => .first (expression ready.closed ready.assignment) fun _ => ?_) _
  refine .peekKind fun k _ => ?_
  split
  · exact .bind .advanceAny fun _ => .pure _
  · exact .bind .advanceAny fun _ => .pure _
  · exact .unexpected _

section

variable (ready : g.Proceeds i (m + 1))

include ready

theorem template {Q : Expr → Prop} (head : String) (live : ∀ k, P k → k ≠ .eof) :
    Runs i m P (g.template head) Q :=
  .take ready.closed live fun _ => .bind (.allowIn (ready.templateParts head)) fun (_, _) =>
    .look (.spanFrom _) fun _ => .pure _

end

theorem item (ready : g.Proceeds i m) : Runs i m P g.item None :=
  .eat ready.closed (.bind ready.next.assignment fun _ => .pure _)
    (.bind ready.assignment fun _ => .pure _)

theorem arrayItems (ready : g.Proceeds i m) : Runs i m P g.arrayItems None := by
  have closed := ready.closed
  refine .loop (fun _ => .look (.check _) fun _ => .look .atEnd fun _ => ?_) []
  refine .ite (fun _ => .done _) fun _ => .eat closed (.pure _) ?_
  exact .bind ready.item fun _ => .eat closed (.pure _) (.done _)

section

variable (ready : g.Proceeds i (m + 1))

include ready

theorem arrayLiteral {Q : Expr → Prop} : Runs i m P g.arrayLiteral Q :=
  .first (.expect ready.closed) fun _ => .bind (.allowIn ready.arrayItems) fun _ =>
    .bind (.expect ready.closed) fun _ => .pure _

theorem arguments {Q : List Item → Prop} : Runs i m P g.arguments Q :=
  .first (.expect ready.closed) fun _ =>
    .bind (.allowIn (.commaList ready.closed ready.item)) fun _ =>
    .bind (.expect ready.closed) fun _ => .pure _

theorem propertyKey {Q : Key → Prop} : Runs i m P g.propertyKey Q := by
  have closed := ready.closed
  refine .peekKind fun k _ => ?_
  split
  · exact .take closed (by simp) fun _ => .pure _
  · exact .take closed (by simp) fun _ => .pure _
  · exact ready.computedKey (by simp)
  · exact .first (.expectPropertyName closed) fun _ => .pure _

theorem propertyValue (key : Key) (alone : Option Ident) (start : Span) :
    Runs i m P (g.propertyValue key alone start) None := by
  have closed := ready.closed
  refine .peekKind fun k _ => ?_
  split
  · exact .take closed (by simp) fun _ => .bind ready.assignment fun _ => .pure _
  · exact .first (ready.functionRest _ _) fun _ => .pure _
  · exact .first (ready.functionRest _ _) fun _ => .pure _
  · cases alone with
    | some id => exact .pure _
    | none => exact .unexpected _

theorem property : Runs i m P g.property None := by
  refine .look .here fun start => .eat ready.closed (.bind ready.assignment fun _ => .pure _) ?_
  refine .peekKind fun k _ => .look (.ahead _) fun _ => .ite (fun _ => .failing _ _ _) fun _ => ?_
  refine .ite (fun _ => .failing _ _ _) fun _ => ?_
  exact .first ready.propertyKey fun key => ready.next.propertyValue key _ start

theorem objectLiteral {Q : Expr → Prop} : Runs i m P g.objectLiteral Q :=
  .first (.expect ready.closed) fun _ =>
    .bind (.allowIn (.commaList ready.closed ready.next.property)) fun _ =>
    .bind (.expect ready.closed) fun _ => .pure _

/-! ### Primary expressions -/

theorem keywordPrimary {Q : Expr → Prop} (k : Keyword) (start : Span) (live : ∀ k, P k → k ≠ .eof) :
    Runs i m P (g.keywordPrimary k start) Q := by
  have closed := ready.closed
  unfold Grammar.keywordPrimary
  split
  · exact .take closed live fun _ => .pure _
  · exact .take closed live fun _ => .pure _
  · exact .take closed live fun _ => .pure _
  · exact .first ready.functionExpr fun _ => .pure _
  · split
    · exact .unsupported _ _
    · exact .unexpected _

theorem parenthesized {Q : Expr → Prop} (live : ∀ k, P k → k ≠ .eof) :
    Runs i m P g.parenthesized Q :=
  .take ready.closed live fun _ =>
    .bind (.allowIn (expression ready.closed ready.assignment)) fun _ =>
    .bind (.expect ready.closed) fun _ => .pure _

theorem primary {Q : Expr → Prop} (element : ∀ {P Q}, Runs i m P g.element Q) :
    Runs i m P g.primary Q := by
  have closed := ready.closed
  refine .look .here fun start => .peekKind fun k _ => ?_
  split
  · exact .take closed (by simp) fun _ => .pure _
  · exact .take closed (by simp) fun _ => .pure _
  · exact .take closed (by simp) fun _ => .pure _
  · exact ready.template _ (by simp)
  · exact .take closed (by simp) fun _ => .pure _
  · exact ready.keywordPrimary _ _ (by simp)
  · exact ready.parenthesized (by simp)
  · exact ready.arrayLiteral
  · exact ready.objectLiteral
  · exact .first element fun _ => .pure _
  · exact .unsupported _ _
  · exact .unsupported _ _
  · exact .failHere _ _
  · exact .unexpected _

/-! ### Calls and members -/

omit ready in
theorem namedMember {Q : Expr → Prop} (closed : i.Closed) (object : Expr) (optional : Bool) :
    Runs i m P (namedMember object optional) Q :=
  .first (.expectPropertyName closed) fun _ => .pure _

omit ready in
theorem indexedMember {Q : Expr → Prop} (closed : i.Closed) (object : Expr) (optional : Bool)
    {inner : Parser Expr} (h : Runs i (m + 1) Any inner None) (live : ∀ k, P k → k ≠ .eof) :
    Runs i m P (indexedMember object optional inner) Q :=
  .take closed live fun _ => .bind h fun _ => .bind (.expect closed) fun _ => .pure _

theorem callOf {Q : Expr → Prop} (callee : Expr) (optional : Bool) :
    Runs i m P (g.callOf callee optional) Q :=
  .first ready.arguments fun _ => .look .previous fun _ => .pure _

theorem optionalMember {Q : Expr → Prop} (object : Expr) (live : ∀ k, P k → k ≠ .eof) :
    Runs i m P (g.optionalMember object) Q := by
  have closed := ready.closed
  refine .take closed live fun _ => .peekKind fun k _ => ?_
  split
  · exact ready.next.callOf _ _
  · exact indexedMember closed _ _ (expression closed ready.next.assignment) (by simp)
  · exact namedMember closed _ _

/-- Type arguments that no call follows are taken back. -/
theorem typeArgumentsOfCall : Runs i m P g.typeArgumentsOfCall (· = true) := by
  refine .checkpoint fun s start inside here c back => ?_
  have takenBack (t : State) (reaches : s.Reaches i t) :
      ((Parser.rewind c >>= fun _ => Pure.pure false) i t).Proceeds i s (· = true) :=
    Runs.rewind ⟨.refl inside, by simp⟩ reaches back inside
  refine Runs.attempt_at (ready.typeArguments s start inside here) (fun _ t reaches moved => ?_)
    fun t reaches => ?_
  · refine Runs.look_at (.failedSince c) fun _ => Runs.look_at (.check _) fun _ => ?_
    split
    · exact ⟨reaches, fun _ => moved⟩
    · exact takenBack t reaches
  · exact Runs.look_at (.failedSince c) fun _ => Runs.look_at (.check _) fun _ =>
      takenBack t reaches

theorem newBody {Q : Expr → Prop} (live : ∀ k, P k → k ≠ .eof) : Runs i m P g.newBody Q := by
  have closed := ready.closed
  have finish (start : Span) (callee : Expr) : Runs i (m + 1) Any (do
      let args ← if ← Parser.check .lParen then g.arguments else Pure.pure []
      return Expr.new (← Parser.spanFrom start) callee args) None := by
    refine .look (.check _) fun _ => .ite (fun _ => ?_) fun _ => ?_
    · exact .bind ready.next.arguments fun _ => .look (.spanFrom _) fun _ => .pure _
    · exact .bind (.pure _) fun _ => .look (.spanFrom _) fun _ => .pure _
  refine .take closed live fun token => .look (.check _) fun _ =>
    .ite (fun _ => .failing _ _ _) fun _ => .byKeyword (ready.newExpr fun k h => k.ne_eof h.2)
      (ready.next.primary ready.element) fun first => ?_
  refine .bind (.loop (fun expr => .peekKind fun k _ => ?_) first) fun callee =>
    .look (.check _) fun _ => .when (fun _ => ready.next.next.typeArguments) ?_
  · split
    · exact .take closed (by simp) fun _ => .bind (namedMember closed _ _) fun _ => .pure _
    · refine .first (indexedMember closed _ _ ?_ (by simp)) fun _ => .pure _
      exact expression closed ready.next.next.assignment
    · exact .done _
  · exact (finish _ _).mono (Nat.le_succ _)

section

variable (element : ∀ {P Q}, Runs i m P g.element Q)
  (newExpr : ∀ {P Q}, (∀ k, P k → k ≠ .eof) → Runs i m P g.newExpr Q)

include element newExpr

theorem callOrMember {Q : Expr → Prop} : Runs i m P g.callOrMember Q := by
  have closed := ready.closed
  refine .byKeyword (newExpr fun k h => k.ne_eof h.2) (ready.primary element) fun first =>
    .loop (fun expr => .peek fun token _ => ?_) first
  split
  case h_1 h =>
    refine .take closed (fun k same => ?_) fun _ => .bind (namedMember closed _ _) fun _ => .pure _
    simp [same, h]
  case h_2 h =>
    refine .first (ready.next.optionalMember _ fun k same => ?_) fun _ => .pure _
    simp [same, h]
  case h_3 h =>
    refine .first (indexedMember closed _ _ ?_ fun k same => ?_) fun _ => .pure _
    · exact .allowIn (expression closed ready.next.assignment)
    · simp [same, h]
  case h_4 => exact .first (ready.next.callOf _ _) fun _ => .pure _
  case h_5 => exact .taking ready.next.typeArgumentsOfCall (.pure _) (.done _)
  case h_6 h =>
    refine .ite (fun _ => .done _) fun _ => .take closed (fun k same => ?_) fun _ => .pure _
    simp [same, h]
  case h_7 | h_8 => exact .ite (fun _ => .done _) fun _ => .unsupported _ _
  case h_9 => exact .done _

/-! ### Operators -/

omit ready element newExpr in
theorem updateOf (op : UpdateOp) (before : Bool) (target : Expr) (start : Span) :
    Runs i m P (updateOf op before target start) None :=
  .ite (fun _ => .look (.spanFrom _) fun _ => .pure _) fun _ => .failAt _ _ _

theorem postfixed {Q : Expr → Prop} : Runs i m P g.postfixed Q := by
  refine .first (ready.callOrMember element newExpr) fun expr => .peek fun token _ => ?_
  split
  · exact .ite (fun _ => .pure _) fun _ => .bind .advanceAny fun _ => updateOf _ _ _ _
  · exact .pure _

theorem unaryBody {Q : Expr → Prop} : Runs i m P g.unaryBody Q := by
  have closed := ready.closed
  refine .look .here fun start => .peekKind fun k _ => ?_
  split
  case h_1 op found =>
    refine .take closed (fun k' same => ?_) fun _ => .bind (.nested ready.unary) fun _ => .pure _
    subst same
    rintro rfl
    cases found
  case h_2 =>
    split
    case h_1 op found =>
      refine .take closed (fun k' same => ?_) fun _ => .bind ready.unary fun _ => updateOf _ _ _ _
      subst same
      rintro rfl
      cases found
    case h_2 =>
      exact .ite (fun _ => .failing _ _ _) fun _ => .look .startsAwait fun _ =>
        .ite (fun _ => .failing _ _ _) fun _ => ready.postfixed element newExpr

end

theorem cast {Q : Unit → Prop} (live : ∀ k, P k → k ≠ .eof) : Runs i m P g.cast Q :=
  .take ready.closed live fun _ => .eatKeyword ready.closed (.pure _) ready.type

theorem binaryBody {Q : Expr → Prop} (least : Nat) (unary : ∀ {P Q}, Runs i m P g.unary Q) :
    Runs i m P (g.binaryBody least) Q := by
  have closed := ready.closed
  refine .first unary fun first => .loop (fun left => .peek fun token _ => ?_) first
  refine .ite (fun isCast => ?_) fun _ => .ite (fun _ => .failing _ _ _) fun _ => ?_
  · refine .first (ready.next.cast fun k same => ?_) fun _ => .look (.spanFrom _) fun _ => .pure _
    rintro rfl
    simp [← same, TokenKind.isWord] at isCast
  · split
    case h_1 => exact .done _
    case h_2 prec op found =>
      refine .look (.look _) fun noIn => .ite (fun _ => .done _) fun _ => ?_
      refine .take closed (fun k same => ?_) fun _ => .bind (ready.next.binary _) fun _ => .pure _
      rintro rfl
      simp [← same, infixOp?] at found

section

variable (binary : ∀ {P Q} least, Runs i m P (g.binary least) Q)

include binary

theorem conditional {Q : Expr → Prop} : Runs i m P g.conditional Q := by
  have closed := ready.closed
  refine .first (binary 0) fun test => .eat closed ?_ (.pure _)
  exact .bind (.allowIn ready.next.assignment) fun _ => .bind (.expect closed) fun _ =>
    .bind ready.next.assignment fun _ => .pure _

theorem plainAssignment {Q : Expr → Prop} : Runs i m P g.plainAssignment Q := by
  refine .first (ready.conditional binary) fun target => .peekKind fun k _ => ?_
  split
  · exact .pure _
  · refine .ite (fun _ => .failing _ _ _) fun _ => ?_
    exact .bind .advanceAny fun _ => .bind ready.assignment fun _ => .pure _

/-- A group that is not read as parameters is read again as an expression. -/
theorem assignmentBody {Q : Expr → Prop} : Runs i m P g.assignmentBody Q := by
  refine .nested (.look .arrowShape fun shape => ?_)
  cases shape with
  | simple => exact .first ready.simpleArrow fun _ => .pure _
  | group => exact .first ready.arrow fun _ => .pure _
  | ambiguous =>
    refine .checkpoint fun s start inside here c back => ?_
    have again (t : State) (reaches : s.Reaches i t) :
        ((Parser.rewind c >>= fun _ => g.plainAssignment) i t).Proceeds i s Q :=
      Runs.rewind (ready.plainAssignment binary _ start inside here) reaches back inside
    refine Runs.attempt_at (ready.arrow s start inside here) (fun fn t reaches moved => ?_) again
    refine Runs.look_at (.failedSince c) fun _ => ?_
    split
    · exact again t reaches
    · exact ⟨reaches, fun _ => moved⟩
  | async => exact .look .here fun _ => .unsupported _ _
  | none => exact ready.plainAssignment binary

end

end

end Grammar.Proceeds

namespace Grammar

variable {i : Input} {m : Nat} {g : Grammar}

/-! ## Every reader of expressions -/

/-- From the position `m` on every reader of expressions proceeds. -/
structure ExpressionReaders (i : Input) (m : Nat) (g : Grammar) : Prop where
  templateParts : ∀ head, Goes i m (g.templateParts head)
  template : ∀ head, TakesSeen i m (g.template head)
  item : Goes i m g.item
  arrayItems : Goes i m g.arrayItems
  arrayLiteral : Takes i m g.arrayLiteral
  arguments : Takes i m g.arguments
  propertyKey : Takes i m g.propertyKey
  propertyValue : ∀ key alone start, Goes i m (g.propertyValue key alone start)
  property : Goes i m g.property
  objectLiteral : Takes i m g.objectLiteral
  keywordPrimary : ∀ k start, TakesSeen i m (g.keywordPrimary k start)
  parenthesized : TakesSeen i m g.parenthesized
  primary : Takes i m g.primary
  namedMember : ∀ object optional, Takes i m (Grammar.namedMember object optional)
  indexedMember : ∀ object optional inner, Goes i m inner →
    TakesSeen i m (Grammar.indexedMember object optional inner)
  callOf : ∀ callee optional, Takes i m (g.callOf callee optional)
  optionalMember : ∀ object, TakesSeen i m (g.optionalMember object)
  typeArgumentsOfCall : Runs i m Any g.typeArgumentsOfCall (· = true)
  callOrMember : Takes i m g.callOrMember
  newBody : TakesSeen i m g.newBody
  updateOf : ∀ op before target start, Goes i m (Grammar.updateOf op before target start)
  postfixed : Takes i m g.postfixed
  unaryBody : Takes i m g.unaryBody
  cast : TakesSeen i m g.cast
  binaryBody : ∀ least, Takes i m (g.binaryBody least)
  conditional : Takes i m g.conditional
  plainAssignment : Takes i m g.plainAssignment
  assignmentBody : Takes i m g.assignmentBody

theorem Proceeds.expressionReaders (ready : g.Proceeds i m) : g.ExpressionReaders i m where
  templateParts head := ready.templateParts head
  template head := ready.next.template head fun _ => id
  item := ready.item
  arrayItems := ready.arrayItems
  arrayLiteral := ready.next.arrayLiteral
  arguments := ready.next.arguments
  propertyKey := ready.next.propertyKey
  propertyValue key alone start := ready.next.propertyValue key alone start
  property := ready.next.property
  objectLiteral := ready.next.objectLiteral
  keywordPrimary k start := ready.next.keywordPrimary k start fun _ => id
  parenthesized := ready.next.parenthesized fun _ => id
  primary := ready.next.primary ready.element
  namedMember object optional := namedMember ready.closed object optional
  indexedMember object optional _ inner :=
    indexedMember ready.closed object optional (inner.mono (Nat.le_succ m)) fun _ => id
  callOf callee optional := ready.next.callOf callee optional
  optionalMember object := ready.next.optionalMember object fun _ => id
  typeArgumentsOfCall := ready.next.typeArgumentsOfCall
  callOrMember := ready.next.callOrMember ready.element ready.newExpr
  newBody := ready.next.newBody fun _ => id
  updateOf op before target start := updateOf op before target start
  postfixed := ready.next.postfixed ready.element ready.newExpr
  unaryBody := ready.next.unaryBody ready.element ready.newExpr
  cast := ready.next.cast fun _ => id
  binaryBody least := ready.next.binaryBody least ready.unary
  conditional := ready.next.conditional ready.binary
  plainAssignment := ready.next.plainAssignment ready.binary
  assignmentBody := ready.next.assignmentBody ready.binary

end Grammar

end TsxPreview.Parser
