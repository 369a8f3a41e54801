import TsxPreview.Proofs.Syntax.Height.Readers
import TsxPreview.Proofs.Syntax.Progress.Expressions

/-!
The readers of patterns, functions, elements and expressions restore the state, and what they give
is low: a few steps higher at most than what is read with one construct more open.
-/

namespace TsxPreview.Parser

open SyntaxNode Pattern

namespace Grammar.KeepsLow

variable {i : Input} {c : Prop} {d : Nat} {g : Grammar} (ready : g.KeepsLow i c)

include ready

/-! ## Lists of statements, patterns and functions -/

theorem expression : Gives i c d g.expression fun e => (SyntaxNode.expr e).Low (room d + 1) := by
  refine .bind ready.assignment fun first hf => .look (.check _) fun _ =>
    .ite (fun _ => .pure (hf.mono (Nat.le_succ _))) fun _ => ?_
  refine .bind (.loop (fun acc => AllLow (room d) (acc.map .expr)) (.one hf) ?_)
    (Q := fun exprs => AllLow (room d) (exprs.map .expr)) ?_
  · refine fun acc all => .after .eat fun _ => .ite (fun _ => ?_) fun _ => .pure all.reverse_map
    exact .bind ready.assignment fun e he => .pure (AllLow.cons he all)
  · exact fun exprs all => .look (.spanFrom _) fun _ => .pure (.of_children all)

theorem statementsUntil (stop : TokenKind → Bool) :
    Gives i False d (g.statementsUntil stop) fun stmts => AllLow (room d) (stmts.map .stmt) := by
  refine .loop (fun acc => AllLow (room d) (acc.map .stmt)) .nil fun acc all => ?_
  refine .look .peekKind fun _ => .look .tooManyErrors fun _ =>
    .ite (fun _ => .pure all.reverse_map) fun _ => .attempt ready.statement ?_ ?_
  · exact fun s hs => .pure (AllLow.cons hs all)
  · exact .after .synchronize fun _ => .pure all

/-- Without a brace there is no block. -/
theorem behindBrace {β : Type} {q : Parser β} {R : β → Prop} (hq : Gives i False d q R) :
    Gives i c d (Parser.expect .lBrace >>= fun _ => q) R := by
  by_cases braceless : c
  · refine .bind (Q := fun _ => False) (fun s start => ?_) fun _ => False.elim
    have steady := Gives.expect (i := i) (c := c) (x := .lBrace) s start
    obtain ⟨t, failed⟩ := Fails.expect (s := s) (ready.noBlock braceless s.pos)
    rw [show Parser.expect .lBrace i s = .failed t from failed] at steady ⊢
    exact steady
  · intro s start
    have whole := Gives.after (p := Parser.expect .lBrace) .expect (fun _ => hq) s start
    have strengthen {t : State} (h : s.Restores False t) : s.Restores c t :=
      ⟨h.depth, h.noIn, h.counted, fun hc => absurd hc braceless⟩
    revert whole
    cases (Parser.expect .lBrace >>= fun _ => q) i s with
    | parsed a t => exact fun whole => ⟨strengthen whole.1, whole.2⟩
    | failed t => exact strengthen
    | exhausted t => exact id

theorem block : Gives i c d g.block fun stmts => AllLow (room d) (stmts.map .stmt) :=
  ready.behindBrace (.bind (ready.statementsUntil _) fun _ all => .after .expect fun _ => .pure all)

theorem fallback : Gives i c d g.fallback fun e => AllLow (room d) (e.toList.map .expr) :=
  .after .eat fun _ => .ite (fun _ => .bind ready.assignment fun _ he => .pure (.one he))
    fun _ => .pure .nil

theorem computedKey : Gives i c d g.computedKey fun key => AllLow (room d) key.nodes :=
  .after .advance fun _ => .bind ready.assignment fun _ he => .after .expect fun _ => .pure (.one he)

omit ready in
/-- A name has no parts. -/
theorem name {n : Nat} (id : Ident) : (SyntaxNode.ident id).Low n := .leaf rfl

theorem patternKey : Gives i c d g.patternKey fun p => AllLow (room d) p.1.nodes := by
  refine .look .peekKind fun kind => ?_
  split
  · exact .after .advance fun _ => .pure .nil
  · exact .after .advance fun _ => .pure .nil
  · exact .after .advance fun _ => .pure .nil
  · exact .bind ready.computedKey fun _ hk => .pure hk
  · exact .after .expectPropertyName fun _ => .pure .nil

theorem patternProperty : Gives i c d g.patternProperty fun p => AllLow (room d) (memberNodes p) := by
  refine .bind ready.patternKey ?_
  rintro ⟨key, alone⟩ hk
  have rest (pattern : Pattern) (hp : AllLow (room d) pattern.nodes) :
      Gives i c d (do return PatternProperty.mk key (.mk pattern (← g.fallback))) fun p =>
        AllLow (room d) (memberNodes p) :=
    .bind ready.fallback fun _ he => .pure (AllLow.append hk (hp.append he))
  refine .after .eat fun _ => .ite (fun _ => .bind ready.pattern rest) fun _ => ?_
  cases alone with
  | some id => exact .given (rest _ (.one (name id)))
  | none => exact .bind (Q := fun _ => False) (.unexpected _) fun _ => False.elim

theorem objectPattern : Gives i c d g.objectPattern fun p => AllLow (room d) p.nodes := by
  refine .after .expect fun _ => .bind (.loop (fun acc => AllLow (room d) (acc.flatMap memberNodes))
    .nil fun acc all => ?_) ?_
    (Q := fun p => AllLow (room d) (p.1.flatMap memberNodes) ∧ AllLow (room d) (restNodes p.2))
  · refine .look (.check _) fun _ => .look .atEnd fun _ =>
      .ite (fun _ => .pure ⟨all.reverse_flatMap, .nil⟩) fun _ => .after .eat fun _ =>
      .ite (fun _ => ?_) fun _ => .bind ready.patternProperty fun p hp => ?_
    · exact .after .expectIdentifier fun id => .after .eat fun _ =>
        .pure ⟨all.reverse_flatMap, .one (name id)⟩
    · have more : AllLow (room d) ((p :: acc).flatMap memberNodes) := hp.append all
      exact .after .eat fun _ => .ite (fun _ => .pure more) fun _ =>
        .pure ⟨more.reverse_flatMap, .nil⟩
  · rintro ⟨props, rest⟩ ⟨hp, hr⟩
    exact .after .expect fun _ => .pure (.append (propertyNodes_eq props ▸ hp) hr)

theorem arrayPattern : Gives i c d g.arrayPattern fun p => AllLow (room d) p.nodes := by
  let nodes : Option Binding → List SyntaxNode := fun e => e.toList.flatMap bindingNodes
  refine .after .expect fun _ => .bind (.loop (fun acc => AllLow (room d) (acc.flatMap nodes)) .nil
    fun acc all => ?_) ?_
    (Q := fun p => AllLow (room d) (p.1.flatMap nodes) ∧ AllLow (room d) (restNodes p.2))
  · refine .look (.check _) fun _ => .look .atEnd fun _ =>
      .ite (fun _ => .pure ⟨all.reverse_flatMap, .nil⟩) fun _ => .after .eat fun _ =>
      .ite (fun _ => .pure (AllLow.append .nil all)) fun _ => .after .eat fun _ =>
      .ite (fun _ => ?_) fun _ => .bind ready.pattern fun pattern hp =>
      .bind ready.fallback fun e he => ?_
    · exact .bind ready.pattern fun _ hp => .after .eat fun _ =>
        .pure ⟨all.reverse_flatMap, hp⟩
    · have elem : AllLow (room d) (nodes (some (.mk pattern e))) := by
        simpa [nodes, bindingNodes] using hp.append he
      have more : AllLow (room d) ((some (.mk pattern e) :: acc).flatMap nodes) := elem.append all
      exact .after .eat fun _ => .ite (fun _ => .pure more) fun _ =>
        .pure ⟨more.reverse_flatMap, .nil⟩
  · rintro ⟨elems, rest⟩ ⟨he, hr⟩
    exact .after .expect fun _ => .pure (.append (elementNodes_eq elems ▸ he) hr)

theorem patternBody : Gives i c d g.patternBody fun p => AllLow (room d) p.nodes := by
  refine .nested fun free => ?_
  have le : room (d + 1) ≤ room d := by have := room_succ free; omega
  refine .look .peekKind fun kind => ?_
  split
  · exact ready.objectPattern.imp fun _ h => h.mono le
  · exact ready.arrayPattern.imp fun _ h => h.mono le
  · exact .after .expectIdentifier fun id => .pure (.one (name id))

/-! ### Functions -/

theorem annotated : Gives i c d g.annotated fun p => AllLow (room d) p.nodes :=
  .bind ready.pattern fun _ hp => .after .eat fun _ => .after ready.annotation fun _ => .pure hp

theorem parameter :
    Gives i c d g.parameter fun p => AllLow (room d) (p.toList.flatMap bindingNodes) := by
  refine .look (.checkKeyword _) fun _ => .look (.ahead _) fun _ => .ite (fun _ => ?_) fun _ => ?_
  · exact .after .advance fun _ => .after .advance fun _ => .after ready.type fun _ => .pure .nil
  · refine .bind ready.annotated fun pattern hp => .bind ready.fallback fun e he => .pure ?_
    simpa [bindingNodes] using hp.append he

theorem parameters : Gives i c d g.parameters fun p =>
    AllLow (room d) (p.1.flatMap bindingNodes ++ restNodes p.2) := by
  refine .after .expect fun _ => .bind (.loop (fun acc => AllLow (room d) (acc.flatMap bindingNodes))
    .nil fun acc all => ?_) ?_
    (Q := fun p => AllLow (room d) (p.1.flatMap bindingNodes ++ restNodes p.2))
  · refine .look (.check _) fun _ => .look .atEnd fun _ =>
      .ite (fun _ => .pure (all.reverse_flatMap.append .nil)) fun _ => .after .eat fun _ =>
      .ite (fun _ => ?_) fun _ => .bind ready.parameter fun p hp => ?_
    · exact .bind ready.annotated fun _ hp => .after .eat fun _ =>
        .pure (all.reverse_flatMap.append hp)
    · cases p with
      | some p =>
        have more : AllLow (room d) ((p :: acc).flatMap bindingNodes) :=
          (show AllLow (room d) (bindingNodes p) by simpa using hp).append all
        exact .after .eat fun _ => .ite (fun _ => .pure more) fun _ =>
          .pure (more.reverse_flatMap.append .nil)
      | none =>
        exact .after .eat fun _ => .ite (fun _ => .pure all) fun _ =>
          .pure (all.reverse_flatMap.append .nil)
  · exact fun _ h => .after .expect fun _ => .pure h

omit ready in
/-- A function is one step higher than its parts. -/
theorem function {name : Option Ident} {params : List Binding} {rest : Option Pattern} {body : Body}
    {arrow : Bool} {span : Span}
    (hp : AllLow (room d) (params.flatMap bindingNodes ++ restNodes rest))
    (hb : AllLow (room d) body.nodes) :
    (SyntaxNode.function (.mk name params rest body arrow span)).Low (room d + 1) := by
  have named : AllLow (room d) (name.toList.map .ident) := by
    intro x hx
    obtain ⟨id, -, rfl⟩ := List.mem_map.mp hx
    exact .leaf rfl
  refine .of_children (.append ?_ hb)
  rw [List.append_assoc]
  exact named.append hp

theorem functionRest (name : Option Ident) (start : Span) : Gives i c d (g.functionRest name start)
    fun fn => (SyntaxNode.function fn).Low (room d + 1) :=
  .after ready.typeParametersIfAny fun _ => .bind ready.parameters fun _ hp =>
    .after ready.annotation fun _ => .bind ready.block fun _ hb => .look (.spanFrom _) fun _ =>
    .pure (function hp hb)

theorem functionExpr :
    Gives i c d g.functionExpr fun fn => (SyntaxNode.function fn).Low (room d + 1) := by
  refine .after .expectKeyword fun _ => .look (.check _) fun _ =>
    .ite (fun _ => .look .here fun _ => .failing _ _ _) fun _ => .look .peekKind fun kind => ?_
  split
  · exact .after (.map Gives.expectIdentifier.steady) fun _ => ready.functionRest _ _
  · exact .given (ready.functionRest _ _)

theorem functionDecl :
    Gives i c d g.functionDecl fun fn => (SyntaxNode.function fn).Low (room d + 1) :=
  .look (.ahead _) fun _ => .ite (fun _ => ready.functionExpr) fun _ =>
    .after .advance fun _ => .unexpected _

theorem arrowBody : Gives i c d g.arrowBody fun body => AllLow (room d) body.nodes :=
  .look (.check _) fun _ => .ite (fun _ => .bind ready.block fun _ hb => .pure hb)
    fun _ => .bind (.allowIn ready.assignment) fun _ he => .pure (.one he)

theorem simpleArrow :
    Gives i c d g.simpleArrow fun fn => (SyntaxNode.function fn).Low (room d + 1) :=
  .after .expectIdentifier fun id => .after .expect fun _ => .bind ready.arrowBody fun _ hb =>
    .look (.spanFrom _) fun _ => .pure (function (.cons (name id) .nil) hb)

theorem arrow : Gives i c d g.arrow fun fn => (SyntaxNode.function fn).Low (room d + 1) :=
  .look .here fun _ => .bind ready.parameters fun _ hp => .after ready.annotation fun _ =>
    .after .expect fun _ => .bind ready.arrowBody fun _ hb => .look (.spanFrom _) fun _ =>
    .pure (function hp hb)

/-! ## Elements -/

omit ready in
/-- A name with dots is all chain. -/
theorem dottedName {n : Nat} (first : Ident) :
    Gives i c d (Grammar.dottedName first) fun p => AllLow n p.1.nodes := by
  refine .loop (fun p => (SyntaxNode.expr p.1).Low n) (.leaf rfl) fun p he => .after .eat fun _ =>
    .ite (fun _ => ?_) fun _ => .pure (.one he)
  exact .after .expectIdentifier fun part => .pure (.links (.one he) (Nat.le_refl 1))

omit ready in
theorem elementName {n : Nat} : Gives i c d Grammar.elementName fun p => AllLow n p.1.nodes :=
  .after .expectIdentifier fun first => .after .eat fun _ =>
    .ite (fun _ => .after .expectIdentifier fun _ => .pure .nil) fun _ => .look (.check _) fun _ =>
    .ite (fun _ => dottedName first) fun _ => .ite (fun _ => .pure .nil) fun _ =>
    .pure (.one (.leaf rfl))

theorem container : Gives i c d g.container fun e => (SyntaxNode.expr e).Low (room d + 1) :=
  .bind (.allowIn ready.expression) fun _ he => .after .expect fun _ => .pure he

theorem attributeValue : Gives i c d g.attributeValue fun v => AllLow (room d + 1) v.nodes := by
  refine .look .peekKind fun kind => ?_
  split
  · exact .after .advance fun _ => .pure .nil
  · refine .after .advance fun _ => .look (.check _) fun _ => .ite (fun _ => ?_) fun _ => ?_
    · exact .look .here fun _ => .failAt _ _ _
    · exact .bind ready.container fun _ he => .pure (.one he)
  · exact .bind ready.element fun _ he => .pure (.one (he.mono (Nat.le_succ _)))
  · exact .unexpected _

theorem namedAttribute : Gives i c d g.namedAttribute fun a => AllLow (room d + 2) a.nodes := by
  have attr (name : String) (start : Span) (value : Option JsxContent)
      (hv : AllLow (room d + 1) (value.toList.flatMap JsxContent.nodes)) :
      Gives i c d (Parser.spanFrom start >>= fun span => Pure.pure (JsxAttr.named name value span))
        fun a => AllLow (room d + 2) a.nodes :=
    .look (.spanFrom _) fun _ => .pure (.one (.of_children hv))
  have value (name : String) (start : Span) : Gives i c d (do
      let value ← if ← Parser.eat .eq then some <$> g.attributeValue else Pure.pure none
      return JsxAttr.named name value (← Parser.spanFrom start))
        fun a => AllLow (room d + 2) a.nodes := by
    refine .after .eat fun _ => .ite (fun _ => ?_) fun _ => .given (attr name start none .nil)
    have some : Gives i c d (some <$> g.attributeValue) fun value =>
        AllLow (room d + 1) (value.toList.flatMap JsxContent.nodes) :=
      .map (ready.attributeValue.imp fun v hv => by simpa using hv)
    exact .bind some fun v hv => attr name start v hv
  refine .after .expectIdentifier fun first => .after .eat fun _ => .ite (fun _ => ?_)
    fun _ => .given (value _ _)
  exact .after .expectIdentifier fun _ => .given (value _ _)

theorem attributes :
    Gives i c d g.attributes fun attrs => AllLow (room d + 2) (attrs.flatMap JsxAttr.nodes) := by
  refine .loop (fun acc => AllLow (room d + 2) (acc.flatMap JsxAttr.nodes)) .nil fun acc all =>
    .look .peekKind fun kind => ?_
  split
  · refine .after .advance fun _ => .after .eat fun _ => .ite (fun _ => ?_) fun _ => .failAt _ _ _
    exact .bind ready.container fun _ he => .pure (.append (.one (he.mono (by omega))) all)
  · exact .bind ready.namedAttribute fun _ ha => .pure (.append ha all)
  · exact .pure all.reverse_flatMap
  · exact .pure all.reverse_flatMap
  · exact .failHere _ _
  · exact .unexpected _

theorem children (start : Span) (name : String) : Gives i c d (g.children start name)
    fun children => AllLow (room d + 1) (children.flatMap JsxContent.nodes) := by
  refine .loop (fun acc => AllLow (room d + 1) (acc.flatMap JsxContent.nodes)) .nil fun acc all =>
    .look .peekKind fun kind => ?_
  split
  · exact .after .advance fun _ => .pure (.append .nil all)
  · refine .after .advance fun _ => .after .eat fun _ => .ite (fun _ => .pure all) fun _ =>
      .after .eat fun _ => ?_
    exact .bind ready.container fun _ he => .pure (.append (.one he) all)
  · exact .bind ready.element fun _ he => .pure (.append (.one (he.mono (Nat.le_succ _))) all)
  · exact .after .advance fun _ => .pure all.reverse_flatMap
  · exact .failAt _ _ _
  · exact .unexpected _

theorem elementBody :
    Gives i c d g.elementBody fun e => (SyntaxNode.element e).Low (room d) := by
  refine .nested fun free => .imp (Q := fun e => (SyntaxNode.element e).Low (room (d + 1) + 3)) ?_
    fun _ h => h.mono (by have := room_succ free; omega)
  have element {name : JsxName} {attrs : List JsxAttr} (children : List JsxContent) (start : Span)
      (hn : AllLow (room (d + 1) + 2) name.nodes)
      (ha : AllLow (room (d + 1) + 2) (attrs.flatMap JsxAttr.nodes))
      (hc : AllLow (room (d + 1) + 1) (children.flatMap JsxContent.nodes)) :
      Gives i c (d + 1) (Parser.spanFrom start >>= fun span =>
        Pure.pure (JsxElement.mk name attrs children span))
        fun e => (SyntaxNode.element e).Low (room (d + 1) + 3) :=
    .look (.spanFrom _) fun _ =>
      .pure (.of_children ((hn.append ha).append (hc.mono (Nat.le_succ _))))
  refine .after .expect fun _ => .after .eat fun _ => .ite (fun _ => ?_) fun _ => ?_
  · exact .bind (ready.children _ _) fun children hc => .after .expect fun _ =>
      element children _ .nil .nil hc
  · refine .bind (elementName (n := room (d + 1) + 2)) ?_
    rintro ⟨name, text⟩ hn
    refine .bind ready.attributes fun attrs ha => .after .eat fun _ =>
      .ite (fun _ => element [] _ hn ha .nil) fun _ => .after .expect fun _ =>
      .bind (ready.children _ _) fun children hc => .look .here fun _ =>
      .after (elementName (n := 0)).steady fun closing => .ite (fun _ => ?_) fun _ => ?_
    · exact .look (.spanFrom _) fun _ => .failing _ _ _
    · exact .after .expect fun _ => element children _ hn ha hc

/-! ## Expressions -/

/-! ### Literals -/

theorem templateParts (head : String) :
    Gives i c d (g.templateParts head) fun p => AllLow (room d + 1) (p.2.map .expr) := by
  refine .loop (fun p => AllLow (room d + 1) (p.2.map .expr)) .nil ?_
  rintro ⟨texts, exprs⟩ all
  refine .bind ready.expression fun e he => .look .peekKind fun kind => ?_
  have more : AllLow (room d + 1) ((e :: exprs).map .expr) := .cons he all
  split
  · exact .after .advance fun _ => .pure more
  · exact .after .advance fun _ => .pure more.reverse_map
  · exact .unexpected _

theorem template (head : String) :
    Gives i c d (g.template head) fun e => (SyntaxNode.expr e).Low (room d + 2) :=
  .after .advance fun _ => .bind (.allowIn (ready.templateParts head)) fun _ all =>
    .look (.spanFrom _) fun _ => .pure (.of_children all)

theorem item : Gives i c d g.item fun x => AllLow (room d) x.nodes :=
  .after .eat fun _ => .ite (fun _ => .bind ready.assignment fun _ he => .pure (.one he))
    fun _ => .bind ready.assignment fun _ he => .pure (.one he)

theorem arrayItems :
    Gives i c d g.arrayItems fun items => AllLow (room d) (items.flatMap Item.nodes) := by
  refine .loop (fun acc => AllLow (room d) (acc.flatMap Item.nodes)) .nil fun acc all => ?_
  have hole : AllLow (room d) ((Item.hole :: acc).flatMap Item.nodes) := all
  refine .look (.check _) fun _ => .look .atEnd fun _ => .ite (fun _ => .pure all.reverse_flatMap)
    fun _ => .after .eat fun _ => .ite (fun _ => .pure hole) fun _ => ?_
  refine .bind ready.item fun x hx => .after .eat fun _ => ?_
  have more : AllLow (room d) ((x :: acc).flatMap Item.nodes) := hx.append all
  exact .ite (fun _ => .pure more) fun _ => .pure more.reverse_flatMap

theorem arrayLiteral :
    Gives i c d g.arrayLiteral fun e => (SyntaxNode.expr e).Low (room d + 1) :=
  .after .expect fun _ => .bind (.allowIn ready.arrayItems) fun _ all => .after .expect fun _ =>
    .pure (.of_children all)

theorem arguments :
    Gives i c d g.arguments fun args => AllLow (room d) (args.flatMap Item.nodes) :=
  .after .expect fun _ => .bind (.allowIn (.commaList ready.item)) fun _ all =>
    .after .expect fun _ => .pure all

theorem propertyKey : Gives i c d g.propertyKey fun key => AllLow (room d) key.nodes := by
  refine .look .peekKind fun kind => ?_
  split
  · exact .after .advance fun _ => .pure .nil
  · exact .after .advance fun _ => .pure .nil
  · exact ready.computedKey
  · exact .after .expectPropertyName fun _ => .pure .nil

theorem propertyValue {key : Key} (alone : Option Ident) (start : Span)
    (hk : AllLow (room d) key.nodes) :
    Gives i c d (g.propertyValue key alone start) fun p => AllLow (room d + 2) p.nodes := by
  have hk : AllLow (room d + 2) key.nodes := hk.mono (by omega)
  have method (name : Option Ident) : Gives i c d (do
      let fn ← g.functionRest name start
      return Property.pair key (.function fn.span fn)) fun p => AllLow (room d + 2) p.nodes :=
    .bind (ready.functionRest name start) fun _ hf =>
      .pure (AllLow.append hk (.one (.of_children (.one hf))))
  refine .look .peekKind fun kind => ?_
  split
  · exact .after .advance fun _ => .bind ready.assignment fun _ he =>
      .pure (AllLow.append hk (.one (he.mono (by omega))))
  · exact method _
  · exact method _
  · cases alone with
    | some id => exact .pure (.one (name id))
    | none => exact .unexpected _

theorem property : Gives i c d g.property fun p => AllLow (room d + 2) p.nodes := by
  refine .look .here fun _ => .after .eat fun _ => .ite (fun _ => ?_) fun _ =>
    .look .peekKind fun _ => .look (.ahead _) fun _ => .ite (fun _ => .failing _ _ _) fun _ =>
    .ite (fun _ => .failing _ _ _) fun _ => ?_
  · exact .bind ready.assignment fun _ he => .pure (.one (he.mono (by omega)))
  · exact .bind ready.propertyKey fun _ hk => ready.propertyValue _ _ hk

theorem objectLiteral :
    Gives i c d g.objectLiteral fun e => (SyntaxNode.expr e).Low (room d + 3) :=
  .after .expect fun _ => .bind (.allowIn (.commaList ready.property)) fun _ all =>
    .after .expect fun _ => .pure (.of_children all)

/-! ### Primary expressions -/

omit ready in
/-- A literal of one token. -/
theorem literal {e : Expr} {n : Nat} (nodes : e.nodes = []) :
    Gives i c d (do
      let _ ← Parser.advance
      return e) fun e => (SyntaxNode.expr e).Low n :=
  .after .advance fun _ => .pure (.leaf nodes)

theorem keywordPrimary (word : Keyword) (start : Span) :
    Gives i c d (g.keywordPrimary word start) fun e => (SyntaxNode.expr e).Low (room d + 2) := by
  unfold Grammar.keywordPrimary
  split
  · exact literal rfl
  · exact literal rfl
  · exact literal rfl
  · exact .bind ready.functionExpr fun _ hf => .pure (.of_children (.one hf))
  · split
    · exact .unsupported _ _
    · exact .unexpected _

theorem parenthesized :
    Gives i c d g.parenthesized fun e => (SyntaxNode.expr e).Low (room d + 1) :=
  .after .advance fun _ => .bind (.allowIn ready.expression) fun _ he =>
    .after .expect fun _ => .pure he

theorem primary : Gives i c d g.primary fun e => (SyntaxNode.expr e).Low (room d + 3) := by
  refine .look .here fun _ => .look .peekKind fun kind => ?_
  split
  case h_1 | h_2 | h_3 | h_5 => exact literal rfl
  case h_4 => exact (ready.template _).imp fun _ he => he.mono (by omega)
  case h_6 => exact (ready.keywordPrimary _ _).imp fun _ he => he.mono (by omega)
  case h_7 => exact ready.parenthesized.imp fun _ he => he.mono (by omega)
  case h_8 => exact ready.arrayLiteral.imp fun _ he => he.mono (by omega)
  case h_9 => exact ready.objectLiteral
  case h_10 =>
    exact .bind ready.element fun _ he => .pure
      (.of_children (.one (he.mono (Nat.le_add_right (room d) 2))))
  case h_11 | h_12 => exact .unsupported _ _
  case h_13 => exact .failHere _ _
  case h_14 => exact .unexpected _

/-! ### Calls and members -/

section

variable {object : Expr} (ho : (SyntaxNode.expr object).Low (room d + 3))

include ho

omit ready in
theorem namedMember (optional : Bool) : Gives i c d (Grammar.namedMember object optional)
    fun e => (SyntaxNode.expr e).Low (room d + 3) :=
  .after .expectPropertyName fun _ => .pure (.link rfl rfl ho .nil)

omit ready in
theorem indexedMember (optional : Bool) {inner : Parser Expr}
    (h : Gives i c d inner fun e => (SyntaxNode.expr e).Low (room d + 1)) :
    Gives i c d (Grammar.indexedMember object optional inner)
      fun e => (SyntaxNode.expr e).Low (room d + 3) :=
  .after .advance fun _ => .bind h fun _ hk => .after .expect fun _ =>
    .pure (.link rfl rfl ho (.one (hk.mono (by omega))))

theorem callOf (optional : Bool) :
    Gives i c d (g.callOf object optional) fun e => (SyntaxNode.expr e).Low (room d + 3) :=
  .bind ready.arguments fun _ ha => .look .previous fun _ =>
    .pure (.link rfl rfl ho (ha.mono (by omega)))

theorem optionalMember :
    Gives i c d (g.optionalMember object) fun e => (SyntaxNode.expr e).Low (room d + 3) := by
  refine .after .advance fun _ => .look .peekKind fun kind => ?_
  split
  · exact ready.callOf ho true
  · exact indexedMember ho true ready.expression
  · exact namedMember ho true

end

theorem typeArgumentsOfCall : Steady i c d g.typeArgumentsOfCall := by
  have takenBack (mark : Checkpoint) : Steady i c d (do
      Parser.rewind mark
      return false) := .after (.rewind mark) fun _ => .stay
  refine .look (.look _) fun mark => .attempt ready.typeArguments (fun _ _ => ?_) ?_
  · exact .look (.failedSince _) fun _ => .look (.check _) fun _ => .ite (fun _ => .stay)
      fun _ => takenBack mark
  · exact .look (.failedSince _) fun _ => .look (.check _) fun _ => takenBack mark

/-- What a call or a member is read from, and what follows. -/
theorem head {β : Type} {f : Expr → Parser β} {R : β → Prop}
    (rest : ∀ first, (SyntaxNode.expr first).Low (room d + 3) → Gives i c d (f first) R) :
    Gives i c d (Parser.checkKeyword .new >>= fun b =>
      if b then g.newExpr >>= f else g.primary >>= f) R :=
  .look (.checkKeyword _) fun _ => .ite (fun _ => .bind ready.newExpr rest)
    fun _ => .bind ready.primary rest

theorem callOrMember : Gives i c d g.callOrMember fun e => (SyntaxNode.expr e).Low (room d + 3) := by
  refine ready.head fun first hf => .loop (fun e => (SyntaxNode.expr e).Low (room d + 3)) hf
    fun e he => .look .peek fun token => ?_
  split
  case h_1 => exact .after .advance fun _ => .bind (namedMember he false) fun _ h => .pure h
  case h_2 => exact .bind (ready.optionalMember he) fun _ h => .pure h
  case h_3 =>
    exact .bind (indexedMember he false (.allowIn ready.expression)) fun _ h => .pure h
  case h_4 => exact .bind (ready.callOf he false) fun _ h => .pure h
  case h_5 =>
    exact .after ready.typeArgumentsOfCall fun _ => .ite (fun _ => .pure he) fun _ => .pure he
  case h_6 => exact .ite (fun _ => .pure he) fun _ => .after .advance fun _ => .pure he
  case h_7 | h_8 => exact .ite (fun _ => .pure he) fun _ => .unsupported _ _
  case h_9 => exact .pure he

theorem newBody : Gives i c d g.newBody fun e => (SyntaxNode.expr e).Low (room d + 3) := by
  have finish {callee : Expr} (start : Span) (hc : (SyntaxNode.expr callee).Low (room d + 3)) :
      Gives i c d (do
        let args ← if ← Parser.check .lParen then g.arguments else Pure.pure []
        return Expr.new (← Parser.spanFrom start) callee args)
        fun e => (SyntaxNode.expr e).Low (room d + 3) := by
    have made {args : List Item} (ha : AllLow (room d) (args.flatMap Item.nodes)) : Gives i c d
        (Parser.spanFrom start >>= fun span => Pure.pure (Expr.new span callee args))
        fun e => (SyntaxNode.expr e).Low (room d + 3) :=
      .look (.spanFrom _) fun _ => .pure (.link rfl rfl hc (ha.mono (by omega)))
    exact .look (.check _) fun _ => .ite (fun _ => .bind ready.arguments fun _ ha => made ha)
      fun _ => .given (made .nil)
  refine .after .advance fun _ => .look (.check _) fun _ => .ite (fun _ => .failing _ _ _) fun _ =>
    ready.head fun first hf => ?_
  refine .bind (.loop (fun e => (SyntaxNode.expr e).Low (room d + 3)) hf fun e he => ?_)
    (Q := fun e => (SyntaxNode.expr e).Low (room d + 3)) fun callee hc => ?_
  · refine .look .peekKind fun kind => ?_
    split
    · exact .after .advance fun _ => .bind (namedMember he false) fun _ h => .pure h
    · exact .bind (indexedMember he false ready.expression) fun _ h => .pure h
    · exact .pure he
  · exact .look (.check _) fun _ => .when (fun _ => ready.typeArguments) (finish _ hc)

omit ready in
/-- What is incremented may be as high as any target, and the operator adds a step. -/
theorem updateOf {op : UpdateOp} {before : Bool} {target : Expr} {start : Span} {n : Nat}
    (h : target.isTarget = true → (SyntaxNode.expr target).Low n) :
    Gives i c d (Grammar.updateOf op before target start) fun e =>
      (SyntaxNode.expr e).Low (n + 1) ∧ e.isTarget = false :=
  .ite (fun target => .look (.spanFrom _) fun _ => .pure ⟨.of_children (.one (h target)), rfl⟩)
    fun _ => .failAt _ _ _

theorem postfixed : Gives i c d g.postfixed fun e => (SyntaxNode.expr e).Low (room d + 4) ∧
    (e.isTarget = true → (SyntaxNode.expr e).Low (room d + 3)) := by
  refine .bind ready.callOrMember fun e he => .look .peek fun token => ?_
  have plain : (SyntaxNode.expr e).Low (room d + 4) ∧
      (e.isTarget = true → (SyntaxNode.expr e).Low (room d + 3)) :=
    ⟨he.mono (Nat.le_succ _), fun _ => he⟩
  split
  · refine .ite (fun _ => .pure plain) fun _ => .after .advance fun _ => ?_
    exact (updateOf fun _ => he).imp fun _ h => ⟨h.1, fun target => by simp [h.2] at target⟩
  · exact .pure plain

theorem unaryBody : Gives i c d g.unaryBody fun e => (SyntaxNode.expr e).Low (room d + 4) ∧
    (e.isTarget = true → (SyntaxNode.expr e).Low (room d + 3)) := by
  refine .look .here fun _ => .look .peekKind fun kind => ?_
  split
  case h_1 op found =>
    have operand : Gives i c d (Parser.nested g.unary) fun e => (SyntaxNode.expr e).Low (room d) :=
      .nested fun free => ready.unary.imp fun _ h =>
        h.1.mono (by have := room_succ free; omega)
    exact .after .advance fun _ => .bind operand fun _ he =>
      .pure ⟨.of_children (.one (he.mono (by omega))), fun target => by cases target⟩
  case h_2 =>
    split
    case h_1 op found =>
      refine .after .advance fun _ => .bind ready.unary fun e he => ?_
      exact (updateOf he.2).imp fun _ h => ⟨h.1, fun target => by simp [h.2] at target⟩
    case h_2 =>
      exact .ite (fun _ => .failing _ _ _) fun _ => .look .startsAwait fun _ =>
        .ite (fun _ => .failing _ _ _) fun _ => ready.postfixed

theorem cast : Steady i c d g.cast :=
  .after .advance fun _ => .after .eatKeyword fun _ => .ite (fun _ => ready.type) fun _ => .stay

omit ready in
/-- Only a power hands on the height of its right operand. -/
theorem apply {left right : Expr} {kind : TokenKind} {prec least : Nat} {op : InfixOp}
    (found : infixOp? kind = some (prec, op)) (le : least ≤ prec)
    (hl : (SyntaxNode.expr left).Low (room d + 4 + (8 - least)))
    (hr : (SyntaxNode.expr right).Low (room d + 4 + (8 - op.rightLevel prec))) :
    (SyntaxNode.expr (op.apply left right)).Low (room d + 4 + (8 - least)) := by
  have bound : prec ≤ 7 := by
    unfold infixOp? relational at found
    split at found <;> simp only [Option.some.injEq, Prod.mk.injEq, reduceCtorEq] at found <;> omega
  obtain ⟨n, same⟩ : ∃ n, room d + 4 + (8 - least) = n + 1 :=
    ⟨room d + 4 + (7 - least), by omega⟩
  have step (lower : op.rightLevel prec = prec + 1) : (SyntaxNode.expr right).Low n :=
    hr.mono (by omega)
  rw [same] at hl ⊢
  cases op with
  | logical op => exact .link rfl rfl hl (.one (step rfl))
  | binary op =>
    by_cases power : op = .exp
    · subst power
      refine .links (.cons hl (.one (hr.mono ?_))) (Nat.le_refl 2)
      simp only [InfixOp.rightLevel]
      omega
    · refine .link rfl ?_ hl (.one (step ?_))
      · simp [InfixOp.apply, SyntaxNode.links, Expr.links, power]
      · cases op <;> first | rfl | exact absurd rfl power

theorem binaryBody (least : Nat) : Gives i c d (g.binaryBody least) fun e =>
    (SyntaxNode.expr e).Low (room d + 4 + (8 - least)) := by
  refine .bind ready.unary fun first hf => .loop
    (fun e => (SyntaxNode.expr e).Low (room d + 4 + (8 - least))) (hf.1.mono (Nat.le_add_right _ _))
    fun left hl => .look .peek fun token => ?_
  refine .ite (fun _ => ?_) fun _ => .ite (fun _ => .failing _ _ _) fun _ => ?_
  · exact .after ready.cast fun _ => .look (.spanFrom _) fun _ => .pure (hl.withSpan _)
  · split
    case h_1 => exact .pure hl
    case h_2 prec op found =>
      refine .look (.look _) fun noIn => .ite (fun _ => .pure hl) fun more => ?_
      have le : least ≤ prec := by
        simp only [Bool.or_eq_true, decide_eq_true_eq, not_or, Nat.not_lt] at more
        exact more.1
      exact .after .advance fun _ => .bind (ready.binary _) fun right hr =>
        .pure (apply found le hl hr)

theorem conditional : Gives i c d g.conditional fun e => (SyntaxNode.expr e).Low (room d + 13) := by
  refine .bind (ready.binary 0) fun test ht => .after .eat fun _ => .ite
    (fun _ => .pure (ht.mono (by omega))) fun _ => ?_
  exact .bind (.allowIn ready.assignment) fun yes hy => .after .expect fun _ =>
    .bind ready.assignment fun no hn => .pure
      (.of_children (.cons ht (.cons (hy.mono (by omega)) (.one (hn.mono (by omega))))))

theorem plainAssignment :
    Gives i c d g.plainAssignment fun e => (SyntaxNode.expr e).Low (room d + 14) := by
  refine .bind ready.conditional fun target ht => .look .peekKind fun kind => ?_
  split
  · exact .pure (ht.mono (Nat.le_succ _))
  · exact .ite (fun _ => .failing _ _ _) fun _ => .after .advance fun _ =>
      .bind ready.assignment fun value hv =>
      .pure (.of_children (.cons ht (.one (hv.mono (by omega)))))

/-- A group that is not read as parameters is read again as an expression. -/
theorem assignmentBody :
    Gives i c d g.assignmentBody fun e => (SyntaxNode.expr e).Low (room d) := by
  refine .nested fun free => .imp (Q := fun e => (SyntaxNode.expr e).Low (room (d + 1) + 14)) ?_
    fun _ h => h.mono (by have := room_succ free; omega)
  have whole {fn : Function} (h : (SyntaxNode.function fn).Low (room (d + 1) + 1)) :
      (SyntaxNode.expr (functionExprOf fn)).Low (room (d + 1) + 14) :=
    .of_children (.one (h.mono (by omega)))
  refine .look .arrowShape fun shape => ?_
  cases shape with
  | simple => exact .bind ready.simpleArrow fun _ h => .pure (whole h)
  | group => exact .bind ready.arrow fun _ h => .pure (whole h)
  | ambiguous =>
    have again (mark : Checkpoint) : Gives i c (d + 1) (do
        Parser.rewind mark
        g.plainAssignment) fun e => (SyntaxNode.expr e).Low (room (d + 1) + 14) :=
      .after (.rewind mark) fun _ => ready.plainAssignment
    refine .look (.look _) fun mark => .attempt ready.arrow (fun fn h => ?_) (again mark)
    exact .look (.failedSince _) fun _ => .ite (fun _ => again mark) fun _ => .pure (whole h)
  | async => exact .look .here fun _ => .unsupported _ _
  | none => exact ready.plainAssignment

end Grammar.KeepsLow

end TsxPreview.Parser
