import TsxPreview.Proofs.Syntax.Nesting.Readers
import TsxPreview.Proofs.Syntax.Progress.Expressions

/-!
The parts of blocks, patterns, functions, elements and expressions stand between the tokens that are
taken for them. A production that starts with a part that was read before hands on the token at
which that part starts.
-/

namespace TsxPreview.Parser

open SyntaxNode Pattern

namespace Grammar.Nests

open Lands

variable {i : Input} {k m n p : Nat} {g : Grammar} (ready : g.Nests i)

include ready

/-- A name is the token that was taken for it. -/
theorem name (inside : n < i.tokens.size) (text : String) :
    (SyntaxNode.ident ⟨text, (i.tokenAt n).span⟩).Stands i n (n + 1) :=
  .token ready.tokens inside rfl rfl

/-! ## Lists of statements, patterns and functions -/

theorem expression : Yields i k g.expression .expr := by
  refine .bind ready.assignment fun first n le hf => .look (.check _) fun _ =>
    .ite (fun _ => .pure fun _ => hf) fun _ => ?_
  have more : ∀ e ∈ [first], e = first ∨ (SyntaxNode.expr e).Stands i n n := by simp
  refine .bind (.loop (fun acc n' => n ≤ n' ∧
    ∀ e ∈ acc, e = first ∨ (SyntaxNode.expr e).Stands i n n') ⟨Nat.le_refl n, more⟩ ?_) ?_
    (Q := fun exprs n' => n ≤ n' ∧ ∀ e ∈ exprs, e = first ∨ (SyntaxNode.expr e).Stands i n n')
  · rintro acc m - ⟨le, all⟩
    refine .eat ready.closed ?_ (.pure fun _ => ⟨le, by simpa using all⟩)
    refine .bind ready.assignment fun e n' le' he => .pure fun _ => ⟨by omega, fun x hx => ?_⟩
    rcases List.mem_cons.mp hx with rfl | hx
    · exact .inr (he.mono (by omega))
    · exact (all x hx).imp_right fun h => h.mono (by omega)
  · rintro exprs n' - ⟨le', all⟩
    have start := hf.lt
    refine .spanFrom (by omega) (.pure fun inside => ?_)
    refine .onward ready.tokens hf le' (Nat.le_of_lt inside) rfl fun c hc => ?_
    obtain ⟨e, mem, rfl⟩ := List.mem_map.mp hc
    exact (all e mem).imp_left (congrArg _)

theorem statementsUntil (stop : TokenKind → Bool) :
    YieldsAll i k (g.statementsUntil stop) (·.map .stmt) := by
  refine .loop (fun acc n => Standing i k n (acc.map .stmt)) .nil fun acc n le all => ?_
  refine .look .peekKind fun _ => .look .tooManyErrors fun _ =>
    .ite (fun _ => .pure fun _ => all.reverse_map) fun _ => .attempt ready.statement ?_ ?_
  · exact fun s m le' hs => .pure fun _ => Standing.cons (hs.mono (by omega)) (all.mono (by omega))
  · exact fun m le' => .bind .synchronize fun _ n' le'' _ => .pure fun _ => all.mono (by omega)

theorem block : TakesAll i k g.block (·.map .stmt) :=
  .expect ready.closed (.bind (ready.statementsUntil _) fun _ _ _ all =>
    .expect ready.closed (.pure fun _ => ⟨by omega, all.mono (by omega)⟩))

theorem fallback : YieldsAll i k g.fallback fun e => e.toList.map .expr :=
  .eat ready.closed (.bind ready.assignment fun _ _ _ he =>
    .pure fun _ => .one (he.mono (by omega))) (.pure fun _ => .nil)

theorem computedKey (live : i.kindAt k ≠ .eof) : TakesAll i k g.computedKey Key.nodes :=
  .advance ready.closed live (.bind ready.assignment fun _ _ _ he =>
    .expect ready.closed (.pure fun _ => ⟨by omega, .one (he.mono (by omega))⟩))

theorem patternKey :
    TakesAll i k g.patternKey fun p => p.1.nodes ++ p.2.toList.map .ident := by
  have closed := ready.closed
  refine .peekKind fun kind here => ?_
  split
  · exact .advance closed (by simp [here]) (.pure fun inside =>
      ⟨Nat.lt_succ_self k, .one (ready.name (Nat.lt_of_succ_lt inside) _)⟩)
  · exact .advance closed (by simp [here]) (.pure fun _ => ⟨Nat.lt_succ_self k, .nil⟩)
  · exact .advance closed (by simp [here]) (.pure fun _ => ⟨Nat.lt_succ_self k, .nil⟩)
  · exact .bind (ready.computedKey (by simp [here])) fun key n le hk => .pure fun _ =>
      ⟨hk.1, hk.2.append .nil⟩
  · exact .expectPropertyName closed fun _ => .pure fun _ => ⟨Nat.lt_succ_self k, .nil⟩

theorem patternProperty : TakesAll i k g.patternProperty memberNodes := by
  refine .bind ready.patternKey ?_
  rintro ⟨key, alone⟩ n - ⟨lt, parts⟩
  have hk : Standing i k n key.nodes := fun x hx => parts x (List.mem_append_left _ hx)
  have rest (pattern : Pattern) {m : Nat} (le : n ≤ m) (hp : Standing i k m pattern.nodes) :
      Lands i m (do return PatternProperty.mk key (.mk pattern (← g.fallback))) fun p n' =>
        k < n' ∧ Standing i k n' (memberNodes p) :=
    .bind ready.fallback fun _ _ _ he => .pure fun _ =>
      ⟨by omega, (hk.mono (by omega)).append ((hp.mono (by omega)).append (he.mono (by omega)))⟩
  refine .eat ready.closed ?_ ?_
  · exact .bind ready.pattern fun pattern _ _ hp => rest pattern (by omega) (hp.2.mono (by omega))
  · cases alone with
    | some id =>
      exact .given (rest _ (Nat.le_refl n) fun x hx => parts x (List.mem_append_right _ hx))
    | none => exact .bind (Q := fun _ _ => False) (.unexpected _) fun _ _ _ => False.elim

theorem objectPattern : TakesAll i k g.objectPattern Pattern.nodes := by
  have closed := ready.closed
  refine .expect closed (.bind (.loop (fun acc n => Standing i k n (acc.flatMap memberNodes)) .nil
    fun acc n _ all => ?_) ?_ (Q := fun p n =>
      Standing i k n (p.1.flatMap memberNodes) ∧ Standing i k n (restNodes p.2)))
  · refine .look (.check _) fun _ => .look .atEnd fun _ =>
      .ite (fun _ => .pure fun _ => ⟨all.reverse_flatMap, .nil⟩) fun _ => .eat closed ?_ ?_
    · exact .expectIdentifier closed fun name => .bind .eatAny fun _ _ _ _ => .pure fun _ =>
        ⟨all.reverse_flatMap.mono (by omega), .one ((ready.name (by omega) name).mono (by omega))⟩
    · exact .bind ready.patternProperty fun _ _ _ hp => .eat closed
        (.pure fun _ => (all.push hp.2 (by omega)).mono (by omega))
        (.pure fun _ => ⟨(all.push hp.2 (by omega)).reverse_flatMap, .nil⟩)
  · rintro ⟨props, rest⟩ n le ⟨hp, hr⟩
    exact .expect closed (.pure fun _ =>
      ⟨by omega, .append (propertyNodes_eq props ▸ hp.mono (by omega)) (hr.mono (by omega))⟩)

theorem arrayPattern : TakesAll i k g.arrayPattern Pattern.nodes := by
  have closed := ready.closed
  let nodes : Option Binding → List SyntaxNode := fun e => e.toList.flatMap bindingNodes
  refine .expect closed (.bind (.loop (fun acc n => Standing i k n (acc.flatMap nodes)) .nil
    fun acc n _ all => ?_) ?_ (Q := fun p n =>
      Standing i k n (p.1.flatMap nodes) ∧ Standing i k n (restNodes p.2)))
  · refine .look (.check _) fun _ => .look .atEnd fun _ =>
      .ite (fun _ => .pure fun _ => ⟨all.reverse_flatMap, .nil⟩) fun _ =>
      .eat closed (.pure fun _ => all.mono (by omega)) (.eat closed ?_ ?_)
    · exact .bind ready.pattern fun _ _ _ hp => .bind .eatAny fun _ _ _ _ => .pure fun _ =>
        ⟨all.reverse_flatMap.mono (by omega), hp.2.mono (by omega)⟩
    · refine .bind ready.pattern fun pattern m _ hp => .bind ready.fallback fun e n' _ he => ?_
      have elem : Standing i n n' (nodes (some (.mk pattern e))) := by
        simpa [nodes, bindingNodes] using (hp.2.mono (by omega)).append (he.mono (by omega))
      have all := all.push elem (by omega)
      exact .eat closed (.pure fun _ => all.mono (by omega))
        (.pure fun _ => ⟨all.reverse_flatMap, .nil⟩)
  · rintro ⟨elems, rest⟩ n le ⟨he, hr⟩
    exact .expect closed (.pure fun _ =>
      ⟨by omega, .append (elementNodes_eq elems ▸ he.mono (by omega)) (hr.mono (by omega))⟩)

theorem patternBody : TakesAll i k g.patternBody Pattern.nodes := by
  refine .nested (.look .peekKind fun kind => ?_)
  split
  · exact ready.objectPattern
  · exact ready.arrayPattern
  · exact .expectIdentifier ready.closed fun name => .pure fun inside =>
      ⟨Nat.lt_succ_self k, .one (ready.name (Nat.lt_of_succ_lt inside) name)⟩

/-! ### Functions -/

theorem annotated : TakesAll i k g.annotated Pattern.nodes :=
  .bind ready.pattern fun _ _ _ hp => .bind .eatAny fun _ _ _ _ =>
    .bind ready.annotation fun _ _ _ _ => .pure fun _ => ⟨by omega, hp.2.mono (by omega)⟩

theorem parameter : YieldsAll i k g.parameter fun p => p.toList.flatMap bindingNodes := by
  refine .look (.checkKeyword _) fun _ => .look (.ahead _) fun _ => .ite (fun _ => ?_) fun _ => ?_
  · exact .bind .advanceAny fun _ _ _ _ => .bind .advanceAny fun _ _ _ _ =>
      .bind ready.type fun _ _ _ _ => .pure fun _ => .nil
  · refine .bind ready.annotated fun pattern n _ hp => .bind ready.fallback fun e m _ he =>
      .pure fun _ => ?_
    simpa [bindingNodes] using (hp.2.mono (by omega)).append (he.mono (by omega))

theorem parameters : YieldsAll i k g.parameters fun p =>
    p.1.flatMap bindingNodes ++ restNodes p.2 := by
  have closed := ready.closed
  refine .expect closed (.bind (.loop (fun acc n => Standing i k n (acc.flatMap bindingNodes)) .nil
    fun acc n _ all => ?_) ?_ (Q := fun p n =>
      Standing i k n (p.1.flatMap bindingNodes ++ restNodes p.2)))
  · refine .look (.check _) fun _ => .look .atEnd fun _ =>
      .ite (fun _ => .pure fun _ => all.reverse_flatMap.append .nil) fun _ => .eat closed ?_ ?_
    · exact .bind ready.annotated fun _ _ _ hp => .bind .eatAny fun _ _ _ _ => .pure fun _ =>
        (all.reverse_flatMap.mono (by omega)).append (hp.2.mono (by omega))
    · refine .bind ready.parameter fun p m _ hp => ?_
      cases p with
      | some p =>
        have all := all.push (show Standing i n m (bindingNodes p) by simpa using hp) (by omega)
        exact .eat closed (.pure fun _ => all.mono (by omega))
          (.pure fun _ => all.reverse_flatMap.append .nil)
      | none =>
        exact .eat closed (.pure fun _ => all.mono (by omega))
          (.pure fun _ => (all.reverse_flatMap.mono (by omega)).append .nil)
  · exact fun _ n _ h => .expect closed (.pure fun _ => h.mono (by omega))

/-- A function whose start was read, from the token at `m` on. -/
theorem functionRest {name : Option Ident} (lt : m < k)
    (hn : Standing i m k (name.toList.map .ident)) :
    Lands i k (g.functionRest name (i.tokenAt m).span) fun fn n =>
      (SyntaxNode.function fn).Stands i m n := by
  refine .bind ready.typeParametersIfAny fun _ _ _ _ => .bind ready.parameters
    fun params _ _ hp => .bind ready.annotation fun _ _ _ _ => .bind ready.block
    fun stmts n _ hb => .spanFrom (by omega) (.pure fun inside => ?_)
  refine .between ready.tokens (by omega) (Nat.le_of_lt inside) rfl ?_
  exact (List.append_assoc _ _ _ ▸ (hn.mono (by omega)).append (hp.mono (by omega))).append
    (hb.2.mono (by omega))

theorem functionExpr : Yields i k g.functionExpr .function := by
  have closed := ready.closed
  refine .expectKeyword closed (.look (.check _) fun _ =>
    .ite (fun _ => .look .here fun _ => .failing _ _ _) fun _ => .peekKind fun kind here => ?_)
  split
  · have named : Lands i (k + 1) (some <$> expectIdentifier) fun name n =>
        n = k + 2 ∧ Standing i k n (name.toList.map .ident) :=
      .map ((Lands.identifier closed).imp fun id n _ inside read =>
        ⟨read.2, .one (.mono (.token ready.tokens (n := k + 1) (by omega) read.1 rfl) (by omega))⟩)
    refine .bind named ?_
    rintro name _ - ⟨rfl, hn⟩
    exact ready.functionRest (by omega) hn
  · exact .given (ready.functionRest (Nat.lt_succ_self k) .nil)

theorem functionDecl : Yields i k g.functionDecl .function :=
  .look (.ahead _) fun _ => .ite (fun _ => ready.functionExpr) fun _ =>
    .bind .advanceAny fun _ _ _ _ => .unexpected _

theorem arrowBody : YieldsAll i k g.arrowBody Body.nodes :=
  .look (.check _) fun _ => .ite (fun _ => .bind ready.block fun _ _ _ hb => .pure fun _ => hb.2)
    fun _ => .bind (.allowIn ready.assignment) fun _ _ _ he => .pure fun _ => .one he

theorem simpleArrow : Yields i k g.simpleArrow .function := by
  have closed := ready.closed
  refine .expectIdentifier closed fun name => .expect closed (.bind ready.arrowBody
    fun body n _ hb => .spanFrom (by omega) (.pure fun inside => ?_))
  refine .between ready.tokens (by omega) (Nat.le_of_lt inside) rfl ?_
  have param := ready.name (n := k) (by omega) name
  exact Standing.cons (param.mono (by omega)) (hb.mono (by omega))

theorem arrow : Yields i k g.arrow .function := by
  have closed := ready.closed
  refine .here (.bind ready.parameters fun params _ _ hp => .bind ready.annotation
    fun _ _ _ _ => .expect closed (.bind ready.arrowBody fun body n _ hb =>
    .spanFrom (by omega) (.pure fun inside => ?_)))
  exact .between ready.tokens (by omega) (Nat.le_of_lt inside) rfl
    ((hp.mono (by omega)).append (hb.mono (by omega)))

/-! ## Elements -/

/-- A plain name as an expression. -/
theorem word (inside : n < i.tokens.size) (text : String) :
    (SyntaxNode.expr (.ident (i.tokenAt n).span text)).Stands i n (n + 1) :=
  .token ready.tokens inside rfl rfl

theorem member {object : Expr} {key : Key} (optional : Bool)
    (ho : (SyntaxNode.expr object).Stands i m p) (hk : Standing i p n key.nodes) (le : p ≤ n)
    (inside : n ≤ i.tokens.size) :
    (SyntaxNode.expr (memberOf object key optional (i.tokenAt (n - 1)).span)).Stands i m n := by
  refine .onward ready.tokens ho le inside rfl fun c hc => ?_
  exact (List.mem_cons.mp hc).imp_right (hk c)

theorem dottedName {first : Ident}
    (hf : (SyntaxNode.expr (.ident first.span first.name)).Stands i m k) :
    Lands i k (Grammar.dottedName first) fun p n => Standing i m n p.1.nodes := by
  refine .loop (fun p n => (SyntaxNode.expr p.1).Stands i m n) hf
    fun p n le he => .eat ready.closed ?_ (.pure fun _ => .one he)
  exact .expectIdentifier ready.closed fun part => .pure fun inside =>
    ready.member false he .nil (by omega) (Nat.le_of_lt inside)

theorem elementName : YieldsAll i k Grammar.elementName fun p => p.1.nodes := by
  have closed := ready.closed
  refine .expectIdentifier closed fun first => .inside fun inside => .eat closed ?_ ?_
  · exact .expectIdentifier closed fun _ => .pure fun _ => .nil
  · have hf := ready.word (n := k) (by omega) first
    exact .look (.check _) fun _ => .ite (fun _ => ready.dottedName hf) fun _ =>
      .ite (fun _ => .pure fun _ => .nil) fun _ => .pure fun _ => .one hf

theorem container : Yields i k g.container .expr :=
  .bind (.allowIn ready.expression) fun _ _ _ he => .expect ready.closed
    (.pure fun _ => he.mono (by omega))

theorem attributeValue : YieldsAll i k g.attributeValue JsxContent.nodes := by
  refine .look .peekKind fun kind => ?_
  split
  · exact .bind .advanceAny fun _ _ _ _ => .pure fun _ => .nil
  · refine .bind .advanceAny fun _ _ _ _ => .look (.check _) fun _ => .ite (fun _ => ?_) fun _ => ?_
    · exact .look .here fun _ => .failAt _ _ _
    · exact .bind ready.container fun _ _ _ he => .pure fun _ => .one (he.mono (by omega))
  · exact .bind ready.element fun _ _ _ he => .pure fun _ => .one he
  · exact .unexpected _

theorem namedAttribute : YieldsAll i k g.namedAttribute JsxAttr.nodes := by
  have closed := ready.closed
  have value (name : String) {n : Nat} (lt : k < n) : Lands i n (do
      let value ← if ← Parser.eat .eq then some <$> g.attributeValue else Pure.pure none
      return JsxAttr.named name value (← Parser.spanFrom (i.tokenAt k).span)) fun attr n =>
        Standing i k n attr.nodes := by
    have attr {m : Nat} (value : Option JsxContent) (le : n ≤ m)
        (hv : Standing i n m (value.toList.flatMap JsxContent.nodes)) : Lands i m
          (Parser.spanFrom (i.tokenAt k).span >>= fun span =>
            Pure.pure (JsxAttr.named name value span))
          fun attr n => Standing i k n attr.nodes :=
      .spanFrom (by omega) (.pure fun inside => .one
        (.between ready.tokens (by omega) (Nat.le_of_lt inside) rfl (hv.mono (by omega))))
    refine .eat closed ?_ (.given (attr none (Nat.le_refl n) .nil))
    have some : Lands i (n + 1) (some <$> g.attributeValue) fun value m =>
        Standing i n m (value.toList.flatMap JsxContent.nodes) :=
      .map (ready.attributeValue.imp fun v m le _ hv => by simpa using hv.mono (by omega))
    exact .bind some fun v m le hv => attr v (by omega) hv
  refine .expectIdentifier closed fun first => .eat closed ?_
    (.given (value _ (Nat.lt_succ_self k)))
  exact .expectIdentifier closed fun _ => .given (value _ (by omega))

theorem attributes : YieldsAll i k g.attributes (·.flatMap JsxAttr.nodes) := by
  have closed := ready.closed
  refine .loop (fun acc n => Standing i k n (acc.flatMap JsxAttr.nodes)) .nil fun acc n le all =>
    .look .peekKind fun kind => ?_
  split
  · refine .bind .advanceAny fun _ m _ _ => .eat closed ?_ (.failAt _ _ _)
    exact .bind ready.container fun e m' _ he => .pure fun _ =>
      all.push (a := JsxAttr.spread e) (.one he) (by omega)
  · exact .bind ready.namedAttribute fun _ _ _ ha => .pure fun _ => all.push ha (by omega)
  · exact .pure fun _ => all.reverse_flatMap
  · exact .pure fun _ => all.reverse_flatMap
  · exact .failHere _ _
  · exact .unexpected _

theorem children (start : Span) (name : String) :
    YieldsAll i k (g.children start name) (·.flatMap JsxContent.nodes) := by
  have closed := ready.closed
  refine .loop (fun acc n => Standing i k n (acc.flatMap JsxContent.nodes)) .nil fun acc n le all =>
    .look .peekKind fun kind => ?_
  split
  · exact .bind .advanceAny fun _ m _ _ => .pure fun _ => all.push (.nil (m := m)) (by omega)
  · refine .bind .advanceAny fun _ m _ _ => .eat closed (.pure fun _ => all.mono (by omega)) ?_
    exact .bind .eatAny fun _ m' _ _ => .bind ready.container fun e n' _ he => .pure fun _ =>
      all.push (a := JsxContent.expr e) (.one he) (by omega)
  · exact .bind ready.element fun e _ _ he => .pure fun _ =>
      all.push (a := JsxContent.element e) (.one he) (by omega)
  · exact .bind .advanceAny fun _ m _ _ => .pure fun _ => all.reverse_flatMap.mono (by omega)
  · exact .failAt _ _ _
  · exact .unexpected _

theorem elementBody : Yields i k g.elementBody .element := by
  have closed := ready.closed
  refine .nested (.expect closed (.eat closed ?_ ?_))
  · refine .bind (ready.children _ _) fun children m le hc => .expect closed
      (.spanFrom (by omega) (.pure fun inside => ?_))
    exact .between ready.tokens (by omega) (Nat.le_of_lt inside) rfl (hc.mono (by omega))
  · refine .bind ready.elementName ?_
    rintro ⟨name, text⟩ n₁ le₁ hn
    refine .bind ready.attributes fun attrs n₂ le₂ ha => ?_
    have element {m : Nat} (children : List JsxContent) (le : n₂ < m)
        (hc : Standing i k m (children.flatMap JsxContent.nodes)) : Lands i m
          (Parser.spanFrom (i.tokenAt k).span >>= fun span =>
            Pure.pure (JsxElement.mk name attrs children span)) fun e n =>
          (SyntaxNode.element e).Stands i k n :=
      .spanFrom (by omega) (.pure fun inside => .between ready.tokens (by omega)
        (Nat.le_of_lt inside) rfl (((hn.mono (by omega)).append (ha.mono (by omega))).append hc))
    refine .eat closed (element [] (Nat.lt_succ_self n₂) .nil) (.expect closed ?_)
    refine .bind (ready.children _ _) fun children n₃ le₃ hc => .look .here fun _ =>
      .bind ready.elementName fun closing n₄ le₄ _ => .ite (fun _ => ?_) fun _ => ?_
    · exact .look (.spanFrom _) fun _ => .failing _ _ _
    · exact .expect closed (element children (by omega) (hc.mono (by omega)))

/-! ## Expressions -/

/-! ### Literals -/

theorem templateParts (head : String) :
    YieldsAll i k (g.templateParts head) (·.2.map .expr) := by
  refine .loop (fun p n => Standing i k n (p.2.map .expr)) .nil ?_
  rintro ⟨texts, exprs⟩ n le all
  refine .bind ready.expression fun e m le' he => ?_
  have more : Standing i k m ((e :: exprs).map .expr) :=
    .cons (he.mono (by omega)) (all.mono (by omega))
  refine .look .peekKind fun kind => ?_
  split
  · exact .bind .advanceAny fun _ _ _ _ => .pure fun _ => more.mono (by omega)
  · exact .bind .advanceAny fun _ _ _ _ => .pure fun _ => more.reverse_map.mono (by omega)
  · exact .unexpected _

theorem template (head : String) (live : i.kindAt k ≠ .eof) :
    Yields i k (g.template head) .expr := by
  refine .advance ready.closed live (.bind (.allowIn (ready.templateParts head))
    fun parts n le all => .spanFrom (by omega) (.pure fun inside => ?_))
  exact .between ready.tokens (by omega) (Nat.le_of_lt inside) rfl (all.mono (by omega))

theorem item : YieldsAll i k g.item Item.nodes :=
  .eat ready.closed (.bind ready.assignment fun _ _ _ he =>
    .pure fun _ => .one (he.mono (by omega))) (.bind ready.assignment fun _ _ _ he =>
    .pure fun _ => .one he)

theorem arrayItems : YieldsAll i k g.arrayItems (·.flatMap Item.nodes) := by
  have closed := ready.closed
  refine .loop (fun acc n => Standing i k n (acc.flatMap Item.nodes)) .nil fun acc n le all =>
    .look (.check _) fun _ => .look .atEnd fun _ =>
    .ite (fun _ => .pure fun _ => all.reverse_flatMap) fun _ => .eat closed ?_ ?_
  · exact .pure fun _ => all.push (a := Item.hole) (.nil (m := n + 1)) (by omega)
  · exact .bind ready.item fun _ _ _ hx => .eat closed
      (.pure fun _ => (all.push hx (by omega)).mono (by omega))
      (.pure fun _ => (all.push hx (by omega)).reverse_flatMap)

theorem arrayLiteral : Yields i k g.arrayLiteral .expr :=
  .expect ready.closed (.bind (.allowIn ready.arrayItems) fun _ _ _ all => .expect ready.closed
    (.pure fun inside => .between ready.tokens (by omega) (Nat.le_of_lt inside) rfl
      (all.mono (by omega))))

theorem arguments : TakesAll i k g.arguments (·.flatMap Item.nodes) :=
  .expect ready.closed (.bind (.allowIn (.commaList ready.closed fun _ => ready.item))
    fun _ _ _ all => .expect ready.closed (.pure fun _ => ⟨by omega, all.mono (by omega)⟩))

theorem propertyKey : TakesAll i k g.propertyKey Key.nodes := by
  have closed := ready.closed
  refine .peekKind fun kind here => ?_
  split
  · exact .advance closed (by simp [here]) (.pure fun _ => ⟨Nat.lt_succ_self k, .nil⟩)
  · exact .advance closed (by simp [here]) (.pure fun _ => ⟨Nat.lt_succ_self k, .nil⟩)
  · exact ready.computedKey (by simp [here])
  · exact .expectPropertyName closed fun _ => .pure fun _ => ⟨Nat.lt_succ_self k, .nil⟩

/-- A property whose key was read, from the token at `m` on. -/
theorem propertyValue {key : Key} {alone : Option Ident} (lt : m < k)
    (hk : Standing i m k key.nodes) (ha : Standing i m k (alone.toList.map .ident)) :
    Lands i k (g.propertyValue key alone (i.tokenAt m).span) fun p n =>
      Standing i m n p.nodes := by
  have closed := ready.closed
  have method {name : Option Ident} (hn : Standing i m k (name.toList.map .ident)) : Lands i k (do
      let fn ← g.functionRest name (i.tokenAt m).span
      return Property.pair key (.function fn.span fn)) fun p n => Standing i m n p.nodes :=
    .bind (ready.functionRest lt hn) fun _ _ _ hf => .pure fun _ =>
      (hk.mono (by omega)).append (.one (hf.around rfl rfl))
  refine .peekKind fun kind here => ?_
  split
  case h_1 =>
    exact .advance closed (by simp [here]) (.bind ready.assignment fun _ _ _ he => .pure fun _ =>
      (hk.mono (by omega)).append (.one (he.mono (by omega))))
  case h_2 | h_3 =>
    cases key with
    | named name =>
      exact .inside fun inside =>
        method (.one ((ready.name (n := m) (by omega) name).mono (by omega)))
    | computed e => exact method .nil
  case h_4 =>
    cases alone with
    | some id => exact .pure fun _ => ha
    | none => exact .unexpected _

theorem property : YieldsAll i k g.property Property.nodes := by
  refine .here (.eat ready.closed (.bind ready.assignment fun _ _ _ he => .pure fun _ =>
    .one (he.mono (by omega))) (.peekKind fun kind here => .look (.ahead _) fun _ =>
    .ite (fun _ => .failing _ _ _) fun _ => .ite (fun _ => .failing _ _ _) fun _ => ?_))
  refine .bind ready.propertyKey fun key n le hk => .inside fun inside =>
    ready.propertyValue hk.1 hk.2 ?_
  split
  · exact .one ((ready.name (n := k) (by omega) _).mono (by omega))
  · exact .nil

theorem objectLiteral : Yields i k g.objectLiteral .expr :=
  .expect ready.closed (.bind (.allowIn (.commaList ready.closed fun _ => ready.property))
    fun _ _ _ all => .expect ready.closed (.pure fun inside =>
    .between ready.tokens (by omega) (Nat.le_of_lt inside) rfl (all.mono (by omega))))

/-! ### Primary expressions -/

/-- A literal of one token. -/
theorem literal {e : Expr} (live : i.kindAt k ≠ .eof) (span : e.span = (i.tokenAt k).span)
    (nodes : e.nodes = []) :
    Yields i k (do
      let _ ← Parser.advance
      return e) .expr :=
  .advance ready.closed live (.pure fun inside =>
    .token ready.tokens (Nat.lt_of_succ_lt inside) span nodes)

theorem keywordPrimary (word : Keyword) (live : i.kindAt k ≠ .eof) :
    Yields i k (g.keywordPrimary word (i.tokenAt k).span) .expr := by
  unfold Grammar.keywordPrimary
  split
  · exact ready.literal live rfl rfl
  · exact ready.literal live rfl rfl
  · exact ready.literal live rfl rfl
  · exact .bind ready.functionExpr fun _ _ _ hf => .pure fun _ => hf.around rfl rfl
  · split
    · exact .unsupported _ _
    · exact .unexpected _

theorem parenthesized : Yields i k g.parenthesized .expr :=
  .bind .advanceAny fun _ _ _ _ => .bind (.allowIn ready.expression) fun _ _ _ he =>
    .expect ready.closed (.pure fun _ => he.mono (by omega))

theorem primary : Yields i k g.primary .expr := by
  refine .here (.peekKind fun kind here => ?_)
  split
  case h_1 | h_2 | h_3 | h_5 => exact ready.literal (by simp [here]) rfl rfl
  case h_4 => exact ready.template _ (by simp [here])
  case h_6 => exact ready.keywordPrimary _ (by simp [here])
  case h_7 => exact ready.parenthesized
  case h_8 => exact ready.arrayLiteral
  case h_9 => exact ready.objectLiteral
  case h_10 => exact .bind ready.element fun _ _ _ he => .pure fun _ => he.around rfl rfl
  case h_11 | h_12 => exact .unsupported _ _
  case h_13 => exact .failHere _ _
  case h_14 => exact .unexpected _

/-! ### Calls and members -/

section

variable {object : Expr} (ho : (SyntaxNode.expr object).Stands i m k)

include ho

theorem namedMember (optional : Bool) :
    Lands i k (Grammar.namedMember object optional) fun e n => (SyntaxNode.expr e).Stands i m n :=
  .expectPropertyName ready.closed fun _ => .pure fun inside =>
    ready.member optional ho .nil (Nat.le_succ k) (Nat.le_of_lt inside)

theorem indexedMember (optional : Bool) {inner : Parser Expr}
    (h : ∀ {n}, Yields i n inner .expr) :
    Lands i k (Grammar.indexedMember object optional inner) fun e n =>
      (SyntaxNode.expr e).Stands i m n :=
  .bind .advanceAny fun _ _ _ _ => .bind h fun key n _ hk => .expect ready.closed
    (.pure fun inside => ready.member optional ho (.one (hk.mono (by omega))) (by omega)
      (Nat.le_of_lt inside))

theorem callOf (optional : Bool) {n : Nat} (le : k ≤ n) :
    Lands i n (g.callOf object optional) fun e n' => (SyntaxNode.expr e).Stands i m n' := by
  refine .bind ready.arguments ?_
  rintro args n' le' ⟨lt, ha⟩
  refine .previous (by omega) (.pure fun inside => ?_)
  refine .onward ready.tokens ho (by omega) (Nat.le_of_lt inside) rfl fun c hc => ?_
  exact (List.mem_cons.mp hc).imp_right fun hc => (ha c hc).mono (by omega)

theorem optionalMember :
    Lands i k (g.optionalMember object) fun e n => (SyntaxNode.expr e).Stands i m n := by
  refine .bind .advanceAny fun _ n le _ => .look .peekKind fun kind => ?_
  split
  · exact ready.callOf ho true le
  · exact ready.indexedMember (ho.mono (by omega)) true ready.expression
  · exact ready.namedMember (ho.mono (by omega)) true

end

/-- Type arguments that no call follows are taken back. -/
theorem typeArgumentsOfCall : Moves i k g.typeArgumentsOfCall := by
  refine .checkpoint fun s start inside c back => ?_
  have takenBack (t : State) :
      ((Parser.rewind c >>= fun _ => Pure.pure false) i t).Lands i k fun _ _ => True :=
    Lands.rewind .stay back inside
  refine Lands.attempt_at (ready.typeArguments s start inside) (fun _ t le lt _ => ?_)
    fun t le lt => ?_
  · refine Lands.look_at (.failedSince c) fun _ => Lands.look_at (.check _) fun _ => ?_
    split
    · exact ⟨le, lt, trivial⟩
    · exact takenBack t
  · exact Lands.look_at (.failedSince c) fun _ => Lands.look_at (.check _) fun _ => takenBack t

/-- What a call or a member is read from, and what follows. -/
theorem head {β : Type} {f : Expr → Parser β} {R : β → Nat → Prop}
    (rest : ∀ first {n}, k ≤ n → (SyntaxNode.expr first).Stands i k n → Lands i n (f first) R) :
    Lands i k (Parser.checkKeyword .new >>= fun b =>
      if b then g.newExpr >>= f else g.primary >>= f) R :=
  .checkKeyword (fun word => .bind (ready.newExpr (TokenKind.ne_eof word)) fun _ _ le he =>
    rest _ le he) fun _ => .bind ready.primary fun _ _ le he => rest _ le he

theorem callOrMember : Yields i k g.callOrMember .expr := by
  refine ready.head fun first n _ hf => .loop (fun e n' => (SyntaxNode.expr e).Stands i k n') hf
    fun e n' le he => .look .peek fun token => ?_
  split
  case h_1 =>
    exact .bind .advanceAny fun _ _ _ _ =>
      .bind (ready.namedMember (he.mono (by omega)) false) fun _ _ _ h => .pure fun _ => h
  case h_2 => exact .bind (ready.optionalMember he) fun _ _ _ h => .pure fun _ => h
  case h_3 =>
    exact .bind (ready.indexedMember he false (.allowIn ready.expression)) fun _ _ _ h =>
      .pure fun _ => h
  case h_4 => exact .bind (ready.callOf he false (Nat.le_refl n')) fun _ _ _ h => .pure fun _ => h
  case h_5 =>
    refine .bind ready.typeArgumentsOfCall fun called _ _ _ => .ite (fun _ => ?_) fun _ => ?_
    · exact .pure fun _ => he.mono (by omega)
    · exact .pure fun _ => he.mono (by omega)
  case h_6 =>
    exact .ite (fun _ => .pure fun _ => he) fun _ => .bind .advanceAny fun _ _ _ _ =>
      .pure fun _ => he.mono (by omega)
  case h_7 | h_8 => exact .ite (fun _ => .pure fun _ => he) fun _ => .unsupported _ _
  case h_9 => exact .pure fun _ => he

theorem newBody (live : i.kindAt k ≠ .eof) : Yields i k g.newBody .expr := by
  have closed := ready.closed
  have finish {callee : Expr} {n : Nat} (lt : k < n) (hc : (SyntaxNode.expr callee).Stands i k n) :
      Lands i n (do
        let args ← if ← Parser.check .lParen then g.arguments else Pure.pure []
        return Expr.new (← Parser.spanFrom (i.tokenAt k).span) callee args) fun e n' =>
          (SyntaxNode.expr e).Stands i k n' := by
    have spanned {args : List Item} {n' : Nat} (le : n ≤ n')
        (ha : Standing i n n' (args.flatMap Item.nodes)) : Lands i n'
          (Parser.spanFrom (i.tokenAt k).span >>= fun span => Pure.pure (Expr.new span callee args))
          fun e n' => (SyntaxNode.expr e).Stands i k n' :=
      .spanFrom (by omega) (.pure fun inside => .between ready.tokens (by omega)
        (Nat.le_of_lt inside) rfl (.cons (hc.mono (by omega)) (ha.mono (by omega))))
    refine .look (.check _) fun _ => .ite (fun _ => ?_) fun _ =>
      .given (spanned (Nat.le_refl n) .nil)
    exact .bind ready.arguments fun args n' le ha => spanned le ha.2
  refine .advance closed live (.look (.check _) fun _ => .ite (fun _ => .failing _ _ _)
    fun _ => ready.head fun first n le hf => ?_)
  refine .bind (.loop (fun e n' => n ≤ n' ∧ (SyntaxNode.expr e).Stands i (k + 1) n')
    ⟨Nat.le_refl n, hf⟩ ?_) ?_ (Q := fun e n' => n ≤ n' ∧ (SyntaxNode.expr e).Stands i (k + 1) n')
  · rintro e n' le' ⟨_, he⟩
    refine .look .peekKind fun kind => ?_
    split
    · exact .bind .advanceAny fun _ _ _ _ => .bind (ready.namedMember (he.mono (by omega)) false)
        fun _ _ _ h => .pure fun _ => ⟨by omega, h⟩
    · exact .bind (ready.indexedMember he false ready.expression) fun _ _ _ h => .pure fun _ =>
        ⟨by omega, h⟩
    · exact .pure fun _ => ⟨le', he⟩
  · rintro callee n' le' ⟨_, hc⟩
    have lt := hc.lt
    exact .look (.check _) fun _ => .when (fun _ => ready.typeArguments) fun m _ =>
      finish (by omega) (hc.mono (by omega))

omit ready in
theorem updateOf {op : UpdateOp} {before : Bool} {target : Expr} {start : Span} (lt : m < k)
    (h : k < i.tokens.size → ∀ span, span = start.merge (i.tokenAt (k - 1)).span →
      (SyntaxNode.expr (.update span op before target)).Stands i m k) :
    Lands i k (Grammar.updateOf op before target start) fun e n =>
      (SyntaxNode.expr e).Stands i m n :=
  .ite (fun _ => .spanFrom (by omega) (.pure fun inside => h inside _ rfl)) fun _ => .failAt _ _ _

theorem postfixed : Yields i k g.postfixed .expr := by
  refine .bind ready.callOrMember fun e n le he => .look .peek fun token => ?_
  split
  · refine .ite (fun _ => .pure fun _ => he) fun _ => .bind .advanceAny fun _ n' le' _ => ?_
    have lt := he.lt
    exact updateOf (by omega) fun inside span same =>
      .onward ready.tokens he le' (Nat.le_of_lt inside) same fun c hc =>
        .inl (List.mem_singleton.mp hc)
  · exact .pure fun _ => he

theorem unaryBody : Yields i k g.unaryBody .expr := by
  have closed := ready.closed
  refine .here (.peekKind fun kind here => ?_)
  split
  case h_1 op found =>
    exact .advance closed (live_of_found here found) (.bind (.nested ready.unary)
      fun e n le he => .pure fun inside =>
      .ahead ready.tokens he (Nat.lt_succ_self k) (Nat.le_of_lt inside) rfl rfl)
  case h_2 =>
    split
    case h_1 op found =>
      refine .bind .advanceAny fun _ n le _ => .bind ready.unary fun e n' le' he => ?_
      have lt := he.lt
      exact updateOf (by omega) fun inside span same => .between ready.tokens (by omega)
        (Nat.le_of_lt inside) same (.one (he.mono (by omega)))
    case h_2 =>
      exact .ite (fun _ => .failing _ _ _) fun _ => .look .startsAwait fun _ =>
        .ite (fun _ => .failing _ _ _) fun _ => ready.postfixed

theorem cast : Moves i k g.cast :=
  .after .advanceAny fun _ => .eatKeyword ready.closed .stay ready.type

theorem apply {left right : Expr} (op : InfixOp) (hl : (SyntaxNode.expr left).Stands i m k)
    (hr : (SyntaxNode.expr right).Stands i p n) (le : k ≤ p) (inside : n ≤ i.tokens.size) :
    (SyntaxNode.expr (op.apply left right)).Stands i m n := by
  cases op with
  | binary op => exact .pair ready.tokens hl hr le inside rfl rfl
  | logical op => exact .pair ready.tokens hl hr le inside rfl rfl

theorem binaryBody (least : Nat) : Yields i k (g.binaryBody least) .expr := by
  refine .bind ready.unary fun first n le hf => .loop
    (fun e n' => (SyntaxNode.expr e).Stands i k n') hf fun left n' le' hl =>
    .peek fun token here => ?_
  have lt := hl.lt
  refine .ite (fun _ => ?_) fun _ => .ite (fun _ => .failing _ _ _) fun _ => ?_
  · refine .bind ready.cast fun _ m _ _ => .spanFrom (by omega) (.pure fun inside => ?_)
    exact Stands.widen ready.tokens hl (by omega) (Nat.le_of_lt inside)
  · split
    case h_1 => exact .pure fun _ => hl
    case h_2 prec op found =>
      refine .look (.look _) fun noIn => .ite (fun _ => .pure fun _ => hl) fun _ => ?_
      exact .bind .advanceAny fun _ m le'' _ => .bind (ready.binary _) fun right m' _ hr =>
        .pure fun inside => ready.apply op hl hr le'' (Nat.le_of_lt inside)

theorem conditional : Yields i k g.conditional .expr := by
  refine .bind (ready.binary 0) fun test n le ht => .eat ready.closed ?_ (.pure fun _ => ht)
  refine .bind (.allowIn ready.assignment) fun yes n₁ _ hy => .expect ready.closed
    (.bind ready.assignment fun no n₂ _ hn => .pure fun inside => ?_)
  refine .join ready.tokens ht hn (by omega) (Nat.le_of_lt inside) rfl fun c hc => ?_
  rcases List.mem_cons.mp hc with rfl | hc
  · exact .inl rfl
  · rcases List.mem_cons.mp hc with rfl | hc
    · exact .inr (.inr (hy.mono (by omega)))
    · exact .inr (.inl (List.mem_singleton.mp hc))

theorem plainAssignment : Yields i k g.plainAssignment .expr := by
  refine .bind ready.conditional fun target n le ht => .look .peekKind fun kind => ?_
  split
  · exact .pure fun _ => ht
  · refine .ite (fun _ => .failing _ _ _) fun _ => .bind .advanceAny fun _ n' le' _ =>
      .bind ready.assignment fun value m _ hv => .pure fun inside => ?_
    exact .pair ready.tokens ht hv le' (Nat.le_of_lt inside) rfl rfl

/-- A group that is not read as parameters is read again as an expression. -/
theorem assignmentBody : Yields i k g.assignmentBody .expr := by
  have whole {fn : Function} {n : Nat} (h : (SyntaxNode.function fn).Stands i k n) :
      (SyntaxNode.expr (functionExprOf fn)).Stands i k n := h.around rfl rfl
  refine .nested (.look .arrowShape fun shape => ?_)
  cases shape with
  | simple => exact .bind ready.simpleArrow fun _ _ _ h => .pure fun _ => whole h
  | group => exact .bind ready.arrow fun _ _ _ h => .pure fun _ => whole h
  | ambiguous =>
    refine .checkpoint fun s start inside c back => ?_
    have again (t : State) : ((Parser.rewind c >>= fun _ => g.plainAssignment) i t).Lands i k
        fun e n => (SyntaxNode.expr e).Stands i k n :=
      Lands.rewind ready.plainAssignment back inside
    refine Lands.attempt_at (ready.arrow s start inside) (fun fn t le lt h => ?_)
      fun t _ _ => again t
    refine Lands.look_at (.failedSince c) fun _ => ?_
    split
    · exact again t
    · exact ⟨le, lt, whole h⟩
  | async => exact .look .here fun _ => .unsupported _ _
  | none => exact ready.plainAssignment

end Grammar.Nests

end TsxPreview.Parser
