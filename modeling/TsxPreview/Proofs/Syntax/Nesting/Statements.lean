import TsxPreview.Proofs.Syntax.Nesting.Expressions
import TsxPreview.Proofs.Syntax.Termination

/-!
Spans nest. The parts of statements stand between the tokens that are taken for them, and so do
those of a whole file, so that every part of its tree lies within the part above it.
-/

namespace TsxPreview

namespace Parser

open SyntaxNode Pattern

/-- A statement that lacks only its span; its parts stand between the tokens. -/
structure Makes (i : Input) (m n : Nat) (make : Grammar.Spanless) : Prop where
  span : ∀ s, (make s).span = s
  parts : ∀ s, Standing i m n (make s).nodes

/-- The reader takes a token and gives such a statement. -/
abbrev YieldsSpanless (i : Input) (k : Nat) (p : Parser Grammar.Spanless) : Prop :=
  Lands i k p fun make n => k < n ∧ Makes i k n make

namespace Grammar.Nests

open Lands

variable {i : Input} {k m n p : Nat} {g : Grammar} (ready : g.Nests i)

include ready

/-! ### Imports -/

theorem importName : YieldsAll i k Parser.importName fun n => n.toList.map (.ident ·.name) := by
  have closed := ready.closed
  have named (isType : Bool) {imported : Ident} {m : Nat} (lt : k ≤ m)
      (hi : (SyntaxNode.ident imported).Stands i k m) : Lands i m (do
        let name ←
          if ← Parser.checkWord "as" then
            let _ ← Parser.advance
            Parser.expectIdentifier
          else if imported.name == "default" then
            Parser.failAt .unexpectedToken "'default' must be renamed with 'as'" imported.span
          else Pure.pure imported
        return if isType then none else some (ImportName.mk imported.name name)) fun n m' =>
          Standing i k m' (n.toList.map (.ident ·.name)) := by
    have given {name : Ident} {m' : Nat} (hn : (SyntaxNode.ident name).Stands i k m') :
        Standing i k m' ((if isType then none else
          some (ImportName.mk imported.name name)).toList.map (.ident ·.name)) := by
      cases isType
      · exact .one hn
      · exact .nil
    refine .look (.checkWord _) fun _ => .ite (fun _ => ?_) fun _ =>
      .ite (fun _ => .failing _ _ _) fun _ => .given (.pure fun _ => given hi)
    exact .bind .advanceAny fun _ m' _ _ => .expectIdentifier closed fun name => .pure fun inside =>
      given ((ready.name (n := m') (by omega) name).mono (by omega))
  refine .look .inlineType fun isType => .when (fun _ => .advanceAny) fun n le =>
    .peekKind fun kind here => ?_
  cases kind with
  | string s =>
    exact .advance closed (by simp [here]) (.given (.inside fun inside =>
      named isType (by omega) ((ready.name (n := n) (by omega) s).mono (by omega))))
  | _ => exact .expectPropertyName closed fun name => .inside fun inside =>
      named isType (by omega) ((ready.name (n := n) (by omega) name).mono (by omega))

omit ready in
theorem importAttributes : Moves i k Parser.importAttributes :=
  .look .peek fun _ => .look (.ahead _) fun _ =>
    .ite (fun _ => .after .advanceAny fun _ => .skipGroup) fun _ => .stay

theorem importSource (typeOnly : Bool) {default star : Option Ident} {named : List ImportName}
    (h : Standing i m k (default.toList.map .ident ++ star.toList.map .ident
      ++ named.map (.ident ·.name))) :
    Lands i k (Parser.importSource typeOnly default star named) fun d n =>
      Standing i m n d.nodes :=
  .expectWord ready.closed (.bind (.expectString ready.closed) fun _ _ _ _ =>
    .bind importAttributes fun _ _ _ _ => .bind (.semicolon ready.closed) fun _ _ _ _ =>
    .pure fun _ => h.mono (by omega))

theorem importBindings (typeOnly : Bool) {default : Option Ident}
    (h : Standing i m k (default.toList.map .ident)) (le : m ≤ k) :
    Lands i k (Parser.importBindings typeOnly default) fun d n => Standing i m n d.nodes := by
  have closed := ready.closed
  refine .eat closed ?_ (.eat closed ?_ (.ite nofun fun _ => .unexpected _))
  · refine .expectWord closed (.expectIdentifier closed fun name => .inside fun inside => ?_)
    have star := ready.name (n := k + 2) (by omega) name
    exact ready.importSource typeOnly
      (((h.mono (by omega)).append (.one (star.mono (by omega)))).append .nil)
  · refine .bind (.commaList closed fun _ => ready.importName) fun names n _ hn => .expect closed
      (ready.importSource typeOnly (((h.mono (by omega)).append .nil).append ?_))
    intro x hx
    obtain ⟨n, mem, rfl⟩ := List.mem_map.mp hx
    exact (hn _ (List.mem_flatMap.mpr ⟨some n, by simpa using mem, by simp⟩)).mono (by omega)

theorem importDecl (live : i.kindAt k ≠ .eof) :
    TakesAll i k Parser.importDecl ImportDecl.nodes := by
  have closed := ready.closed
  refine .advance closed live (Lands.imp (Q := fun d n => Standing i k n d.nodes)
    (.look .peekKind fun kind => ?_) fun _ _ le _ h => ⟨le, h⟩)
  split
  · exact .bind .advanceAny fun _ _ _ _ => .bind (.semicolon closed) fun _ _ _ _ =>
      .pure fun _ => .nil
  · refine .look .importsTypes fun typeOnly => .when (fun _ => .advanceAny) fun n le => ?_
    refine .look .peekKind fun _ => .ite (fun _ => ?_) fun _ =>
      ready.importBindings typeOnly .nil (by omega)
    refine .expectIdentifier closed fun name => .inside fun inside => ?_
    have hd : Standing i k (n + 1) [SyntaxNode.ident ⟨name, (i.tokenAt n).span⟩] :=
      .one ((ready.name (by omega) name).mono (by omega))
    exact .eat closed (ready.importBindings typeOnly (hd.mono (by omega)) (by omega))
      (ready.importSource typeOnly ((hd.append .nil).append .nil))

/-! ### Exports -/

omit ready in
theorem noteDefaultExport (span : Span) : Moves i k (Parser.noteDefaultExport span) := by
  refine .look (.look _) fun first => ?_
  cases first with
  | some first => exact .reportAt _ _ _
  | none => exact .update (q := Pure.pure ()) .stay fun _ => rfl

theorem exportName : Moves i k Parser.exportName := by
  have closed := ready.closed
  have noted {isType : Bool} {name exported : Ident} {n : Nat} : Moves i n (do
      if exported.name == "default" then
        Parser.noteDefaultExport exported.span
      return if isType then none else some (ExportName.mk name.name exported.name)) :=
    .when (fun _ => noteDefaultExport _) fun _ _ => .stay
  refine .look .inlineType fun isType => .when (fun _ => .advanceAny) fun n _ =>
    .expectPropertyName closed fun name => .look (.checkWord _) fun _ =>
    .ite (fun _ => ?_) fun _ => .given noted
  exact .after .advanceAny fun _ => .expectPropertyName closed fun _ => noted

/-- An export list has no parts that have a place. -/
theorem exportList : Lands i k Parser.exportList fun decl _ => decl.nodes = [] := by
  have closed := ready.closed
  refine .expect closed (.bind (.commaListMoves closed fun _ => ready.exportName) fun _ _ _ _ =>
    .expect closed (.look (.checkWord _) fun _ => .ite (fun _ => ?_) fun _ => ?_))
  · exact .bind .advanceAny fun _ _ _ _ => .bind (.expectString closed) fun _ _ _ _ =>
      .bind (.semicolon closed) fun _ _ _ _ => .pure fun _ => rfl
  · exact .bind (.semicolon closed) fun _ _ _ _ => .pure fun _ => rfl

theorem exportAll : Lands i k Parser.exportAll fun decl _ => decl.nodes = [] := by
  have closed := ready.closed
  have rest {exported : Option Ident} {n : Nat} : Lands i n (do
      let _ ← Parser.expectWord "from"
      let source ← Parser.expectString
      Parser.semicolon
      return ExportDecl.all source.1 source.2 (exported.map Ident.name))
      fun decl _ => decl.nodes = [] :=
    .expectWord closed (.bind (.expectString closed) fun _ _ _ _ =>
      .bind (.semicolon closed) fun _ _ _ _ => .pure fun _ => rfl)
  refine .bind .advanceAny fun _ n _ _ => .look (.checkWord _) fun _ => .ite (fun _ => ?_)
    fun _ => .given rest
  have named {n : Nat} : Moves i n (some <$> Parser.expectPropertyName) :=
    .map (Lands.propertyName closed).moves
  exact .bind .advanceAny fun _ _ _ _ => .bind named fun _ _ _ _ => rest

theorem exportTypes : Moves i k Parser.exportTypes := by
  have closed := ready.closed
  refine .after .advanceAny fun _ => .after .skipGroup fun _ => .look (.checkWord _) fun _ =>
    .ite (fun _ => ?_) fun _ => .semicolon closed
  exact .after .advanceAny fun _ => .after (.expectString closed) fun _ => .semicolon closed

theorem exportDefault :
    YieldsAll i k g.exportDefault fun decl => decl.toList.flatMap ExportDecl.nodes := by
  refine .bind .advanceAny fun token n _ _ => .bind (noteDefaultExport _) fun _ m le _ =>
    .peekKind fun kind here => ?_
  refine .ite (fun _ => ?_) fun _ => .ite (fun _ => .look .here fun _ => .unsupported _ _) fun _ =>
    .look (.ahead _) fun _ => .ite (fun _ => .look .here fun _ => .unsupported _ _) fun _ =>
    .ite (fun word => ?_) fun _ => ?_
  · exact .bind ready.functionExpr fun fn _ _ h => .pure fun _ => .one (h.mono (by omega))
  · have live : i.kindAt m ≠ .eof := here ▸ TokenKind.ne_eof word
    exact .bind (ready.typeDeclaration live) fun _ _ _ _ => .pure fun _ => .nil
  · exact .bind ready.assignment fun e _ _ he => .bind (.semicolon ready.closed) fun _ _ _ _ =>
      .pure fun _ => .one (he.mono (by omega))

theorem exported : YieldsAll i k g.exported fun decl => decl.toList.flatMap ExportDecl.nodes := by
  have invalid : YieldsAll i k exported.invalid fun decl => decl.toList.flatMap ExportDecl.nodes :=
    .unexpected _
  have bare {p : Parser ExportDecl} (h : Lands i k p fun decl _ => decl.nodes = []) :
      YieldsAll i k (some <$> p) fun decl => decl.toList.flatMap ExportDecl.nodes :=
    .map (h.imp fun decl _ _ _ none => by simp [none, Standing])
  refine .peekKind fun kind here => ?_
  split
  case h_1 => exact ready.exportDefault
  case h_2 | h_3 | h_4 | h_5 =>
    exact .bind ready.statement fun s _ _ hs => .pure fun _ => .one hs
  case h_6 | h_7 => exact .look .here fun _ => .unsupported _ _
  case h_8 => exact bare ready.exportAll
  case h_9 => exact bare ready.exportList
  case h_10 =>
    refine .look (.startsTypeDeclaration _) fun _ => .ite (fun _ => ?_) fun _ =>
      .look (.ahead _) fun _ => .ite (fun _ => ?_) fun _ => invalid
    · exact .bind (ready.typeDeclaration (by simp [here])) fun _ _ _ _ => .pure fun _ => .nil
    · exact .bind ready.exportTypes fun _ _ _ _ => .pure fun _ => .nil
  case h_11 => exact invalid

theorem exportStatement (live : i.kindAt k ≠ .eof) : Yields i k g.exportStatement .stmt := by
  refine .advance ready.closed live (.bind ready.exported fun decl n le hd =>
    .spanFrom (by omega) ?_)
  cases decl with
  | some decl =>
    have parts : Standing i (k + 1) n decl.nodes := by simpa using hd
    exact .pure fun inside => .between ready.tokens (by omega) (Nat.le_of_lt inside) rfl
      (parts.mono (by omega))
  | none =>
    exact .pure fun inside => .between ready.tokens (by omega) (Nat.le_of_lt inside) rfl .nil

/-! ### Declarations of variables -/

theorem declarator : Yields i k g.declarator .declarator :=
  .here (.bind ready.pattern fun pattern _ _ hp => .bind .eatAny fun _ _ _ _ =>
    .bind ready.annotation fun _ _ _ _ => .bind ready.fallback fun init n _ hi =>
    .spanFrom (by omega) (.pure fun inside => .between ready.tokens (by omega)
      (Nat.le_of_lt inside) rfl ((hp.2.mono (by omega)).append (hi.mono (by omega)))))

theorem declarators : YieldsAll i k g.declarators (·.map .declarator) := by
  refine .loop (fun acc n => Standing i k n (acc.map .declarator)) .nil fun acc n le all =>
    .bind ready.declarator fun d m _ hd => ?_
  have more : Standing i k m ((d :: acc).map .declarator) :=
    .cons (hd.mono (by omega)) (all.mono (by omega))
  exact .eat ready.closed (.pure fun _ => more.mono (by omega)) (.pure fun _ => more.reverse_map)

/-! ### Control flow -/

theorem condition : Yields i k g.condition .expr :=
  .expect ready.closed (.bind ready.expression fun _ _ _ he =>
    .expect ready.closed (.pure fun _ => he.mono (by omega)))

theorem ifStatement (live : i.kindAt k ≠ .eof) : YieldsSpanless i k g.ifStatement := by
  refine .advance ready.closed live (.bind ready.condition fun test n₁ _ ht =>
    .bind ready.statement fun yes n₂ _ hy => ?_)
  have made {no : Option Stmt} {n : Nat} (le : n₂ ≤ n)
      (hn : Standing i n₂ n (no.toList.map .stmt)) : k < n ∧ Makes i k n (.if · test yes no) :=
    ⟨by omega, fun _ => rfl, fun _ =>
      .cons (ht.mono (by omega)) (.cons (hy.mono (by omega)) (hn.mono (by omega)))⟩
  refine .eatKeyword ready.closed ?_ (.given (.pure fun _ => made (Nat.le_refl n₂) .nil))
  have some : Lands i (n₂ + 1) (some <$> g.statement) fun no n =>
      Standing i n₂ n (no.toList.map .stmt) :=
    .map (ready.statement.imp fun _ _ _ _ h => .one (h.mono (by omega)))
  exact .bind some fun no n le hn => .pure fun _ => made (by omega) hn

theorem whileStatement (live : i.kindAt k ≠ .eof) : YieldsSpanless i k g.whileStatement :=
  .advance ready.closed live (.bind ready.condition fun _ _ _ ht => .bind ready.statement
    fun _ _ _ hb => .pure fun _ =>
      ⟨by omega, fun _ => rfl, fun _ => .cons (ht.mono (by omega)) (.one (hb.mono (by omega)))⟩)

theorem forEachRest (each : ForEachKind) (kind : VarKind) {pattern : Pattern} (lt : m < k)
    (hp : Standing i m k pattern.nodes) :
    Lands i k (g.forEachRest each kind pattern) fun make n => m < n ∧ Makes i m n make :=
  .bind .advanceAny fun _ _ _ _ => .bind ready.assignment fun _ _ _ he =>
    .expect ready.closed (.bind ready.statement fun _ _ _ hb => .pure fun _ =>
      ⟨by omega, fun _ => rfl, fun _ =>
        (hp.mono (by omega)).append (.cons (he.mono (by omega)) (.one (hb.mono (by omega))))⟩)

theorem expressionUnless (stop : Punct) :
    YieldsAll i k (g.expressionUnless stop) fun e => e.toList.map .expr :=
  .look (.check _) fun _ => .ite (fun _ => .pure fun _ => .nil) fun _ =>
    .map (ready.expression.imp fun _ _ _ _ h => .one h)

theorem forRest {init : Option Stmt} (lt : m < k) (hi : Standing i m k (init.toList.map .stmt)) :
    Lands i k (g.forRest init) fun make n => m < n ∧ Makes i m n make :=
  .expect ready.closed (.bind (ready.expressionUnless _) fun _ _ _ ht =>
    .expect ready.closed (.bind (ready.expressionUnless _) fun _ _ _ hu =>
    .expect ready.closed (.bind ready.statement fun _ _ _ hb => .pure fun _ =>
      ⟨by omega, fun _ => rfl, fun _ =>
        (((hi.mono (by omega)).append (ht.mono (by omega))).append (hu.mono (by omega))).append
          (.one (hb.mono (by omega)))⟩)))

/-- The head of a counting loop is read again, as declarators. -/
theorem forDeclared (kind : VarKind) (lt : m < k) (live : i.kindAt k ≠ .eof) :
    Lands i k (g.forDeclared kind) fun make n => m < n ∧ Makes i m n make := by
  refine .checkpoint fun s start inside c back => ?_
  obtain rfl := start
  have counted : Lands i s.pos (do
      let _ ← Parser.advance
      let declarators ← Parser.forbidIn g.declarators
      g.forRest (some (.var (← Parser.spanFrom (i.tokenAt s.pos).span) kind declarators)))
        fun make n => m < n ∧ Makes i m n make := by
    refine .advance ready.closed live (.bind (.forbidIn ready.declarators) fun ds n le hd =>
      .spanFrom (by omega) (.inside fun inside => ready.forRest (by omega) (.one ?_)))
    have declared {span : Span} (same : span = _) :
        (SyntaxNode.stmt (.var span kind ds)).Stands i s.pos n :=
      .between ready.tokens (by omega) (Nat.le_of_lt inside) same (hd.mono (by omega))
    exact (declared rfl).mono (by omega)
  refine Lands.here_at (Lands.bind_at (Lands.advanceAny s rfl inside) fun _ t le lt' _ => ?_)
  refine Lands.bind_at ((ready.pattern t rfl lt').mono le fun _ _ _ _ h => h)
    fun pattern u le' lt'' hp => Lands.look_at .peekKind fun kind' => ?_
  cases forEachKind? kind' with
  | some each =>
    have rest := ready.forEachRest each kind (k := u.pos) (m := m) (by omega) (hp.2.mono (by omega))
    exact (rest u rfl lt'').mono le' fun _ _ _ _ h => h
  | none => exact Lands.rewind counted back inside

theorem forStatement (live : i.kindAt k ≠ .eof) : YieldsSpanless i k g.forStatement := by
  have closed := ready.closed
  refine .advance closed live (.look (.checkWord _) fun _ => .ite (fun _ => .failing _ _ _) fun _ =>
    .expect closed (.peekKind fun kind here => ?_))
  refine .ite (fun _ => ready.forRest (by omega) .nil) fun _ => ?_
  split
  case h_1 found => exact ready.forDeclared _ (by omega) (live_of_found here found)
  case h_2 =>
    refine .bind (.forbidIn ready.expression) fun e n le he => .look .peekKind fun _ =>
      .ite (fun _ => .failing _ _ _) fun _ => ready.forRest (by omega) (.one ?_)
    exact (he.mono (by omega)).around rfl rfl

theorem caseTest (seenDefault : Bool) :
    YieldsAll i k (g.caseTest seenDefault) fun e => e.toList.map .expr := by
  refine .eatKeyword ready.closed ?_ ?_
  · refine .ite (fun _ => .ite (fun _ => .look .previous fun _ => ?_) fun _ => .pure fun _ => .nil)
      nofun
    exact .bind (.reportAt _ _ _) fun _ _ _ _ => .pure fun _ => .nil
  · exact .expectKeyword ready.closed (.bind ready.expression fun _ _ _ h => .pure fun _ =>
      .one (h.mono (by omega)))

theorem switchCases : YieldsAll i k g.switchCases (·.flatMap SwitchCase.nodes) := by
  refine .loop (fun p n => Standing i k n (p.1.flatMap SwitchCase.nodes)) .nil
    fun p n le all => .look (.check _) fun _ => .look .atEnd fun _ =>
    .ite (fun _ => .pure fun _ => all.reverse_flatMap) fun _ => ?_
  refine .bind (ready.caseTest _) fun test n₁ _ ht => .expect ready.closed
    (.bind (ready.statementsUntil _) fun body n₂ _ hb => .look .peekKind fun _ =>
    .ite (fun _ => ?_) fun _ => ?_)
  · exact .bind (Q := fun _ _ => False) .fail fun _ _ _ => False.elim
  · exact .pure fun _ => all.push (a := SwitchCase.mk test body) (p := n)
      ((ht.mono (by omega)).append (hb.mono (by omega))) (by omega)

theorem switchStatement (live : i.kindAt k ≠ .eof) : YieldsSpanless i k g.switchStatement :=
  .advance ready.closed live (.bind ready.condition fun _ _ _ hs => .expect ready.closed
    (.bind ready.switchCases fun _ _ _ hc => .expect ready.closed (.pure fun _ =>
      ⟨by omega, fun _ => rfl, fun _ => .cons (hs.mono (by omega)) (hc.mono (by omega))⟩)))

theorem catchParameter : YieldsAll i k g.catchParameter restNodes :=
  .eat ready.closed (.bind ready.pattern fun _ _ _ hp => .bind ready.annotation fun _ _ _ _ =>
    .expect ready.closed (.pure fun _ => hp.2.mono (by omega))) (.pure fun _ => .nil)

theorem tryStatement (live : i.kindAt k ≠ .eof) : YieldsSpanless i k g.tryStatement := by
  have closed := ready.closed
  refine .advance closed live (.bind ready.block fun body n₁ le₁ hb => ?_)
  have finish {param : Option Pattern} {handler : Option (List Stmt)} {n : Nat} (le : n₁ ≤ n)
      (hp : Standing i k n (restNodes param))
      (hh : Standing i k n ((handler.getD []).map .stmt)) : Lands i n (do
        let finalizer ← if ← Parser.eatKeyword .finally then some <$> g.block else Pure.pure none
        if handler.isNone && finalizer.isNone then
          Parser.failAt .unexpectedToken "'try' needs a 'catch' or 'finally' block"
            (i.tokenAt k).span
        return (Stmt.try · body param handler finalizer)) fun make m =>
          k < m ∧ Makes i k m make := by
    have made {finalizer : Option (List Stmt)} {m : Nat} (le : n ≤ m)
        (hf : Standing i n m ((finalizer.getD []).map .stmt)) :
        k < m ∧ Makes i k m (Stmt.try · body param handler finalizer) :=
      ⟨by omega, fun _ => rfl, fun _ =>
        (((hb.2.mono (by omega)).append (hp.mono (by omega))).append (hh.mono (by omega))).append
          (hf.mono (by omega))⟩
    have block : Lands i (n + 1) (some <$> g.block) fun stmts m =>
        Standing i n m ((stmts.getD []).map .stmt) :=
      .map (ready.block.imp fun _ _ _ _ h => h.2.mono (by omega))
    refine .eatKeyword closed ?_ ?_
    · exact .bind block fun _ m le hf => .ite (fun _ => .failing _ _ _) fun _ => .pure fun _ =>
        made (by omega) hf
    · exact .given (.ite (fun _ => .failing _ _ _) fun _ => .pure fun _ =>
        made (Nat.le_refl n) .nil)
  refine .eatKeyword closed ?_ (.given (finish (Nat.le_refl n₁) .nil .nil))
  exact .bind ready.catchParameter fun param n₂ _ hp => .bind ready.block fun stmts n₃ _ hh =>
    .given (finish (by omega) (hp.mono (by omega)) (hh.2.mono (by omega)))

theorem returnStatement (live : i.kindAt k ≠ .eof) : YieldsSpanless i k g.returnStatement := by
  have closed := ready.closed
  refine .advance closed live (.look .endsStatement fun _ => .ite (fun _ => ?_) fun _ => ?_)
  · exact .given (.bind (.semicolon closed) fun _ _ _ _ => .pure fun _ =>
      ⟨by omega, fun _ => rfl, fun _ => .nil⟩)
  · have some : YieldsAll i (k + 1) (some <$> g.expression) fun e => e.toList.map .expr :=
      .map (ready.expression.imp fun _ _ _ _ h => .one h)
    exact .bind some fun _ _ _ he => .bind (.semicolon closed) fun _ _ _ _ => .pure fun _ =>
      ⟨by omega, fun _ => rfl, fun _ => he.mono (by omega)⟩

theorem throwStatement (live : i.kindAt k ≠ .eof) : YieldsSpanless i k g.throwStatement :=
  .advance ready.closed live (.bind ready.expression fun _ _ _ he =>
    .bind (.semicolon ready.closed) fun _ _ _ _ => .pure fun _ =>
      ⟨by omega, fun _ => rfl, fun _ => .one (he.mono (by omega))⟩)

theorem bare {make : Spanless} (live : i.kindAt k ≠ .eof) (span : ∀ s, (make s).span = s)
    (none : ∀ s, (make s).nodes = []) : YieldsSpanless i k (Grammar.bare make) :=
  .advance ready.closed live (.bind (.semicolon ready.closed) fun _ _ _ _ => .pure fun _ =>
    ⟨by omega, span, fun s => none s ▸ .nil⟩)

theorem varStatement (kind : VarKind) (start : Span) (live : i.kindAt k ≠ .eof) :
    YieldsSpanless i k (g.varStatement kind start) :=
  .look (.ahead _) fun _ => .ite (fun _ => .failing _ _ _) fun _ =>
    .advance ready.closed live (.bind ready.declarators fun _ _ _ hd =>
    .bind (.semicolon ready.closed) fun _ _ _ _ => .pure fun _ =>
      ⟨by omega, fun _ => rfl, fun _ => hd.mono (by omega)⟩)

theorem expressionStatement : YieldsSpanless i k g.expressionStatement :=
  .bind ready.expression fun _ _ _ he => .bind (.semicolon ready.closed) fun _ _ _ _ =>
    .pure fun _ =>
      ⟨Nat.lt_of_lt_of_le he.lt (by omega), fun _ => rfl, fun _ => .one (he.mono (by omega))⟩

theorem importStatement (live : i.kindAt k ≠ .eof) : YieldsSpanless i k g.importStatement :=
  .look (.ahead _) fun _ => .ite (fun _ => ready.expressionStatement) fun _ =>
    .bind (ready.importDecl live) fun _ _ _ hd => .pure fun _ =>
      ⟨hd.1, fun _ => rfl, fun _ => hd.2⟩

theorem keywordStatement (word : Keyword) (start : Span) (live : i.kindAt k ≠ .eof) :
    YieldsSpanless i k (g.keywordStatement word start) := by
  unfold Grammar.keywordStatement
  split
  · exact ready.importStatement live
  · exact ready.varStatement _ _ live
  · exact ready.varStatement _ _ live
  · exact ready.varStatement _ _ live
  · exact .bind ready.functionDecl fun _ _ _ hf => .pure fun _ =>
      ⟨hf.lt, fun _ => rfl, fun _ => .one hf⟩
  · exact ready.ifStatement live
  · exact ready.forStatement live
  · exact ready.whileStatement live
  · exact ready.switchStatement live
  · exact ready.bare live (fun _ => rfl) fun _ => rfl
  · exact ready.bare live (fun _ => rfl) fun _ => rfl
  · exact ready.returnStatement live
  · exact ready.throwStatement live
  · exact ready.tryStatement live
  · exact .unsupported _ _
  · exact .unsupported _ _
  · exact .unsupported _ _
  · exact ready.expressionStatement

theorem statementKind (start : Span) : YieldsSpanless i k (g.statementKind start) := by
  have empty {n : Nat} (lt : k < n) : k < n ∧ Makes i k n (.empty ·) :=
    ⟨lt, fun _ => rfl, fun _ => .nil⟩
  refine .peekKind fun kind here => ?_
  split
  · exact ready.keywordStatement _ _ (by simp [here])
  · exact .bind ready.block fun _ _ _ hb => .pure fun _ =>
      ⟨hb.1, fun _ => rfl, fun _ => hb.2⟩
  · exact .advance ready.closed (by simp [here]) (.pure fun _ => empty (Nat.lt_succ_self k))
  · refine .look (.startsTypeDeclaration _) fun _ => .ite (fun _ => ?_)
      fun _ => ready.expressionStatement
    exact .bind (ready.typeDeclaration (by simp [here])) fun _ _ _ lt => .pure fun _ => empty lt
  · exact ready.expressionStatement

theorem statementBody : Yields i k g.statementBody .stmt := by
  refine .nested (.here (.peekKind fun kind here => .ite (fun word => ?_) fun _ => ?_))
  · exact ready.exportStatement (here ▸ TokenKind.ne_eof word)
  · refine .bind (ready.statementKind _) ?_
    rintro make n le ⟨lt, h⟩
    refine .spanFrom (by omega) (.pure fun inside => ?_)
    exact .between ready.tokens lt (Nat.le_of_lt inside) (h.span _) (h.parts _)

/-! ### Files -/

theorem module : Lands i 0 g.module fun m _ => (SyntaxNode.module m).Nested ∧
    m.span.lo ≤ m.span.hi ∧ ∃ n < i.tokens.size, m.span.hi ≤ (i.tokenAt n).span.hi := by
  have closed := ready.closed
  refine .here (.bind (.loop (fun acc n => Standing i 0 n (acc.map .stmt)) .nil
    fun acc n _ all => ?_) (fun stmts n _ all => ?_) (Q := fun stmts n =>
      Standing i 0 n (stmts.map .stmt)))
  · refine .look .atEnd fun _ => .look .tooManyErrors fun _ =>
      .ite (fun _ => .pure fun _ => all.reverse_map) fun _ => .look (.check _) fun _ =>
      .ite (fun _ => ?_) fun _ => .attempt ready.statement ?_ ?_
    · exact .bind (.report _ _) fun _ _ _ _ => .bind .advanceAny fun _ _ _ _ =>
        .pure fun _ => all.mono (by omega)
    · exact fun s m _ hs => .pure fun _ => Standing.cons (hs.mono (by omega)) (all.mono (by omega))
    · exact fun m _ => .bind .synchronize fun _ _ _ _ => .pure fun _ => all.mono (by omega)
  · rcases Nat.eq_zero_or_pos n with rfl | behind
    · -- nothing was taken, so that there are no statements
      have none (c : SyntaxNode) (hc : c ∈ stmts.map .stmt) : False := Nat.lt_irrefl 0 (all c hc).lt
      refine .spanFrom_zero (.pure fun inside =>
        ⟨.mk (fun c hc => (none c hc).elim) fun c hc => (none c hc).elim, ?_, 0, inside, ?_⟩)
      · exact Nat.le_trans (Nat.min_le_right _ _) (Nat.zero_le _)
      · exact Nat.max_le.mpr ⟨Nat.le_refl _, Nat.zero_le _⟩
    · refine .spanFrom behind (.pure fun inside => ?_)
      have whole : (SyntaxNode.module ⟨stmts, (i.tokenAt 0).span.merge (i.tokenAt (n - 1)).span⟩).Stands
          i 0 n := .between ready.tokens behind (Nat.le_of_lt inside) rfl all
      obtain ⟨_, last, -, -, stop, -, ordered, hi⟩ := whole.spans
      exact ⟨whole.nested, ordered, last, by omega, hi⟩

end Grammar.Nests

/-! ## Files -/

/-- What the grammar gives stands between the tokens that it takes, with any fuel. -/
theorem grammar_nests {i : Input} (closed : i.Closed) (tokens : i.Ordered) (fuel : Nat) :
    (grammar fuel).Nests i := by
  induction fuel with
  | zero =>
    have none {α : Type} {k : Nat} {Q : α → Nat → Prop} : Lands i k outOfFuel Q :=
      fun _ _ _ => trivial
    exact {
      closed, tokens
      statement := none
      assignment := none
      binary := fun _ => none
      unary := none
      newExpr := fun _ => none
      pattern := none
      element := none
      type := none
      postfixType := none
      primaryType := none }
  | succ fuel ih =>
    exact {
      closed, tokens
      statement := ih.statementBody
      assignment := ih.assignmentBody
      binary := ih.binaryBody
      unary := ih.unaryBody
      newExpr := ih.newBody
      pattern := ih.patternBody
      element := ih.elementBody
      type := ih.typeBody
      postfixType := ih.postfixTypeBody
      primaryType := ih.primaryTypeBody }

/-! ## What is read of a file -/

theorem Input.tokenAt_ofFile {file : SourceFile} {n : Nat}
    (inside : n < (TokenStream.ofFile file).tokens.length) :
    (Input.ofFile file).tokenAt n = (TokenStream.ofFile file).tokens[n] := by
  simp [tokenAt, ofFile, inside]

/-- A token of a file covers a part of its text. -/
theorem Input.covers_ofFile {file : SourceFile} {n : Nat}
    (inside : n < (TokenStream.ofFile file).tokens.length) : ∃ pre lexeme post,
      TokenStream.Covers file ((Input.ofFile file).tokenAt n).span pre lexeme post := by
  rw [tokenAt_ofFile inside]
  obtain ⟨pre, lexeme, post, covers, -⟩ := TokenStream.covers_of_tiles (TokenStream.tiles file)
    (.refl _) _ (List.getElem_mem inside)
  exact ⟨pre, lexeme, post, covers⟩

theorem Input.ordered_ofFile (file : SourceFile) : (Input.ofFile file).Ordered where
  lo_le_hi n inside := by
    obtain ⟨pre, lexeme, _, covers⟩ := covers_ofFile (n := n) inside
    rw [covers.lo, covers.hi, byteLength_append]
    exact Nat.le_add_right _ _
  hi_le_lo m n lt inside := by
    have apart := TokenStream.ordered_of_tiles (TokenStream.tiles file)
    have before : m < (TokenStream.ofFile file).tokens.length := Nat.lt_trans lt inside
    rw [tokenAt_ofFile before, tokenAt_ofFile inside]
    exact List.pairwise_iff_getElem.mp apart m n before inside lt

end Parser

namespace SyntaxNode

/-- The spans of all parts lie within the text, each within the span of the nearest part above. -/
structure SpansNest (root : SyntaxNode) (text : List Char) : Prop where
  ordered : ∀ x, root.IsPart x → x.span.lo ≤ x.span.hi
  inText : ∀ x, root.IsPart x → x.span.hi ≤ byteLength text
  inParent : ∀ x, root.IsPart x → ∀ c ∈ x.children, c.span.Inside x.span

theorem Nested.related {root : SyntaxNode} {text : List Char} (h : root.Nested)
    (ordered : root.span.lo ≤ root.span.hi) (inText : root.span.hi ≤ byteLength text) :
    root.SpansNest text := by
  have inParent (x : SyntaxNode) (part : root.IsPart x) :
      ∀ c ∈ x.children, c.span.Inside x.span := by
    obtain ⟨inside, -⟩ := part.nested h
    exact inside
  have bounds (x : SyntaxNode) (part : root.IsPart x) :
      x.span.lo ≤ x.span.hi ∧ x.span.hi ≤ byteLength text := by
    induction part with
    | root => exact ⟨ordered, inText⟩
    | child part mem ih =>
      have inside := inParent _ part _ mem
      exact ⟨inside.ordered, Nat.le_trans inside.hi ih.2⟩
  exact ⟨fun x part => (bounds x part).1, fun x part => (bounds x part).2, inParent⟩

end SyntaxNode

/-- The tree of a text without errors is what the parser gives. -/
theorem Parsed.parsed_of_accepted {file : SourceFile} {m : Module}
    (accepted : (Parsed.ofFile file).module? = some m) :
    ∃ s, Parser.parseTokens (Parser.Input.ofFile file) = .parsed m s := by
  have whole {o : Option Module} {c : Bool} (h : (if c then none else o) = some m) :
      o = some m := by
    cases c
    · exact h
    · cases h
  unfold Parsed.ofFile at accepted
  dsimp only at accepted
  split at accepted
  case h_1 tree s read =>
    cases whole accepted
    exact ⟨s, read⟩
  case h_2 | h_3 => cases whole accepted

/-- The spans of a tree nest, for every text that is read without errors. -/
theorem Parsed.spansNest {file : SourceFile} {m : Module}
    (accepted : (Parsed.ofFile file).module? = some m) :
    (SyntaxNode.module m).SpansNest file.text.toList := by
  have lands := (Parser.grammar_nests (Parser.Input.closed_ofFile file)
    (Parser.Input.ordered_ofFile file) (Parser.fuelFor (Parser.Input.ofFile file).tokens)).module
      Parser.State.initial rfl (Parser.Input.size_ofFile file)
  obtain ⟨s, read⟩ := parsed_of_accepted accepted
  rw [show (Parser.grammar _).module _ _ = _ from read] at lands
  obtain ⟨-, -, nested, ordered, n, inside, hi⟩ := lands
  obtain ⟨pre, lexeme, post, covers⟩ := Parser.Input.covers_ofFile (n := n) inside
  refine nested.related ordered (Nat.le_trans hi ?_)
  rw [covers.hi, covers.whole, byteLength_append (pre ++ lexeme)]
  exact Nat.le_add_right _ _

/-- An arrow function that gives an element, with an attribute and a sum in it. -/
theorem Parsed.spansNest_element : ∃ m,
    (Parsed.ofFile ⟨"/App.tsx", "const sum = (a, b) => <p id=\"sum\">\x7ba + b\x7d</p>;\n"⟩).module?
      = some m ∧
    (SyntaxNode.module m).SpansNest
      "const sum = (a, b) => <p id=\"sum\">\x7ba + b\x7d</p>;\n".toList := by
  have accepted : (Parsed.ofFile ⟨"/App.tsx",
      "const sum = (a, b) => <p id=\"sum\">\x7ba + b\x7d</p>;\n"⟩).module?.isSome = true := by
    decide +kernel
  obtain ⟨m, eq⟩ := Option.isSome_iff_exists.mp accepted
  exact ⟨m, eq, spansNest eq⟩

end TsxPreview
