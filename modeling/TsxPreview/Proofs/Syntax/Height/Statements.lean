import TsxPreview.Proofs.Syntax.Height.Expressions
import TsxPreview.Proofs.Syntax.Nesting.Statements

/-!
The readers of statements restore the state, but for a default export that they note, and what they
give is low. So is the tree of a whole file: a fixed multiple of the nesting limit bounds its height,
steps along chains not counted.
-/

namespace TsxPreview

namespace Parser

open SyntaxNode Pattern

/-- A statement that lacks only its span, a few steps higher than what is read in it. -/
abbrev MakesLow (d : Nat) (make : Grammar.Spanless) : Prop :=
  ∀ s, (SyntaxNode.stmt (make s)).Low (room d + 3)

/-! ### Imports and exports -/

namespace Gives

variable {i : Input} {d : Nat}

theorem importName : Steady i False d Parser.importName := by
  have named (isType : Bool) (imported : Ident) : Steady i False d (do
      let name ←
        if ← Parser.checkWord "as" then
          let _ ← Parser.advance
          Parser.expectIdentifier
        else if imported.name == "default" then
          Parser.failAt .unexpectedToken "'default' must be renamed with 'as'" imported.span
        else Pure.pure imported
      return if isType then none else some (ImportName.mk imported.name name)) := by
    refine look (.checkWord _) fun _ => ite (fun _ => ?_) fun _ => ite (fun _ => failing _ _ _)
      fun _ => given stay
    exact after advance fun _ => after expectIdentifier fun _ => stay
  refine look .inlineType fun isType => when (fun _ => advance) (look .peekKind fun kind => ?_)
  cases kind with
  | string s => exact after advance fun _ => given (named isType _)
  | _ => exact after expectPropertyName fun _ => named isType _

theorem importAttributes : Steady i False d Parser.importAttributes :=
  look .peek fun _ => look (.ahead _) fun _ =>
    ite (fun _ => after advance fun _ => skipGroup) fun _ => stay

theorem importSource (typeOnly : Bool) (default star : Option Ident) (named : List ImportName) :
    Steady i False d (Parser.importSource typeOnly default star named) :=
  after expectWord fun _ => after expectString fun _ => after importAttributes fun _ =>
    after semicolon fun _ => stay

theorem importBindings (typeOnly : Bool) (default : Option Ident) :
    Steady i False d (Parser.importBindings typeOnly default) := by
  refine after eat fun _ => ite (fun _ => ?_) fun _ => after eat fun _ => ite (fun _ => ?_)
    fun _ => unexpected _
  · exact after expectWord fun _ => after expectIdentifier fun _ => importSource _ _ _ _
  · exact after (commaListSteady importName) fun _ => after expect fun _ => importSource _ _ _ _

theorem importDecl : Steady i False d Parser.importDecl := by
  refine after advance fun _ => look .peekKind fun kind => ?_
  split
  · exact after advance fun _ => after semicolon fun _ => stay
  · refine look .importsTypes fun typeOnly => when (fun _ => advance) (look .peekKind fun _ =>
      ite (fun _ => ?_) fun _ => importBindings _ _)
    exact after expectIdentifier fun _ => after eat fun _ => ite (fun _ => importBindings _ _)
      fun _ => importSource _ _ _ _

theorem noteDefaultExport (span : Span) : Steady i False d (Parser.noteDefaultExport span) := by
  refine look (.look _) fun first => ?_
  cases first with
  | some first => exact reportAt _ _ _
  | none => exact fun s _ => ⟨⟨rfl, id, id, False.elim⟩, trivial⟩

theorem exportName : Steady i False d Parser.exportName := by
  have noted (isType : Bool) (name exported : Ident) : Steady i False d (do
      if exported.name == "default" then
        Parser.noteDefaultExport exported.span
      return if isType then none else some (ExportName.mk name.name exported.name)) :=
    when (fun _ => noteDefaultExport _) stay
  refine look .inlineType fun isType => when (fun _ => advance) (after expectPropertyName fun name =>
    look (.checkWord _) fun _ => ite (fun _ => ?_) fun _ => given (noted _ _ _))
  exact after advance fun _ => after expectPropertyName fun _ => noted _ _ _

/-- An export list has no parts that have a place. -/
theorem exportList : Gives i False d Parser.exportList fun decl => decl.nodes = [] := by
  refine after expect fun _ => after (commaListSteady exportName) fun _ => after expect fun _ =>
    look (.checkWord _) fun _ => ite (fun _ => ?_) fun _ => ?_
  · exact after advance fun _ => after expectString fun _ => after semicolon fun _ => pure rfl
  · exact after semicolon fun _ => pure rfl

theorem exportAll : Gives i False d Parser.exportAll fun decl => decl.nodes = [] := by
  have rest (exported : Option Ident) : Gives i False d (do
      let _ ← Parser.expectWord "from"
      let source ← Parser.expectString
      Parser.semicolon
      return ExportDecl.all source.1 source.2 (exported.map Ident.name))
      fun decl => decl.nodes = [] :=
    after expectWord fun _ => after expectString fun _ => after semicolon fun _ => pure rfl
  refine after advance fun _ => look (.checkWord _) fun _ => ite (fun _ => ?_)
    fun _ => given (rest _)
  exact after advance fun _ => after (map expectPropertyName.steady) fun _ => rest _

theorem exportTypes : Steady i False d Parser.exportTypes :=
  after advance fun _ => after skipGroup fun _ => look (.checkWord _) fun _ =>
    ite (fun _ => after advance fun _ => after expectString fun _ => semicolon) fun _ => semicolon

end Gives

namespace Grammar.KeepsLow

variable {i : Input} {d : Nat} {g : Grammar} (ready : g.KeepsLow i False)

include ready

theorem exportDefault : Gives i False d g.exportDefault fun decl =>
    AllLow (room d + 1) (decl.toList.flatMap ExportDecl.nodes) := by
  refine .after .advance fun _ => .after (.noteDefaultExport _) fun _ => .look .peekKind fun kind =>
    .ite (fun _ => ?_) fun _ => .ite (fun _ => .look .here fun _ => .unsupported _ _) fun _ =>
    .look (.ahead _) fun _ => .ite (fun _ => .look .here fun _ => .unsupported _ _) fun _ =>
    .ite (fun _ => ?_) fun _ => ?_
  · exact .bind ready.functionExpr fun _ h => .pure (.one h)
  · exact .after ready.typeDeclaration fun _ => .pure .nil
  · exact .bind ready.assignment fun _ he => .after .semicolon fun _ =>
      .pure (.one (he.mono (Nat.le_succ _)))

theorem exported : Gives i False d g.exported fun decl =>
    AllLow (room d + 1) (decl.toList.flatMap ExportDecl.nodes) := by
  have invalid : Gives i False d exported.invalid fun decl =>
      AllLow (room d + 1) (decl.toList.flatMap ExportDecl.nodes) := .unexpected _
  have bare {p : Parser ExportDecl} (h : Gives i False d p fun decl => decl.nodes = []) :
      Gives i False d (some <$> p) fun decl =>
        AllLow (room d + 1) (decl.toList.flatMap ExportDecl.nodes) :=
    .map (h.imp fun decl none => by simp [none, AllLow])
  refine .look .peekKind fun kind => ?_
  split
  case h_1 => exact ready.exportDefault
  case h_2 | h_3 | h_4 | h_5 =>
    exact .bind ready.statement fun _ hs => .pure (.one (hs.mono (Nat.le_succ _)))
  case h_6 | h_7 => exact .look .here fun _ => .unsupported _ _
  case h_8 => exact bare .exportAll
  case h_9 => exact bare .exportList
  case h_10 =>
    refine .look (.startsTypeDeclaration _) fun _ => .ite (fun _ => ?_) fun _ =>
      .look (.ahead _) fun _ => .ite (fun _ => ?_) fun _ => invalid
    · exact .after ready.typeDeclaration fun _ => .pure .nil
    · exact .after .exportTypes fun _ => .pure .nil
  case h_11 => exact invalid

theorem exportStatement :
    Gives i False d g.exportStatement fun s => (SyntaxNode.stmt s).Low (room d + 2) := by
  refine .after .advance fun _ => .bind ready.exported fun decl hd => .look (.spanFrom _) fun _ => ?_
  cases decl with
  | some decl =>
    have parts : AllLow (room d + 1) decl.nodes := by simpa using hd
    exact .pure (.of_children parts)
  | none => exact .pure (.leaf rfl)

/-! ### Declarations of variables -/

theorem declarator :
    Gives i False d g.declarator fun x => (SyntaxNode.declarator x).Low (room d + 1) :=
  .look .here fun _ => .bind ready.pattern fun _ hp => .after .eat fun _ =>
    .after ready.annotation fun _ => .bind ready.fallback fun _ hi => .look (.spanFrom _) fun _ =>
    .pure (.of_children (hp.append hi))

theorem declarators :
    Gives i False d g.declarators fun ds => AllLow (room d + 1) (ds.map .declarator) := by
  refine .loop (fun acc => AllLow (room d + 1) (acc.map .declarator)) .nil fun acc all =>
    .bind ready.declarator fun x hx => ?_
  have more : AllLow (room d + 1) ((x :: acc).map .declarator) := .cons hx all
  exact .after .eat fun _ => .ite (fun _ => .pure more) fun _ => .pure more.reverse_map

/-! ### Control flow -/

theorem condition : Gives i False d g.condition fun e => (SyntaxNode.expr e).Low (room d + 1) :=
  .after .expect fun _ => .bind ready.expression fun _ he => .after .expect fun _ => .pure he

theorem ifStatement : Gives i False d g.ifStatement (MakesLow d) := by
  refine .after .advance fun _ => .bind ready.condition fun test ht => .bind ready.statement
    fun yes hy => .after .eatKeyword fun _ => ?_
  have made {no : Option Stmt} (hn : AllLow (room d) (no.toList.map .stmt)) :
      MakesLow d (.if · test yes no) := fun _ =>
    .of_children (.cons (ht.mono (by omega)) (.cons (hy.mono (by omega)) (hn.mono (by omega))))
  refine .ite (fun _ => ?_) fun _ => .given (.pure (made .nil))
  have some : Gives i False d (some <$> g.statement)
      fun no => AllLow (room d) (no.toList.map .stmt) :=
    .map (ready.statement.imp fun _ h => .one h)
  exact .bind some fun _ hn => .pure (made hn)

theorem whileStatement : Gives i False d g.whileStatement (MakesLow d) :=
  .after .advance fun _ => .bind ready.condition fun _ ht => .bind ready.statement fun _ hb =>
    .pure fun _ => .of_children (.cons (ht.mono (by omega)) (.one (hb.mono (by omega))))

theorem forEachRest (each : ForEachKind) (kind : VarKind) {pattern : Pattern}
    (hp : AllLow (room d) pattern.nodes) :
    Gives i False d (g.forEachRest each kind pattern) (MakesLow d) :=
  .after .advance fun _ => .bind ready.assignment fun _ he => .after .expect fun _ =>
    .bind ready.statement fun _ hb => .pure fun _ =>
      .of_children ((hp.append (.cons he (.one hb))).mono (by omega))

theorem expressionUnless (stop : Punct) : Gives i False d (g.expressionUnless stop) fun e =>
    AllLow (room d + 2) (e.toList.map .expr) :=
  .look (.check _) fun _ => .ite (fun _ => .pure .nil) fun _ =>
    .map (ready.expression.imp fun _ h => .one (h.mono (by omega)))

theorem forRest {init : Option Stmt} (hi : AllLow (room d + 2) (init.toList.map .stmt)) :
    Gives i False d (g.forRest init) (MakesLow d) :=
  .after .expect fun _ => .bind (ready.expressionUnless _) fun _ ht => .after .expect fun _ =>
    .bind (ready.expressionUnless _) fun _ hu => .after .expect fun _ =>
    .bind ready.statement fun _ hb => .pure fun _ =>
      .of_children (((hi.append ht).append hu).append (.one (hb.mono (by omega))))

/-- The head of a counting loop is read again, as declarators. -/
theorem forDeclared (kind : VarKind) : Gives i False d (g.forDeclared kind) (MakesLow d) := by
  refine .look (.look _) fun mark => .look .here fun _ => .after .advance fun _ =>
    .bind ready.pattern fun pattern hp => .look .peekKind fun kind' => ?_
  split
  · exact ready.forEachRest _ _ hp
  · exact .after (.rewind mark) fun _ => .after .advance fun _ =>
      .bind (.forbidIn ready.declarators) fun _ hd => .look (.spanFrom _) fun _ =>
      ready.forRest (.one (.of_children hd))

theorem forStatement : Gives i False d g.forStatement (MakesLow d) := by
  refine .after .advance fun _ => .look (.checkWord _) fun _ => .ite (fun _ => .failing _ _ _)
    fun _ => .after .expect fun _ => .look .peekKind fun kind =>
    .ite (fun _ => ready.forRest .nil) fun _ => ?_
  split
  · exact ready.forDeclared _
  · exact .bind (.forbidIn ready.expression) fun _ he => .look .peekKind fun _ =>
      .ite (fun _ => .failing _ _ _) fun _ => ready.forRest (.one (.of_children (.one he)))

theorem caseTest (seenDefault : Bool) : Gives i False d (g.caseTest seenDefault) fun e =>
    AllLow (room d + 1) (e.toList.map .expr) := by
  have default : Gives i False d (Pure.pure none : Parser (Option Expr)) fun e =>
      AllLow (room d + 1) (e.toList.map .expr) := .pure .nil
  refine .after .eatKeyword fun _ => .ite (fun _ => .ite (fun _ => ?_) fun _ => default) fun _ => ?_
  · exact .look .previous fun _ => .after (.reportAt _ _ _) fun _ => default
  · exact .after .expectKeyword fun _ => .bind ready.expression fun _ h => .pure (.one h)

theorem switchCases : Gives i False d g.switchCases fun cases =>
    AllLow (room d + 1) (cases.flatMap SwitchCase.nodes) := by
  refine .loop (fun p => AllLow (room d + 1) (p.1.flatMap SwitchCase.nodes)) .nil fun p all =>
    .look (.check _) fun _ => .look .atEnd fun _ => .ite (fun _ => .pure all.reverse_flatMap)
    fun _ => .bind (ready.caseTest _) fun test ht => .after .expect fun _ =>
    .bind (ready.statementsUntil _) fun body hb => .look .peekKind fun _ =>
    .ite (fun _ => ?_) fun _ => ?_
  · exact .bind (Q := fun _ => False) .fail fun _ => False.elim
  · have case : AllLow (room d + 1) (SwitchCase.mk test body).nodes :=
      ht.append (hb.mono (Nat.le_succ _))
    exact .pure (case.append all)

theorem switchStatement : Gives i False d g.switchStatement (MakesLow d) :=
  .after .advance fun _ => .bind ready.condition fun _ hs => .after .expect fun _ =>
    .bind ready.switchCases fun _ hc => .after .expect fun _ => .pure fun _ =>
      .of_children ((AllLow.cons hs hc).mono (by omega))

theorem catchParameter : Gives i False d g.catchParameter fun p => AllLow (room d) (restNodes p) :=
  .after .eat fun _ => .ite (fun _ => .bind ready.pattern fun _ hp => .after ready.annotation
    fun _ => .after .expect fun _ => .pure hp) fun _ => .pure .nil

theorem tryStatement : Gives i False d g.tryStatement (MakesLow d) := by
  refine .after .advance fun start => .bind ready.block fun body hb => .after .eatKeyword fun _ => ?_
  have finish {param : Option Pattern} {handler : Option (List Stmt)}
      (hp : AllLow (room d) (restNodes param))
      (hh : AllLow (room d) ((handler.getD []).map .stmt)) : Gives i False d (do
        let finalizer ← if ← Parser.eatKeyword .finally then some <$> g.block else Pure.pure none
        if handler.isNone && finalizer.isNone then
          Parser.failAt .unexpectedToken "'try' needs a 'catch' or 'finally' block" start.span
        return (Stmt.try · body param handler finalizer)) (MakesLow d) := by
    have made {finalizer : Option (List Stmt)}
        (hf : AllLow (room d) ((finalizer.getD []).map .stmt)) :
        MakesLow d (Stmt.try · body param handler finalizer) := fun _ =>
      .of_children ((((hb.append hp).append hh).append hf).mono (by omega))
    have block : Gives i False d (some <$> g.block) fun stmts =>
        AllLow (room d) ((stmts.getD []).map .stmt) := .map ready.block
    refine .after .eatKeyword fun _ => .ite (fun _ => ?_) fun _ => .given ?_
    · exact .bind block fun _ hf => .ite (fun _ => .failing _ _ _) fun _ => .pure (made hf)
    · exact .ite (fun _ => .failing _ _ _) fun _ => .pure (made .nil)
  refine .ite (fun _ => ?_) fun _ => .given (finish .nil .nil)
  exact .bind ready.catchParameter fun param hp => .bind ready.block fun _ hh =>
    .given (finish hp hh)

theorem returnStatement : Gives i False d g.returnStatement (MakesLow d) := by
  refine .after .advance fun _ => .look .endsStatement fun _ => .ite (fun _ => ?_) fun _ => ?_
  · exact .given (.after .semicolon fun _ => .pure fun _ => .leaf rfl)
  · have some : Gives i False d (some <$> g.expression) fun e =>
        AllLow (room d + 1) (e.toList.map .expr) := .map (ready.expression.imp fun _ h => .one h)
    exact .bind some fun _ he => .after .semicolon fun _ => .pure fun _ =>
      .of_children (he.mono (by omega))

theorem throwStatement : Gives i False d g.throwStatement (MakesLow d) :=
  .after .advance fun _ => .bind ready.expression fun _ he => .after .semicolon fun _ =>
    .pure fun _ => .of_children (.one (he.mono (by omega)))

omit ready in
theorem bare {make : Spanless} (none : ∀ s, (make s).nodes = []) :
    Gives i False d (Grammar.bare make) (MakesLow d) :=
  .after .advance fun _ => .after .semicolon fun _ => .pure fun s => .leaf (none s)

theorem varStatement (kind : VarKind) (start : Span) :
    Gives i False d (g.varStatement kind start) (MakesLow d) :=
  .look (.ahead _) fun _ => .ite (fun _ => .failing _ _ _) fun _ => .after .advance fun _ =>
    .bind ready.declarators fun _ hd => .after .semicolon fun _ => .pure fun _ =>
      .of_children (hd.mono (by omega))

theorem expressionStatement : Gives i False d g.expressionStatement (MakesLow d) :=
  .bind ready.expression fun _ he => .after .semicolon fun _ => .pure fun _ =>
    .of_children (.one (he.mono (by omega)))

theorem importStatement : Gives i False d g.importStatement (MakesLow d) := by
  refine .look (.ahead _) fun _ => .ite (fun _ => ready.expressionStatement) fun _ =>
    .after .importDecl fun decl => .pure fun _ => .of_children fun x hx => ?_
  have named : ∃ id, x = .ident id := by
    simp only [SyntaxNode.children, Stmt.nodes, ImportDecl.nodes, List.mem_append, List.mem_map] at hx
    obtain (⟨id, -, rfl⟩ | ⟨id, -, rfl⟩) | ⟨id, -, rfl⟩ := hx <;> exact ⟨_, rfl⟩
  obtain ⟨id, rfl⟩ := named
  exact name id

theorem keywordStatement (word : Keyword) (start : Span) :
    Gives i False d (g.keywordStatement word start) (MakesLow d) := by
  unfold Grammar.keywordStatement
  split
  · exact ready.importStatement
  · exact ready.varStatement _ _
  · exact ready.varStatement _ _
  · exact ready.varStatement _ _
  · exact .bind ready.functionDecl fun _ hf => .pure fun _ =>
      .of_children (.one (hf.mono (by omega)))
  · exact ready.ifStatement
  · exact ready.forStatement
  · exact ready.whileStatement
  · exact ready.switchStatement
  · exact bare fun _ => rfl
  · exact bare fun _ => rfl
  · exact ready.returnStatement
  · exact ready.throwStatement
  · exact ready.tryStatement
  · exact .unsupported _ _
  · exact .unsupported _ _
  · exact .unsupported _ _
  · exact ready.expressionStatement

theorem statementKind (start : Span) : Gives i False d (g.statementKind start) (MakesLow d) := by
  refine .look .peekKind fun kind => ?_
  split
  · exact ready.keywordStatement _ _
  · exact .bind ready.block fun _ hb => .pure fun _ => .of_children (hb.mono (by omega))
  · exact .after .advance fun _ => .pure fun _ => .leaf rfl
  · refine .look (.startsTypeDeclaration _) fun _ => .ite (fun _ => ?_)
      fun _ => ready.expressionStatement
    exact .after ready.typeDeclaration fun _ => .pure fun _ => .leaf rfl
  · exact ready.expressionStatement

theorem statementBody :
    Gives i False d g.statementBody fun s => (SyntaxNode.stmt s).Low (room d) := by
  refine .nested fun free => .imp (Q := fun s => (SyntaxNode.stmt s).Low (room (d + 1) + 3)) ?_
    fun _ h => h.mono (by have := room_succ free; omega)
  refine .look .here fun _ => .look .peekKind fun _ => .ite (fun _ => ?_) fun _ => ?_
  · exact ready.exportStatement.imp fun _ h => h.mono (by omega)
  · exact .bind (ready.statementKind _) fun _ h => .look (.spanFrom _) fun _ => .pure (h _)

theorem module : Gives i False d g.module fun m => (SyntaxNode.module m).Low (room d + 1) := by
  refine .look .here fun _ => .bind (.loop (fun acc => AllLow (room d) (acc.map .stmt)) .nil
    fun acc all => ?_) (fun stmts all => ?_) (Q := fun stmts => AllLow (room d) (stmts.map .stmt))
  · refine .look .atEnd fun _ => .look .tooManyErrors fun _ => .ite (fun _ => .pure all.reverse_map)
      fun _ => .look (.check _) fun _ => .ite (fun _ => ?_) fun _ => .attempt ready.statement ?_ ?_
    · exact .after (.report _ _) fun _ => .after .advance fun _ => .pure all
    · exact fun s hs => .pure (AllLow.cons hs all)
    · exact .after .synchronize fun _ => .pure all
  · exact .look (.spanFrom _) fun _ => .pure (.of_children all)

end Grammar.KeepsLow

/-! ## Files -/

/-- The grammar restores the state and gives what is low, with any fuel. -/
theorem grammar_keepsLow {i : Input} {c : Prop}
    (noBlock : c → ∀ n, (i.kindAt n).isPunct .lBrace = false) (fuel : Nat) :
    (grammar fuel).KeepsLow i c := by
  induction fuel with
  | zero =>
    have none {α : Type} {c : Prop} {d : Nat} {Q : α → Prop} : Gives i c d outOfFuel Q :=
      fun _ _ => trivial
    exact {
      noBlock
      statement := none
      assignment := none
      binary := fun _ => none
      unary := none
      newExpr := none
      pattern := none
      element := none
      type := none
      postfixType := none
      primaryType := none }
  | succ fuel ih =>
    exact {
      noBlock
      statement := ih.weaken.statementBody
      assignment := ih.assignmentBody
      binary := ih.binaryBody
      unary := ih.unaryBody
      newExpr := ih.newBody
      pattern := ih.patternBody
      element := ih.elementBody
      type := ih.typeBody
      postfixType := ih.postfixTypeBody
      primaryType := ih.primaryTypeBody }

end Parser

end TsxPreview
