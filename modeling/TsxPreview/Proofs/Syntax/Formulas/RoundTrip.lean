import TsxPreview.Proofs.Syntax.Formulas.Parsing
import TsxPreview.Proofs.Syntax.Formulas.Spelling

/-!
A module that declares one constant is printed and read back: what is read is the same declaration,
if the value is read from its tokens and the tokens from its text. A printed formula is: the
parentheses of the printer are those that the levels of the grammar ask for.
-/

namespace TsxPreview

/-- The module `const r = e;`. -/
def Module.constant (e : Expr) : Module :=
  ⟨[.var Span.start .const [.mk (.ident ⟨"r", Span.start⟩) (some e) Span.start]], Span.start⟩

/-- The module is `const r = e;`, wherever its parts stand. -/
def Module.Declares (m : Module) (e : Expr) : Prop :=
  ∃ whole statement declarator name e', e'.Alike e ∧
    m = ⟨[.var statement .const [.mk (.ident ⟨"r", name⟩) (some e') declarator]], whole⟩

/-- Neither of an arrow function nor of a block. -/
def TokenKind.isCalm (kind : TokenKind) : Bool := !kind.isPunct .arrow && !kind.isPunct .lBrace

namespace Parser

/-! ## The tokens of a text -/

theorem Input.kindAt_ofFile {file : SourceFile} {tokens : List Token}
    (stream : TokenStream.ofFile file = ⟨tokens, .empty⟩) (n : Nat) :
    (ofFile file).kindAt n = ((tokens.map Token.kind)[n]?).getD .eof := by
  simp [ofFile, kindAt, stream]

theorem Input.shows_of_getElem? {i : Input} {kinds : List TokenKind} {m : Nat}
    (h : ∀ n < kinds.length, i.kindAt (m + n) = kinds[n]?.getD .eof) :
    i.Shows m kinds (m + kinds.length) := by
  induction kinds generalizing m with
  | nil => rfl
  | cons kind kinds ih =>
    refine ⟨h 0 (Nat.zero_lt_succ _), ?_⟩
    have := ih (m := m + 1) fun n lt => by
      have := h (n + 1) (Nat.succ_lt_succ lt)
      simpa [Nat.add_assoc, Nat.add_comm 1] using this
    simpa [Nat.add_assoc, Nat.add_comm 1] using this

/-- The tokens of a text on one line without arrow functions and blocks. -/
theorem Input.plain_ofFile {file : SourceFile} {tokens : List Token} {eof : Token}
    (stream : TokenStream.ofFile file = ⟨tokens ++ [eof], .empty⟩) (isEof : eof.kind = .eof)
    (sameLine : ∀ token ∈ tokens, token.newlineBefore = false)
    (calm : (tokens.map Token.kind).all TokenKind.isCalm = true) :
    (ofFile file).Plain ∧
      (ofFile file).Shows 0 (tokens.map Token.kind ++ [.eof]) (tokens.length + 1) := by
  have kinds (n : Nat) := kindAt_ofFile stream n
  simp only [List.map_append, List.map_cons, List.map_nil, isEof] at kinds
  have never {p : Punct} (other : ∀ kind : TokenKind, kind.isCalm = true → kind ≠ .punct p)
      (n : Nat) : (ofFile file).kindAt n ≠ .punct p := by
    rw [kinds n]
    cases here : (tokens.map Token.kind ++ [.eof])[n]? with
    | none => exact nofun
    | some kind =>
      rcases List.mem_append.mp (List.mem_of_getElem? here) with mem | mem
      · exact other kind (List.all_eq_true.mp calm kind mem)
      · rw [List.mem_singleton.mp mem]
        exact nofun
  refine ⟨⟨closed_ofFile file, fun n live => ?_, never ?_, never ?_⟩, ?_⟩
  · have inside : n < tokens.length := by
      rw [kinds n] at live
      rcases Nat.lt_or_ge n tokens.length with lt | past
      · exact lt
      · rw [List.getElem?_append_right (by simpa using past)] at live
        refine absurd ?_ live
        cases here : [TokenKind.eof][n - (tokens.map Token.kind).length]? with
        | none => rfl
        | some kind => exact List.mem_singleton.mp (List.mem_of_getElem? here)
    have found : (ofFile file).tokenAt n = tokens[n] := by
      simp [ofFile, tokenAt, stream, List.getElem?_append_left inside, inside]
    rw [found]
    exact sameLine _ (List.getElem_mem inside)
  · rintro kind calm rfl
    cases calm
  · rintro kind calm rfl
    cases calm
  · have shows : (ofFile file).Shows 0 (tokens.map Token.kind ++ [.eof]) _ :=
      shows_of_getElem? fun n _ => by rw [Nat.zero_add, kinds n]
    simpa using shows

/-! ## One declaration -/

theorem Reads.attempt {α : Type} {i : Input} {s : State} {m n : Nat} {p : Parser α} {a : α}
    (h : Reads i s m p a n) : Reads i s m (attempt p) (some a) n := by
  unfold Reads Parser.attempt
  rw [show p i _ = _ from h]

namespace Grammar

variable (g : Grammar)

/-- The rounds of `module`. -/
def moduleRound (acc : List Stmt) : Parser (Round (List Stmt) (List Stmt)) := do
  if (← atEnd) || (← tooManyErrors) then return .done acc.reverse
  if ← check .rBrace then
    report .unexpectedToken "unexpected '\x7d'"
    let _ ← advance
    return .again acc
  match ← attempt g.statement with
  | some stmt => return .again (stmt :: acc)
  | none =>
    synchronize
    return .again acc

theorem module_eq : g.module = (do
    let start ← here
    let body ← loop [] g.moduleRound
    return ⟨body, ← spanFrom start⟩) := rfl

end Grammar

/-- The tokens of `const r = e;`. -/
def constantKinds (kinds : List TokenKind) : List TokenKind :=
  .keyword .const :: .identifier "r" :: .punct .eq :: (kinds ++ [.punct .semicolon])

section

variable {i : Input} {d fuel m n : Nat} {kinds : List TokenKind} {e : Expr} {s : State}

theorem pattern_reads (plain : i.Plain) {name : String} (room : s.depth < nestingLimit)
    (word : i.kindAt m = .identifier name) :
    Reads i s m (grammar (fuel + 1)).pattern (.ident ⟨name, (i.tokenAt m).span⟩) (m + 1) := by
  show Reads i s m (grammar fuel).patternBody _ _
  refine .nested room (.bind .peekKind ?_)
  rw [word]
  exact .bind (.expectIdentifier word (plain.closed m (by simp [word]))) (.pure _)

theorem declarators_read (plain : i.Plain) (ready : s.Ready d) (room : 0 < d)
    (enough : Enough i fuel m 3)
    (value : Reader i d kinds e Printer.assignLevel 3 Grammar.assignment)
    (shows : i.Shows m (.identifier "r" :: .punct .eq :: kinds) n)
    (semicolon : i.kindAt n = .punct .semicolon) :
    ∃ e' name span, e'.Alike e ∧ Reads i s m (grammar fuel).declarators
      [.mk (.ident ⟨"r", name⟩) (some e') span] n := by
  obtain ⟨word, eq, shows⟩ := shows
  obtain _ | fuel := fuel
  · exact absurd enough (Nat.not_lt_zero _)
  have deep := ready.room
  obtain ⟨e', read, alike⟩ := value ready shows (by rw [semicolon]; decide)
    (enough.of_pos_le (show m ≤ m + 1 + 1 by omega))
  have closed : m + 1 + 1 < i.tokens.size := plain.closed (m + 1) (by simp [eq])
  have declarator : Reads i s m (grammar (fuel + 1)).declarator
      (.mk (.ident ⟨"r", (i.tokenAt m).span⟩) (some e') (i.spanTo (i.tokenAt m).span n)) n := by
    refine .bind .here (.bind (pattern_reads plain (by omega) word) ?_)
    refine .bind (.eat_none (by rw [eq]; rfl)) (.bind (a := ()) (n := m + 1) ?_ ?_)
    · exact .bind (.eat_none (by rw [eq]; rfl)) (.ite_false (by simp) (.pure _))
    · exact .bind (.bind (.eat (by rw [eq]; rfl) closed) (.ite_true rfl (.bind read (.pure _))))
        (.bind (.spanFrom _) (.pure _))
  exact ⟨e', _, _, alike, Loops.loop (.done (i.lt_size (by simp [word])) (.bind declarator
    (.bind (.eat_none (by rw [semicolon]; rfl)) (.ite_false (by simp) (.pure _)))))⟩

theorem constant_reads (plain : i.Plain) (ready : s.Ready (d + 1)) (room : 0 < d)
    (enough : Enough i fuel m 4)
    (value : Reader i d kinds e Printer.assignLevel 3 Grammar.assignment)
    (shows : i.Shows m (constantKinds kinds) n) :
    ∃ e' statement declarator name, e'.Alike e ∧ Reads i s m (grammar fuel).statement
      (.var statement .const [.mk (.ident ⟨"r", name⟩) (some e') declarator]) n := by
  obtain ⟨const, word, eq, shows⟩ := shows
  obtain ⟨p, inner, semicolon, rfl⟩ := Input.shows_append.mp shows
  obtain _ | fuel := fuel
  · exact absurd enough (Nat.not_lt_zero _)
  have deep := ready.room
  have live : i.kindAt m ≠ .eof := by simp [const]
  have deeper : State.Ready d { s with depth := s.depth + 1 } :=
    ⟨ready.noIn, ready.found, show s.depth + 1 + d ≤ nestingLimit by omega⟩
  obtain ⟨e', name, span, alike, read⟩ := declarators_read plain deeper room
    ((enough.behind (i.lt_size live) (Nat.lt_succ_self m)).of_le (by decide)) value
    (m := m + 1) (n := p) ⟨word, eq, inner⟩ semicolon
  have semi : Reads i { s with depth := s.depth + 1 } p Parser.semicolon () (p + 1) :=
    .bind (.eat (by rw [semicolon]; rfl) (plain.closed p (by simp [semicolon])))
      (.ite_true rfl (.pure _))
  have kind (start : Span) : Reads i { s with depth := s.depth + 1 } m
      ((grammar fuel).statementKind start)
      (.var · .const [.mk (.ident ⟨"r", name⟩) (some e') span]) (p + 1) := by
    refine .bind .peekKind ?_
    rw [const]
    refine .bind (.ahead 1) (.ite_false (by simp [word, TokenKind.isKeyword]) ?_)
    exact .bind (.advance (plain.closed m live)) (.bind read (.bind semi (.pure _)))
  refine ⟨e', i.spanTo (i.tokenAt m).span (p + 1), span, name, alike, ?_⟩
  show Reads i s m (grammar fuel).statementBody _ _
  refine .nested (by omega) (.bind .here (.bind .peekKind ?_))
  rw [const]
  exact .ite_false (by simp [TokenKind.isKeyword]) (.bind (kind _) (.bind (.spanFrom _) (.pure _)))

/-- A file of one statement. -/
theorem module_one {stmt : Stmt} {g : Grammar} (found : s.found = .empty)
    (front : (i.kindAt 0).isEof = false) (noBrace : (i.kindAt 0).isPunct .rBrace = false)
    (moved : 0 < n) (eof : i.kindAt n = .eof) (inside : n < i.tokens.size)
    (read : Reads i s 0 g.statement stmt n) :
    Reads i s 0 g.module ⟨[stmt], i.spanTo (i.tokenAt 0).span n⟩ n := by
  have calm {m : Nat} : Reads i s m tooManyErrors false m := by
    show Parser.Outcome.parsed s.found.saturated _ = _
    rw [found]
    rfl
  have first : Reads i s 0 (g.moduleRound []) (.again [stmt]) n :=
    .bind .atEnd (.bind calm (.ite_false (by simp [front]) (.bind (.check _)
      (.ite_false (by simp [noBrace]) (.bind read.attempt (.pure _))))))
  have last : Reads i s n (g.moduleRound [stmt]) (.done [stmt]) n :=
    .bind .atEnd (.bind calm (.ite_true (by simp [eof, TokenKind.isEof]) (.pure _)))
  rw [Grammar.module_eq]
  exact .bind .here (.bind (Loops.again (by omega) first moved (.done inside last)).loop
    (.bind (.spanFrom _) (.pure _)))

theorem module_reads (plain : i.Plain) (ready : s.Ready (d + 1)) (room : 0 < d)
    (enough : Enough i fuel 0 4)
    (value : Reader i d kinds e Printer.assignLevel 3 Grammar.assignment)
    (shows : i.Shows 0 (constantKinds kinds ++ [.eof]) (n + 1)) (inside : n < i.tokens.size) :
    ∃ m : Module, m.Declares e ∧ Reads i s 0 (grammar fuel).module m n := by
  obtain ⟨p, inner, eof, same⟩ := Input.shows_append.mp shows
  obtain rfl : p = n := Nat.succ.inj same
  obtain ⟨e', statement, declarator, name, alike, read⟩ := constant_reads plain ready room enough
    value inner
  have start : i.kindAt 0 = .keyword .const := shows.1
  have moved : 0 < p := by
    have := inner.le
    simp only [constantKinds, List.length_cons] at this
    omega
  exact ⟨_, ⟨i.spanTo (i.tokenAt 0).span p, statement, declarator, name, e', alike, rfl⟩,
    module_one ready.found (by rw [start]; rfl) (by rw [start]; rfl) moved eof inside read⟩

end

end Parser

open TsxPreview.Parser

/-! ## Text -/

theorem Module.toList_print_constant (e : Expr) : (Module.constant e).print.toList =
    Keyword.const.text.toList ++ ' ' :: ("r".toList ++ ' ' :: (['='] ++
      ' ' :: ((Printer.place (Printer.level e < Printer.assignLevel) (Printer.expr 0 e)).toList ++
        [';']))) ++ ['\n'] := by
  simp [Module.print, Module.constant, Printer.stmts, Printer.stmt, Printer.declarators,
    Printer.commas, Printer.margin, Printer.pattern, Printer.fallback, Printer.atLeast_eq,
    VarKind.text, Keyword.text]

theorem Parsed.ofFile_of_reads {file : SourceFile} {tokens : List Token} {m : Module} {n : Nat}
    (stream : TokenStream.ofFile file = ⟨tokens, .empty⟩)
    (read : Reads (Input.ofFile file) State.initial 0
      (grammar (fuelFor (Input.ofFile file).tokens)).module m n) :
    Parsed.ofFile file = ⟨some m, .empty⟩ := by
  have parsed : parseTokens ⟨file, (TokenStream.ofFile file).tokens.toArray⟩
      = .parsed m { State.initial with pos := n } := read
  unfold Parsed.ofFile
  dsimp only
  rw [parsed, stream]
  rfl

/-- The text of a constant is read as a constant with the value that is read from the tokens of the
printed value. -/
theorem Parsed.ofFile_constant {e e' : Expr} {kinds : List TokenKind} {d : Nat} (path : String)
    (spelled : Lexer.ReadAs
      (Printer.place (Printer.level e < Printer.assignLevel) (Printer.expr 0 e)).toList kinds
      [';', '\n'])
    (calm : kinds.all TokenKind.isCalm = true) (shallow : d + 1 < nestingLimit)
    (value : ∀ i : Input, i.Plain →
      Reader i (d + 1) kinds e' Printer.assignLevel 3 Grammar.assignment) :
    ∃ m, Parsed.ofFile ⟨path, (Module.constant e).print⟩ = ⟨some m, .empty⟩ ∧ m.Declares e' := by
  have name : Lexer.isWord "r" = true := rfl
  have text : Lexer.ReadAs _ (constantKinds kinds) ['\n'] :=
    .cons (.keyword (k := .const) rfl) (.space (.cons (.word name rfl)
      (.spaced (.punct (p := .eq) rfl rfl) (.append spelled (.solid (p := .semicolon) rfl)))))
  obtain ⟨tokens, eof, stream, kindsEq, sameLine, isEof⟩ := TokenStream.ofFile_of_scans path
    (text 0 .root []) (Module.toList_print_constant e) (.inr rfl)
  obtain ⟨plain, shows⟩ := Input.plain_ofFile stream isEof sameLine (by
    rw [kindsEq]
    simpa [constantKinds] using ⟨rfl, rfl, rfl, by simpa using calm, rfl⟩)
  rw [kindsEq] at shows
  have size : (Input.ofFile ⟨path, (Module.constant e).print⟩).tokens.size = tokens.length + 1 := by
    simp [Input.ofFile, stream]
  have ready : State.initial.Ready (d + 1 + 1) :=
    ⟨rfl, rfl, by show 0 + (d + 1 + 1) ≤ nestingLimit; omega⟩
  have enough : Enough (Input.ofFile ⟨path, (Module.constant e).print⟩)
      (fuelFor (Input.ofFile ⟨path, (Module.constant e).print⟩).tokens) 0 4 := by
    unfold Enough fuelFor
    omega
  obtain ⟨m, declares, read⟩ := module_reads plain ready (Nat.succ_pos d) enough (value _ plain)
    shows (by omega)
  exact ⟨m, Parsed.ofFile_of_reads stream read, declares⟩

end TsxPreview

namespace TsxPreview

/-! ## Heights -/

/-- A node is higher than its parts. -/
theorem SyntaxNode.Height.of_mem {n : Nat} {x c : SyntaxNode} (h : x.Height (fun _ => 0) n)
    (mem : c ∈ x.children) : ∃ k, n = k + 1 ∧ c.Height (fun _ => 0) k := by
  cases h with
  | last none =>
    rw [List.drop_zero] at none
    rw [none] at mem
    cases mem
  | step _ down => exact ⟨_, rfl, down c mem⟩

theorem SyntaxNode.Height.of_children {n : Nat} {x : SyntaxNode}
    (h : ∀ c ∈ x.children, c.Height (fun _ => 0) n) : x.Height (fun _ => 0) (n + 1) :=
  .step (fun _ hc => nomatch hc) h

theorem Item.mem_callNodes {a : Item} {callee e : Expr} {args : List Item} (mem : a ∈ args)
    (value : a.value? = some e) : .expr e ∈ .expr callee :: args.flatMap Item.nodes := by
  refine .tail _ (List.mem_flatMap.mpr ⟨a, mem, ?_⟩)
  cases a <;> cases value <;> exact .head _

namespace Parser

/-- The levels of expressions. -/
theorem level_mem (e : Expr) :
    Printer.level e ∈ [1, 2, 3, 4, 5, 9, 10, 12, 13, 14, 15, 16, 18, 20] := by
  have values : Printer.primaryLevel = 20 ∧ Printer.callLevel = 18 ∧ Printer.postfixLevel = 16 ∧
      Printer.unaryLevel = 15 ∧ Printer.conditionalLevel = 3 ∧ Printer.assignLevel = 2 ∧
      Printer.sequenceLevel = 1 := by decide
  cases e with
  | binary _ op => cases op <;> simp [Printer.level, Printer.binaryLevel]
  | logical _ op =>
    cases op <;> simp [Printer.level, Printer.logicalLevel, Printer.nullishLevel, Printer.andLevel]
  | update _ _ before => cases before <;> simp [Printer.level, values]
  | function _ fn =>
    rw [Printer.level]
    split <;> simp [values]
  | _ => simp [Printer.level, values]

/-- There are gaps between the levels. -/
theorem levelOf_succ_le {e : Expr} {prec : Nat} (lt : levelOf prec < Printer.level e) :
    levelOf (prec + 1) ≤ Printer.level e := by
  have table : ∀ level ∈ [1, 2, 3, 4, 5, 9, 10, 12, 13, 14, 15, 16, 18, 20], ∀ a < 9,
      levelOf a < level → levelOf (min (a + 1) 8) ≤ level := by decide
  rw [levelOf_min] at lt ⊢
  have same : min (prec + 1) 8 = min (min prec 8 + 1) 8 := by omega
  rw [same]
  exact table _ (level_mem e) _ (by omega) lt

/-- A right operand without parentheses binds as tightly as the operator asks for. -/
theorem levelOf_rightLevel_le {op : InfixOp} {prec : Nat} {e : Expr}
    (level : levelOf prec = op.level) (bare : op.groupsRight e = false) :
    levelOf (op.rightLevel prec) ≤ Printer.level e := by
  obtain ⟨le, lt⟩ := InfixOp.level_le_right bare
  unfold InfixOp.rightLevel
  split
  · exact Nat.le_trans (Nat.le_of_eq level) le
  · rename_i other
    exact levelOf_succ_le (by rw [level]; exact lt other)

/-- What binds tighter than a call is primary. -/
theorem primaryLevel_le {e : Expr} (lt : Printer.callLevel < Printer.level e) :
    Printer.primaryLevel ≤ Printer.level e := by
  have table : ∀ level ∈ [1, 2, 3, 4, 5, 9, 10, 12, 13, 14, 15, 16, 18, 20],
      Printer.callLevel < level → Printer.primaryLevel ≤ level := by decide
  exact table _ (level_mem e) lt

namespace Readable

variable {i : Input} {d : Nat} {e : Expr} {kinds : List TokenKind}

/-- An operand in its place is read on a level that the place allows. -/
theorem placed_of (plain : i.Plain) (h : Readable i d kinds (Printer.level e) e) {b : Bool}
    (allowed : Nat → Prop) (group : allowed Printer.primaryLevel)
    (bare : b = false → allowed (Printer.level e)) :
    ∃ level, allowed level ∧ Readable i (d + 1) (grouped b kinds) level e := by
  refine ⟨_, ?_, h.place plain b⟩
  cases b with
  | true => exact group
  | false => exact bare rfl

theorem placed (plain : i.Plain) (h : Readable i d kinds (Printer.level e) e) (least : Nat)
    (le : least ≤ Printer.primaryLevel) : ∃ level, least ≤ level ∧
      Readable i (d + 1) (grouped (decide (Printer.level e < least)) kinds) level e :=
  h.placed_of plain (least ≤ ·) le fun bare => Nat.not_lt.mp (of_decide_eq_false bare)

theorem placed_assignment (plain : i.Plain) (h : Readable i d kinds (Printer.level e) e) :
    let part := grouped (decide (Printer.level e < Printer.assignLevel)) kinds
    Opens opensFormula part ∧
      Reader i (d + 2) part e Printer.assignLevel 3 Grammar.assignment := by
  obtain ⟨level, tight, placed⟩ := h.placed plain Printer.assignLevel (by decide)
  exact ⟨placed.opens, placed.assignment tight⟩

theorem node_placed (plain : i.Plain) (op : InfixOp) {span : Span} {left right : Expr}
    {kinds' : List TokenKind} (notLess : op ≠ .binary .less)
    (hl : Readable i d kinds (Printer.level left) left)
    (hr : Readable i d kinds' (Printer.level right) right) :
    Readable i (d + 1)
      (grouped (op.groupsLeft left) kinds ++ op.kind :: grouped (op.groupsRight right) kinds')
      op.level (op.node span left right) := by
  have bound : op.level < Printer.primaryLevel := Nat.lt_trans (level_bounds op).2 (by decide)
  obtain ⟨prec, found, level, -, -⟩ := infixOp?_kind op
  obtain ⟨levelL, ⟨le, power⟩, placedL⟩ := hl.placed_of plain
    (fun level => op.level ≤ level ∧ (op = .binary .exp → op.level < level))
    ⟨Nat.le_of_lt bound, fun _ => bound⟩ InfixOp.level_le_left
  obtain ⟨levelR, tight, placedR⟩ := hr.placed_of plain
    (levelOf (op.rightLevel prec) ≤ ·) (Nat.le_trans (levelOf_le _) (by decide))
    (levelOf_rightLevel_le level)
  refine .node plain notLess placedL placedR le power fun {prec'} found' => ?_
  rw [found] at found'
  cases found'
  exact tight

end Readable

end Parser

open TsxPreview.Parser

theorem Expr.listKinds_eq (es : List Expr) : listKinds es =
    es.map fun e => grouped (decide (Printer.level e < Printer.assignLevel)) e.kinds := by
  induction es with
  | nil => rfl
  | cons e es ih => rw [listKinds, ih, List.map_cons]

/-- What is read of the elements of a sequence. -/
theorem Parser.elements_readable {i : Input} (plain : i.Plain) {d : Nat} {es : List Expr}
    (h : ∀ e ∈ es, Readable i d e.kinds (Printer.level e) e) :
    List.Forall₂ (fun part e => Reader i (d + 2) part e Printer.assignLevel 3 Grammar.assignment)
      (Expr.listKinds es) es := by
  rw [Expr.listKinds_eq, List.forall₂_map_left_iff, List.forall₂_same]
  exact fun e mem => ((h e mem).placed_assignment plain).2

/-- What is read of the arguments of a call. -/
theorem Parser.arguments_readable {i : Input} (plain : i.Plain) {d : Nat} {args : List Item}
    (full : ∀ a ∈ args, a.value?.isSome = true)
    (h : ∀ a ∈ args, ∀ e, a.value? = some e → Readable i d e.kinds (Printer.level e) e) :
    List.Forall₂ (Argument i (d + 2)) (Expr.itemKinds args) args := by
  induction args with
  | nil => exact .nil
  | cons a args ih =>
    have others := ih (fun a mem => full a (List.mem_cons_of_mem _ mem))
      fun a mem => h a (List.mem_cons_of_mem _ mem)
    have first := h a List.mem_cons_self
    cases a with
    | expr e =>
      obtain ⟨opens, read⟩ := (first e rfl).placed_assignment plain
      exact .cons (.expr opens read) others
    | spread e =>
      obtain ⟨-, read⟩ := (first e rfl).placed_assignment plain
      exact .cons (.spread plain read) others
    | hole => cases full .hole List.mem_cons_self

/-- The tokens of a formula are read as that formula. A step down opens two constructs at most: a
prefix operator or an assignment, and a group. -/
theorem Formula.readable {i : Input} (plain : i.Plain) {e : Expr} (h : Formula e) {n : Nat}
    (low : (SyntaxNode.expr e).Height (fun _ => 0) n) :
    Readable i (2 * n) e.kinds (Printer.level e) e := by
  induction h generalizing n with
  | ident h => exact .ident plain h
  | string => exact .string plain
  | bool => exact .bool plain
  | null => exact .null plain
  | @unary span op operand h ih =>
    obtain ⟨n, rfl, lower⟩ := low.of_mem (List.mem_singleton_self _)
    obtain ⟨level, tight, placed⟩ := (ih lower).placed_of plain
      (b := Printer.isSignedOperand operand || decide (Printer.level operand < Printer.unaryLevel))
      (Printer.unaryLevel ≤ ·) (by decide) fun bare => by
        simp only [Bool.or_eq_false_iff, decide_eq_false_iff_not, Nat.not_lt] at bare
        exact bare.2
    exact placed.unary_node plain tight
  | @update span op before target valid h ih =>
    obtain ⟨n, rfl, lower⟩ := low.of_mem (List.mem_singleton_self _)
    obtain ⟨level, tight, placed⟩ := (ih lower).placed_of plain
      (b := decide (Printer.level target < Printer.postfixLevel))
      (Printer.callLevel ≤ ·) (by decide) fun _ => Expr.callLevel_le_of_isTarget valid
    cases before with
    | true =>
      exact (placed.update_before plain (Nat.le_trans (by decide) tight) valid).mono (by omega)
    | false => exact (placed.update_after plain tight valid).mono (by omega)
  | @binary span op left right notLess _ _ ihl ihr =>
    obtain ⟨n, rfl, lowerL⟩ := low.of_mem (.head _)
    obtain ⟨_, eq, lowerR⟩ := low.of_mem (.tail _ (.head _))
    cases eq
    exact ((ihl lowerL).node_placed plain (.binary op) (fun h => notLess (by cases h; rfl))
      (ihr lowerR)).mono (by omega)
  | @logical span op left right _ _ ihl ihr =>
    obtain ⟨n, rfl, lowerL⟩ := low.of_mem (.head _)
    obtain ⟨_, eq, lowerR⟩ := low.of_mem (.tail _ (.head _))
    cases eq
    exact ((ihl lowerL).node_placed plain (.logical op) nofun (ihr lowerR)).mono (by omega)
  | @conditional span test yes no _ _ _ iht ihy ihn =>
    obtain ⟨n, rfl, lowerT⟩ := low.of_mem (.head _)
    obtain ⟨_, eq, lowerY⟩ := low.of_mem (.tail _ (.head _))
    cases eq
    obtain ⟨_, eq, lowerN⟩ := low.of_mem (.tail _ (.tail _ (.head _)))
    cases eq
    obtain ⟨_, tightT, test⟩ := (iht lowerT).placed plain Printer.nullishLevel (by decide)
    obtain ⟨_, tightY, yes⟩ := (ihy lowerY).placed plain Printer.assignLevel (by decide)
    obtain ⟨_, tightN, no⟩ := (ihn lowerN).placed plain Printer.assignLevel (by decide)
    exact .conditional_node plain test yes no tightT tightY tightN
  | @assign span op target value spelled valid _ _ iht ihv =>
    obtain ⟨n, rfl, lowerT⟩ := low.of_mem (.head _)
    obtain ⟨_, eq, lowerV⟩ := low.of_mem (.tail _ (.head _))
    cases eq
    obtain ⟨_, tightT, target⟩ := (iht lowerT).placed plain Printer.callLevel (by decide)
    obtain ⟨_, tightV, value⟩ := (ihv lowerV).placed plain Printer.assignLevel (by decide)
    exact .assign_node plain spelled valid target value (Nat.le_trans (by decide) tightT) tightV
  | @sequence span es two _ ih =>
    obtain _ | ⟨e, es⟩ := es
    · cases two
    obtain ⟨n, rfl, -⟩ := low.of_mem (.head _)
    have element : ∀ e' ∈ e :: es, Readable i (2 * n) e'.kinds (Printer.level e') e' := by
      intro e' mem
      obtain ⟨_, eq, lower⟩ := low.of_mem (List.mem_map_of_mem mem)
      cases eq
      exact ih e' mem lower
    obtain ⟨opens, first⟩ := (element e List.mem_cons_self).placed_assignment plain
    have more : es ≠ [] := by
      rintro rfl
      exact Nat.lt_irrefl 1 two
    have others := elements_readable plain fun e' mem => element e' (List.mem_cons_of_mem e mem)
    exact (Readable.sequence_node plain opens more first others).mono (by omega)
  | @named span object name optional word _ ih =>
    obtain ⟨n, rfl, lower⟩ := low.of_mem (.head _)
    obtain ⟨_, tight, object⟩ := (ih lower).placed plain Printer.callLevel (by decide)
    obtain ⟨opens, chain⟩ := object.chain tight
    exact (Readable.of_chain plain opens.append (chain.named plain)).mono (by omega)
  | @computed span object key optional _ _ iho ihk =>
    obtain ⟨n, rfl, lowerO⟩ := low.of_mem (.head _)
    obtain ⟨_, eq, lowerK⟩ := low.of_mem (.tail _ (.head _))
    cases eq
    obtain ⟨_, tight, object⟩ := (iho lowerO).placed plain Printer.callLevel (by decide)
    obtain ⟨opens, chain⟩ := object.chain tight
    exact (Readable.of_chain plain opens.append
      (chain.computed plain (ihk lowerK).expression)).mono (by omega)
  | @call span callee args optional _ full _ ihc iha =>
    obtain ⟨n, rfl, lowerC⟩ := low.of_mem (.head _)
    have arguments := arguments_readable plain (d := 2 * n) full fun a mem e value => by
      obtain ⟨_, eq, lower⟩ := low.of_mem (Item.mem_callNodes mem value)
      cases eq
      exact iha a mem e value lower
    obtain ⟨_, tight, callee⟩ := (ihc lowerC).placed plain Printer.callLevel (by decide)
    obtain ⟨opens, chain⟩ := callee.chain tight
    exact .of_chain plain opens.append ((chain.mono (Nat.le_succ _) (Nat.le_refl _)).call plain
      arguments)
  | @new span callee args _ full _ ihc iha =>
    obtain ⟨n, rfl, lowerC⟩ := low.of_mem (.head _)
    have arguments := arguments_readable plain (d := 2 * n) full fun a mem e value => by
      obtain ⟨_, eq, lower⟩ := low.of_mem (Item.mem_callNodes mem value)
      cases eq
      exact iha a mem e value lower
    obtain ⟨_, tight, callee⟩ := (ihc lowerC).placed_of plain
      (b := decide (Printer.level callee < Printer.callLevel + 1))
      (Printer.primaryLevel ≤ ·) (Nat.le_refl _)
      fun bare => primaryLevel_le (Nat.not_lt.mp (of_decide_eq_false bare))
    exact (callee.mono (Nat.le_succ _)).new_node plain tight arguments

/-! ## No other tokens -/

theorem calm_wordKind (name : String) : (Lexer.wordKind name).isCalm = true := by
  unfold Lexer.wordKind
  split <;> rfl

theorem calm_grouped {b : Bool} {kinds : List TokenKind}
    (h : kinds.all TokenKind.isCalm = true) : (grouped b kinds).all TokenKind.isCalm = true := by
  cases b with
  | true => simpa [grouped] using ⟨rfl, by simpa using h, rfl⟩
  | false => exact h

theorem calm_commaKinds {parts : List (List TokenKind)}
    (h : ∀ part ∈ parts, part.all TokenKind.isCalm = true) :
    (commaKinds parts).all TokenKind.isCalm = true := by
  have calm : (TokenKind.punct .comma).isCalm = true := rfl
  cases parts with
  | nil => rfl
  | cons part parts =>
    rw [commaKinds_cons, List.all_append, List.all_flatMap, h part List.mem_cons_self,
      Bool.true_and, List.all_eq_true]
    intro part mem
    rw [List.all_cons, calm, h part (List.mem_cons_of_mem _ mem)]
    rfl

theorem calm_itemKinds {args : List Item}
    (h : ∀ a ∈ args, ∀ e, a.value? = some e → e.kinds.all TokenKind.isCalm = true) :
    ∀ part ∈ Expr.itemKinds args, part.all TokenKind.isCalm = true := by
  induction args with
  | nil => exact nofun
  | cons a args ih =>
    have others := ih fun a mem => h a (List.mem_cons_of_mem _ mem)
    have first := h a List.mem_cons_self
    cases a with
    | expr e => exact List.forall_mem_cons.mpr ⟨calm_grouped (first e rfl), others⟩
    | spread e =>
      refine List.forall_mem_cons.mpr ⟨?_, others⟩
      rw [List.all_cons, calm_grouped (first e rfl)]
      rfl
    | hole => exact List.forall_mem_cons.mpr ⟨rfl, others⟩

/-- A formula has no arrow functions and no blocks. -/
theorem Formula.calm {e : Expr} (h : Formula e) : e.kinds.all TokenKind.isCalm = true := by
  have calm {p : Punct} (other : p ≠ .arrow ∧ p ≠ .lBrace) : (TokenKind.punct p).isCalm = true := by
    simp [TokenKind.isCalm, TokenKind.isPunct, other]
  induction h with
  | ident => simp [Expr.kinds, calm_wordKind]
  | string => rfl
  | bool => rfl
  | null => rfl
  | @unary span op operand _ ih =>
    have mark : op.kind.isCalm = true := by cases op <;> rfl
    simp only [Expr.kinds, List.all_cons, mark, calm_grouped ih, Bool.and_self]
  | @update span op before target _ _ ih =>
    have mark : op.kind.isCalm = true := by cases op <;> rfl
    cases before <;> simp [Expr.kinds, mark, calm_grouped ih]
  | @binary span op left right _ _ _ ihl ihr =>
    have mark : op.kind.isCalm = true := by cases op <;> rfl
    simp only [Expr.kinds, List.all_append, List.all_cons, mark, calm_grouped ihl, calm_grouped ihr,
      Bool.and_self]
  | @logical span op left right _ _ ihl ihr =>
    have mark : op.kind.isCalm = true := by cases op <;> rfl
    simp only [Expr.kinds, List.all_append, List.all_cons, mark, calm_grouped ihl, calm_grouped ihr,
      Bool.and_self]
  | conditional _ _ _ iht ihy ihn =>
    simp only [Expr.kinds, List.all_append, List.all_cons, calm, calm_grouped iht, calm_grouped ihy,
      calm_grouped ihn, Bool.and_self, ne_eq, reduceCtorEq, not_false_eq_true, and_self]
  | @assign span op target value spelled _ _ _ iht ihv =>
    have mark : op.kind.isCalm = true := by
      obtain _ | op | op := op
      · rfl
      · cases op <;> rfl
      · cases op <;> rfl
    simp only [Expr.kinds, List.all_append, List.all_cons, mark, calm_grouped iht, calm_grouped ihv,
      Bool.and_self]
  | sequence _ _ ih =>
    refine calm_commaKinds fun part mem => ?_
    rw [Expr.listKinds_eq] at mem
    obtain ⟨e, member, rfl⟩ := List.mem_map.mp mem
    exact calm_grouped (ih e member)
  | @named span object name optional _ _ ih =>
    cases optional <;> simp [Expr.kinds, Expr.keyKinds, calm_grouped ih, calm, calm_wordKind]
  | @computed span object key optional _ _ iho ihk =>
    cases optional <;> simp [Expr.kinds, Expr.keyKinds, calm_grouped iho, calm, ihk]
  | @call span callee args optional _ _ _ ihc iha =>
    have arguments := calm_grouped (b := true) (calm_commaKinds (calm_itemKinds iha))
    cases optional <;> simp [Expr.kinds, calm_grouped ihc, calm, arguments]
  | @new span callee args _ _ _ ihc iha =>
    have arguments := calm_grouped (b := true) (calm_commaKinds (calm_itemKinds iha))
    have mark : (TokenKind.keyword .new).isCalm = true := rfl
    simp only [Expr.kinds, List.all_append, List.all_cons, mark, calm_grouped ihc, arguments,
      Bool.and_self]

/-! ## Round trip -/

/-- A printed formula of at most 40 steps is read back as the same formula: the printer writes the
parentheses that the grammar asks for. -/
theorem Parsed.ofFile_formula {e : Expr} (h : Formula e)
    (low : (SyntaxNode.expr e).Height (fun _ => 0) 40) (path : String) :
    ∃ m, Parsed.ofFile ⟨path, (Module.constant e).print⟩ = ⟨some m, .empty⟩ ∧ m.Declares e := by
  have apart {level : Nat} : Lexer.Apart level [';', '\n'] := .of_mem (by simp)
  refine Parsed.ofFile_constant (d := 2 * 40 + 1) path
    (.place (fun rest apart => h.spelled 0 rest apart) fun _ => apart) (calm_grouped h.calm)
    (by decide) fun i plain => ?_
  exact ((h.readable plain low).placed_assignment plain).2

/-- Operands in parentheses beside operands that need none. -/
theorem Parsed.ofFile_formula_groups : ∃ e m,
    Formula e ∧ (SyntaxNode.expr e).Height (fun _ => 0) 40 ∧
    (Module.constant e).print = "const r = (a ?? -b) || -c ** new (f?.(...d))();\n" ∧
    Parsed.ofFile ⟨"/App.tsx", "const r = (a ?? -b) || -c ** new (f?.(...d))();\n"⟩
      = ⟨some m, .empty⟩ ∧ m.Declares e := by
  let name (text : String) : Expr := .ident Span.start text
  let e : Expr := .logical Span.start .or
    (.logical Span.start .nullish (name "a") (.unary Span.start .neg (name "b")))
    (.binary Span.start .exp (.unary Span.start .neg (name "c"))
      (.new Span.start (.call Span.start (name "f") [.spread (name "d")] true) []))
  have call : Formula (.call Span.start (name "f") [.spread (name "d")] true) := by
    refine .call (.ident (by decide)) (by decide) fun a mem value found => ?_
    obtain rfl := List.mem_singleton.mp mem
    cases found
    exact .ident (by decide)
  have formula : Formula e :=
    .logical (.logical (.ident (by decide)) (.unary (.ident (by decide))))
      (.binary nofun (.unary (.ident (by decide))) (.new call nofun nofun))
  have leaf {n : Nat} (text : String) : (SyntaxNode.expr (name text)).Height (fun _ => 0) n :=
    .last rfl nofun
  have one {n : Nat} {a : SyntaxNode} (ha : a.Height (fun _ => 0) n) :
      ∀ c ∈ [a], c.Height (fun _ => 0) n := by simp [ha]
  have both {n : Nat} {a b : SyntaxNode} (ha : a.Height (fun _ => 0) n)
      (hb : b.Height (fun _ => 0) n) : ∀ c ∈ [a, b], c.Height (fun _ => 0) n := by simp [ha, hb]
  have low : (SyntaxNode.expr e).Height (fun _ => 0) 40 :=
    .of_children (both (.of_children (both (leaf "a") (.of_children (one (leaf "b")))))
      (.of_children (both (.of_children (one (leaf "c")))
        (.of_children (one (.of_children (both (leaf "f") (leaf "d"))))))))
  have text : (Module.constant e).print
      = "const r = (a ?? -b) || -c ** new (f?.(...d))();\n" := by decide +kernel
  obtain ⟨m, read, declares⟩ := ofFile_formula formula low "/App.tsx"
  exact ⟨e, m, formula, low, text, text ▸ read, declares⟩

end TsxPreview
