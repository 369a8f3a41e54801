import TsxPreview.Proofs.Syntax.Formulas.RoundTrip

/-!
Templates are printed with their backticks, backslashes and openings of substitutions escaped, but
with their line breaks as they are. They are read back with line feeds, so that exactly the templates
without carriage returns are read back as they were.
-/

namespace TsxPreview

/-- A name that is no keyword. -/
def Lexer.isName (name : String) : Bool := isWord name && (Keyword.ofText? name).isNone

/-- A text with each of its line breaks as a line feed. -/
def lineFed (text : String) : String := String.ofList (Quoted.withLineFeeds text.toList)

theorem lineFed_eq_iff {text : String} : lineFed text = text ↔ '\r' ∉ text.toList := by
  rw [← Quoted.withLineFeeds_eq_iff, lineFed, ← String.toList_inj, String.toList_ofList]

/-- A template with names for its substitutions: its first text, and each name with the text behind
it. -/
structure Template where
  text : String
  parts : List (String × String)
  names : ∀ part ∈ parts, Lexer.isName part.1 = true

namespace Template

def texts (t : Template) : List String := t.text :: t.parts.map Prod.snd

def expr (t : Template) : Expr :=
  .template Span.start t.texts (t.parts.map fun part => .ident Span.start part.1)

/-- The template with line feeds for its line breaks. -/
def withLineFeeds (t : Template) : Template where
  text := lineFed t.text
  parts := t.parts.map fun part => (part.1, lineFed part.2)
  names _ mem := by
    obtain ⟨part, member, rfl⟩ := List.mem_map.mp mem
    exact t.names part member

theorem texts_withLineFeeds (t : Template) : t.withLineFeeds.texts = t.texts.map lineFed := by
  simp [texts, withLineFeeds]

/-- The tokens of a text, at the head or behind a substitution, and of what follows it. -/
def kindsFrom (head : Bool) (text : String) : List (String × String) → List TokenKind
  | [] => [if head then .templateWhole text else .templateTail text]
  | (name, next) :: parts =>
    (if head then .templateHead text else .templateMiddle text) :: .identifier name ::
      kindsFrom false next parts

/-! ## Text -/

/-- What is printed behind a text. -/
def printFrom : List (String × String) → List Char
  | [] => ['`']
  | (name, text) :: parts =>
    ['$', '\x7b'] ++ (name.toList ++ '\x7d' :: (Quoted.encodeTemplate text.toList ++ printFrom parts))

theorem toList_print (t : Template) (indent : Nat) : (Printer.expr indent t.expr).toList
    = '`' :: (Quoted.encodeTemplate t.text.toList ++ printFrom t.parts) := by
  have woven (text : String) (parts : List (String × String)) :
      (Printer.weave (text :: parts.map Prod.snd)
        (Printer.exprs indent 0 (parts.map fun part => .ident Span.start part.1))).toList ++ ['`']
        = Quoted.encodeTemplate text.toList ++ printFrom parts := by
    induction parts generalizing text with
    | nil => simp [Printer.weave, Printer.exprs, printFrom]
    | cons part parts ih =>
      obtain ⟨name, next⟩ := part
      have behind := ih next
      simp only [List.map_cons, Printer.exprs, Printer.weave, printFrom, Printer.atLeast,
        Printer.expr, Printer.braces, String.toList_append, List.append_assoc] at behind ⊢
      rw [behind]
      simp
  have whole := woven t.text t.parts
  simp only [expr, texts, Printer.expr, String.toList_append, List.append_assoc]
  exact congrArg ('`' :: ·) whole

end Template

namespace Lexer

variable {depth : Nat} {closer : Closer} {outer : List Mode} {cs rest : List Char} {s : State}

/-- What stands before a text of a template, at the head or behind a substitution. -/
def textOpener (head : Bool) : Char := if head then '`' else '\x7d'

/-- The modes before a text: a substitution is code of its own. -/
def textModes (head : Bool) (modes : List Mode) : List Mode :=
  if head then modes else .code 0 .template :: modes

theorem codeToken?_opener (head : Bool)
    (h : s.At (textModes head (.code depth closer :: outer)) (textOpener head :: cs)) :
    ∃ u : State, u.At (.code depth closer :: outer) cs ∧
      codeToken? (textOpener head) s = some (template s.cursor head (cs.length + 1) [] u) := by
  cases head with
  | true =>
    have behind : (s.skip 1).At _ cs := State.At.skip (show s.At _ (['`'] ++ cs) from h)
    have size : s.cursor.rest.length = cs.length + 1 := by
      rw [h.rest]
      rfl
    refine ⟨s.skip 1, behind, ?_⟩
    rw [← size]
    rfl
  | false =>
    have behind : (s.skip 1).At _ cs := State.At.skip (show s.At _ (['\x7d'] ++ cs) from h)
    have modes : (s.skip 1).modes = .code 0 .template :: .code depth closer :: outer := behind.modes
    have popped : (s.skip 1).popMode = { s.skip 1 with modes := .code depth closer :: outer } := by
      simp [State.popMode, modes]
    refine ⟨(s.skip 1).popMode, ?_, ?_⟩
    · rw [popped]
      exact ⟨behind.rest, rfl, behind.found, behind.sameLine⟩
    · have rest : (s.skip 1).popMode.cursor.rest = cs := by
        rw [popped]
        exact behind.rest
      have mode : s.mode = .code 0 .template := by
        rw [State.mode, show s.modes = _ from modes]
        rfl
      show some (closeBrace s) = _
      rw [closeBrace, mode, ← rest]
      rfl

theorem scans_opener (head : Bool) {kind : TokenKind} {modes : List Mode}
    (notEof : kind.isEof = false)
    (read : ∀ (start : Cursor) (u : State), u.At (.code depth closer :: outer) (cs ++ rest) →
      ∃ t : State, template start head ((cs ++ rest).length + 1) [] u = (kind, t) ∧
        t.At modes rest) :
    Scans (textModes head (.code depth closer :: outer)) (textOpener head :: cs) [kind] modes
      rest := by
  have token : ∀ s : State, s.At (textModes head (.code depth closer :: outer))
      (textOpener head :: cs ++ rest) → ∃ t : State,
        codeToken? (textOpener head) s = some (kind, t) ∧ t.At modes rest := by
    intro s start
    obtain ⟨u, here, found⟩ := codeToken?_opener head
      (show s.At _ (textOpener head :: (cs ++ rest)) from start)
    obtain ⟨t, text, stop⟩ := read s.cursor u here
    exact ⟨t, by rw [found, text], stop⟩
  cases head with
  | true =>
    exact .token (Scans.stops_of_visible (by decide) fun slash => by cases slash) notEof token
  | false =>
    exact .token (Scans.stops_of_visible (by decide) fun slash => by cases slash) notEof token

/-- The last text of a template. -/
theorem scans_last (head : Bool) (text : String) :
    Scans (textModes head (.code depth closer :: outer))
      (textOpener head :: (Quoted.encodeTemplate text.toList ++ ['`']))
      [if head then .templateWhole (lineFed text) else .templateTail (lineFed text)]
      (.code depth closer :: outer) rest := by
  refine scans_opener head (by cases head <;> rfl) fun start u here => ?_
  have short := Quoted.length_le_encodeTemplate text.toList
  refine ⟨_, template_last start head text.toList (by simpa using here.rest)
    (by simp only [List.length_append]; omega), ?_⟩
  simpa using here.skip

/-- A text of a template before a substitution. -/
theorem scans_before (head : Bool) (text : String) :
    Scans (textModes head (.code depth closer :: outer))
      (textOpener head :: (Quoted.encodeTemplate text.toList ++ ['$', '\x7b']))
      [if head then .templateHead (lineFed text) else .templateMiddle (lineFed text)]
      (.code 0 .template :: .code depth closer :: outer) rest := by
  refine scans_opener head (by cases head <;> rfl) fun start u here => ?_
  have short := Quoted.length_le_encodeTemplate text.toList
  refine ⟨_, template_before start head text.toList (by simpa using here.rest)
    (by simp only [List.length_append]; omega), ?_⟩
  have behind := here.skip
  rw [List.length_append] at behind
  exact ⟨behind.rest, congrArg _ behind.modes, behind.found, behind.sameLine⟩

open TsxPreview.Template in
theorem scans_from (head : Bool) (text : String) (parts : List (String × String))
    (names : ∀ part ∈ parts, isName part.1 = true) :
    Scans (textModes head (.code depth closer :: outer))
      (textOpener head :: (Quoted.encodeTemplate text.toList ++ printFrom parts))
      (kindsFrom head (lineFed text) (parts.map fun part => (part.1, lineFed part.2)))
      (.code depth closer :: outer) rest := by
  induction parts generalizing head text with
  | nil => exact scans_last head text
  | cons part parts ih =>
    obtain ⟨name, next⟩ := part
    have isName := names (name, next) List.mem_cons_self
    simp only [Lexer.isName, Bool.and_eq_true, Option.isNone_iff_eq_none] at isName
    have kind : wordKind name = .identifier name := by rw [wordKind, isName.2]
    have word : Scans (.code 0 .template :: .code depth closer :: outer) name.toList
        [.identifier name] (.code 0 .template :: .code depth closer :: outer)
        ('\x7d' :: (Quoted.encodeTemplate next.toList ++ printFrom parts) ++ rest) :=
      kind ▸ .word isName.1 rfl
    have behind := word.append
      (ih false next fun part mem => names part (List.mem_cons_of_mem _ mem))
    have whole := (scans_before head text).append behind
    simpa [printFrom, kindsFrom] using whole

end Lexer

theorem Template.readAs (t : Template) (indent : Nat) {rest : List Char} :
    Lexer.ReadAs (Printer.expr indent t.expr).toList
      (kindsFrom true t.withLineFeeds.text t.withLineFeeds.parts) rest := by
  rw [toList_print]
  exact fun _ _ _ => Lexer.scans_from true t.text t.parts t.names

/-! ## Tokens -/

namespace Parser

namespace Grammar

variable (g : Grammar)

/-- The rounds of `templateParts`. -/
def templateRound (acc : List String × List Expr) :
    Parser (Round (List String × List Expr) (List String × List Expr)) := do
  let exprs := (← g.expression) :: acc.2
  match ← peekKind with
  | .templateMiddle text =>
    let _ ← advance
    return .again (text :: acc.1, exprs)
  | .templateTail text =>
    let _ ← advance
    return .done ((text :: acc.1).reverse, exprs.reverse)
  | _ => unexpected fun got => s!"expected '\x7d' closing a template substitution, got '{got}'"

end Grammar

variable {i : Input} {d : Nat} {span : Span} {name : String}

theorem isIdentifier_of_pull {kind : TokenKind} (loose : pull kind < Printer.primaryLevel) :
    kind.isIdentifier = false := by
  cases kind <;> first | rfl | exact absurd loose (Nat.lt_irrefl _)

/-- Any name is read as itself, if nothing follows that it could govern: a name such as `await` has a
meaning in front of an operand only. -/
theorem name_unary (plain : i.Plain) :
    Reader i d [.identifier name] (.ident span name) Printer.unaryLevel 1 Grammar.unary := by
  have primary : Reader i d [.identifier name] (.ident span name) anything 0 Grammar.primary := by
    intro s m n fuel _ shows _ _
    obtain ⟨here, rfl⟩ := shows
    refine ⟨.ident (i.tokenAt m).span name, .bind .here (.bind .peekKind ?_), rfl⟩
    rw [here]
    exact .bind (.advance (plain.closed m (by simp [here]))) (.pure _)
  have chain := primary.carries (f := TokenKind.isIdentifier) ⟨_, [], rfl, rfl⟩ rfl
  intro s m n fuel ready shows loose enough
  obtain _ | fuel := fuel
  · exact absurd enough (Nat.not_lt_zero _)
  obtain ⟨e', read, alike⟩ := (chain.mono (Nat.le_refl d) (by decide)).postfixed ready shows
    (Nat.lt_succ_of_lt loose) enough.pred
  obtain ⟨here, rfl⟩ := shows
  have noOperand : ((i.kindAt (m + 1)).isIdentifier || (i.kindAt (m + 1)).isPunct .lParen
      || (i.kindAt (m + 1)).isKeyword .new || (i.kindAt (m + 1)).isKeyword .this) = false := by
    rw [isIdentifier_of_pull (Nat.lt_trans loose (by decide)), isPunct_of_pull loose (by decide),
      isKeyword_of_pull loose (by decide), isKeyword_of_pull loose (by decide)]
    rfl
  refine ⟨e', ?_, alike⟩
  show Reads i s m (grammar fuel).unaryBody e' _
  refine .bind .here (.bind .peekKind ?_)
  rw [here]
  refine .ite_false (by simp [TokenKind.isKeyword]) (.bind (a := false) ?_
    (.ite_false (by simp) read))
  refine .bind (.ahead 1) (.bind (.checkWord _) (.bind (.newlineAhead 1) ?_))
  rw [noOperand, Bool.and_false]
  exact .pure _

theorem name_assignment (plain : i.Plain) : Reader i (d + 1) [.identifier name] (.ident span name)
    Printer.assignLevel 3 Grammar.assignment := by
  have unary : Reader i d [.identifier name] (.ident span name) Printer.unaryLevel 1 Grammar.unary :=
    name_unary plain
  have operand := unary.operand (Nat.le_refl Printer.unaryLevel)
  intro s m n fuel ready shows loose enough
  obtain _ | fuel := fuel
  · exact absurd enough (Nat.not_lt_zero _)
  have room := ready.room
  have deeper : State.Ready d { s with depth := s.depth + 1 } :=
    ⟨ready.noIn, ready.found, show s.depth + 1 + d ≤ nestingLimit by omega⟩
  obtain ⟨e', read, alike⟩ := ((operand.conditional (by decide)).plainAssignment (by decide)) deeper
    shows loose enough.pred
  obtain ⟨here, rfl⟩ := shows
  have noArrow : ¬ ((i.kindAt (m + 1)).isPunct .arrow
      && !i.tokens[m + 1]?.any Token.newlineBefore) = true := by
    simp [TokenKind.isPunct_of_ne (plain.noArrow (m + 1))]
  have noFunction := isKeyword_of_pull (k := .function) loose (by decide)
  have noName := isIdentifier_of_pull (Nat.lt_trans loose (by decide))
  have noGroup := isPunct_of_pull (p := .lParen) loose (by decide)
  refine ⟨e', .nested (by omega) (.bind (a := .none) (.bind .peekKind ?_) read), alike⟩
  rw [here]
  refine .bind (.ahead 1) (.bind (.newlineAhead 1) ?_)
  by_cases other : (name != "async" || i.tokens[m + 1]?.any Token.newlineBefore) = true
  · exact .ite_true other (.bind (.pure false)
      (.ite_false (by simp) (.ite_false noArrow (.pure _))))
  · exact .ite_false other (.ite_false (by simp [noFunction]) (.ite_false (by simp [noName])
      (.ite_false (by simp [noGroup]) (.bind (.pure false)
        (.ite_false (by simp) (.ite_false noArrow (.pure _)))))))

/-- Each name with the text behind it is read in one round. -/
theorem template_loop {s : State} {first fuel n : Nat} (plain : i.Plain) (ready : s.Ready (d + 1))
    (enough : Enough i fuel first 3) (parts : List (String × String)) {m : Nat} (le : first ≤ m)
    (name text : String) (texts : List String) (exprs : List Expr)
    (shows : i.Shows m (.identifier name :: Template.kindsFrom false text parts) n) :
    ∃ exprs', Loops i s (grammar fuel).templateRound (texts, exprs) m
        (texts.reverse ++ text :: parts.map Prod.snd, exprs.reverse ++ exprs') n ∧
      List.Forall₂ Expr.Alike exprs'
        (.ident Span.start name :: parts.map fun part => .ident Span.start part.1) := by
  have expression {m : Nat} {name : String} (le : first ≤ m) (here : i.kindAt m = .identifier name)
      (next : pull (i.kindAt (m + 1)) < Printer.sequenceLevel) :
      ∃ e', Reads i s m (grammar fuel).expression e' (m + 1) ∧ e'.Alike (.ident Span.start name) :=
    (name_assignment plain).expression ready (n := m + 1) ⟨here, rfl⟩ next (enough.of_pos_le le)
  induction parts generalizing m name text texts exprs with
  | nil =>
    obtain ⟨here, last, rfl⟩ := shows
    rw [if_neg (by decide)] at last
    obtain ⟨e', read, alike⟩ := expression le here (by rw [last]; exact Nat.zero_lt_one)
    refine ⟨[e'], .done (i.lt_size (by simp [here])) (.bind read (.bind .peekKind ?_)),
      .cons alike .nil⟩
    rw [last]
    refine .bind (.advance (plain.closed (m + 1) (by simp [last]))) ?_
    show Reads i s _ (Pure.pure (Round.done ((text :: texts).reverse, (e' :: exprs).reverse))) _ _
    rw [List.reverse_cons, List.reverse_cons]
    exact .pure _
  | cons part parts ih =>
    obtain ⟨here, middle, others⟩ := shows
    rw [if_neg (by decide)] at middle
    obtain ⟨e', read, alike⟩ := expression le here (by rw [middle]; exact Nat.zero_lt_one)
    obtain ⟨exprs', goes, alikes⟩ := ih (m := m + 1 + 1) (by omega) part.1 part.2 (text :: texts)
      (e' :: exprs) others
    rw [List.reverse_cons, List.append_assoc, List.reverse_cons, List.append_assoc] at goes
    refine ⟨e' :: exprs', .again (i.lt_size (by simp [here])) (n := m + 1 + 1)
      (.bind read (.bind .peekKind ?_)) (by omega) goes, .cons alike alikes⟩
    rw [middle]
    exact .bind (.advance (plain.closed (m + 1) (by simp [middle]))) (.pure _)

end Parser

open TsxPreview.Parser

namespace Template

variable (t : Template)

def kinds : List TokenKind := kindsFrom true t.text t.parts

/-- The tokens of a template are read as that template. -/
theorem readable {i : Input} (plain : i.Plain) :
    Readable i 1 t.kinds Printer.primaryLevel t.expr := by
  obtain ⟨text, parts, names⟩ := t
  cases parts with
  | nil =>
    refine .leaf plain rfl fun {s m g} here inside => ?_
    refine ⟨.template (i.tokenAt m).span [text] [], .bind .here (.bind .peekKind ?_), rfl⟩
    rw [here]
    exact .bind (.advance inside) (.pure _)
  | cons part parts =>
    refine .of_primary plain ⟨_, _, rfl, rfl⟩ fun s m n fuel ready shows _ enough => ?_
    obtain ⟨here, others⟩ := shows
    have live : i.kindAt m ≠ .eof := by
      rw [here]
      exact nofun
    obtain ⟨exprs', goes, alikes⟩ := template_loop plain ready
      ((enough.succ.behind (i.lt_size live) (Nat.lt_succ_self m)).of_le (by decide)) parts
      (Nat.le_refl _) part.1 part.2 [text] [] others
    refine ⟨.template (i.spanTo (i.tokenAt m).span n) (text :: part.2 :: parts.map Prod.snd) exprs',
      .bind .here (.bind .peekKind ?_), ?_⟩
    · rw [here]
      exact .bind (.advance (plain.closed m live)) (.bind (.allowIn ready.noIn goes.loop)
        (.bind (.spanFrom _) (.pure _)))
    · simp only [Expr.Alike, Expr.withoutSpans, Template.expr, texts, List.map_cons,
        Expr.listWithoutSpans_eq alikes]

theorem calm_kinds : t.kinds.all TokenKind.isCalm = true := by
  have from_calm (head : Bool) (text : String) (parts : List (String × String)) :
      (kindsFrom head text parts).all TokenKind.isCalm = true := by
    induction parts generalizing head text with
    | nil => cases head <;> rfl
    | cons part parts ih =>
      cases head <;> simpa [kindsFrom] using ⟨rfl, rfl, by simpa using ih false part.2⟩
  exact from_calm _ _ _

end Template

theorem Module.Declares.alike {m : Module} {e e' : Expr} (h : m.Declares e) (h' : m.Declares e') :
    e.Alike e' := by
  obtain ⟨_, _, _, _, value, same, rfl⟩ := h
  obtain ⟨_, _, _, _, value', same', eq⟩ := h'
  cases eq
  exact same.symm.trans same'

/-- A printed template is read back with line feeds for its line breaks. -/
theorem Parsed.ofFile_lineFed (t : Template) (path : String) :
    ∃ m, Parsed.ofFile ⟨path, (Module.constant t.expr).print⟩ = ⟨some m, .empty⟩ ∧
      m.Declares t.withLineFeeds.expr := by
  have level : Printer.level t.expr = Printer.primaryLevel := rfl
  have bare : decide (Printer.level t.expr < Printer.assignLevel) = false := by rw [level]; decide
  refine ofFile_constant (d := 1) path (by rw [bare]; exact t.readAs 0) t.withLineFeeds.calm_kinds
    (by decide) fun i plain => ?_
  exact (t.withLineFeeds.readable plain).assignment (by decide)

/-- A printed template is read back as it was exactly if there are no carriage returns in its texts:
the lexer takes a carriage return for a line break, and the printer does not escape it. -/
theorem Parsed.ofFile_template_iff (t : Template) (path : String) :
    (∃ m, Parsed.ofFile ⟨path, (Module.constant t.expr).print⟩ = ⟨some m, .empty⟩ ∧
      m.Declares t.expr) ↔ ∀ text ∈ t.texts, '\r' ∉ text.toList := by
  obtain ⟨m, read, declares⟩ := ofFile_lineFed t path
  constructor
  · rintro ⟨m', read', declares'⟩ text mem
    obtain rfl : m = m' := by
      rw [read] at read'
      cases read'
      rfl
    have same : t.withLineFeeds.texts = t.texts := by
      have alike := declares.alike declares'
      simp only [Expr.Alike, Template.expr, Expr.withoutSpans, Expr.template.injEq] at alike
      exact alike.2.1
    rw [t.texts_withLineFeeds] at same
    exact lineFed_eq_iff.mp (List.map_inj_left.mp (same.trans (List.map_id _).symm) text mem)
  · intro clean
    have same : t.withLineFeeds.texts = t.texts := by
      rw [t.texts_withLineFeeds]
      exact (List.map_congr_left fun text mem => lineFed_eq_iff.mpr (clean text mem)).trans
        (List.map_id _)
    have expr : t.withLineFeeds.expr = t.expr := by
      rw [Template.expr, Template.expr, same]
      simp [Template.withLineFeeds]
    exact ⟨m, read, expr ▸ declares⟩

/-- A carriage return between two letters becomes a line feed. -/
theorem Parsed.ofFile_template_return :
    (Module.constant (.template Span.start ["a\rb"] [])).print = "const r = `a\rb`;\n" ∧
      ∃ m, Parsed.ofFile ⟨"/App.tsx", "const r = `a\rb`;\n"⟩ = ⟨some m, .empty⟩ ∧
        m.Declares (.template Span.start ["a\nb"] []) ∧
        ¬ m.Declares (.template Span.start ["a\rb"] []) := by
  have text : (Module.constant (.template Span.start ["a\rb"] [])).print
      = "const r = `a\rb`;\n" := by decide +kernel
  obtain ⟨m, read, declares⟩ := ofFile_lineFed ⟨"a\rb", [], nofun⟩ "/App.tsx"
  refine ⟨text, m, text ▸ read, declares, fun same => ?_⟩
  have alike := declares.alike same
  simp only [Expr.Alike, Template.expr, Expr.withoutSpans, Expr.template.injEq] at alike
  exact absurd alike.2.1 (by decide)

end TsxPreview
