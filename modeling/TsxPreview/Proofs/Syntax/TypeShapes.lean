import TsxPreview.Proofs.Syntax.Reading
import TsxPreview.Repair.Annotations

/-!
Written types: names with qualification, type arguments and `[]`, literals, and unions of those.
The reader of types passes over such a type and stops right behind it, unless what follows there
goes on with the type.
-/

namespace TsxPreview

namespace TokenKind

/-- A literal that is a type of its own. -/
def isLiteralType : TokenKind → Bool
  | keyword .null | keyword .void | keyword .true | keyword .false | string _ | number _ => true
  | _ => false

/-- The token joins the members of a union. -/
def joinsTypes (kind : TokenKind) : Bool := kind.isPunct .pipe || kind.isPunct .amp

theorem of_joinsTypes {kind : TokenKind} (h : kind.joinsTypes = true) :
    kind = .punct .pipe ∨ kind = .punct .amp := by
  simp only [joinsTypes, Bool.or_eq_true] at h
  exact h.imp eq_punct eq_punct

/-- Behind a name, the token goes on with it. -/
def extendsName (kind : TokenKind) : Bool :=
  kind.isPunct .dot || kind.isPunct .less || kind.isWord "is"

/-- Behind a member of a union, the token goes on with it. -/
def extendsMember (kind : TokenKind) : Bool := kind.extendsName || kind.isPunct .lBracket

/-- Behind a type, the token goes on with it. -/
def extendsType (kind : TokenKind) : Bool :=
  kind.extendsMember || kind.joinsTypes || kind.isKeyword .extends

end TokenKind

inductive TypePart where
  /-- A type without its `[]`. -/
  | head
  /-- The `.Name` behind a name. -/
  | dots
  /-- The `[]` behind a type. -/
  | arrays
  | member
  /-- The members behind the first. -/
  | others
  | type
  /-- Types between commas. -/
  | arguments

/-- The tokens from `first` to `last` form a part of a type, in which type arguments nest at most
`depth` deep. The part that stands behind something starts at the last token of that. -/
inductive TypeShape (kind : Nat → TokenKind) (newline : Nat → Bool) :
    TypePart → Nat → Nat → Nat → Prop where
  | literal {depth i : Nat} (lit : (kind i).isLiteralType = true) :
      TypeShape kind newline .head depth i i
  | named {depth i j : Nat} {name : String} (word : kind i = .identifier name)
      (type : Repair.Annotations.isTypeName name = true)
      (dots : TypeShape kind newline .dots depth i j) : TypeShape kind newline .head depth i j
  | applied {depth i j k : Nat} {name : String} (word : kind i = .identifier name)
      (type : Repair.Annotations.isTypeName name = true)
      (dots : TypeShape kind newline .dots depth i j) (less : (kind (j + 1)).isPunct .less = true)
      (args : TypeShape kind newline .arguments depth (j + 2) k)
      (greater : (kind (k + 1)).isPunct .greater = true) :
      TypeShape kind newline .head (depth + 1) i (k + 1)
  | noDots {depth i : Nat} : TypeShape kind newline .dots depth i i
  | dot {depth i j : Nat} {name : String} (dot : (kind (i + 1)).isPunct .dot = true)
      (word : kind (i + 2) = .identifier name)
      (more : TypeShape kind newline .dots depth (i + 2) j) : TypeShape kind newline .dots depth i j
  | noArrays {depth i : Nat} : TypeShape kind newline .arrays depth i i
  | array {depth i j : Nat} (start : (kind (i + 1)).isPunct .lBracket = true)
      (line : newline (i + 1) = false) (close : (kind (i + 2)).isPunct .rBracket = true)
      (more : TypeShape kind newline .arrays depth (i + 2) j) :
      TypeShape kind newline .arrays depth i j
  | member {depth i j k : Nat} (head : TypeShape kind newline .head depth i j)
      (arrays : TypeShape kind newline .arrays depth j k) : TypeShape kind newline .member depth i k
  | noOthers {depth i : Nat} : TypeShape kind newline .others depth i i
  | other {depth i j k : Nat} (join : (kind (i + 1)).joinsTypes = true)
      (member : TypeShape kind newline .member depth (i + 2) j)
      (more : TypeShape kind newline .others depth j k) : TypeShape kind newline .others depth i k
  | type {depth i j k : Nat} (member : TypeShape kind newline .member depth i j)
      (others : TypeShape kind newline .others depth j k) : TypeShape kind newline .type depth i k
  | argument {depth i j : Nat} (type : TypeShape kind newline .type depth i j) :
      TypeShape kind newline .arguments depth i j
  | moreArguments {depth i j k : Nat} (type : TypeShape kind newline .type depth i j)
      (comma : (kind (j + 1)).isPunct .comma = true)
      (more : TypeShape kind newline .arguments depth (j + 2) k) :
      TypeShape kind newline .arguments depth i k

namespace TypeShape

variable {kind : Nat → TokenKind} {newline : Nat → Bool} {part : TypePart} {depth first last : Nat}

theorem le (h : TypeShape kind newline part depth first last) : first ≤ last := by
  induction h <;> omega

/-- The part starts behind a token that does not belong to it. -/
def startsBehind : TypePart → Bool
  | .dots | .arrays | .others => true
  | _ => false

/-- A type starts with a name or a literal. -/
theorem isPunct_first (h : TypeShape kind newline part depth first last)
    (front : startsBehind part = false) (p : Punct) : (kind first).isPunct p = false := by
  induction h with
  | @literal _ i lit =>
    cases here : kind i <;> simp_all [TokenKind.isLiteralType, TokenKind.isPunct]
  | named word | applied word => simp [word, TokenKind.isPunct]
  | member _ _ ih | type _ _ ih | argument _ ih | moreArguments _ _ _ ih => exact ih rfl
  | _ => simp [startsBehind] at front

theorem isKeyword_const (h : TypeShape kind newline part depth first last)
    (front : startsBehind part = false) : (kind first).isKeyword .const = false := by
  induction h with
  | literal lit =>
    unfold TokenKind.isLiteralType at lit
    split at lit <;> simp_all [TokenKind.isKeyword]
  | named word | applied word => simp [word, TokenKind.isKeyword]
  | member _ _ ih | type _ _ ih | argument _ ih | moreArguments _ _ _ ih => exact ih rfl
  | _ => simp [startsBehind] at front

/-- Only line breaks before tokens matter. -/
theorem congr_newline (h : TypeShape kind newline part depth first last) {newline' : Nat → Bool}
    (same : ∀ n, kind n ≠ .eof → newline n = newline' n) :
    TypeShape kind newline' part depth first last := by
  induction h with
  | literal lit => exact .literal lit
  | named word type _ dots => exact .named word type dots
  | applied word type _ less _ greater dots args => exact .applied word type dots less args greater
  | noDots => exact .noDots
  | dot dot word _ more => exact .dot dot word more
  | noArrays => exact .noArrays
  | array start line close _ more =>
    refine .array start ((same _ ?_).symm.trans line) close more
    rw [TokenKind.eq_punct start]
    exact TokenKind.noConfusion
  | member _ _ head arrays => exact .member head arrays
  | noOthers => exact .noOthers
  | other join _ _ member more => exact .other join member more
  | type _ _ member others => exact .type member others
  | argument _ type => exact .argument type
  | moreArguments _ comma _ type more => exact .moreArguments type comma more

/-- What follows a type without its `[]` does not go on with it. -/
theorem extendsName_next {mid : Nat} (arrays : TypeShape kind newline .arrays depth mid last)
    (next : (kind (last + 1)).extendsMember = false) : (kind (mid + 1)).extendsName = false := by
  cases arrays with
  | noArrays =>
    simp only [TokenKind.extendsMember, Bool.or_eq_false_iff] at next
    exact next.1
  | array start => rw [TokenKind.eq_punct start]; rfl

/-- What follows a member of a union does not go on with it. -/
theorem extendsMember_next {mid : Nat} (others : TypeShape kind newline .others depth mid last)
    (next : (kind (last + 1)).extendsMember = false) : (kind (mid + 1)).extendsMember = false := by
  cases others with
  | noOthers => exact next
  | other join => rcases TokenKind.of_joinsTypes join with join | join <;> rw [join] <;> rfl

/-- A part ends within what holds every token. -/
theorem lt (h : TypeShape kind newline part depth first last) {bound : Nat}
    (closed : ∀ n, kind n ≠ .eof → n < bound) (before : startsBehind part = true → first < bound) :
    last < bound := by
  have punct {n : Nat} {p : Punct} (h : (kind n).isPunct p = true) : n < bound :=
    closed n fun eof => by simp [eof, TokenKind.isPunct] at h
  have word {n : Nat} {name : String} (h : kind n = .identifier name) : n < bound :=
    closed n fun eof => by simp [eof] at h
  induction h with
  | literal lit => exact closed _ fun eof => by simp [eof, TokenKind.isLiteralType] at lit
  | named here _ _ ih => exact ih fun _ => word here
  | applied _ _ _ _ _ greater => exact punct greater
  | dot _ here _ ih => exact ih fun _ => word here
  | array _ _ close _ ih => exact ih fun _ => punct close
  | noDots | noArrays | noOthers => exact before rfl
  | member _ _ head arrays => exact arrays fun _ => head (by simp [startsBehind])
  | other _ _ _ member more => exact more fun _ => member (by simp [startsBehind])
  | type _ _ member others => exact others fun _ => member (by simp [startsBehind])
  | argument _ ih => exact ih (by simp [startsBehind])
  | moreArguments _ _ _ _ more => exact more (by simp [startsBehind])

end TypeShape

namespace Parser

/-- A line break stands before the token at `n`. -/
def Input.newlineAt (i : Input) (n : Nat) : Bool := i.tokens[n]?.any Token.newlineBefore

theorem Input.Closed.inside {i : Input} (closed : i.Closed) {part : TypePart}
    {newline : Nat → Bool} {depth first last : Nat}
    (h : TypeShape i.kindAt newline part depth first last)
    (before : TypeShape.startsBehind part = true → first + 1 < i.tokens.size) :
    last + 1 < i.tokens.size := by
  have : last < i.tokens.size - 1 := h.lt (fun n hn => by have := closed n hn; omega)
    fun behind => by have := before behind; omega
  omega

open Grammar TypeShape

/-! ### The loops of the type reader -/

/-- A round of the loop over `.Name`. -/
def dotRound (_ : Unit) : Parser (Round Unit Unit) := do
  if ← eat .dot then
    let _ ← expectPropertyName
    return .again ()
  else return .done ()

theorem qualifiedRest_eq (g : Grammar) : g.qualifiedRest = (do
    loop () dotRound
    if ← check .less then g.typeArguments) := rfl

/-- A round of the loop over `[]`. -/
def arrayRound (g : Grammar) (_ : Unit) : Parser (Round Unit Unit) := do
  let token ← peek
  if token.kind.isPunct .lBracket && !token.newlineBefore then
    let _ ← advance
    if !(← eat .rBracket) then
      g.type
      let _ ← expect .rBracket
    return .again ()
  else return .done ()

theorem postfixTypeBody_eq (g : Grammar) : g.postfixTypeBody = (do
    g.primaryType
    loop () (arrayRound g)) := rfl

/-- A round of the loop over the members of a union. -/
def otherRound (g : Grammar) (_ : Unit) : Parser (Round Unit Unit) := do
  if isTypeOperator (← peekKind) then
    let _ ← advance
    g.postfixType
    return .again ()
  else return .done ()

theorem unionType_eq (g : Grammar) : g.unionType = (do
    if isTypeOperator (← peekKind) then
      let _ ← advance
    g.postfixType
    loop () (otherRound g)) := rfl

/-- A round of the loop over type arguments. -/
def argumentRound (g : Grammar) (_ : Unit) : Parser (Round Unit Unit) := do
  g.type
  if (← eat .comma) && !(← check .greater) then return .again () else return .done ()

theorem typeArguments_eq (g : Grammar) : g.typeArguments = (do
    let _ ← expect .less
    loop () (argumentRound g)
    let _ ← expect .greater) := rfl

/-- How the reader of types passes over a part of a type. -/
def ReadsPart (i : Input) (part : TypePart) (depth first last : Nat) : Prop :=
  let next := i.kindAt (last + 1)
  match part with
  | .head => ∀ fuel s, 3 * depth ≤ fuel → s.depth + depth ≤ nestingLimit →
      next.extendsName = false →
      Reads i s first (grammar fuel).primaryTypeBody () (last + 1)
  | .dots => ∀ fuel s, first + 1 < i.tokens.size → i.tokens.size < first + 1 + fuel →
      next.isPunct .dot = false → Reads i s (first + 1) (rounds dotRound fuel ()) () (last + 1)
  | .arrays => ∀ g fuel s, first + 1 < i.tokens.size → i.tokens.size < first + 1 + fuel →
      next.isPunct .lBracket = false →
      Reads i s (first + 1) (rounds (arrayRound g) fuel ()) () (last + 1)
  | .member => ∀ fuel s, 3 * depth + 1 ≤ fuel → s.depth + depth ≤ nestingLimit →
      next.extendsMember = false →
      Reads i s first (grammar fuel).postfixTypeBody () (last + 1)
  | .others => ∀ fuel loops s, 3 * depth + 2 ≤ fuel → s.depth + depth ≤ nestingLimit →
      first + 1 < i.tokens.size → i.tokens.size < first + 1 + loops →
      next.extendsMember = false → next.joinsTypes = false →
      Reads i s (first + 1) (rounds (otherRound (grammar fuel)) loops ()) () (last + 1)
  | .type => ∀ fuel s, 3 * depth + 3 ≤ fuel → s.depth + depth < nestingLimit →
      next.extendsType = false → Reads i s first (grammar fuel).type () (last + 1)
  | .arguments => ∀ fuel loops s, 3 * depth + 3 ≤ fuel → s.depth + depth < nestingLimit →
      first < i.tokens.size → i.tokens.size < first + loops → next.isPunct .greater = true →
      Reads i s first (rounds (argumentRound (grammar fuel)) loops ()) () (last + 1)

variable {i : Input} {s : State}

theorem newlineBefore_tokenAt {n : Nat} (h : n < i.tokens.size) :
    (i.tokenAt n).newlineBefore = i.newlineAt n := by
  simp [Input.tokenAt, Input.newlineAt, h]

theorem readsPart_noDots {depth first : Nat} : ReadsPart i .dots depth first first := by
  intro fuel s inside enough next
  obtain ⟨fuel, rfl⟩ : ∃ n, fuel = n + 1 := ⟨fuel - 1, by omega⟩
  exact .done (.bind (.eat_none next) (.ite_false (by simp) (.pure _)))

theorem readsPart_dot (closed : i.Closed) {depth first last : Nat} {name : String}
    (dot : (i.kindAt (first + 1)).isPunct .dot = true)
    (word : i.kindAt (first + 2) = .identifier name)
    (more : ReadsPart i .dots depth (first + 2) last) : ReadsPart i .dots depth first last := by
  intro fuel s inside enough next
  obtain ⟨fuel, rfl⟩ : ∃ n, fuel = n + 1 := ⟨fuel - 1, by omega⟩
  have rest := more fuel s (closed.word word) (by omega) next
  exact .again (.bind (.eat dot (closed.punct dot))
    (.ite_true rfl (.bind (.expectPropertyName (congrArg _ word) (closed.word word)) (.pure _)))) (by omega) rest

theorem readsPart_noArrays {depth first : Nat} : ReadsPart i .arrays depth first first := by
  intro g fuel s inside enough next
  obtain ⟨fuel, rfl⟩ : ∃ n, fuel = n + 1 := ⟨fuel - 1, by omega⟩
  refine .done (.bind .peek (.ite_false ?_ (.pure _)))
  simp [kind_tokenAt inside, next]

theorem readsPart_array (closed : i.Closed) {depth first last : Nat}
    (start : (i.kindAt (first + 1)).isPunct .lBracket = true)
    (line : i.newlineAt (first + 1) = false)
    (close : (i.kindAt (first + 2)).isPunct .rBracket = true)
    (more : ReadsPart i .arrays depth (first + 2) last) :
    ReadsPart i .arrays depth first last := by
  intro g fuel s inside enough next
  obtain ⟨fuel, rfl⟩ : ∃ n, fuel = n + 1 := ⟨fuel - 1, by omega⟩
  have rest := more g fuel s (closed.punct close) (by omega) next
  refine .again (.bind .peek (.ite_true ?_ (.bind (.advance (closed.punct start))
    (.bind (.eat close (closed.punct close)) (.ite_false (by simp) (.pure _)))))) (by omega) rest
  simp [kind_tokenAt inside, newlineBefore_tokenAt inside, start, line]

theorem readsPart_literal (closed : i.Closed) {depth first : Nat}
    (lit : (i.kindAt first).isLiteralType = true) : ReadsPart i .head depth first first := by
  intro fuel s _ _ _
  have inside : first + 1 < i.tokens.size :=
    closed first fun eof => by simp [eof, TokenKind.isLiteralType] at lit
  refine .bind .peekKind ?_
  match h : i.kindAt first, lit with
  | .string _, _ | .number _, _ => exact .bind (.advance inside) (.pure _)
  | .keyword .null, _ | .keyword .void, _ | .keyword .true, _ | .keyword .false, _ =>
    exact .ite_false (by decide) (.ite_false (by decide) (.ite_true (by decide)
      (.bind (.advance inside) (.pure _))))

/-- A type name is none of the words that the type reader treats in a way of their own. -/
theorem ne_of_isTypeName {name : String} (h : Repair.Annotations.isTypeName name = true)
    (word : String) (not : Repair.Annotations.isTypeName word = false) : (name == word) = false := by
  grind

theorem Reads.namedType {g : Grammar} {first n : Nat} {name : String}
    (type : Repair.Annotations.isTypeName name = true) (inside : first + 1 < i.tokens.size)
    (rest : Reads i s (first + 1) (do g.qualifiedRest; g.typePredicate) () n) :
    Reads i s first (g.namedType name) () n := by
  have keyof := ne_of_isTypeName type "keyof" (by decide)
  have readonly := ne_of_isTypeName type "readonly" (by decide)
  have unique := ne_of_isTypeName type "unique" (by decide)
  have infer := ne_of_isTypeName type "infer" (by decide)
  have asserts := ne_of_isTypeName type "asserts" (by decide)
  have abstract := ne_of_isTypeName type "abstract" (by decide)
  refine .bind (.ahead 1) (.bind (.advance inside) ?_)
  simp only [keyof, readonly, unique, infer, asserts, abstract]
  exact rest

theorem Reads.no_typePredicate {g : Grammar} {m : Nat} (inside : m < i.tokens.size)
    (next : (i.kindAt m).isWord "is" = false) : Reads i s m g.typePredicate () m := by
  refine .bind .peek (.ite_false ?_ (.pure _))
  simp [kind_tokenAt inside, next]

theorem readsPart_named (closed : i.Closed) {newline : Nat → Bool} {depth first last : Nat}
    {name : String} (word : i.kindAt first = .identifier name)
    (type : Repair.Annotations.isTypeName name = true)
    (shape : TypeShape i.kindAt newline .dots depth first last)
    (dots : ReadsPart i .dots depth first last) : ReadsPart i .head depth first last := by
  intro fuel s _ _ next
  have inside := closed.word word
  have ends := closed.inside shape fun _ => inside
  simp only [TokenKind.extendsName, Bool.or_eq_false_iff] at next
  refine .bind .peekKind ?_
  rw [word]
  refine .namedType type inside (.bind (a := ()) ?_ (.no_typePredicate ends next.2))
  rw [qualifiedRest_eq]
  exact .bind (.loop (dots _ s inside (by omega) next.1.1))
    (.bind (.check .less) (.ite_false (by simp [next.1.2]) (.pure _)))

theorem readsPart_applied (closed : i.Closed) {depth first mid last : Nat}
    {name : String} (word : i.kindAt first = .identifier name)
    (type : Repair.Annotations.isTypeName name = true)
    (dots : ReadsPart i .dots depth first mid)
    (less : (i.kindAt (mid + 1)).isPunct .less = true)
    (args : ReadsPart i .arguments depth (mid + 2) last)
    (greater : (i.kindAt (last + 1)).isPunct .greater = true) :
    ReadsPart i .head (depth + 1) first (last + 1) := by
  intro fuel s enough room next
  have inside := closed.word word
  simp only [TokenKind.extendsName, Bool.or_eq_false_iff] at next
  have noDot : (i.kindAt (mid + 1)).isPunct .dot = false := by rw [TokenKind.eq_punct less]; rfl
  refine .bind .peekKind ?_
  rw [word]
  refine .namedType type inside
    (.bind (a := ()) ?_ (.no_typePredicate (closed.punct greater) next.2))
  rw [qualifiedRest_eq]
  refine .bind (.loop (dots _ s inside (by omega) noDot)) (.bind (.check .less) (.ite_true less ?_))
  rw [typeArguments_eq]
  exact .bind (.expect less (closed.punct less)) (.bind (.loop (args fuel _ s (by omega) (by omega)
    (closed.punct less) (by omega) greater)) (.bind (.expect greater (closed.punct greater))
      (.pure _)))

theorem readsPart_member {newline : Nat → Bool} (closed : i.Closed) {depth first mid last : Nat}
    (headShape : TypeShape i.kindAt newline .head depth first mid)
    (arrayShape : TypeShape i.kindAt newline .arrays depth mid last)
    (head : ReadsPart i .head depth first mid) (arrays : ReadsPart i .arrays depth mid last) :
    ReadsPart i .member depth first last := by
  intro fuel s enough room next
  obtain ⟨fuel, rfl⟩ : ∃ n, fuel = n + 1 := ⟨fuel - 1, by omega⟩
  have inside := closed.inside headShape (by simp [startsBehind])
  have headNext := arrayShape.extendsName_next next
  simp only [TokenKind.extendsMember, Bool.or_eq_false_iff] at next
  rw [postfixTypeBody_eq]
  exact .bind (head fuel s (by omega) room headNext)
    (.loop (arrays _ _ s inside (by omega) next.2))

theorem readsPart_noOthers {depth first : Nat} : ReadsPart i .others depth first first := by
  intro fuel loops s _ _ inside enough _ next
  obtain ⟨loops, rfl⟩ : ∃ n, loops = n + 1 := ⟨loops - 1, by omega⟩
  refine .done (.bind .peekKind (.ite_false ?_ (.pure _)))
  simpa [isTypeOperator, TokenKind.joinsTypes] using next

theorem readsPart_other (closed : i.Closed) {newline : Nat → Bool} {depth first mid last : Nat}
    (join : (i.kindAt (first + 1)).joinsTypes = true)
    (memberShape : TypeShape i.kindAt newline .member depth (first + 2) mid)
    (moreShape : TypeShape i.kindAt newline .others depth mid last)
    (member : ReadsPart i .member depth (first + 2) mid)
    (more : ReadsPart i .others depth mid last) : ReadsPart i .others depth first last := by
  intro fuel loops s fuelEnough room inside enough next notJoined
  obtain ⟨loops, rfl⟩ : ∃ n, loops = n + 1 := ⟨loops - 1, by omega⟩
  obtain ⟨fuel, rfl⟩ : ∃ n, fuel = n + 1 := ⟨fuel - 1, by omega⟩
  have joinInside : first + 2 < i.tokens.size :=
    closed _ fun eof => by simp [eof, TokenKind.joinsTypes, TokenKind.isPunct] at join
  have midInside := closed.inside memberShape (by simp [startsBehind])
  have := memberShape.le
  have rest := more (fuel + 1) loops s fuelEnough room midInside (by omega) next notJoined
  refine .again (.bind .peekKind (.ite_true join (.bind (.advance joinInside)
    (.bind (a := ()) ?_ (.pure _))))) (by omega) rest
  exact member fuel s (by omega) room (moreShape.extendsMember_next next)

theorem readsPart_type (closed : i.Closed) {newline : Nat → Bool} {depth first mid last : Nat}
    (memberShape : TypeShape i.kindAt newline .member depth first mid)
    (othersShape : TypeShape i.kindAt newline .others depth mid last)
    (member : ReadsPart i .member depth first mid)
    (others : ReadsPart i .others depth mid last) : ReadsPart i .type depth first last := by
  intro fuel s enough room next
  obtain ⟨fuel, rfl⟩ : ∃ n, fuel = n + 2 := ⟨fuel - 2, by omega⟩
  simp only [TokenKind.extendsType, Bool.or_eq_false_iff] at next
  have midInside := closed.inside memberShape (by simp [startsBehind])
  have lastInside := closed.inside othersShape fun _ => midInside
  have first_le := memberShape.le
  refine .nested (by omega) (.bind (n := last + 1) (a := ()) ?_ ?_)
  · rw [unionType_eq]
    refine .bind .peekKind (.ite_false ?_ (.bind (n := mid + 1) (a := ()) ?_ (.loop ?_)))
    · have := memberShape.isPunct_first rfl
      simp [isTypeOperator, this]
    · exact member fuel _ (by omega) (by simp; omega) (othersShape.extendsMember_next next.1.1)
    · exact others (fuel + 1) _ _ (by omega) (by simp; omega) midInside (by omega)
        next.1.1 next.1.2
  · refine .bind .peek (.ite_false ?_ (.pure _))
    simp [kind_tokenAt lastInside, next.2]

/-- A comma and a closing angle bracket do not go on with a type. -/
theorem extendsType_punct {kind : TokenKind} {p : Punct} (h : kind.isPunct p = true)
    (closes : p = .comma ∨ p = .greater) : kind.extendsType = false := by
  rcases closes with rfl | rfl <;> rw [TokenKind.eq_punct h] <;> rfl

theorem readsPart_argument {depth first last : Nat} (type : ReadsPart i .type depth first last) :
    ReadsPart i .arguments depth first last := by
  intro fuel loops s fuelEnough room inside enough next
  obtain ⟨loops, rfl⟩ : ∃ n, loops = n + 1 := ⟨loops - 1, by omega⟩
  have noComma : (i.kindAt (last + 1)).isPunct .comma = false := by
    rw [TokenKind.eq_punct next]; rfl
  exact .done (.bind (type fuel s fuelEnough room (extendsType_punct next (.inr rfl)))
    (.bind (.eat_none noComma) (.bind (.check .greater) (.ite_false (by simp) (.pure _)))))

theorem readsPart_moreArguments (closed : i.Closed) {newline : Nat → Bool}
    {depth first mid last : Nat} (shape : TypeShape i.kindAt newline .type depth first mid)
    (moreShape : TypeShape i.kindAt newline .arguments depth (mid + 2) last)
    (type : ReadsPart i .type depth first mid) (comma : (i.kindAt (mid + 1)).isPunct .comma = true)
    (more : ReadsPart i .arguments depth (mid + 2) last) :
    ReadsPart i .arguments depth first last := by
  intro fuel loops s fuelEnough room inside enough next
  obtain ⟨loops, rfl⟩ : ∃ n, loops = n + 1 := ⟨loops - 1, by omega⟩
  have := shape.le
  have noGreater := moreShape.isPunct_first rfl .greater
  have rest := more fuel loops s fuelEnough room (closed.punct comma) (by omega) next
  exact .again (.bind (type fuel s fuelEnough room (extendsType_punct comma (.inl rfl)))
    (.bind (.eat comma (closed.punct comma)) (.bind (.check .greater)
      (.ite_true (by simp [noGreater]) (.pure _))))) (by omega) rest

end Parser

open TsxPreview.Parser

variable {i : Input} {s : State}

/-- Every part of a written type is passed over. -/
theorem TypeShape.readsPart (closed : i.Closed) {part : TypePart} {depth first last : Nat}
    (h : TypeShape i.kindAt i.newlineAt part depth first last) :
    ReadsPart i part depth first last := by
  induction h with
  | literal lit => exact readsPart_literal closed lit
  | named word type shape ih => exact readsPart_named closed word type shape ih
  | applied word type _ less _ greater dots args =>
    exact readsPart_applied closed word type dots less args greater
  | noDots => exact readsPart_noDots
  | dot dot word _ more => exact readsPart_dot closed dot word more
  | noArrays => exact readsPart_noArrays
  | array start line close _ more => exact readsPart_array closed start line close more
  | member headShape arrayShape head arrays =>
    exact readsPart_member closed headShape arrayShape head arrays
  | noOthers => exact readsPart_noOthers
  | other join memberShape moreShape member more =>
    exact readsPart_other closed join memberShape moreShape member more
  | type memberShape othersShape member others =>
    exact readsPart_type closed memberShape othersShape member others
  | argument _ ih => exact readsPart_argument ih
  | moreArguments shape comma moreShape type more =>
    exact readsPart_moreArguments closed shape moreShape type comma more

namespace Parser

theorem Reads.eatKeyword_none {m : Nat} {w : Keyword} (here : (i.kindAt m).isKeyword w = false) :
    Reads i s m (eatKeyword w) false m :=
  .bind (.checkKeyword w) (.ite_false (by simp [here]) (.pure false))

/-- The reader of an annotation passes over the colon and the type. -/
theorem reads_annotation (closed : i.Closed) {depth n last fuel : Nat}
    (colon : (i.kindAt n).isPunct .colon = true)
    (shape : TypeShape i.kindAt i.newlineAt .type depth (n + 1) last)
    (next : (i.kindAt (last + 1)).extendsType = false) (enough : 3 * depth + 3 ≤ fuel)
    (room : s.depth + depth < nestingLimit) :
    Reads i s n (Grammar.annotation (grammar fuel)) () (last + 1) :=
  .bind (.eat colon (closed.punct colon))
    (.ite_true rfl (shape.readsPart closed fuel s enough room next))

/-- The reader of an assertion passes over the `as` and the type. -/
theorem reads_cast (closed : i.Closed) {depth n last fuel : Nat} {word : String}
    (as : i.kindAt n = .identifier word)
    (shape : TypeShape i.kindAt i.newlineAt .type depth (n + 1) last)
    (next : (i.kindAt (last + 1)).extendsType = false) (enough : 3 * depth + 3 ≤ fuel)
    (room : s.depth + depth < nestingLimit) :
    Reads i s n (grammar fuel).cast () (last + 1) :=
  .bind (.advance (closed.word as)) (.bind (.eatKeyword_none (shape.isKeyword_const rfl))
    (.ite_true rfl (shape.readsPart closed fuel s enough room next)))

end Parser

end TsxPreview
