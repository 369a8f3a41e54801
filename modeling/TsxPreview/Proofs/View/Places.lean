import Mathlib.Data.List.Nodup
import Mathlib.Data.String.Basic
import TsxPreview.View.Scene

/-!
Where the instances of a scene stand, and what they are known by. Positions are put together with
marks, so a name without marks can be read back from whatever lies below it. As long as no key
holds a mark, a position tells in which items of which arrays it lies, and no two instances are
known by the same key.
-/

namespace TsxPreview

/-! ## Names -/

/-- The characters that positions are put together with. -/
def isMark (c : Char) : Bool := c = '/' || c = '.' || c = ':' || c = '#'

/-- A text without marks. -/
def Unmarked (text : String) : Prop := ∀ c ∈ text.toList, isMark c = false

instance (text : String) : Decidable (Unmarked text) :=
  List.decidableBAll (isMark · = false) text.toList

/-- A text that a name before it stops at: it is empty or begins with a mark. -/
def Stops (text : String) : Prop := ∀ c ∈ text.toList.head?, isMark c = true

theorem Stops.append {v w : String} (hv : Stops v) (hw : Stops w) : Stops (v ++ w) := by
  intro c hc
  rw [String.toList_append, List.head?_append] at hc
  cases h : v.toList.head? with
  | none =>
    rw [h] at hc
    exact hw c hc
  | some d =>
    rw [h] at hc
    exact hv c (h ▸ hc)

theorem Unmarked.append {a b : String} (ha : Unmarked a) (hb : Unmarked b) : Unmarked (a ++ b) := by
  intro c hc
  rw [String.toList_append] at hc
  exact (List.mem_append.1 hc).elim (ha c) (hb c)

/-- The name is what stands before the first mark. -/
theorem Unmarked.takeWhile {a v : String} (ha : Unmarked a) (hv : Stops v) :
    (a ++ v).toList.takeWhile (!isMark ·) = a.toList := by
  rw [String.toList_append, List.takeWhile_append_of_pos fun c hc => by simp [ha c hc]]
  unfold Stops at hv
  cases hl : v.toList with
  | nil => simp
  | cons c rest =>
    rw [hl] at hv
    simp [hv c rfl]

theorem Unmarked.append_inj {a b v w : String} (ha : Unmarked a) (hb : Unmarked b) (hv : Stops v)
    (hw : Stops w) (h : a ++ v = b ++ w) : a = b ∧ v = w := by
  have same : a = b := by
    refine String.toList_injective ?_
    rw [← ha.takeWhile hv, ← hb.takeWhile hw, h]
  subst same
  exact ⟨rfl, (String.append_right_inj a).1 h⟩

theorem unmarked_toString (n : Nat) : Unmarked (toString n) := by
  intro c hc
  rw [Nat.toString_eq_repr, Nat.toList_repr] at hc
  have digit := Nat.isDigit_of_mem_toDigits (by decide) (by decide) hc
  by_contra marked
  simp only [isMark, Bool.not_eq_false, Bool.or_eq_true, decide_eq_true_eq] at marked
  obtain ((rfl | rfl) | rfl) | rfl := marked <;> cases digit

theorem toString_inj {m n : Nat} (h : toString m = toString n) : m = n := by
  have read := congrArg (fun text => Nat.ofDigitChars 10 text.toList 0) h
  simpa [Nat.toString_eq_repr] using read

/-- Keys and numbers are kept apart. -/
theorem itemName_inj {i j : Nat} {a b : Option String} (h : itemName i a = itemName j b) :
    a = b ∧ (a = none → i = j) := by
  have apart (n : Nat) (k : String) : toString n ≠ "k" ++ k := by
    intro eq
    have mem : 'k' ∈ (toString n).toList := by
      rw [eq, String.toList_append]
      exact List.mem_append_left _ List.mem_cons_self
    rw [Nat.toString_eq_repr, Nat.toList_repr] at mem
    cases Nat.isDigit_of_mem_toDigits (by decide) (by decide) mem
  cases a with
  | none =>
    cases b with
    | none => exact ⟨rfl, fun _ => toString_inj h⟩
    | some k => exact absurd h (apart i k)
  | some k =>
    cases b with
    | none => exact absurd h.symm (apart j k)
    | some l => exact ⟨congrArg some ((String.append_right_inj _).1 h), fun no => by cases no⟩

theorem unmarked_itemName (i : Nat) {key : Option String} (h : ∀ k, key = some k → Unmarked k) :
    Unmarked (itemName i key) := by
  cases key with
  | none => exact unmarked_toString i
  | some k => exact Unmarked.append (by decide) (h k rfl)

/-! ## Positions -/

/-- A position is another one or lies below it. -/
def Under (p q : String) : Prop := ∃ w, q = p ++ w ∧ Stops w

namespace Under

variable {p q r : String}

theorem refl (p : String) : Under p p := ⟨"", by simp, fun c hc => by cases hc⟩

theorem trans (h : Under p q) (h' : Under q r) : Under p r := by
  obtain ⟨v, rfl, hv⟩ := h
  obtain ⟨w, rfl, hw⟩ := h'
  exact ⟨v ++ w, String.append_assoc, hv.append hw⟩

theorem length_le (h : Under p q) : p.length ≤ q.length := by
  obtain ⟨w, rfl, -⟩ := h
  simp

end Under

theorem under_itemPosition (p : String) (i : Nat) (key : Option String) :
    Under p (itemPosition p i key) :=
  ⟨"/" ++ itemName i key, String.append_assoc, fun c hc => by
    rw [String.toList_append] at hc
    cases hc
    rfl⟩

theorem under_instanceKey (p : String) (c : Value) : Under p (instanceKey p c) :=
  ⟨":" ++ c.componentName ++ "#" ++ c.componentId, by simp [instanceKey, String.append_assoc],
    fun c hc => by
      simp only [String.toList_append, String.append_assoc] at hc
      cases hc
      rfl⟩

theorem length_lt_itemPosition (p : String) (i : Nat) (key : Option String) :
    p.length < (itemPosition p i key).length := by
  unfold itemPosition
  simp only [String.length_append]
  have : "/".length = 1 := rfl
  omega

theorem length_lt_instanceKey (p : String) (c : Value) : p.length < (instanceKey p c).length := by
  unfold instanceKey
  simp only [String.length_append]
  have : ":".length = 1 := rfl
  omega

theorem Part.under_below (part : Part) (p : String) : Under p (part.below p) := by
  cases part with
  | group => exact .refl p
  | tag name =>
    exact ⟨"." ++ name, String.append_assoc, fun c hc => by
      rw [String.toList_append] at hc
      cases hc
      rfl⟩
  | consumer =>
    exact ⟨"/consumer", rfl, fun c hc => by
      cases hc
      rfl⟩
  | component c found left => exact under_instanceKey p c

/-- Only the child of a group stands where the element does. -/
theorem Part.eq_group_or_length_lt (part : Part) (p : String) :
    part = .group ∨ p.length < (part.below p).length := by
  cases part with
  | group => exact .inl rfl
  | tag name =>
    have : ".".length = 1 := rfl
    simp only [below, childrenPosition, String.length_append]
    omega
  | consumer =>
    have : "/consumer".length = 9 := rfl
    simp only [below, consumerPosition, String.length_append]
    omega
  | component c found left => exact .inr (length_lt_instanceKey p c)

/-- Names without marks are read back from what lies below. -/
theorem itemName_eq_of_under {p q : String} {i j : Nat} {a b : Option String}
    (ha : Unmarked (itemName i a)) (hb : Unmarked (itemName j b)) (h : Under (itemPosition p i a) q)
    (h' : Under (itemPosition p j b) q) : itemName i a = itemName j b := by
  obtain ⟨v, rfl, hv⟩ := h
  obtain ⟨w, eq, hw⟩ := h'
  refine (ha.append_inj hb hv hw ?_).1
  simp only [itemPosition, String.append_assoc] at eq
  exact (String.append_right_inj _).1 ((String.append_right_inj p).1 eq)

theorem unmarked_hex (text : String) : Unmarked (String.ofList (Identity.hex text)) := by
  have digit : ∀ n < 16, isMark (Json.lowerHex n) = false := by decide
  intro c hc
  rw [String.toList_ofList] at hc
  obtain ⟨b, -, hc⟩ := List.mem_flatMap.1 hc
  simp only [List.mem_cons, List.not_mem_nil, or_false] at hc
  have := b.toNat_lt
  obtain rfl | rfl := hc
  · exact digit _ (by omega)
  · exact digit _ (by omega)

theorem unmarked_componentId (c : Value) : Unmarked c.componentId := by
  unfold Value.componentId
  split
  · refine .append (.append (.append (.append (.append ?_ (unmarked_hex _)) ?_)
      (unmarked_toString _)) ?_) (unmarked_toString _) <;> decide
  · exact .append (by decide) (unmarked_toString _)
  · refine .append (.append (.append ?_ (unmarked_toString _)) ?_) (unmarked_hex _) <;> decide
  · decide

/-- At one position, components with names without marks are told apart by what lies below. -/
theorem component_eq_of_under {p : String} {c d : Value} (hc : Unmarked c.componentName)
    (hd : Unmarked d.componentName) (h : Under (instanceKey p c) (instanceKey p d)) :
    d.componentName = c.componentName ∧ d.componentId = c.componentId := by
  obtain ⟨w, eq, hw⟩ := h
  have mark (text : String) : Stops ("#" ++ text) := fun c hc => by
    rw [String.toList_append] at hc
    cases hc
    rfl
  have nothing : Stops "" := fun c hc => by cases hc
  simp only [instanceKey, String.append_assoc] at eq
  obtain ⟨names, ids⟩ := hd.append_inj hc (mark _) (mark _)
    ((String.append_right_inj _).1 ((String.append_right_inj p).1 eq))
  have ids : d.componentId ++ "" = c.componentId ++ w := by
    rw [String.append_empty]
    exact (String.append_right_inj _).1 ids
  exact ⟨names, ((unmarked_componentId d).append_inj (unmarked_componentId c) nothing hw ids).1⟩

/-! ## Instances -/

/-- An instance of a component that a scene shows. -/
structure Instance where
  position : String
  component : Value
  found : Option (Array HookSlot)
  left : Option (Array HookSlot)

def Instance.key (x : Instance) : String := instanceKey x.position x.component

def Part.instances (position : String) : Part → List Instance
  | component c found left => [⟨position, c, found, left⟩]
  | _ => []

namespace Scene

mutual

/-- The instances of a scene, in the order of their calls. -/
def instances (position : String) : Scene → List Instance
  | plain => []
  | list items => instancesAll position 0 items
  | element _ part child => part.instances position ++ child.instances (part.below position)

def instancesAll (position : String) (index : Nat) : List Scene → List Instance
  | [] => []
  | item :: rest =>
    item.instances (itemPosition position index item.key?) ++ instancesAll position (index + 1) rest

end

def keys (position : String) (s : Scene) : List String := (s.instances position).map Instance.key

mutual

/-- The scenes that a scene is made of, with their positions. -/
def places (position : String) : Scene → List (String × Scene)
  | plain => [(position, plain)]
  | list items => (position, list items) :: placesAll position 0 items
  | element key part child =>
    (position, element key part child) :: child.places (part.below position)

def placesAll (position : String) (index : Nat) : List Scene → List (String × Scene)
  | [] => []
  | item :: rest =>
    item.places (itemPosition position index item.key?) ++ placesAll position (index + 1) rest

end

/-- The items of an array with their positions. -/
def placed (position : String) (index : Nat) : List Scene → List (String × Scene)
  | [] => []
  | item :: rest =>
    (itemPosition position index item.key?, item) :: placed position (index + 1) rest

/-- Siblings have different keys, and no key holds a mark. -/
def KeysApart (items : List Scene) : Prop :=
  (items.filterMap key?).Nodup ∧ ∀ key ∈ items.filterMap key?, Unmarked key

instance (items : List Scene) : Decidable (KeysApart items) := inferInstanceAs (Decidable (_ ∧ _))

mutual

/-- Whether the keys in all arrays of a scene are apart. -/
def wellKeyed : Scene → Bool
  | plain => true
  | list items => KeysApart items && wellKeyedAll items
  | element _ _ child => child.wellKeyed

def wellKeyedAll : List Scene → Bool
  | [] => true
  | item :: rest => item.wellKeyed && wellKeyedAll rest

end

/-! ### Parts of scenes -/

theorem instancesAll_eq (p : String) (i : Nat) (items : List Scene) :
    instancesAll p i items = (placed p i items).flatMap fun (q, item) => item.instances q := by
  induction items generalizing i with
  | nil => rfl
  | cons item rest ih => rw [instancesAll, placed, List.flatMap_cons, ih]

theorem placesAll_eq (p : String) (i : Nat) (items : List Scene) :
    placesAll p i items = (placed p i items).flatMap fun (q, item) => item.places q := by
  induction items generalizing i with
  | nil => rfl
  | cons item rest ih => rw [placesAll, placed, List.flatMap_cons, ih]

theorem mem_instancesAll {p : String} {i : Nat} {items : List Scene} {x : Instance} :
    x ∈ instancesAll p i items ↔ ∃ a ∈ placed p i items, x ∈ a.2.instances a.1 := by
  rw [instancesAll_eq, List.mem_flatMap]

theorem mem_placesAll {p : String} {i : Nat} {items : List Scene} {l : String × Scene} :
    l ∈ placesAll p i items ↔ ∃ a ∈ placed p i items, l ∈ a.2.places a.1 := by
  rw [placesAll_eq, List.mem_flatMap]

theorem mem_placed {p : String} {i : Nat} {items : List Scene} {a : String × Scene}
    (h : a ∈ placed p i items) :
    ∃ j, i ≤ j ∧ a.1 = itemPosition p j a.2.key? ∧ a.2 ∈ items := by
  induction items generalizing i with
  | nil => cases h
  | cons item rest ih =>
    obtain rfl | h := List.mem_cons.1 h
    · exact ⟨i, Nat.le_refl i, rfl, List.mem_cons_self⟩
    · obtain ⟨j, hj, eq, mem⟩ := ih h
      exact ⟨j, by omega, eq, List.mem_cons_of_mem _ mem⟩

theorem wellKeyed_of_mem {items : List Scene} (h : wellKeyedAll items) {a : Scene}
    (ha : a ∈ items) : a.wellKeyed := by
  induction items with
  | nil => cases ha
  | cons item rest ih =>
    obtain ⟨first, others⟩ := Bool.and_eq_true_iff.1 h
    obtain rfl | ha := List.mem_cons.1 ha
    · exact first
    · exact ih others ha

theorem KeysApart.unmarked {items : List Scene} (h : KeysApart items) {a : Scene} (ha : a ∈ items)
    (i : Nat) : Unmarked (itemName i a.key?) :=
  unmarked_itemName i fun k hk => h.2 k (List.mem_filterMap.2 ⟨a, ha, hk⟩)

theorem KeysApart.tail {item : Scene} {rest : List Scene} (h : KeysApart (item :: rest)) :
    KeysApart rest := by
  have sub : (rest.filterMap key?).Sublist ((item :: rest).filterMap key?) :=
    (List.sublist_cons_self item rest).filterMap _
  exact ⟨h.1.sublist sub, fun k hk => h.2 k (sub.subset hk)⟩

/-- Nothing lies below two items of an array. -/
theorem KeysApart.head_apart {item : Scene} {rest : List Scene} (h : KeysApart (item :: rest))
    {p q : String} {i : Nat} {b : String × Scene} (hb : b ∈ placed p (i + 1) rest)
    (under : Under (itemPosition p i item.key?) q) (under' : Under b.1 q) : False := by
  obtain ⟨j, hj, eq, mem⟩ := mem_placed hb
  rw [eq] at under'
  obtain ⟨same, numbers⟩ := itemName_inj <| itemName_eq_of_under
    (h.unmarked List.mem_cons_self i) (h.unmarked (List.mem_cons_of_mem _ mem) j) under under'
  cases hk : item.key? with
  | none =>
    have := numbers hk
    omega
  | some k =>
    have once := h.1
    rw [List.filterMap_cons_some hk] at once
    exact (List.nodup_cons.1 once).1 (List.mem_filterMap.2 ⟨b.2, mem, same ▸ hk⟩)

/-! ### What lies below -/

theorem placed_under {p : String} {i : Nat} {items : List Scene} {a : String × Scene}
    (h : a ∈ placed p i items) : Under p a.1 := by
  obtain ⟨j, -, eq, -⟩ := mem_placed h
  exact eq ▸ under_itemPosition p j _

mutual

/-- Induction over a scene and its position; the items of an array are taken where they stand. -/
theorem placedInduction {P : String → Scene → Prop} (plain : ∀ p, P p plain)
    (list : ∀ p items, (∀ a ∈ placed p 0 items, P a.1 a.2) → P p (list items))
    (element : ∀ p key part child, P (part.below p) child → P p (element key part child)) :
    (p : String) → (s : Scene) → P p s
  | p, .plain => plain p
  | p, .list items => list p items (placedInductionAll plain list element p 0 items)
  | p, .element key part child =>
    element p key part child (placedInduction plain list element (part.below p) child)

theorem placedInductionAll {P : String → Scene → Prop} (plain : ∀ p, P p .plain)
    (list : ∀ p items, (∀ a ∈ placed p 0 items, P a.1 a.2) → P p (.list items))
    (element : ∀ p key part child, P (part.below p) child → P p (.element key part child)) :
    (p : String) → (i : Nat) → (items : List Scene) → ∀ a ∈ placed p i items, P a.1 a.2
  | _, _, [], a, h => by cases h
  | p, i, item :: rest, a, h => by
    obtain rfl | h := List.mem_cons.1 h
    · exact placedInduction plain list element _ item
    · exact placedInductionAll plain list element p (i + 1) rest a h

end

theorem mem_instances_element {p : String} {key : Option String} {part : Part} {child : Scene}
    {x : Instance} : x ∈ (element key part child).instances p ↔
      (∃ c found left, part = .component c found left ∧ x = ⟨p, c, found, left⟩) ∨
        x ∈ child.instances (part.below p) := by
  rw [instances, List.mem_append]
  cases part with
  | component c found left => simp [Part.instances]
  | _ => simp [Part.instances]

theorem under_key (p : String) (s : Scene) : ∀ x ∈ s.instances p, Under p x.key := by
  induction p, s using placedInduction with
  | plain p =>
    intro x h
    cases h
  | list p items ih =>
    intro x h
    obtain ⟨a, ha, hx⟩ := mem_instancesAll.1 h
    exact (placed_under ha).trans (ih a ha x hx)
  | element p key part child ih =>
    intro x h
    obtain ⟨c, found, left, rfl, rfl⟩ | below := mem_instances_element.1 h
    · exact under_instanceKey p c
    · exact (part.under_below p).trans (ih x below)

theorem length_lt_key (p : String) (s : Scene) : ∀ x ∈ s.instances p, p.length < x.key.length := by
  induction p, s using placedInduction with
  | plain p =>
    intro x h
    cases h
  | list p items ih =>
    intro x h
    obtain ⟨a, ha, hx⟩ := mem_instancesAll.1 h
    exact (placed_under ha).length_le.trans_lt (ih a ha x hx)
  | element p key part child ih =>
    intro x h
    obtain ⟨c, found, left, rfl, rfl⟩ | below := mem_instances_element.1 h
    · exact length_lt_instanceKey p c
    · exact (part.under_below p).length_le.trans_lt (ih x below)

theorem under_place (p : String) (s : Scene) : ∀ l ∈ s.places p, Under p l.1 := by
  induction p, s using placedInduction with
  | plain p =>
    intro l h
    obtain rfl := List.mem_singleton.1 h
    exact .refl p
  | list p items ih =>
    intro l h
    obtain rfl | h := List.mem_cons.1 h
    · exact .refl p
    · obtain ⟨a, ha, hl⟩ := mem_placesAll.1 h
      exact (placed_under ha).trans (ih a ha l hl)
  | element p key part child ih =>
    intro l h
    obtain rfl | h := List.mem_cons.1 h
    · exact .refl p
    · exact (part.under_below p).trans (ih l h)

/-- The instances of what stands somewhere in a scene are instances of the scene. -/
theorem mem_instances_of_place {l : String × Scene} {x : Instance} (hx : x ∈ l.2.instances l.1)
    (p : String) (s : Scene) : l ∈ s.places p → x ∈ s.instances p := by
  induction p, s using placedInduction with
  | plain p =>
    intro h
    obtain rfl := List.mem_singleton.1 h
    exact hx
  | list p items ih =>
    intro h
    obtain rfl | h := List.mem_cons.1 h
    · exact hx
    · obtain ⟨a, ha, hl⟩ := mem_placesAll.1 h
      exact mem_instancesAll.2 ⟨a, ha, ih a ha hl⟩
  | element p key part child ih =>
    intro h
    obtain rfl | h := List.mem_cons.1 h
    · exact hx
    · exact mem_instances_element.2 (.inr (ih h))

/-- Siblings have different keys, and no key holds a mark, in the array at a place and in all arrays
around it. -/
def KeyedTo (place p : String) (s : Scene) : Prop :=
  ∀ q items, (q, list items) ∈ s.places p → Under q place → KeysApart items

theorem KeyedTo.item {place p : String} {items : List Scene} (h : (list items).KeyedTo place p)
    {a : String × Scene} (ha : a ∈ placed p 0 items) : a.2.KeyedTo place a.1 :=
  fun q items there => h q items (List.mem_cons_of_mem _ (mem_placesAll.2 ⟨a, ha, there⟩))

theorem KeyedTo.child {place p : String} {key : Option String} {part : Part} {child : Scene}
    (h : (element key part child).KeyedTo place p) : child.KeyedTo place (part.below p) :=
  fun q items there => h q items (List.mem_cons_of_mem _ there)

/-- What is known by a key that lies below an item belongs to the item. -/
theorem KeysApart.count_instancesAll {items : List Scene} (h : KeysApart items) {p key : String}
    {i : Nat} {a : String × Scene} (ha : a ∈ placed p i items) (under : Under a.1 key) :
    ((instancesAll p i items).map Instance.key).count key = (a.2.keys a.1).count key := by
  induction items generalizing i with
  | nil => cases ha
  | cons item rest ih =>
    rw [instancesAll, List.map_append, List.count_append]
    obtain rfl | ha := List.mem_cons.1 ha
    · refine Nat.add_eq_left.2 (List.count_eq_zero.2 fun mem => ?_)
      obtain ⟨x, hx, rfl⟩ := List.mem_map.1 mem
      obtain ⟨b, hb, hxb⟩ := mem_instancesAll.1 hx
      exact h.head_apart hb under (under_key _ _ x hxb)
    · rw [ih h.tail ha]
      refine Nat.add_eq_right.2 (List.count_eq_zero.2 fun mem => ?_)
      obtain ⟨x, hx, rfl⟩ := List.mem_map.1 mem
      exact h.head_apart ha (under_key _ _ x hx) under

/-- What is known by a key that lies below a position belongs to what stands there. -/
theorem count_keys_of_place {l : String × Scene} {key : String} (under : Under l.1 key)
    (longer : l.1.length < key.length) (p : String) (s : Scene) : s.KeyedTo l.1 p →
    l ∈ s.places p → (s.keys p).count key = (l.2.keys l.1).count key := by
  induction p, s using placedInduction with
  | plain p =>
    intro _ hl
    obtain rfl := List.mem_singleton.1 hl
    rfl
  | list p items ih =>
    intro keyed hl
    have above := under_place _ _ l hl
    obtain rfl | hl := List.mem_cons.1 hl
    · rfl
    · obtain ⟨a, ha, hla⟩ := mem_placesAll.1 hl
      rw [← ih a ha (keyed.item ha) hla]
      exact (keyed p items List.mem_cons_self above).count_instancesAll ha
        ((under_place _ _ l hla).trans under)
  | element p key' part child ih =>
    intro keyed hl
    obtain rfl | hl := List.mem_cons.1 hl
    · rfl
    · rw [← ih keyed.child hl]
      unfold keys
      rw [instances, List.map_append, List.count_append]
      refine Nat.add_eq_right.2 (List.count_eq_zero.2 fun mem => ?_)
      obtain ⟨x, hx, rfl⟩ := List.mem_map.1 mem
      cases part with
      | component c found left =>
        -- the instance itself stands above
        obtain rfl := List.mem_singleton.1 hx
        exact absurd longer (Nat.not_lt.2 (under_place _ _ l hl).length_le)
      | _ => cases hx

theorem mem_keys_of_under {l : String × Scene} {key p : String} {s : Scene} (under : Under l.1 key)
    (longer : l.1.length < key.length) (keyed : s.KeyedTo l.1 p) (hl : l ∈ s.places p)
    (mem : key ∈ s.keys p) : key ∈ l.2.keys l.1 := by
  rw [← List.count_pos_iff] at mem ⊢
  rwa [← count_keys_of_place under longer p s keyed hl]

theorem KeysApart.nodup_instancesAll {items : List Scene} (h : KeysApart items) {p : String}
    {i : Nat} (each : ∀ a ∈ placed p i items, (a.2.keys a.1).Nodup) :
    ((instancesAll p i items).map Instance.key).Nodup := by
  induction items generalizing i with
  | nil => exact List.nodup_nil
  | cons item rest ih =>
    rw [instancesAll, List.map_append, List.nodup_append]
    refine ⟨each _ List.mem_cons_self,
      ih h.tail fun a ha => each a (List.mem_cons_of_mem _ ha), ?_⟩
    intro k hk k' hk' eq
    obtain ⟨x, hx, rfl⟩ := List.mem_map.1 hk
    obtain ⟨y, hy, rfl⟩ := List.mem_map.1 hk'
    obtain ⟨b, hb, hyb⟩ := mem_instancesAll.1 hy
    exact h.head_apart hb (under_key _ _ x hx) (eq ▸ under_key _ _ y hyb)

/-- No two instances of a well keyed scene are known by the same key. -/
theorem nodup_keys (p : String) (s : Scene) : s.wellKeyed → (s.keys p).Nodup := by
  induction p, s using placedInduction with
  | plain p => exact fun _ => List.nodup_nil
  | list p items ih =>
    intro keyed
    obtain ⟨apart, keyed⟩ := Bool.and_eq_true_iff.1 keyed
    refine (of_decide_eq_true apart).nodup_instancesAll fun a ha => ?_
    obtain ⟨j, -, -, mem⟩ := mem_placed ha
    exact ih a ha (wellKeyed_of_mem keyed mem)
  | element p key part child ih =>
    intro keyed
    unfold keys
    rw [instances, List.map_append, List.nodup_append]
    refine ⟨?_, ih keyed, ?_⟩
    · cases part <;> simp [Part.instances]
    · intro k hk k' hk' eq
      obtain ⟨x, hx, rfl⟩ := List.mem_map.1 hk
      obtain ⟨y, hy, rfl⟩ := List.mem_map.1 hk'
      have lower := length_lt_key _ _ y hy
      cases part with
      | component c found left =>
        obtain rfl := List.mem_singleton.1 hx
        rw [← eq] at lower
        exact Nat.lt_irrefl _ lower
      | _ => cases hx

/-- The arrays that a scene shows, with their places. -/
def arrays (p : String) (s : Scene) : List (String × List Scene) :=
  (s.places p).filterMap fun l =>
    match l.2 with
    | list items => some (l.1, items)
    | _ => none

theorem mem_arrays {p place : String} {s : Scene} {items : List Scene} :
    (place, items) ∈ s.arrays p ↔ (place, list items) ∈ s.places p := by
  unfold arrays
  rw [List.mem_filterMap]
  constructor
  · rintro ⟨⟨q, shown⟩, there, eq⟩
    cases shown with
    | list => cases eq; exact there
    | _ => cases eq
  · exact fun there => ⟨_, there, rfl⟩

/-! ### Scenes side by side -/

theorem keyedTo_of_wellKeyed (place p : String) (s : Scene) : s.wellKeyed → s.KeyedTo place p := by
  induction p, s using placedInduction with
  | plain p =>
    intro _ q items there
    cases List.mem_singleton.1 there
  | list p items ih =>
    intro keyed q items' there under
    obtain ⟨apart, keyed⟩ := Bool.and_eq_true_iff.1 keyed
    obtain same | there := List.mem_cons.1 there
    · cases same
      exact of_decide_eq_true apart
    · obtain ⟨a, ha, there⟩ := mem_placesAll.1 there
      obtain ⟨j, -, -, mem⟩ := mem_placed ha
      exact ih a ha (wellKeyed_of_mem keyed mem) q items' there under
  | element p key part child ih =>
    intro keyed q items' there under
    obtain same | there := List.mem_cons.1 there
    · cases same
    · exact ih keyed q items' there under

theorem KeyedTo.keysApart {place p : String} {items : List Scene} {s : Scene}
    (keyed : s.KeyedTo place p) (h : (place, items) ∈ s.arrays p) : KeysApart items :=
  keyed place items (mem_arrays.1 h) (.refl place)

/-- What lies below an item in one scene belongs, in another, to an item with the same key. -/
theorem exists_item_of_under {p place key : String} {s : Scene} {as bs : List Scene}
    (apart : KeysApart as) {a : String × Scene} (ha : a ∈ placed place 0 as)
    (keyed : s.KeyedTo place p) (hb : (place, bs) ∈ s.arrays p) (mem : key ∈ s.keys p)
    (under : Under a.1 key) : ∃ b ∈ bs, b.key? = a.2.key? := by
  obtain ⟨i, -, eq, ma⟩ := mem_placed ha
  have longer : place.length < key.length :=
    (eq ▸ length_lt_itemPosition place i a.2.key?).trans_le under.length_le
  have there := mem_keys_of_under (l := (place, list bs)) ((placed_under ha).trans under) longer
    keyed (mem_arrays.1 hb) mem
  obtain ⟨y, hy, rfl⟩ := List.mem_map.1 there
  obtain ⟨b, hb', hyb⟩ := mem_instancesAll.1 hy
  obtain ⟨j, -, eq', mb⟩ := mem_placed hb'
  have same := itemName_eq_of_under (apart.unmarked ma i) ((keyed.keysApart hb).unmarked mb j)
    (eq ▸ under) (eq' ▸ under_key _ _ y hyb)
  exact ⟨b.2, mb, (itemName_inj same).1.symm⟩

theorem exists_place_of_instance (p : String) (s : Scene) : ∀ x ∈ s.instances p, ∃ key child,
    (x.position, element key (.component x.component x.found x.left) child) ∈ s.places p := by
  induction p, s using placedInduction with
  | plain p =>
    intro x h
    cases h
  | list p items ih =>
    intro x h
    obtain ⟨a, ha, hx⟩ := mem_instancesAll.1 h
    obtain ⟨key, child, there⟩ := ih a ha x hx
    exact ⟨key, child, List.mem_cons_of_mem _ (mem_placesAll.2 ⟨a, ha, there⟩)⟩
  | element p key part child ih =>
    intro x h
    obtain ⟨c, found, left, rfl, rfl⟩ | below := mem_instances_element.1 h
    · exact ⟨key, child, List.mem_cons_self⟩
    · obtain ⟨key', child', there⟩ := ih x below
      exact ⟨key', child', List.mem_cons_of_mem _ there⟩

theorem under_position {p : String} {s : Scene} {x : Instance} (hx : x ∈ s.instances p) :
    Under p x.position := by
  obtain ⟨key, child, there⟩ := exists_place_of_instance p s x hx
  exact under_place p s _ there

/-- Where an instance stands, nothing is known by the key of another component. -/
theorem component_eq_of_key {p : String} {s : Scene} {x : Instance} (hx : x ∈ s.instances p)
    (keyed : s.KeyedTo x.position p) {d : Value} (mem : instanceKey x.position d ∈ s.keys p)
    (hc : Unmarked x.component.componentName) (hd : Unmarked d.componentName) :
    d.componentName = x.component.componentName ∧ d.componentId = x.component.componentId := by
  obtain ⟨key, child, there⟩ := exists_place_of_instance p s x hx
  have below := mem_keys_of_under (under_instanceKey x.position d)
    (length_lt_instanceKey x.position d) keyed there mem
  obtain ⟨y, hy, eq⟩ := List.mem_map.1 below
  refine component_eq_of_under (p := x.position) hc hd (eq ▸ ?_)
  obtain ⟨c, found, left, part, rfl⟩ | below := mem_instances_element.1 hy
  · cases part
    exact .refl _
  · exact under_key _ _ y below

/-- Nothing else is known by the key of the instance that stands where a scene begins. -/
theorem count_key_of_position (p : String) (s : Scene) : ∀ x ∈ s.instances p, x.position = p →
    (s.keys p).count x.key = 1 := by
  induction p, s using placedInduction with
  | plain p =>
    intro x hx
    cases hx
  | list p items =>
    intro x hx here
    obtain ⟨a, ha, hxa⟩ := mem_instancesAll.1 hx
    obtain ⟨i, -, eq, -⟩ := mem_placed ha
    have lower := (under_position hxa).length_le
    have := length_lt_itemPosition p i a.2.key?
    rw [here, eq] at lower
    omega
  | element p key part child ih =>
    intro x hx here
    unfold keys at ih ⊢
    rw [instances, List.map_append, List.count_append]
    obtain rfl | lower := part.eq_group_or_length_lt p
    · simpa [Part.instances] using ih x (by simpa [instances, Part.instances] using hx) here
    · obtain ⟨c, found, left, rfl, rfl⟩ | below := mem_instances_element.1 hx
      · have others : Instance.key ⟨p, c, found, left⟩ ∉
            (child.instances (instanceKey p c)).map Instance.key := fun mem => by
          obtain ⟨y, hy, eq⟩ := List.mem_map.1 mem
          exact absurd (eq ▸ length_lt_key _ _ y hy) (Nat.lt_irrefl _)
        simp [Part.instances, Part.below, List.count_eq_zero.2 others]
      · have := (under_position below).length_le
        rw [here] at this
        omega

end Scene

end TsxPreview
