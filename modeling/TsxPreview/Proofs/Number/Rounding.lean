import Mathlib
import TsxPreview.Number.Binary64

/-!
Sums of doubles as exact numbers. A place that is counted from the end of a list is a length plus a
negative double, rounded to the nearest double; as an index it is no larger than the length.
-/

namespace TsxPreview.Binary64

open Float.Model Float.Model.UnpackedFloat

/-! ## Bits -/

/-- The bits of a double. -/
abbrev Bits := BitVec Format.binary64.numBits

theorem toNat_unpackSign (b : Bits) : (unpackSign b).toNat = b.toNat / 2 ^ 63 % 2 := by
  simp [unpackSign, Nat.shiftRight_eq_div_pow]

theorem toNat_unpackExponent (b : Bits) : (unpackExponent b).toNat = b.toNat / 2 ^ 52 % 2 ^ 11 := by
  simp [unpackExponent, Nat.shiftRight_eq_div_pow]

theorem toNat_unpackMantissa (b : Bits) : (unpackMantissa b).toNat = b.toNat % 2 ^ 52 := by
  simp [unpackMantissa]

/-- The double with the given fields. -/
def ofFields (s : Sign) (field : BitVec 11) (fraction : BitVec 52) : UnpackedFloat :=
  if field = -1#11 then
    if fraction = 0#52 then .infinity s else .notANumber
  else if field = 0#11 then
    if pos : 0 < fraction.toNat then .finite s fraction.toNat minExponent pos else .zero s
  else .finite s (2 ^ 52 + fraction.toNat) (field.toNat - 1075) (by omega)

theorem unpack_eq (b : Bits) : UnpackedFloat.unpack Format.binary64 b =
    ofFields (Sign.ofBitVec (unpackSign b)) (unpackExponent b) (unpackMantissa b) := by
  have bias : (Format.binary64.exponentBias : Int) +
      Format.binary64.mantissaBitsWithoutImplicit = 1075 := rfl
  have whole : (1#1 ++ unpackMantissa b).toNat = 2 ^ 52 + (unpackMantissa b).toNat := by
    rw [BitVec.toNat_append, ← Nat.shiftLeft_add_eq_or_of_lt (unpackMantissa b).isLt,
      Nat.shiftLeft_eq]
    rfl
  have solid : 0 < (unpackMantissa b).toNat ↔ ¬unpackMantissa b = 0#52 := by
    rw [BitVec.toNat_pos, BitVec.pos_iff_ne_zero]
  unfold UnpackedFloat.unpack ofFields
  simp only [bias, whole]
  split_ifs with special none subnormal empty some
  · rfl
  · rfl
  · exact absurd empty (solid.mp some)
  · rfl
  · rw [subnormal]
    rfl
  · exact absurd (solid.mpr empty) ‹_›
  · rfl

theorem unpack_packComponents (s : Sign) (field : BitVec 11) (fraction : BitVec 52) :
    UnpackedFloat.unpack Format.binary64 (packComponents Format.binary64 s field fraction) =
      ofFields s field fraction := by
  rw [unpack_eq, unpackSign_packComponents, unpackExponent_packComponents,
    unpackMantissa_packComponents, Sign.ofBitVec_toBitVec]

def bitsOf (x : Float) : Bits := x.toModel.toBits.toBitVec

/-- The unpacked form of a double. -/
def unpacked (x : Float) : UnpackedFloat := UnpackedFloat.unpack Format.binary64 (bitsOf x)

/-- What packing a number leaves of it. -/
def repacked (f : UnpackedFloat) : UnpackedFloat :=
  UnpackedFloat.unpack Format.binary64 (UnpackedFloat.pack Format.binary64 f)

theorem unpacked_add (x y : Float) :
    unpacked (x + y) = repacked (UnpackedFloat.add Format.binary64 (unpacked x) (unpacked y)) :=
  rfl

theorem unpacked_ofBits (bits : UInt64) :
    unpacked (Float.ofBits bits) =
      repacked (UnpackedFloat.unpack Format.binary64 bits.toBitVec) :=
  rfl

/-! ## Packing -/

theorem repacked_eq {s : Sign} {m : Nat} {e : Int} {pos : 0 < m} (le : e ≤ 971) :
    repacked (.finite s m e pos) =
      if m.log2 = 52 then ofFields s (BitVec.ofNat 11 (e + 1075).toNat) (BitVec.ofNat 52 m)
      else ofFields s 0#11 (BitVec.ofNat 52 m) := by
  have bias : e + (Format.binary64.exponentBias : Int) +
      (Format.binary64.mantissaBitsWithoutImplicit : Int) = e + 1075 :=
    show e + (1023 : Int) + 52 = e + 1075 by omega
  have bits : (m.log2 + 1 = Format.binary64.mantissaBits) ↔ m.log2 = 52 :=
    show m.log2 + 1 = 1 + 52 ↔ m.log2 = 52 by omega
  have small : ¬2 ^ Format.binary64.exponentBits ≤ (e + 1075).toNat + 1 :=
    show ¬2 ^ 11 ≤ (e + 1075).toNat + 1 by omega
  unfold repacked UnpackedFloat.pack
  simp only [bias, bits, if_neg small]
  split_ifs
  · exact unpack_packComponents s _ _
  · exact unpack_packComponents s _ _

/-- A number with all its digits comes back. -/
theorem repacked_of_log2 {s : Sign} {m : Nat} {e : Int} {pos : 0 < m} (full : m.log2 = 52)
    (low : -1074 ≤ e) (high : e ≤ 971) : repacked (.finite s m e pos) = .finite s m e pos := by
  have bounds := (Nat.log2_eq_iff (Nat.pos_iff_ne_zero.mp pos)).mp full
  have field : (BitVec.ofNat 11 (e + 1075).toNat).toNat = (e + 1075).toNat := by
    rw [BitVec.toNat_ofNat]
    omega
  have fraction : 2 ^ 52 + (BitVec.ofNat 52 m).toNat = m := by
    rw [BitVec.toNat_ofNat]
    omega
  have special : BitVec.ofNat 11 (e + 1075).toNat ≠ -1#11 := fun eq => by
    have := congrArg BitVec.toNat eq
    rw [field, show (-1#11).toNat = 2047 from rfl] at this
    omega
  have subnormal : BitVec.ofNat 11 (e + 1075).toNat ≠ 0#11 := fun eq => by
    have := congrArg BitVec.toNat eq
    rw [field, show (0#11).toNat = 0 from rfl] at this
    omega
  rw [repacked_eq high, if_pos full, ofFields, if_neg special, if_neg subnormal]
  congr 1
  rw [field]
  omega

/-! ## Places -/

/-- The natural number below `m * 2 ^ e`. -/
def floor (m : Nat) (e : Int) : Nat := (scaled m 1 e).1 / (scaled m 1 e).2

theorem floor_le {m n : Nat} {e : Int} (le : (m : ℚ) * 2 ^ e ≤ n) : floor m e ≤ n := by
  unfold floor scaled
  split_ifs with nonneg
  · obtain ⟨k, rfl⟩ := Int.eq_ofNat_of_zero_le nonneg
    rw [Nat.div_one]
    exact_mod_cast le
  · obtain ⟨k, rfl⟩ : ∃ k : Nat, e = -(k : Int) := ⟨(-e).toNat, by omega⟩
    rw [zpow_neg, zpow_natCast, ← div_eq_mul_inv, div_le_iff₀ (by positivity)] at le
    have nat : m ≤ n * 2 ^ k := by exact_mod_cast le
    refine Nat.div_le_of_le_mul ?_
    rw [Int.neg_neg, Int.toNat_natCast, Nat.one_mul, Nat.mul_comm]
    exact nat

theorem floor_eq_zero {m k : Nat} {e : Int} (lt : m < 2 ^ k) (low : e ≤ -(k : Int)) :
    floor m e = 0 := by
  obtain ⟨j, rfl⟩ : ∃ j : Nat, e = -(j : Int) := ⟨(-e).toNat, by omega⟩
  have wide : 2 ^ k ≤ 2 ^ j := Nat.pow_le_pow_right (Nat.succ_pos 1) (by omega)
  unfold floor scaled
  split_ifs with nonneg
  · obtain rfl : k = 0 := by omega
    obtain rfl : m = 0 := by omega
    exact Nat.div_eq_of_lt (by simp)
  · rw [Int.neg_neg, Int.toNat_natCast, Nat.one_mul]
    exact Nat.div_eq_of_lt (Nat.lt_of_lt_of_le lt wide)

/-- The index that an unpacked double becomes, unless it is too large for one. -/
def indexOf : UnpackedFloat → Nat
  | .finite .positive m e _ => floor m e
  | .infinity .positive => Nat.pow 2 64 - 1
  | _ => 0

theorem le_zero_iff (x : Float) :
    x ≤ 0 ↔ (unpacked x).compare (.zero .positive) = some .lt ∨
      (unpacked x).compare (.zero .positive) = some .eq := by
  refine (decide_eq_true_iff (p := x.toModel ≤ (0 : Float).toModel)).trans ?_
  show ((unpacked x).compare (.zero .positive)).any (·.isLE) = true ↔ _
  cases (unpacked x).compare (.zero .positive) with
  | none => simp
  | some o => cases o <;> simp

theorem fields_of_finite {b : Bits} {s : Sign} {m : Nat} {e : Int} {pos : 0 < m}
    (h : UnpackedFloat.unpack Format.binary64 b = .finite s m e pos) :
    (2 ^ 63 ≤ b.toNat → s = .negative) ∧
      if b.toNat / 2 ^ 52 % 2 ^ 11 = 0 then m = b.toNat % 2 ^ 52 ∧ e = minExponent
      else m = b.toNat % 2 ^ 52 + 2 ^ 52 ∧ e = (b.toNat / 2 ^ 52 % 2 ^ 11 : Nat) - 1075 := by
  have sign := toNat_unpackSign b
  have lt : b.toNat < 2 ^ 64 := b.isLt
  have negative : 2 ^ 63 ≤ b.toNat → Sign.ofBitVec (unpackSign b) = .negative := fun large => by
    refine if_neg fun zero => ?_
    rw [zero, show (0#1).toNat = 0 from rfl] at sign
    omega
  rw [← toNat_unpackExponent, ← toNat_unpackMantissa]
  rw [unpack_eq, ofFields] at h
  split_ifs at h with special empty subnormal some
  · cases h
    exact ⟨negative, by rw [if_pos (by rw [subnormal]; rfl)]; exact ⟨rfl, rfl⟩⟩
  · cases h
    have normal : (unpackExponent b).toNat ≠ 0 :=
      fun zero => subnormal (BitVec.eq_of_toNat_eq zero)
    exact ⟨negative, by rw [if_neg normal]; exact ⟨Nat.add_comm _ _, rfl⟩⟩

theorem compare_of_neg {x : Float} (negative : x < 0) :
    (unpacked x).compare (.zero .positive) = some .lt := by
  have h : x.toModel < (0 : Float).toModel := of_decide_eq_true negative
  have h : ((unpacked x).compare (.zero .positive) == some .lt) = true := h
  exact eq_of_beq h

theorem parts_of_finite {x : Float} {s : Sign} {m : Nat} {e : Int} {pos : 0 < m}
    (h : unpacked x = .finite s m e pos) : (parts x).m = m ∧ (parts x).q = e ∧
      ((parts x).negative = true → s = .negative) := by
  obtain ⟨sign, fields⟩ := fields_of_finite h
  have bits : x.toBits.toNat = (bitsOf x).toNat := rfl
  unfold parts
  rw [bits]
  generalize (bitsOf x).toNat = n at sign fields ⊢
  dsimp only
  split_ifs with subnormal
  · obtain ⟨rfl, rfl⟩ := (if_pos subnormal).mp fields
    exact ⟨rfl, rfl, fun large => sign (of_decide_eq_true large)⟩
  · obtain ⟨rfl, rfl⟩ := (if_neg subnormal).mp fields
    exact ⟨rfl, rfl, fun large => sign (of_decide_eq_true large)⟩

theorem toIndex_of_le_zero {x : Float} (h : x ≤ 0) : toIndex x = 0 :=
  if_pos (by rw [decide_eq_true h, Bool.or_true])

theorem toIndex_of_neg {x : Float} (negative : x < 0) : toIndex x = 0 :=
  toIndex_of_le_zero ((le_zero_iff x).mpr (.inl (compare_of_neg negative)))

theorem toIndex_le (x : Float) : toIndex x ≤ indexOf (unpacked x) := by
  have nan : x.isNaN = (unpacked x).isNaN := rfl
  have inf : x.isInf = (unpacked x).isInf := rfl
  have low := le_zero_iff x
  cases form : unpacked x with
  | notANumber =>
    rw [form] at nan
    exact Nat.le_of_eq (if_pos (by rw [nan]; rfl))
  | zero s =>
    rw [form] at low
    rw [toIndex_of_le_zero (low.mpr (.inr rfl))]
    exact Nat.zero_le _
  | infinity s =>
    rw [form] at low
    cases s with
    | negative =>
      rw [toIndex_of_le_zero (low.mpr (.inl rfl))]
      exact Nat.zero_le _
    | positive =>
      unfold toIndex toNatBelow
      split_ifs
      · exact Nat.zero_le _
      · exact Nat.le_refl _
      · exact Nat.min_le_right _ _
  | finite s m e pos =>
    rw [form] at low inf
    obtain ⟨mantissa, exponent, sign⟩ := parts_of_finite form
    cases s with
    | negative =>
      rw [toIndex_of_le_zero (low.mpr (.inl rfl))]
      exact Nat.zero_le _
    | positive =>
      have value : truncToInt x = floor m e := by
        unfold truncToInt Parts.ratio
        dsimp only
        rw [if_neg (fun negative => nomatch sign negative), mantissa, exponent]
        rfl
      unfold toIndex toNatBelow
      have inf : x.isInf = false := inf
      rw [inf, if_neg Bool.false_ne_true, value]
      split_ifs
      · exact Nat.zero_le _
      · exact Nat.min_le_left _ _

theorem indexOf_negative (field : BitVec 11) (fraction : BitVec 52) :
    indexOf (ofFields .negative field fraction) = 0 := by
  unfold ofFields
  split_ifs <;> rfl

theorem indexOf_subnormal (s : Sign) (fraction : BitVec 52) :
    indexOf (ofFields s 0#11 fraction) = 0 := by
  unfold ofFields
  rw [if_neg (show ¬0#11 = -1#11 by decide), if_pos rfl]
  split_ifs
  · cases s with
    | positive => exact floor_eq_zero fraction.isLt (by decide)
    | negative => rfl
  · rfl

/-! ## Rounding -/

/-- The numbers that are at most a natural number, and not-a-number. -/
inductive Below (n : Nat) : UnpackedFloat → Prop where
  | notANumber : Below n .notANumber
  | zero (s : Sign) : Below n (.zero s)
  | infinity : Below n (.infinity .negative)
  | negative (m : Nat) (e : Int) (pos : 0 < m) : Below n (.finite .negative m e pos)
  | positive {m : Nat} {e : Int} {pos : 0 < m} (le : (m : ℚ) * 2 ^ e ≤ n) :
      Below n (.finite .positive m e pos)

theorem mantissa_shiftRight (em : ExtendedMantissa) (k : Nat) :
    (em >>> k).mantissa = em.mantissa / 2 ^ k := by
  show (k.repeat ExtendedMantissa.shiftRightOne em).mantissa = _
  induction k with
  | zero => exact (Nat.div_one _).symm
  | succ k ih =>
    rw [Nat.pow_succ, ← Nat.div_div_eq_div_mul, ← ih]
    rfl

theorem roundedMantissa_le (em : ExtendedMantissa) : em.roundedMantissa ≤ em.mantissa + 1 := by
  unfold ExtendedMantissa.roundedMantissa
  rcases em.accuracy with _ | o
  · exact Nat.le_succ _
  · cases o with
    | lt => exact Nat.le_succ _
    | eq =>
      show em.mantissa + em.mantissa % 2 ≤ _
      omega
    | gt => exact Nat.le_refl _

/-- A number that needs no more bits than a significand has none to lose before the point. -/
theorem targetExponent_le {m n : Nat} {e : Int} (pos : 0 < m) (lt : (m : ℚ) * 2 ^ e < n)
    (le : n ≤ 2 ^ 53) : Format.binary64.targetExponent (totalExponent m e) ≤ 0 := by
  have digits : ((2 ^ m.log2 : Nat) : ℚ) ≤ m :=
    Nat.cast_le.mpr (Nat.log2_self_le (Nat.pos_iff_ne_zero.mp pos))
  have bound : (2 : ℚ) ^ ((m.log2 : Int) + e) < 2 ^ (53 : Int) := by
    calc (2 : ℚ) ^ ((m.log2 : Int) + e)
        = (2 ^ m.log2 : Nat) * 2 ^ e := by
          rw [zpow_add₀ (by norm_num), zpow_natCast]
          norm_cast
      _ ≤ m * 2 ^ e := by gcongr
      _ < n := lt
      _ ≤ 2 ^ (53 : Int) := by exact_mod_cast le
  have := (zpow_lt_zpow_iff_right₀ (by norm_num)).mp bound
  show max ((m.log2 : Int) + 1 + e - 53) (-1074) ≤ 0
  omega

/-- The significand is rounded up by one at most, and a natural number has no digits behind the
point that it could pass. -/
theorem roundedMantissa_shiftRight_le {m k j n : Nat} (lt : m < n * 2 ^ (j + k)) (a : Accuracy) :
    (ExtendedMantissa.ofMantissaAndAccuracy m a >>> k).roundedMantissa ≤ n * 2 ^ j := by
  have start : (ExtendedMantissa.ofMantissaAndAccuracy m a).mantissa = m := by
    unfold ExtendedMantissa.ofMantissaAndAccuracy
    split <;> rfl
  have step := roundedMantissa_le (ExtendedMantissa.ofMantissaAndAccuracy m a >>> k)
  rw [mantissa_shiftRight, start] at step
  have below : m / 2 ^ k < n * 2 ^ j := by
    rw [Nat.div_lt_iff_lt_mul (Nat.two_pow_pos k), Nat.mul_assoc, ← Nat.pow_add]
    exact lt
  exact Nat.le_trans step below

theorem below_roundWithAccuracy {m n : Nat} {e : Int} (pos : 0 < m) (lt : (m : ℚ) * 2 ^ e < n)
    (whole : e ≤ 0) (le : n ≤ 2 ^ 53) :
    Below n (roundWithAccuracy Format.binary64 .positive m e .exact) := by
  have target := targetExponent_le pos lt le
  unfold roundWithAccuracy shiftToTargetExponent shiftToExponent
  dsimp only
  generalize Format.binary64.targetExponent (totalExponent m e) = t at target ⊢
  generalize shift : (t - e).toNat = k
  obtain ⟨j, exponent⟩ : ∃ j : Nat, e = -((j + k : Nat) : Int) := ⟨(-e - k).toNat, by omega⟩
  have fits : m < n * 2 ^ (j + k) := by
    rw [exponent, zpow_neg, zpow_natCast, ← div_eq_mul_inv, div_lt_iff₀ (by positivity)] at lt
    exact_mod_cast lt
  have rounded := roundedMantissa_shiftRight_le fits .exact
  generalize (ExtendedMantissa.ofMantissaAndAccuracy m .exact >>> k).roundedMantissa = r
    at rounded ⊢
  generalize (Format.binary64.targetExponent (totalExponent r (e + k)) - (e + k)).toNat = l
  rw [mantissa_shiftRight]
  show Below n (if h : r / 2 ^ l = 0 then _ else _)
  split
  · exact .zero _
  · refine .positive ?_
    have floor : ((r / 2 ^ l : Nat) : ℚ) ≤ r / 2 ^ l := by exact_mod_cast Nat.cast_div_le
    calc ((r / 2 ^ l : Nat) : ℚ) * 2 ^ (e + k + l)
        ≤ r / 2 ^ l * 2 ^ (e + k + l) := by gcongr
      _ = r * 2 ^ (-(j : Int)) := by
          rw [show e + k + l = -(j : Int) + l by omega, zpow_add₀ (by norm_num), zpow_natCast]
          field_simp
      _ ≤ (n * 2 ^ j : Nat) * 2 ^ (-(j : Int)) := by gcongr
      _ = n := by
          rw [zpow_neg, zpow_natCast]
          push_cast
          field_simp

theorem below_round {m n : Nat} {e : Int} (pos : 0 < m) (lt : (m : ℚ) * 2 ^ e < n)
    (le : n ≤ 2 ^ 53) : Below n (UnpackedFloat.round Format.binary64 .positive m e) := by
  have target := targetExponent_le pos lt le
  unfold UnpackedFloat.round decreaseExponent
  dsimp only
  generalize Format.binary64.targetExponent (totalExponent m e) = t at target ⊢
  generalize shift : (e - t).toNat = k
  rw [Nat.shiftLeft_eq]
  refine below_roundWithAccuracy (Nat.mul_pos pos (Nat.two_pow_pos k)) ?_ (by omega) le
  calc ((m * 2 ^ k : Nat) : ℚ) * 2 ^ (e - k)
      = m * 2 ^ e := by
        rw [zpow_sub₀ (by norm_num), zpow_natCast]
        push_cast
        field_simp
    _ < n := lt

theorem below_round_negative (n m : Nat) (e : Int) :
    Below n (UnpackedFloat.round Format.binary64 .negative m e) := by
  unfold UnpackedFloat.round roundWithAccuracy
  dsimp only
  split_ifs
  · exact .zero _
  · exact .negative ..

/-! ## Sums -/

theorem shiftLeft_value {n m k : Nat} {e f : Int} (value : (m : ℚ) * 2 ^ e = n)
    (shift : e = f + k) : ((m <<< k : Nat) : ℚ) * 2 ^ f = n := by
  rw [← value, shift, zpow_add₀ (by norm_num), zpow_natCast, Nat.shiftLeft_eq]
  push_cast
  ring

/-- The doubles that are a natural number. -/
inductive Denotes (n : Nat) : UnpackedFloat → Prop where
  | zero (h : n = 0) (s : Sign) : Denotes n (.zero s)
  | finite {m : Nat} {e : Int} {pos : 0 < m} (value : (m : ℚ) * 2 ^ e = n) :
      Denotes n (.finite .positive m e pos)

theorem below_add {n : Nat} {y x : UnpackedFloat} (denotes : Denotes n y) (le : n ≤ 2 ^ 53)
    (negative : x.compare (.zero .positive) = some .lt) :
    Below n (UnpackedFloat.add Format.binary64 y x) := by
  cases x with
  | notANumber => cases negative
  | zero s => cases negative
  | infinity s =>
    cases s with
    | positive => cases negative
    | negative => cases denotes <;> exact .infinity
  | finite s m' e' pos' =>
    cases s with
    | positive => cases negative
    | negative =>
      cases denotes with
      | zero h s => exact .negative ..
      | @finite m e pos value =>
        unfold UnpackedFloat.add decreaseExponent
        dsimp only
        have shifted := shiftLeft_value value (show e = min e e' + (e - min e e').toNat by omega)
        generalize min e e' = f at shifted ⊢
        have taken : 0 < m' <<< (e' - f).toNat := by
          rw [Nat.shiftLeft_eq]
          exact Nat.mul_pos pos' (Nat.two_pow_pos _)
        generalize m <<< (e - f).toNat = a at shifted ⊢
        generalize m' <<< (e' - f).toNat = b at taken ⊢
        -- on a common exponent the difference is exact, and only then rounded
        show Below n (UnpackedFloat.normalize Format.binary64 ((a : Int) + -(b : Int)) f .positive)
        unfold UnpackedFloat.normalize
        split
        · exact below_round_negative ..
        · exact .zero _
        · rename_i greater
          have some : (0 : Int) < a + -b := compare_gt_iff_gt.mp greater
          have less : ((a : Int) + -b).toNat < a := by omega
          refine below_round (by omega) ?_ le
          rw [← shifted]
          gcongr

theorem unpack_of_fields {b : Bits} {field fraction : Nat}
    (bits : b.toNat = field * 2 ^ 52 + fraction) (short : fraction < 2 ^ 52) (normal : 0 < field)
    (plain : field < 2047) : UnpackedFloat.unpack Format.binary64 b =
      .finite .positive (2 ^ 52 + fraction) (field - 1075) (by omega) := by
  have sign : unpackSign b = 0#1 := BitVec.eq_of_toNat_eq (by
    rw [toNat_unpackSign, bits, show (0#1).toNat = 0 from rfl]
    omega)
  have exponent : (unpackExponent b).toNat = field := by
    rw [toNat_unpackExponent, bits]
    omega
  have mantissa : (unpackMantissa b).toNat = fraction := by
    rw [toNat_unpackMantissa, bits]
    omega
  have special : unpackExponent b ≠ -1#11 := fun eq => by
    rw [eq, show (-1#11).toNat = 2047 from rfl] at exponent
    omega
  have subnormal : unpackExponent b ≠ 0#11 := fun eq => by
    rw [eq, show (0#11).toNat = 0 from rfl] at exponent
    omega
  rw [unpack_eq, ofFields, if_neg special, if_neg subnormal, sign]
  congr 1
  · rw [mantissa]
  · rw [exponent]

theorem scaled_natCast (n d k : Nat) : scaled n d k = (n * 2 ^ k, d) :=
  if_pos (Int.natCast_nonneg k)

theorem scaled_neg (n d k : Nat) : scaled n d (-(k : Int)) = (n, d * 2 ^ k) := by
  cases k with
  | zero => simp [scaled]
  | succ k =>
    unfold scaled
    rw [if_neg (by omega), Int.neg_neg, Int.toNat_natCast]
    rfl

theorem log2Ratio_one {n : Nat} (pos : 0 < n) : log2Ratio n 1 = n.log2 := by
  have low := Nat.log2_self_le (Nat.pos_iff_ne_zero.mp pos)
  have zero : (n.log2 : Int) - ((1 : Nat).log2 : Int) = n.log2 := Int.sub_zero _
  unfold log2Ratio
  rw [zero]
  dsimp only
  rw [scaled_neg]
  exact if_neg (by omega)

/-- A natural number that fits into a significand is scaled until it fills one. -/
theorem ofNat_eq {n k : Nat} (pos : 0 < n) (digits : n.log2 + k = 52) :
    ofNat n = Float.ofBits ((1074 - k) * 2 ^ 52 + n * 2 ^ k).toUInt64 := by
  have high := Nat.lt_log2_self (n := n)
  have most : n * 2 ^ k < 2 ^ 53 := by
    rw [show 53 = n.log2 + 1 + k by omega, Nat.pow_add]
    exact Nat.mul_lt_mul_of_pos_right high (Nat.two_pow_pos k)
  have q : max ((n.log2 : Int) - 52) minExponent = -(k : Int) := by
    show max ((n.log2 : Int) - 52) (-1074) = _
    omega
  have field : (-(k : Int) - minExponent).toNat = 1074 - k := by
    show (-(k : Int) - -1074).toNat = _
    omega
  have whole : roundHalfEven (n * 2 ^ k) 1 = n * 2 ^ k := by
    unfold roundHalfEven
    rw [Nat.mod_one, Nat.div_one]
    rfl
  unfold ofNat ofRatio
  rw [if_neg (by omega), log2Ratio_one pos, q]
  dsimp only
  rw [Int.neg_neg, scaled_natCast]
  dsimp only
  rw [field, whole, show Nat.pow 2 52 = 2 ^ 52 from rfl, if_pos (by omega)]

theorem denotes_ofNat {n : Nat} (lt : n < 2 ^ 53) : Denotes n (unpacked (ofNat n)) := by
  by_cases zero : n = 0
  · subst zero
    exact .zero rfl .positive
  · have pos : 0 < n := Nat.pos_iff_ne_zero.mpr zero
    have low := Nat.log2_self_le zero
    have high := Nat.lt_log2_self (n := n)
    have short : n.log2 < 53 := (Nat.log2_lt zero).mpr lt
    obtain ⟨k, digits⟩ : ∃ k, n.log2 + k = 52 := ⟨52 - n.log2, by omega⟩
    have least : 2 ^ 52 ≤ n * 2 ^ k := by
      rw [← digits, Nat.pow_add]
      exact Nat.mul_le_mul_right _ low
    have most : n * 2 ^ k < 2 ^ 53 := by
      rw [show 53 = n.log2 + 1 + k by omega, Nat.pow_add]
      exact Nat.mul_lt_mul_of_pos_right high (Nat.two_pow_pos k)
    have bits : ((1074 - k) * 2 ^ 52 + n * 2 ^ k).toUInt64.toBitVec.toNat =
        (1075 - k) * 2 ^ 52 + (n * 2 ^ k - 2 ^ 52) := by
      rw [UInt64.toNat_toBitVec, Nat.toUInt64, UInt64.toNat_ofNat', Nat.mod_eq_of_lt (by omega)]
      omega
    have fields := unpack_of_fields bits (by omega) (by omega) (by omega)
    have log : (2 ^ 52 + (n * 2 ^ k - 2 ^ 52)).log2 = 52 :=
      (Nat.log2_eq_iff (by omega)).mpr ⟨by omega, by omega⟩
    rw [ofNat_eq pos digits, unpacked_ofBits, fields, repacked_of_log2 log (by omega) (by omega)]
    refine .finite ?_
    rw [show 2 ^ 52 + (n * 2 ^ k - 2 ^ 52) = n * 2 ^ k by omega,
      show ((1075 - k : Nat) - 1075 : Int) = -(k : Int) by omega, zpow_neg, zpow_natCast]
    push_cast
    field_simp

theorem indexOf_repacked_negative {m : Nat} {e : Int} {pos : 0 < m} :
    indexOf (repacked (.finite .negative m e pos)) = 0 := by
  unfold repacked UnpackedFloat.pack
  dsimp only
  split_ifs
  · rw [packedInfinity, unpack_packComponents, indexOf_negative]
  · rw [unpack_packComponents, indexOf_negative]
  · rw [unpack_packComponents, indexOf_negative]

theorem indexOf_repacked_le {n : Nat} {f : UnpackedFloat} (h : Below n f) (le : n ≤ 2 ^ 53) :
    indexOf (repacked f) ≤ n := by
  cases h with
  | notANumber => exact Nat.zero_le n
  | zero s => cases s <;> exact Nat.zero_le n
  | infinity => exact Nat.zero_le n
  | negative m e pos =>
    rw [indexOf_repacked_negative]
    exact Nat.zero_le n
  | @positive m e pos below =>
    have high : e ≤ 971 := by
      by_contra large
      have one : (1 : ℚ) ≤ m := by exact_mod_cast pos
      have : (2 : ℚ) ^ (972 : Int) ≤ 2 ^ (53 : Int) := by
        calc (2 : ℚ) ^ (972 : Int) ≤ 2 ^ e := zpow_le_zpow_right₀ (by norm_num) (by omega)
          _ ≤ m * 2 ^ e := le_mul_of_one_le_left (by positivity) one
          _ ≤ n := below
          _ ≤ 2 ^ (53 : Int) := by exact_mod_cast le
      have := (zpow_le_zpow_iff_right₀ (by norm_num)).mp this
      omega
    by_cases full : m.log2 = 52
    · by_cases low : -1074 ≤ e
      · rw [repacked_of_log2 full low high]
        exact floor_le below
      · rw [repacked_eq high, if_pos full, show (e + 1075).toNat = 0 by omega]
        exact le_of_eq_of_le (indexOf_subnormal ..) (Nat.zero_le n)
    · rw [repacked_eq high, if_neg full, indexOf_subnormal]
      exact Nat.zero_le n

/-- What a place counted from the end of a list comes to is no larger than the list. -/
theorem toIndex_add_le {n : Nat} {x : Float} (lt : n < 2 ^ 53) (negative : x < 0) :
    toIndex (ofNat n + x) ≤ n := by
  refine Nat.le_trans (toIndex_le _) ?_
  rw [unpacked_add]
  exact indexOf_repacked_le
    (below_add (denotes_ofNat lt) (Nat.le_of_lt lt) (compare_of_neg negative)) (Nat.le_of_lt lt)

end TsxPreview.Binary64
