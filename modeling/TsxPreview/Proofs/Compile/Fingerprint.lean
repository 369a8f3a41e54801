import Mathlib.Algebra.Group.Nat.Defs
import TsxPreview.Compile.Cache

/-!
The contents that fingerprints digest. Every field stands behind its length, so a content can be read
back in one way only, as long as its lengths fit into eight bytes.
-/

namespace TsxPreview

/-- An imported name is spelled in the fingerprint as what it is. -/
def ImportedName.IsPlain : ImportedName → Prop
  | .default => True
  | .star => True
  | .named name => name ≠ "default" ∧ name ≠ "*"

namespace Fingerprint

/-! ## Bytes -/

theorem toList_loop (bytes : ByteArray) (i : Nat) (read : List UInt8) :
    ByteArray.toList.loop bytes i read = read.reverse ++ bytes.data.toList.drop i := by
  fun_induction ByteArray.toList.loop bytes i read with
  | case1 i read inside ih =>
    have inside : i < bytes.data.toList.length := inside
    have byte : bytes.get! i = bytes.data.toList[i] :=
      getElem!_pos bytes.data i (by simpa using inside)
    rw [ih, List.drop_eq_getElem_cons inside, byte]
    simp
  | case2 i read outside =>
    have outside : bytes.data.toList.length ≤ i := Nat.not_lt.mp outside
    rw [List.drop_eq_nil_of_le outside, List.append_nil]

theorem toList_bytes (bytes : ByteArray) : bytes.toList = bytes.data.toList :=
  toList_loop bytes 0 []

theorem length_bytes (text : String) : text.toUTF8.toList.length = text.utf8ByteSize := by
  rw [toList_bytes]
  rfl

theorem bytes_inj {a b : String} (h : a.toUTF8.toList = b.toUTF8.toList) : a = b := by
  rw [toList_bytes, toList_bytes] at h
  exact String.toByteArray_inj.mp (ByteArray.ext (Array.toList_inj.mp h))

/-! ## Fields -/

theorem length_bigEndian (count n : Nat) : (Sha256.bigEndian count n).length = count := by
  induction count with
  | zero => rfl
  | succ count ih => rw [Sha256.bigEndian, List.length_cons, ih]

/-- The low bytes of a number determine it up to the higher ones. -/
theorem mod_eq_of_bigEndian_eq (count : Nat) {m n : Nat}
    (h : Sha256.bigEndian count m = Sha256.bigEndian count n) :
    m % 256 ^ count = n % 256 ^ count := by
  induction count with
  | zero => rw [Nat.pow_zero, Nat.mod_one, Nat.mod_one]
  | succ count ih =>
    obtain ⟨head, tail⟩ := List.cons.inj h
    have byte : m / 256 ^ count % 256 = n / 256 ^ count % 256 := congrArg UInt8.toNat head
    rw [Nat.mod_pow_succ, Nat.mod_pow_succ, ih tail, byte]

theorem length_littleEndian (n : Nat) : (littleEndian n).length = 8 := by
  rw [littleEndian, List.length_reverse, length_bigEndian]

theorem littleEndian_inj {m n : Nat} (hm : m < 2 ^ 64) (hn : n < 2 ^ 64)
    (h : littleEndian m = littleEndian n) : m = n := by
  have low := mod_eq_of_bigEndian_eq 8 (List.reverse_inj.mp h)
  have size : (256 : Nat) ^ 8 = 2 ^ 64 := by decide
  rwa [size, Nat.mod_eq_of_lt hm, Nat.mod_eq_of_lt hn] at low

theorem length_field (text : String) : (field text).length = 8 + text.utf8ByteSize := by
  rw [field, List.length_append, length_littleEndian, length_bytes]

/-- The first field of a content and what follows it. -/
theorem field_append_inj {a b : String} {x y : List UInt8} (h : field a ++ x = field b ++ y)
    (short : (field a ++ x).length < 2 ^ 64) : a = b ∧ x = y := by
  have short' : (field b ++ y).length < 2 ^ 64 := h ▸ short
  rw [List.length_append, length_field] at short short'
  simp only [field, List.append_assoc] at h
  obtain ⟨size, rest⟩ := List.append_inj h (by rw [length_littleEndian, length_littleEndian])
  have size : a.utf8ByteSize = b.utf8ByteSize := littleEndian_inj (by omega) (by omega) size
  obtain ⟨bytes, rest⟩ := List.append_inj rest (by rw [length_bytes, length_bytes, size])
  exact ⟨bytes_inj bytes, rest⟩

theorem field_ne_nil (text : String) (rest : List UInt8) : field text ++ rest ≠ [] := by
  intro h
  have := congrArg List.length h
  rw [List.length_append, length_field, List.length_nil] at this
  omega

/-! ## Contents -/

theorem profileName_inj {a b : Profile} (h : profileName a = profileName b) : a = b := by
  cases a <;> cases b <;> first
    | rfl
    | exact absurd h (by decide)

theorem importedName_inj {a b : ImportedName} (ha : a.IsPlain) (hb : b.IsPlain)
    (h : importedName a = importedName b) : a = b := by
  cases a <;> cases b <;> first
    | rfl
    | exact absurd h (by decide)
    | exact absurd h.symm hb.1
    | exact absurd h.symm hb.2
    | exact absurd h ha.1
    | exact absurd h ha.2
    | exact congrArg ImportedName.named h

theorem bindingFields_append_inj {a b : ExternalBinding} {x y : List UInt8}
    (ha : a.imported.IsPlain) (hb : b.imported.IsPlain)
    (h : bindingFields a ++ x = bindingFields b ++ y)
    (short : (bindingFields a ++ x).length < 2 ^ 64) : a = b ∧ x = y := by
  simp only [bindingFields, List.append_assoc] at h short
  obtain ⟨name, rest⟩ := field_append_inj h short
  rw [List.length_append] at short
  obtain ⟨imported, rest⟩ := field_append_inj rest (by omega)
  rw [List.length_append] at short
  obtain ⟨source, tail⟩ := field_append_inj rest (by omega)
  have imported := importedName_inj ha hb imported
  obtain ⟨an, ai, as⟩ := a
  obtain ⟨bn, bi, bs⟩ := b
  exact ⟨by rw [ExternalBinding.mk.injEq]; exact ⟨name, imported, source⟩, tail⟩

theorem flatMap_bindingFields_inj {as bs : List ExternalBinding}
    (ha : ∀ b ∈ as, b.imported.IsPlain) (hb : ∀ b ∈ bs, b.imported.IsPlain)
    (h : as.flatMap bindingFields = bs.flatMap bindingFields)
    (short : (as.flatMap bindingFields).length < 2 ^ 64) : as = bs := by
  have nonempty (b : ExternalBinding) (rest : List UInt8) : bindingFields b ++ rest ≠ [] := by
    simp only [bindingFields, List.append_assoc]
    exact field_ne_nil _ _
  induction as generalizing bs with
  | nil =>
    cases bs with
    | nil => rfl
    | cons b bs => exact absurd h.symm (nonempty b _)
  | cons a as ih =>
    cases bs with
    | nil => exact absurd h (nonempty a _)
    | cons b bs =>
      simp only [List.flatMap_cons] at h short
      obtain ⟨rfl, rest⟩ := bindingFields_append_inj (ha a List.mem_cons_self)
        (hb b List.mem_cons_self) h short
      rw [List.length_append] at short
      rw [ih (fun x hx => ha x (List.mem_cons_of_mem _ hx))
        (fun x hx => hb x (List.mem_cons_of_mem _ hx)) rest (by omega)]

/-- A content determines the path, the profile, the text and the bindings. -/
theorem content_inj {path₁ path₂ : String} {profile₁ profile₂ : Profile} {text₁ text₂ : String}
    {as bs : List ExternalBinding} (ha : ∀ b ∈ as, b.imported.IsPlain)
    (hb : ∀ b ∈ bs, b.imported.IsPlain)
    (h : content path₁ profile₁ text₁ as = content path₂ profile₂ text₂ bs)
    (short : (content path₁ profile₁ text₁ as).length < 2 ^ 64) :
    path₁ = path₂ ∧ profile₁ = profile₂ ∧ text₁ = text₂ ∧ as = bs := by
  simp only [content, List.append_assoc] at h short
  obtain ⟨path, rest⟩ := field_append_inj h short
  rw [List.length_append] at short
  obtain ⟨profile, rest⟩ := field_append_inj rest (by omega)
  rw [List.length_append] at short
  obtain ⟨text, rest⟩ := field_append_inj rest (by omega)
  rw [List.length_append] at short
  exact ⟨path, profileName_inj profile, text, flatMap_bindingFields_inj ha hb rest (by omega)⟩

end Fingerprint

end TsxPreview
