import Mathlib.Data.List.Basic
import Mathlib.Tactic.IntervalCases

/-!
# `Lib.Utf8` — UTF-8 as a prefix code over Unicode scalar values

`encodeScalar` is the encoding of one scalar value, `encode` the encoding of a list, and
`WellFormed` says that a byte string is such an encoding. The one structural fact a client needs is
that the code is **prefix-free** (`encodeScalar_append_inj`): a byte string starts with the encoding of
at most one scalar value. Injectivity of `encode` follows by induction.

`every_byte` turns a statement about every byte into a check of 256 numbers.
-/

namespace Utf8

/-- To show something of every byte it is enough to show it of the numbers `0 … 255`, which `decide`
    can enumerate. -/
theorem every_byte {P : UInt8 → Prop} (h : ∀ n < 256, P (UInt8.ofNat n)) : ∀ b, P b := by
  intro b
  have hb := h b.toNat b.toNat_lt
  simpa using hb

/-- A byte is determined by its number. -/
theorem ofNat_inj {a b : Nat} (ha : a < 256) (hb : b < 256) :
    UInt8.ofNat a = UInt8.ofNat b ↔ a = b := by
  constructor
  · intro h
    have hn := congrArg UInt8.toNat h
    simpa [Nat.mod_eq_of_lt ha, Nat.mod_eq_of_lt hb] using hn
  · rintro rfl; rfl

theorem toNat_ofNat {a : Nat} (ha : a < 256) : (UInt8.ofNat a).toNat = a := by
  simp [Nat.mod_eq_of_lt ha]

/-! ## The code -/

/-- A Unicode scalar value: a code point that is not a surrogate. -/
def IsScalar (cp : Nat) : Prop := cp < 0x110000 ∧ ¬(0xD800 ≤ cp ∧ cp ≤ 0xDFFF)

instance (cp : Nat) : Decidable (IsScalar cp) := inferInstanceAs (Decidable (_ ∧ _))

/-- The encoding of one scalar value, in the shortest form. -/
def encodeScalar (cp : Nat) : List UInt8 :=
  if cp < 0x80 then [UInt8.ofNat cp]
  else if cp < 0x800 then [UInt8.ofNat (0xC0 + cp / 64), UInt8.ofNat (0x80 + cp % 64)]
  else if cp < 0x10000 then
    [UInt8.ofNat (0xE0 + cp / 4096), UInt8.ofNat (0x80 + cp / 64 % 64), UInt8.ofNat (0x80 + cp % 64)]
  else
    [UInt8.ofNat (0xF0 + cp / 262144), UInt8.ofNat (0x80 + cp / 4096 % 64),
      UInt8.ofNat (0x80 + cp / 64 % 64), UInt8.ofNat (0x80 + cp % 64)]

/-- The encoding of a list of scalar values. -/
def encode (cps : List Nat) : List UInt8 := cps.flatMap encodeScalar

@[simp] theorem encode_nil : encode [] = [] := rfl

@[simp] theorem encode_cons (cp : Nat) (cps : List Nat) :
    encode (cp :: cps) = encodeScalar cp ++ encode cps := rfl

/-- The UTF-8 bytes of a Lean string, whose characters are exactly the scalar values. -/
def ofString (s : String) : List UInt8 := encode (s.toList.map Char.toNat)

/-- A byte string is **well formed** when it is a concatenation of encodings of scalar values. -/
def WellFormed (bs : List UInt8) : Prop := ∃ cps : List Nat, (∀ cp ∈ cps, IsScalar cp) ∧ encode cps = bs

theorem wellFormed_encode {cps : List Nat} (h : ∀ cp ∈ cps, IsScalar cp) : WellFormed (encode cps) :=
  ⟨cps, h, rfl⟩

/-! ## Prefix-freeness -/

/-- The four lengths of `encodeScalar`, each with the range of code points it serves. -/
theorem encodeScalar_cases (cp : Nat) :
    (cp < 0x80 ∧ encodeScalar cp = [UInt8.ofNat cp]) ∨
    (0x80 ≤ cp ∧ cp < 0x800 ∧
      encodeScalar cp = [UInt8.ofNat (0xC0 + cp / 64), UInt8.ofNat (0x80 + cp % 64)]) ∨
    (0x800 ≤ cp ∧ cp < 0x10000 ∧
      encodeScalar cp = [UInt8.ofNat (0xE0 + cp / 4096), UInt8.ofNat (0x80 + cp / 64 % 64),
        UInt8.ofNat (0x80 + cp % 64)]) ∨
    (0x10000 ≤ cp ∧
      encodeScalar cp = [UInt8.ofNat (0xF0 + cp / 262144), UInt8.ofNat (0x80 + cp / 4096 % 64),
        UInt8.ofNat (0x80 + cp / 64 % 64), UInt8.ofNat (0x80 + cp % 64)]) := by
  unfold encodeScalar
  split_ifs with h1 h2 h3
  · exact .inl ⟨h1, rfl⟩
  · exact .inr (.inl ⟨by omega, h2, rfl⟩)
  · exact .inr (.inr (.inl ⟨by omega, h3, rfl⟩))
  · exact .inr (.inr (.inr ⟨by omega, rfl⟩))

/-- The first byte of an encoding decides its length, and the bytes of one length decide the code
    point: two scalar values whose encodings start the same byte string are equal. -/
theorem encodeScalar_append_inj {a b : Nat} (ha : IsScalar a) (hb : IsScalar b) {r s : List UInt8}
    (h : encodeScalar a ++ r = encodeScalar b ++ s) : a = b ∧ r = s := by
  obtain ⟨ha, -⟩ := ha
  obtain ⟨hb, -⟩ := hb
  rcases encodeScalar_cases a with ⟨a1, ea⟩ | ⟨a1, a2, ea⟩ | ⟨a1, a2, ea⟩ | ⟨a1, ea⟩ <;>
    rcases encodeScalar_cases b with ⟨b1, eb⟩ | ⟨b1, b2, eb⟩ | ⟨b1, b2, eb⟩ | ⟨b1, eb⟩ <;>
    rw [ea, eb] at h <;>
    simp only [List.cons_append, List.nil_append, List.cons.injEq] at h <;>
    have h0 := h.1 <;>
    rw [ofNat_inj (by omega) (by omega)] at h0 <;>
    -- different lengths: the first bytes lie in disjoint ranges
    try omega
  · exact ⟨h0, h.2⟩
  · have h1 := h.2.1
    rw [ofNat_inj (by omega) (by omega)] at h1
    exact ⟨by omega, h.2.2⟩
  · have h1 := h.2.1
    have h2 := h.2.2.1
    rw [ofNat_inj (by omega) (by omega)] at h1 h2
    exact ⟨by omega, h.2.2.2⟩
  · have h1 := h.2.1
    have h2 := h.2.2.1
    have h3 := h.2.2.2.1
    rw [ofNat_inj (by omega) (by omega)] at h1 h2 h3
    exact ⟨by omega, h.2.2.2.2⟩

theorem encodeScalar_ne_nil (cp : Nat) : encodeScalar cp ≠ [] := by
  unfold encodeScalar; split_ifs <;> simp

/-- **`encode` is injective** on lists of scalar values. -/
theorem encode_inj {as bs : List Nat} (ha : ∀ cp ∈ as, IsScalar cp) (hb : ∀ cp ∈ bs, IsScalar cp)
    (h : encode as = encode bs) : as = bs := by
  induction as generalizing bs with
  | nil =>
      cases bs with
      | nil => rfl
      | cons b bs => simp [encodeScalar_ne_nil] at h
  | cons a as ih =>
      cases bs with
      | nil => simp [encodeScalar_ne_nil] at h
      | cons b bs =>
          rw [encode_cons, encode_cons] at h
          obtain ⟨rfl, hrest⟩ := encodeScalar_append_inj (ha a (by simp)) (hb b (by simp)) h
          rw [ih (fun cp hc => ha cp (by simp [hc])) (fun cp hc => hb cp (by simp [hc])) hrest]

end Utf8
