import Mathlib.Algebra.Order.Ring.Int
import Mathlib.Data.List.Basic
import Mathlib.Tactic.Ring

/-!
# `Lib.Clumplets` — parameters as tag, length byte, value

A writer that takes the low byte of the length as the length byte is read back exactly as long as every value is
shorter than 256 bytes: `decode_bytes_append` says so of one clumplet in front of any others. Numbers are
little-endian, in two's complement (`signed`).
-/

namespace Clumplets

structure Clumplet where
  tag : UInt8
  value : List UInt8
deriving DecidableEq

/-- What the writer appends. -/
def Clumplet.bytes (c : Clumplet) : List UInt8 := c.tag :: UInt8.ofNat c.value.length :: c.value

/-! ## Reading -/

/-- The reader. Every clumplet takes two bytes at least, so the length is fuel enough. -/
def decodeLoop : Nat → List UInt8 → Option (List Clumplet)
  | _, [] => some []
  | fuel + 1, tag :: len :: s =>
      if s.length < len.toNat then none
      else (decodeLoop fuel (s.drop len.toNat)).map fun cs => ⟨tag, s.take len.toNat⟩ :: cs
  | _, _ => none

def decode (s : List UInt8) : Option (List Clumplet) := decodeLoop s.length s

theorem decodeLoop_fuel {fuel fuel' : Nat} {s : List UInt8} (h : s.length ≤ fuel) (h' : s.length ≤ fuel') :
    decodeLoop fuel s = decodeLoop fuel' s := by
  induction fuel generalizing fuel' s with
  | zero =>
      obtain rfl := List.length_eq_zero_iff.mp (Nat.le_zero.mp h)
      cases fuel' <;> rfl
  | succ fuel ih =>
      match s, fuel' with
      | [], 0 => rfl
      | [], fuel' + 1 => rfl
      | [_], fuel' + 1 => rfl
      | tag :: len :: s, fuel' + 1 =>
          simp only [List.length_cons] at h h'
          have hdrop : (s.drop len.toNat).length ≤ s.length := by simp
          rw [decodeLoop, decodeLoop, ih (by omega) (show _ ≤ fuel' by omega)]

theorem decode_cons (tag len : UInt8) (s : List UInt8) :
    decode (tag :: len :: s) =
      if s.length < len.toNat then none
      else (decode (s.drop len.toNat)).map fun cs => ⟨tag, s.take len.toNat⟩ :: cs := by
  have hdrop : (s.drop len.toNat).length ≤ s.length := by simp
  show decodeLoop (s.length + 2) (tag :: len :: s) = _
  rw [decodeLoop, decode, decodeLoop_fuel (show (s.drop len.toNat).length ≤ s.length + 1 by omega) le_rfl]

/-- A clumplet is read back as it is, and what is behind it is read on its own, exactly if its length is one
    byte. -/
theorem decode_bytes_append {tag tag' : UInt8} {value rest : List UInt8} {cs : List Clumplet} :
    decode (Clumplet.bytes ⟨tag, value⟩ ++ rest) = some (⟨tag', value⟩ :: cs) ↔
      value.length < 256 ∧ tag' = tag ∧ decode rest = some cs := by
  have hlen : (UInt8.ofNat value.length).toNat = value.length % 256 := UInt8.toNat_ofNat'
  show decode (tag :: UInt8.ofNat value.length :: (value ++ rest)) = _ ↔ _
  rw [decode_cons, hlen]
  constructor
  · intro h
    split_ifs at h with hshort
    obtain ⟨cs', hcs', heq⟩ := Option.map_eq_some_iff.mp h
    obtain ⟨hhead, rfl⟩ := List.cons.inj heq
    obtain ⟨rfl, hvalue⟩ := Clumplet.mk.inj hhead
    -- as many bytes are taken as the value has
    have hmod : value.length % 256 = value.length := by
      have htaken := congrArg List.length hvalue
      rw [List.length_take] at htaken
      omega
    rw [hmod, List.drop_left] at hcs'
    exact ⟨by omega, rfl, hcs'⟩
  · rintro ⟨hlt, rfl, hrest⟩
    have hmod : value.length % 256 = value.length := Nat.mod_eq_of_lt hlt
    rw [hmod, List.length_append, if_neg (by omega), List.drop_left, List.take_left, hrest]
    rfl

/-- A value whose length is one byte is always read back. -/
theorem decode_short {tag : UInt8} {value rest : List UInt8} (h : value.length < 256) :
    decode (Clumplet.bytes ⟨tag, value⟩ ++ rest) = (decode rest).map fun cs => ⟨tag, value⟩ :: cs := by
  have hlen : (UInt8.ofNat value.length).toNat = value.length := by
    rw [UInt8.toNat_ofNat', Nat.mod_eq_of_lt h]
  show decode (tag :: UInt8.ofNat value.length :: (value ++ rest)) = _
  rw [decode_cons, hlen, List.length_append, if_neg (by omega), List.drop_left, List.take_left]

/-! ## Numbers -/

/-- Bytes as a number, the low one first. -/
def unsigned : List UInt8 → Nat
  | [] => 0
  | b :: s => b.toNat + 256 * unsigned s

/-- Bytes as a number in two's complement. -/
def signed (s : List UInt8) : Int := (unsigned s : Int).bmod (256 ^ s.length)

/-- One byte holds the numbers of its range. -/
theorem signed_byte_eq_iff (n : Int) :
    signed [UInt8.ofNat (n % 256).toNat] = n ↔ -128 ≤ n ∧ n ≤ 127 := by
  have hbyte : unsigned [UInt8.ofNat (n % 256).toNat] = (n % 256).toNat := by
    simp only [unsigned, UInt8.toNat_ofNat']
    omega
  unfold signed
  rw [hbyte, Int.toNat_of_nonneg (by omega), List.length_singleton]
  simp only [Int.bmod, pow_one]
  constructor
  · intro h
    split_ifs at h <;> omega
  · intro h
    split_ifs <;> omega

/-- The bytes of a number from zero up. -/
theorem signed_four_bytes {n : Int} (hlo : 0 ≤ n) (hhi : n < 2 ^ 31) :
    signed [UInt8.ofNat (n % 256).toNat, UInt8.ofNat (n / 2 ^ 8 % 256).toNat,
      UInt8.ofNat (n / 2 ^ 16 % 256).toNat, UInt8.ofNat (n / 2 ^ 24 % 256).toNat] = n := by
  have hunsigned : (unsigned [UInt8.ofNat (n % 256).toNat, UInt8.ofNat (n / 2 ^ 8 % 256).toNat,
      UInt8.ofNat (n / 2 ^ 16 % 256).toNat, UInt8.ofNat (n / 2 ^ 24 % 256).toNat] : Int) = n := by
    simp only [unsigned, UInt8.toNat_ofNat']
    omega
  unfold signed
  rw [hunsigned]
  simp only [Int.bmod, List.length_cons, List.length_nil]
  split_ifs <;> omega

end Clumplets
