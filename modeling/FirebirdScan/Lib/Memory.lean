import FirebirdScan.Lib.Clumplets
import FirebirdScan.Lib.Ieee

/-!
# `Lib.Memory` — buffers that are written and read at byte offsets

A copy of a memory area is `peek`, one into a buffer `poke`; beyond the end of a buffer neither has a meaning, so
both are partial. Numbers are little-endian. `bytesOf` writes one and `Clumplets.unsigned` reads it.

- `peek_between` reads back what stands between two other parts of a buffer.
- `structSize` is the size of a C structure, with the padding that the alignment of its fields asks for.
- `Ieee.Interchange` is the layout of a floating-point number in a word.
-/

namespace Memory

open Clumplets

/-! ## Numbers -/

/-- The `width` low bytes of a number, the low one first. -/
def bytesOf : Nat → Nat → List UInt8
  | 0, _ => []
  | width + 1, n => UInt8.ofNat n :: bytesOf width (n / 256)

@[simp] theorem length_bytesOf (width n : Nat) : (bytesOf width n).length = width := by
  induction width generalizing n with
  | zero => rfl
  | succ width ih => rw [bytesOf, List.length_cons, ih]

/-- A number is read back modulo what fits. -/
theorem unsigned_bytesOf (width n : Nat) : unsigned (bytesOf width n) = n % 256 ^ width := by
  induction width generalizing n with
  | zero => simp [bytesOf, unsigned, Nat.mod_one]
  | succ width ih =>
      rw [bytesOf, unsigned, ih, UInt8.toNat_ofNat']
      show n % 256 + 256 * (n / 256 % 256 ^ width) = n % 256 ^ (width + 1)
      rw [Nat.pow_succ', Nat.mod_mul]

theorem unsigned_bytesOf_of_lt {width n : Nat} (h : n < 256 ^ width) : unsigned (bytesOf width n) = n := by
  rw [unsigned_bytesOf, Nat.mod_eq_of_lt h]

/-! ## Reading -/

section Peek

variable {α : Type}

/-- `memcpy` out of a buffer. -/
def peek (buffer : List α) (offset size : Nat) : Option (List α) :=
  if offset + size ≤ buffer.length then some ((buffer.drop offset).take size) else none

/-- A read has a meaning within the buffer. -/
theorem peek_isSome_iff {buffer : List α} {offset size : Nat} :
    (peek buffer offset size).isSome = true ↔ offset + size ≤ buffer.length := by
  unfold peek
  split_ifs with h
  · exact iff_of_true rfl h
  · exact iff_of_false Bool.false_ne_true h

/-- **What stands between two parts is read back.** -/
theorem peek_between (front part back : List α) :
    peek (front ++ part ++ back) front.length part.length = some part := by
  unfold peek
  rw [if_pos (by simp), List.append_assoc, List.drop_left, List.take_left]

theorem peek_front (part back : List α) : peek (part ++ back) 0 part.length = some part :=
  peek_between [] part back

/-- A number in a buffer. -/
def peekNat (buffer : List UInt8) (offset size : Nat) : Option Nat := (peek buffer offset size).map unsigned

theorem peekNat_isSome_iff {buffer : List UInt8} {offset size : Nat} :
    (peekNat buffer offset size).isSome = true ↔ offset + size ≤ buffer.length := by
  rw [peekNat, Option.isSome_map, peek_isSome_iff]

/-- A number that was written is read. -/
theorem peekNat_bytesOf {width n : Nat} (h : n < 256 ^ width) (front back : List UInt8) :
    peekNat (front ++ bytesOf width n ++ back) front.length width = some n := by
  have hpart := peek_between front (bytesOf width n) back
  rw [length_bytesOf] at hpart
  rw [peekNat, hpart, Option.map_some, unsigned_bytesOf_of_lt h]

/-- The low bytes of a number. -/
theorem unsigned_take (s : List UInt8) (width : Nat) : unsigned (s.take width) = unsigned s % 256 ^ width := by
  induction s generalizing width with
  | nil => simp [unsigned]
  | cons b s ih =>
      cases width with
      | zero => simp [unsigned, Nat.mod_one]
      | succ width =>
          rw [List.take_succ_cons, unsigned, unsigned, ih, Nat.pow_succ', Nat.mod_mul, Nat.add_mul_mod_self_left,
            Nat.add_mul_div_left _ _ (by decide : 0 < 256), Nat.mod_eq_of_lt b.toNat_lt,
            Nat.div_eq_of_lt b.toNat_lt, Nat.zero_add]

/-- A narrower read returns the low bytes of the wider one. -/
theorem peekNat_low {buffer : List UInt8} {offset width narrow n : Nat} (h : peekNat buffer offset width = some n)
    (hle : narrow ≤ width) : peekNat buffer offset narrow = some (n % 256 ^ narrow) := by
  have hfits : offset + width ≤ buffer.length := peekNat_isSome_iff.mp (by rw [h]; rfl)
  unfold peekNat peek at h ⊢
  rw [if_pos hfits, Option.map_some] at h
  obtain rfl := Option.some.inj h
  rw [if_pos (by omega), Option.map_some, ← unsigned_take, List.take_take, Nat.min_eq_left hle]

theorem peekNat_front {width n : Nat} (h : n < 256 ^ width) (back : List UInt8) :
    peekNat (bytesOf width n ++ back) 0 width = some n :=
  peekNat_bytesOf h [] back

end Peek

/-! ## Writing -/

section Poke

variable {α : Type}

/-- A buffer after something was copied to its front. -/
def poke (buffer part : List α) : Option (List α) :=
  if part.length ≤ buffer.length then some (part ++ buffer.drop part.length) else none

/-- A write leaves the length as it is. -/
theorem poke_length {buffer part buffer' : List α} (h : poke buffer part = some buffer') :
    buffer'.length = buffer.length := by
  unfold poke at h
  split_ifs at h with hfits
  rw [← Option.some.inj h, List.length_append, List.length_drop]
  omega

end Poke

/-! ## Structures -/

/-- The next multiple of an alignment. -/
def alignUp (alignment n : Nat) : Nat := (n + alignment - 1) / alignment * alignment

/-- `sizeof` a structure of scalar fields, each aligned at its own size. -/
def structSize (fields : List Nat) : Nat :=
  alignUp (fields.foldl max 1) (fields.foldl (fun offset field => alignUp field offset + field) 0)

end Memory

namespace Ieee

/-! ## Floating-point numbers -/

/-- A layout of a format: the bits of the exponent, between those of the fraction and the sign. -/
structure Interchange (fmt : Format) where
  exponentBits : Nat
  two_le : 2 ≤ exponentBits
  precision_pos : 0 < fmt.precision
  range : fmt.minExp + 2 ^ exponentBits - 3 = fmt.maxExp

def single : Interchange binary32 := ⟨8, by decide, by decide, by decide⟩

def double : Interchange binary64 := ⟨11, by decide, by decide, by decide⟩

namespace Interchange

variable {fmt : Format} (L : Interchange fmt) (word : Nat)

/-- The fields of a word. -/
def fraction (_ : Interchange fmt) (word : Nat) : Nat := word % 2 ^ (fmt.precision - 1)

def exponent : Nat := word / 2 ^ (fmt.precision - 1) % 2 ^ L.exponentBits

def negative : Bool := word / 2 ^ (fmt.precision - 1) / 2 ^ L.exponentBits % 2 = 1

/-- The significand: its leading bit is left out, but for the smallest exponent. -/
def significand : Nat :=
  if L.exponent word = 0 then L.fraction word else 2 ^ (fmt.precision - 1) + L.fraction word

/-- The value of a word whose exponent is not the largest. -/
def finiteValue : ℚ :=
  ((if L.negative word then -(L.significand word : Int) else L.significand word : Int) : ℚ) *
    2 ^ (fmt.minExp + ((max (L.exponent word) 1 : Nat) : Int) - 1)

variable {L word} in
theorem finiteValue_held (h : L.exponent word ≠ 2 ^ L.exponentBits - 1) : fmt.Represents (L.finiteValue word) := by
  have hlt : L.exponent word < 2 ^ L.exponentBits := Nat.mod_lt _ (Nat.two_pow_pos _)
  have hfraction : L.fraction word < 2 ^ (fmt.precision - 1) := Nat.mod_lt _ (Nat.two_pow_pos _)
  have hsplit : 2 ^ fmt.precision = 2 ^ (fmt.precision - 1) + 2 ^ (fmt.precision - 1) := by
    have hpos := L.precision_pos
    rw [← Nat.two_mul, ← Nat.pow_succ']
    congr 1
    omega
  have hsignificand : L.significand word < 2 ^ fmt.precision := by
    unfold significand
    split_ifs <;> omega
  have hrange := L.range
  have hfour : 2 ^ 2 ≤ 2 ^ L.exponentBits := Nat.pow_le_pow_right (by decide) L.two_le
  have hcast : ((2 ^ L.exponentBits : Nat) : Int) = 2 ^ L.exponentBits := by push_cast; rfl
  refine ⟨_, _, ?_, ?_, ?_, rfl⟩
  · split_ifs <;> omega
  · omega
  · omega

/-- The datum in a word. -/
def read : Datum fmt :=
  if h : L.exponent word = 2 ^ L.exponentBits - 1 then
    if L.fraction word = 0 then .infinite (L.negative word) else .nan
  else .finite (L.finiteValue word) (finiteValue_held h)

end Interchange

end Ieee
