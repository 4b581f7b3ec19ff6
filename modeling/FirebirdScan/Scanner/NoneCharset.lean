import FirebirdScan.Types

/-!
# `Scanner.NoneCharset` — decoding and re-encoding `CHARACTER SET NONE` text

The fetch path (`firebird_types.cpp`) decodes a stored byte string of a NONE column to UTF-8; the filter
path (`firebird_scanner.cpp`) re-encodes a UTF-8 literal to stored bytes. The two sides carry their own
tables: `cp1252HighByteToCodePoint` maps the 32 bytes `0x80 … 0x9F` forward, `kWin1252Special` lists 27
of them backward.

Everything is derived from one function, `noneCodePoint`: the code point the fetch path gives a byte.
The decoder is `Utf8.encode` of its image (`noneToUtf8_eq_encode`), the encoder inverts it one
code point at a time (`encodeCodepoint_sound`), and it is injective (`noneCodePoint_injective`).
-/

namespace FirebirdScan
namespace NoneCharset

/-! ## The fetch path -/

/-- `AppendUtf8`. -/
def appendUtf8 (out : Bytes) (cp : Nat) : Bytes :=
  if cp < 0x80 then out ++ [UInt8.ofNat cp]
  else if cp < 0x800 then
    out ++ [UInt8.ofNat (0xC0 ||| (cp >>> 6)), UInt8.ofNat (0x80 ||| (cp &&& 0x3F))]
  else
    out ++ [UInt8.ofNat (0xE0 ||| (cp >>> 12)), UInt8.ofNat (0x80 ||| ((cp >>> 6) &&& 0x3F)),
      UInt8.ofNat (0x80 ||| (cp &&& 0x3F))]

/-- The `MAP` table of `Cp1252HighByteToCodePoint`. -/
def cp1252Map : List Nat :=
  [0x20AC, 0x0081, 0x201A, 0x0192, 0x201E, 0x2026, 0x2020, 0x2021,
   0x02C6, 0x2030, 0x0160, 0x2039, 0x0152, 0x008D, 0x017D, 0x008F,
   0x0090, 0x2018, 0x2019, 0x201C, 0x201D, 0x2022, 0x2013, 0x2014,
   0x02DC, 0x2122, 0x0161, 0x203A, 0x0153, 0x009D, 0x017E, 0x0178]

/-- `Cp1252HighByteToCodePoint`, called with `0x80 ≤ b < 0xA0` only. -/
def cp1252HighByteToCodePoint (b : UInt8) : Nat := cp1252Map.getD (b.toNat - 0x80) 0

/-- `Win1252ToUtf8`. -/
def win1252ToUtf8 (input : Bytes) : Bytes :=
  input.foldl (fun out b =>
    if b < 0x80 then out ++ [b]
    else if b < 0xA0 then appendUtf8 out (cp1252HighByteToCodePoint b)
    else appendUtf8 out b.toNat) []

/-- `Latin1ToUtf8`. -/
def latin1ToUtf8 (input : Bytes) : Bytes :=
  input.foldl (fun out b => if b < 0x80 then out ++ [b] else appendUtf8 out b.toNat) []

/-! ## The filter path -/

/-- One entry of `kWin1252Special`. -/
structure Win1252Special where
  byte : UInt8
  codepoint : Nat

/-- `kWin1252Special`: the 27 assigned bytes of the `0x80 … 0x9F` range. -/
def kWin1252Special : List Win1252Special :=
  [⟨0x80, 0x20AC⟩, ⟨0x82, 0x201A⟩, ⟨0x83, 0x0192⟩, ⟨0x84, 0x201E⟩, ⟨0x85, 0x2026⟩, ⟨0x86, 0x2020⟩,
   ⟨0x87, 0x2021⟩, ⟨0x88, 0x02C6⟩, ⟨0x89, 0x2030⟩, ⟨0x8A, 0x0160⟩, ⟨0x8B, 0x2039⟩, ⟨0x8C, 0x0152⟩,
   ⟨0x8E, 0x017D⟩, ⟨0x91, 0x2018⟩, ⟨0x92, 0x2019⟩, ⟨0x93, 0x201C⟩, ⟨0x94, 0x201D⟩, ⟨0x95, 0x2022⟩,
   ⟨0x96, 0x2013⟩, ⟨0x97, 0x2014⟩, ⟨0x98, 0x02DC⟩, ⟨0x99, 0x2122⟩, ⟨0x9A, 0x0161⟩, ⟨0x9B, 0x203A⟩,
   ⟨0x9C, 0x0153⟩, ⟨0x9E, 0x017E⟩, ⟨0x9F, 0x0178⟩]

/-- The continuation loop of `DecodeUtf8Codepoint`: `n` more bytes folded into `cp`. -/
def continuationBytes : Nat → Nat → Bytes → Option (Nat × Bytes)
  | 0, cp, s => some (cp, s)
  | _ + 1, _, [] => none
  | n + 1, cp, c :: s =>
      if c.toNat &&& 0xC0 ≠ 0x80 then none
      else continuationBytes n ((cp <<< 6) ||| (c.toNat &&& 0x3F)) s

/-- The checks `DecodeUtf8Codepoint` makes after the continuation loop: overlong forms (`minCp` is
    `kMinCp[len]`), out-of-range code points, surrogates. -/
def checkCodepoint (minCp : Nat) : Nat × Bytes → Option (Nat × Bytes)
  | (cp, s) =>
      if cp < minCp ∨ cp > 0x10FFFF then none
      else if cp ≥ 0xD800 ∧ cp ≤ 0xDFFF then none
      else some (cp, s)

/-- `DecodeUtf8Codepoint` at the start of `s`: the code point and what follows it (the source advances
    `pos`). The caller tests `pos < size`, so `[]` is never asked for. -/
def decodeUtf8Codepoint : Bytes → Option (Nat × Bytes)
  | [] => none
  | lead :: s =>
      if lead.toNat < 0x80 then some (lead.toNat, s)
      else if lead.toNat &&& 0xE0 = 0xC0 then
        (continuationBytes 1 (lead.toNat &&& 0x1F) s).bind (checkCodepoint 0x80)
      else if lead.toNat &&& 0xF0 = 0xE0 then
        (continuationBytes 2 (lead.toNat &&& 0x0F) s).bind (checkCodepoint 0x800)
      else if lead.toNat &&& 0xF8 = 0xF0 then
        (continuationBytes 3 (lead.toNat &&& 0x07) s).bind (checkCodepoint 0x10000)
      else none

/-- The body of `TryEncodeNoneLiteral`'s loop: the byte for one code point, if it has one. -/
def encodeCodepoint (mode : NoneEncoding) (cp : Nat) : Option UInt8 :=
  if mode = .iso8859_1 then
    if cp > 0xFF then none else some (UInt8.ofNat cp)
  else if cp < 0x80 ∨ (cp ≥ 0xA0 ∧ cp ≤ 0xFF) then some (UInt8.ofNat cp)
  else (kWin1252Special.find? (fun sp => sp.codepoint = cp)).map (·.byte)

/-- `TryEncodeNoneLiteral`'s loop. Every round consumes a byte, so the length of the literal is fuel
    enough (`encodeLoop_complete`). -/
def encodeLoop (mode : NoneEncoding) : Nat → Bytes → Bytes → Option Bytes
  | _, [], outBytes => some outBytes
  | 0, _ :: _, _ => none
  | fuel + 1, s@(_ :: _), outBytes =>
      match decodeUtf8Codepoint s with
      | none => none
      | some (cp, rest) =>
          match encodeCodepoint mode cp with
          | none => none
          | some out => encodeLoop mode fuel rest (outBytes ++ [out])

/-- `TryEncodeNoneLiteral`: `none` when some code point has no representation. -/
def tryEncodeNoneLiteral (literal : Bytes) (mode : NoneEncoding) : Option Bytes :=
  encodeLoop mode literal.length literal []

/-! ## Bit operations as arithmetic -/

theorem or_low {k a b : Nat} (hb : b < 2 ^ k) : 2 ^ k * a ||| b = 2 ^ k * a + b :=
  (Nat.two_pow_add_eq_or_of_lt hb a).symm

theorem and_0x3F (n : Nat) : n &&& 0x3F = n % 64 := Nat.and_two_pow_sub_one_eq_mod n 6
theorem and_0x1F (n : Nat) : n &&& 0x1F = n % 32 := Nat.and_two_pow_sub_one_eq_mod n 5
theorem and_0x0F (n : Nat) : n &&& 0x0F = n % 16 := Nat.and_two_pow_sub_one_eq_mod n 4
theorem and_0x07 (n : Nat) : n &&& 0x07 = n % 8 := Nat.and_two_pow_sub_one_eq_mod n 3

theorem continuation_mask : ∀ n < 256, (n &&& 0xC0 = 0x80 ↔ 0x80 ≤ n ∧ n < 0xC0) := by
  decide +kernel
theorem lead2_mask : ∀ n < 256, (n &&& 0xE0 = 0xC0 ↔ 0xC0 ≤ n ∧ n < 0xE0) := by
  decide +kernel
theorem lead3_mask : ∀ n < 256, (n &&& 0xF0 = 0xE0 ↔ 0xE0 ≤ n ∧ n < 0xF0) := by
  decide +kernel
theorem lead4_mask : ∀ n < 256, (n &&& 0xF8 = 0xF0 ↔ 0xF0 ≤ n ∧ n < 0xF8) := by
  decide +kernel

theorem appendUtf8_eq {cp : Nat} (h : cp < 0x10000) (out : Bytes) :
    appendUtf8 out cp = out ++ Utf8.encodeScalar cp := by
  have e0 : cp >>> 6 = cp / 64 := Nat.shiftRight_eq_div_pow cp 6
  have e1 : cp >>> 12 = cp / 4096 := Nat.shiftRight_eq_div_pow cp 12
  have e2 : 0x80 ||| cp % 64 = 0x80 + cp % 64 := or_low (k := 6) (a := 2) (by omega)
  have e3 : 0x80 ||| cp / 64 % 64 = 0x80 + cp / 64 % 64 := or_low (k := 6) (a := 2) (by omega)
  unfold appendUtf8 Utf8.encodeScalar
  simp only [and_0x3F, e0, e1, e2, e3]
  split_ifs with h1 h2
  · rfl
  · rw [show 0xC0 ||| cp / 64 = 0xC0 + cp / 64 from or_low (k := 6) (a := 3) (by omega)]
  · rw [show 0xE0 ||| cp / 4096 = 0xE0 + cp / 4096 from or_low (k := 4) (a := 14) (by omega)]

/-! ## `decodeUtf8Codepoint` reads one encoding -/

/-- One round of the continuation loop reads a byte `10tttttt` and appends its six bits. -/
theorem continuationBytes_succ {n cp : Nat} {s : Bytes} {p : Nat × Bytes} :
    continuationBytes (n + 1) cp s = some p ↔
      ∃ t s', t < 64 ∧ s = UInt8.ofNat (0x80 + t) :: s' ∧ continuationBytes n (64 * cp + t) s' = some p := by
  cases s with
  | nil => simp [continuationBytes]
  | cons c s =>
      have hc := c.toNat_lt
      have hshift : (cp <<< 6) ||| c.toNat % 64 = 64 * cp + c.toNat % 64 := by
        rw [Nat.shiftLeft_eq, Nat.mul_comm]
        exact or_low (k := 6) (by omega)
      simp only [continuationBytes, and_0x3F, hshift, ne_eq, continuation_mask _ hc]
      constructor
      · intro h
        split_ifs at h with hin
        refine ⟨c.toNat % 64, s, by omega, ?_, h⟩
        rw [show 0x80 + c.toNat % 64 = c.toNat by omega, UInt8.ofNat_toNat]
      · rintro ⟨t, s', ht, heq, h⟩
        obtain ⟨rfl, rfl⟩ := List.cons.inj heq
        simp only [Utf8.toNat_ofNat (show 0x80 + t < 256 by omega)]
        rw [if_neg (by omega), show (0x80 + t) % 64 = t by omega]
        exact h

/-- The `n` continuation bytes of a code point, most significant first. -/
def tailBytes : Nat → Nat → Bytes
  | 0, _ => []
  | n + 1, cp => UInt8.ofNat (0x80 + cp / 64 ^ n % 64) :: tailBytes n cp

/-- The continuation loop started at `x` reads the tail of exactly those code points that begin with
    the bits `x`. -/
theorem continuationBytes_eq_some {n x cp : Nat} {s rest : Bytes} :
    continuationBytes n x s = some (cp, rest) ↔ cp / 64 ^ n = x ∧ s = tailBytes n cp ++ rest := by
  induction n generalizing x s with
  | zero =>
      simp only [continuationBytes, tailBytes, Option.some.injEq, Prod.mk.injEq, pow_zero, Nat.div_one,
        List.nil_append]
      exact ⟨fun ⟨h1, h2⟩ => ⟨h1.symm, h2⟩, fun ⟨h1, h2⟩ => ⟨h1.symm, h2⟩⟩
  | succ n ih =>
      rw [continuationBytes_succ]
      have hdiv : cp / 64 ^ (n + 1) = cp / 64 ^ n / 64 := by rw [pow_succ, Nat.div_div_eq_div_mul]
      constructor
      · rintro ⟨t, s', ht, rfl, h⟩
        obtain ⟨hq, rfl⟩ := ih.mp h
        refine ⟨by omega, ?_⟩
        rw [tailBytes, show cp / 64 ^ n % 64 = t by omega]
        rfl
      · rintro ⟨hx, rfl⟩
        exact ⟨cp / 64 ^ n % 64, tailBytes n cp ++ rest, by omega, rfl, ih.mpr ⟨by omega, rfl⟩⟩

theorem checkCodepoint_eq_some {minCp : Nat} {p q : Nat × Bytes} :
    checkCodepoint minCp p = some q ↔ p = q ∧ minCp ≤ p.1 ∧ Utf8.IsScalar p.1 := by
  obtain ⟨cp, s⟩ := p
  simp only [checkCodepoint, Utf8.IsScalar]
  constructor
  · intro h
    split_ifs at h with h1 h2
    exact ⟨Option.some.inj h, by omega, by omega, by omega⟩
  · rintro ⟨rfl, h1, h2, h3⟩
    rw [if_neg (by omega), if_neg (by omega)]

/-- A sequence of `n + 1` bytes whose lead carries the bits `x`. -/
theorem multibyte_eq_some {n x minCp cp : Nat} {s rest : Bytes} :
    (continuationBytes n x s).bind (checkCodepoint minCp) = some (cp, rest) ↔
      minCp ≤ cp ∧ Utf8.IsScalar cp ∧ cp / 64 ^ n = x ∧ s = tailBytes n cp ++ rest := by
  rw [Option.bind_eq_some_iff]
  constructor
  · rintro ⟨p, hc, h⟩
    obtain ⟨rfl, hmin, hsc⟩ := checkCodepoint_eq_some.mp h
    exact ⟨hmin, hsc, continuationBytes_eq_some.mp hc⟩
  · rintro ⟨hmin, hsc, h⟩
    exact ⟨_, continuationBytes_eq_some.mpr h, checkCodepoint_eq_some.mpr ⟨rfl, hmin, hsc⟩⟩

/-- The lead byte's class, as ranges. -/
theorem decodeUtf8Codepoint_cons (lead : UInt8) (s : Bytes) :
    decodeUtf8Codepoint (lead :: s) =
      if lead.toNat < 0x80 then some (lead.toNat, s)
      else if lead.toNat < 0xC0 then none
      else if lead.toNat < 0xE0 then
        (continuationBytes 1 (lead.toNat % 32) s).bind (checkCodepoint 0x80)
      else if lead.toNat < 0xF0 then
        (continuationBytes 2 (lead.toNat % 16) s).bind (checkCodepoint 0x800)
      else if lead.toNat < 0xF8 then
        (continuationBytes 3 (lead.toNat % 8) s).bind (checkCodepoint 0x10000)
      else none := by
  have hl := lead.toNat_lt
  simp only [decodeUtf8Codepoint, lead2_mask _ hl, lead3_mask _ hl, lead4_mask _ hl, and_0x1F, and_0x0F,
    and_0x07]
  split_ifs <;> first | rfl | omega

/-- The multi-byte encodings as a lead byte and a tail. -/
theorem encodeScalar_eq_lead {cp : Nat} :
    (0x80 ≤ cp → cp < 0x800 → Utf8.encodeScalar cp = UInt8.ofNat (0xC0 + cp / 64) :: tailBytes 1 cp) ∧
    (0x800 ≤ cp → cp < 0x10000 →
      Utf8.encodeScalar cp = UInt8.ofNat (0xE0 + cp / 4096) :: tailBytes 2 cp) ∧
    (0x10000 ≤ cp → Utf8.encodeScalar cp = UInt8.ofNat (0xF0 + cp / 262144) :: tailBytes 3 cp) := by
  refine ⟨fun h1 h2 => ?_, fun h1 h2 => ?_, fun h1 => ?_⟩ <;>
    rcases Utf8.encodeScalar_cases cp with ⟨r1, e⟩ | ⟨r1, r2, e⟩ | ⟨r1, r2, e⟩ | ⟨r1, e⟩ <;>
    first | omega | (rw [e]; simp [tailBytes])

/-- **`decodeUtf8Codepoint` reads exactly one well-formed encoding**: it succeeds when the input starts
    with the encoding of a scalar value, and returns that value and the rest. -/
theorem decodeUtf8Codepoint_eq_some {s rest : Bytes} {cp : Nat} :
    decodeUtf8Codepoint s = some (cp, rest) ↔ Utf8.IsScalar cp ∧ s = Utf8.encodeScalar cp ++ rest := by
  obtain ⟨e2, e3, e4⟩ := @encodeScalar_eq_lead cp
  constructor
  · intro h
    cases s with
    | nil => simp [decodeUtf8Codepoint] at h
    | cons lead s =>
        have hl := lead.toNat_lt
        rw [decodeUtf8Codepoint_cons] at h
        -- the lead byte says the length, and its low bits are the high bits of the code point
        split_ifs at h with h1 h2 h3 h4 h5
        · obtain ⟨rfl, rfl⟩ := Prod.mk.inj (Option.some.inj h)
          exact ⟨⟨by omega, by omega⟩, by simp [Utf8.encodeScalar, h1]⟩
        · obtain ⟨hmin, hsc, hx, rfl⟩ := multibyte_eq_some.mp h
          refine ⟨hsc, ?_⟩
          rw [e2 (by omega) (by omega), show 0xC0 + cp / 64 = lead.toNat by omega, UInt8.ofNat_toNat]
          rfl
        · obtain ⟨hmin, hsc, hx, rfl⟩ := multibyte_eq_some.mp h
          refine ⟨hsc, ?_⟩
          rw [e3 (by omega) (by omega), show 0xE0 + cp / 4096 = lead.toNat by omega, UInt8.ofNat_toNat]
          rfl
        · obtain ⟨hmin, hsc, hx, rfl⟩ := multibyte_eq_some.mp h
          refine ⟨hsc, ?_⟩
          rw [e4 (by omega), show 0xF0 + cp / 262144 = lead.toNat by omega, UInt8.ofNat_toNat]
          rfl
  · rintro ⟨hsc, rfl⟩
    have hlt := hsc.1
    by_cases h1 : cp < 0x80
    · rw [show Utf8.encodeScalar cp = [UInt8.ofNat cp] by simp [Utf8.encodeScalar, h1],
        List.cons_append, decodeUtf8Codepoint_cons, Utf8.toNat_ofNat (by omega), if_pos h1]
      rfl
    by_cases h2 : cp < 0x800
    · rw [e2 (by omega) h2, List.cons_append, decodeUtf8Codepoint_cons, Utf8.toNat_ofNat (by omega),
        if_neg (by omega), if_neg (by omega), if_pos (by omega), multibyte_eq_some]
      exact ⟨by omega, hsc, by omega, rfl⟩
    by_cases h3 : cp < 0x10000
    · rw [e3 (by omega) h3, List.cons_append, decodeUtf8Codepoint_cons, Utf8.toNat_ofNat (by omega),
        if_neg (by omega), if_neg (by omega), if_neg (by omega), if_pos (by omega), multibyte_eq_some]
      exact ⟨by omega, hsc, by omega, rfl⟩
    · rw [e4 (by omega), List.cons_append, decodeUtf8Codepoint_cons, Utf8.toNat_ofNat (by omega),
        if_neg (by omega), if_neg (by omega), if_neg (by omega), if_neg (by omega), if_pos (by omega),
        multibyte_eq_some]
      exact ⟨by omega, hsc, by omega, rfl⟩

/-! ## The code point of a stored byte -/

/-- The code point the fetch path gives a stored byte. -/
def noneCodePoint (mode : NoneEncoding) (b : UInt8) : Nat :=
  if mode = .win1252 ∧ 0x80 ≤ b.toNat ∧ b.toNat < 0xA0 then cp1252HighByteToCodePoint b else b.toNat

/-- The fetch-path decoder of a transcoding mode. -/
def noneToUtf8 (mode : NoneEncoding) (stored : Bytes) : Bytes :=
  if mode = .win1252 then win1252ToUtf8 stored else latin1ToUtf8 stored

theorem noneCodePoint_bound (mode : NoneEncoding) (b : UInt8) :
    noneCodePoint mode b < 0x2123 ∧ Utf8.IsScalar (noneCodePoint mode b) := by
  -- 256 table entries for each mode
  revert b
  apply Utf8.every_byte
  cases mode <;> decide +kernel

theorem foldl_append_eq {α β : Type} {f : List β → α → List β} {g : α → List β}
    (h : ∀ out a, f out a = out ++ g a) (input : List α) (out : List β) :
    input.foldl f out = out ++ input.flatMap g := by
  induction input generalizing out with
  | nil => simp
  | cons a input ih => rw [List.foldl_cons, ih, h, List.append_assoc, List.flatMap_cons]

/-- A byte below `0x80` is its own encoding. -/
theorem encodeScalar_ascii {b : UInt8} (h : b.toNat < 0x80) : Utf8.encodeScalar b.toNat = [b] := by
  simp [Utf8.encodeScalar, h]

/-- The fetch-path decoder encodes the code points of the stored bytes. -/
theorem noneToUtf8_eq_encode {mode : NoneEncoding} (stored : Bytes) :
    noneToUtf8 mode stored = Utf8.encode (stored.map (noneCodePoint mode)) := by
  have hb : ∀ b : UInt8, b.toNat < 0x10000 := fun b => by have := b.toNat_lt; omega
  rw [Utf8.encode, List.flatMap_map]
  unfold noneToUtf8
  split_ifs with hmode
  · refine foldl_append_eq (fun out b => ?_) stored []
    have hhigh := (noneCodePoint_bound mode b).1
    simp only [UInt8.lt_iff_toNat_lt, UInt8.reduceToNat]
    by_cases h1 : b.toNat < 0x80
    · rw [if_pos h1, noneCodePoint, if_neg (by omega), encodeScalar_ascii h1]
    by_cases h2 : b.toNat < 0xA0
    · have hcode : noneCodePoint mode b = cp1252HighByteToCodePoint b := if_pos ⟨hmode, by omega, h2⟩
      rw [hcode] at hhigh ⊢
      rw [if_neg h1, if_pos h2, appendUtf8_eq (by omega)]
    · rw [if_neg h1, if_neg h2, noneCodePoint, if_neg (by omega), appendUtf8_eq (hb b)]
  · refine foldl_append_eq (fun out b => ?_) stored []
    simp only [UInt8.lt_iff_toNat_lt, UInt8.reduceToNat, noneCodePoint, hmode, false_and, if_false]
    split_ifs with h1
    · rw [encodeScalar_ascii h1]
    · exact appendUtf8_eq (hb b) out

/-! ## Re-encoding inverts decoding -/

/-- The two modes under which `none_pushdown` re-encodes literals (`NonePushdownActive`). -/
def Transcodes (mode : NoneEncoding) : Prop := mode = .win1252 ∨ mode = .iso8859_1

/-- A code point that gets a byte is the code point of that byte. -/
theorem encodeCodepoint_sound {mode : NoneEncoding} (hmode : Transcodes mode) {cp : Nat} {b : UInt8}
    (h : encodeCodepoint mode cp = some b) : noneCodePoint mode b = cp := by
  have hspecial : ∀ sp ∈ kWin1252Special, noneCodePoint .win1252 sp.byte = sp.codepoint := by
    decide +kernel
  unfold encodeCodepoint at h
  rcases hmode with rfl | rfl
  · rw [if_neg (by decide)] at h
    split_ifs at h with hdirect
    -- outside `0x80 … 0x9F` the byte is the code point
    · obtain rfl := Option.some.inj h
      rw [noneCodePoint, Utf8.toNat_ofNat (by omega), if_neg (by omega)]
    · obtain ⟨sp, hfind, rfl⟩ := Option.map_eq_some_iff.mp h
      rw [hspecial sp (List.mem_of_find?_eq_some hfind)]
      simpa using List.find?_some hfind
  · rw [if_pos rfl] at h
    split_ifs at h with hbig
    obtain rfl := Option.some.inj h
    rw [noneCodePoint, Utf8.toNat_ofNat (by omega), if_neg (by simp)]

/-- Every byte is found again from its code point, but for the five unassigned Windows-1252 bytes, which
    decode to the code point of the same number and are never produced. -/
theorem encodeCodepoint_noneCodePoint {mode : NoneEncoding} (hmode : Transcodes mode) (b : UInt8) :
    encodeCodepoint mode (noneCodePoint mode b) = some b ∨
      (encodeCodepoint mode (noneCodePoint mode b) = none ∧ noneCodePoint mode b = b.toNat) := by
  revert b
  apply Utf8.every_byte
  rcases hmode with rfl | rfl <;> decide +kernel

/-- **Distinct stored bytes have distinct code points.** -/
theorem noneCodePoint_injective {mode : NoneEncoding} (hmode : Transcodes mode) :
    Function.Injective (noneCodePoint mode) := by
  intro a b hab
  rcases encodeCodepoint_noneCodePoint hmode a with ha | ⟨ha, ha'⟩ <;>
    rcases encodeCodepoint_noneCodePoint hmode b with hb | ⟨hb, hb'⟩ <;>
    rw [hab] at ha
  · exact Option.some.inj (ha.symm.trans hb)
  · simp [hb] at ha
  · simp [hb] at ha
  · exact UInt8.toNat_inj.mp (by rw [← ha', ← hb', hab])

/-- Decoding is injective on byte strings. -/
theorem noneToUtf8_injective {mode : NoneEncoding} (hmode : Transcodes mode) :
    Function.Injective (noneToUtf8 mode) := by
  intro a b hab
  rw [noneToUtf8_eq_encode, noneToUtf8_eq_encode] at hab
  have hscalar : ∀ s : Bytes, ∀ cp ∈ s.map (noneCodePoint mode), Utf8.IsScalar cp := by
    intro s cp hcp
    obtain ⟨b, -, rfl⟩ := List.mem_map.mp hcp
    exact (noneCodePoint_bound mode b).2
  exact List.map_injective_iff.mpr (noneCodePoint_injective hmode)
    (Utf8.encode_inj (hscalar a) (hscalar b) hab)

/-- Decoding any byte string gives well-formed UTF-8. -/
theorem noneToUtf8_wellFormed (mode : NoneEncoding) (stored : Bytes) :
    Utf8.WellFormed (noneToUtf8 mode stored) := by
  rw [noneToUtf8_eq_encode]
  refine Utf8.wellFormed_encode fun cp hcp => ?_
  obtain ⟨b, -, rfl⟩ := List.mem_map.mp hcp
  exact (noneCodePoint_bound mode b).2

/-- The encoder's loop, by induction on the fuel: what it appends decodes to what it consumed. -/
theorem encodeLoop_sound {mode : NoneEncoding} (hmode : Transcodes mode) :
    ∀ (fuel : Nat) (s out r : Bytes), encodeLoop mode fuel s out = some r →
      ∃ bs, r = out ++ bs ∧ s = Utf8.encode (bs.map (noneCodePoint mode)) ∧
        ∀ b ∈ bs, encodeCodepoint mode (noneCodePoint mode b) = some b := by
  intro fuel
  induction fuel with
  | zero =>
      intro s out r h
      cases s with
      | nil => exact ⟨[], by simpa [encodeLoop] using h.symm, rfl, by simp⟩
      | cons c s => simp [encodeLoop] at h
  | succ fuel ih =>
      intro s out r h
      cases s with
      | nil => exact ⟨[], by simpa [encodeLoop] using h.symm, rfl, by simp⟩
      | cons c s =>
          rw [encodeLoop] at h
          split at h
          · cases h
          next cp rest hdec =>
            split at h
            · cases h
            next b henc =>
              obtain ⟨bs, rfl, hrest, hbs⟩ := ih rest (out ++ [b]) r h
              obtain ⟨-, hcons⟩ := decodeUtf8Codepoint_eq_some.mp hdec
              have hcp := encodeCodepoint_sound hmode henc
              refine ⟨b :: bs, by simp, ?_, ?_⟩
              · rw [List.map_cons, Utf8.encode_cons, hcp, ← hrest, hcons]
              · intro x hx
                rcases List.mem_cons.mp hx with rfl | hx
                · rw [hcp]; exact henc
                · exact hbs x hx

/-- The loop never stops for lack of fuel: an encodable literal is encoded to its end. -/
theorem encodeLoop_complete {mode : NoneEncoding} {bs : Bytes}
    (hbs : ∀ b ∈ bs, encodeCodepoint mode (noneCodePoint mode b) = some b) :
    ∀ (fuel : Nat) (s out : Bytes), s = Utf8.encode (bs.map (noneCodePoint mode)) → s.length ≤ fuel →
      encodeLoop mode fuel s out = some (out ++ bs) := by
  induction bs with
  | nil =>
      intro fuel s out hs _
      subst hs
      cases fuel <;> simp [encodeLoop]
  | cons b bs ih =>
      intro fuel s out hs hfuel
      rw [List.map_cons, Utf8.encode_cons] at hs
      obtain ⟨c, s', hcs⟩ : ∃ c s', s = c :: s' := by
        refine List.exists_cons_of_ne_nil ?_
        simp [hs, Utf8.encodeScalar_ne_nil]
      have hlen : 0 < (Utf8.encodeScalar (noneCodePoint mode b)).length :=
        List.length_pos_iff.mpr (Utf8.encodeScalar_ne_nil _)
      have hsize := congrArg List.length hs
      rw [List.length_append] at hsize
      cases fuel with
      | zero => omega
      | succ fuel =>
          have hdec := decodeUtf8Codepoint_eq_some.mpr ⟨(noneCodePoint_bound mode b).2, hs⟩
          rw [hcs] at hdec ⊢
          simp only [encodeLoop, hdec, hbs b (by simp)]
          rw [ih (fun x hx => hbs x (by simp [hx])) fuel _ (out ++ [b]) rfl (by omega)]
          simp

/-- **What `TryEncodeNoneLiteral` returns**: the stored bytes that decode to the literal, provided every
    one of them is a byte the encoder produces. -/
theorem tryEncodeNoneLiteral_eq_some {mode : NoneEncoding} (hmode : Transcodes mode)
    {literal bs : Bytes} :
    tryEncodeNoneLiteral literal mode = some bs ↔
      noneToUtf8 mode bs = literal ∧
        ∀ b ∈ bs, encodeCodepoint mode (noneCodePoint mode b) = some b := by
  rw [noneToUtf8_eq_encode]
  constructor
  · intro h
    obtain ⟨bs', hr, hs, hbs⟩ := encodeLoop_sound hmode _ _ _ _ h
    rw [List.nil_append] at hr
    subst hr
    exact ⟨hs.symm, hbs⟩
  · rintro ⟨rfl, hbs⟩
    rw [tryEncodeNoneLiteral, encodeLoop_complete hbs _ _ [] rfl le_rfl, List.nil_append]

end NoneCharset
end FirebirdScan
