import FirebirdScan.Lib.Utf8Escape
import FirebirdScan.Scanner.Telemetry

/-!
# `Scanner.TelemetrySafe` — what `MakeTelemetrySafeUtf8` does to a text

The function shows the bytes that are not UTF-8 as `\xNN`. Its loop escapes every byte that begins no encoding, and
every `NUL` besides, since its table of least code points asks for at least 1 of a single byte
(`makeTelemetrySafeLoop_escaped`). A text that is all ASCII does not come to the loop and keeps its `NUL`s.
-/

namespace FirebirdScan
open NoneCharset

/-! ## One round of the loop

`sequenceAt` and `validSequence` are compared with `decodeUtf8Codepoint`, of which `NoneCharset` shows that it reads
exactly the well-formed encodings. -/

/-- The continuation loop looks at one more byte. -/
theorem continuationBytes_succ_eq (n x : Nat) (s : Bytes) :
    continuationBytes (n + 1) x s =
      if isContinuation s 0 then continuationBytes n ((x <<< 6) ||| lowSix s 0) (s.drop 1) else none := by
  cases s with
  | nil => rfl
  | cons c s =>
      simp only [continuationBytes, isContinuation, lowSix, List.getElem?_cons_zero, Option.any_some,
        decide_eq_true_eq, List.getD_cons_zero, List.drop_succ_cons, List.drop_zero, ne_eq, ite_not]

theorem isContinuation_drop (s : Bytes) (i j : Nat) : isContinuation (s.drop i) j = isContinuation s (i + j) := by
  rw [isContinuation, isContinuation, List.getElem?_drop]

theorem lowSix_drop (s : Bytes) (i j : Nat) : lowSix (s.drop i) j = lowSix s (i + j) := by
  rw [lowSix, lowSix, List.getD_eq_getElem?_getD, List.getD_eq_getElem?_getD, List.getElem?_drop]

theorem continuationBytes_two (x : Nat) (s : Bytes) :
    continuationBytes 2 x s =
      if isContinuation s 0 ∧ isContinuation s 1 then
        some ((x <<< 12) ||| (lowSix s 0 <<< 6) ||| lowSix s 1, s.drop 2)
      else none := by
  rw [continuationBytes_succ_eq, continuationBytes_succ_eq, isContinuation_drop, lowSix_drop, List.drop_drop,
    Nat.shiftLeft_or_distrib, ← Nat.shiftLeft_add, ite_and]
  rfl

theorem continuationBytes_three (x : Nat) (s : Bytes) :
    continuationBytes 3 x s =
      if isContinuation s 0 ∧ isContinuation s 1 ∧ isContinuation s 2 then
        some ((x <<< 18) ||| (lowSix s 0 <<< 12) ||| (lowSix s 1 <<< 6) ||| lowSix s 2, s.drop 3)
      else none := by
  rw [continuationBytes_succ_eq, continuationBytes_two, isContinuation_drop, isContinuation_drop, lowSix_drop,
    lowSix_drop, List.drop_drop, Nat.shiftLeft_or_distrib, ← Nat.shiftLeft_add]
  by_cases h0 : isContinuation s 0 = true
  · rw [if_pos h0]
    simp only [h0, true_and]
  · rw [if_neg h0, if_neg fun h => h0 h.1]

/-- The classes of the lead byte, as ranges. -/
theorem sequenceAt_eq (lead : UInt8) (s : Bytes) :
    sequenceAt lead s =
      if lead.toNat < 0x80 then (1, lead.toNat)
      else if lead.toNat < 0xC0 then (0, 0)
      else if lead.toNat < 0xE0 then
        if isContinuation s 0 then (2, ((lead.toNat % 32) <<< 6) ||| lowSix s 0) else (0, 0)
      else if lead.toNat < 0xF0 then
        if isContinuation s 0 ∧ isContinuation s 1 then
          (3, ((lead.toNat % 16) <<< 12) ||| (lowSix s 0 <<< 6) ||| lowSix s 1)
        else (0, 0)
      else if lead.toNat < 0xF8 then
        if isContinuation s 0 ∧ isContinuation s 1 ∧ isContinuation s 2 then
          (4, ((lead.toNat % 8) <<< 18) ||| (lowSix s 0 <<< 12) ||| (lowSix s 1 <<< 6) ||| lowSix s 2)
        else (0, 0)
      else (0, 0) := by
  have hl := lead.toNat_lt
  simp only [sequenceAt, lead2_mask _ hl, lead3_mask _ hl, lead4_mask _ hl, and_0x1F, and_0x0F, and_0x07]
  split_ifs <;> first | rfl | omega | grind

/-- The checks of both functions on a sequence of two bytes and more. -/
theorem validSequence_check {len cp m : Nat} {rest : Bytes} (hlen : len ≠ 0) (hm : minCodepoint.getD len 0 = m)
    (hpos : 0 < m) :
    (if validSequence len cp then some (cp, rest) else none) =
      (checkCodepoint m (cp, rest)).filter fun p => p.1 ≠ 0 := by
  have hvalid : validSequence len cp = true ↔ ¬ (cp < m ∨ cp > 0x10FFFF) ∧ ¬ (cp ≥ 0xD800 ∧ cp ≤ 0xDFFF) := by
    simp only [validSequence, hm, Bool.and_eq_true, decide_eq_true_eq, Bool.not_eq_true', ← Bool.decide_and,
      decide_eq_false_iff_not]
    constructor
    · rintro ⟨⟨⟨-, h1⟩, h2⟩, h3⟩
      exact ⟨by omega, h3⟩
    · rintro ⟨h1, h3⟩
      exact ⟨⟨⟨hlen, by omega⟩, by omega⟩, h3⟩
  simp only [checkCodepoint]
  by_cases h1 : cp < m ∨ cp > 0x10FFFF
  · rw [if_neg fun h => (hvalid.mp h).1 h1, if_pos h1, Option.filter_none]
  by_cases h2 : cp ≥ 0xD800 ∧ cp ≤ 0xDFFF
  · rw [if_neg fun h => (hvalid.mp h).2 h2, if_neg h1, if_pos h2, Option.filter_none]
  · have hcp : cp ≠ 0 := by omega
    rw [if_pos (hvalid.mpr ⟨h1, h2⟩), if_neg h1, if_neg h2, Option.filter_some, if_pos (decide_eq_true hcp)]

/-- **What the loop takes for a sequence is what `DecodeUtf8Codepoint` reads**, unless that is a `NUL`. -/
theorem validSequence_sequenceAt (lead : UInt8) (s : Bytes) :
    (if validSequence (sequenceAt lead s).1 (sequenceAt lead s).2 then
        some ((sequenceAt lead s).2, (lead :: s).drop (sequenceAt lead s).1)
      else none) =
      (decodeUtf8Codepoint (lead :: s)).filter fun p => p.1 ≠ 0 := by
  rw [decodeUtf8Codepoint_cons, sequenceAt_eq]
  -- the four lengths, by the lead byte; only a single byte can be too small for its length and be read
  by_cases h1 : lead.toNat < 0x80
  · have hvalid : validSequence 1 lead.toNat = true ↔ lead.toNat ≠ 0 := by
      have hmin : minCodepoint.getD 1 0 = 1 := rfl
      simp only [validSequence, hmin, Bool.and_eq_true, decide_eq_true_eq, Bool.not_eq_true', ← Bool.decide_and,
        decide_eq_false_iff_not]
      constructor
      · rintro ⟨⟨⟨-, hmin⟩, -⟩, -⟩
        exact Nat.one_le_iff_ne_zero.mp hmin
      · intro hzero
        exact ⟨⟨⟨one_ne_zero, Nat.one_le_iff_ne_zero.mpr hzero⟩, by omega⟩, by omega⟩
    simp only [if_pos h1, Option.filter_some, hvalid, decide_eq_true_eq]
    rfl
  rw [if_neg h1, if_neg h1]
  by_cases h2 : lead.toNat < 0xC0
  · rw [if_pos h2, if_pos h2]
    rfl
  rw [if_neg h2, if_neg h2]
  by_cases h3 : lead.toNat < 0xE0
  · rw [if_pos h3, if_pos h3, continuationBytes_succ_eq]
    by_cases hcont : isContinuation s 0 = true
    · rw [if_pos hcont, if_pos hcont]
      exact validSequence_check two_ne_zero rfl (by decide)
    · rw [if_neg hcont, if_neg hcont]
      rfl
  rw [if_neg h3, if_neg h3]
  by_cases h4 : lead.toNat < 0xF0
  · rw [if_pos h4, if_pos h4, continuationBytes_two]
    by_cases hcont : isContinuation s 0 = true ∧ isContinuation s 1 = true
    · rw [if_pos hcont, if_pos hcont]
      exact validSequence_check three_ne_zero rfl (by decide)
    · rw [if_neg hcont, if_neg hcont]
      rfl
  rw [if_neg h4, if_neg h4]
  by_cases h5 : lead.toNat < 0xF8
  · rw [if_pos h5, if_pos h5, continuationBytes_three]
    by_cases hcont : isContinuation s 0 = true ∧ isContinuation s 1 = true ∧ isContinuation s 2 = true
    · rw [if_pos hcont, if_pos hcont]
      exact validSequence_check four_ne_zero rfl (by decide)
    · rw [if_neg hcont, if_neg hcont]
      rfl
  · rw [if_neg h5, if_neg h5]
    rfl

/-! ## The loop -/

/-- The escape of a byte: a backslash, `x` and its two digits. -/
def escapeByte (b : UInt8) : Bytes := [0x5C, 0x78, hex (b.toNat / 16), hex (b.toNat % 16)]

theorem hex_printable {n : Nat} (h : n < 16) : 0x20 < hex n ∧ hex n < 0x80 := by
  revert n
  decide

theorem escapeByte_printable (b : UInt8) : ∀ c ∈ escapeByte b, 0x20 < c ∧ c < 0x80 := by
  have hb := b.toNat_lt
  intro c hc
  simp only [escapeByte, List.mem_cons, List.not_mem_nil, or_false] at hc
  rcases hc with rfl | rfl | rfl | rfl
  · decide
  · decide
  · exact hex_printable (by omega)
  · exact hex_printable (by omega)

theorem escapeByte_wellFormed (b : UInt8) : Utf8.WellFormed (escapeByte b) :=
  Utf8.wellFormed_ascii fun c hc => (escapeByte_printable b c hc).2

theorem zero_not_mem_escapeByte (b : UInt8) : 0 ∉ escapeByte b := by
  intro h
  exact absurd (escapeByte_printable b 0 h).1 (by decide)

/-- A round copies the encoding of a code point other than `NUL`. -/
theorem makeTelemetrySafeLoop_scalar {fuel cp : Nat} {s : Bytes} (hcp : Utf8.IsScalar cp) (hzero : cp ≠ 0) :
    makeTelemetrySafeLoop (fuel + 1) (Utf8.encodeScalar cp ++ s) =
      Utf8.encodeScalar cp ++ makeTelemetrySafeLoop fuel s := by
  have hdecode := decodeUtf8Codepoint_eq_some.mpr ⟨hcp, Eq.refl (Utf8.encodeScalar cp ++ s)⟩
  cases hbytes : Utf8.encodeScalar cp ++ s with
  | nil => exact absurd (List.append_eq_nil_iff.mp hbytes).1 (Utf8.encodeScalar_ne_nil cp)
  | cons lead tail =>
      have hfound := validSequence_sequenceAt lead tail
      rw [← hbytes, hdecode, Option.filter_some, if_pos (decide_eq_true hzero), hbytes] at hfound
      split_ifs at hfound with hvalid
      obtain ⟨-, hdrop⟩ := Prod.mk.inj (Option.some.inj hfound)
      have htake : (lead :: tail).take (sequenceAt lead tail).1 = Utf8.encodeScalar cp := by
        have happend := List.take_append_drop (sequenceAt lead tail).1 (lead :: tail)
        rw [hdrop, ← hbytes] at happend
        exact hbytes ▸ List.append_cancel_right happend
      simp only [makeTelemetrySafeLoop, if_pos hvalid]
      rw [htake, hdrop]

/-- A round escapes a byte at which no such encoding begins. -/
theorem makeTelemetrySafeLoop_stray {fuel : Nat} {b : UInt8} {s : Bytes} (h : Utf8.Stray (· ≠ 0) (b :: s)) :
    makeTelemetrySafeLoop (fuel + 1) (b :: s) = escapeByte b ++ makeTelemetrySafeLoop fuel s := by
  have hinvalid : validSequence (sequenceAt b s).1 (sequenceAt b s).2 ≠ true := by
    intro hvalid
    have hfound := validSequence_sequenceAt b s
    rw [if_pos hvalid] at hfound
    obtain ⟨hdecode, hzero⟩ := Option.filter_eq_some_iff.mp hfound.symm
    obtain ⟨hcp, heq⟩ := decodeUtf8Codepoint_eq_some.mp hdecode
    exact h _ _ hcp (of_decide_eq_true hzero) heq
  simp only [makeTelemetrySafeLoop, if_neg hinvalid]
  rfl

/-- **The loop escapes what begins no encoding, and every `NUL`.** -/
theorem makeTelemetrySafeLoop_escaped {s out : Bytes} (h : Utf8.Escaped (· ≠ 0) escapeByte s out) :
    ∀ fuel, s.length ≤ fuel → makeTelemetrySafeLoop fuel s = out := by
  induction h with
  | nil =>
      intro fuel _
      cases fuel <;> rfl
  | @scalar cp s out hcp hzero _ ih =>
      intro fuel hfuel
      have hpos := List.length_pos_iff.mpr (Utf8.encodeScalar_ne_nil cp)
      rw [List.length_append] at hfuel
      obtain ⟨fuel, rfl⟩ := Nat.exists_eq_add_of_le' (show 1 ≤ fuel by omega)
      rw [makeTelemetrySafeLoop_scalar hcp hzero, ih fuel (by omega)]
  | stray hstray _ ih =>
      intro fuel hfuel
      rw [List.length_cons] at hfuel
      obtain ⟨fuel, rfl⟩ := Nat.exists_eq_add_of_le' (show 1 ≤ fuel by omega)
      rw [makeTelemetrySafeLoop_stray hstray, ih fuel (by omega)]

/-! ## The function -/

/-- What `MakeTelemetrySafeUtf8` promises of a text: UTF-8, which is the text itself if that is UTF-8, and otherwise
    the text with each byte escaped that is in no encoding. -/
structure DisplayEscape (s : Bytes) : Prop where
  wellFormed : Utf8.WellFormed (makeTelemetrySafeUtf8 s)
  identity : Utf8.WellFormed s → makeTelemetrySafeUtf8 s = s
  escaped : ¬ Utf8.WellFormed s → Utf8.Escaped (fun _ => True) escapeByte s (makeTelemetrySafeUtf8 s)
  idempotent : makeTelemetrySafeUtf8 (makeTelemetrySafeUtf8 s) = makeTelemetrySafeUtf8 s

/-- Where the fast path answers, the slow path would answer the same. -/
def PathsAgree (s : Bytes) : Prop := (∀ c ∈ s, c < 0x80) → makeTelemetrySafeLoop s.length s = s

theorem makeTelemetrySafeUtf8_ascii {s : Bytes} (h : ∀ c ∈ s, c < 0x80) : makeTelemetrySafeUtf8 s = s := by
  have hall : s.all (· < 0x80) = true := List.all_eq_true.mpr fun c hc => decide_eq_true (h c hc)
  rw [makeTelemetrySafeUtf8, if_pos hall]

/-- Where the fast path does not answer, the slow path does. -/
theorem makeTelemetrySafeUtf8_escaped {s : Bytes} (h : ¬ ∀ c ∈ s, c < 0x80) :
    Utf8.Escaped (· ≠ 0) escapeByte s (makeTelemetrySafeUtf8 s) := by
  have hall : ¬ s.all (· < 0x80) = true := by
    intro hall
    exact h fun c hc => of_decide_eq_true (List.all_eq_true.mp hall c hc)
  obtain ⟨out, hout⟩ := Utf8.Escaped.exists (· ≠ 0) escapeByte s
  rw [makeTelemetrySafeUtf8, if_neg hall, makeTelemetrySafeLoop_escaped hout _ le_rfl]
  exact hout

/-- What `MakeTelemetrySafeUtf8` returns is UTF-8. -/
theorem makeTelemetrySafeUtf8_wellFormed (s : Bytes) : Utf8.WellFormed (makeTelemetrySafeUtf8 s) := by
  by_cases hascii : ∀ c ∈ s, c < 0x80
  · rw [makeTelemetrySafeUtf8_ascii hascii]
    exact Utf8.wellFormed_ascii hascii
  · exact (makeTelemetrySafeUtf8_escaped hascii).wellFormed escapeByte_wellFormed

theorem zero_not_mem_escaped {s out : Bytes} (h : Utf8.Escaped (· ≠ 0) escapeByte s out) : 0 ∉ out :=
  h.not_mem_ascii (by decide) (fun hne => hne rfl) zero_not_mem_escapeByte

/-- The loop leaves UTF-8 without a `NUL` as it is. -/
theorem escaped_self {s : Bytes} (h : Utf8.WellFormed s) (hzero : 0 ∉ s) :
    Utf8.Escaped (· ≠ 0) escapeByte s s :=
  (h.escaped fun _ _ => trivial).of_not_mem hzero (by decide)

theorem makeTelemetrySafeUtf8_self {s : Bytes} (h : Utf8.WellFormed s) (hzero : 0 ∉ s) :
    makeTelemetrySafeUtf8 s = s := by
  by_cases hascii : ∀ c ∈ s, c < 0x80
  · exact makeTelemetrySafeUtf8_ascii hascii
  · exact (makeTelemetrySafeUtf8_escaped hascii).functional (escaped_self h hzero)

/-- To escape twice is to escape once. -/
theorem makeTelemetrySafeUtf8_idempotent (s : Bytes) :
    makeTelemetrySafeUtf8 (makeTelemetrySafeUtf8 s) = makeTelemetrySafeUtf8 s := by
  by_cases hascii : ∀ c ∈ s, c < 0x80
  · rw [makeTelemetrySafeUtf8_ascii hascii, makeTelemetrySafeUtf8_ascii hascii]
  · exact makeTelemetrySafeUtf8_self (makeTelemetrySafeUtf8_wellFormed s)
      (zero_not_mem_escaped (makeTelemetrySafeUtf8_escaped hascii))

/-- What is observable of the function is as promised for a text that the fast path keeps, and for one without a
    `NUL`. -/
theorem displayEscape_of {s : Bytes} (h : (∀ c ∈ s, c < 0x80) ∨ 0 ∉ s) : DisplayEscape s where
  wellFormed := makeTelemetrySafeUtf8_wellFormed s
  identity := by
    intro hs
    rcases h with hascii | hzero
    · exact makeTelemetrySafeUtf8_ascii hascii
    · exact makeTelemetrySafeUtf8_self hs hzero
  escaped := by
    intro hs
    have hascii : ¬ ∀ c ∈ s, c < 0x80 := fun hascii => hs (Utf8.wellFormed_ascii hascii)
    have hzero := h.resolve_left hascii
    obtain ⟨out, hout⟩ := Utf8.Escaped.exists (fun _ => True) escapeByte s
    rw [(makeTelemetrySafeUtf8_escaped hascii).functional (hout.of_not_mem hzero (by decide))]
    exact hout
  idempotent := makeTelemetrySafeUtf8_idempotent s

/-- A text that the loop gets loses its `NUL`s, which are UTF-8. -/
theorem DisplayEscape.zero_not_mem {s : Bytes} (h : DisplayEscape s) (hascii : ¬ ∀ c ∈ s, c < 0x80) : 0 ∉ s := by
  intro hzero
  have hgone := zero_not_mem_escaped (makeTelemetrySafeUtf8_escaped hascii)
  by_cases hs : Utf8.WellFormed s
  · rw [h.identity hs] at hgone
    exact hgone hzero
  · exact hgone ((h.escaped hs).mem_ascii (by decide) trivial hzero)

theorem pathsAgree_iff (s : Bytes) : PathsAgree s ↔ ((∀ c ∈ s, c < 0x80) → 0 ∉ s) := by
  unfold PathsAgree
  refine forall_congr' ?_
  intro hascii
  constructor
  · intro h
    obtain ⟨out, hout⟩ := Utf8.Escaped.exists (· ≠ 0) escapeByte s
    rw [makeTelemetrySafeLoop_escaped hout _ le_rfl] at h
    exact h ▸ zero_not_mem_escaped hout
  · intro hzero
    exact makeTelemetrySafeLoop_escaped (escaped_self (Utf8.wellFormed_ascii hascii) hzero) _ le_rfl

/-- **`MakeTelemetrySafeUtf8` is the display escape of its header exactly where there is no `NUL`.** What it returns is
    as promised for all-ASCII texts as well, where only its two paths disagree. -/
theorem makeTelemetrySafeUtf8_iff (s : Bytes) :
    (DisplayEscape s ∧ PathsAgree s ↔ 0 ∉ s) ∧ (DisplayEscape s ↔ (∀ c ∈ s, c < 0x80) ∨ 0 ∉ s) := by
  refine ⟨?_, ?_⟩
  · rw [pathsAgree_iff]
    constructor
    · rintro ⟨hdisplay, hpaths⟩
      by_cases hascii : ∀ c ∈ s, c < 0x80
      · exact hpaths hascii
      · exact hdisplay.zero_not_mem hascii
    · intro hzero
      exact ⟨displayEscape_of (.inr hzero), fun _ => hzero⟩
  · constructor
    · intro hdisplay
      by_cases hascii : ∀ c ∈ s, c < 0x80
      · exact .inl hascii
      · exact .inr (hdisplay.zero_not_mem hascii)
    · exact displayEscape_of

/-- An `é` in front of a `NUL` is UTF-8, and its `NUL` is shown as `\x00`. -/
theorem makeTelemetrySafeUtf8_nul : ¬ ∀ s, DisplayEscape s ∧ PathsAgree s := by
  intro h
  have hs : Utf8.WellFormed [0xC3, 0xA9, 0x00] := ⟨[0xE9, 0], by decide, rfl⟩
  have hself := (h [0xC3, 0xA9, 0x00]).1.identity hs
  have hshown : makeTelemetrySafeUtf8 [0xC3, 0xA9, 0x00] = [0xC3, 0xA9, 0x5C, 0x78, 0x30, 0x30] := by
    decide +kernel
  rw [hshown] at hself
  cases hself

end FirebirdScan
