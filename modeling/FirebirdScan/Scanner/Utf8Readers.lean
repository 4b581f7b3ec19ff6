import FirebirdScan.Scanner.NoneBlob

/-!
# `Scanner.Utf8Readers` — the two readers of UTF-8, byte by byte

`IsValidUtf8` and `DecodeUtf8Codepoint` read a string by index. Here they do so as the source writes them, and say
when they read a byte that the string does not have or do not come to an end. Neither happens, and what they compute
is what `AppendValue` and `NoneCharset` compute on the list of the bytes (`isValidUtf8At_eq`,
`decodeUtf8CodepointAt_eq`); so both read exactly the encodings of scalar values.
-/

namespace FirebirdScan
open NoneCharset

/-- What can go wrong with a reading. -/
inductive ReadFault where
  | outside
  | unfinished
deriving DecidableEq

/-! ## The functions -/

/-- A byte of the string. -/
def byteAt (s : Bytes) (i : Nat) : Except ReadFault Nat :=
  match s[i]? with
  | some c => .ok c.toNat
  | none => .error .outside

/-- The loop over the continuation bytes, from the `i`th, in both functions. It ends with `none` at a byte that is not
    one. -/
def continuationsAt (s : Bytes) (pos : Nat) : Nat → Nat → Nat → Except ReadFault (Option Nat)
  | 0, _, cp => .ok (some cp)
  | n + 1, i, cp => do
      let cont ← byteAt s (pos + i)
      if cont &&& 0xC0 ≠ 0x80 then return none
      continuationsAt s pos n (i + 1) ((cp <<< 6) ||| (cont &&& 0x3F))

/-- What `DecodeUtf8Codepoint` leaves: its result, `pos` and `out_cp`. -/
structure DecodedCodepoint where
  success : Bool
  pos : Nat
  outCp : Nat
deriving DecidableEq

/-- The `len`, and the bits of a lead byte of a longer sequence. -/
def leadShape (lead : Nat) : Option (Nat × Nat) :=
  if lead &&& 0xE0 = 0xC0 then some (2, lead &&& 0x1F)
  else if lead &&& 0xF0 = 0xE0 then some (3, lead &&& 0x0F)
  else if lead &&& 0xF8 = 0xF0 then some (4, lead &&& 0x07)
  else none

/-- `kMinCp` of `DecodeUtf8Codepoint`. -/
def decodeMinCp : List Nat := [0, 0, 0x80, 0x800, 0x10000]

/-- `DecodeUtf8Codepoint`. -/
def decodeUtf8CodepointAt (s : Bytes) (pos outCp : Nat) : Except ReadFault DecodedCodepoint := do
  let lead ← byteAt s pos
  if lead < 0x80 then return ⟨true, pos + 1, lead⟩
  else
    match leadShape lead with
    | none => return ⟨false, pos, outCp⟩
    | some (len, bits) =>
        if pos + len > s.length then return ⟨false, pos, outCp⟩
        else
          match ← continuationsAt s pos (len - 1) 1 bits with
          | none => return ⟨false, pos, outCp⟩
          | some cp =>
              if cp < decodeMinCp.getD len 0 ∨ cp > 0x10FFFF then return ⟨false, pos, outCp⟩
              else if cp ≥ 0xD800 ∧ cp ≤ 0xDFFF then return ⟨false, pos, outCp⟩
              else return ⟨true, pos + len, cp⟩

/-- A reader calls `DecodeUtf8Codepoint` from `pos` on as long as bytes are left. Does it come to the end? -/
def decodeAllAt (s : Bytes) : Nat → Nat → Except ReadFault Bool
  | 0, pos => if pos < s.length then .error .unfinished else .ok true
  | fuel + 1, pos =>
      if pos < s.length then do
        let decoded ← decodeUtf8CodepointAt s pos 0
        if decoded.success then decodeAllAt s fuel decoded.pos else return false
      else return true

/-- The `want` and `min_codepoint` of a lead byte. -/
def leadWant (c : Nat) : Option (Nat × Nat) :=
  if c &&& 0xE0 = 0xC0 then some (1, 0x80)
  else if c &&& 0xF0 = 0xE0 then some (2, 0x800)
  else if c &&& 0xF8 = 0xF0 then some (3, 0x10000)
  else none

/-- The loop of `IsValidUtf8`, with `p` counted from `data`. -/
def isValidUtf8AtLoop (s : Bytes) : Nat → Nat → Except ReadFault Bool
  | 0, p => if p < s.length then .error .unfinished else .ok true
  | fuel + 1, p =>
      if p < s.length then do
        let c ← byteAt s p
        if c < 0x80 then isValidUtf8AtLoop s fuel (p + 1)
        else
          match leadWant c with
          | none => return false
          | some (want, minCodepoint) =>
              if p + 1 + want > s.length then return false
              else
                match ← continuationsAt s p want 1 (c &&& (1 <<< (6 - want) - 1)) with
                | none => return false
                | some cp =>
                    if cp < minCodepoint then return false
                    else if cp ≥ 0xD800 ∧ cp ≤ 0xDFFF then return false
                    else if cp > 0x10FFFF then return false
                    else isValidUtf8AtLoop s fuel (p + 1 + want)
      else return true

/-- `IsValidUtf8`. -/
def isValidUtf8At (s : Bytes) : Except ReadFault Bool := isValidUtf8AtLoop s s.length 0

/-! ## The continuation bytes -/

theorem byteAt_drop {s t : Bytes} {c : UInt8} {i : Nat} (h : s.drop i = c :: t) : byteAt s i = .ok c.toNat := by
  have hget : s[i]? = some c := by
    rw [← Nat.add_zero i, ← List.getElem?_drop, h]
    rfl
  rw [byteAt, hget]

theorem length_tailBytes (n cp : Nat) : (tailBytes n cp).length = n := by
  induction n with
  | zero => rfl
  | succ n ih => rw [tailBytes, List.length_cons, ih]

/-- The list loop, when it succeeds, takes as many bytes as it is to take. -/
theorem continuationBytes_drop {n x cp : Nat} {s rest : Bytes} (h : continuationBytes n x s = some (cp, rest)) :
    n ≤ s.length ∧ rest = s.drop n := by
  obtain ⟨-, rfl⟩ := continuationBytes_eq_some.mp h
  have hlen := length_tailBytes n cp
  refine ⟨by rw [List.length_append]; omega, ?_⟩
  rw [List.drop_append_of_le_length hlen.ge, List.drop_of_length_le hlen.le, List.nil_append]

/-- **Where the string is long enough, the loop reads inside it**, and what the list loop reads. -/
theorem continuationsAt_eq {s : Bytes} {pos : Nat} (n i cp : Nat) (h : pos + i + n ≤ s.length) :
    continuationsAt s pos n i cp = .ok ((continuationBytes n cp (s.drop (pos + i))).map Prod.fst) := by
  induction n generalizing i cp with
  | zero => rfl
  | succ n ih =>
      cases hdrop : s.drop (pos + i) with
      | nil =>
          have hlen := List.drop_eq_nil_iff.mp hdrop
          omega
      | cons c t =>
          have ht : s.drop (pos + (i + 1)) = t := by
            rw [← Nat.add_assoc, ← List.drop_drop, hdrop]
            rfl
          rw [continuationsAt, byteAt_drop hdrop, continuationBytes]
          show (if _ then _ else _) = _
          split_ifs with hcont
          · rfl
          · rw [ih (i + 1) _ (by omega), ht]

/-! ## The readers -/

/-- What `DecodeUtf8Codepoint` is to leave when the list reader finds `found` at `pos`. -/
def leftAt (s : Bytes) (pos outCp : Nat) (found : Option (Nat × Bytes)) : DecodedCodepoint :=
  found.elim ⟨false, pos, outCp⟩ fun p => ⟨true, s.length - p.2.length, p.1⟩

/-- A sequence of `n + 1` bytes behind its lead byte. -/
theorem decodeTail_eq {s t : Bytes} {lead : UInt8} {pos outCp n x m : Nat} (hdrop : s.drop pos = lead :: t)
    (hm : decodeMinCp.getD (n + 1) 0 = m) :
    (if pos + (n + 1) > s.length then (return ⟨false, pos, outCp⟩ : Except ReadFault DecodedCodepoint)
      else do
        match ← continuationsAt s pos (n + 1 - 1) 1 x with
        | none => return ⟨false, pos, outCp⟩
        | some cp =>
            if cp < decodeMinCp.getD (n + 1) 0 ∨ cp > 0x10FFFF then return ⟨false, pos, outCp⟩
            else if cp ≥ 0xD800 ∧ cp ≤ 0xDFFF then return ⟨false, pos, outCp⟩
            else return ⟨true, pos + (n + 1), cp⟩) =
      .ok (leftAt s pos outCp ((continuationBytes n x t).bind (checkCodepoint m))) := by
  have hlen := congrArg List.length hdrop
  rw [List.length_drop, List.length_cons] at hlen
  have ht : s.drop (pos + 1) = t := by
    rw [← List.drop_drop, hdrop]
    rfl
  split_ifs with hshort
  -- the string is too short: then the list reader does not find the bytes, either
  · cases hcont : continuationBytes n x t with
    | none => rfl
    | some p =>
        have hfit := (continuationBytes_drop hcont).1
        omega
  · rw [Nat.add_sub_cancel, continuationsAt_eq n 1 x (by omega), ht, hm]
    cases hcont : continuationBytes n x t with
    | none => rfl
    | some p =>
        obtain ⟨cp, rest⟩ := p
        obtain ⟨hfit, hrest⟩ := continuationBytes_drop hcont
        have hpos : s.length - rest.length = pos + (n + 1) := by
          rw [hrest, List.length_drop]
          omega
        show (if _ then _ else _) = Except.ok (leftAt s pos outCp (checkCodepoint m (cp, rest)))
        simp only [checkCodepoint]
        split_ifs with hrange hsurrogate
        · rfl
        · rfl
        · rw [leftAt, Option.elim_some, hpos]
          rfl

/-- **`DecodeUtf8Codepoint` reads inside the string**, and leaves what the list reader finds. -/
theorem decodeUtf8CodepointAt_eq {s : Bytes} {pos : Nat} (outCp : Nat) (h : pos < s.length) :
    decodeUtf8CodepointAt s pos outCp = .ok (leftAt s pos outCp (decodeUtf8Codepoint (s.drop pos))) := by
  cases hdrop : s.drop pos with
  | nil =>
      have hlen := List.drop_eq_nil_iff.mp hdrop
      omega
  | cons lead t =>
      rw [decodeUtf8CodepointAt, byteAt_drop hdrop, decodeUtf8Codepoint]
      show (if _ then _ else _) = _
      by_cases h1 : lead.toNat < 0x80
      · rw [if_pos h1, if_pos h1]
        have hlen := congrArg List.length hdrop
        rw [List.length_drop, List.length_cons] at hlen
        have hpos : s.length - t.length = pos + 1 := by omega
        rw [leftAt, Option.elim_some, hpos]
        rfl
      rw [if_neg h1, if_neg h1, leadShape]
      by_cases h2 : lead.toNat &&& 0xE0 = 0xC0
      · rw [if_pos h2, if_pos h2]
        exact decodeTail_eq hdrop rfl
      rw [if_neg h2, if_neg h2]
      by_cases h3 : lead.toNat &&& 0xF0 = 0xE0
      · rw [if_pos h3, if_pos h3]
        exact decodeTail_eq hdrop rfl
      rw [if_neg h3, if_neg h3]
      by_cases h4 : lead.toNat &&& 0xF8 = 0xF0
      · rw [if_pos h4, if_pos h4]
        exact decodeTail_eq hdrop rfl
      rw [if_neg h4, if_neg h4]
      rfl

/-- What is left of the string behind a code point is shorter, and is what stands at the new position. -/
theorem decodeUtf8Codepoint_drop {s rest : Bytes} {pos cp : Nat}
    (h : decodeUtf8Codepoint (s.drop pos) = some (cp, rest)) :
    rest.length < (s.drop pos).length ∧ s.drop (s.length - rest.length) = rest := by
  obtain ⟨-, heq⟩ := decodeUtf8Codepoint_eq_some.mp h
  have hlen := congrArg List.length heq
  have hpos := List.length_pos_iff.mpr (Utf8.encodeScalar_ne_nil cp)
  rw [List.length_append] at hlen
  have hsuffix : rest <:+ s := by
    have hdrop := List.drop_suffix pos s
    rw [heq] at hdrop
    exact (List.suffix_append _ rest).trans hdrop
  exact ⟨by omega, (List.suffix_iff_eq_drop.mp hsuffix).symm⟩

/-- **The repeated reader reads inside the string and comes to an end**, with the answer of `IsValidUtf8`. -/
theorem decodeAllAt_eq {s : Bytes} (fuel pos : Nat) (h : s.length - pos ≤ fuel) :
    decodeAllAt s fuel pos = .ok (isValidUtf8Loop fuel (s.drop pos)) := by
  induction fuel generalizing pos with
  | zero =>
      have hpos : ¬ pos < s.length := by omega
      rw [decodeAllAt, if_neg hpos, List.drop_of_length_le (by omega)]
      rfl
  | succ fuel ih =>
      rw [decodeAllAt]
      by_cases hpos : pos < s.length
      · rw [if_pos hpos, decodeUtf8CodepointAt_eq 0 hpos]
        have hcons : ∃ c t, s.drop pos = c :: t := List.exists_cons_of_ne_nil fun hnil => by
          have hlen := List.drop_eq_nil_iff.mp hnil
          omega
        obtain ⟨c, t, hdrop⟩ := hcons
        have hround := isValidUtf8Loop_cons fuel c t
        rw [← hdrop] at hround
        rw [hround]
        cases hdecode : decodeUtf8Codepoint (s.drop pos) with
        | none => rfl
        | some p =>
            obtain ⟨cp, rest⟩ := p
            -- a code point takes at least one byte, so the fuel lasts
            obtain ⟨hshort, hrest⟩ := decodeUtf8Codepoint_drop hdecode
            rw [List.length_drop] at hshort
            show decodeAllAt s fuel (s.length - rest.length) = .ok (isValidUtf8Loop fuel rest)
            rw [ih _ (by omega), hrest]
      · rw [if_neg hpos, List.drop_of_length_le (by omega)]
        rfl

/-- What `IsValidUtf8` does behind the lead byte of a sequence of `n + 1` bytes. -/
theorem validTail_eq {s t : Bytes} {c : UInt8} {fuel p n x m : Nat} (hdrop : s.drop p = c :: t)
    (hnext : ∀ q, p < q → isValidUtf8AtLoop s fuel q = .ok (isValidUtf8Loop fuel (s.drop q))) :
    (if p + 1 + n > s.length then (return false : Except ReadFault Bool)
      else do
        match ← continuationsAt s p n 1 x with
        | none => return false
        | some cp =>
            if cp < m then return false
            else if cp ≥ 0xD800 ∧ cp ≤ 0xDFFF then return false
            else if cp > 0x10FFFF then return false
            else isValidUtf8AtLoop s fuel (p + 1 + n)) =
      .ok (((continuationBytes n x t).bind (checkCodepoint m)).any fun found => isValidUtf8Loop fuel found.2) := by
  have hlen := congrArg List.length hdrop
  rw [List.length_drop, List.length_cons] at hlen
  have ht : s.drop (p + 1) = t := by
    rw [← List.drop_drop, hdrop]
    rfl
  split_ifs with hshort
  · cases hcont : continuationBytes n x t with
    | none => rfl
    | some found =>
        have hfit := (continuationBytes_drop hcont).1
        omega
  · rw [continuationsAt_eq n 1 x (by omega), ht]
    cases hcont : continuationBytes n x t with
    | none => rfl
    | some found =>
        obtain ⟨cp, rest⟩ := found
        obtain ⟨-, hrest⟩ := continuationBytes_drop hcont
        show (if _ then _ else _) = Except.ok ((checkCodepoint m (cp, rest)).any _)
        rw [← checkCodepoint_any fuel m cp rest]
        split_ifs with hmin hsurrogate hlarge
        · rfl
        · rfl
        · rfl
        · rw [hnext _ (by omega), ← List.drop_drop, ht, hrest]

/-- **`IsValidUtf8` reads inside the string and comes to an end**, with the answer of the list function. -/
theorem isValidUtf8AtLoop_eq {s : Bytes} (fuel p : Nat) (h : s.length - p ≤ fuel) :
    isValidUtf8AtLoop s fuel p = .ok (isValidUtf8Loop fuel (s.drop p)) := by
  induction fuel generalizing p with
  | zero =>
      have hp : ¬ p < s.length := by omega
      rw [isValidUtf8AtLoop, if_neg hp, List.drop_of_length_le (by omega)]
      rfl
  | succ fuel ih =>
      cases hdrop : s.drop p with
      | nil =>
          have hlen := List.drop_eq_nil_iff.mp hdrop
          rw [isValidUtf8AtLoop, if_neg (by omega)]
          rfl
      | cons c t =>
          have hlen := congrArg List.length hdrop
          rw [List.length_drop, List.length_cons] at hlen
          have hnext : ∀ q, p < q → isValidUtf8AtLoop s fuel q = .ok (isValidUtf8Loop fuel (s.drop q)) :=
            fun q hq => ih q (by omega)
          rw [isValidUtf8AtLoop, if_pos (by omega), byteAt_drop hdrop, isValidUtf8Loop_cons, decodeUtf8Codepoint]
          show (if _ then _ else _) = _
          -- by the lead byte, in the order of the source
          by_cases h1 : c.toNat < 0x80
          · rw [if_pos h1, if_pos h1, hnext _ (by omega), ← List.drop_drop, hdrop]
            rfl
          rw [if_neg h1, if_neg h1, leadWant]
          by_cases h2 : c.toNat &&& 0xE0 = 0xC0
          · rw [if_pos h2, if_pos h2]
            exact validTail_eq hdrop hnext
          rw [if_neg h2, if_neg h2]
          by_cases h3 : c.toNat &&& 0xF0 = 0xE0
          · rw [if_pos h3, if_pos h3]
            exact validTail_eq hdrop hnext
          rw [if_neg h3, if_neg h3]
          by_cases h4 : c.toNat &&& 0xF8 = 0xF0
          · rw [if_pos h4, if_pos h4]
            exact validTail_eq hdrop hnext
          rw [if_neg h4, if_neg h4]
          rfl

/-! ## The two agree -/

/-- What `DecodeUtf8Codepoint` leaves at a position: past the encoding of a scalar value, with that value, or with
    everything as it was where none begins. -/
def DecodesAt (s : Bytes) (pos outCp : Nat) : Prop :=
  (∃ cp rest, Utf8.IsScalar cp ∧ s.drop pos = Utf8.encodeScalar cp ++ rest ∧
      decodeUtf8CodepointAt s pos outCp = .ok ⟨true, pos + (Utf8.encodeScalar cp).length, cp⟩) ∨
    (∀ cp rest, Utf8.IsScalar cp → s.drop pos ≠ Utf8.encodeScalar cp ++ rest) ∧
      decodeUtf8CodepointAt s pos outCp = .ok ⟨false, pos, outCp⟩

theorem decodesAt {s : Bytes} {pos : Nat} (outCp : Nat) (h : pos < s.length) : DecodesAt s pos outCp := by
  unfold DecodesAt
  rw [decodeUtf8CodepointAt_eq outCp h]
  cases hdecode : decodeUtf8Codepoint (s.drop pos) with
  | none =>
      refine .inr ⟨?_, rfl⟩
      intro cp rest hscalar heq
      rw [decodeUtf8Codepoint_eq_some.mpr ⟨hscalar, heq⟩] at hdecode
      cases hdecode
  | some p =>
      obtain ⟨cp, rest⟩ := p
      obtain ⟨hscalar, heq⟩ := decodeUtf8Codepoint_eq_some.mp hdecode
      refine .inl ⟨cp, rest, hscalar, heq, ?_⟩
      have hlen := congrArg List.length heq
      rw [List.length_drop, List.length_append] at hlen
      have hpos : s.length - rest.length = pos + (Utf8.encodeScalar cp).length := by omega
      rw [leftAt, Option.elim_some, hpos]

/-- **The readers accept exactly RFC 3629 and agree.** `IsValidUtf8` comes to an answer without a read outside the
    string; the answer says whether the string is a concatenation of encodings, and whether `DecodeUtf8Codepoint`
    consumes it all; every call of that leaves what `DecodesAt` says; and strict mode lets exactly such strings
    pass. -/
theorem utf8Readers_agree (s colName : Bytes) :
    ∃ valid, isValidUtf8At s = .ok valid ∧ (valid = true ↔ Utf8.WellFormed s) ∧
      decodeAllAt s s.length 0 = .ok valid ∧
      (∀ pos outCp, pos < s.length → DecodesAt s pos outCp) ∧
      transcodeNoneCharset s .strict colName =
        if valid = true then .ok s else .error (.io (strictMessage colName)) := by
  refine ⟨isValidUtf8 s, ?_, isValidUtf8_iff s, ?_, ?_, rfl⟩
  · exact isValidUtf8AtLoop_eq s.length 0 le_rfl
  · exact decodeAllAt_eq s.length 0 le_rfl
  · intro pos outCp hpos
    exact decodesAt outCp hpos

end FirebirdScan
