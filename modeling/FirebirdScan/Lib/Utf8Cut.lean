import FirebirdScan.Lib.Rewrite
import FirebirdScan.Lib.Utf8Escape

/-!
# `Lib.Utf8Cut` — cutting and rewriting UTF-8

In UTF-8 a byte says whether a character begins at it: all bytes of an encoding but the first lie in `0x80 … 0xBF`
(`encodeScalar_split`), and no other byte does. So a well-formed text can be cut at a position exactly when no such
byte stands there (`wellFormed_take_iff`), and it can be cut at any byte below `0x80` (`wellFormed_ascii_iff`). A rule
that applies only where characters begin, and takes whole characters, leaves UTF-8 well formed
(`rewrite_wellFormed`).
-/

namespace Utf8

open Rewrite

/-- A byte at which no character begins. -/
def Continues (b : UInt8) : Prop := 0x80 ≤ b ∧ b < 0xC0

instance (b : UInt8) : Decidable (Continues b) := inferInstanceAs (Decidable (_ ∧ _))

theorem continues_iff_toNat {b : UInt8} : Continues b ↔ 0x80 ≤ b.toNat ∧ b.toNat < 0xC0 :=
  and_congr UInt8.le_iff_toNat_le UInt8.lt_iff_toNat_lt

theorem continues_ofNat {n : Nat} (h : n < 64) : Continues (UInt8.ofNat (0x80 + n)) := by
  rw [continues_iff_toNat, toNat_ofNat (by omega)]
  omega

theorem not_continues_ofNat {n : Nat} (hn : n < 256) (h : n < 0x80 ∨ 0xC0 ≤ n) : ¬ Continues (UInt8.ofNat n) := by
  rw [continues_iff_toNat, toNat_ofNat hn]
  omega

theorem not_continues_ascii {b : UInt8} (h : b < 0x80) : ¬ Continues b := by
  have hlt : b.toNat < 0x80 := UInt8.lt_iff_toNat_lt.mp h
  rw [continues_iff_toNat]
  omega

/-- The first byte of an encoding begins the character, and the others continue it. -/
theorem encodeScalar_split {cp : Nat} (hcp : IsScalar cp) :
    ∃ b tail, encodeScalar cp = b :: tail ∧ ¬ Continues b ∧ ∀ c ∈ tail, Continues c := by
  obtain ⟨hmax, -⟩ := hcp
  rcases encodeScalar_cases cp with ⟨h1, e⟩ | ⟨h1, h2, e⟩ | ⟨h1, h2, e⟩ | ⟨h1, e⟩
  · exact ⟨_, _, e, not_continues_ofNat (by omega) (by omega), nofun⟩
  · refine ⟨_, _, e, not_continues_ofNat (by omega) (by omega), ?_⟩
    exact List.forall_mem_singleton.mpr (continues_ofNat (by omega))
  · refine ⟨_, _, e, not_continues_ofNat (by omega) (by omega), ?_⟩
    exact List.forall_mem_cons.mpr ⟨continues_ofNat (by omega),
      List.forall_mem_singleton.mpr (continues_ofNat (by omega))⟩
  · refine ⟨_, _, e, not_continues_ofNat (by omega) (by omega), ?_⟩
    exact List.forall_mem_cons.mpr ⟨continues_ofNat (by omega), List.forall_mem_cons.mpr ⟨continues_ofNat (by omega),
      List.forall_mem_singleton.mpr (continues_ofNat (by omega))⟩⟩

/-- A well-formed text is empty, or begins with a character. -/
theorem WellFormed.cases {s : List UInt8} (h : WellFormed s) :
    s = [] ∨ ∃ cp t, IsScalar cp ∧ s = encodeScalar cp ++ t ∧ WellFormed t := by
  obtain ⟨_ | ⟨cp, cps⟩, hcps, rfl⟩ := h
  · exact .inl rfl
  · obtain ⟨hcp, hcps⟩ := List.forall_mem_cons.mp hcps
    exact .inr ⟨cp, encode cps, hcp, rfl, wellFormed_encode hcps⟩

theorem WellFormed.head {b : UInt8} {s : List UInt8} (h : WellFormed (b :: s)) : ¬ Continues b := by
  rcases h.cases with hnil | ⟨cp, t, hcp, heq, -⟩
  · cases hnil
  · obtain ⟨b', tail, he, hb', -⟩ := encodeScalar_split hcp
    rw [he, List.cons_append] at heq
    obtain ⟨rfl, -⟩ := List.cons.inj heq
    exact hb'

/-! ## Cuts -/

/-- No character of the text goes on at a position. -/
def Boundary (s : List UInt8) (i : Nat) : Prop := ∀ c ∈ s[i]?, ¬ Continues c

instance (s : List UInt8) (i : Nat) : Decidable (Boundary s i) :=
  inferInstanceAs (Decidable (∀ c ∈ s[i]?, ¬ Continues c))

/-- What stands behind a well-formed front is well formed. -/
theorem WellFormed.drop_of_take {s : List UInt8} (h : WellFormed s) {i : Nat} (htake : WellFormed (s.take i)) :
    WellFormed (s.drop i) := by
  apply htake.of_append
  rw [List.take_append_drop]
  exact h

/-- **A well-formed text can be cut exactly at the boundaries.** -/
theorem wellFormed_take_iff {s : List UInt8} (h : WellFormed s) (i : Nat) : WellFormed (s.take i) ↔ Boundary s i := by
  constructor
  · intro htake c hc
    have hdrop : WellFormed (s.drop i) := h.drop_of_take htake
    have hget : (s.drop i)[0]? = some c := by
      rw [List.getElem?_drop]
      exact hc
    cases hs : s.drop i with
    | nil =>
        rw [hs] at hget
        cases hget
    | cons b t =>
        rw [hs] at hget hdrop
        obtain rfl := Option.some.inj hget
        exact hdrop.head
  · -- the text is consumed character by character
    revert i
    refine h.scalar_induction (P := fun s => ∀ i, Boundary s i → WellFormed (s.take i)) ?_ ?_
    · intro i _
      rw [List.take_nil]
      exact wellFormed_nil
    · intro cp s hcp _ ih i hi
      obtain ⟨b, tail, he, -, htail⟩ := encodeScalar_split hcp
      by_cases hlen : (encodeScalar cp).length ≤ i
      · rw [List.take_append, List.take_of_length_le hlen]
        refine (ih _ ?_).cons hcp
        intro c hc
        rw [← List.getElem?_append_right hlen] at hc
        exact hi c hc
      · rw [not_le] at hlen
        cases i with
        | zero => exact wellFormed_nil
        | succ i =>
            -- a cut inside the character
            rw [he, List.length_cons] at hlen
            have hget : (encodeScalar cp ++ s)[i + 1]? = some (tail.get ⟨i, by omega⟩) := by
              rw [he, List.cons_append, List.getElem?_cons_succ, List.getElem?_append_left (by omega)]
              exact List.getElem?_eq_getElem _
            exact absurd (htail _ (List.get_mem tail _)) (hi _ hget)

/-- What stands behind a boundary is well formed. -/
theorem WellFormed.drop {s : List UInt8} (h : WellFormed s) {i : Nat} (hi : Boundary s i) : WellFormed (s.drop i) :=
  h.drop_of_take ((wellFormed_take_iff h i).mpr hi)

/-- **A well-formed text can be cut at a byte below `0x80`.** -/
theorem wellFormed_ascii_iff {a s : List UInt8} {c : UInt8} (hc : c < 0x80) :
    WellFormed (a ++ c :: s) ↔ WellFormed a ∧ WellFormed s := by
  constructor
  · intro h
    have hget : (a ++ c :: s)[a.length]? = some c := by
      rw [List.getElem?_append_right le_rfl, Nat.sub_self]
      rfl
    have hcut : Boundary (a ++ c :: s) a.length := by
      intro b hb
      rw [hget] at hb
      exact Option.some.inj hb ▸ not_continues_ascii hc
    have hfront := (wellFormed_take_iff h a.length).mpr hcut
    rw [List.take_left] at hfront
    have hback := hfront.of_append h
    have hone : WellFormed [c] := wellFormed_ascii (List.forall_mem_singleton.mpr hc)
    exact ⟨hfront, hone.of_append hback⟩
  · rintro ⟨ha, hs⟩
    exact ha.append (hs.cons_ascii hc)

/-- So can it at a run of such bytes. -/
theorem wellFormed_asciis_iff {a m s : List UInt8} (hne : m ≠ []) (hm : ∀ c ∈ m, c < 0x80) :
    WellFormed (a ++ (m ++ s)) ↔ WellFormed a ∧ WellFormed s := by
  obtain ⟨c, m, rfl⟩ := List.exists_cons_of_ne_nil hne
  obtain ⟨hc, hm⟩ := List.forall_mem_cons.mp hm
  rw [List.cons_append, wellFormed_ascii_iff hc]
  exact and_congr_right fun _ => ⟨(wellFormed_ascii hm).of_append, (wellFormed_ascii hm).append⟩

/-- A part of a well-formed text is well formed when it is empty, or is cut out at boundaries. -/
theorem wellFormed_part_iff {s : List UInt8} (h : WellFormed s) (i n : Nat) (hfit : i + n ≤ s.length) :
    WellFormed ((s.drop i).take n) ↔ n = 0 ∨ Boundary s i ∧ Boundary s (i + n) := by
  have hshift : Boundary (s.drop i) n ↔ Boundary s (i + n) := by
    rw [Boundary, Boundary, List.getElem?_drop]
  constructor
  · intro hpart
    rcases Nat.eq_zero_or_pos n with hn | hn
    · exact .inl hn
    · -- the part is not empty, so its first byte begins a character
      have hi : Boundary s i := by
        intro c hc
        have hget : ((s.drop i).take n)[0]? = some c := by
          rw [List.getElem?_take_of_lt hn, List.getElem?_drop]
          exact hc
        cases hs : (s.drop i).take n with
        | nil =>
            rw [hs] at hget
            cases hget
        | cons b t =>
            rw [hs] at hget hpart
            obtain rfl := Option.some.inj hget
            exact hpart.head
      exact .inr ⟨hi, hshift.mp ((wellFormed_take_iff (h.drop hi) n).mp hpart)⟩
  · rintro (rfl | ⟨hi, hn⟩)
    · exact wellFormed_nil
    · exact (wellFormed_take_iff (h.drop hi) n).mpr (hshift.mpr hn)

/-! ## Rewriting -/

/-- **A rule that takes whole characters keeps a text well formed.** -/
theorem rewrite_wellFormed {r : Rule UInt8} (hlead : ∀ b s, Continues b → r.apply (b :: s) = none)
    (hmatch : ∀ s out rest, WellFormed s → r.apply s = some (out, rest) → WellFormed out ∧ WellFormed rest)
    {s : List UInt8} (h : WellFormed s) : WellFormed (rewrite r s) := by
  induction hlength : s.length using Nat.strongRecOn generalizing s with
  | ind n ih =>
      subst hlength
      rcases h.cases with rfl | ⟨cp, t, hcp, rfl, ht⟩
      · exact wellFormed_nil
      cases happly : r.apply (encodeScalar cp ++ t) with
      | some p =>
          obtain ⟨out, rest⟩ := p
          obtain ⟨hout, hrest⟩ := hmatch _ out rest h happly
          rw [rewrite_some happly]
          exact hout.append (ih rest.length (r.shrinks _ _ _ happly) hrest rfl)
      | none =>
          -- no match begins behind the lead byte, so the whole character is copied
          obtain ⟨b, tail, he, -, htail⟩ := encodeScalar_split hcp
          have hkeep : rewrite r (tail ++ t) = tail ++ rewrite r t := by
            apply rewrite_keep
            intro front hne hsuffix
            obtain ⟨c, front, rfl⟩ := List.exists_cons_of_ne_nil hne
            exact hlead c _ (htail c (hsuffix.subset List.mem_cons_self))
          have hshort : t.length < (encodeScalar cp ++ t).length := by
            rw [he, List.cons_append, List.length_cons, List.length_append]
            omega
          have hcopy : rewrite r (encodeScalar cp ++ t) = encodeScalar cp ++ rewrite r t := by
            rw [he, List.cons_append] at happly ⊢
            rw [rewrite_none happly, hkeep]
            rfl
          rw [hcopy]
          exact (ih t.length hshort ht rfl).cons hcp

/-- A run of characters that takes every byte from `0x80` on ends where a character begins. -/
theorem WellFormed.dropWhile {p : UInt8 → Bool} (hp : ∀ b, 0x80 ≤ b → p b = true) {s : List UInt8}
    (h : WellFormed s) : WellFormed (s.dropWhile p) := by
  refine h.scalar_induction (P := fun s => WellFormed (s.dropWhile p)) wellFormed_nil ?_
  intro cp s hcp hs ih
  obtain ⟨b, tail, he, hb, htail⟩ := encodeScalar_split hcp
  rw [he, List.cons_append, List.dropWhile_cons]
  split_ifs with hhead
  · have hall : ∀ c ∈ tail, p c = true := fun c hc => hp c (htail c hc).1
    rw [List.dropWhile_append_of_pos hall]
    exact ih
  · rw [← List.cons_append, ← he]
    exact hs.cons hcp

end Utf8
