import FirebirdScan.Lib.Utf8

/-!
# `Lib.Utf8Escape` — showing bytes that are not UTF-8

A byte string is read from the left. Where the encoding of a scalar value that is to be kept begins, it is copied;
any other byte is replaced by an escape of its own. `Escaped keep esc s out` says that `out` is what becomes of `s`.

The relation is a total function (`Escaped.exists`, `Escaped.functional`). With escapes that are UTF-8 themselves
its results are UTF-8 (`Escaped.wellFormed`), and where everything is kept it leaves UTF-8 as it is
(`WellFormed.escaped`), so that to escape twice is to escape once.
-/

namespace Utf8

/-! ## Well-formed byte strings -/

theorem wellFormed_nil : WellFormed [] := ⟨[], nofun, rfl⟩

theorem WellFormed.cons {cp : Nat} {s : List UInt8} (hcp : IsScalar cp) (h : WellFormed s) :
    WellFormed (encodeScalar cp ++ s) := by
  obtain ⟨cps, hcps, rfl⟩ := h
  exact ⟨cp :: cps, List.forall_mem_cons.mpr ⟨hcp, hcps⟩, rfl⟩

/-- What is well formed is empty, or begins with the encoding of a scalar value and goes on well formed. -/
@[elab_as_elim]
theorem WellFormed.scalar_induction {P : List UInt8 → Prop} {s : List UInt8} (h : WellFormed s) (nil : P [])
    (cons : ∀ cp s, IsScalar cp → WellFormed s → P s → P (encodeScalar cp ++ s)) : P s := by
  obtain ⟨cps, hcps, rfl⟩ := h
  induction cps with
  | nil => exact nil
  | cons cp cps ih =>
      obtain ⟨hcp, hcps⟩ := List.forall_mem_cons.mp hcps
      exact cons cp (encode cps) hcp (wellFormed_encode hcps) (ih hcps)

theorem WellFormed.append {s t : List UInt8} (hs : WellFormed s) (ht : WellFormed t) : WellFormed (s ++ t) := by
  refine hs.scalar_induction (P := fun s => WellFormed (s ++ t)) ht ?_
  intro cp s hcp _ ih
  rw [List.append_assoc]
  exact ih.cons hcp

/-- A well-formed prefix can be taken away. -/
theorem WellFormed.of_append {s t : List UInt8} (hs : WellFormed s) (h : WellFormed (s ++ t)) : WellFormed t := by
  revert h
  refine hs.scalar_induction (P := fun s => WellFormed (s ++ t) → WellFormed t) (fun h => h) ?_
  intro cp s hcp _ ih h
  rw [List.append_assoc] at h
  obtain ⟨cps, hcps, heq⟩ := h
  cases cps with
  | nil =>
      rw [encode_nil] at heq
      exact absurd (List.append_eq_nil_iff.mp heq.symm).1 (encodeScalar_ne_nil cp)
  | cons cp' cps =>
      obtain ⟨hcp', hcps⟩ := List.forall_mem_cons.mp hcps
      obtain ⟨-, hrest⟩ := encodeScalar_append_inj hcp' hcp heq
      exact ih (hrest ▸ wellFormed_encode hcps)

/-- A byte below `0x80` is the encoding of its own number. -/
theorem encodeScalar_ascii {b : UInt8} (h : b < 0x80) : encodeScalar b.toNat = [b] := by
  have hlt : b.toNat < 0x80 := UInt8.lt_iff_toNat_lt.mp h
  rw [encodeScalar, if_pos hlt, UInt8.ofNat_toNat]

theorem isScalar_ascii {b : UInt8} (h : b < 0x80) : IsScalar b.toNat := by
  have hlt : b.toNat < 0x80 := UInt8.lt_iff_toNat_lt.mp h
  exact ⟨by omega, by omega⟩

theorem WellFormed.cons_ascii {b : UInt8} {s : List UInt8} (hb : b < 0x80) (h : WellFormed s) :
    WellFormed (b :: s) := by
  have hcons := h.cons (isScalar_ascii hb)
  rw [encodeScalar_ascii hb] at hcons
  exact hcons

theorem wellFormed_ascii {s : List UInt8} (h : ∀ b ∈ s, b < 0x80) : WellFormed s := by
  induction s with
  | nil => exact wellFormed_nil
  | cons b s ih =>
      obtain ⟨hb, hs⟩ := List.forall_mem_cons.mp h
      exact (ih hs).cons_ascii hb

/-- A byte below `0x80` in an encoding is the whole of it. -/
theorem mem_encodeScalar_ascii {b : UInt8} {cp : Nat} (hcp : IsScalar cp) (hb : b < 0x80)
    (h : b ∈ encodeScalar cp) : cp = b.toNat := by
  have hlt : b.toNat < 0x80 := UInt8.lt_iff_toNat_lt.mp hb
  obtain ⟨hmax, -⟩ := hcp
  have hbyte : ∀ n, n < 256 → b = UInt8.ofNat n → n = b.toNat := by
    intro n hn heq
    rw [heq, toNat_ofNat hn]
  rcases encodeScalar_cases cp with ⟨h1, e⟩ | ⟨h1, h2, e⟩ | ⟨h1, h2, e⟩ | ⟨h1, e⟩ <;>
    rw [e] at h <;> simp only [List.mem_cons, List.not_mem_nil, or_false] at h
  · exact hbyte cp (by omega) h
  -- the bytes of a longer encoding are at least `0x80`
  · rcases h with h | h <;> have := hbyte _ (by omega) h <;> omega
  · rcases h with h | h | h <;> have := hbyte _ (by omega) h <;> omega
  · rcases h with h | h | h | h <;> have := hbyte _ (by omega) h <;> omega

/-! ## The escape -/

/-- No encoding of a scalar value that is kept begins the byte string. -/
def Stray (keep : Nat → Prop) (s : List UInt8) : Prop :=
  ∀ cp rest, IsScalar cp → keep cp → s ≠ encodeScalar cp ++ rest

/-- `out` is `s` with every byte escaped that is in no encoding of a kept scalar value, as found from the left. -/
inductive Escaped (keep : Nat → Prop) (esc : UInt8 → List UInt8) : List UInt8 → List UInt8 → Prop
  | nil : Escaped keep esc [] []
  | scalar {cp : Nat} {s out : List UInt8} : IsScalar cp → keep cp → Escaped keep esc s out →
      Escaped keep esc (encodeScalar cp ++ s) (encodeScalar cp ++ out)
  | stray {b : UInt8} {s out : List UInt8} : Stray keep (b :: s) → Escaped keep esc s out →
      Escaped keep esc (b :: s) (esc b ++ out)

variable {keep : Nat → Prop} {esc : UInt8 → List UInt8} {s out out' : List UInt8}

/-- **The escape of a byte string is determined.** -/
theorem Escaped.functional (h : Escaped keep esc s out) (h' : Escaped keep esc s out') : out = out' := by
  induction h generalizing out' with
  | nil =>
      generalize hs : ([] : List UInt8) = s at h'
      cases h' with
      | nil => rfl
      | scalar hcp _ _ => exact absurd (List.append_eq_nil_iff.mp hs.symm).1 (encodeScalar_ne_nil _)
      | stray _ _ => cases hs
  | @scalar cp s out hcp hkeep _ ih =>
      generalize hs : encodeScalar cp ++ s = t at h'
      cases h' with
      | nil => exact absurd (List.append_eq_nil_iff.mp hs).1 (encodeScalar_ne_nil _)
      | scalar hcp' _ h' =>
          -- an encoding is not the beginning of another one
          obtain ⟨rfl, rfl⟩ := encodeScalar_append_inj hcp hcp' hs
          rw [ih h']
      | stray hstray _ => exact absurd hs.symm (hstray cp s hcp hkeep)
  | @stray b s out hstray _ ih =>
      generalize hs : b :: s = t at h'
      cases h' with
      | nil => cases hs
      | scalar hcp' hkeep' _ => exact absurd hs (hstray _ _ hcp' hkeep')
      | stray _ h' =>
          obtain ⟨rfl, rfl⟩ := List.cons.inj hs
          rw [ih h']

/-- Every byte string has an escape. -/
theorem Escaped.exists (keep : Nat → Prop) (esc : UInt8 → List UInt8) (s : List UInt8) :
    ∃ out, Escaped keep esc s out := by
  induction hn : s.length using Nat.strong_induction_on generalizing s with
  | h n ih =>
      subst hn
      cases s with
      | nil => exact ⟨[], .nil⟩
      | cons b s =>
          by_cases hstray : Stray keep (b :: s)
          · obtain ⟨out, h⟩ := ih s.length (by simp) s rfl
            exact ⟨esc b ++ out, .stray hstray h⟩
          · unfold Stray at hstray
            push Not at hstray
            obtain ⟨cp, rest, hcp, hkeep, heq⟩ := hstray
            have hlen : rest.length < (b :: s).length := by
              rw [heq, List.length_append]
              have := List.length_pos_iff.mpr (encodeScalar_ne_nil cp)
              omega
            obtain ⟨out, h⟩ := ih rest.length hlen rest rfl
            exact ⟨encodeScalar cp ++ out, heq ▸ .scalar hcp hkeep h⟩

/-- With escapes that are UTF-8, the result is. -/
theorem Escaped.wellFormed (hesc : ∀ b, WellFormed (esc b)) (h : Escaped keep esc s out) : WellFormed out := by
  induction h with
  | nil => exact wellFormed_nil
  | scalar hcp _ _ ih => exact ih.cons hcp
  | stray _ _ ih => exact (hesc _).append ih

/-- **Where everything is kept, UTF-8 is left as it is.** -/
theorem WellFormed.escaped (hkeep : ∀ cp, IsScalar cp → keep cp) (h : WellFormed s) : Escaped keep esc s s := by
  refine h.scalar_induction (P := fun s => Escaped keep esc s s) .nil ?_
  intro cp s hcp _ ih
  exact .scalar hcp (hkeep cp hcp) ih

/-- A kept byte below `0x80` stays. -/
theorem Escaped.mem_ascii {b : UInt8} (hb : b < 0x80) (hkeep : keep b.toNat) (h : Escaped keep esc s out)
    (hmem : b ∈ s) : b ∈ out := by
  induction h with
  | nil => cases hmem
  | scalar _ _ _ ih =>
      rcases List.mem_append.mp hmem with hin | hin
      · exact List.mem_append_left _ hin
      · exact List.mem_append_right _ (ih hin)
  | @stray c s out hstray _ ih =>
      rcases List.mem_cons.mp hmem with rfl | hin
      · have heq : b :: s ≠ encodeScalar b.toNat ++ s := hstray _ _ (isScalar_ascii hb) hkeep
        rw [encodeScalar_ascii hb] at heq
        exact absurd rfl heq
      · exact List.mem_append_right _ (ih hin)

/-- A byte below `0x80` that is not kept is gone, unless an escape brings it. -/
theorem Escaped.not_mem_ascii {b : UInt8} (hb : b < 0x80) (hkeep : ¬ keep b.toNat) (hesc : ∀ c, b ∉ esc c)
    (h : Escaped keep esc s out) : b ∉ out := by
  induction h with
  | nil => exact List.not_mem_nil
  | scalar hcp hkept _ ih =>
      intro hmem
      rcases List.mem_append.mp hmem with hin | hin
      · exact hkeep (mem_encodeScalar_ascii hcp hb hin ▸ hkept)
      · exact ih hin
  | stray _ _ ih =>
      intro hmem
      rcases List.mem_append.mp hmem with hin | hin
      · exact hesc _ hin
      · exact ih hin

/-- To keep everything but one byte below `0x80` is to keep everything, in a text without that byte. -/
theorem Escaped.of_not_mem {b : UInt8} (h : Escaped (fun _ => True) esc s out) (hmem : b ∉ s)
    (hb : b < 0x80) : Escaped (· ≠ b.toNat) esc s out := by
  induction h with
  | nil => exact .nil
  | @scalar cp s out hcp _ _ ih =>
      rw [List.mem_append, not_or] at hmem
      have hkeep : cp ≠ b.toNat := by
        rintro rfl
        rw [encodeScalar_ascii hb] at hmem
        exact hmem.1 List.mem_cons_self
      exact .scalar hcp hkeep (ih hmem.2)
  | stray hstray _ ih =>
      rw [List.mem_cons, not_or] at hmem
      refine .stray ?_ (ih hmem.2)
      intro cp rest hcp _
      exact hstray cp rest hcp trivial

end Utf8
