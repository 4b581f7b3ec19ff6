import FirebirdScan.Lib.Occurrences
import FirebirdScan.Lib.Utf8Cut
import FirebirdScan.Pool.ConnectionPool
import FirebirdScan.Scanner.NoneBlob

/-!
# `Pool.ConnectionError` — the error that the pool stores (`RecordConnectionError`)

`firebird_pool_stats` shows the text of the last failure to connect. `SanitizeConnectionError` puts `****` for the
password wherever it finds it, and cuts what it has then after 500 bytes. What it finds is the cut of the text at the
password's occurrences (`redact_cut`); so what is stored is always redacted and short. It is UTF-8 exactly when no cut
falls into a character (`recordConnectionError_iff`).
-/

namespace FirebirdScan

open Occurrences Utf8

/-! ## The loop on the message itself

`redact` reads the message once. The source changes it in place; that comes to the same. -/

/-- `find`, from the start of a text. -/
def findPassword (password : Bytes) : Bytes → Option Nat
  | [] => none
  | c :: message => if password.isPrefixOf (c :: message) then some 0 else (findPassword password message).map (· + 1)

/-- The `while` loop of `SanitizeConnectionError`, at `pos`. Every round takes an occurrence out of what is not
    searched yet, so its length is fuel enough. -/
def redactInPlace (password : Bytes) : Nat → Bytes → Nat → Bytes
  | 0, message, _ => message
  | fuel + 1, message, pos =>
      match findPassword password (message.drop pos) with
      | none => message
      | some i =>
          redactInPlace password fuel
            (message.take (pos + i) ++ utf8 "****" ++ message.drop (pos + i + password.length)) (pos + i + 4)

variable {password p s text : Bytes} {pieces : List Bytes}

theorem findPassword_free (h : Free password s []) : findPassword password s = none := by
  induction s with
  | nil => rfl
  | cons c s ih =>
      obtain ⟨hhead, htail⟩ := free_cons.mp h
      rw [List.append_nil] at hhead
      rw [findPassword, if_neg (mt List.isPrefixOf_iff_prefix.mp hhead), ih htail]
      rfl

theorem findPassword_first (hne : password ≠ []) (h : Free password p (password ++ s)) :
    findPassword password (p ++ (password ++ s)) = some p.length := by
  induction p with
  | nil =>
      obtain ⟨c, t, ht⟩ := List.exists_cons_of_ne_nil fun hnil => hne (List.append_eq_nil_iff.mp hnil).1
      have hprefix : password <+: c :: t := ht ▸ List.prefix_append password s
      rw [List.nil_append, ht, findPassword, if_pos (List.isPrefixOf_iff_prefix.mpr hprefix)]
      rfl
  | cons c p ih =>
      obtain ⟨hhead, htail⟩ := free_cons.mp h
      rw [List.cons_append, findPassword, if_neg (mt List.isPrefixOf_iff_prefix.mp hhead), ih htail]
      rfl

/-- The loop puts the mask for every occurrence. -/
theorem redactInPlace_cut (hne : password ≠ []) (h : Cut password s pieces) :
    ∀ (fuel : Nat) (front : Bytes), s.length ≤ fuel →
      redactInPlace password fuel (front ++ s) front.length = front ++ (utf8 "****").intercalate pieces := by
  induction h with
  | @last s hlast =>
      intro fuel front _
      rw [List.intercalate_singleton]
      cases fuel with
      | zero => rfl
      | succ fuel =>
          rw [redactInPlace, List.drop_left, findPassword_free (hlast.resolve_left hne)]
  | @next p s pieces _ hfree hcut ih =>
      intro fuel front hfuel
      have hpos := List.length_pos_iff.mpr hne
      rw [List.length_append, List.length_append] at hfuel
      obtain ⟨fuel, rfl⟩ := Nat.exists_eq_add_of_le' (show 1 ≤ fuel by omega)
      have htake : (front ++ (p ++ (password ++ s))).take (front.length + p.length) = front ++ p := by
        rw [← List.append_assoc, ← List.length_append, List.take_left]
      have hdrop : (front ++ (p ++ (password ++ s))).drop (front.length + p.length + password.length) = s := by
        rw [← List.append_assoc, ← List.append_assoc, ← List.length_append, ← List.length_append, List.drop_left]
      have hmask : (utf8 "****").length = 4 := by decide
      -- the next round begins behind the mask, which is not searched again
      have hnext := ih fuel (front ++ p ++ utf8 "****") (by omega)
      rw [List.length_append, List.length_append, hmask] at hnext
      rw [redactInPlace, List.drop_left, findPassword_first hne hfree]
      simp only [htake, hdrop]
      rw [hnext, List.intercalate_cons_of_ne_nil hcut.join.1]
      simp only [List.append_assoc]

theorem redact_skip (a s : Bytes) : redact password a.length (a ++ s) = redact password 0 s := by
  induction a with
  | nil => rfl
  | cons c a ih => exact ih

theorem redact_free (h : Free password p s) : redact password 0 (p ++ s) = p ++ redact password 0 s := by
  induction p with
  | nil => rfl
  | cons c p ih =>
      obtain ⟨hhead, htail⟩ := free_cons.mp h
      rw [List.cons_append, redact, if_neg (mt List.isPrefixOf_iff_prefix.mp hhead), ih htail]
      rfl

theorem redact_occurrence (hne : password ≠ []) (s : Bytes) :
    redact password 0 (password ++ s) = utf8 "****" ++ redact password 0 s := by
  obtain ⟨c, rest, rfl⟩ := List.exists_cons_of_ne_nil hne
  have hprefix : (c :: rest).isPrefixOf (c :: (rest ++ s)) = true :=
    List.isPrefixOf_iff_prefix.mpr (List.prefix_append (c :: rest) s)
  rw [List.cons_append, redact, if_pos hprefix]
  exact congrArg (utf8 "****" ++ ·) (redact_skip rest s)

/-- **The message with the mask for every occurrence.** -/
theorem redact_cut (hne : password ≠ []) (h : Cut password s pieces) :
    redact password 0 s = (utf8 "****").intercalate pieces := by
  induction h with
  | @last s hlast =>
      have hfree := redact_free (hlast.resolve_left hne)
      rw [List.append_nil] at hfree
      rw [hfree, List.intercalate_singleton, redact, List.append_nil]
  | @next p s pieces _ hfree hcut ih =>
      rw [redact_free hfree, redact_occurrence hne, ih, List.intercalate_cons_of_ne_nil hcut.join.1, List.append_assoc]

/-- **The one reading and the changes in place come to the same.** -/
theorem redactInPlace_eq (hne : password ≠ []) (message : Bytes) :
    redactInPlace password message.length message 0 = redact password 0 message := by
  obtain ⟨pieces, hcut⟩ := Cut.exists password message
  rw [redact_cut hne hcut]
  exact redactInPlace_cut hne hcut message.length [] le_rfl

/-- What `SanitizeConnectionError` returns: the pieces of the message, the mask between them, up to 500 bytes. -/
theorem sanitizeConnectionError_cut (h : Cut password s pieces) :
    sanitizeConnectionError s password = ((utf8 "****").intercalate pieces).take 500 := by
  unfold sanitizeConnectionError
  split_ifs with hempty
  · subst hempty
    have hpieces := h.functional (.last (.inl rfl))
    rw [hpieces, List.intercalate_singleton]
  · rw [redact_cut hempty h]

/-! ## The cuts -/

/-- The cuts of a text that show, all at boundaries of characters. The pieces are those from `pos` on, with `skip`
    bytes of the text between them; `room` bytes can still be shown. -/
def CutsBetween (text : Bytes) (skip : Nat) : Nat → Nat → List Bytes → Prop
  | _, _, [] => True
  | pos, room, p :: pieces =>
      (min p.length room = 0 ∨ Boundary text pos ∧ Boundary text (pos + min p.length room)) ∧
        CutsBetween text skip (pos + p.length + skip) (room - (p.length + 4)) pieces

instance decidableCutsBetween (text : Bytes) (skip : Nat) : ∀ (pos room : Nat) (pieces : List Bytes),
    Decidable (CutsBetween text skip pos room pieces)
  | _, _, [] => .isTrue trivial
  | pos, room, p :: pieces =>
      have := decidableCutsBetween text skip (pos + p.length + skip) (room - (p.length + 4)) pieces
      inferInstanceAs (Decidable (_ ∧ _))

/-- What is shown of a piece, and of what follows the mask behind it. -/
theorem wellFormed_take_mask (p rest : Bytes) (room : Nat) :
    WellFormed ((p ++ (utf8 "****" ++ rest)).take room) ↔
      WellFormed (p.take room) ∧ WellFormed (rest.take (room - (p.length + 4))) := by
  have hascii : ∀ c ∈ (utf8 "****").take (room - p.length), c < 0x80 := by
    intro c hc
    have hmask : ∀ c ∈ utf8 "****", c < 0x80 := by decide +kernel
    exact hmask c (List.mem_of_mem_take hc)
  have hroom : room - p.length - (utf8 "****").length = room - (p.length + 4) := Nat.sub_sub _ _ _
  rw [List.take_append, List.take_append, hroom]
  by_cases hfit : room ≤ p.length
  · rw [Nat.sub_eq_zero_of_le hfit, Nat.sub_eq_zero_of_le (by omega), List.take_zero, List.take_zero, List.append_nil,
      List.append_nil]
    exact (and_iff_left wellFormed_nil).symm
  · rw [not_le] at hfit
    have hne : (utf8 "****").take (room - p.length) ≠ [] := by
      intro hnil
      have hlen := congrArg List.length hnil
      have hmask : (utf8 "****").length = 4 := by decide
      rw [List.length_take, hmask, List.length_nil] at hlen
      omega
    exact wellFormed_asciis_iff hne hascii

/-- **What is shown is UTF-8 exactly when the cuts are at boundaries.** -/
theorem wellFormed_shown_iff (htext : WellFormed text) (h : Cut password s pieces) :
    ∀ (front : Bytes) (room : Nat), text = front ++ s →
      (WellFormed (((utf8 "****").intercalate pieces).take room) ↔
        CutsBetween text password.length front.length room pieces) := by
  have hpiece : ∀ (front p rest : Bytes) (room : Nat), text = front ++ (p ++ rest) →
      (WellFormed (p.take room) ↔
        min p.length room = 0 ∨ Boundary text front.length ∧ Boundary text (front.length + min p.length room)) := by
    intro front p rest room heq
    have hfit : front.length + min p.length room ≤ text.length := by
      rw [heq, List.length_append, List.length_append]
      omega
    have hshown : (text.drop front.length).take (min p.length room) = p.take room := by
      rw [heq, List.drop_left, List.take_append_of_le_length (Nat.min_le_left _ _), Nat.min_comm,
        ← List.take_eq_take_min]
    rw [← hshown]
    exact wellFormed_part_iff htext _ _ hfit
  induction h with
  | @last s hlast =>
      intro front room heq
      rw [List.intercalate_singleton, hpiece front s [] room (by rw [List.append_nil]; exact heq)]
      exact (and_iff_left trivial).symm
  | @next p s pieces _ _ hcut ih =>
      intro front room heq
      have hnext := ih (front ++ (p ++ password)) (room - (p.length + 4))
        (by rw [heq, List.append_assoc, List.append_assoc])
      rw [List.length_append, List.length_append, ← Nat.add_assoc] at hnext
      rw [List.intercalate_cons_of_ne_nil hcut.join.1, List.append_assoc, wellFormed_take_mask,
        hpiece front p (password ++ s) room heq, hnext]
      rfl

/-! ## What is stored -/

/-- What the pool is to store of an error whose text is cut into `pieces`. -/
structure StoredError (pieces : List Bytes) (stored : Bytes) : Prop where
  capped : stored.length ≤ 500
  displayable : WellFormed stored
  redacted : stored = ((utf8 "****").intercalate pieces).take 500

/-- **The stored error** is always redacted and capped. It can be displayed exactly when no cut that shows, at an
    occurrence of the password or behind the 500th byte, falls into a character. -/
theorem recordConnectionError_iff (htext : WellFormed text) (password : Bytes) (pool : FirebirdConnectionPool) :
    ∃ pieces, Cut password text pieces ∧
      (pool.recordConnectionError password text).lastError.length ≤ 500 ∧
      (pool.recordConnectionError password text).lastError = ((utf8 "****").intercalate pieces).take 500 ∧
      (StoredError pieces (pool.recordConnectionError password text).lastError ↔
        CutsBetween text password.length 0 500 pieces) := by
  obtain ⟨pieces, hcut⟩ := Cut.exists password text
  have hstored : (pool.recordConnectionError password text).lastError =
      ((utf8 "****").intercalate pieces).take 500 := sanitizeConnectionError_cut hcut
  have hcapped : (((utf8 "****").intercalate pieces).take 500).length ≤ 500 := by
    rw [List.length_take]
    exact Nat.min_le_left _ _
  have hshown := wellFormed_shown_iff htext hcut [] 500 rfl
  rw [hstored]
  refine ⟨pieces, hcut, hcapped, rfl, ?_⟩
  constructor
  · intro h
    exact hshown.mp h.displayable
  · intro h
    exact ⟨hcapped, hshown.mpr h, rfl⟩

/-- A password in front of a host with an `ã`. -/
theorem recordConnectionError_tiger :
    ∃ pieces, Cut (utf8 "tiger") (utf8 "bob:tiger@são: connection refused") pieces ∧
      (({} : FirebirdConnectionPool).recordConnectionError (utf8 "tiger")
        (utf8 "bob:tiger@são: connection refused")).lastError.length ≤ 500 ∧
      (({} : FirebirdConnectionPool).recordConnectionError (utf8 "tiger")
        (utf8 "bob:tiger@são: connection refused")).lastError = ((utf8 "****").intercalate pieces).take 500 ∧
      (StoredError pieces (({} : FirebirdConnectionPool).recordConnectionError (utf8 "tiger")
        (utf8 "bob:tiger@são: connection refused")).lastError ↔
        CutsBetween (utf8 "bob:tiger@são: connection refused") (utf8 "tiger").length 0 500 pieces) :=
  recordConnectionError_iff ((isValidUtf8_iff _).mp (by decide +kernel)) _ _

/-- 499 bytes and an `é`: the cut falls into it. -/
theorem recordConnectionError_cut : ¬ ∀ (password text : Bytes) (pool : FirebirdConnectionPool) (pieces : List Bytes),
    WellFormed text → Cut password text pieces →
      StoredError pieces (pool.recordConnectionError password text).lastError := by
  intro h
  obtain ⟨pieces, hcut⟩ := Cut.exists (utf8 "tiger") (List.replicate 499 0x78 ++ utf8 "é")
  have htext : WellFormed (List.replicate 499 0x78 ++ utf8 "é") := (isValidUtf8_iff _).mp (by decide +kernel)
  have hstored := (h _ _ {} pieces htext hcut).displayable
  have hinvalid : isValidUtf8 (({} : FirebirdConnectionPool).recordConnectionError (utf8 "tiger")
      (List.replicate 499 0x78 ++ utf8 "é")).lastError = false := by
    decide +kernel
  rw [(isValidUtf8_iff _).mpr hstored] at hinvalid
  cases hinvalid

end FirebirdScan
