import Mathlib.Data.List.Induction
import Mathlib.Data.List.Nodup

/-!
# `Lib.KeyGroups` — the rows of each key

A stream of rows in which equal keys stand together can be taken apart into groups, one for each key. `groups` says
what they are without regard to the order of the stream; `Contiguous.groups_concat` is the rule for one more row,
which a loop that knows only the group it is at can follow.
-/

namespace KeyGroups

variable {ρ κ : Type*}

/-! ## Streams -/

/-- A key that occurs again is the one that was there last. -/
def Contiguous (key : ρ → κ) (rows : List ρ) : Prop :=
  ∀ before row after, rows = before ++ row :: after → key row ∈ before.map key →
    before.getLast?.map key = some (key row)

variable {key : ρ → κ} {rows : List ρ} {row : ρ}

/-- In a stream in order, equal keys stand together. -/
theorem contiguous_of_sorted {le : κ → κ → Prop} (hanti : ∀ a b, le a b → le b a → a = b)
    (hsorted : rows.Pairwise fun a b => le (key a) (key b)) : Contiguous key rows := by
  rintro before row after rfl hmem
  obtain ⟨-, -, hle⟩ := List.pairwise_append.mp hsorted
  rcases List.eq_nil_or_concat before with rfl | ⟨init, last, rfl⟩
  · exact absurd hmem List.not_mem_nil
  · rw [List.concat_eq_append] at hsorted hmem hle ⊢
    rw [List.getLast?_concat]
    refine congrArg some ?_
    have hlast : le (key last) (key row) := hle last (by simp) row List.mem_cons_self
    obtain ⟨other, hother, hkey⟩ := List.mem_map.mp hmem
    rcases List.mem_append.mp hother with hinit | hself
    · -- the other row of this key is no later than the last one
      have hbefore : le (key other) (key last) :=
        (List.pairwise_append.mp (List.pairwise_append.mp hsorted).1).2.2 other hinit last List.mem_cons_self
      rw [hkey] at hbefore
      exact hanti _ _ hlast hbefore
    · rw [← List.mem_singleton.mp hself]
      exact hkey

/-- So they do in a part of it from the start. -/
theorem Contiguous.left {rest : List ρ} (h : Contiguous key (rows ++ rest)) : Contiguous key rows := by
  intro before r after hrows
  apply h before r (after ++ rest)
  rw [hrows, List.append_assoc, List.cons_append]

variable [DecidableEq κ]

/-! ## Distinct keys -/

/-- The distinct keys, in the order in which they first occur, each with its rows. -/
def groups (key : ρ → κ) (rows : List ρ) : List (κ × List ρ) :=
  (rows.map key).eraseDups.map fun k => (k, rows.filter fun row => key row = k)

theorem eraseDups_concat_mem {ks : List κ} {k : κ} (h : k ∈ ks) : (ks ++ [k]).eraseDups = ks.eraseDups := by
  have hnone : [k].removeAll ks = [] := by simp [List.removeAll, h]
  rw [List.eraseDups_append, hnone, List.eraseDups_nil, List.append_nil]

theorem eraseDups_concat_not_mem {ks : List κ} {k : κ} (h : k ∉ ks) :
    (ks ++ [k]).eraseDups = ks.eraseDups ++ [k] := by
  have hone : [k].removeAll ks = [k] := by simp [List.removeAll, h]
  rw [List.eraseDups_append, hone]
  rfl

theorem nodup_eraseDups (ks : List κ) : ks.eraseDups.Nodup := by
  induction ks using List.reverseRecOn with
  | nil => exact List.nodup_nil
  | append_singleton ks k ih =>
      by_cases h : k ∈ ks
      · rw [eraseDups_concat_mem h]
        exact ih
      · rw [eraseDups_concat_not_mem h, List.nodup_append]
        refine ⟨ih, List.nodup_singleton k, ?_⟩
        intro a ha b hb hab
        rw [hab, List.mem_singleton.mp hb] at ha
        exact h (List.mem_eraseDups.mp ha)

theorem groups_keys (key : ρ → κ) (rows : List ρ) : (groups key rows).map Prod.fst = (rows.map key).eraseDups := by
  unfold groups
  rw [List.map_map]
  exact List.map_id _

/-- A group has the rows of its key, and there is one. -/
theorem mem_groups {g : κ × List ρ} (h : g ∈ groups key rows) :
    g.2 = rows.filter (fun row => key row = g.1) ∧ g.2 ≠ [] := by
  obtain ⟨k, hk, rfl⟩ := List.mem_map.mp h
  refine ⟨rfl, ?_⟩
  obtain ⟨row, hrow, rfl⟩ := List.mem_map.mp (List.mem_eraseDups.mp hk)
  exact List.ne_nil_of_mem (List.mem_filter.mpr ⟨hrow, decide_eq_true rfl⟩)

/-! ## One more row -/

/-- The groups of one more row, of a new key. -/
theorem groups_concat_new (h : key row ∉ rows.map key) :
    groups key (rows ++ [row]) = groups key rows ++ [(key row, [row])] := by
  unfold groups
  rw [List.map_append, List.map_singleton, eraseDups_concat_not_mem h, List.map_append, List.map_singleton]
  refine congrArg₂ (· ++ ·) (List.map_congr_left fun k hk => ?_) ?_
  · have hother : ¬key row = k := by
      rintro rfl
      exact h (List.mem_eraseDups.mp hk)
    rw [List.filter_append, List.filter_cons_of_neg (by simpa using hother), List.filter_nil, List.append_nil]
  · have hnone : rows.filter (fun r => key r = key row) = [] := by
      rw [List.filter_eq_nil_iff]
      intro r hr hkey
      exact h (List.mem_map.mpr ⟨r, hr, of_decide_eq_true hkey⟩)
    have hself : [row].filter (fun r => key r = key row) = [row] := List.filter_cons_of_pos (decide_eq_true rfl)
    rw [List.filter_append, hnone, List.nil_append, hself]

/-- The groups of one more row, of the key of the last group. -/
theorem groups_concat_last {gs : List (κ × List ρ)} {rs : List ρ} (h : groups key rows = gs ++ [(key row, rs)]) :
    groups key (rows ++ [row]) = gs ++ [(key row, rs ++ [row])] := by
  have hkeys := groups_keys key rows
  have hnodup := nodup_eraseDups (rows.map key)
  rw [← hkeys, h, List.map_append, List.map_singleton] at hnodup
  have hmem : key row ∈ rows.map key := by
    rw [← List.mem_eraseDups, ← hkeys, h]
    simp
  have hadd (k : κ) : (rows ++ [row]).filter (fun r => key r = k) =
      rows.filter (fun r => key r = k) ++ if key row = k then [row] else [] := by
    rw [List.filter_append]
    by_cases hk : key row = k
    · have hself : [row].filter (fun r => key r = k) = [row] := List.filter_cons_of_pos (decide_eq_true hk)
      rw [if_pos hk, hself]
    · have hnone : [row].filter (fun r => key r = k) = [] := List.filter_cons_of_neg (by simpa using hk)
      rw [if_neg hk, hnone]
  have hmap : groups key (rows ++ [row]) =
      (groups key rows).map fun g => (g.1, g.2 ++ if key row = g.1 then [row] else []) := by
    unfold groups
    rw [List.map_append, List.map_singleton, eraseDups_concat_mem hmem, List.map_map]
    exact List.map_congr_left fun k _ => congrArg (k, ·) (hadd k)
  rw [hmap, h, List.map_append, List.map_singleton, if_pos rfl]
  refine congrArg (· ++ _) ((List.map_congr_left fun g hg => ?_).trans (List.map_id gs))
  have hother : ¬key row = g.1 := by
    intro hk
    exact (List.nodup_append.mp hnodup).2.2 g.1 (List.mem_map_of_mem hg) (key row) List.mem_cons_self hk.symm
  rw [if_neg hother, List.append_nil]
  rfl

/-- The last group of a stream is that of its last row. -/
theorem Contiguous.last_group (h : Contiguous key (rows ++ [row])) :
    ∃ gs rs, groups key (rows ++ [row]) = gs ++ [(key row, rs ++ [row])] := by
  induction rows using List.reverseRecOn generalizing row with
  | nil => exact ⟨[], [], groups_concat_new List.not_mem_nil⟩
  | append_singleton rows r ih =>
      by_cases hmem : key row ∈ (rows ++ [r]).map key
      · have hlast := h _ row [] rfl hmem
        rw [List.getLast?_concat] at hlast
        obtain ⟨gs, rs, hgroups⟩ := ih h.left
        rw [Option.some.inj hlast] at hgroups
        exact ⟨gs, rs ++ [r], groups_concat_last hgroups⟩
      · exact ⟨_, [], groups_concat_new hmem⟩

/-- **One more row** either begins a group, or goes into the last one. -/
theorem Contiguous.groups_concat (h : Contiguous key (rows ++ [row])) :
    (rows.getLast?.map key ≠ some (key row) ∧
      groups key (rows ++ [row]) = groups key rows ++ [(key row, [row])]) ∨
    (rows.getLast?.map key = some (key row) ∧ ∃ gs rs, groups key rows = gs ++ [(key row, rs)] ∧
      groups key (rows ++ [row]) = gs ++ [(key row, rs ++ [row])]) := by
  rcases List.eq_nil_or_concat rows with rfl | ⟨init, last, rfl⟩
  · exact .inl ⟨nofun, groups_concat_new List.not_mem_nil⟩
  · rw [List.concat_eq_append] at h ⊢
    by_cases hlast : key last = key row
    · obtain ⟨gs, rs, hgroups⟩ := h.left.last_group
      rw [hlast] at hgroups
      refine .inr ⟨?_, gs, _, hgroups, groups_concat_last hgroups⟩
      rw [List.getLast?_concat]
      exact congrArg some hlast
    · have hne : (init ++ [last]).getLast?.map key ≠ some (key row) := by
        rw [List.getLast?_concat]
        exact fun h => hlast (Option.some.inj h)
      exact .inl ⟨hne, groups_concat_new fun hmem => hne (h _ row [] rfl hmem)⟩

/-- **Nothing is lost or moved**: one behind the other, the groups are the stream. -/
theorem Contiguous.flatMap_groups (h : Contiguous key rows) : (groups key rows).flatMap Prod.snd = rows := by
  induction rows using List.reverseRecOn with
  | nil => rfl
  | append_singleton rows row ih =>
      have hrows := ih h.left
      rcases h.groups_concat with ⟨-, hgroups⟩ | ⟨-, gs, rs, hbefore, hgroups⟩
      · rw [hgroups, List.flatMap_append, hrows]
        simp
      · rw [hbefore, List.flatMap_append] at hrows
        rw [hgroups, List.flatMap_append, ← hrows]
        simp

end KeyGroups
