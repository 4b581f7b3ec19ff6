import FirebirdScan.Lib.KeyGroups
import FirebirdScan.Storage.CatalogRows

/-!
# `Storage.RowGroups` — the pointer to the current group

The grouping loops keep a raw pointer into the container that they fill, and open a new group when the key of a row
is not that of the row before. Here the pointer is a place in the container, and following a null pointer has no
result. On streams in order of their keys the loops follow it to the group of the row (`schemaLoop_points`,
`groupRow_points`), and what they return are the groups of the stream (`loops_group_rows`).
-/

namespace FirebirdScan

open KeyGroups

/-- The stream is in some order of its keys. -/
def InOrder {ρ κ : Type} (key : ρ → κ) (rows : List ρ) : Prop :=
  ∃ le : κ → κ → Prop, (∀ a b, le a b → le b a → a = b) ∧ rows.Pairwise fun a b => le (key a) (key b)

theorem InOrder.contiguous {ρ κ : Type} {key : ρ → κ} {rows : List ρ} (h : InOrder key rows) :
    Contiguous key rows := by
  obtain ⟨le, hanti, hsorted⟩ := h
  exact contiguous_of_sorted hanti hsorted

/-! ## Constraints -/

/-- The variables of `LoadUniqueConstraints` and `LoadForeignKeys`. `active` is the relation of an entry and its place
    in the relation's vector. -/
structure PointedGrouping (α : Type) where
  out : ByRelation α := []
  active : Option (Bytes × Nat) := none
  curRel : Bytes := []
  curCon : Bytes := []

section Pointed

variable {ρ α : Type} (testsActive : Bool) (key : ρ → Bytes × Bytes) (fresh : ρ → α) (add : ρ → α → α)

/-- The test in front of a new entry. Only `LoadForeignKeys` tests the pointer. -/
def opensEntry (p : PointedGrouping α) (row : ρ) : Bool :=
  (testsActive && p.active.isNone) || decide ((key row).1 ≠ p.curRel) || decide ((key row).2 ≠ p.curCon)

/-- One row of the loops. A null pointer has nothing to append to. -/
def pointedRow (p : PointedGrouping α) (row : ρ) : Option (PointedGrouping α) :=
  let p :=
    if opensEntry testsActive key p row then
      let out := p.out.change (fun xs => xs ++ [fresh row]) (key row).1
      { out, active := some ((key row).1, (out.get (key row).1).length - 1)
        curRel := (key row).1, curCon := (key row).2 }
    else p
  p.active.map fun place => { p with out := p.out.change (fun xs => xs.modify place.2 (add row)) place.1 }

variable {testsActive key fresh add}

/-- The change of an entry depends on what the entry is. -/
theorem ByRelation.change_congr {f f' : List α → List α} {relation : Bytes} (out : ByRelation α)
    (h : f (out.get relation) = f' (out.get relation)) : out.change f relation = out.change f' relation := by
  induction out with
  | nil => exact congrArg (fun xs => [(relation, xs)]) h
  | cons entry out ih =>
      obtain ⟨r, xs⟩ := entry
      rw [ByRelation.get_cons] at h
      unfold change
      by_cases hr : r = relation
      · rw [if_pos hr.symm] at h
        rw [if_pos hr, if_pos hr, h]
      · rw [if_neg (Ne.symm hr)] at h
        rw [if_neg hr, if_neg hr, ih h]

theorem modify_last_eq (f : α → α) (xs : List α) : xs.modify (xs.length - 1) f = xs.modifyLast f := by
  induction xs using List.reverseRecOn with
  | nil => rfl
  | append_singleton init last _ =>
      rw [List.modifyLast_concat, List.length_append, List.length_singleton, Nat.add_sub_cancel,
        List.modify_eq_take_cons_drop (by simp)]
      simp

/-- The pointer is to the last entry of the relation of the row before. -/
structure PointsToLast (p : PointedGrouping α) (row : ρ) (key : ρ → Bytes × Bytes) : Prop where
  active : p.active = some ((key row).1, (p.out.get (key row).1).length - 1)
  curRel : p.curRel = (key row).1
  curCon : p.curCon = (key row).2

variable (testsActive key) in
/-- The loop with the pointer has made what the loop with the last entry has made, and will open an entry for the
    same rows; where it does not, the pointer is to the last entry. -/
structure Follows (p : PointedGrouping α) (g : Grouping α) : Prop where
  out : p.out = g.out
  next : ∀ row, (key row).1 ≠ [] →
    (opensEntry testsActive key p row = true ∧ g.current ≠ some (key row)) ∨
    (opensEntry testsActive key p row = false ∧ g.current = some (key row) ∧ PointsToLast p row key)

/-- A pointer to the last entry is there for the next row. -/
theorem PointsToLast.follows {p : PointedGrouping α} {row : ρ} (h : PointsToLast p row key) {g : Grouping α}
    (hout : p.out = g.out) (hcurrent : g.current = some (key row)) : Follows testsActive key p g := by
  refine ⟨hout, fun next _ => ?_⟩
  unfold opensEntry
  rw [h.active, h.curRel, h.curCon, hcurrent, Option.isNone_some, Bool.and_false, Bool.false_or]
  by_cases hsame : key next = key row
  · refine .inr ⟨?_, congrArg some hsame.symm, ?_⟩
    · rw [hsame]
      simp
    · exact ⟨by rw [hsame]; exact h.active, by rw [hsame]; exact h.curRel, by rw [hsame]; exact h.curCon⟩
  · refine .inl ⟨?_, fun h => hsame (Option.some.inj h).symm⟩
    rw [Bool.or_eq_true, decide_eq_true_eq, decide_eq_true_eq]
    by_contra hnot
    obtain ⟨hrel, hcon⟩ := not_or.mp hnot
    exact hsame (Prod.ext (not_not.mp hrel) (not_not.mp hcon))

variable (fresh add) in
/-- **One row**: the pointer is not null, and it is to the last entry of the row's relation. -/
theorem pointedRow_follows {p : PointedGrouping α} {g : Grouping α} (h : Follows testsActive key p g) {row : ρ}
    (hnamed : (key row).1 ≠ []) :
    ∃ p', pointedRow testsActive key fresh add p row = some p' ∧ PointsToLast p' row key ∧
      Follows testsActive key p' (groupRow key fresh add g row) := by
  -- with the pointer at the last entry, the row is added to that
  have happend {q : PointedGrouping α} (hq : PointsToLast q row key) {out : ByRelation α} (hout : q.out = out) :
      ∃ p', (q.active.map fun place =>
          { q with out := q.out.change (fun xs => xs.modify place.2 (add row)) place.1 }) = some p' ∧
        PointsToLast p' row key ∧ p'.out = out.change (List.modifyLast (add row)) (key row).1 := by
    subst hout
    have hchange : q.out.change (fun xs => xs.modify ((q.out.get (key row).1).length - 1) (add row)) (key row).1 =
        q.out.change (List.modifyLast (add row)) (key row).1 :=
      ByRelation.change_congr q.out (modify_last_eq (add row) _)
    have hlength : (((q.out.change (List.modifyLast (add row)) (key row).1).get (key row).1)).length =
        (q.out.get (key row).1).length := by
      rw [ByRelation.get_change, if_pos rfl, ← modify_last_eq, List.length_modify]
    rw [hq.active, Option.map_some, hchange]
    exact ⟨_, rfl, ⟨congrArg (fun n => some ((key row).1, n - 1)) hlength.symm, hq.curRel, hq.curCon⟩, rfl⟩
  obtain ⟨hout, hnext⟩ := h
  unfold pointedRow groupRow
  rcases hnext row hnamed with ⟨hopens, hcurrent⟩ | ⟨hopens, hcurrent, hlast⟩
  · rw [if_pos hopens, if_neg hcurrent, hout]
    obtain ⟨p', hp', hpoints, hout'⟩ := @happend
      { out := g.out.change (fun xs => xs ++ [fresh row]) (key row).1
        active := some ((key row).1, ((g.out.change (fun xs => xs ++ [fresh row]) (key row).1).get (key row).1).length - 1)
        curRel := (key row).1, curCon := (key row).2 } ⟨rfl, rfl, rfl⟩ _ rfl
    exact ⟨p', hp', hpoints, hpoints.follows hout' rfl⟩
  · rw [if_neg (by rw [hopens]; exact Bool.false_ne_true), if_pos hcurrent]
    obtain ⟨p', hp', hpoints, hout'⟩ := happend hlast hout
    exact ⟨p', hp', hpoints, hpoints.follows hout' rfl⟩

variable (fresh add) in
/-- Any number of rows. -/
theorem foldlM_pointedRow {p : PointedGrouping α} {g : Grouping α} (h : Follows testsActive key p g) {rows : List ρ}
    (hnamed : ∀ row ∈ rows, (key row).1 ≠ []) :
    ∃ p', rows.foldlM (pointedRow testsActive key fresh add) p = some p' ∧
      Follows testsActive key p' (rows.foldl (groupRow key fresh add) g) := by
  induction rows generalizing p g with
  | nil => exact ⟨p, rfl, h⟩
  | cons row rows ih =>
      obtain ⟨hrow, hnamed⟩ := List.forall_mem_cons.mp hnamed
      obtain ⟨q, hq, -, hfollows⟩ := pointedRow_follows fresh add h hrow
      obtain ⟨p', hp', hrest⟩ := ih hfollows hnamed
      refine ⟨p', ?_, hrest⟩
      rw [List.foldlM_cons, hq]
      exact hp'

/-! ### The groups -/

/-- What the entry of a group is: the first row makes it, and each row is added. -/
structure EntryOf (key : ρ → Bytes × Bytes) (fresh : ρ → α) (add : ρ → α → α)
    (entry : (Bytes × Bytes) × List ρ → α) : Prop where
  first : ∀ row, entry (key row, [row]) = add row (fresh row)
  next : ∀ k rows row, rows ≠ [] → entry (k, rows ++ [row]) = add row (entry (k, rows))

/-- The entries of a relation: one for each group of the stream that is of the relation. -/
def entriesOf (key : ρ → Bytes × Bytes) (entry : (Bytes × Bytes) × List ρ → α) (rows : List ρ) (relation : Bytes) :
    List α :=
  ((groups key rows).filter fun group => group.1.1 = relation).map entry

/-- The groups of a relation, when a group is added behind the others. -/
theorem entriesOf_concat {entry : (Bytes × Bytes) × List ρ → α} {rows : List ρ} {gs : List ((Bytes × Bytes) × List ρ)}
    {group : (Bytes × Bytes) × List ρ} (h : groups key rows = gs ++ [group]) (relation : Bytes) :
    entriesOf key entry rows relation =
      (gs.filter fun group => group.1.1 = relation).map entry ++
        if relation = group.1.1 then [entry group] else [] := by
  unfold entriesOf
  rw [h, List.filter_append, List.map_append]
  by_cases hrel : relation = group.1.1
  · have hself : [group].filter (fun group => group.1.1 = relation) = [group] :=
      List.filter_cons_of_pos (decide_eq_true hrel.symm)
    rw [if_pos hrel, hself, List.map_singleton]
  · have hnone : [group].filter (fun group => group.1.1 = relation) = [] :=
      List.filter_cons_of_neg (by simpa using Ne.symm hrel)
    rw [if_neg hrel, hnone, List.map_nil]

/-- A row of another constraint: one more entry. -/
theorem groupRow_new {g : Grouping α} {row : ρ} (h : g.current ≠ some (key row)) (r : Bytes) :
    (groupRow key fresh add g row).out.get r =
      if r = (key row).1 then g.out.get (key row).1 ++ [add row (fresh row)] else g.out.get r := by
  unfold groupRow
  rw [if_neg h, ByRelation.get_change, ByRelation.get_change, ByRelation.get_change, if_pos rfl,
    List.modifyLast_concat]
  by_cases hr : r = (key row).1
  · rw [if_pos hr, if_pos hr]
  · rw [if_neg hr, if_neg hr, if_neg hr]

/-- A row of the same constraint: the last entry changes. -/
theorem groupRow_same {g : Grouping α} {row : ρ} (h : g.current = some (key row)) (r : Bytes) :
    (groupRow key fresh add g row).out.get r =
      if r = (key row).1 then (g.out.get (key row).1).modifyLast (add row) else g.out.get r := by
  unfold groupRow
  rw [if_pos h, ByRelation.get_change]

/-- The key that the loop is at is that of the last row. -/
theorem foldl_groupRow_current (rows : List ρ) (current : Option (Bytes × Bytes)) :
    (rows.foldl (groupRow key fresh add) { current }).current = (rows.getLast?.map key).or current := by
  rcases List.eq_nil_or_concat rows with rfl | ⟨rows, row, rfl⟩
  · rfl
  · rw [List.concat_eq_append, List.foldl_append, List.getLast?_concat]
    rfl

/-- **The loop returns the groups of the stream**, for each relation its own. -/
theorem foldl_groupRow_groups {entry : (Bytes × Bytes) × List ρ → α} (hentry : EntryOf key fresh add entry)
    {rows : List ρ} (hrows : Contiguous key rows) {current : Option (Bytes × Bytes)}
    (hcurrent : ∀ row ∈ rows, current ≠ some (key row)) (r : Bytes) :
    (rows.foldl (groupRow key fresh add) { current }).out.get r = entriesOf key entry rows r := by
  induction rows using List.reverseRecOn generalizing r with
  | nil => rfl
  | append_singleton rows row ih =>
      obtain ⟨hbefore, hself⟩ := List.forall_mem_append.mp hcurrent
      have hget := ih hrows.left hbefore
      have hcur : (rows.foldl (groupRow key fresh add) { current }).current = (rows.getLast?.map key).or current :=
        foldl_groupRow_current rows current
      rw [List.foldl_append, List.foldl_cons, List.foldl_nil]
      rcases hrows.groups_concat with ⟨hnew, hgroups⟩ | ⟨hsame, gs, rs, hbefore, hgroups⟩
      · have hopens : (rows.foldl (groupRow key fresh add) { current }).current ≠ some (key row) := by
          rw [hcur]
          intro h
          rcases Option.or_eq_some_iff.mp h with hlast | ⟨-, hstart⟩
          · exact hnew hlast
          · exact hself row List.mem_cons_self hstart
        rw [groupRow_new hopens, ← hentry.first, hget, hget, entriesOf_concat hgroups]
        by_cases hr : r = (key row).1
        · rw [if_pos hr, if_pos hr, hr]
          rfl
        · rw [if_neg hr, if_neg hr, List.append_nil]
          rfl
      · have hstays : (rows.foldl (groupRow key fresh add) { current }).current = some (key row) := by
          rw [hcur, hsame]
          rfl
        have hne : rs ≠ [] := (mem_groups (g := (key row, rs)) (by rw [hbefore]; simp)).2
        rw [groupRow_same hstays, hget, hget, entriesOf_concat hgroups, entriesOf_concat hbefore,
          entriesOf_concat hbefore, if_pos rfl, List.modifyLast_concat, hentry.next _ _ _ hne]
        by_cases hr : r = (key row).1
        · rw [if_pos hr, if_pos hr, hr]
        · rw [if_neg hr, if_neg hr, if_neg hr]

/-- The pointer at the end of a stream is to the entry of the last row's group. -/
theorem points_to_group {entry : (Bytes × Bytes) × List ρ → α} {rows : List ρ} {row : ρ} {p : PointedGrouping α}
    (hpoints : PointsToLast p row key) (hrows : Contiguous key (rows ++ [row]))
    (hget : p.out.get (key row).1 = entriesOf key entry (rows ++ [row]) (key row).1) :
    ∃ i, p.active = some ((key row).1, i) ∧ (p.out.get (key row).1)[i]? =
      some (entry (key row, (rows ++ [row]).filter fun r => key r = key row)) := by
  obtain ⟨gs, rs, hgroups⟩ := hrows.last_group
  refine ⟨_, hpoints.active, ?_⟩
  have hgroup := (mem_groups (g := (key row, rs ++ [row])) (by rw [hgroups]; simp)).1
  rw [← List.getLast?_eq_getElem?, hget, entriesOf_concat hgroups, if_pos rfl, List.getLast?_concat]
  exact congrArg (fun rows => some (entry (key row, rows))) hgroup

/-- **The pointer is to the group of the row**: a loop over a stream in order never follows a null pointer, returns
    what the loop with the last entry returns, and has added each row to the entry of its group. -/
theorem groupRow_points {entry : (Bytes × Bytes) × List ρ → α} (hentry : EntryOf key fresh add entry)
    {rows : List ρ} (hrows : Contiguous key rows) (hnamed : ∀ row ∈ rows, (key row).1 ≠ [])
    {current : Option (Bytes × Bytes)} (hstart : Follows testsActive key ({} : PointedGrouping α) { current })
    (hcurrent : ∀ row ∈ rows, current ≠ some (key row)) :
    (∃ p, rows.foldlM (pointedRow testsActive key fresh add) {} = some p ∧
      p.out = (rows.foldl (groupRow key fresh add) { current }).out) ∧
    ∀ before row after, rows = before ++ row :: after → ∃ p i,
      (before ++ [row]).foldlM (pointedRow testsActive key fresh add) {} = some p ∧
      p.active = some ((key row).1, i) ∧ (p.out.get (key row).1)[i]? =
        some (entry (key row, (before ++ [row]).filter fun r => key r = key row)) := by
  constructor
  · obtain ⟨p, hp, hfollows⟩ := foldlM_pointedRow fresh add hstart hnamed
    exact ⟨p, hp, hfollows.out⟩
  · rintro before row after rfl
    have hsplit : before ++ row :: after = (before ++ [row]) ++ after := by
      rw [List.append_assoc, List.singleton_append]
    rw [hsplit] at hrows hnamed hcurrent
    have hcont : Contiguous key (before ++ [row]) := hrows.left
    have hnamed' := (List.forall_mem_append.mp hnamed).1
    have hcurrent' := (List.forall_mem_append.mp hcurrent).1
    obtain ⟨hbefore, hself⟩ := List.forall_mem_append.mp hnamed'
    obtain ⟨q, hq, hfollows⟩ := foldlM_pointedRow fresh add hstart hbefore
    obtain ⟨p, hp, hpoints, hfollows'⟩ :=
      pointedRow_follows fresh add hfollows (hself row List.mem_cons_self)
    have hget := foldl_groupRow_groups hentry hcont hcurrent' (key row).1
    rw [List.foldl_append, List.foldl_cons, List.foldl_nil, ← hfollows'.out] at hget
    obtain ⟨i, hactive, hplace⟩ := points_to_group hpoints hcont hget
    refine ⟨p, i, ?_, hactive, hplace⟩
    rw [List.foldlM_append, hq]
    show ([row].foldlM (pointedRow testsActive key fresh add) q) = some p
    rw [List.foldlM_cons, hp]
    rfl

end Pointed

/-! ## Columns -/

/-- The variables of `LoadAllTableSchemas`: `current` is a place in `result`. -/
structure SchemaLoop where
  result : List FirebirdTableSchema := []
  current : Option Nat := none

section Schemas

variable (noneEncoding : NoneEncoding) (widen : Bool)

/-- One row of `LoadAllTableSchemas`, with the pointer. -/
def pointedSchemaRow (s : SchemaLoop) (row : RelationFieldRow) : Option SchemaLoop :=
  let mapped := mapFirebirdColumn row.field noneEncoding widen
  let s :=
    if (s.current.bind fun i => s.result[i]?).all fun schema => schema.tableName ≠ row.relation then
      { result := s.result ++ [⟨row.relation, row.isView, {}⟩], current := some s.result.length : SchemaLoop }
    else s
  s.current.map fun i =>
    { s with result := s.result.modify i fun schema => { schema with columns := schema.columns.push mapped } }

/-- The schema of a group of rows: the first row says whether it is a view. -/
def schemaOfRows (group : Bytes × List RelationFieldRow) : FirebirdTableSchema :=
  ⟨group.1, (group.2.head?.map RelationFieldRow.isView).getD false,
    readColumns noneEncoding widen (group.2.map RelationFieldRow.field)⟩

variable {noneEncoding widen}

/-- The row of another relation begins a schema. -/
theorem addSchemaRow_new {result : List FirebirdTableSchema} {row : RelationFieldRow}
    (h : ∀ schema ∈ result.getLast?, schema.tableName ≠ row.relation) :
    addSchemaRow noneEncoding widen result row = result ++ [schemaOfRows noneEncoding widen (row.relation, [row])] := by
  unfold addSchemaRow
  cases hlast : result.getLast? with
  | none => rfl
  | some schema => exact if_pos (h schema hlast)

/-- A row of the same relation is one more column. -/
theorem addSchemaRow_same {result : List FirebirdTableSchema} {rows : List RelationFieldRow} {row : RelationFieldRow}
    (hrows : rows ≠ []) :
    addSchemaRow noneEncoding widen (result ++ [schemaOfRows noneEncoding widen (row.relation, rows)]) row =
      result ++ [schemaOfRows noneEncoding widen (row.relation, rows ++ [row])] := by
  have hcolumns : readColumns noneEncoding widen ((rows ++ [row]).map RelationFieldRow.field) =
      (readColumns noneEncoding widen (rows.map RelationFieldRow.field)).push
        (mapFirebirdColumn row.field noneEncoding widen) := by
    unfold readColumns
    rw [List.map_append, List.foldl_append]
    rfl
  obtain ⟨first, rest, rfl⟩ := List.exists_cons_of_ne_nil hrows
  unfold addSchemaRow
  rw [List.getLast?_concat]
  dsimp only
  have hsame : ¬(schemaOfRows noneEncoding widen (row.relation, first :: rest)).tableName ≠ row.relation :=
    not_not.mpr rfl
  rw [if_neg hsame, List.dropLast_concat]
  unfold schemaOfRows
  rw [hcolumns]
  rfl

/-- **The loop returns the groups of the stream.** -/
theorem foldl_addSchemaRow_groups {rows : List RelationFieldRow} (hrows : Contiguous RelationFieldRow.relation rows) :
    rows.foldl (addSchemaRow noneEncoding widen) [] =
      (groups RelationFieldRow.relation rows).map (schemaOfRows noneEncoding widen) := by
  induction rows using List.reverseRecOn with
  | nil => rfl
  | append_singleton rows row ih =>
      rw [List.foldl_append, List.foldl_cons, List.foldl_nil, ih hrows.left]
      rcases hrows.groups_concat with ⟨hnew, hgroups⟩ | ⟨-, gs, rs, hbefore, hgroups⟩
      · rw [hgroups, List.map_append, List.map_singleton]
        apply addSchemaRow_new
        intro schema hschema
        rcases List.eq_nil_or_concat rows with rfl | ⟨init, last, rfl⟩
        · cases hschema
        · rw [List.concat_eq_append] at hschema hnew hrows
          obtain ⟨gs, rs, hlast⟩ := hrows.left.last_group
          rw [hlast, List.map_append, List.map_singleton, List.getLast?_concat] at hschema
          obtain rfl := Option.some.inj hschema
          rw [List.getLast?_concat] at hnew
          exact fun h => hnew (congrArg some h)
      · have hne : rs ≠ [] := (mem_groups (g := (row.relation, rs)) (by rw [hbefore]; simp)).2
        rw [hbefore, hgroups, List.map_append, List.map_append, List.map_singleton, List.map_singleton]
        exact addSchemaRow_same hne

/-- The pointer is to the last schema, if there is one. -/
def PointsToSchema (s : SchemaLoop) : Prop :=
  (s.result = [] ∧ s.current = none) ∨ ∃ init last, s.result = init ++ [last] ∧ s.current = some init.length

theorem modify_concat {α : Type} (f : α → α) (init : List α) (last : α) :
    (init ++ [last]).modify init.length f = init ++ [f last] := by
  have hlast := modify_last_eq f (init ++ [last])
  rw [List.length_append, List.length_singleton, Nat.add_sub_cancel, List.modifyLast_concat] at hlast
  exact hlast

/-- **One row**: the pointer is not null, and it is to the last schema. -/
theorem pointedSchemaRow_eq {s : SchemaLoop} (h : PointsToSchema s) (row : RelationFieldRow) :
    ∃ s' init last, pointedSchemaRow noneEncoding widen s row = some s' ∧
      s'.result = addSchemaRow noneEncoding widen s.result row ∧ s'.result = init ++ [last] ∧
      s'.current = some init.length := by
  obtain ⟨result, current⟩ := s
  unfold pointedSchemaRow addSchemaRow
  rcases h with ⟨rfl, rfl⟩ | ⟨init, last, rfl, rfl⟩
  · exact ⟨_, [], _, rfl, rfl, rfl, rfl⟩
  · rw [Option.bind_some, List.getElem?_concat_length, List.getLast?_concat, Option.all_some]
    dsimp only
    by_cases hother : last.tableName ≠ row.relation
    · rw [if_pos (decide_eq_true hother), if_pos hother, Option.map_some, modify_concat]
      exact ⟨_, _, _, rfl, rfl, rfl, rfl⟩
    · rw [if_neg (fun h => hother (of_decide_eq_true h)), if_neg hother, Option.map_some, modify_concat,
        List.dropLast_concat]
      exact ⟨_, _, _, rfl, rfl, rfl, rfl⟩

variable (noneEncoding widen) in
/-- Any number of rows. -/
theorem foldlM_pointedSchemaRow {s : SchemaLoop} (h : PointsToSchema s) (rows : List RelationFieldRow) :
    ∃ s', rows.foldlM (pointedSchemaRow noneEncoding widen) s = some s' ∧ PointsToSchema s' ∧
      s'.result = rows.foldl (addSchemaRow noneEncoding widen) s.result := by
  induction rows generalizing s with
  | nil => exact ⟨s, rfl, h, rfl⟩
  | cons row rows ih =>
      obtain ⟨q, init, last, hq, hresult, hsplit, hcurrent⟩ := pointedSchemaRow_eq h row
      obtain ⟨s', hs', hpoints, hrest⟩ := ih (.inr ⟨init, last, hsplit, hcurrent⟩)
      refine ⟨s', ?_, hpoints, ?_⟩
      · rw [List.foldlM_cons, hq]
        exact hs'
      · rw [hrest, hresult, List.foldl_cons]

/-- **The pointer is to the schema of the row's relation.** -/
theorem schemaLoop_points {rows : List RelationFieldRow} (hrows : Contiguous RelationFieldRow.relation rows) :
    (∃ s, rows.foldlM (pointedSchemaRow noneEncoding widen) {} = some s ∧
      s.result = rows.foldl (addSchemaRow noneEncoding widen) []) ∧
    ∀ before row after, rows = before ++ row :: after → ∃ s i,
      (before ++ [row]).foldlM (pointedSchemaRow noneEncoding widen) {} = some s ∧ s.current = some i ∧
      s.result[i]? = some (schemaOfRows noneEncoding widen
        (row.relation, (before ++ [row]).filter fun r => r.relation = row.relation)) := by
  have hstart : PointsToSchema {} := .inl ⟨rfl, rfl⟩
  constructor
  · obtain ⟨s, hs, -, hresult⟩ := foldlM_pointedSchemaRow noneEncoding widen hstart rows
    exact ⟨s, hs, hresult⟩
  · rintro before row after rfl
    have hcont : Contiguous RelationFieldRow.relation (before ++ [row]) := by
      rw [← List.singleton_append, ← List.append_assoc] at hrows
      exact hrows.left
    obtain ⟨s, hs, hpoints, hresult⟩ :=
      foldlM_pointedSchemaRow noneEncoding widen hstart (before ++ [row])
    obtain ⟨gs, rs, hgroups⟩ := hcont.last_group
    have hgroup := (mem_groups (g := (row.relation, rs ++ [row])) (by rw [hgroups]; simp)).1
    rw [foldl_addSchemaRow_groups hcont, hgroups, List.map_append, List.map_singleton] at hresult
    rcases hpoints with ⟨hnil, -⟩ | ⟨init, last, hsplit, hcurrent⟩
    · rw [hnil] at hresult
      exact absurd hresult.symm (by simp)
    · refine ⟨s, init.length, hs, hcurrent, ?_⟩
      obtain ⟨-, hlast⟩ := List.append_inj' (hsplit.symm.trans hresult) rfl
      rw [hsplit, List.getElem?_concat_length, (List.cons.inj hlast).1]
      exact congrArg (fun rows => some (schemaOfRows noneEncoding widen (row.relation, rows))) hgroup

end Schemas

/-! ## The three loops -/

/-- The parts of `LoadUniqueConstraints`. -/
abbrev uniqueRowKey (row : UniqueConstraintRow) : Bytes × Bytes := (row.relation, row.constraint)

def freshUniqueKey (row : UniqueConstraintRow) : UniqueKey where
  constraintName := row.constraint
  isPrimary := row.constraintType = utf8 "PRIMARY KEY"

def addUniqueColumn (row : UniqueConstraintRow) (key : UniqueKey) : UniqueKey :=
  { key with columns := key.columns ++ [row.field] }

/-- The parts of `LoadForeignKeys`. -/
abbrev foreignRowKey (row : ForeignKeyRow) : Bytes × Bytes := (row.relation, row.constraint)

def freshForeignKey (row : ForeignKeyRow) : ForeignKey where
  constraintName := row.constraint
  pkTable := row.pkTable

def addForeignColumns (row : ForeignKeyRow) (key : ForeignKey) : ForeignKey :=
  { key with fkColumns := key.fkColumns ++ [row.fkField], pkColumns := key.pkColumns ++ [row.pkField] }

/-- The constraint of a group of rows. -/
def uniqueKeyOf (group : (Bytes × Bytes) × List UniqueConstraintRow) : UniqueKey where
  constraintName := group.1.2
  isPrimary := group.2.head?.any fun row => row.constraintType = utf8 "PRIMARY KEY"
  columns := group.2.map UniqueConstraintRow.field

/-- The foreign key of a group of rows: the columns of both sides, in the order of the rows. -/
def foreignKeyOf (group : (Bytes × Bytes) × List ForeignKeyRow) : ForeignKey where
  constraintName := group.1.2
  pkTable := (group.2.head?.map ForeignKeyRow.pkTable).getD []
  fkColumns := group.2.map ForeignKeyRow.fkField
  pkColumns := group.2.map ForeignKeyRow.pkField

theorem uniqueKeyOf_entry : EntryOf uniqueRowKey freshUniqueKey addUniqueColumn uniqueKeyOf where
  first := fun _ => rfl
  next := by
    intro k rows row hne
    obtain ⟨first, rest, rfl⟩ := List.exists_cons_of_ne_nil hne
    unfold uniqueKeyOf addUniqueColumn
    rw [List.map_append]
    rfl

theorem foreignKeyOf_entry : EntryOf foreignRowKey freshForeignKey addForeignColumns foreignKeyOf where
  first := fun _ => rfl
  next := by
    intro k rows row hne
    obtain ⟨first, rest, rfl⟩ := List.exists_cons_of_ne_nil hne
    unfold foreignKeyOf addForeignColumns
    rw [List.map_append, List.map_append]
    rfl

/-- The two sides of a foreign key are paired. -/
theorem foreignKeyOf_paired (group : (Bytes × Bytes) × List ForeignKeyRow) :
    (foreignKeyOf group).fkColumns.zip (foreignKeyOf group).pkColumns =
      group.2.map fun row => (row.fkField, row.pkField) := by
  unfold foreignKeyOf
  rw [List.zip_map']

/-- Before the first row, both names are empty; no row has these. -/
theorem follows_unique : Follows false uniqueRowKey ({} : PointedGrouping UniqueKey) { current := some ([], []) } := by
  refine ⟨rfl, fun row hnamed => .inl ⟨?_, ?_⟩⟩
  · unfold opensEntry
    rw [decide_eq_true hnamed, Bool.or_true, Bool.true_or]
  · intro h
    exact hnamed (Prod.mk.inj (Option.some.inj h)).1.symm

/-- Before the first row, there is no entry. -/
theorem follows_foreign : Follows true foreignRowKey ({} : PointedGrouping ForeignKey) { current := none } :=
  ⟨rfl, fun _ _ => .inl ⟨rfl, nofun⟩⟩

/-- What the loop over constraints returns is, for each relation, its groups of the stream; with the pointer it returns
    the same, and each row is added behind the pointer to the entry of the row's group. -/
structure GroupsConstraints {ρ α : Type} (testsActive : Bool) (key : ρ → Bytes × Bytes) (fresh : ρ → α)
    (add : ρ → α → α) (entry : (Bytes × Bytes) × List ρ → α) (rows : List ρ) (out : ByRelation α) : Prop where
  complete : (groups key rows).flatMap Prod.snd = rows
  get : ∀ r, out.get r = entriesOf key entry rows r
  pointed : ∃ p, rows.foldlM (pointedRow testsActive key fresh add) {} = some p ∧ p.out = out
  points : ∀ before row after, rows = before ++ row :: after → ∃ p i,
    (before ++ [row]).foldlM (pointedRow testsActive key fresh add) {} = some p ∧ p.active = some ((key row).1, i) ∧
    (p.out.get (key row).1)[i]? = some (entry (key row, (before ++ [row]).filter fun r => key r = key row))

/-- So for the loop over columns. -/
structure GroupsColumns (noneEncoding : NoneEncoding) (widen : Bool) (rows : List RelationFieldRow)
    (schemas : List FirebirdTableSchema) : Prop where
  complete : (groups RelationFieldRow.relation rows).flatMap Prod.snd = rows
  eq : schemas = (groups RelationFieldRow.relation rows).map (schemaOfRows noneEncoding widen)
  pointed : ∃ s, rows.foldlM (pointedSchemaRow noneEncoding widen) {} = some s ∧ s.result = schemas
  points : ∀ before row after, rows = before ++ row :: after → ∃ s i,
    (before ++ [row]).foldlM (pointedSchemaRow noneEncoding widen) {} = some s ∧ s.current = some i ∧
    s.result[i]? = some (schemaOfRows noneEncoding widen
      (row.relation, (before ++ [row]).filter fun r => r.relation = row.relation))

theorem groupsConstraints_of_order {ρ α : Type} {testsActive : Bool} {key : ρ → Bytes × Bytes} {fresh : ρ → α}
    {add : ρ → α → α} {entry : (Bytes × Bytes) × List ρ → α} (hentry : EntryOf key fresh add entry) {rows : List ρ}
    (horder : InOrder key rows) (hnamed : ∀ row ∈ rows, (key row).1 ≠ []) {current : Option (Bytes × Bytes)}
    (hstart : Follows testsActive key ({} : PointedGrouping α) { current })
    (hcurrent : ∀ row ∈ rows, current ≠ some (key row)) :
    GroupsConstraints testsActive key fresh add entry rows (rows.foldl (groupRow key fresh add) { current }).out where
  complete := horder.contiguous.flatMap_groups
  get := foldl_groupRow_groups hentry horder.contiguous hcurrent
  pointed := (groupRow_points hentry horder.contiguous hnamed hstart hcurrent).1
  points := (groupRow_points hentry horder.contiguous hnamed hstart hcurrent).2

/-- **The grouping loops lose and merge nothing.** For answers in order of their keys, in which every relation has a
    name: `LoadAllTableSchemas` returns one schema for each relation, in order, and `LoadUniqueConstraints` and
    `LoadForeignKeys` give each relation one entry for each of its constraints, in order; an entry is made of the
    rows of its key, in order, and the pointer to the current group is to that of the row. -/
theorem loops_group_rows {server : Metadata} (noneEncoding : NoneEncoding) (widen : Bool)
    {fieldRows : List RelationFieldRow} {uniqueRows : List UniqueConstraintRow} {foreignRows : List ForeignKeyRow}
    (hfields : server .allRelationFields = .ok fieldRows) (hunique : server .uniqueConstraints = .ok uniqueRows)
    (hforeign : server .foreignKeys = .ok foreignRows) (hfieldOrder : InOrder RelationFieldRow.relation fieldRows)
    (huniqueOrder : InOrder uniqueRowKey uniqueRows) (hforeignOrder : InOrder foreignRowKey foreignRows)
    (huniqueNamed : ∀ row ∈ uniqueRows, row.relation ≠ []) (hforeignNamed : ∀ row ∈ foreignRows, row.relation ≠ []) :
    (∃ schemas, loadAllTableSchemas server noneEncoding widen = .ok schemas ∧
      GroupsColumns noneEncoding widen fieldRows schemas) ∧
    (∃ out, loadUniqueConstraints server = .ok out ∧
      GroupsConstraints false uniqueRowKey freshUniqueKey addUniqueColumn uniqueKeyOf uniqueRows out) ∧
    ∃ out, loadForeignKeys server = .ok out ∧
      GroupsConstraints true foreignRowKey freshForeignKey addForeignColumns foreignKeyOf foreignRows out ∧
      ∀ group, (foreignKeyOf group).fkColumns.length = (foreignKeyOf group).pkColumns.length ∧
        (foreignKeyOf group).fkColumns.zip (foreignKeyOf group).pkColumns =
          group.2.map fun row => (row.fkField, row.pkField) := by
  refine ⟨?_, ?_, ?_⟩
  · refine ⟨fieldRows.foldl (addSchemaRow noneEncoding widen) [], ?_, ?_⟩
    · unfold loadAllTableSchemas
      rw [hfields]
      rfl
    · exact
        { complete := hfieldOrder.contiguous.flatMap_groups
          eq := foldl_addSchemaRow_groups hfieldOrder.contiguous
          pointed := (schemaLoop_points hfieldOrder.contiguous).1
          points := (schemaLoop_points hfieldOrder.contiguous).2 }
  · -- this loop begins with empty strings for the current key, which no row has
    have hgroups := groupsConstraints_of_order uniqueKeyOf_entry huniqueOrder huniqueNamed follows_unique
      fun row hrow h => huniqueNamed row hrow (Prod.mk.inj (Option.some.inj h)).1.symm
    refine ⟨_, ?_, hgroups⟩
    unfold loadUniqueConstraints
    rw [hunique]
    rfl
  · -- this one begins with a null pointer
    have hgroups := groupsConstraints_of_order foreignKeyOf_entry hforeignOrder hforeignNamed follows_foreign
      fun row _ h => nomatch h
    refine ⟨_, ?_, hgroups, fun group => ⟨?_, foreignKeyOf_paired group⟩⟩
    · unfold loadForeignKeys
      rw [hforeign]
      rfl
    · unfold foreignKeyOf
      rw [List.length_map, List.length_map]

/-- Two tables whose primary keys have one name, the second with a reference to the first. -/
def referencingTables : Metadata
  | .allRelationFields => .ok
      [⟨utf8 "A", { name := utf8 "ID", fieldType := 8 }, false⟩,
        ⟨utf8 "B", { name := utf8 "ID", fieldType := 8 }, false⟩,
        ⟨utf8 "B", { name := utf8 "A_ID", fieldType := 8 }, false⟩]
  | .uniqueConstraints => .ok
      [⟨utf8 "A", utf8 "PK", utf8 "PRIMARY KEY", utf8 "ID"⟩, ⟨utf8 "B", utf8 "PK", utf8 "PRIMARY KEY", utf8 "ID"⟩,
        ⟨utf8 "B", utf8 "PK", utf8 "PRIMARY KEY", utf8 "A_ID"⟩]
  | .foreignKeys => .ok [⟨utf8 "B", utf8 "FK", utf8 "A", utf8 "A_ID", utf8 "ID"⟩]
  | _ => .error []

/-- `A` stands in front of `B`. -/
theorem inOrder_referencingTables {ρ κ : Type} {key : ρ → κ} {rows : List ρ} (relation : κ → Bytes)
    (h : rows.Pairwise fun a b => key a = key b ∨
      (relation (key a) = utf8 "A" ∧ relation (key b) = utf8 "B")) : InOrder key rows := by
  refine ⟨fun a b => a = b ∨ (relation a = utf8 "A" ∧ relation b = utf8 "B"), ?_, h⟩
  rintro a b (rfl | ⟨ha, hb⟩) (hab | ⟨-, ha'⟩)
  · rfl
  · rfl
  · exact hab.symm
  · exact absurd (ha.symm.trans ha') (by decide)

theorem loops_group_referencingTables : ∃ out, loadUniqueConstraints referencingTables = .ok out ∧
    out.get (utf8 "A") = [⟨utf8 "PK", true, [utf8 "ID"]⟩] ∧
    out.get (utf8 "B") = [⟨utf8 "PK", true, [utf8 "ID", utf8 "A_ID"]⟩] := by
  obtain ⟨-, ⟨out, hout, hgroups⟩, -⟩ := @loops_group_rows referencingTables .strict false _ _ _ rfl rfl rfl
    (inOrder_referencingTables id (by decide)) (inOrder_referencingTables Prod.fst (by decide))
    (inOrder_referencingTables Prod.fst (List.pairwise_singleton _ _)) (by decide) (by decide)
  refine ⟨out, hout, ?_, ?_⟩
  · rw [hgroups.get]
    rfl
  · rw [hgroups.get]
    rfl

end FirebirdScan
