import FirebirdScan.Scanner.OpenCursor
import FirebirdScan.Scanner.Workers

/-!
# `Scanner.WholeScan` — what a scan delivers, from the partitions to the last chunk

A scan sends one statement for each partition, and its workers share the partitions. Put together:

- **One statement.** The builder's conditions, with the key range behind them, are read as one conjunction, which
  holds on the rows that pass every filter that was pushed and have their key in the range (`statement_reads`).
- **All statements.** The ranges tile `[min, max]`, so a row that passes lies in one partition if its key is
  there, and in none if it is not.
- **All workers.** What they return is the rows of all partitions, whatever the schedule.

So the partitions are not seen in the result exactly as long as no row that passes has a key outside
`[min, max]` (`scan_delivers`). The two bounds are read when the table is bound, before the scan.
-/

namespace FirebirdScan

open SearchCondition Workers

/-- A row, by its source columns. -/
abbrev SourceRow := Nat → Value

/-! ## The conditions of a statement -/

section Conditions

variable {api : DuckdbApi} {a : BuildArgs} {S : Server} {D : DuckDb}

/-- What the builder pushes has a column that may be pushed, and a shape with a translation. -/
theorem supported_of_pushes {entry : Nat × TableFilter} (h : a.pushes api entry = true) :
    Supported a entry ∧ Translatable api a entry := by
  unfold BuildArgs.pushes at h
  cases hsrc : a.sourceColumn entry.1 with
  | error reason =>
      rw [hsrc] at h
      cases h
  | ok src =>
      rw [hsrc] at h
      obtain ⟨hsupported, hshape⟩ := (Bool.and_eq_true _ _).mp h
      refine ⟨fun src' hsrc' => ?_, ⟨src, hsrc⟩, hshape⟩
      rwa [← Option.some.inj ((sourceColumn_ok hsrc).symm.trans hsrc')]

/-- The conjuncts `parts` say that the row passes the filters of the list that are pushed. -/
structure SaysPushed (api : DuckdbApi) (a : BuildArgs) (S : Server) (D : DuckDb)
    (filters : List (Nat × TableFilter)) (parts : List (Conjunct Nat Value)) : Prop where
  holds : ∀ part ∈ parts, part.Holds S.algebra
  none_iff : parts = [] ↔ ∀ entry ∈ filters, a.pushes api entry = false
  truth : ∀ row : SourceRow, (∀ entry ∈ filters, a.pushes api entry = true → AgreesOn S D a row entry) →
    ((∀ part ∈ parts, part.truth row = .true) ↔
      ∀ entry ∈ filters, a.pushes api entry = true → Passes D a row entry)

/-- **The filter loop writes a conjunction** of the filters that it pushes, and their constants behind one
    another. -/
theorem foldl_filterStep_says {filters : List (Nat × TableFilter)}
    (hcast : ∀ entry ∈ filters, a.pushes api entry = true → entry.2.castFree = true) (st : FilterLoop) :
    ∃ parts, SaysPushed api a S D filters parts ∧
      (filters.foldl (filterStep api a) st).conds = st.conds ++ parts.map (fun p => render a.columnText p.tokens) ∧
      (filters.foldl (filterStep api a) st).params = st.params ++ parts.flatMap Conjunct.params := by
  induction filters generalizing st with
  | nil =>
      refine ⟨[], ⟨by simp, by simp, by simp⟩, ?_, ?_⟩
      · exact (List.append_nil _).symm
      · exact (List.append_nil _).symm
  | cons entry filters ih =>
      obtain ⟨hhead, hrest⟩ := List.forall_mem_cons.mp hcast
      obtain ⟨parts, hsaid, hconds, hparams⟩ := ih hrest (filterStep api a st entry)
      cases hpush : a.pushes api entry with
      | false =>
          -- a residual filter leaves the conditions and the parameters as they are
          obtain ⟨reason, herror⟩ := BuildArgs.pushFilter_residual hpush st.params
          have hstep : (filterStep api a st entry).conds = st.conds ∧
              (filterStep api a st entry).params = st.params := by
            unfold filterStep
            rw [herror]
            exact ⟨rfl, rfl⟩
          rw [hstep.1] at hconds
          rw [hstep.2] at hparams
          refine ⟨parts, ⟨hsaid.holds, ?_, ?_⟩, hconds, hparams⟩
          · rw [hsaid.none_iff, List.forall_mem_cons, and_iff_right hpush]
          · intro row hagree
            rw [hsaid.truth row (List.forall_mem_cons.mp hagree).2, List.forall_mem_cons, hpush]
            simp
      | true =>
          obtain ⟨hsup, htr⟩ := supported_of_pushes hpush
          obtain ⟨tokens, added, t, hcond, hadded, hphrase, ht⟩ :=
            filterStep_translatable (S := S) (D := D) hsup htr (hhead hpush) st
          rw [hcond, List.append_assoc] at hconds
          rw [hadded, List.append_assoc] at hparams
          refine ⟨⟨tokens, added, t⟩ :: parts, ⟨?_, ?_, ?_⟩, hconds, hparams⟩
          · exact List.forall_mem_cons.mpr ⟨hphrase, hsaid.holds⟩
          · refine iff_of_false (List.cons_ne_nil _ _) fun h => ?_
            have hno := h entry List.mem_cons_self
            rw [hpush] at hno
            cases hno
          · intro row hagree
            obtain ⟨hagree, hagrees⟩ := List.forall_mem_cons.mp hagree
            rw [List.forall_mem_cons, List.forall_mem_cons, hsaid.truth row hagrees, ht row (hagree hpush)]
            simp [hpush]

end Conditions

/-! ## The key range as a conjunct -/

/-- The tokens of one half of a key range, on the column `cid`. -/
def keyBoundTokens (cid : Nat) (op : CompareOp) (bound : Int) : List (Token Nat Value) :=
  [.operand (.column cid), .blank, .op op, .blank, .operand (.literal (.bigint (Int64.ofInt bound)))]

/-- What the server compares the column `cid` of the row as: an integer. -/
def IsKey (S : Server) (cid : Nat) (row : SourceRow) (key : Int) : Prop :=
  (row cid).isNull = false ∧
    ∀ op (bound : Int64), S.compare op (row cid) (.bigint bound) = op.holds key bound.toInt

section Range

variable {S : Server} {cid : Nat} {lo hi : Int}

theorem says_keyBound (op : CompareOp) (bound : Int) :
    SearchCondition.Says S.algebra .primary (keyBoundTokens cid op bound) []
      (fun row => S.algebra.test op (row cid) (.bigint (Int64.ofInt bound))) := by
  refine ⟨.compare (.column cid) op (.literal (.bigint (Int64.ofInt bound))), ?_, fun row rest => rfl⟩
  exact Phrase.compare _ _ _

/-- A key range, in its parentheses. -/
def rangeConjunct (S : Server) (cid : Nat) (range : Int × Int) : Conjunct Nat Value where
  tokens := .lparen ::
    (keyBoundTokens cid .ge range.1 ++ .blank :: .connective .and :: .blank :: keyBoundTokens cid .le range.2) ++
    [.rparen]
  params := []
  truth row := (S.algebra.test .ge (row cid) (.bigint (Int64.ofInt range.1))).and
    (S.algebra.test .le (row cid) (.bigint (Int64.ofInt range.2)))

theorem rangeConjunct_holds (range : Int × Int) : (rangeConjunct S cid range).Holds S.algebra :=
  ((says_keyBound .ge range.1).cons .and ((says_keyBound .le range.2).single .and)).whole.paren

/-- It is true on the rows whose key is in the range. -/
theorem rangeConjunct_truth {row : SourceRow} {key : Int} (hkey : IsKey S cid row key) (hlo : -2 ^ 63 ≤ lo)
    (hlohi : lo ≤ hi) (hhi : hi < 2 ^ 63) :
    (rangeConjunct S cid (lo, hi)).truth row = .true ↔ lo ≤ key ∧ key ≤ hi := by
  obtain ⟨hnull, hcompare⟩ := hkey
  have e1 := Int64.toInt_ofInt_of_le hlo (show lo < 2 ^ 63 by omega)
  have e2 := Int64.toInt_ofInt_of_le (show -2 ^ 63 ≤ hi by omega) hhi
  have htest (op : CompareOp) (bound : Int64) :
      S.algebra.test op (row cid) (.bigint bound) = .ofBool (op.holds key bound.toInt) := by
    have hboth : (S.algebra.isNull (row cid) || S.algebra.isNull (.bigint bound)) = false := by
      rw [show S.algebra.isNull (row cid) = false from hnull]
      rfl
    rw [Algebra.test, hboth, if_neg Bool.false_ne_true]
    exact congrArg Truth.ofBool (hcompare op bound)
  simp [rangeConjunct, htest, e1, e2, CompareOp.holds]

/-- Its text is the `where_clause` in parentheses, for a key column that is not cast. -/
theorem render_rangeConjunct {columnText : Nat → Bytes} {key : Bytes} (hkey : columnText cid = key)
    (hlo : -2 ^ 63 ≤ lo) (hlohi : lo ≤ hi) (hhi : hi < 2 ^ 63) :
    render columnText (rangeConjunct S cid (lo, hi)).tokens =
      utf8 "(" ++ PartitionSpec.whereClause key ⟨some (lo, hi)⟩ ++ utf8 ")" := by
  have h1 : utf8 " >= " = utf8 " " ++ (utf8 ">=" ++ utf8 " ") := by decide
  have h2 : utf8 " <= " = utf8 " " ++ (utf8 "<=" ++ utf8 " ") := by decide
  have h3 : utf8 " AND " = utf8 " " ++ (utf8 "AND" ++ utf8 " ") := by decide
  have e1 := Int64.toInt_ofInt_of_le hlo (show lo < 2 ^ 63 by omega)
  have e2 := Int64.toInt_ofInt_of_le (show -2 ^ 63 ≤ hi by omega) hhi
  simp [rangeConjunct, keyBoundTokens, PartitionSpec.whereClause, tokenText, literalText, opText, hkey, h1, h2, h3,
    e1, e2]

/-- The conjuncts of a partition: its range, if it has one. -/
def PartitionSpec.conjuncts (S : Server) (cid : Nat) (spec : PartitionSpec) : List (Conjunct Nat Value) :=
  spec.range.toList.map (rangeConjunct S cid)

end Range

/-! ## One statement -/

/-- The server reads the statement as one that delivers the rows on which `holds`: it has no `WHERE` clause and
    delivers all rows, or the clause is read as a condition that takes exactly the parameters and is true there. -/
def Reads (S : Server) (a : BuildArgs) (statement : BuildResult) (holds : SourceRow → Bool) : Prop :=
  (statement.sql = a.selectClause ∧ statement.params = [] ∧ ∀ row, holds row = true) ∨
  ∃ tokens cond, statement.sql = a.selectClause ++ (utf8 " WHERE " ++ render a.columnText tokens) ∧
    read tokens = some cond ∧
    ∀ row, holds row = true ↔ cond.eval S.algebra row statement.params = some (.true, [])

/-- The conjunction as a `WHERE` clause. -/
def conjunctionClause (columnText : Nat → Bytes) (parts : List (Conjunct Nat Value)) : Bytes :=
  if parts = [] then [] else utf8 " WHERE " ++ render columnText (conjunctionTokens parts)

theorem reads_conjunction {S : Server} {a : BuildArgs} {statement : BuildResult} {parts : List (Conjunct Nat Value)}
    (hholds : ∀ part ∈ parts, part.Holds S.algebra)
    (hsql : statement.sql = a.selectClause ++ conjunctionClause a.columnText parts)
    (hparams : statement.params = parts.flatMap Conjunct.params) :
    Reads S a statement fun row => parts.all fun part => decide (part.truth row = .true) := by
  unfold conjunctionClause at hsql
  split_ifs at hsql with hnil
  · subst hnil
    exact .inl ⟨hsql.trans (List.append_nil _), hparams, fun _ => rfl⟩
  · obtain ⟨t, hsaid, ht⟩ := says_conjunction hnil hholds
    obtain ⟨cond, hread, heval⟩ := hsaid.whole.read
    refine .inr ⟨_, cond, hsql, hread, fun row => ?_⟩
    rw [hparams, heval row, Option.some.injEq, Prod.mk.injEq, and_iff_left rfl, ht row, List.all_eq_true]
    simp only [decide_eq_true_eq]

/-- The conditions joined by ` AND ` are the text of the conjunction. -/
theorem intercalate_conjunction (columnText : Nat → Bytes) (part : Conjunct Nat Value)
    (parts : List (Conjunct Nat Value)) :
    (utf8 " AND ").intercalate ((part :: parts).map fun p => render columnText p.tokens) =
      render columnText (conjunctionTokens (part :: parts)) := by
  induction parts generalizing part with
  | nil => exact List.intercalate_singleton
  | cons next parts ih =>
      have hsep := render_separator columnText .and
      rw [separator] at hsep
      have hrest := ih next
      rw [List.map_cons] at hrest
      rw [List.map_cons, List.map_cons, List.intercalate_cons_cons, hrest, ← hsep]
      show _ = render columnText (part.tokens ++ .blank :: .connective .and :: .blank :: _)
      simp

/-- The builder's `WHERE` clause. -/
theorem whereClause_conjunction (columnText : Nat → Bytes) (parts : List (Conjunct Nat Value)) :
    whereClause (parts.map fun p => render columnText p.tokens) = conjunctionClause columnText parts := by
  unfold whereClause conjunctionClause
  cases parts with
  | nil => rfl
  | cons part parts =>
      have hne : (part :: parts).map (fun p => render columnText p.tokens) ≠ [] := List.cons_ne_nil _ _
      rw [if_neg hne, if_neg (List.cons_ne_nil _ _), intercalate_conjunction]

/-- The partition predicate becomes one more operand, unless a name imitates the keyword and nothing is pushed. -/
theorem partitionClause_conjunction {columnText : Nat → Bytes} {parts : List (Conjunct Nat Value)}
    {last : Conjunct Nat Value} {selectClause predicate : Bytes} (hpred : predicate ≠ [])
    (hlast : render columnText last.tokens = utf8 "(" ++ predicate ++ utf8 ")")
    (hselect : parts = [] → ¬Mentions selectClause) :
    conjunctionClause columnText parts ++
        partitionClause (selectClause ++ conjunctionClause columnText parts) predicate =
      conjunctionClause columnText (parts ++ [last]) := by
  have hall : parts ++ [last] ≠ [] := List.append_ne_nil_of_right_ne_nil _ (List.cons_ne_nil _ _)
  unfold partitionClause
  rw [if_neg hpred, List.append_assoc _ (utf8 "(") predicate, List.append_assoc _ (utf8 "(" ++ predicate), ← hlast]
  unfold conjunctionClause
  rw [if_neg hall]
  by_cases hnil : parts = []
  · -- nothing is pushed: the builder writes the `WHERE` itself
    have hno : ¬utf8 " WHERE " <:+: selectClause ++ [] := by
      rw [List.append_nil]
      exact hselect hnil
    rw [if_pos hnil, if_neg hno, hnil, List.nil_append]
    rfl
  · -- the `WHERE` of the conditions is found
    have hfound : utf8 " WHERE " <:+: selectClause ++ (utf8 " WHERE " ++ render columnText (conjunctionTokens parts)) :=
      ⟨selectClause, render columnText (conjunctionTokens parts), List.append_assoc _ _ _⟩
    have hsep := render_separator columnText .and
    rw [separator] at hsep
    rw [if_neg hnil, if_pos hfound, conjunctionTokens_append hnil, ← hsep]
    simp

section Statement

variable {api : DuckdbApi} {bind : ScanBindData} {columnIds : List Nat} {filters : List (Nat × TableFilter)}
  {S : Server} {D : DuckDb} {cid : Nat}

/-- The column `cid` is the key column that was probed, and its name stands in the statement as it is. -/
def ScanBindData.KeyAt (bind : ScanBindData) (cid : Nat) : Prop :=
  ∀ pk ∈ bind.pk, bind.columnNames[cid]? = some pk.column ∧
    ∀ desc ∈ bind.columnDescs[cid]?, isDecfloatType desc.sqltype = false

theorem ScanBindData.KeyAt.columnText (hkey : bind.KeyAt cid) {pk : PrimaryKeyInfo} (hpk : bind.pk = some pk)
    (spec : PartitionSpec) : (bind.buildArgs columnIds spec).columnText cid = bind.keyText := by
  obtain ⟨hname, hdesc⟩ := hkey pk hpk
  have htext : (bind.buildArgs columnIds spec).columnText cid =
      columnSql (bind.columnNames.getD cid []) ((bind.columnDescs[cid]?).any fun d => isDecfloatType d.sqltype) := rfl
  have hplain : ((bind.columnDescs[cid]?).any fun d => isDecfloatType d.sqltype) = false := by
    cases hd : bind.columnDescs[cid]? with
    | none => rfl
    | some desc => exact hdesc desc hd
  rw [htext, hplain, List.getD_eq_getElem?_getD, hname, ScanBindData.keyText, hpk]
  rfl

/-- The bounds of the partition are `int64_t`s in order, if there are any, and then there is a key. -/
def PartitionSpec.InRange (bind : ScanBindData) (spec : PartitionSpec) : Prop :=
  ∀ range ∈ spec.range, bind.pk.isSome = true ∧ -2 ^ 63 ≤ range.1 ∧ range.1 ≤ range.2 ∧ range.2 < 2 ^ 63

/-- **The statement of a partition** is read as the conjunction of the filters that are pushed and the range. -/
theorem statement_reads (hextra : bind.extraPredicates = []) (hlimit : bind.limitOverride = none)
    (hcast : ∀ entry ∈ filters, (bind.buildArgs columnIds {}).pushes api entry = true → entry.2.castFree = true)
    (hkey : bind.KeyAt cid) {spec : PartitionSpec} (hspec : spec.InRange bind)
    (hnames : spec.range = none ∨ (∃ entry ∈ filters, (bind.buildArgs columnIds {}).pushes api entry = true) ∨
      ∀ name ∈ (bind.buildArgs columnIds {}).names, ¬Mentions name) :
    ∃ parts, SaysPushed api (bind.buildArgs columnIds {}) S D filters parts ∧
      Reads S (bind.buildArgs columnIds spec) (bind.partitionQuery api columnIds filters spec) fun row =>
        (parts ++ spec.conjuncts S cid).all fun part => decide (part.truth row = .true) := by
  obtain ⟨parts, hsaid, hconds, hparams⟩ := foldl_filterStep_says (S := S) (D := D)
    (show ∀ entry ∈ filters, (bind.buildArgs columnIds spec).pushes api entry = true → entry.2.castFree = true
      from hcast) {}
  rw [List.nil_append] at hconds hparams
  have hrange : ∀ part ∈ spec.conjuncts S cid, part.params = [] ∧ part.Holds S.algebra := by
    intro part hpart
    obtain ⟨range, -, rfl⟩ := List.mem_map.mp hpart
    exact ⟨rfl, rangeConjunct_holds range⟩
  refine ⟨parts, ⟨hsaid.holds, hsaid.none_iff, hsaid.truth⟩, reads_conjunction ?_ ?_ ?_⟩
  · intro part hpart
    rcases List.mem_append.mp hpart with h | h
    · exact hsaid.holds part h
    · exact (hrange part h).2
  · -- the text: the conditions, and the range behind them
    have hrows : rowsClause (bind.buildArgs columnIds spec) = [] := by
      unfold rowsClause ScanBindData.buildArgs ScanBindData.pagination
      simp only [hlimit]
    have hpred : (bind.buildArgs columnIds spec).extraPredicate = spec.whereClause bind.keyText := by
      show combinedPredicate _ bind.extraPredicates = _
      rw [hextra]
      rfl
    show (bind.buildArgs columnIds spec).selectClause ++ whereClause _ ++
      partitionClause ((bind.buildArgs columnIds spec).selectClause ++ whereClause _)
        (bind.buildArgs columnIds spec).extraPredicate ++ rowsClause (bind.buildArgs columnIds spec) = _
    rw [hrows, List.append_nil, hconds, whereClause_conjunction, hpred, List.append_assoc]
    refine congrArg ((bind.buildArgs columnIds spec).selectClause ++ ·) ?_
    cases hspecRange : spec.range with
    | none =>
        have hnone : spec.whereClause bind.keyText = [] := by
          unfold PartitionSpec.whereClause
          rw [hspecRange]
        have hempty : spec.conjuncts S cid = [] := by
          unfold PartitionSpec.conjuncts
          rw [hspecRange]
          rfl
        rw [hnone, hempty, partitionClause, if_pos rfl, List.append_nil, List.append_nil]
    | some range =>
        obtain ⟨hpk, hlo, hlohi, hhi⟩ := hspec range hspecRange
        obtain ⟨pk, hpk⟩ := Option.isSome_iff_exists.mp hpk
        obtain rfl : spec = ⟨some range⟩ := by cases spec; exact congrArg PartitionSpec.mk hspecRange
        refine partitionClause_conjunction ?_ (render_rangeConjunct (hkey.columnText hpk _) hlo hlohi hhi) ?_
        · have hge : utf8 " <= " ≠ [] := by decide
          simp [PartitionSpec.whereClause, hge]
        · intro hnil hmentions
          obtain ⟨name, hname, hin⟩ := BuildArgs.mentions_selectClause.mp hmentions
          rcases hnames with hnone | ⟨entry, hentry, hpush⟩ | hclean
          · cases hnone
          · have hno := hsaid.none_iff.mp hnil entry hentry
            exact absurd (hpush.symm.trans hno) (by decide)
          · exact hclean name hname hin
  · rw [List.flatMap_append]
    have hnil : (spec.conjuncts S cid).flatMap Conjunct.params = [] :=
      List.flatMap_eq_nil_iff.mpr fun part hpart => (hrange part hpart).1
    rw [hnil, List.append_nil]
    show (build api (bind.buildArgs columnIds spec) filters).params ++
      bind.extraPredicates.flatMap ExtraPredicate.params = _
    rw [hextra]
    exact (List.append_nil _).trans hparams

end Statement

/-! ## All statements -/

/-- The key is in the partition. -/
def PartitionSpec.selects (spec : PartitionSpec) (key : Int) : Bool :=
  spec.range.all fun range => decide (range.1 ≤ key ∧ key ≤ range.2)

/-- The key is between the bounds that were probed, if any were. -/
def ScanBindData.inBounds (bind : ScanBindData) (key : Int) : Bool :=
  bind.pk.all fun pk => decide (pk.minValue ≤ key ∧ key ≤ pk.maxValue)

/-- **The queue of a scan**: a key between the bounds is in one partition, another in none. -/
theorem initPartitions_countP {hw : UInt32} {partitions : PartitionsOverride} {bind : ScanBindData}
    {queue : List PartitionSpec} (h : initPartitions hw partitions bind.pk = some queue) :
    (∀ spec ∈ queue, spec.InRange bind) ∧
      ∀ key, queue.countP (fun spec => spec.selects key) = if bind.inBounds key = true then 1 else 0 := by
  unfold ScanBindData.inBounds
  cases hpk : bind.pk with
  | none =>
      rw [hpk] at h
      obtain rfl := Option.some.inj h
      refine ⟨?_, fun key => rfl⟩
      intro spec hspec range hrange
      rw [List.mem_singleton.mp hspec] at hrange
      cases hrange
  | some pk =>
      rw [hpk] at h
      obtain ⟨ranges, hranges, rfl⟩ := Option.map_eq_some_iff.mp h
      obtain ⟨ranges', hranges', htiles⟩ := keyRanges_tiles hw partitions (keyRanges_span hranges)
      obtain rfl := Option.some.inj (hranges.symm.trans hranges')
      have hlo := pk.min_int64
      have hhi := pk.max_int64
      refine ⟨?_, ?_⟩
      · intro spec hspec range hrange
        obtain ⟨cell, hcell, rfl⟩ := List.mem_map.mp hspec
        obtain rfl := Option.some.inj hrange
        have hwithin := htiles.within cell hcell
        exact ⟨by rw [hpk]; rfl, by omega, htiles.nonempty cell hcell, by omega⟩
      · intro key
        rw [List.countP_map]
        refine (htiles.countP key).trans ?_
        simp

section Scan

variable {api : DuckdbApi} {bind : ScanBindData} {columnIds : List Nat} {filters : List (Nat × TableFilter)}
  {S : Server} {D : DuckDb} {cid : Nat}

variable (api bind columnIds filters) in
/-- The filters that are pushed. -/
def ScanBindData.pushedFilters : List (Nat × TableFilter) :=
  filters.filter ((bind.buildArgs columnIds {}).pushes api)

/-- The row passes every filter. -/
def passesAll (D : DuckDb) (columnIds : List Nat) (filters : List (Nat × TableFilter)) (row : SourceRow) : Bool :=
  filters.all fun entry => (columnIds[entry.1]?).all fun src => decide (D.filter (row src) entry.2 = .true)

theorem passesAll_iff {row : SourceRow} :
    passesAll D columnIds filters row = true ↔ ∀ entry ∈ filters, Passes D (bind.buildArgs columnIds {}) row entry := by
  simp [passesAll, Passes, ScanBindData.buildArgs, Option.all_eq_true]

/-- The rows of one partition. -/
theorem partition_reads (hextra : bind.extraPredicates = []) (hlimit : bind.limitOverride = none)
    (hcast : ∀ entry ∈ bind.pushedFilters api columnIds filters, entry.2.castFree = true)
    (hkey : bind.KeyAt cid) {spec : PartitionSpec} (hspec : spec.InRange bind)
    (hnames : bind.pk = none ∨ bind.pushedFilters api columnIds filters ≠ [] ∨
      ∀ name ∈ (bind.buildArgs columnIds {}).names, ¬Mentions name) :
    ∃ holds, Reads S (bind.buildArgs columnIds spec) (bind.partitionQuery api columnIds filters spec) holds ∧
      ∀ (row : SourceRow) (key : Int),
        (∀ entry ∈ bind.pushedFilters api columnIds filters, AgreesOn S D (bind.buildArgs columnIds {}) row entry) →
        (bind.pk.isSome = true → IsKey S cid row key) →
        holds row = (passesAll D columnIds (bind.pushedFilters api columnIds filters) row && spec.selects key) := by
  have hmem {P : Nat × TableFilter → Prop} : (∀ entry ∈ bind.pushedFilters api columnIds filters, P entry) ↔
      ∀ entry ∈ filters, (bind.buildArgs columnIds {}).pushes api entry = true → P entry := by
    unfold ScanBindData.pushedFilters
    simp only [List.mem_filter, and_imp]
  have hnames' : spec.range = none ∨ (∃ entry ∈ filters, (bind.buildArgs columnIds {}).pushes api entry = true) ∨
      ∀ name ∈ (bind.buildArgs columnIds {}).names, ¬Mentions name := by
    rcases hnames with hpk | hpushed | hclean
    · left
      cases hrange : spec.range with
      | none => rfl
      | some range =>
          have hsome := (hspec range hrange).1
          rw [hpk] at hsome
          cases hsome
    · obtain ⟨entry, hentry⟩ := List.exists_mem_of_ne_nil _ hpushed
      exact .inr (.inl ⟨entry, List.mem_filter.mp hentry⟩)
    · exact .inr (.inr hclean)
  obtain ⟨parts, hsaid, hreads⟩ := statement_reads (S := S) (D := D) hextra hlimit (hmem.mp hcast) hkey hspec hnames'
  refine ⟨_, hreads, fun row key hagree hrow => ?_⟩
  rw [List.all_append]
  refine congrArg₂ and ?_ ?_
  · -- the conditions
    rw [Bool.eq_iff_iff, @passesAll_iff bind columnIds _ D row, hmem, ← hsaid.truth row (hmem.mp hagree),
      List.all_eq_true]
    simp only [decide_eq_true_eq]
  · -- the range
    unfold PartitionSpec.conjuncts PartitionSpec.selects
    cases hrange : spec.range with
    | none => rfl
    | some range =>
        obtain ⟨hpk, hlo, hlohi, hhi⟩ := hspec range hrange
        have htruth := rangeConjunct_truth (hrow hpk) hlo hlohi hhi
        rw [Bool.eq_iff_iff]
        simpa using htruth

end Scan

/-! ## All workers -/

/-- **What a scan delivers.** Each partition's statement is read as a condition, and when every worker has returned
    an empty chunk, whatever the schedule, the rows of all chunks are the rows that pass every filter that was
    pushed and have their key between the bounds of the bind. So the scan delivers what one cursor without a key
    range would, exactly as long as no row that passes has a key outside these bounds. -/
theorem scan_delivers (S : Server) (D : DuckDb) (api : DuckdbApi) (hw : UInt32) (partitions : PartitionsOverride)
    {bind : ScanBindData} {columnIds : List Nat} {filters : List (Nat × TableFilter)} {cid : Nat}
    {queue : List PartitionSpec} (hqueue : initPartitions hw partitions bind.pk = some queue)
    (hextra : bind.extraPredicates = []) (hlimit : bind.limitOverride = none)
    (hcast : ∀ entry ∈ bind.pushedFilters api columnIds filters, entry.2.castFree = true)
    (hkey : bind.KeyAt cid)
    (hnames : bind.pk = none ∨ bind.pushedFilters api columnIds filters ≠ [] ∨
      ∀ name ∈ (bind.buildArgs columnIds {}).names, ¬Mentions name) :
    ∃ holds : PartitionSpec → SourceRow → Bool,
      (∀ spec ∈ queue, Reads S (bind.buildArgs columnIds spec) (bind.partitionQuery api columnIds filters spec)
        (holds spec)) ∧
      ∀ (content : List SourceRow) (keyOf : SourceRow → Int),
        (∀ row ∈ content, (∀ entry ∈ bind.pushedFilters api columnIds filters,
            AgreesOn S D (bind.buildArgs columnIds {}) row entry) ∧
          (bind.pk.isSome = true → IsKey S cid row (keyOf row))) →
        ∀ rowsOf : PartitionSpec → List SourceRow,
          (∀ spec ∈ queue, (rowsOf spec).Perm (content.filter (holds spec))) →
          ∀ (movedFrom : PartitionSpec) (target : Nat), 0 < target →
            ∀ (workers : Nat) (schedule : List (Fin (workers + 1))),
              Finished (reached rowsOf movedFrom target queue schedule) →
              emitted (reached rowsOf movedFrom target queue schedule) =
                (content.filter fun row => passesAll D columnIds (bind.pushedFilters api columnIds filters) row &&
                  bind.inBounds (keyOf row) : List SourceRow) ∧
              (emitted (reached rowsOf movedFrom target queue schedule) =
                  (content.filter (passesAll D columnIds (bind.pushedFilters api columnIds filters)) :
                    List SourceRow) ↔
                ∀ row ∈ content, passesAll D columnIds (bind.pushedFilters api columnIds filters) row = true →
                  bind.inBounds (keyOf row) = true) := by
  obtain ⟨hrange, hcount⟩ := initPartitions_countP hqueue
  have hstatement (spec : PartitionSpec) (hspec : spec ∈ queue) :=
    @partition_reads api bind columnIds filters S D cid hextra hlimit hcast hkey spec (hrange spec hspec) hnames
  choose! holds hreads hholds using hstatement
  refine ⟨holds, hreads, ?_⟩
  intro content keyOf hcontent rowsOf hrows movedFrom target htarget workers schedule hdone
  have hall : emitted (reached rowsOf movedFrom target queue schedule) =
      (content.filter fun row => passesAll D columnIds (bind.pushedFilters api columnIds filters) row &&
        bind.inBounds (keyOf row) : List SourceRow) := by
    rw [((run_inv rowsOf movedFrom htarget queue schedule).finished hdone).2]
    refine Multiset.coe_eq_coe.mpr ((List.Perm.flatMap_left queue hrows).trans ?_)
    refine Tiling.flatMap_filter_perm fun row hrow => ?_
    obtain ⟨hagree, hiskey⟩ := hcontent row hrow
    -- a row that passes is in the partitions that have its key
    have hsame : queue.countP (fun spec => holds spec row) = queue.countP fun spec =>
        passesAll D columnIds (bind.pushedFilters api columnIds filters) row && spec.selects (keyOf row) :=
      List.countP_congr fun spec hspec => by rw [hholds spec hspec row (keyOf row) hagree hiskey]
    rw [hsame]
    cases passesAll D columnIds (bind.pushedFilters api columnIds filters) row with
    | true => simpa using hcount (keyOf row)
    | false => simp
  refine ⟨hall, ?_⟩
  -- the rows that pass, with those outside the bounds or without them
  rw [hall]
  have hsplit : (content.filter fun row => passesAll D columnIds (bind.pushedFilters api columnIds filters) row &&
      bind.inBounds (keyOf row)) =
      (content.filter (passesAll D columnIds (bind.pushedFilters api columnIds filters))).filter
        fun row => bind.inBounds (keyOf row) := by
    rw [List.filter_filter]
    exact List.filter_congr fun row _ => Bool.and_comm _ _
  rw [hsplit, Multiset.coe_eq_coe]
  constructor
  · intro hperm row hrow hpass
    have hself := List.filter_sublist.eq_of_length hperm.length_eq
    exact List.filter_eq_self.mp hself row (List.mem_filter.mpr ⟨hrow, hpass⟩)
  · intro hin
    rw [List.filter_eq_self.mpr fun row hrow => hin row (List.mem_filter.mp hrow).1 (List.mem_filter.mp hrow).2]

/-- The keys `1 … 10`. -/
def tenKeys : PrimaryKeyInfo where
  column := utf8 "ID"
  minValue := 1
  maxValue := 10
  min_int64 := by decide
  min_lt_max := by decide
  max_int64 := by decide

/-- A table with an integer key, and a column whose name begins like the keyword. -/
def keyedTable : ScanBindData where
  columnNames := [utf8 "ID", utf8 "WHERE NOW"]
  columnDescs := [{ name := utf8 "ID", sqltype := .int64 }, { name := utf8 "WHERE NOW", sqltype := .int64 }]
  tableName := utf8 "T"
  pk := some tenKeys

/-- The integer of an `INTEGER` or a `BIGINT`. -/
def integral : Value → Int
  | .integer n => n.toInt
  | .bigint n => n.toInt
  | _ => 0

/-- A server that compares integers as integers. -/
def integerServer : Server where
  compare op a b := op.holds (integral a) (integral b)
  one_ne_zero := by decide

/-- Its queue for two partitions. -/
def keyedQueue : List PartitionSpec := [⟨some (1, 5)⟩, ⟨some (6, 10)⟩]

theorem scan_delivers_keyedTable :
    ∃ holds : PartitionSpec → SourceRow → Bool,
      (∀ spec ∈ keyedQueue, Reads integerServer (keyedTable.buildArgs [0, 1] spec)
        (keyedTable.partitionQuery .v1_5 [0, 1] [(1, .isNotNull)] spec) (holds spec)) ∧
      ∀ (content : List SourceRow) (keyOf : SourceRow → Int),
        (∀ row ∈ content, (∀ entry ∈ keyedTable.pushedFilters .v1_5 [0, 1] [(1, .isNotNull)],
            AgreesOn integerServer calendarDuckDb (keyedTable.buildArgs [0, 1] {}) row entry) ∧
          (keyedTable.pk.isSome = true → IsKey integerServer 0 row (keyOf row))) →
        ∀ rowsOf : PartitionSpec → List SourceRow,
          (∀ spec ∈ keyedQueue, (rowsOf spec).Perm (content.filter (holds spec))) →
          ∀ (movedFrom : PartitionSpec) (target : Nat), 0 < target →
            ∀ (workers : Nat) (schedule : List (Fin (workers + 1))),
              Finished (reached rowsOf movedFrom target keyedQueue schedule) →
              emitted (reached rowsOf movedFrom target keyedQueue schedule) =
                (content.filter fun row =>
                  passesAll calendarDuckDb [0, 1] (keyedTable.pushedFilters .v1_5 [0, 1] [(1, .isNotNull)]) row &&
                    keyedTable.inBounds (keyOf row) : List SourceRow) ∧
              (emitted (reached rowsOf movedFrom target keyedQueue schedule) =
                  (content.filter (passesAll calendarDuckDb [0, 1]
                    (keyedTable.pushedFilters .v1_5 [0, 1] [(1, .isNotNull)])) : List SourceRow) ↔
                ∀ row ∈ content,
                  passesAll calendarDuckDb [0, 1] (keyedTable.pushedFilters .v1_5 [0, 1] [(1, .isNotNull)]) row =
                    true → keyedTable.inBounds (keyOf row) = true) := by
  have hkey : keyedTable.KeyAt 0 := by
    intro pk hpk
    obtain rfl := Option.some.inj hpk
    exact ⟨rfl, fun desc hdesc => by obtain rfl := Option.some.inj hdesc; rfl⟩
  have hranges : keyRanges 8 ⟨2, by decide⟩ tenKeys = some [(1, 5), (6, 10)] := by decide +kernel
  have hqueue : initPartitions 8 ⟨2, by decide⟩ keyedTable.pk = some keyedQueue :=
    congrArg (Option.map fun ranges : List (Int × Int) => ranges.map fun r => (⟨some r⟩ : PartitionSpec)) hranges
  exact scan_delivers integerServer calendarDuckDb .v1_5 8 ⟨2, by decide⟩ hqueue rfl rfl (by decide) hkey
    (.inr (.inl (by simp [ScanBindData.pushedFilters]; decide)))

end FirebirdScan
