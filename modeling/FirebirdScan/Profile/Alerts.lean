import FirebirdScan.Profile.PartitionSizing

/-!
# `Profile.Alerts` — one class for every table

Seven of the alert codes say what a scan of the relation is like, and a profile should have exactly one of them. Each
section of `BuildProfile` is followed on the list of codes: the section on the risk adds one class
(`profileView_codes`, `profileRange_codes`, `profileSerial_codes`), and the later ones add none.

A primary key whose columns could not be read makes the section on the risk read the first of no columns
(`buildProfile_classified_iff`).
-/

namespace FirebirdScan

open TableProfile

/-! ## Codes -/

/-- The codes of which a profile has one. -/
def classCodes : List AlertCode :=
  [.viewNoScanLever, .partitionAdvisory, .pkRangeSmallSerial, .noPrimaryKey, .compositePkSerial,
    .numericPkNoRangeSerial, .nonNumericPkSerial]

/-- The advice on a base table with a high risk. -/
def adviceCodes : List AlertCode := [.filterBeforeScan, .materializeBeforeScan]

/-- The number of alerts with one of the codes. -/
def TableProfile.count (p : TableProfile) (codes : List AlertCode) : Nat :=
  p.codes.countP fun c => decide (c ∈ codes)

/-- The profile has one class; the partitions that it recommends are more than one exactly with the advisory; and it
    has one piece of advice exactly if it is of a base table with a high risk. -/
structure ClassifiedOnce (isView : Bool) (p : TableProfile) : Prop where
  one_class : p.count classCodes = 1
  advisory : 1 < p.recommendedPartitions.toInt ↔ AlertCode.partitionAdvisory ∈ p.codes
  advice : p.count adviceCodes = if isView = false ∧ p.fullScanRisk = .high then 1 else 0

section Codes

variable (p : TableProfile) (code : AlertCode) (severity : Severity) (message : Bytes)

@[simp] theorem codes_addAlert : (p.addAlert code severity message).codes = p.codes ++ [code] := by
  unfold addAlert codes
  rw [List.map_append]
  rfl

@[simp] theorem risk_addAlert : (p.addAlert code severity message).fullScanRisk = p.fullScanRisk := rfl

@[simp] theorem partitions_addAlert :
    (p.addAlert code severity message).recommendedPartitions = p.recommendedPartitions := rfl

@[simp] theorem filterCandidates_addAlert :
    (p.addAlert code severity message).filterCandidates = p.filterCandidates := rfl

end Codes

/-- `p'` differs from `p` in alerts that are neither a class nor advice. -/
structure Annotates (p p' : TableProfile) : Prop where
  risk : p'.fullScanRisk = p.fullScanRisk
  partitions : p'.recommendedPartitions = p.recommendedPartitions
  added : ∃ cs, p'.codes = p.codes ++ cs ∧ ∀ c ∈ cs, c ∉ classCodes ∧ c ∉ adviceCodes

namespace Annotates

theorem refl (p : TableProfile) : Annotates p p :=
  ⟨rfl, rfl, [], (List.append_nil _).symm, List.forall_mem_nil _⟩

theorem trans {p q r : TableProfile} (h : Annotates p q) (h' : Annotates q r) : Annotates p r := by
  obtain ⟨cs, hcs, hout⟩ := h.added
  obtain ⟨ds, hds, hout'⟩ := h'.added
  refine ⟨h'.risk.trans h.risk, h'.partitions.trans h.partitions, cs ++ ds, ?_, ?_⟩
  · rw [hds, hcs, List.append_assoc]
  · exact List.forall_mem_append.mpr ⟨hout, hout'⟩

theorem alert (p : TableProfile) {code : AlertCode} (severity : Severity) (message : Bytes)
    (hcode : code ∉ classCodes ∧ code ∉ adviceCodes) : Annotates p (p.addAlert code severity message) := by
  refine ⟨rfl, rfl, [code], codes_addAlert p code severity message, ?_⟩
  intro c hc
  rw [List.mem_singleton.mp hc]
  exact hcode

/-- An alert that is added in one case. -/
theorem ite {b : Prop} {_ : Decidable b} {p p' : TableProfile} (h : Annotates p p') :
    Annotates p (if b then p' else p) := by
  split_ifs
  · exact h
  · exact refl p

variable {p p' : TableProfile}

theorem count_eq (h : Annotates p p') {codes : List AlertCode} (hcodes : codes = classCodes ∨ codes = adviceCodes) :
    p'.count codes = p.count codes := by
  obtain ⟨cs, hcs, hout⟩ := h.added
  have hnone : cs.countP (fun c => decide (c ∈ codes)) = 0 := by
    rw [List.countP_eq_zero]
    intro c hc
    rw [decide_eq_true_eq]
    rcases hcodes with rfl | rfl
    · exact (hout c hc).1
    · exact (hout c hc).2
  unfold TableProfile.count
  rw [hcs, List.countP_append, hnone, Nat.add_zero]

theorem mem_iff (h : Annotates p p') {c : AlertCode} (hc : c ∈ classCodes) : c ∈ p'.codes ↔ c ∈ p.codes := by
  obtain ⟨cs, hcs, hout⟩ := h.added
  rw [hcs, List.mem_append]
  constructor
  · rintro (hmem | hmem)
    · exact hmem
    · exact absurd hc (hout c hmem).1
  · exact Or.inl

/-- The later sections leave the classification as it is. -/
theorem classifiedOnce_iff (h : Annotates p p') (isView : Bool) :
    ClassifiedOnce isView p' ↔ ClassifiedOnce isView p := by
  have hclass := h.count_eq (Or.inl rfl)
  have hadvice := h.count_eq (Or.inr rfl)
  have hmem := h.mem_iff (show AlertCode.partitionAdvisory ∈ classCodes by decide)
  constructor
  · rintro ⟨hone, hadvisory, hadv⟩
    rw [hclass] at hone
    rw [h.partitions, hmem] at hadvisory
    rw [hadvice, h.risk] at hadv
    exact ⟨hone, hadvisory, hadv⟩
  · rintro ⟨hone, hadvisory, hadv⟩
    rw [← hclass] at hone
    rw [← h.partitions, ← hmem] at hadvisory
    rw [← hadvice, ← h.risk] at hadv
    exact ⟨hone, hadvisory, hadv⟩

end Annotates

/-! ## The sections -/

section Sections

variable (server : ProfileServer) (upper : Bytes) (columns : TableColumns) (isView : Bool) {p : TableProfile}

/-- The exact count is no class. -/
theorem countRows_annotates (p : TableProfile) : Annotates p (countRows server upper p) := by
  have hcode : .exactCountExecuted ∉ classCodes ∧ .exactCountExecuted ∉ adviceCodes := by decide
  unfold countRows
  rcases server.answer (.rowCount upper) with error | _ | _ | n
  · exact .refl p
  · exact .refl p
  · exact .refl p
  · -- the new estimate is none of what is compared
    have hestimate : Annotates p { p with estimatedRows := n, rowEstimateMethod := .exactCount } :=
      ⟨rfl, rfl, [], (List.append_nil _).symm, List.forall_mem_nil _⟩
    exact hestimate.trans (.alert _ .low _ hcode)

theorem addCaveats_annotates (p : TableProfile) : Annotates p (addCaveats columns isView p) := by
  have hfilter : .noIndexedFilterColumns ∉ classCodes ∧ .noIndexedFilterColumns ∉ adviceCodes := by decide
  have hcharset : .noneCharsetTextColumns ∉ classCodes ∧ .noneCharsetTextColumns ∉ adviceCodes := by decide
  unfold addCaveats
  exact .trans (.ite (.alert p .medium _ hfilter)) (.ite (.alert _ .medium _ hcharset))

/-- One more alert, with a code of the advice: the classes stay as they were, and it is the only advice. -/
theorem count_append_advice {q : TableProfile} (hadvice : p.count adviceCodes = 0) (hcode : code ∈ adviceCodes)
    (hq : q.codes = p.codes ++ [code]) :
    q.count classCodes = p.count classCodes ∧ q.count adviceCodes = 1 ∧
      (AlertCode.partitionAdvisory ∈ q.codes ↔ AlertCode.partitionAdvisory ∈ p.codes) := by
  have hclass : code ∉ classCodes := by
    rcases List.mem_pair.mp hcode with rfl | rfl <;> decide
  have hother : AlertCode.partitionAdvisory ≠ code := by
    rintro rfl
    exact absurd hcode (by decide)
  unfold TableProfile.count at hadvice ⊢
  rw [hq, List.countP_append, List.countP_append, hadvice, List.countP_singleton, List.countP_singleton,
    List.mem_append, List.mem_singleton]
  simp only [hclass, hcode, hother, decide_true, decide_false, if_true, Bool.false_eq_true, if_false, or_false,
    Nat.add_zero, Nat.zero_add, and_self]

/-- A table at high risk gets one alert, with one of the two codes of the advice, and nothing else. -/
theorem addRecommendation_high (hrisk : p.fullScanRisk = .high) :
    ∃ code ∈ adviceCodes, (addRecommendation false p).codes = p.codes ++ [code] ∧
      (addRecommendation false p).fullScanRisk = p.fullScanRisk ∧
      (addRecommendation false p).recommendedPartitions = p.recommendedPartitions := by
  have htest : (!false && decide (p.fullScanRisk = .high)) = true := by
    rw [hrisk]
    rfl
  unfold addRecommendation
  rw [if_pos htest]
  dsimp only
  split_ifs
  · exact ⟨.filterBeforeScan, by decide, codes_addAlert _ _ _ _, rfl, rfl⟩
  · exact ⟨.materializeBeforeScan, by decide, codes_addAlert _ _ _ _, rfl, rfl⟩

/-- Every other relation gets none. -/
theorem addRecommendation_of_not_high (h : ¬(isView = false ∧ p.fullScanRisk = .high)) :
    addRecommendation isView p = p := by
  have htest : ¬(!isView && decide (p.fullScanRisk = .high)) = true := by
    rw [Bool.and_eq_true, Bool.not_eq_true', decide_eq_true_eq]
    exact h
  unfold addRecommendation
  rw [if_neg htest]

/-- The advice is the only one, if there was none. -/
theorem addRecommendation_classified (hadvice : p.count adviceCodes = 0) :
    ClassifiedOnce isView (addRecommendation isView p) ↔
      p.count classCodes = 1 ∧ (1 < p.recommendedPartitions.toInt ↔ AlertCode.partitionAdvisory ∈ p.codes) := by
  by_cases hhigh : isView = false ∧ p.fullScanRisk = .high
  · obtain ⟨rfl, hrisk⟩ := hhigh
    obtain ⟨code, hcode, hcodes, hsame, hparts⟩ := addRecommendation_high hrisk
    obtain ⟨hclass, hone, hmem⟩ := count_append_advice hadvice hcode hcodes
    rw [← hclass, ← hmem, ← hparts]
    constructor
    · intro h
      exact ⟨h.one_class, h.advisory⟩
    · rintro ⟨hclassOne, hadvisory⟩
      refine ⟨hclassOne, hadvisory, ?_⟩
      rw [if_pos ⟨rfl, hsame.trans hrisk⟩]
      exact hone
  · rw [addRecommendation_of_not_high isView hhigh]
    constructor
    · intro h
      exact ⟨h.one_class, h.advisory⟩
    · rintro ⟨hclassOne, hadvisory⟩
      refine ⟨hclassOne, hadvisory, ?_⟩
      rw [if_neg hhigh]
      exact hadvice

/-! ### The risk -/

/-- The shape of a view is no class either. -/
theorem addViewShape_annotates (va : ViewAnalysis) (p : TableProfile) : Annotates p (addViewShape va p) := by
  have hjoin : .viewContainsJoin ∉ classCodes ∧ .viewContainsJoin ∉ adviceCodes := by decide
  have haggregate : .viewContainsAggregation ∉ classCodes ∧ .viewContainsAggregation ∉ adviceCodes := by decide
  have hfilter : .viewNoFilter ∉ classCodes ∧ .viewNoFilter ∉ adviceCodes := by decide
  unfold addViewShape
  exact .trans (.ite (.alert p .high _ hjoin)) (.trans (.ite (.alert _ .high _ haggregate))
    (.ite (.alert _ .medium _ hfilter)))

/-- A view has its class, and is read serially. -/
theorem profileView_codes (p : TableProfile) :
    ∃ cs, (profileView server upper p).codes = p.codes ++ .viewNoScanLever :: cs ∧
      (∀ c ∈ cs, c ∉ classCodes ∧ c ∉ adviceCodes) ∧ (profileView server upper p).recommendedPartitions = 1 := by
  have hunread : .viewDefinitionNotInspected ∉ classCodes ∧ .viewDefinitionNotInspected ∉ adviceCodes := by decide
  have hannotates : ∃ message, Annotates
      ({ p with fullScanRisk := .high, recommendedPartitions := 1 }.addAlert .viewNoScanLever .high message)
      (profileView server upper p) := by
    unfold profileView
    dsimp only
    split_ifs
    · exact ⟨_, .alert _ .medium _ hunread⟩
    · exact ⟨_, addViewShape_annotates _ _⟩
  obtain ⟨message, hannotates⟩ := hannotates
  obtain ⟨cs, hcs, hout⟩ := hannotates.added
  refine ⟨cs, ?_, hout, hannotates.partitions⟩
  rw [hcs, codes_addAlert, List.append_assoc]
  rfl

/-- A table with a key range, where its width is an `int64_t`: the advisory if there is more than one partition. -/
theorem profileRange_codes (hw : UInt32) {pk : PrimaryKeyInfo} (hwidth : pk.maxValue - pk.minValue + 1 < 2 ^ 63)
    (p : TableProfile) :
    ∃ p' cs, profileRange hw pk p = .ok p' ∧ p'.codes = p.codes ++ cs ∧
      p'.recommendedPartitions = Int32.ofNat (partitionsFor (concurrency hw) (pk.maxValue - pk.minValue + 1)) ∧
      cs = if partitionsFor (concurrency hw) (pk.maxValue - pk.minValue + 1) > 1 then
          [.partitionAdvisory, .serverParallelismCaveat]
        else [.pkRangeSmallSerial] := by
  unfold profileRange
  rw [pickPartitionCount_eq pk.min_lt_max hwidth, rangeEstimate_eq pk.min_lt_max hwidth]
  dsimp only
  split_ifs with hparts
  · refine ⟨_, _, rfl, ?_, rfl, rfl⟩
    rw [codes_addAlert, codes_addAlert, List.append_assoc]
    rfl
  · refine ⟨_, _, rfl, ?_, rfl, rfl⟩
    rw [codes_addAlert]
    rfl

/-- A table without a key range has a class, if there is no key or its first column is known. -/
theorem profileSerial_codes (p : TableProfile) :
    (p.hasPrimaryKey = true ∧ p.primaryKeyColumns = [] ∧ profileSerial columns p = .error .undefined) ∨
      (¬(p.hasPrimaryKey = true ∧ p.primaryKeyColumns = []) ∧
        ∃ p' code, profileSerial columns p = .ok p' ∧ p'.codes = p.codes ++ [code] ∧ p'.recommendedPartitions = 1 ∧
          code ∈ classCodes ∧ code ≠ .partitionAdvisory) := by
  unfold profileSerial
  dsimp only
  cases hkey : p.hasPrimaryKey with
  | false =>
      refine .inr ⟨fun h => Bool.false_ne_true h.1, _, .noPrimaryKey, rfl, ?_, rfl, by decide, by decide⟩
      rw [codes_addAlert]
      rfl
  | true =>
      cases hcols : p.primaryKeyColumns with
      | nil => exact .inl ⟨rfl, rfl, rfl⟩
      | cons pkCol rest =>
          refine .inr ⟨fun h => List.cons_ne_nil _ _ h.2, ?_⟩
          rw [if_neg (show ¬(!true) = true by decide)]
          by_cases hcomposite : (pkCol :: rest).length > 1
          · rw [if_pos hcomposite]
            refine ⟨_, .compositePkSerial, rfl, ?_, rfl, by decide, by decide⟩
            rw [codes_addAlert]
            rfl
          · rw [if_neg hcomposite]
            dsimp only
            split_ifs
            · refine ⟨_, .numericPkNoRangeSerial, rfl, ?_, rfl, by decide, by decide⟩
              rw [codes_addAlert]
              rfl
            · refine ⟨_, .nonNumericPkSerial, rfl, ?_, rfl, by decide, by decide⟩
              rw [codes_addAlert]
              rfl

end Sections

/-! ## The primary key of the index list -/

/-- The last index that backs a primary key. -/
def lastPkIndex (indexes : List IndexMeta) : Option IndexMeta := (indexes.filter IndexMeta.isPk).getLast?

/-- The loop over the indexes takes the key columns from the last one of them, and adds no alert. -/
theorem foldl_addIndex (indexes : List IndexMeta) (p : TableProfile) :
    (indexes.foldl addIndex p).codes = p.codes ∧
      (indexes.foldl addIndex p).hasPrimaryKey = (p.hasPrimaryKey || (lastPkIndex indexes).isSome) ∧
      (indexes.foldl addIndex p).primaryKeyColumns =
        ((lastPkIndex indexes).map IndexMeta.columns).getD p.primaryKeyColumns := by
  induction indexes using List.reverseRecOn with
  | nil => exact ⟨rfl, (Bool.or_false _).symm, rfl⟩
  | append_singleton indexes idx ih =>
      obtain ⟨hcodes, hkey, hcols⟩ := ih
      rw [List.foldl_append, List.foldl_cons, List.foldl_nil]
      unfold addIndex lastPkIndex
      rw [List.filter_append]
      dsimp only
      by_cases hpk : idx.isPk = true
      · have hlast : (indexes.filter IndexMeta.isPk ++ [idx].filter IndexMeta.isPk).getLast? = some idx := by
          rw [List.filter_cons_of_pos hpk]
          exact List.getLast?_concat
        rw [if_pos hpk, hlast]
        exact ⟨hcodes, (Bool.or_true _).symm, rfl⟩
      · have hlast : indexes.filter IndexMeta.isPk ++ [idx].filter IndexMeta.isPk =
            indexes.filter IndexMeta.isPk := by
          rw [List.filter_cons_of_neg hpk, List.filter_nil, List.append_nil]
        rw [if_neg hpk, hlast]
        exact ⟨hcodes, hkey, hcols⟩

/-- The profile in front of the risk has no alerts, and the key of the index list. -/
theorem describedProfile_key (server : ProfileServer) (upper : Bytes) {objectType : Bytes} (columns : TableColumns)
    (hbase : objectType ≠ utf8 "VIEW") :
    (describedProfile server upper objectType columns).hasPrimaryKey =
        (lastPkIndex (loadIndexes server upper)).isSome ∧
      (describedProfile server upper objectType columns).primaryKeyColumns =
        ((lastPkIndex (loadIndexes server upper)).map IndexMeta.columns).getD [] := by
  have hview : decide (objectType = utf8 "VIEW") = false := decide_eq_false hbase
  obtain ⟨-, hkey, hcols⟩ := foldl_addIndex (loadIndexes server upper) { tableName := upper, objectType }
  unfold describedProfile addCandidates
  rw [hview]
  exact ⟨hkey.trans (Bool.false_or _), hcols⟩

theorem describedProfile_codes (server : ProfileServer) (upper objectType : Bytes) (columns : TableColumns) :
    (describedProfile server upper objectType columns).codes = [] := by
  unfold describedProfile addCandidates
  exact (foldl_addIndex _ { tableName := upper, objectType }).1

/-! ## The classification -/

/-- What the classification needs of a base table. With a key range: its width is an `int64_t`, and its partitions
    are an `int32_t`. Without one: if an index backs a primary key, the columns of the last such index are known. -/
def Classifiable (hw : UInt32) (server : ProfileServer) (upper : Bytes) (columns : TableColumns) : Prop :=
  match probePrimaryKey server.probe upper columns.names columns.types with
  | some pk =>
      pk.maxValue - pk.minValue + 1 < 2 ^ 63 ∧
        partitionsFor (concurrency hw) (pk.maxValue - pk.minValue + 1) < 2 ^ 31
  | none => ∀ idx ∈ lastPkIndex (loadIndexes server upper), idx.columns ≠ []

section Risk

variable {hw : UInt32} {p p' : TableProfile}

/-- The number of partitions is shown as it is, if it is an `int32_t`; a larger one is shown as negative. -/
theorem shown_partitions {n : Nat} (hpos : 1 ≤ n) (hlt : n < 2 ^ 32) :
    (1 < (Int32.ofNat n).toInt ↔ n > 1) ↔ n < 2 ^ 31 := by
  by_cases hsmall : n < 2 ^ 31
  · have hto : (Int32.ofNat n).toInt = n := Int32.toInt_ofNat_of_lt hsmall
    rw [hto]
    exact ⟨fun _ => hsmall, fun _ => by omega⟩
  · have hto : (Int32.ofNat n).toInt = (n : Int).bmod (2 ^ 32) := Int32.toInt_ofNat
    have hneg : (n : Int).bmod (2 ^ 32) < 0 := by
      rw [Int.bmod_def]
      split_ifs <;> omega
    rw [hto]
    constructor
    · intro h
      have hone := h.mpr (by omega)
      omega
    · intro h
      exact absurd h hsmall

theorem partitionsFor_lt (hw : UInt32) (width : Int) : partitionsFor (concurrency hw) width < 2 ^ 32 := by
  have hle := partitionsFor_le (concurrency hw) width
  have hhw := hw.toNat_lt
  have hconcurrency : concurrency hw < 2 ^ 32 := by
    unfold concurrency
    split_ifs <;> omega
  omega

/-- A profile with a single class, and no advice yet. -/
theorem classified_of_codes {cs : List AlertCode} {code : AlertCode} (hcodes : p.codes = code :: cs)
    (hcode : code ∈ classCodes) (hrest : ∀ c ∈ cs, c ∉ classCodes ∧ c ∉ adviceCodes) :
    p.count classCodes = 1 ∧ p.count adviceCodes = 0 ∧
      (AlertCode.partitionAdvisory ∈ p.codes ↔ code = .partitionAdvisory) := by
  have hclassNone : cs.countP (fun c => decide (c ∈ classCodes)) = 0 :=
    List.countP_eq_zero.mpr fun c hc => by simpa using (hrest c hc).1
  have hadviceNone : cs.countP (fun c => decide (c ∈ adviceCodes)) = 0 :=
    List.countP_eq_zero.mpr fun c hc => by simpa using (hrest c hc).2
  have hadvice : code ∉ adviceCodes := by
    intro hmem
    rcases List.mem_pair.mp hmem with rfl | rfl <;> exact absurd hcode (by decide)
  have hcs : AlertCode.partitionAdvisory ∉ cs := fun hmem => (hrest _ hmem).1 (by decide)
  unfold TableProfile.count
  rw [hcodes, List.countP_cons_of_pos (by simpa using hcode), List.countP_cons_of_neg (by simpa using hadvice),
    hclassNone, hadviceNone, List.mem_cons]
  refine ⟨rfl, rfl, ?_⟩
  constructor
  · rintro (h | h)
    · exact h.symm
    · exact absurd h hcs
  · rintro rfl
    exact .inl rfl

/-- What the section on the risk comes to. It has no result for a table that cannot be classified; otherwise its profile
    has one class, and no advice yet. -/
def RiskOutcome (outcome : Except ProfileFailure TableProfile) (classifiable : Prop) : Prop :=
  (outcome = .error .undefined ∧ ¬classifiable) ∨
    ∃ p code cs, outcome = .ok p ∧ p.codes = code :: cs ∧ code ∈ classCodes ∧
      (∀ c ∈ cs, c ∉ classCodes ∧ c ∉ adviceCodes) ∧
      ((1 < p.recommendedPartitions.toInt ↔ code = .partitionAdvisory) ↔ classifiable)

/-- A view is classified whatever else is read. -/
theorem profileView_outcome (server : ProfileServer) (upper : Bytes) (hcodes : p.codes = []) :
    RiskOutcome (.ok (profileView server upper p)) True := by
  obtain ⟨cs, hcs, hrest, hparts⟩ := profileView_codes server upper p
  rw [hcodes, List.nil_append] at hcs
  refine .inr ⟨_, _, _, rfl, hcs, by decide, hrest, iff_of_true ?_ trivial⟩
  rw [hparts]
  exact iff_of_false (by decide) (by decide)

/-- A range that is too wide has no estimate. -/
theorem profileRange_undefined {pk : PrimaryKeyInfo} (hwidth : ¬pk.maxValue - pk.minValue + 1 < 2 ^ 63) :
    profileRange hw pk p = .error .undefined := by
  have hestimate : rangeEstimate pk.minValue pk.maxValue = none := by
    rw [Option.eq_none_iff_forall_ne_some]
    intro estimate h
    exact hwidth (rangeEstimate_width h)
  unfold profileRange
  rw [hestimate]
  rcases pickPartitionCount hw pk.minValue pk.maxValue with _ | _ <;> rfl

/-- A table with a key range. -/
theorem profileRange_outcome (hw : UInt32) (pk : PrimaryKeyInfo) (hcodes : p.codes = []) :
    RiskOutcome (profileRange hw pk p) (pk.maxValue - pk.minValue + 1 < 2 ^ 63 ∧
      partitionsFor (concurrency hw) (pk.maxValue - pk.minValue + 1) < 2 ^ 31) := by
  by_cases hwidth : pk.maxValue - pk.minValue + 1 < 2 ^ 63
  · obtain ⟨p', cs, hp', hcs, hparts, hcase⟩ := profileRange_codes hw hwidth p
    have hshown := shown_partitions (partitionsFor_pos (concurrency_pos hw) (pk.maxValue - pk.minValue + 1))
      (partitionsFor_lt hw (pk.maxValue - pk.minValue + 1))
    rw [hcodes, List.nil_append] at hcs
    rw [and_iff_right hwidth, ← hshown, ← hparts]
    split_ifs at hcase with hparallel
    · refine .inr ⟨p', _, _, hp', hcs.trans hcase, by decide, by decide, ?_⟩
      exact iff_congr Iff.rfl (iff_of_true rfl hparallel)
    · refine .inr ⟨p', _, _, hp', hcs.trans hcase, by decide, by decide, ?_⟩
      exact iff_congr Iff.rfl (iff_of_false (by decide) hparallel)
  · exact .inl ⟨profileRange_undefined hwidth, fun h => hwidth h.1⟩

/-- A table without one. -/
theorem profileSerial_outcome (columns : TableColumns) (hcodes : p.codes = []) :
    RiskOutcome (profileSerial columns p) ¬(p.hasPrimaryKey = true ∧ p.primaryKeyColumns = []) := by
  rcases profileSerial_codes columns p with
    ⟨hhas, hempty, hundefined⟩ | ⟨hsome, p', code, hp', hcs, hparts, hcode, hother⟩
  · exact .inl ⟨hundefined, fun h => h ⟨hhas, hempty⟩⟩
  · rw [hcodes, List.nil_append] at hcs
    refine .inr ⟨p', code, [], hp', hcs, hcode, List.forall_mem_nil _, iff_of_true ?_ hsome⟩
    rw [hparts]
    exact iff_of_false (by decide) hother

/-- The key of a base table is known if the columns of the last index that backs one are. -/
theorem describedProfile_known (server : ProfileServer) (upper : Bytes) {objectType : Bytes} (columns : TableColumns)
    (hbase : objectType ≠ utf8 "VIEW") :
    ¬((describedProfile server upper objectType columns).hasPrimaryKey = true ∧
        (describedProfile server upper objectType columns).primaryKeyColumns = []) ↔
      ∀ idx ∈ lastPkIndex (loadIndexes server upper), idx.columns ≠ [] := by
  obtain ⟨hkey, hcols⟩ := describedProfile_key server upper columns hbase
  rw [hkey, hcols]
  cases lastPkIndex (loadIndexes server upper) with
  | none => exact iff_of_true (fun h => Bool.false_ne_true h.1) fun idx hidx => nomatch hidx
  | some idx =>
      constructor
      · rintro h idx' hidx hempty
        obtain rfl := Option.some.inj hidx
        exact h ⟨rfl, hempty⟩
      · intro h hempty
        exact h idx rfl hempty.2

theorem profileRisk_outcome (server : ProfileServer) (upper objectType : Bytes) (columns : TableColumns) :
    RiskOutcome (profileRisk hw server upper columns (decide (objectType = utf8 "VIEW"))
        (describedProfile server upper objectType columns))
      (objectType ≠ utf8 "VIEW" → Classifiable hw server upper columns) := by
  have hcodes := describedProfile_codes server upper objectType columns
  unfold profileRisk
  by_cases hview : objectType = utf8 "VIEW"
  · have hall : (objectType ≠ utf8 "VIEW" → Classifiable hw server upper columns) ↔ True :=
      iff_of_true (fun hbase => absurd hview hbase) trivial
    rw [if_pos (decide_eq_true hview), hall]
    exact profileView_outcome server upper hcodes
  · have hbase : ¬decide (objectType = utf8 "VIEW") = true := fun h => hview (of_decide_eq_true h)
    rw [if_neg hbase, imp_iff_right hview]
    unfold Classifiable
    cases probePrimaryKey server.probe upper columns.names columns.types with
    | some pk => exact profileRange_outcome hw pk hcodes
    | none =>
        dsimp only
        rw [← describedProfile_known server upper columns hview]
        exact profileSerial_outcome columns hcodes

end Risk

/-- **A profile has one class, if the columns of the primary key are known.** A relation that exists, with readable
    columns, gets its profile, with one class, with the advisory exactly if more than one partition is recommended,
    and with the advice that it needs: exactly if it is a view, or its key range has an `int64_t` width and an
    `int32_t` number of partitions, or it has no key range, and no primary key whose columns could not be read. -/
theorem buildProfile_classified_iff (hw : UInt32) (server : ProfileServer) {tableName objectType : Bytes}
    (noneEncoding : NoneEncoding) (exactRowCount : Bool) {columns : TableColumns}
    (hlookup : lookupObjectType server.schema (toUpper tableName) = .ok (some objectType))
    (hcolumns : loadTableSchema server.schema noneEncoding false (toUpper tableName) = .ok columns) :
    (∃ p, buildProfile hw server tableName noneEncoding exactRowCount = .ok p ∧
      ClassifiedOnce (decide (objectType = utf8 "VIEW")) p) ↔
      (objectType ≠ utf8 "VIEW" → Classifiable hw server (toUpper tableName) columns) := by
  have hresult := @buildProfile_ok_iff hw server tableName objectType noneEncoding exactRowCount columns hlookup hcolumns
  rcases profileRisk_outcome server (toUpper tableName) objectType columns with
    ⟨hundefined, hnot⟩ | ⟨p, code, cs, hp, hcodes, hcode, hrest, hshown⟩
  · refine iff_of_false ?_ hnot
    rintro ⟨profile, hprofile, -⟩
    obtain ⟨p, hp, -⟩ := hresult.mp hprofile
    exact nomatch hundefined.symm.trans hp
  · obtain ⟨hone, hnone, hadvisory⟩ := classified_of_codes hcodes hcode hrest
    -- the sections behind the advice add neither a class nor advice
    have hfinish : ClassifiedOnce (decide (objectType = utf8 "VIEW"))
          (finishProfile server (toUpper tableName) columns (decide (objectType = utf8 "VIEW")) exactRowCount p) ↔
        (1 < p.recommendedPartitions.toInt ↔ code = .partitionAdvisory) := by
      rw [← hadvisory, ← and_iff_right (b := 1 < _ ↔ _) hone,
        ← addRecommendation_classified (decide (objectType = utf8 "VIEW")) hnone]
      apply Annotates.classifiedOnce_iff
      exact .trans (.ite (countRows_annotates server (toUpper tableName) _)) (addCaveats_annotates columns _ _)
    rw [← hshown, ← hfinish]
    constructor
    · rintro ⟨profile, hprofile, hclassified⟩
      obtain ⟨q, hq, rfl⟩ := hresult.mp hprofile
      obtain rfl := Except.ok.inj (hp.symm.trans hq)
      exact hclassified
    · intro hclassified
      exact ⟨_, hresult.mpr ⟨p, hp, rfl⟩, hclassified⟩

/-- A catalog with one table of one integer column, that answers nothing else. -/
def oneColumnSchema : Metadata
  | .relationFields _ => .ok [{ name := utf8 "ID", fieldType := 8 }]
  | .objectType _ => .ok (some (utf8 "TABLE"))
  | _ => .error (utf8 "no permission for SELECT access")

/-- The index of the primary key is listed, and its segments may not be read. -/
def noSegments : ProfileServer where
  schema := oneColumnSchema
  probe := oneColumnSchema
  answer
    | .indexes _ => ⟨[⟨utf8 "PK_T", 1, 1⟩], none⟩
    | .segments _ => ⟨[], some (utf8 "no permission for SELECT access")⟩
    | .viewSource _ => .noRow
    | .rowCount _ => .ok none

/-- The table has no index at all. -/
def noIndexes : ProfileServer where
  schema := oneColumnSchema
  probe := oneColumnSchema
  answer
    | .indexes _ => ⟨[], none⟩
    | .segments _ => ⟨[], none⟩
    | .viewSource _ => .noRow
    | .rowCount _ => .ok none

theorem buildProfile_classified_noIndexes :
    ∃ p, buildProfile 8 noIndexes (utf8 "T") .strict false = .ok p ∧
      ClassifiedOnce (decide (utf8 "TABLE" = utf8 "VIEW")) p := by
  refine (buildProfile_classified_iff 8 noIndexes .strict false rfl rfl).mpr ?_
  intro _
  show ∀ idx ∈ (none : Option IndexMeta), idx.columns ≠ []
  intro idx hidx
  cases hidx

/-- **Unreadable segments of the primary key's index**: the profile takes the first of no columns. -/
theorem buildProfile_noSegments_undefined :
    buildProfile 8 noSegments (utf8 "T") .strict false = .error .undefined ∧
      ¬∃ p, buildProfile 8 noSegments (utf8 "T") .strict false = .ok p ∧
        ClassifiedOnce (decide (utf8 "TABLE" = utf8 "VIEW")) p := by
  have hundefined : buildProfile 8 noSegments (utf8 "T") .strict false = .error .undefined := rfl
  refine ⟨hundefined, ?_⟩
  rintro ⟨p, hp, -⟩
  exact nomatch hundefined.symm.trans hp

end FirebirdScan
