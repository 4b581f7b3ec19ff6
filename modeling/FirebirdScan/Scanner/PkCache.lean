import FirebirdScan.Lib.Run
import FirebirdScan.Scanner.Partitions

/-!
# `Scanner.PkCache` — a key range that outlives the probe

`ProbePrimaryKey` reads the smallest and the largest key once; `FirebirdTableEntry::GetScanFunction` keeps
what it returned for the life of the attachment, and a bind keeps it for as long as it may be executed. Every
later scan turns it into key ranges, while other clients go on changing the table.

The state is the table with everything that remembers a range of it, and an event is a change by another
client or one of the two binds. `CoversTable` says that a scan started now, from any bind, delivers every key
present. It is an invariant of exactly the runs in which no key is inserted outside a remembered range and no
probe meets more keys than `int64_t` can count (`coversTable_iff`).
-/

namespace FirebirdScan
namespace PkCache

open Run

/-! ## The source -/

/-- The aggregate `MIN` or `MAX` of the keys: one that stands in the relation to all of them. -/
def extremeKey (rel : Int → Int → Prop) [DecidableRel rel] : List Int64 → Option Int64
  | [] => none
  | k :: ks =>
      match extremeKey rel ks with
      | none => some k
      | some m => some (if rel k.toInt m.toInt then k else m)

/-- `SELECT MIN(pk)`. -/
def minKey : List Int64 → Option Int64 := extremeKey (· ≤ ·)

/-- `SELECT MAX(pk)`. -/
def maxKey : List Int64 → Option Int64 := extremeKey (· ≥ ·)

/-- `ProbePrimaryKey`. `pkName` is the outcome of its metadata queries: the one integer key column, or
    `none` when there is no such column or a query throws. -/
def probePrimaryKey (pkName : Option Bytes) (keys : List Int64) : Option PrimaryKeyInfo :=
  match pkName, minKey keys, maxKey keys with
  | some name, some minV, some maxV =>
      if h : maxV.toInt ≤ minV.toInt then none
      else
        some { column := name, minValue := minV.toInt, maxValue := maxV.toInt,
               min_int64 := minV.le_toInt, min_lt_max := by omega, max_int64 := maxV.toInt_lt }
  | _, _, _ => none

/-- The keys in the table, the entry's cache, and the `pk` of every bind that may still be executed. -/
structure World where
  keys : List Int64
  pkLoaded : Bool := false
  pkCache : Option PrimaryKeyInfo := none
  binds : List (Option PrimaryKeyInfo) := []

inductive Event where
  | insert (key : Int64)
  | delete (key : Int64)
  | getScanFunction (pkName : Option Bytes)
  | firebirdScanBind (pkName : Option Bytes)

/-- One event. `GetScanFunction` probes only while nothing is cached; the bind of a direct `firebird_scan`
    probes every time. -/
def step (w : World) : Event → World
  | .insert key => { w with keys := key :: w.keys }
  | .delete key => { w with keys := w.keys.filter (· ≠ key) }
  | .getScanFunction pkName =>
      let cache := if w.pkLoaded then w.pkCache else probePrimaryKey pkName w.keys
      { w with pkLoaded := true, pkCache := cache, binds := w.binds ++ [cache] }
  | .firebirdScanBind pkName => { w with binds := w.binds ++ [probePrimaryKey pkName w.keys] }

/-- Every key present is selected by some partition of a scan of this bind, whatever the number of
    partitions asked for. -/
def BindCovers (keys : List Int64) (pk : Option PrimaryKeyInfo) : Prop :=
  ∀ hw partitions, ∃ specs, initPartitions hw partitions pk = some specs ∧
    ∀ k ∈ keys, ∃ spec ∈ specs, spec.Selects k.toInt

/-- Every scan that could start now delivers every key present. -/
def CoversTable (w : World) : Prop := ∀ pk ∈ w.binds, BindCovers w.keys pk

/-! ## The condition -/

/-- The keys lie within the range. -/
def InRange (pk : PrimaryKeyInfo) (key : Int64) : Prop :=
  pk.minValue ≤ key.toInt ∧ key.toInt ≤ pk.maxValue

/-- The number of keys from the smallest to the largest is an `int64_t`. -/
def Countable (keys : List Int64) : Prop := ∀ a ∈ keys, ∀ b ∈ keys, b.toInt - a.toInt + 1 < 2 ^ 63

/-- What the code relies on: a key is inserted only within the ranges that some bind holds, and a probe that
    finds a key column meets a countable table. -/
def Allowed (w : World) : Event → Prop
  | .insert key => ∀ pk, some pk ∈ w.binds → InRange pk key
  | .delete _ => True
  | .getScanFunction pkName => w.pkLoaded = false → pkName.isSome = true → Countable w.keys
  | .firebirdScanBind pkName => pkName.isSome = true → Countable w.keys

/-! ## The probe -/

theorem extremeKey_eq_none (rel : Int → Int → Prop) [DecidableRel rel] {keys : List Int64}
    (h : extremeKey rel keys = none) : keys = [] := by
  cases keys with
  | nil => rfl
  | cons k ks => cases hks : extremeKey rel ks <;> simp [extremeKey, hks] at h

theorem extremeKey_eq_some (rel : Int → Int → Prop) [DecidableRel rel] (hrefl : ∀ a, rel a a)
    (htrans : ∀ a b c, rel a b → rel b c → rel a c) (htotal : ∀ a b, ¬rel a b → rel b a)
    {keys : List Int64} {m : Int64} (h : extremeKey rel keys = some m) :
    m ∈ keys ∧ ∀ k ∈ keys, rel m.toInt k.toInt := by
  induction keys generalizing m with
  | nil => simp [extremeKey] at h
  | cons k ks ih =>
      cases hks : extremeKey rel ks with
      | none =>
          obtain rfl := extremeKey_eq_none rel hks
          simp only [extremeKey, Option.some.injEq] at h
          subst h
          simp [hrefl]
      | some best =>
          obtain ⟨hmem, hrel⟩ := ih hks
          simp only [extremeKey, hks, Option.some.injEq] at h
          split_ifs at h with hk
          · subst h
            refine ⟨by simp, List.forall_mem_cons.mpr ⟨hrefl _, fun a ha => ?_⟩⟩
            exact htrans _ _ _ hk (hrel a ha)
          · subst h
            exact ⟨by simp [hmem], List.forall_mem_cons.mpr ⟨htotal _ _ hk, hrel⟩⟩

theorem minKey_eq_some {keys : List Int64} {m : Int64} (h : minKey keys = some m) :
    m ∈ keys ∧ ∀ k ∈ keys, m.toInt ≤ k.toInt :=
  extremeKey_eq_some (· ≤ ·) (fun a => Int.le_refl a) (fun _ _ _ => Int.le_trans)
    (fun _ _ h => (Int.not_le.mp h).le) h

theorem maxKey_eq_some {keys : List Int64} {m : Int64} (h : maxKey keys = some m) :
    m ∈ keys ∧ ∀ k ∈ keys, k.toInt ≤ m.toInt :=
  extremeKey_eq_some (· ≥ ·) (fun a => Int.le_refl a) (fun _ _ _ hab hbc => Int.le_trans hbc hab)
    (fun _ _ h => (Int.not_le.mp h).le) h

/-- A probe that returns a range found it between two keys of the table, and all keys are within. -/
theorem probePrimaryKey_eq_some {pkName : Option Bytes} {keys : List Int64} {pk : PrimaryKeyInfo}
    (h : probePrimaryKey pkName keys = some pk) :
    pkName.isSome = true ∧ (∀ k ∈ keys, InRange pk k) ∧
      ∃ a ∈ keys, ∃ b ∈ keys, a.toInt = pk.minValue ∧ b.toInt = pk.maxValue := by
  unfold probePrimaryKey at h
  split at h
  · rename_i name minV maxV hmin hmax
    obtain ⟨hminMem, hminLe⟩ := minKey_eq_some hmin
    obtain ⟨hmaxMem, hmaxLe⟩ := maxKey_eq_some hmax
    split_ifs at h with hle
    obtain rfl := Option.some.inj h
    exact ⟨rfl, fun k hk => ⟨hminLe k hk, hmaxLe k hk⟩, minV, hminMem, maxV, hmaxMem, rfl, rfl⟩
  · simp at h

/-- With a key column and two different keys, the probe does return a range. -/
theorem probePrimaryKey_isSome {pkName : Option Bytes} (hname : pkName.isSome = true) {keys : List Int64}
    {a b : Int64} (ha : a ∈ keys) (hb : b ∈ keys) (hab : a.toInt < b.toInt) :
    ∃ pk, probePrimaryKey pkName keys = some pk := by
  obtain ⟨name, rfl⟩ := Option.isSome_iff_exists.mp hname
  have hne : keys ≠ [] := List.ne_nil_of_mem ha
  obtain ⟨m, hm⟩ := Option.ne_none_iff_exists'.mp fun h => hne (extremeKey_eq_none (· ≤ ·) h)
  obtain ⟨n, hn⟩ := Option.ne_none_iff_exists'.mp fun h => hne (extremeKey_eq_none (· ≥ ·) h)
  have hma := (minKey_eq_some hm).2 a ha
  have hnb := (maxKey_eq_some hn).2 b hb
  rw [show extremeKey (· ≤ ·) keys = minKey keys from rfl] at hm
  rw [show extremeKey (· ≥ ·) keys = maxKey keys from rfl] at hn
  simp only [probePrimaryKey, hm, hn]
  rw [dif_neg (by omega)]
  exact ⟨_, rfl⟩

/-- The range of a countable table is countable. -/
theorem probePrimaryKey_span {pkName : Option Bytes} {keys : List Int64} {pk : PrimaryKeyInfo}
    (h : probePrimaryKey pkName keys = some pk) :
    pk.maxValue - pk.minValue + 1 < 2 ^ 63 ↔ Countable keys := by
  obtain ⟨-, hin, a, ha, b, hb, hlo, hhi⟩ := probePrimaryKey_eq_some h
  constructor
  · intro hspan x hx y hy
    have hxin := hin x hx
    have hyin := hin y hy
    unfold InRange at hxin hyin
    omega
  · intro hcount
    have hab := hcount a ha b hb
    omega

/-! ## When a bind covers the table -/

/-- A bind that holds a range covers the keys exactly when the range is countable and they lie within it. -/
theorem bindCovers_iff {keys : List Int64} {pk : PrimaryKeyInfo} :
    BindCovers keys (some pk) ↔
      pk.maxValue - pk.minValue + 1 < 2 ^ 63 ∧ ∀ k ∈ keys, InRange pk k := by
  constructor
  · intro h
    obtain ⟨specs, hspecs, hcover⟩ := h 1 ⟨1, by decide⟩
    obtain ⟨ranges, hranges, rfl⟩ := Option.map_eq_some_iff.mp hspecs
    have hspan := keyRanges_span hranges
    obtain ⟨ranges', hranges', htiles⟩ := keyRanges_tiles 1 ⟨1, by decide⟩ hspan
    obtain rfl : ranges = ranges' := Option.some.inj (hranges.symm.trans hranges')
    refine ⟨hspan, fun k hk => ?_⟩
    obtain ⟨spec, hspec, hsel⟩ := hcover k hk
    obtain ⟨r, hr, rfl⟩ := List.mem_map.mp hspec
    have hwithin := htiles.within r hr
    exact ⟨hwithin.1.trans hsel.1, hsel.2.trans hwithin.2⟩
  · rintro ⟨hspan, hin⟩ hw partitions
    obtain ⟨ranges, hranges, htiles⟩ := keyRanges_tiles hw partitions hspan
    refine ⟨ranges.map fun r => ⟨some r⟩, by simp [initPartitions, hranges], fun k hk => ?_⟩
    obtain ⟨r, hr, hkr⟩ := htiles.covers (hin k hk).1 (hin k hk).2
    exact ⟨⟨some r⟩, List.mem_map.mpr ⟨r, hr, rfl⟩, hkr⟩

/-- A bind without a range scans the whole table. -/
theorem bindCovers_none (keys : List Int64) : BindCovers keys none :=
  fun _ _ => ⟨[{}], rfl, fun _ _ => ⟨{}, by simp, trivial⟩⟩

/-- A bind covers fewer keys if it covers more. -/
theorem BindCovers.mono {ks ls : List Int64} {pk : Option PrimaryKeyInfo} (h : BindCovers ls pk)
    (hsub : ∀ k ∈ ks, k ∈ ls) : BindCovers ks pk := by
  intro hw partitions
  obtain ⟨specs, hspecs, hcover⟩ := h hw partitions
  exact ⟨specs, hspecs, fun k hk => hcover k (hsub k hk)⟩

/-- A fresh probe covers the table it read, if it could count it. -/
theorem bindCovers_probe {pkName : Option Bytes} {keys : List Int64}
    (hcount : pkName.isSome = true → Countable keys) : BindCovers keys (probePrimaryKey pkName keys) := by
  cases h : probePrimaryKey pkName keys with
  | none => exact bindCovers_none keys
  | some pk =>
      obtain ⟨hname, hin, -⟩ := probePrimaryKey_eq_some h
      exact bindCovers_iff.mpr ⟨(probePrimaryKey_span h).mpr (hcount hname), hin⟩

/-- A fresh probe of a table it cannot count covers nothing. -/
theorem not_bindCovers_probe {pkName : Option Bytes} {keys : List Int64} (hname : pkName.isSome = true)
    (hcount : ¬Countable keys) : ¬BindCovers keys (probePrimaryKey pkName keys) := by
  intro hcovers
  obtain ⟨a, ha, b, hb, hab⟩ : ∃ a ∈ keys, ∃ b ∈ keys, 2 ^ 63 ≤ b.toInt - a.toInt + 1 := by
    unfold Countable at hcount
    push Not at hcount
    exact hcount
  obtain ⟨pk, hpk⟩ := probePrimaryKey_isSome hname ha hb (by omega)
  rw [hpk] at hcovers
  exact hcount ((probePrimaryKey_span hpk).mp (bindCovers_iff.mp hcovers).1)

/-! ## Runs -/

/-- Before anything happened: some keys, nothing probed, nothing bound. -/
def initial (keys : List Int64) : World := { keys := keys }

/-- `CoversTable`, with what makes a cached range one that some bind holds. -/
structure Invariant (w : World) : Prop where
  cache_bound : w.pkLoaded = true → w.pkCache ∈ w.binds
  covers : CoversTable w

theorem invariant_initial (keys : List Int64) : Invariant (initial keys) where
  cache_bound := by intro h; cases h
  covers := by intro pk hpk; cases hpk

theorem forall_mem_snoc {α : Type} {P : α → Prop} {xs : List α} {y : α} :
    (∀ x ∈ xs ++ [y], P x) ↔ (∀ x ∈ xs, P x) ∧ P y := by
  simp [or_imp, forall_and]

/-- **One allowed event preserves the invariant.** -/
theorem invariant_step (w : World) (e : Event) (h : Invariant w) (hallowed : Allowed w e) :
    Invariant (step w e) := by
  cases e with
  | insert key =>
      refine ⟨h.cache_bound, fun pk hpk => ?_⟩
      cases pk with
      | none => exact bindCovers_none _
      | some i =>
          obtain ⟨hspan, hin⟩ := bindCovers_iff.mp (h.covers _ hpk)
          exact bindCovers_iff.mpr ⟨hspan, List.forall_mem_cons.mpr ⟨hallowed i hpk, hin⟩⟩
  | delete key =>
      exact ⟨h.cache_bound, fun pk hpk => (h.covers pk hpk).mono fun k hk => List.mem_of_mem_filter hk⟩
  | getScanFunction pkName =>
      refine ⟨fun _ => by simp [step], ?_⟩
      refine forall_mem_snoc.mpr ⟨h.covers, ?_⟩
      by_cases hloaded : w.pkLoaded = true
      -- what is cached is held by an older bind, which covers the table
      · simp only [step, hloaded, if_true]
        exact h.covers _ (h.cache_bound hloaded)
      · simp only [step, hloaded]
        exact bindCovers_probe (hallowed (by simpa using hloaded))
  | firebirdScanBind pkName =>
      refine ⟨fun hloaded => List.mem_append_left _ (h.cache_bound hloaded), ?_⟩
      exact forall_mem_snoc.mpr ⟨h.covers, bindCovers_probe hallowed⟩

/-- **An event that is not allowed loses a key at once**: there is a bind, old or new, whose scans from now
    on miss a key that is present. -/
theorem not_coversTable_step (w : World) (e : Event) (hallowed : ¬Allowed w e) :
    ¬CoversTable (step w e) := by
  intro hcovers
  apply hallowed
  cases e with
  | insert key =>
      intro pk hpk
      exact (bindCovers_iff.mp (hcovers (some pk) hpk)).2 key (by simp [step])
  | delete key => exact trivial
  | getScanFunction pkName =>
      intro hloaded hname
      have hnew := (forall_mem_snoc.mp hcovers).2
      simp only [step, hloaded, Bool.false_eq_true, if_false] at hnew
      by_contra hcount
      exact not_bindCovers_probe hname hcount hnew
  | firebirdScanBind pkName =>
      intro hname
      by_contra hcount
      exact not_bindCovers_probe hname hcount (forall_mem_snoc.mp hcovers).2

/-- **No scan misses a key, in every state of a run, exactly when no key is inserted outside a range that a
    bind holds and no probe meets a table too wide to count.** -/
theorem coversTable_iff (keys : List Int64) (events : List Event) :
    (∀ before, before <+: events → CoversTable (run step (initial keys) before)) ↔
      Meets step Allowed (initial keys) events := by
  constructor
  · exact meets_of_forall_prefix invariant_step (fun w e _ => not_coversTable_step w e)
      (invariant_initial keys)
  · intro hmeets before hprefix
    exact (run_invariant invariant_step (invariant_initial keys) (hmeets.of_prefix hprefix)).covers

/-- **A scan hides a row outside the old range**: the table is read through the catalog while it holds the
    keys `1` and `2`, another client inserts `10`, and every scan of that bind, with one partition or many,
    misses it. -/
theorem scan_misses_inserted_key :
    ¬∀ (keys : List Int64) (events : List Event), CoversTable (run step (initial keys) events) := by
  intro h
  have hcovers := h [1, 2] [.getScanFunction (some (utf8 "ID")), .insert 10]
  obtain ⟨pk, hpk⟩ := probePrimaryKey_isSome (show (some (utf8 "ID")).isSome = true from rfl)
    (show (1 : Int64) ∈ [1, 2] by decide) (show (2 : Int64) ∈ [1, 2] by decide) (by decide)
  have hmax : pk.maxValue = 2 := by
    have hprobe : (probePrimaryKey (some (utf8 "ID")) [1, 2]).map (·.maxValue) = some 2 := by decide
    rw [hpk] at hprobe
    exact Option.some.inj hprobe
  have hbind := hcovers (some pk) (by simp [step, initial, hpk])
  have hten := (bindCovers_iff.mp hbind).2 10 (by simp [step])
  have hle : (10 : Int64).toInt ≤ pk.maxValue := hten.2
  rw [hmax] at hle
  exact absurd hle (by decide)

end PkCache
end FirebirdScan
