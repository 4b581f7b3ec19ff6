import FirebirdScan.Client.Metadata
import FirebirdScan.Lib.Raising

/-!
# `Metadata.QualifiedName` — the relation that a profile is asked for (`ParseQualifiedName`)

`firebird_profile_table` and `firebird_index_profile` take the name of a relation as one string, cut it at its dots and
look its first part up among the catalogs of the session. Each has its own copy of the parser.

- `profile_binds_accept` — which strings are accepted, and as what; the two functions agree;
- `profile_suggestion` — where the schema is refused, both names that the message suggests instead are accepted, as the
  relation that was meant, unless its catalog or its table is empty.
-/

namespace FirebirdScan

open Raising

/-! ## The parser -/

/-- `ProfileTarget`, `IndexProfileTarget` -/
structure ProfileTarget where
  catalog : Bytes
  table : Bytes
deriving DecidableEq

/-- `'.'` -/
def dot : UInt8 := 0x2E

/-- The loop of the parser: the parts that are complete, and the current one. -/
def cutAtDot (state : List Bytes × Bytes) (c : UInt8) : List Bytes × Bytes :=
  if c = dot then (state.1 ++ [state.2], []) else (state.1, state.2 ++ [c])

/-- The parts of a name. -/
def qualifiedParts (qualified : Bytes) : List Bytes :=
  let state := qualified.foldl cutAtDot ([], [])
  state.1 ++ [state.2]

/-- The two names that the message suggests. -/
def suggestions (parts : List Bytes) : Bytes × Bytes :=
  (parts.getD 0 [] ++ utf8 ".main." ++ parts.getD 2 [], parts.getD 0 [] ++ utf8 "." ++ parts.getD 2 [])

def schemaNotExposed (function : String) (parts : List Bytes) : Bytes :=
  utf8 function ++ utf8 ": schema '" ++ parts.getD 1 [] ++ utf8 ("' is not exposed. The " ++
    "Firebird ATTACH path exposes exactly one schema, 'main'. " ++ "Use '") ++ (suggestions parts).1 ++ utf8 "' or '" ++
    (suggestions parts).2 ++ utf8 "'."

def partsExpected (function : String) (qualified : Bytes) : Bytes :=
  utf8 function ++ utf8 ("(qualified_name VARCHAR): expected " ++ "'catalog.schema.table' or 'catalog.table' (e.g. " ++
    "'fb.main.CUSTOMER'), got '") ++ qualified ++ utf8 "'."

def emptyPart (function : String) (qualified : Bytes) : Bytes :=
  utf8 function ++ utf8 (": qualified_name has an empty catalog or " ++ "table part ('") ++ qualified ++
    utf8 ("'). Expected 'catalog.schema.table' or " ++ "'catalog.table'.")

/-- `ParseQualifiedName`, which each of the two functions has for itself, with its own name in the messages. -/
def parseQualifiedName (function : String) (qualified : Bytes) : Except Bytes ProfileTarget := do
  let parts := qualifiedParts qualified
  let out ← (
    if parts.length = 2 then .ok ⟨parts.getD 0 [], parts.getD 1 []⟩
    else if parts.length = 3 then
      if toUpper (parts.getD 1 []) ≠ utf8 "MAIN" then .error (schemaNotExposed function parts)
      else .ok ⟨parts.getD 0 [], parts.getD 2 []⟩
    else .error (partsExpected function qualified) : Except Bytes ProfileTarget)
  if out.catalog = [] ∨ out.table = [] then .error (emptyPart function qualified) else .ok out

def profileTableParseQualifiedName : Bytes → Except Bytes ProfileTarget := parseQualifiedName "firebird_profile_table"

def indexProfileParseQualifiedName : Bytes → Except Bytes ProfileTarget := parseQualifiedName "firebird_index_profile"

/-! ## The bind -/

/-- The catalogs of the session, which are DuckDB's: the type of the one with a name. -/
abbrev Catalogs := Bytes → Option Bytes

/-- `ValidateFirebirdAttachAlias`. -/
def validateFirebirdAttachAlias (catalogs : Catalogs) (catalogName : Bytes) : Except Bytes Unit :=
  match catalogs catalogName with
  | none =>
      .error (utf8 "firebird_generate_dbt_sources: no attached catalog named '" ++ catalogName ++ utf8 ("'. " ++
        "ATTACH first: ATTACH '<path-or-uri>' AS ") ++ catalogName ++ utf8 " (TYPE firebird);")
  | some type =>
      if type ≠ utf8 "firebird" then
        .error (utf8 "firebird_generate_dbt_sources: catalog '" ++ catalogName ++ utf8 ("' is not a Firebird " ++
          "ATTACH (GetCatalogType() = '") ++ type ++ utf8 ("'). Use the alias of an ATTACH " ++
          "created with (TYPE firebird)."))
      else .ok ()

def qualifiedNameRequired (function : String) : Bytes :=
  utf8 function ++ utf8 ("(qualified_name VARCHAR): qualified_name " ++
    "is required (e.g. 'fb.main.CUSTOMER' for an ATTACH aliased " ++ "'fb').")

/-- The part that `ProfileTableBind` and `IndexProfileBind` share, each with its own parser; an argument of `none` is
    none or `NULL`. -/
def qualifiedNameBind (function : String) (parse : Bytes → Except Bytes ProfileTarget) (catalogs : Catalogs)
    (argument : Option Bytes) : Except Bytes ProfileTarget :=
  match argument with
  | none => .error (qualifiedNameRequired function)
  | some qualified => do
      let target ← parse qualified
      let _ ← validateFirebirdAttachAlias catalogs target.catalog
      .ok target

/-- `ProfileTableBind`, up to its named parameter. -/
def profileTableBind : Catalogs → Option Bytes → Except Bytes ProfileTarget :=
  qualifiedNameBind "firebird_profile_table" profileTableParseQualifiedName

/-- `IndexProfileBind`. -/
def indexProfileBind : Catalogs → Option Bytes → Except Bytes ProfileTarget :=
  qualifiedNameBind "firebird_index_profile" indexProfileParseQualifiedName

/-! ## The parts of a name -/

/-- The loop cuts the rest of the name. -/
theorem foldl_cutAtDot (qualified : Bytes) (parts : List Bytes) (cur : Bytes) :
    (qualified.foldl cutAtDot (parts, cur)).1 ++ [(qualified.foldl cutAtDot (parts, cur)).2] =
      parts ++ (qualified.splitOn dot).modifyHead (cur ++ ·) := by
  induction qualified generalizing parts cur with
  | nil => simp
  | cons c rest ih =>
      rw [List.foldl_cons, List.splitOn_cons_eq_if_modifyHead]
      by_cases hc : c = dot
      · have hstep : cutAtDot (parts, cur) c = (parts ++ [cur], []) := if_pos hc
        rw [hstep, ih, if_pos (beq_iff_eq.mpr hc)]
        cases rest.splitOn dot <;> simp
      · have hstep : cutAtDot (parts, cur) c = (parts, cur ++ [c]) := if_neg hc
        rw [hstep, ih, if_neg fun h => hc (beq_iff_eq.mp h)]
        cases rest.splitOn dot <;> simp

theorem qualifiedParts_eq (qualified : Bytes) : qualifiedParts qualified = qualified.splitOn dot := by
  unfold qualifiedParts
  dsimp only
  rw [foldl_cutAtDot, List.nil_append]
  cases qualified.splitOn dot <;> rfl

/-- A part has no dot. -/
theorem dot_not_mem_part {qualified part : Bytes} (h : part ∈ qualified.splitOn dot) : dot ∉ part := by
  induction qualified generalizing part with
  | nil =>
      rw [List.splitOn_nil, List.mem_singleton] at h
      rw [h]
      exact List.not_mem_nil
  | cons c rest ih =>
      rw [List.splitOn_cons_eq_if_modifyHead] at h
      by_cases hc : c = dot
      · rw [if_pos (beq_iff_eq.mpr hc)] at h
        rcases List.mem_cons.mp h with rfl | h
        · exact List.not_mem_nil
        · exact ih h
      · rw [if_neg fun h => hc (beq_iff_eq.mp h)] at h
        cases hparts : rest.splitOn dot with
        | nil => exact absurd hparts (List.splitOn_ne_nil dot rest)
        | cons first parts =>
            rw [hparts] at ih h
            rcases List.mem_cons.mp h with rfl | h
            · rw [List.mem_cons, not_or]
              exact ⟨Ne.symm hc, ih List.mem_cons_self⟩
            · exact ih (List.mem_cons_of_mem _ h)

/-- A name and its parts. -/
theorem qualifiedParts_eq_iff {qualified : Bytes} {parts : List Bytes} (hne : parts ≠ []) :
    qualifiedParts qualified = parts ↔ (∀ part ∈ parts, dot ∉ part) ∧ qualified = [dot].intercalate parts := by
  rw [qualifiedParts_eq]
  constructor
  · rintro rfl
    exact ⟨fun part hpart => dot_not_mem_part hpart, (List.intercalate_splitOn dot).symm⟩
  · rintro ⟨hparts, rfl⟩
    exact List.splitOn_intercalate dot hparts hne

/-! ## What is accepted -/

/-- The string names the relation: two parts that are not empty, with `main` between them or nothing. -/
def Names (qualified : Bytes) (target : ProfileTarget) : Prop :=
  target.catalog ≠ [] ∧ target.table ≠ [] ∧ dot ∉ target.catalog ∧ dot ∉ target.table ∧
    (qualified = target.catalog ++ dot :: target.table ∨
      ∃ schema, toUpper schema = utf8 "MAIN" ∧ qualified = target.catalog ++ dot :: schema ++ dot :: target.table)

/-- `main` in any case has no dot. -/
theorem dot_not_mem_schema {schema : Bytes} (h : toUpper schema = utf8 "MAIN") : dot ∉ schema := by
  intro hdot
  have hupper : toUpperByte dot ∈ toUpper schema := List.mem_map_of_mem hdot
  rw [h] at hupper
  exact absurd hupper (by decide)

/-- `catalog.table` and `catalog.main.table` name the table, if neither part is empty. -/
theorem parseQualifiedName_eq (function : String) {qualified catalog table : Bytes} (hcdot : dot ∉ catalog)
    (htdot : dot ∉ table)
    (hqualified : qualified = catalog ++ dot :: table ∨
      ∃ schema, toUpper schema = utf8 "MAIN" ∧ qualified = catalog ++ dot :: schema ++ dot :: table) :
    parseQualifiedName function qualified =
      if catalog = [] ∨ table = [] then .error (emptyPart function qualified) else .ok ⟨catalog, table⟩ := by
  unfold parseQualifiedName
  dsimp only
  rcases hqualified with rfl | ⟨schema, hschema, rfl⟩
  · have hparts : qualifiedParts (catalog ++ dot :: table) = [catalog, table] :=
      (qualifiedParts_eq_iff (by simp)).mpr ⟨by simp [hcdot, htdot], by simp⟩
    rw [hparts]
    rfl
  · have hparts : qualifiedParts (catalog ++ dot :: schema ++ dot :: table) = [catalog, schema, table] :=
      (qualifiedParts_eq_iff (by simp)).mpr ⟨by simp [hcdot, htdot, dot_not_mem_schema hschema], by simp⟩
    rw [hparts]
    simp only [List.length_cons, List.length_nil, List.getD_cons_succ, List.getD_cons_zero]
    rw [if_neg (by decide), if_pos trivial, if_neg (not_not.mpr hschema)]
    rfl

/-- The result of the parser, by its parts. -/
theorem parseQualifiedName_ok_iff {function : String} {qualified : Bytes} {target : ProfileTarget} :
    parseQualifiedName function qualified = .ok target ↔ Names qualified target := by
  obtain ⟨catalog, table⟩ := target
  unfold Names
  dsimp only
  constructor
  · intro h
    unfold parseQualifiedName at h
    obtain ⟨out, hout, hempty⟩ := bind_ok_iff.mp h
    split_ifs at hempty with hnone
    obtain rfl := Except.ok.inj hempty
    obtain ⟨hcatalog, htable⟩ := not_or.mp hnone
    split_ifs at hout with htwo hthree hschema
    · obtain ⟨first, second, hparts⟩ := List.length_eq_two.mp htwo
      obtain ⟨hdots, hqualified⟩ := (qualifiedParts_eq_iff (List.cons_ne_nil _ _)).mp hparts
      rw [hparts] at hout
      obtain ⟨rfl, rfl⟩ := ProfileTarget.mk.inj (Except.ok.inj hout)
      exact ⟨hcatalog, htable, hdots _ (by simp), hdots _ (by simp), .inl (by simpa using hqualified)⟩
    · obtain ⟨first, schema, last, hparts⟩ := List.length_eq_three.mp hthree
      obtain ⟨hdots, hqualified⟩ := (qualifiedParts_eq_iff (List.cons_ne_nil _ _)).mp hparts
      rw [hparts] at hout hschema
      obtain ⟨rfl, rfl⟩ := ProfileTarget.mk.inj (Except.ok.inj hout)
      exact ⟨hcatalog, htable, hdots _ (by simp), hdots _ (by simp),
        .inr ⟨schema, not_not.mp hschema, by simpa using hqualified⟩⟩
  · rintro ⟨hcatalog, htable, hcdot, htdot, hqualified⟩
    rw [parseQualifiedName_eq function hcdot htdot hqualified, if_neg (not_or.mpr ⟨hcatalog, htable⟩)]

/-- The alias is that of an attached Firebird database. -/
theorem validateFirebirdAttachAlias_ok_iff {catalogs : Catalogs} {catalogName : Bytes} :
    validateFirebirdAttachAlias catalogs catalogName = .ok () ↔ catalogs catalogName = some (utf8 "firebird") := by
  unfold validateFirebirdAttachAlias
  cases catalogs catalogName with
  | none => simp
  | some type =>
      simp only [Option.some.injEq]
      split_ifs with htype
      · simp [htype]
      · simp [not_not.mp htype]

theorem qualifiedNameBind_ok_iff {function : String} {parse : Bytes → Except Bytes ProfileTarget}
    (hparse : ∀ {qualified target}, parse qualified = .ok target ↔ Names qualified target) {catalogs : Catalogs}
    {argument : Option Bytes} {target : ProfileTarget} :
    qualifiedNameBind function parse catalogs argument = .ok target ↔
      ∃ qualified, argument = some qualified ∧ Names qualified target ∧
        catalogs target.catalog = some (utf8 "firebird") := by
  cases argument with
  | none => simp [qualifiedNameBind]
  | some qualified =>
      unfold qualifiedNameBind
      dsimp only
      rw [bind_ok_iff]
      constructor
      · rintro ⟨parsed, hparsed, hbind⟩
        obtain ⟨_, hvalid, hok⟩ := bind_ok_iff.mp hbind
        obtain rfl := Except.ok.inj hok
        exact ⟨qualified, rfl, hparse.mp hparsed, validateFirebirdAttachAlias_ok_iff.mp hvalid⟩
      · rintro ⟨q, hq, hnames, hcatalog⟩
        obtain rfl := Option.some.inj hq
        exact ⟨target, hparse.mpr hnames,
          bind_ok_iff.mpr ⟨(), validateFirebirdAttachAlias_ok_iff.mpr hcatalog, rfl⟩⟩

/-- Both functions accept the names of a relation of an attached Firebird database, and no other string. -/
theorem profile_binds_accept (catalogs : Catalogs) (argument : Option Bytes) (target : ProfileTarget) :
    (profileTableBind catalogs argument = .ok target ↔
      ∃ qualified, argument = some qualified ∧ Names qualified target ∧
        catalogs target.catalog = some (utf8 "firebird")) ∧
    (indexProfileBind catalogs argument = .ok target ↔
      ∃ qualified, argument = some qualified ∧ Names qualified target ∧
        catalogs target.catalog = some (utf8 "firebird")) :=
  ⟨qualifiedNameBind_ok_iff parseQualifiedName_ok_iff, qualifiedNameBind_ok_iff parseQualifiedName_ok_iff⟩

/-! ## What is suggested -/

/-- What the parser makes of the two names that are suggested. -/
theorem parseQualifiedName_suggestions (function : String) {catalog schema table : Bytes} (hcdot : dot ∉ catalog)
    (htdot : dot ∉ table) {suggestion : Bytes}
    (h : suggestion = (suggestions [catalog, schema, table]).1 ∨ suggestion = (suggestions [catalog, schema, table]).2) :
    parseQualifiedName function suggestion =
      if catalog = [] ∨ table = [] then .error (emptyPart function suggestion) else .ok ⟨catalog, table⟩ := by
  have hmain : utf8 ".main." = dot :: utf8 "main" ++ [dot] := by decide
  have hdot : utf8 "." = [dot] := by decide
  refine parseQualifiedName_eq function hcdot htdot ?_
  rcases h with rfl | rfl
  · exact .inr ⟨utf8 "main", by decide, by simp [suggestions, hmain]⟩
  · exact .inl (by simp [suggestions, hdot])

/-- A name that is refused for its schema: both names that the message suggests are accepted, as the relation that was
    meant, unless its catalog or its table is empty; then both are refused for that. -/
theorem profile_suggestion (function : String) (catalog schema table : Bytes) (hcdot : dot ∉ catalog)
    (hsdot : dot ∉ schema) (htdot : dot ∉ table) (hschema : toUpper schema ≠ utf8 "MAIN") :
    parseQualifiedName function (catalog ++ dot :: schema ++ dot :: table) =
        .error (schemaNotExposed function [catalog, schema, table]) ∧
      ∀ suggestion, suggestion = (suggestions [catalog, schema, table]).1 ∨
          suggestion = (suggestions [catalog, schema, table]).2 →
        parseQualifiedName function suggestion =
          if catalog = [] ∨ table = [] then .error (emptyPart function suggestion) else .ok ⟨catalog, table⟩ := by
  refine ⟨?_, fun suggestion => parseQualifiedName_suggestions function hcdot htdot⟩
  have hparts : qualifiedParts (catalog ++ dot :: schema ++ dot :: table) = [catalog, schema, table] :=
    (qualifiedParts_eq_iff (by simp)).mpr ⟨by simp [hcdot, htdot, hsdot], by simp⟩
  unfold parseQualifiedName
  dsimp only
  rw [hparts]
  simp only [List.length_cons, List.length_nil, List.getD_cons_succ, List.getD_cons_zero]
  rw [if_neg (by decide), if_pos trivial, if_pos hschema]
  rfl

theorem profile_suggestion_public :
    dot ∉ utf8 "f" ∧ dot ∉ utf8 "public" ∧ dot ∉ utf8 "T" ∧ toUpper (utf8 "public") ≠ utf8 "MAIN" ∧
      parseQualifiedName "firebird_index_profile" (utf8 "f" ++ dot :: utf8 "public" ++ dot :: utf8 "T") =
        .error (schemaNotExposed "firebird_index_profile" [utf8 "f", utf8 "public", utf8 "T"]) ∧
      ∀ suggestion, suggestion = (suggestions [utf8 "f", utf8 "public", utf8 "T"]).1 ∨
          suggestion = (suggestions [utf8 "f", utf8 "public", utf8 "T"]).2 →
        parseQualifiedName "firebird_index_profile" suggestion =
          if utf8 "f" = [] ∨ utf8 "T" = [] then .error (emptyPart "firebird_index_profile" suggestion)
          else .ok ⟨utf8 "f", utf8 "T"⟩ :=
  ⟨by decide, by decide, by decide, by decide,
    profile_suggestion "firebird_index_profile" (utf8 "f") (utf8 "public") (utf8 "T") (by decide) (by decide)
      (by decide) (by decide)⟩

end FirebirdScan
