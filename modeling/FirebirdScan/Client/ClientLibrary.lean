import FirebirdScan.Lib.Once
import FirebirdScan.Types
import Mathlib.Data.List.Basic
import Mathlib.Logic.Function.Basic

/-!
# `Client.ClientLibrary` — the client library, which is loaded when it is first needed (`fbapi`)

The entry points of the client library are bound into one table for the whole process. A call that finds no table
chooses a library and binds its symbols one after the other; when one is missing it throws, and the table keeps what
was bound so far. The variable `DUCKDB_FIREBIRD_CLIENT_LIBRARY` and the libraries that are installed may change from
call to call.

`fbapi_settles` says what any sequence of calls returns: the table of the first call that chooses a whole library, with
nothing left in it of those that were tried before.
-/

namespace FirebirdScan

/-! ## The source -/

/-- The entries of `FirebirdClientApi`. -/
inductive ClientSymbol where
  | iscAttachDatabase | iscDetachDatabase | iscStartTransaction | iscRollbackTransaction
  | iscDsqlAllocateStatement | iscDsqlPrepare | iscDsqlDescribe | iscDsqlDescribeBind | iscDsqlExecute
  | iscDsqlFetch | iscDsqlFreeStatement | iscOpenBlob2 | iscCloseBlob | iscGetSegment | iscSqlcode | fbInterpret
deriving DecidableEq

namespace ClientSymbol

/-- All of them, as they are bound. -/
def all : List ClientSymbol :=
  [iscAttachDatabase, iscDetachDatabase, iscStartTransaction, iscRollbackTransaction, iscDsqlAllocateStatement,
   iscDsqlPrepare, iscDsqlDescribe, iscDsqlDescribeBind, iscDsqlExecute, iscDsqlFetch, iscDsqlFreeStatement,
   iscOpenBlob2, iscCloseBlob, iscGetSegment, iscSqlcode, fbInterpret]

def text : ClientSymbol → Bytes
  | iscAttachDatabase => utf8 "isc_attach_database"
  | iscDetachDatabase => utf8 "isc_detach_database"
  | iscStartTransaction => utf8 "isc_start_transaction"
  | iscRollbackTransaction => utf8 "isc_rollback_transaction"
  | iscDsqlAllocateStatement => utf8 "isc_dsql_allocate_statement"
  | iscDsqlPrepare => utf8 "isc_dsql_prepare"
  | iscDsqlDescribe => utf8 "isc_dsql_describe"
  | iscDsqlDescribeBind => utf8 "isc_dsql_describe_bind"
  | iscDsqlExecute => utf8 "isc_dsql_execute"
  | iscDsqlFetch => utf8 "isc_dsql_fetch"
  | iscDsqlFreeStatement => utf8 "isc_dsql_free_statement"
  | iscOpenBlob2 => utf8 "isc_open_blob2"
  | iscCloseBlob => utf8 "isc_close_blob"
  | iscGetSegment => utf8 "isc_get_segment"
  | iscSqlcode => utf8 "isc_sqlcode"
  | fbInterpret => utf8 "fb_interpret"

theorem mem_all (sym : ClientSymbol) : sym ∈ all := by cases sym <;> decide

end ClientSymbol

/-- The table: an address for each entry, or a null pointer. -/
abbrev FirebirdClientApi := ClientSymbol → Option Nat

/-- An open library, as `PlatformSym` reads it. -/
abbrev LibHandle := ClientSymbol → Option Nat

inductive Platform where
  | windows | apple | other

/-- `DefaultLibraryCandidates`. -/
def Platform.defaultLibraryCandidates : Platform → List Bytes
  | .windows => [utf8 "fbclient.dll", utf8 "fbclient_ms.dll"]
  | .apple => [utf8 "libfbclient.dylib"]
  | .other => [utf8 "libfbclient.so.2", utf8 "libfbclient.so"]

/-- What a call meets: the variable `DUCKDB_FIREBIRD_CLIENT_LIBRARY`, and what opening a library gives, or
    `PlatformOpenError`. -/
structure LoaderWorld where
  clientLibrary : Option Bytes := none
  platformOpen : Bytes → Except Bytes LibHandle

def missingSymbol (source : Bytes) (sym : ClientSymbol) : Bytes :=
  utf8 "Firebird client library loaded from '" ++ source ++ utf8 "' is missing the '" ++ sym.text ++
    utf8 "' symbol. The library looks too old or is not a Firebird build."

def overrideFailed (env openErr : Bytes) : Bytes :=
  utf8 "DUCKDB_FIREBIRD_CLIENT_LIBRARY is set to '" ++ env ++
    utf8 ("' but that file could not be loaded. Check the path and that the binary matches this process " ++
      "architecture. Underlying error: ") ++ openErr

def libraryNotFound (tried : List Bytes) : Bytes :=
  utf8 ("Firebird client library not found. Install the Firebird client (libfbclient on Linux/macOS, fbclient.dll " ++
    "on Windows) or set DUCKDB_FIREBIRD_CLIENT_LIBRARY=/path/to/library. Tried: ") ++ (utf8 ", ").intercalate tried

/-- `BindSymbols`, from some symbol on. An entry is written before it is checked. -/
def bindSymbols (handle : LibHandle) (source : Bytes) :
    List ClientSymbol → FirebirdClientApi → Except Bytes Unit × FirebirdClientApi
  | [], api => (.ok (), api)
  | sym :: rest, api =>
      if (handle sym).isNone then (.error (missingSymbol source sym), Function.update api sym (handle sym))
      else bindSymbols handle source rest (Function.update api sym (handle sym))

/-- The loop over the candidates, with those that were tried. -/
def openDefault (world : LoaderWorld) (tried : List Bytes) : List Bytes → Except Bytes (Bytes × LibHandle)
  | [] => .error (libraryNotFound tried)
  | name :: rest =>
      match world.platformOpen name with
      | .ok handle => .ok (name, handle)
      | .error _ => openDefault world (tried ++ [name]) rest

/-- The library that is bound, and its name. -/
def chooseLibrary (platform : Platform) (world : LoaderWorld) : Except Bytes (Bytes × LibHandle) :=
  match world.clientLibrary with
  | none => openDefault world [] platform.defaultLibraryCandidates
  | some env =>
      if env = [] then openDefault world [] platform.defaultLibraryCandidates
      else
        match world.platformOpen env with
        | .ok handle => .ok (env, handle)
        | .error openErr => .error (overrideFailed env openErr)

/-- What `fbapi` does under its lock while nothing is loaded. -/
def loadClientApi (platform : Platform) : Once.Attempt FirebirdClientApi LoaderWorld Bytes := fun world api =>
  match chooseLibrary platform world with
  | .error e => (.error e, api)
  | .ok (source, handle) => bindSymbols handle source ClientSymbol.all api

/-- The calls of `fbapi` in a process, in the order in which they get the lock. -/
def fbapiCalls (platform : Platform) (worlds : List LoaderWorld) : List (Except Bytes FirebirdClientApi) :=
  Once.Cell.calls (loadClientApi platform) ⟨fun _ => none, false⟩ worlds

/-! ## What a call chooses -/

/-- The library that a call should choose: the one that is asked for, or the first of the candidates that opens. -/
inductive Chosen (platform : Platform) (world : LoaderWorld) (source : Bytes) (handle : LibHandle) : Prop where
  | override (hset : world.clientLibrary = some source) (hne : source ≠ [])
      (hopen : world.platformOpen source = .ok handle)
  | candidate (hset : world.clientLibrary.getD [] = []) (before after : List Bytes)
      (hlist : platform.defaultLibraryCandidates = before ++ source :: after)
      (hbefore : ∀ name ∈ before, (world.platformOpen name).isOk = false)
      (hopen : world.platformOpen source = .ok handle)

/-- Why a call throws. -/
inductive LoadFails (platform : Platform) (world : LoaderWorld) : Bytes → Prop where
  | override {env openErr : Bytes} (hset : world.clientLibrary = some env) (hne : env ≠ [])
      (hopen : world.platformOpen env = .error openErr) : LoadFails platform world (overrideFailed env openErr)
  | notFound (hset : world.clientLibrary.getD [] = [])
      (hall : ∀ name ∈ platform.defaultLibraryCandidates, (world.platformOpen name).isOk = false) :
      LoadFails platform world (libraryNotFound platform.defaultLibraryCandidates)
  | missing {source : Bytes} {handle : LibHandle} {sym : ClientSymbol} (hchosen : Chosen platform world source handle)
      (hfirst : ClientSymbol.all.find? (fun sym => (handle sym).isNone) = some sym) :
      LoadFails platform world (missingSymbol source sym)

/-- A call that nothing was loaded before. -/
def loadOutcome (platform : Platform) (world : LoaderWorld) : Except Bytes FirebirdClientApi := do
  let (source, handle) ← chooseLibrary platform world
  match ClientSymbol.all.find? fun sym => (handle sym).isNone with
  | none => .ok handle
  | some sym => .error (missingSymbol source sym)

section Choice

variable {platform : Platform} {world : LoaderWorld}

/-- The loop ends at the first candidate that opens. -/
theorem openDefault_ok {tried names : List Bytes} {source : Bytes} {handle : LibHandle}
    (h : openDefault world tried names = .ok (source, handle)) :
    ∃ before after, names = before ++ source :: after ∧
      (∀ name ∈ before, (world.platformOpen name).isOk = false) ∧ world.platformOpen source = .ok handle := by
  induction names generalizing tried with
  | nil => cases h
  | cons name rest ih =>
      rw [openDefault] at h
      cases hopen : world.platformOpen name with
      | ok lib =>
          rw [hopen] at h
          obtain ⟨rfl, rfl⟩ := Prod.mk.inj (Except.ok.inj h)
          exact ⟨[], rest, rfl, nofun, hopen⟩
      | error e =>
          rw [hopen] at h
          obtain ⟨before, after, rfl, hbefore, hsource⟩ := ih h
          refine ⟨name :: before, after, rfl, ?_, hsource⟩
          intro other hother
          rcases List.mem_cons.mp hother with rfl | hother
          · rw [hopen]
            rfl
          · exact hbefore other hother

/-- It fails where none opens, and has then tried all. -/
theorem openDefault_error {tried names : List Bytes} {e : Bytes} (h : openDefault world tried names = .error e) :
    (∀ name ∈ names, (world.platformOpen name).isOk = false) ∧ e = libraryNotFound (tried ++ names) := by
  induction names generalizing tried with
  | nil =>
      rw [openDefault] at h
      obtain rfl := Except.error.inj h
      refine ⟨nofun, ?_⟩
      rw [List.append_nil]
  | cons name rest ih =>
      rw [openDefault] at h
      cases hopen : world.platformOpen name with
      | ok lib =>
          rw [hopen] at h
          cases h
      | error openErr =>
          rw [hopen] at h
          obtain ⟨hrest, htried⟩ := ih h
          rw [List.append_assoc, List.singleton_append] at htried
          refine ⟨?_, htried⟩
          intro other hother
          rcases List.mem_cons.mp hother with rfl | hother
          · rw [hopen]
            rfl
          · exact hrest other hother

theorem openDefault_candidate {tried before after : List Bytes} {source : Bytes} {handle : LibHandle}
    (hbefore : ∀ name ∈ before, (world.platformOpen name).isOk = false)
    (hopen : world.platformOpen source = .ok handle) :
    openDefault world tried (before ++ source :: after) = .ok (source, handle) := by
  induction before generalizing tried with
  | nil => rw [List.nil_append, openDefault, hopen]
  | cons name before ih =>
      obtain ⟨hname, hbefore⟩ := List.forall_mem_cons.mp hbefore
      rw [List.cons_append, openDefault]
      cases hfail : world.platformOpen name with
      | ok lib =>
          rw [hfail] at hname
          cases hname
      | error e => exact ih hbefore

/-- Without the variable, or with an empty one, the candidates are tried. -/
theorem chooseLibrary_default (hset : world.clientLibrary.getD [] = []) :
    chooseLibrary platform world = openDefault world [] platform.defaultLibraryCandidates := by
  unfold chooseLibrary
  cases henv : world.clientLibrary with
  | none => rfl
  | some env =>
      rw [henv] at hset
      exact if_pos hset

theorem chooseLibrary_override {env : Bytes} (hset : world.clientLibrary = some env) (hne : env ≠ []) :
    chooseLibrary platform world =
      ((world.platformOpen env).mapError (overrideFailed env)).map fun handle => (env, handle) := by
  unfold chooseLibrary
  rw [hset]
  simp only [if_neg hne]
  cases world.platformOpen env <;> rfl

/-- **The choice**: the variable, if it is set, decides alone. -/
theorem chooseLibrary_ok_iff {source : Bytes} {handle : LibHandle} :
    chooseLibrary platform world = .ok (source, handle) ↔ Chosen platform world source handle := by
  by_cases hset : world.clientLibrary.getD [] = []
  · rw [chooseLibrary_default hset]
    constructor
    · intro h
      obtain ⟨before, after, hlist, hbefore, hopen⟩ := openDefault_ok h
      exact .candidate hset before after hlist hbefore hopen
    · intro h
      cases h with
      | override hsome hne hopen =>
          rw [hsome] at hset
          exact absurd hset hne
      | candidate _ before after hlist hbefore hopen =>
          rw [hlist]
          exact openDefault_candidate hbefore hopen
  · cases henv : world.clientLibrary with
    | none =>
        rw [henv] at hset
        exact absurd rfl hset
    | some env =>
        have hne : env ≠ [] := by
          rw [henv] at hset
          exact hset
        rw [chooseLibrary_override henv hne]
        constructor
        · intro h
          cases hopen : world.platformOpen env with
          | error e =>
              rw [hopen] at h
              cases h
          | ok lib =>
              rw [hopen] at h
              obtain ⟨rfl, rfl⟩ := Prod.mk.inj (Except.ok.inj h)
              exact .override henv hne hopen
        · intro h
          cases h with
          | override hsome _ hopen =>
              obtain rfl := Option.some.inj (henv.symm.trans hsome)
              rw [hopen]
              rfl
          | candidate hnone => exact absurd hnone hset

theorem chooseLibrary_error {e : Bytes} (h : chooseLibrary platform world = .error e) : LoadFails platform world e := by
  by_cases hset : world.clientLibrary.getD [] = []
  · rw [chooseLibrary_default hset] at h
    obtain ⟨hall, htried⟩ := openDefault_error h
    rw [htried, List.nil_append]
    exact .notFound hset hall
  · cases henv : world.clientLibrary with
    | none =>
        rw [henv] at hset
        exact absurd rfl hset
    | some env =>
        have hne : env ≠ [] := by
          rw [henv] at hset
          exact hset
        rw [chooseLibrary_override henv hne] at h
        cases hopen : world.platformOpen env with
        | ok lib =>
            rw [hopen] at h
            cases h
        | error openErr =>
            rw [hopen] at h
            have he : overrideFailed env openErr = e := Except.error.inj h
            rw [← he]
            exact .override henv hne hopen

/-- A call has one library to choose. -/
theorem Chosen.unique {source source' : Bytes} {handle handle' : LibHandle} (h : Chosen platform world source handle)
    (h' : Chosen platform world source' handle') : source = source' ∧ handle = handle' := by
  have heq := (chooseLibrary_ok_iff.mpr h).symm.trans (chooseLibrary_ok_iff.mpr h')
  exact Prod.mk.inj (Except.ok.inj heq)

end Choice

/-! ## What a call binds -/

section Binding

variable {handle : LibHandle} {source : Bytes} {platform : Platform} {world : LoaderWorld}

/-- Up to a symbol that is missing; without one, the entries that were bound are the library's. -/
theorem bindSymbols_eq (symbols : List ClientSymbol) (api : FirebirdClientApi) :
    (∀ sym, symbols.find? (fun sym => (handle sym).isNone) = some sym →
      (bindSymbols handle source symbols api).1 = .error (missingSymbol source sym)) ∧
    (symbols.find? (fun sym => (handle sym).isNone) = none →
      bindSymbols handle source symbols api = (.ok (), fun sym => if sym ∈ symbols then handle sym else api sym)) := by
  induction symbols generalizing api with
  | nil =>
      refine ⟨nofun, fun _ => ?_⟩
      simp [bindSymbols]
  | cons first rest ih =>
      obtain ⟨hmissing, hall⟩ := ih (Function.update api first (handle first))
      rw [bindSymbols]
      cases hfirst : (handle first).isNone with
      | true =>
          have hfind : (first :: rest).find? (fun sym => (handle sym).isNone) = some first :=
            List.find?_cons_of_pos hfirst
          rw [hfind, if_pos rfl]
          refine ⟨?_, nofun⟩
          intro sym hsym
          rw [Option.some.inj hsym]
      | false =>
          have hneg : ¬(handle first).isNone = true := by
            rw [hfirst]
            exact Bool.false_ne_true
          have hfind : (first :: rest).find? (fun sym => (handle sym).isNone) =
              rest.find? fun sym => (handle sym).isNone := List.find?_cons_of_neg hneg
          rw [hfind, if_neg Bool.false_ne_true]
          refine ⟨hmissing, fun hnone => ?_⟩
          rw [hall hnone]
          refine Prod.ext rfl (funext fun sym => ?_)
          by_cases hsame : sym = first
          · subst hsame
            simp
          · simp [hsame]

/-- Every attempt writes the whole table or throws. -/
theorem loadClientApi_clean (platform : Platform) :
    Once.Clean (loadClientApi platform) (loadOutcome platform) where
  error := fun {world e} h api => by
    unfold loadOutcome at h
    unfold loadClientApi
    cases hchoose : chooseLibrary platform world with
    | error e' =>
        rw [hchoose] at h
        exact congrArg Except.error (Except.error.inj h)
    | ok chosen =>
        obtain ⟨source, handle⟩ := chosen
        rw [hchoose] at h
        obtain ⟨hmissing, -⟩ := @bindSymbols_eq handle source ClientSymbol.all api
        cases hfind : ClientSymbol.all.find? (fun sym => (handle sym).isNone) with
        | none =>
            simp only [bind, Except.bind, hfind] at h
            cases h
        | some sym =>
            simp only [bind, Except.bind, hfind] at h
            exact (hmissing sym hfind).trans (congrArg Except.error (Except.error.inj h))
  ok := fun {world v} h api => by
    unfold loadOutcome at h
    unfold loadClientApi
    cases hchoose : chooseLibrary platform world with
    | error e =>
        rw [hchoose] at h
        cases h
    | ok chosen =>
        obtain ⟨source, handle⟩ := chosen
        rw [hchoose] at h
        obtain ⟨-, hall⟩ := @bindSymbols_eq handle source ClientSymbol.all api
        cases hfind : ClientSymbol.all.find? (fun sym => (handle sym).isNone) with
        | some sym =>
            simp only [bind, Except.bind, hfind] at h
            cases h
        | none =>
            simp only [bind, Except.bind, hfind] at h
            obtain rfl := Except.ok.inj h
            simp only [hall hfind, ClientSymbol.mem_all, if_true]

/-- A call succeeds with a library that has every symbol. -/
theorem loadOutcome_ok_iff {api : FirebirdClientApi} :
    loadOutcome platform world = .ok api ↔
      (∃ source, Chosen platform world source api) ∧ ∀ sym, (api sym).isSome = true := by
  have hcomplete (handle : LibHandle) : ClientSymbol.all.find? (fun sym => (handle sym).isNone) = none ↔
      ∀ sym, (handle sym).isSome = true := by
    rw [List.find?_eq_none]
    constructor
    · intro h sym
      have hsym := h sym (ClientSymbol.mem_all sym)
      simpa [Option.isSome_iff_ne_none] using hsym
    · intro h sym _
      simpa [Option.isSome_iff_ne_none] using h sym
  unfold loadOutcome
  constructor
  · intro h
    cases hchoose : chooseLibrary platform world with
    | error e =>
        rw [hchoose] at h
        cases h
    | ok chosen =>
        obtain ⟨source, handle⟩ := chosen
        rw [hchoose] at h
        cases hfind : ClientSymbol.all.find? (fun sym => (handle sym).isNone) with
        | some sym =>
            simp only [bind, Except.bind, hfind] at h
            cases h
        | none =>
            simp only [bind, Except.bind, hfind] at h
            obtain rfl := Except.ok.inj h
            exact ⟨⟨source, chooseLibrary_ok_iff.mp hchoose⟩, (hcomplete handle).mp hfind⟩
  · rintro ⟨⟨source, hchosen⟩, hall⟩
    rw [chooseLibrary_ok_iff.mpr hchosen]
    simp only [bind, Except.bind, (hcomplete api).mpr hall]

theorem loadOutcome_error {e : Bytes} (h : loadOutcome platform world = .error e) : LoadFails platform world e := by
  unfold loadOutcome at h
  cases hchoose : chooseLibrary platform world with
  | error e' =>
      rw [hchoose] at h
      rw [← Except.error.inj h]
      exact chooseLibrary_error hchoose
  | ok chosen =>
      obtain ⟨source, handle⟩ := chosen
      rw [hchoose] at h
      cases hfind : ClientSymbol.all.find? (fun sym => (handle sym).isNone) with
      | none =>
          simp only [bind, Except.bind, hfind] at h
          cases h
      | some sym =>
          simp only [bind, Except.bind, hfind] at h
          rw [← Except.error.inj h]
          exact .missing (chooseLibrary_ok_iff.mp hchoose) hfind

end Binding

/-- **The table of the client library.** Calls throw, each for a reason of its own, until one chooses a library that has
    every symbol; it and all calls behind it return one table, which is that library's in every entry, whatever earlier
    attempts had bound, and whatever the variable says by then. -/
theorem fbapi_settles (platform : Platform) (worlds : List LoaderWorld) :
    fbapiCalls platform worlds = Once.settle (worlds.map (loadOutcome platform)) ∧
    (∀ world api, loadOutcome platform world = .ok api ↔
      (∃ source, Chosen platform world source api) ∧ ∀ sym, (api sym).isSome = true) ∧
    (∀ world e, loadOutcome platform world = .error e → LoadFails platform world e) ∧
    ∀ api, .ok api ∈ fbapiCalls platform worlds →
      (∀ api', .ok api' ∈ fbapiCalls platform worlds → api' = api) ∧
      ∃ before world after source, worlds = before ++ world :: after ∧ Chosen platform world source api ∧
        (∀ sym, (api sym).isSome = true) ∧
        ∀ earlier ∈ before, ∃ e, loadOutcome platform earlier = .error e := by
  have hcalls : fbapiCalls platform worlds = Once.settle (worlds.map (loadOutcome platform)) :=
    Once.Cell.calls_eq (loadClientApi_clean platform) rfl worlds
  refine ⟨hcalls, fun world api => loadOutcome_ok_iff, fun world e => loadOutcome_error, ?_⟩
  intro api hapi
  rw [hcalls] at hapi ⊢
  refine ⟨fun api' hapi' => Once.settle_ok_unique hapi' hapi, ?_⟩
  obtain ⟨before, r, after, hsplit, hbefore, hr⟩ := Once.settle_first hapi
  obtain ⟨ws, rest, rfl, rfl, hrest⟩ := List.map_eq_append_iff.mp hsplit
  obtain ⟨world, ws', rfl, hworld, rfl⟩ := List.map_eq_cons_iff.mp hrest
  obtain ⟨⟨source, hchosen⟩, hall⟩ := loadOutcome_ok_iff.mp (hworld.trans hr)
  refine ⟨ws, world, ws', source, rfl, hchosen, hall, ?_⟩
  intro earlier hearlier
  cases houtcome : loadOutcome platform earlier with
  | error e => exact ⟨e, rfl⟩
  | ok v => exact absurd houtcome (hbefore _ (List.mem_map_of_mem hearlier) v)

end FirebirdScan
