import FirebirdScan.Lib.Utf8Cut
import FirebirdScan.Scanner.NoneBlob
import FirebirdScan.Scanner.QueryLog
import FirebirdScan.Scanner.TelemetrySafe

/-!
# `Scanner.TelemetryUtf8` — which strings of the telemetry can be displayed

DuckDB builds values of UTF-8 only. `RecordQuery` escapes the SQL and the pushed filters of a record; every other
string goes into the state as it comes, and so does the text of an error but for the passwords in it.
`telemetry_displayable` says what has to be UTF-8 for the whole state to be. The text of a failed query has its SQL in
it, so it need not be.
-/

namespace FirebirdScan

open Rewrite Utf8

/-! ## Error texts -/

theorem wellFormed_utf8 (s : String) : WellFormed (utf8 s) := by
  apply wellFormed_encode
  intro cp hcp
  obtain ⟨c, -, rfl⟩ := List.mem_map.mp hcp
  rcases c.valid with h | ⟨h1, h2⟩
  · have hlow : c.toNat < 0xD800 := h
    exact ⟨by omega, by omega⟩
  · have hlow : 0xDFFF < c.toNat := h1
    have hhigh : c.toNat < 0x110000 := h2
    exact ⟨hhigh, by omega⟩

/-- The characters that the two patterns look for are ASCII. -/
theorem high_byte {b : UInt8} (h : 0x80 ≤ b) :
    isSpace b = false ∧ isSeparator b = false ∧ isUserinfoUser b = true ∧ isUserinfoPassword b = true ∧
      0x80 ≤ toLowerByte b ∧ b ≠ 0x3A := by
  revert h
  revert b
  apply every_byte
  decide +kernel

theorem ascii_of_isSpace {b : UInt8} (h : isSpace b = true) : b < 0x80 := by
  by_contra hhigh
  rw [UInt8.not_lt] at hhigh
  rw [(high_byte hhigh).1] at h
  cases h

/-- What the key matches is ASCII, and stands in front of the rest. -/
theorem readPasswordKey_split {s key r : Bytes} (h : readPasswordKey s = some (key, r)) :
    s = key ++ r ∧ ∀ b ∈ key, b < 0x80 := by
  unfold readPasswordKey at h
  split_ifs at h with hword
  split at h
  next r' hr' =>
    obtain ⟨rfl, rfl⟩ := Prod.mk.inj (Option.some.inj h)
    constructor
    · calc s = s.take 8 ++ s.drop 8 := (List.take_append_drop 8 s).symm
        _ = s.take 8 ++ ((s.drop 8).takeWhile isSpace ++ (s.drop 8).dropWhile isSpace) := by
            rw [List.takeWhile_append_dropWhile]
        _ = s.take 8 ++ ((s.drop 8).takeWhile isSpace ++ 0x3D :: (r'.takeWhile isSpace ++ r'.dropWhile isSpace)) := by
            rw [hr', List.takeWhile_append_dropWhile]
        _ = _ := by simp only [List.append_assoc, List.cons_append, List.nil_append]
    · have hspace : ∀ l : Bytes, ∀ b ∈ l.takeWhile isSpace, b < 0x80 := by
        intro l b hb
        exact ascii_of_isSpace (List.mem_takeWhile_imp hb)
      have hletter : ∀ b ∈ s.take 8, b < 0x80 := by
        intro b hb
        by_contra hhigh
        rw [UInt8.not_lt] at hhigh
        have hmem : toLowerByte b ∈ utf8 "password" := hword ▸ List.mem_map_of_mem hb
        have hlow : ∀ c ∈ utf8 "password", ¬ 0x80 ≤ c := by decide +kernel
        exact hlow _ hmem (high_byte hhigh).2.2.2.2.1
      intro b hb
      rcases List.mem_append.mp hb with hb | hb
      · rcases List.mem_append.mp hb with hb | hb
        · rcases List.mem_append.mp hb with hb | hb
          · exact hletter b hb
          · exact hspace _ b hb
        · obtain rfl := List.mem_singleton.mp hb
          decide
      · exact hspace _ b hb
  · cases h

/-- The first pattern takes whole characters. -/
theorem redactPassword_wellFormed {s out rest : Bytes} (hs : WellFormed s)
    (h : redactPassword s = some (out, rest)) : WellFormed out ∧ WellFormed rest := by
  obtain ⟨⟨key, r⟩, hkey, hout⟩ := Option.map_eq_some_iff.mp h
  obtain ⟨rfl, rfl⟩ := Prod.mk.inj hout
  obtain ⟨rfl, hascii⟩ := readPasswordKey_split hkey
  have hr : WellFormed r := (wellFormed_ascii hascii).of_append hs
  refine ⟨(wellFormed_ascii hascii).append (wellFormed_utf8 _), hr.dropWhile ?_⟩
  intro b hb
  rw [(high_byte hb).2.1]
  rfl

/-- The second pattern takes whole characters. -/
theorem redactUserinfo_wellFormed {s out rest : Bytes} (hs : WellFormed s)
    (h : redactUserinfo s = some (out, rest)) : WellFormed out ∧ WellFormed rest := by
  unfold redactUserinfo at h
  split at h
  next r =>
    obtain ⟨rest', hskip, hout⟩ := Option.map_eq_some_iff.mp h
    obtain ⟨rfl, rfl⟩ := Prod.mk.inj hout
    have hfront : WellFormed [0x3A, 0x2F, 0x2F] := wellFormed_ascii (by decide +kernel)
    have hr : WellFormed r := hfront.of_append hs
    refine ⟨wellFormed_utf8 _, ?_⟩
    have huser := hr.dropWhile fun b hb => (high_byte hb).2.2.1
    unfold skipUserinfo at hskip
    split_ifs at hskip
    split at hskip
    next r' hr' =>
      split_ifs at hskip
      split at hskip
      next rest'' hrest =>
        obtain rfl := Option.some.inj hskip
        have hcolon : WellFormed [0x3A] := wellFormed_ascii (by decide +kernel)
        have hat : WellFormed [0x40] := wellFormed_ascii (by decide +kernel)
        -- the runs of the user and of the password end at an ASCII byte, so at a boundary
        rw [hr'] at huser
        have hpassword := (hcolon.of_append huser).dropWhile fun b hb => (high_byte hb).2.2.2.1
        rw [hrest] at hpassword
        exact hat.of_append hpassword
      · cases hskip
    · cases hskip
  · cases h

/-- **`SanitizeErrorMessage` keeps UTF-8.** -/
theorem sanitizeErrorMessage_wellFormed {msg : Bytes} (h : WellFormed msg) : WellFormed (sanitizeErrorMessage msg) := by
  have hpassword : WellFormed (rewrite passwordRule msg) := by
    refine rewrite_wellFormed ?_ ?_ h
    · intro b s hb
      refine redactPassword_none (readPasswordKey_cons ?_ s)
      intro hletter
      have hhigh := (high_byte hb.1).2.2.2.2.1
      rw [hletter] at hhigh
      exact absurd hhigh (by decide)
    · intro s out rest hs happly
      exact redactPassword_wellFormed hs happly
  refine rewrite_wellFormed ?_ ?_ hpassword
  · intro b s hb
    show redactUserinfo (b :: s) = none
    unfold redactUserinfo
    split
    next r heq => exact absurd (List.cons.inj heq).1 (high_byte hb.1).2.2.2.2.2
    · rfl
  · intro s out rest hs happly
    exact redactUserinfo_wellFormed hs happly

/-! ## The state -/

/-- The strings of a record that `RecordQuery` stores as they are. -/
def FirebirdQueryTelemetry.unescaped (rec : FirebirdQueryTelemetry) : List Bytes :=
  rec.tableName :: rec.errorMessage ::
    (rec.bindsRedacted ++ rec.projectedColumns ++ rec.residualFilters ++ rec.notPushedReasons.map utf8)

/-- The strings of a record. -/
def FirebirdQueryTelemetry.strings (rec : FirebirdQueryTelemetry) : List Bytes :=
  rec.remoteSql :: (rec.pushedFilters ++ rec.unescaped)

/-- DuckDB can build values of all strings of a record. -/
def FirebirdQueryTelemetry.Displayable (rec : FirebirdQueryTelemetry) : Prop := ∀ s ∈ rec.strings, WellFormed s

/-- DuckDB can build all values of `firebird_last_query` and of `firebird_query_log`. -/
structure ObservabilityState.Displayable (state : ObservabilityState) : Prop where
  last : state.last.Displayable
  log : ∀ entry ∈ state.log, entry.Displayable

/-- A call that brings UTF-8: the strings of a record that are not escaped, and the text of an error. -/
def Update.Displays : Update → Prop
  | .recordQuery rec _ _ => ∀ s ∈ rec.unescaped, WellFormed s
  | .setError msg => WellFormed msg
  | _ => True

theorem QueryTelemetry.kept_displayable {rec : QueryTelemetry} (h : ∀ s ∈ rec.unescaped, WellFormed s) :
    rec.kept.Displayable := by
  intro s hs
  rcases List.mem_cons.mp hs with rfl | hs
  · exact makeTelemetrySafeUtf8_wellFormed _
  · rcases List.mem_append.mp hs with hs | hs
    · obtain ⟨filter, -, rfl⟩ := List.mem_map.mp hs
      exact makeTelemetrySafeUtf8_wellFormed _
    · exact h s hs

theorem FirebirdQueryTelemetry.Displayable.setError {rec : FirebirdQueryTelemetry} (h : rec.Displayable) {msg : Bytes}
    (hmsg : WellFormed msg) : ({ rec with errorMessage := msg } : FirebirdQueryTelemetry).Displayable := by
  intro s hs
  by_cases heq : s = msg
  · exact heq ▸ hmsg
  · refine h s ?_
    simp only [strings, unescaped, List.mem_cons, List.mem_append] at hs ⊢
    rcases hs with hs | hs | hs | hs | hs
    · exact .inl hs
    · exact .inr (.inl hs)
    · exact .inr (.inr (.inl hs))
    · exact absurd hs heq
    · exact .inr (.inr (.inr (.inr hs)))

/-- What a change of the newest entry keeps of every entry. -/
theorem forall_modifyLast {α : Type} {P : α → Prop} {f : α → α} (hf : ∀ a, P a → P (f a)) {l : List α}
    (h : ∀ a ∈ l, P a) : ∀ a ∈ l.modifyLast f, P a := by
  rcases RingLog.modifyLast_eq f l with rfl | ⟨init, b, rfl, hmodify⟩
  · exact h
  · rw [hmodify]
    intro a ha
    rcases List.mem_append.mp ha with ha | ha
    · exact h a (List.mem_append_left _ ha)
    · obtain rfl := List.mem_singleton.mp ha
      exact hf b (h b (List.mem_append_right _ List.mem_cons_self))

/-- **A call that brings UTF-8 leaves a state that can be displayed.** -/
theorem ObservabilityState.Displayable.step {state : ObservabilityState} (h : state.Displayable) {update : Update}
    (hupdate : update.Displays) : (state.step update).Displayable := by
  have hentries {f : QueryTelemetry → QueryTelemetry}
      (hf : ∀ entry : QueryTelemetry, entry.Displayable → (f entry).Displayable) :
      ∀ entry ∈ state.log.modifyLast f, entry.Displayable :=
    forall_modifyLast hf h.log
  cases update with
  | recordQuery rec logSize now =>
      have hkept : rec.kept.Displayable := QueryTelemetry.kept_displayable hupdate
      show (state.recordQuery rec logSize now).Displayable
      unfold recordQuery
      split_ifs
      · exact ⟨hkept, List.forall_mem_nil _⟩
      · refine ⟨hkept, ?_⟩
        intro entry hentry
        rcases List.mem_append.mp (List.mem_of_mem_drop hentry) with hold | hnew
        · exact h.log entry hold
        · exact List.mem_singleton.mp hnew ▸ hkept
  | setError msg =>
      have hmsg : WellFormed (sanitizeErrorMessage msg) := sanitizeErrorMessage_wellFormed hupdate
      exact ⟨h.last.setError hmsg, hentries fun _ hentry => FirebirdQueryTelemetry.Displayable.setError hentry hmsg⟩
  -- the metrics are no strings
  | addRows n => exact ⟨h.last, hentries fun _ hentry => hentry⟩
  | addBytes bytes => exact ⟨h.last, hentries fun _ hentry => hentry⟩
  | addFirebirdTimeUs us => exact ⟨h.last, hentries fun _ hentry => hentry⟩
  | updateTotalTimeUs now => exact ⟨h.last, hentries fun _ hentry => hentry⟩

theorem ObservabilityState.displayable_initial : ({} : ObservabilityState).Displayable := by
  refine ⟨?_, List.forall_mem_nil _⟩
  intro s hs
  have hnil : ∀ s ∈ QueryTelemetry.default.strings, s = [] := by decide
  exact hnil s hs ▸ wellFormed_nil

/-- **After calls that bring UTF-8 the telemetry can be displayed.** -/
theorem telemetry_displayable {updates : List Update} (h : ∀ update ∈ updates, update.Displays) :
    (ObservabilityState.after updates).Displayable := by
  have hallowed : Run.Meets ObservabilityState.step (fun _ update => update.Displays) {} updates :=
    .of_forall (fun update hupdate _ => h update hupdate) _
  apply Run.run_invariant _ ObservabilityState.displayable_initial hallowed
  intro state update hstate hupdate
  exact hstate.step hupdate

/-- The last query shows the text of the last error. -/
theorem error_wellFormed {updates : List Update} {msg : Bytes}
    (h : (ObservabilityState.after (updates ++ [.setError msg])).Displayable) :
    WellFormed (sanitizeErrorMessage msg) := by
  unfold ObservabilityState.after at h
  rw [Run.run_concat] at h
  apply h.last
  show sanitizeErrorMessage msg ∈ _ :: (_ ++ (_ :: sanitizeErrorMessage msg :: _))
  exact List.mem_cons_of_mem _ (List.mem_append_right _ (List.mem_cons_of_mem _ List.mem_cons_self))

/-- A statement with a literal in the bytes that a `NONE` column stores. -/
def reencodedSql : Bytes :=
  utf8 "SELECT \"ID\" FROM \"CLIENTES\" WHERE \"NOME\" = _WIN1252 'Jo" ++ [0xE3] ++ utf8 "o'"

/-- The statement is recorded and fails with a message of the server. -/
theorem telemetry_displayable_reencoded :
    (ObservabilityState.after [.recordQuery { QueryTelemetry.default with remoteSql := reencodedSql } 16 0,
      .setError (utf8 "OpenCursor: connection lost")]).Displayable := by
  apply telemetry_displayable
  intro update hupdate
  rcases List.mem_cons.mp hupdate with rfl | hupdate
  · intro s hs
    have hnil : ∀ s ∈ QueryTelemetry.default.unescaped, s = [] := by decide
    exact hnil s hs ▸ wellFormed_nil
  · obtain rfl := List.mem_singleton.mp hupdate
    exact wellFormed_utf8 _

/-- The message has the statement in it, as that of `Prepare` has. -/
theorem telemetry_error_reencoded : ¬ ∀ updates, (ObservabilityState.after updates).Displayable := by
  intro h
  have hmsg := error_wellFormed (h ([.recordQuery { QueryTelemetry.default with remoteSql := reencodedSql } 16 0] ++
    [.setError (utf8 "OpenCursor: isc_dsql_prepare:\n" ++ reencodedSql)]))
  have hinvalid : isValidUtf8 (sanitizeErrorMessage (utf8 "OpenCursor: isc_dsql_prepare:\n" ++ reencodedSql)) = false := by
    decide +kernel
  rw [(isValidUtf8_iff _).mpr hmsg] at hinvalid
  cases hinvalid

end FirebirdScan
