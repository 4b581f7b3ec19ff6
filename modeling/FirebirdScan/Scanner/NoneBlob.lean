import FirebirdScan.Client.AppendValue
import FirebirdScan.Scanner.Schema

/-!
# `Scanner.NoneBlob` — text without a character set, from the bind to the vector

Three functions decide what becomes of a column whose character set is `NONE`. `MapFirebirdColumn` declares it
`BLOB` under `none_encoding = 'blob'`; `ReconcileViewColumnTypes` declares a view's columns once more, from the
live describe; `FirebirdAppendValue` looks at the encoding and not at the vector, and under that setting stores
the bytes as they come.

The second of them does not know of the first's override. `noneBlob_survives_iff` says which binds it spoils:
those where the server describes such a column as text, which for a view it always does.
-/

namespace FirebirdScan

/-! ## What is validated or transcoded is UTF-8 -/

/-- The checks of `IsValidUtf8` on a code point are those of `DecodeUtf8Codepoint`. -/
theorem checkCodepoint_any (fuel minCodepoint cp : Nat) (rest : Bytes) :
    (if cp < minCodepoint then false
      else if cp ≥ 0xD800 ∧ cp ≤ 0xDFFF then false
      else if cp > 0x10FFFF then false
      else isValidUtf8Loop fuel rest) =
      (NoneCharset.checkCodepoint minCodepoint (cp, rest)).any fun p => isValidUtf8Loop fuel p.2 := by
  simp only [NoneCharset.checkCodepoint]
  split_ifs <;> first | rfl | omega

/-- One round of `IsValidUtf8` reads one code point. -/
theorem isValidUtf8Loop_cons (fuel : Nat) (c : UInt8) (s : Bytes) :
    isValidUtf8Loop (fuel + 1) (c :: s) =
      (NoneCharset.decodeUtf8Codepoint (c :: s)).any fun p => isValidUtf8Loop fuel p.2 := by
  unfold NoneCharset.decodeUtf8Codepoint
  rw [isValidUtf8Loop]
  simp only
  by_cases h1 : c.toNat < 0x80
  · rw [if_pos h1, if_pos h1]
    rfl
  rw [if_neg h1, if_neg h1]
  by_cases h2 : c.toNat &&& 0xE0 = 0xC0
  · rw [if_pos h2, if_pos h2]
    cases hcont : NoneCharset.continuationBytes 1 (c.toNat &&& 0x1F) s with
    | none => simp only [hcont, Option.bind_none, Option.any_none]
    | some p =>
        simp only [hcont]
        exact checkCodepoint_any fuel 0x80 p.1 p.2
  rw [if_neg h2, if_neg h2]
  by_cases h3 : c.toNat &&& 0xF0 = 0xE0
  · rw [if_pos h3, if_pos h3]
    cases hcont : NoneCharset.continuationBytes 2 (c.toNat &&& 0x0F) s with
    | none => simp only [hcont, Option.bind_none, Option.any_none]
    | some p =>
        simp only [hcont]
        exact checkCodepoint_any fuel 0x800 p.1 p.2
  rw [if_neg h3, if_neg h3]
  by_cases h4 : c.toNat &&& 0xF8 = 0xF0
  · rw [if_pos h4, if_pos h4]
    cases hcont : NoneCharset.continuationBytes 3 (c.toNat &&& 0x07) s with
    | none => simp only [hcont, Option.bind_none, Option.any_none]
    | some p =>
        simp only [hcont]
        exact checkCodepoint_any fuel 0x10000 p.1 p.2
  rw [if_neg h4, if_neg h4]
  rfl

/-- The loop of `IsValidUtf8` accepts UTF-8, and nothing else. -/
theorem isValidUtf8Loop_iff (fuel : Nat) (s : Bytes) (hfuel : s.length ≤ fuel) :
    isValidUtf8Loop fuel s = true ↔ Utf8.WellFormed s := by
  induction fuel generalizing s with
  | zero =>
      obtain rfl := List.length_eq_zero_iff.mp (Nat.le_zero.mp hfuel)
      exact ⟨fun _ => ⟨[], nofun, rfl⟩, fun _ => rfl⟩
  | succ fuel ih =>
      cases s with
      | nil => exact ⟨fun _ => ⟨[], nofun, rfl⟩, fun _ => rfl⟩
      | cons c s =>
          rw [isValidUtf8Loop_cons, Option.any_eq_true]
          have hshort {cp : Nat} {rest : Bytes} (h : c :: s = Utf8.encodeScalar cp ++ rest) :
              rest.length ≤ fuel := by
            have hlen := congrArg List.length h
            have hpos := List.length_pos_iff.mpr (Utf8.encodeScalar_ne_nil cp)
            rw [List.length_append] at hlen
            omega
          constructor
          · rintro ⟨⟨cp, rest⟩, hdecode, hrest⟩
            obtain ⟨hscalar, hs⟩ := NoneCharset.decodeUtf8Codepoint_eq_some.mp hdecode
            obtain ⟨cps, hcps, rfl⟩ := (ih rest (hshort hs)).mp hrest
            exact ⟨cp :: cps, List.forall_mem_cons.mpr ⟨hscalar, hcps⟩, hs.symm⟩
          · rintro ⟨_ | ⟨cp, cps⟩, hcps, hs⟩
            · cases hs
            obtain ⟨hscalar, hcps⟩ := List.forall_mem_cons.mp hcps
            have hdecode := NoneCharset.decodeUtf8Codepoint_eq_some.mpr ⟨hscalar, hs.symm⟩
            exact ⟨_, hdecode, (ih _ (hshort hs.symm)).mpr (Utf8.wellFormed_encode hcps)⟩

/-- **`IsValidUtf8` accepts exactly UTF-8.** -/
theorem isValidUtf8_iff (s : Bytes) : isValidUtf8 s = true ↔ Utf8.WellFormed s :=
  isValidUtf8Loop_iff s.length s le_rfl

/-- Every encoding but `blob` makes UTF-8 of the text of a column without a character set, or throws. -/
theorem appendText_wellFormed {col : FirebirdColumnDesc} {noneEncoding : NoneEncoding} {str s : Bytes}
    (hcol : col.characterSetId = 0) (henc : noneEncoding ≠ .blob)
    (h : appendText col noneEncoding str = .element (.string s)) : Utf8.WellFormed s := by
  rw [appendText, if_pos hcol, if_neg henc] at h
  cases noneEncoding with
  | strict =>
      by_cases hvalid : isValidUtf8 str = true
      · rw [transcodeNoneCharset, if_pos hvalid] at h
        obtain rfl := Element.string.inj (Appended.element.inj h)
        exact (isValidUtf8_iff str).mp hvalid
      · rw [transcodeNoneCharset, if_neg hvalid] at h
        cases h
  | win1252 =>
      obtain rfl := Element.string.inj (Appended.element.inj h)
      exact NoneCharset.noneToUtf8_wellFormed .win1252 str
  | iso8859_1 =>
      obtain rfl := Element.string.inj (Appended.element.inj h)
      exact NoneCharset.noneToUtf8_wellFormed .iso8859_1 str
  | blob => exact absurd rfl henc

/-! ## What is stored as a string -/

/-- The columns that DuckDB is to see as text. -/
def FirebirdColumnDesc.isText (desc : FirebirdColumnDesc) : Bool :=
  desc.sqltype = .text || desc.sqltype = .varying || (desc.sqltype = .blob && desc.sqlsubtype = 1)

theorem FirebirdColumnDesc.isNoneText_eq {desc : FirebirdColumnDesc} (h : desc.characterSetId = 0) :
    desc.isNoneText = desc.isText := by
  rw [isNoneText, h]
  rfl

/-- Text is declared `VARCHAR`, by `FirebirdToDuckDBType`. -/
theorem firebirdToDuckDBType_isText {desc : FirebirdColumnDesc} (h : desc.isText = true) (widen : Bool) :
    firebirdToDuckDBType desc widen = ⟨.varchar, 0, 0⟩ := by
  simp only [FirebirdColumnDesc.isText, Bool.or_eq_true, Bool.and_eq_true, decide_eq_true_eq] at h
  rcases h with (hsql | hsql) | ⟨hsql, hsub⟩
  · rw [firebirdToDuckDBType, hsql]
  · rw [firebirdToDuckDBType, hsql]
  · rw [firebirdToDuckDBType, hsql]
    exact if_pos hsub

/-- A BLOB that is not text is declared `BLOB`. -/
theorem firebirdToDuckDBType_binary {desc : FirebirdColumnDesc} (hsql : desc.sqltype = .blob)
    (hsub : desc.sqlsubtype ≠ 1) (widen : Bool) : firebirdToDuckDBType desc widen = ⟨.blob, 0, 0⟩ := by
  rw [firebirdToDuckDBType, hsql]
  exact if_neg hsub

/-- A column that is stored as a string is text, or a BLOB that is not. -/
theorem appendWire_string {D : FetchApi} {col : FirebirdColumnDesc} {type : LogicalType}
    {noneEncoding : NoneEncoding} {t : SqlType} {cell : Wire t} {s : Bytes} (ht : col.sqltype = t)
    (h : appendWire D col type noneEncoding cell = .element (.string s)) :
    (col.isText = true ∧ ∃ str, appendText col noneEncoding str = .element (.string s)) ∨
      (col.sqltype = .blob ∧ col.sqlsubtype ≠ 1) := by
  cases cell with
  | text buffer => exact .inl ⟨by rw [FirebirdColumnDesc.isText, ht]; rfl, _, h⟩
  | varying len payload => exact .inl ⟨by rw [FirebirdColumnDesc.isText, ht]; rfl, _, h⟩
  | blob content =>
      by_cases hsub : col.sqlsubtype = 1
      · rw [appendWire, if_pos hsub] at h
        exact .inl ⟨by rw [FirebirdColumnDesc.isText, ht, hsub]; rfl, _, h⟩
      · exact .inr ⟨ht, hsub⟩
  | int64 n =>
      rw [appendWire] at h
      split_ifs at h <;> cases h
  | timestamp date time | timestampTz date time | timestampTzEx date time =>
      obtain ⟨n, hn⟩ := appendTimestamp_element h
      cases hn
  | _ => cases h

/-! ## The columns of a bind -/

section

variable (server : Metadata) (noneEncoding : NoneEncoding) (widen : Bool) (path : BindPath) (table : Bytes)
  (rows : List FieldRow)

/-- Not known to be anything but a view. -/
def mightBeView : Bool :=
  match lookupObjectType server (toUpper table) with
  | .ok (some objectType) => objectType = utf8 "VIEW"
  | _ => true

/-- The live describe from which the columns are declared once more, where they are. -/
def redeclared : Option (List FirebirdColumnDesc) :=
  if path.reconciles = true ∧ mightBeView server table = true then
    (server (.describe (rows.map FieldRow.name) table)).toOption.filter fun live => live.length = rows.length
  else none

/-- What is bound: the catalog's columns, or the live ones with the character sets of the catalog. -/
theorem boundColumns_eq :
    boundColumns server noneEncoding widen path table rows =
      (redeclared server path table rows).elim (readColumns noneEncoding widen rows) fun live =>
        let descs := List.zipWith reconciled live (rows.map FieldRow.desc)
        { names := rows.map FieldRow.name
          types := descs.map fun desc => firebirdToDuckDBType desc widen
          descs := descs } := by
  have hlive : liveDescribe server table widen (readColumns noneEncoding widen rows) =
      ((server (.describe (rows.map FieldRow.name) table)).toOption.filter fun live =>
        live.length = rows.length).elim (readColumns noneEncoding widen rows) fun live =>
          let descs := List.zipWith reconciled live (rows.map FieldRow.desc)
          { names := rows.map FieldRow.name
            types := descs.map fun desc => firebirdToDuckDBType desc widen
            descs := descs } := by
    rw [liveDescribe, readColumns_eq]
    rcases server (.describe (rows.map FieldRow.name) table) with error | live
    · rfl
    · simp only [List.length_map, Except.toOption, Option.filter]
      split_ifs with hlen hlen' hlen'
      · rfl
      · exact absurd (decide_eq_true hlen) hlen'
      · exact absurd (of_decide_eq_true hlen') hlen
      · rfl
  unfold boundColumns redeclared
  cases path.reconciles with
  | false => rfl
  | true =>
      unfold reconcileViewColumnTypes mightBeView
      rcases lookupObjectType server (toUpper table) with error | ⟨_ | objectType⟩
      · exact hlive
      · exact hlive
      · -- a view is described by the server; a base table keeps what the metadata say
        by_cases hview : objectType = utf8 "VIEW"
        · simp only [hview, decide_true, and_self, if_true, ne_eq, not_true, if_false]
          exact hlive
        · simp only [hview, decide_false, and_false, Bool.false_eq_true, if_false, ne_eq, not_false_iff, if_true]
          rfl

/-! ## From the bind to the vector -/

/-- `OverrideCharsetId`, as the scan calls it on a column of its cursor. -/
def overrideCharsetId (desc cursor : FirebirdColumnDesc) : FirebirdColumnDesc :=
  if 0 ≤ desc.characterSetId then { cursor with characterSetId := desc.characterSetId } else cursor

/-- A cursor fetches the column as it was bound: of the same SQL type and, if it is a BLOB, of the same subtype. -/
structure FetchedAs (cursor desc : FirebirdColumnDesc) : Prop where
  sqltype : cursor.sqltype = desc.sqltype
  subtype : cursor.sqltype = .blob → cursor.sqlsubtype = desc.sqlsubtype

theorem FetchedAs.isText {cursor desc : FirebirdColumnDesc} (h : FetchedAs cursor desc) :
    cursor.isText = desc.isText := by
  unfold FirebirdColumnDesc.isText
  by_cases hblob : cursor.sqltype = .blob
  · rw [h.subtype hblob, h.sqltype]
  · have hblob' : desc.sqltype ≠ .blob := h.sqltype ▸ hblob
    rw [decide_eq_false hblob, decide_eq_false hblob', h.sqltype]
    rfl

theorem FetchedAs.override {cursor desc : FirebirdColumnDesc} (h : FetchedAs cursor desc) :
    FetchedAs (overrideCharsetId desc cursor) desc := by
  unfold overrideCharsetId
  split_ifs
  · exact ⟨h.sqltype, h.subtype⟩
  · exact h

theorem overrideCharsetId_zero {cursor desc : FirebirdColumnDesc} (h : desc.characterSetId = 0) :
    (overrideCharsetId desc cursor).characterSetId = 0 := by
  rw [overrideCharsetId, h, if_pos (by decide)]

/-- Text without a character set survives the bind. `blob`: it is declared `BLOB` under that encoding. `utf8`:
    what is stored for such a column in a vector of strings is UTF-8. -/
structure NoneSurvives (D : FetchApi) (noneEncoding : NoneEncoding) (rows : List FieldRow) (bound : TableColumns) :
    Prop where
  blob : noneEncoding = .blob → ∀ (i : Nat) (row : FieldRow) (desc : FirebirdColumnDesc), rows[i]? = some row →
    bound.descs[i]? = some desc → row.charsetId = 0 → desc.isText = true → bound.types[i]? = some ⟨.blob, 0, 0⟩
  utf8 : ∀ (i : Nat) (row : FieldRow) (desc : FirebirdColumnDesc) (type : LogicalType), rows[i]? = some row →
    bound.descs[i]? = some desc → bound.types[i]? = some type → row.charsetId = 0 →
    type.id = .varchar → ∀ cursor, FetchedAs cursor desc → ∀ (cell : Wire (overrideCharsetId desc cursor).sqltype) s,
      firebirdAppendValue D (overrideCharsetId desc cursor) (some cell) type noneEncoding =
        .element (.string s) → Utf8.WellFormed s

/-- Where the columns are declared after a live describe, none that has no character set in the catalog is
    described as text. -/
def NoLiveNoneText (server : Metadata) (path : BindPath) (table : Bytes) (rows : List FieldRow) : Prop :=
  ∀ live, redeclared server path table rows = some live → ∀ (i : Nat) (row : FieldRow) (col : FirebirdColumnDesc),
    rows[i]? = some row → live[i]? = some col → row.charsetId = 0 → col.isText = false

variable {server noneEncoding widen path table rows}

/-- A column of the bind keeps the character set of its row, and its type is the one `MapFirebirdColumn` gave it,
    or the one of the live describe. -/
theorem boundColumns_getElem? {i : Nat} {row : FieldRow} {desc : FirebirdColumnDesc} (hrow : rows[i]? = some row)
    (hdesc : (boundColumns server noneEncoding widen path table rows).descs[i]? = some desc) :
    desc.characterSetId = row.charsetId ∧
      ((redeclared server path table rows = none ∧ desc = row.desc ∧
          (boundColumns server noneEncoding widen path table rows).types[i]? =
            some (columnType desc noneEncoding widen)) ∨
        ∃ live col, redeclared server path table rows = some live ∧ live[i]? = some col ∧
          desc = reconciled col row.desc ∧
          (boundColumns server noneEncoding widen path table rows).types[i]? =
            some (firebirdToDuckDBType desc widen)) := by
  rw [boundColumns_eq] at hdesc ⊢
  rcases hlive : redeclared server path table rows with _ | live
  · simp only [hlive, Option.elim_none, readColumns_eq, List.getElem?_map, hrow, Option.map_some,
      Option.some.injEq] at hdesc ⊢
    subst hdesc
    exact ⟨rfl, .inl ⟨trivial, rfl, rfl⟩⟩
  · simp only [hlive, Option.elim_some, List.getElem?_zipWith, List.getElem?_map, hrow, Option.map_some] at hdesc ⊢
    rcases hcol : live[i]? with _ | col
    · rw [hcol] at hdesc
      cases hdesc
    · rw [hcol] at hdesc
      obtain rfl := Option.some.inj hdesc
      exact ⟨rfl, .inr ⟨live, col, rfl, hcol, rfl, rfl⟩⟩

theorem reconciled_isText (live desc : FirebirdColumnDesc) : (reconciled live desc).isText = live.isText := rfl

/-- A bind that keeps the promise has no live describe of such text. -/
theorem NoneSurvives.noLiveNoneText {D : FetchApi}
    (h : NoneSurvives D noneEncoding rows (boundColumns server noneEncoding widen path table rows))
    (henc : noneEncoding = .blob) : NoLiveNoneText server path table rows := by
  intro live hlive i row col hrow hcol hcharset
  by_contra htext
  have htext : col.isText = true := Bool.eq_true_of_not_eq_false htext
  have hdesc : (boundColumns server noneEncoding widen path table rows).descs[i]? =
      some (reconciled col row.desc) := by
    rw [boundColumns_eq, hlive, Option.elim_some]
    simp only [List.getElem?_zipWith, List.getElem?_map, hrow, hcol, Option.map_some]
  have hblob := h.blob henc i row _ hrow hdesc hcharset htext
  obtain ⟨-, ⟨hnone, -⟩ | ⟨_, _, -, -, -, htype⟩⟩ := boundColumns_getElem? hrow hdesc
  · rw [hlive] at hnone
    cases hnone
  · have hvarchar := firebirdToDuckDBType_isText ((reconciled_isText col row.desc).trans htext) widen
    rw [htype, hvarchar] at hblob
    cases hblob

/-- Without one, the override stands. -/
theorem boundColumns_blob (hcond : NoLiveNoneText server path table rows) (henc : noneEncoding = .blob) {i : Nat}
    {row : FieldRow} {desc : FirebirdColumnDesc} (hrow : rows[i]? = some row)
    (hdesc : (boundColumns server noneEncoding widen path table rows).descs[i]? = some desc)
    (hcharset : row.charsetId = 0) (htext : desc.isText = true) :
    (boundColumns server noneEncoding widen path table rows).types[i]? = some ⟨.blob, 0, 0⟩ := by
  obtain ⟨hset, ⟨-, -, htype⟩ | ⟨live, col, hlive, hcol, rfl, -⟩⟩ := boundColumns_getElem? hrow hdesc
  · have hnone : desc.isNoneText = true := (FirebirdColumnDesc.isNoneText_eq (hset.trans hcharset)).trans htext
    rw [htype, columnType, if_pos ⟨henc, hnone⟩]
  · have hfalse := hcond live hlive i row col hrow hcol hcharset
    rw [reconciled_isText, hfalse] at htext
    cases htext

/-- A binary BLOB is bound as such. -/
theorem boundColumns_binary {i : Nat} {row : FieldRow} {desc : FirebirdColumnDesc} {type : LogicalType}
    (hrow : rows[i]? = some row)
    (hdesc : (boundColumns server noneEncoding widen path table rows).descs[i]? = some desc)
    (htype : (boundColumns server noneEncoding widen path table rows).types[i]? = some type)
    (hsql : desc.sqltype = .blob) (hsub : desc.sqlsubtype ≠ 1) : type = ⟨.blob, 0, 0⟩ := by
  have hbinary := firebirdToDuckDBType_binary hsql hsub widen
  obtain ⟨-, ⟨-, -, hcolumn⟩ | ⟨_, _, -, -, -, hlive⟩⟩ := boundColumns_getElem? hrow hdesc
  · rw [htype, Option.some.injEq] at hcolumn
    rw [hcolumn, columnType, hbinary, ite_self]
  · rw [htype, Option.some.injEq] at hlive
    exact hlive.trans hbinary

/-- **Which binds keep the promise of `none_encoding = 'blob'`**: those that do not declare the columns after a
    live describe, and those where that describe has no text in a column whose character set is `NONE` in the
    catalog. Under any other encoding, every bind does. -/
theorem noneBlob_survives_iff (D : FetchApi) (server : Metadata) (noneEncoding : NoneEncoding) (widen : Bool)
    (path : BindPath) (table : Bytes) (rows : List FieldRow) :
    NoneSurvives D noneEncoding rows (boundColumns server noneEncoding widen path table rows) ↔
      (noneEncoding = .blob → NoLiveNoneText server path table rows) := by
  constructor
  · intro h henc
    exact h.noLiveNoneText henc
  · intro hcond
    refine ⟨fun henc i row desc => boundColumns_blob (hcond henc) henc, ?_⟩
    intro i row desc type hrow hdesc htype hcharset hvarchar cursor hfetched cell s happend
    obtain ⟨hset, -⟩ := boundColumns_getElem? hrow hdesc
    have hcursor := hfetched.override
    have hzero : (overrideCharsetId desc cursor).characterSetId = 0 := overrideCharsetId_zero (hset.trans hcharset)
    rcases appendWire_string rfl happend with ⟨htext, str, hstr⟩ | ⟨hsql, hsub⟩
    · by_cases henc : noneEncoding = .blob
      · have hblob := boundColumns_blob (hcond henc) henc hrow hdesc hcharset (hcursor.isText ▸ htext)
        rw [htype] at hblob
        obtain rfl := Option.some.inj hblob
        cases hvarchar
      · exact appendText_wellFormed hzero henc hstr
    · have hblob := boundColumns_binary hrow hdesc htype (hcursor.sqltype ▸ hsql) (hcursor.subtype hsql ▸ hsub)
      rw [hblob] at hvarchar
      cases hvarchar

end

/-- A byte that begins no code point is not UTF-8. -/
theorem not_wellFormed_of_decode {s : Bytes} (hne : s ≠ []) (h : NoneCharset.decodeUtf8Codepoint s = none) :
    ¬Utf8.WellFormed s := by
  rintro ⟨_ | ⟨cp, cps⟩, hcps, rfl⟩
  · exact hne rfl
  · rw [Utf8.encode_cons, NoneCharset.decodeUtf8Codepoint_eq_some.mpr ⟨hcps cp List.mem_cons_self, rfl⟩] at h
    cases h

/-- The name of a client, in a database without a character set. -/
def clientName : FieldRow where
  name := utf8 "NAME"
  fieldType := 37
  length := 40
  charsetId := 0

/-- A server that knows the view of the clients, and describes its column. -/
def clientsView : Metadata
  | .objectType _ => .ok (some (utf8 "VIEW"))
  | .describe _ _ => .ok [{ name := utf8 "NAME", sqltype := .varying, sqllen := 40 }]
  | _ => .error (utf8 "not asked")

/-- **A view's text is a string of raw bytes**: the describe makes a `VARCHAR` of the column, and the writer stores
    the Windows-1252 byte of `é` in it. -/
theorem clientsView_raw :
    (boundColumns clientsView .blob false .direct (utf8 "CLIENTS") [clientName]).types = [⟨.varchar, 0, 0⟩] ∧
    (∀ D, firebirdAppendValue D clientName.desc (some (.varying 1 [0xE9])) ⟨.varchar, 0, 0⟩ .blob =
      .element (.string [0xE9])) ∧
    ¬Utf8.WellFormed [0xE9] ∧
    ¬∃ D, NoneSurvives D .blob [clientName]
      (boundColumns clientsView .blob false .direct (utf8 "CLIENTS") [clientName]) := by
  have htypes : (boundColumns clientsView .blob false .direct (utf8 "CLIENTS") [clientName]).types =
      [⟨.varchar, 0, 0⟩] := by decide +kernel
  refine ⟨htypes, fun D => rfl, not_wellFormed_of_decode (by decide) (by decide), ?_⟩
  rintro ⟨D, h⟩
  have hblob := h.blob rfl 0 clientName _ rfl (by rfl) rfl (by rfl)
  rw [htypes] at hblob
  cases hblob

end FirebirdScan
