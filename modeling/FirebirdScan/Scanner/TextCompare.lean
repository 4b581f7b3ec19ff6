import FirebirdScan.Client.Fetch
import FirebirdScan.Scanner.Pushed

/-!
# `Scanner.TextCompare` — text columns against constants

The server pads the shorter of two texts with blanks before it compares their bytes; DuckDB compares the
bytes of the value it was given, and `GetText` takes the trailing blanks off a `CHAR`. So the two differ on
texts one of which is a prefix of the other (`Lib.PadSpace`); and a constant too long for the 16 bits of its
length arrives cut, or, where the first of these bits is a sign and is set, not at all.

`text_pushdown_exact_iff` says for which stored value and constants a pushed test agrees with DuckDB's, both
for constants that are bound and for those inlined for a column of `CHARACTER SET NONE`.
-/

namespace FirebirdScan

open SearchCondition

/-! ## The two sides -/

/-- What is stored in a text column: a `CHAR` has its full length. -/
inductive StoredText where
  | char (buffer : Bytes) (short : buffer.length < 2 ^ 15)
  | varchar (payload : Bytes) (short : payload.length < 2 ^ 15)

def StoredText.bytes : StoredText → Bytes
  | .char buffer _ => buffer
  | .varchar payload _ => payload

/-- The column's value: the trailing blanks of a `CHAR` are not part of it. -/
def StoredText.value : StoredText → Bytes
  | .char buffer _ => PadSpace.rtrim 0x20 buffer
  | .varchar payload _ => payload

def StoredText.cell : StoredText → Cell
  | .char buffer _ => .text buffer (Int16.ofNat buffer.length)
  | .varchar payload _ => .varying (UInt16.ofNat payload.length) payload

/-- A placeholder the server describes as text. -/
structure TextVar extends Xsqlvar where
  isText : sqltype = .text ∨ sqltype = .varying

/-- DuckDB compares bytes. -/
def bytesAlgebra : Algebra Bytes := ⟨fun _ => false, fun op a b => op.decides (PadSpace.order a b)⟩

/-- The server pads with blanks. -/
def paddedAlgebra : Algebra Bytes := ⟨fun _ => false, fun op a b => op.decides (PadSpace.padOrder 0x20 a b)⟩

theorem decides_eq {o : Ordering} : CompareOp.eq.decides o = true ↔ o = .eq := beq_iff_eq

theorem bytes_test_eq {a b : Bytes} : bytesAlgebra.test .eq a b = .true ↔ a = b := by
  rw [Algebra.test_eq_ofBool rfl rfl, Truth.ofBool_eq_true, bytesAlgebra, decides_eq, PadSpace.order_eq_iff]

theorem padded_test_eq {a b : Bytes} :
    paddedAlgebra.test .eq a b = .true ↔ PadSpace.rtrim 0x20 a = PadSpace.rtrim 0x20 b := by
  rw [Algebra.test_eq_ofBool rfl rfl, Truth.ofBool_eq_true, paddedAlgebra, decides_eq, PadSpace.padOrder_eq_iff]

/-- The part of a constant that arrives: its length has 16 bits. -/
def received (c : String) : Bytes := (utf8 c).take ((utf8 c).length % 2 ^ 16)

/-! ## The condition -/

/-- The constant arrives at the placeholder: described as a `CHAR`, its length is not stored as one below zero. -/
def Readable (var : TextVar) (c : String) : Prop := var.sqltype = .text → (utf8 c).length % 2 ^ 16 < 2 ^ 15

/-- The constants arrive. The padding, or what the constant lost, makes no difference that the operator sees; and no
    element of a list is the value only up to trailing blanks, unless the value itself is in the list. -/
def ExactText (var : TextVar) (value : Bytes) : ParamTest String → Prop
  | .compare op c =>
      Readable var c ∧ ¬PadSpace.CutDiffers 0x20 op value (received c) ((utf8 c).drop (received c).length)
  | .inList _ c cs =>
      (∀ e ∈ c :: cs, Readable var e) ∧
        ((∃ e ∈ c :: cs, PadSpace.rtrim 0x20 value = PadSpace.rtrim 0x20 (received e)) →
          ∃ e ∈ c :: cs, value = utf8 e)

/-! ## What is read and what arrives -/

theorem characters_cell (stored : StoredText) : stored.cell.characters = some stored.bytes := by
  cases stored with
  | char buffer short =>
      have hlength : (Int16.ofNat buffer.length).toInt = buffer.length := Int16.toInt_ofNat_of_lt short
      rw [StoredText.cell, Cell.characters, counted, hlength, if_pos (Int.natCast_nonneg _), Int.toNat_natCast,
        List.take_length]
      rfl
  | varchar payload short =>
      have hshort : payload.length < 2 ^ 16 := by omega
      rw [StoredText.cell, Cell.characters, UInt16.toNat_ofNat_of_lt' hshort, List.take_length]
      rfl

/-- **`GetText` returns the column's value.** -/
theorem getText_cell (stored : StoredText) : getText stored.cell = stored.value := by
  cases stored with
  | char buffer short =>
      have hlength : (Int16.ofNat buffer.length).toInt = buffer.length := Int16.toInt_ofNat_of_lt short
      have hsize : sizeT (Int16.ofNat buffer.length) = buffer.length := by
        unfold sizeT
        rw [hlength]
        omega
      rw [StoredText.cell, getText, hsize, take_trimmedLength buffer (Nat.le_refl _), List.take_length]
      rfl
  | varchar payload short =>
      have hshort : payload.length < 2 ^ 16 := by omega
      rw [StoredText.cell, getText, UInt16.toNat_ofNat_of_lt' hshort, List.take_length]
      rfl

theorem rtrim_value (stored : StoredText) :
    PadSpace.rtrim 0x20 stored.value = PadSpace.rtrim 0x20 stored.bytes := by
  cases stored with
  | char buffer short => exact List.rdropWhile_idempotent _ _
  | varchar payload short => rfl

theorem length_value (stored : StoredText) : stored.value.length < 2 ^ 15 := by
  cases stored with
  | char buffer short =>
      have hle := (List.rdropWhile_prefix (fun b : UInt8 => b = 0x20) (l := buffer)).length_le
      rw [StoredText.value, PadSpace.rtrim]
      omega
  | varchar payload short => exact short

/-- The server may as well compare the value. -/
theorem padOrder_value (stored : StoredText) (c : Bytes) :
    PadSpace.padOrder 0x20 stored.bytes c = PadSpace.padOrder 0x20 stored.value c := by
  rw [← PadSpace.padOrder_rtrim, ← rtrim_value, PadSpace.padOrder_rtrim]

section Encoding

variable {D : ValueApi} {var : TextVar}

theorem received_of_short {c : String} (h : (utf8 c).length < 2 ^ 16) : received c = utf8 c := by
  rw [received, Nat.mod_eq_of_lt h, List.take_length]

/-- **What arrives of a constant**: the received part, and perhaps more blanks. -/
theorem encoded_varchar {c : String} (hread : Readable var c) :
    ∃ cell j, encoded D var.toXsqlvar (.varchar c) = some cell ∧ cell.isNull = false ∧
      cell.characters = some (received c ++ List.replicate j 0x20) := by
  unfold encoded bindInputParameter
  rw [if_neg (by simp [Value.isNull])]
  rcases var.isText with htype | htype
  · simp only [htype, D.toText_varchar]
    have hsign := hread htype
    rcases Nat.lt_or_ge (utf8 c).length (2 ^ 15) with hshort | hlong
    · have hcounted := counted_short (utf8 c) var.sqllen_short hshort
      refine ⟨_, max var.sqllen (utf8 c).length - (utf8 c).length,
        Option.filter_eq_some_iff.mpr ⟨rfl, Option.isSome_of_eq_some hcounted⟩, rfl, ?_⟩
      rw [Cell.characters, hcounted, received_of_short (by omega)]
    · have hcounted := counted_long (utf8 c) var.sqllen_short hlong
      rw [if_pos hsign] at hcounted
      refine ⟨_, 0, Option.filter_eq_some_iff.mpr ⟨rfl, Option.isSome_of_eq_some hcounted⟩, rfl, ?_⟩
      rw [Cell.characters, hcounted, List.replicate_zero, List.append_nil]
      rfl
  · simp only [htype, D.toText_varchar]
    refine ⟨_, 0, rfl, rfl, ?_⟩
    rw [Cell.characters, UInt16.toNat_ofNat', List.replicate_zero, List.append_nil]
    rfl

/-- Nothing arrives by a length below zero. -/
theorem encoded_varchar_unreadable {c : String} (hread : ¬Readable var c) :
    encoded D var.toXsqlvar (.varchar c) = none := by
  obtain ⟨htype, hsign⟩ := Classical.not_imp.mp hread
  have hcounted := counted_long (utf8 c) var.sqllen_short (by omega)
  rw [if_neg hsign] at hcounted
  unfold encoded bindInputParameter
  rw [if_neg (by simp [Value.isNull])]
  simp only [htype, D.toText_varchar]
  refine Option.filter_eq_none_iff.mpr ?_
  rintro cell hcell hreadable
  obtain rfl := Option.some.inj hcell
  rw [Cell.readable, hcounted] at hreadable
  cases hreadable

/-- Comparing cells of text is comparing their characters, padded. -/
theorem cell_compare_text {stored : StoredText} {cell : Cell} {c : String} {j : Nat}
    (h : cell.characters = some (received c ++ List.replicate j 0x20)) (op : CompareOp) :
    cellAlgebra.compare op stored.cell cell =
      op.decides (PadSpace.padOrder 0x20 stored.value (received c)) := by
  have horder : stored.cell.order cell =
      some (PadSpace.padOrder 0x20 stored.bytes (received c ++ List.replicate j 0x20)) := by
    have hstored := characters_cell stored
    have hbind : stored.cell.order cell =
        stored.cell.characters.bind fun s => cell.characters.map fun t => PadSpace.padOrder 0x20 s t := by
      cases stored <;> rfl
    rw [hbind, hstored, h]
    rfl
  rw [PadSpace.padOrder_append_replicate_right, padOrder_value] at horder
  simp [cellAlgebra, horder]

/-! ## The answers -/

/-- The server's test on a stored value has an answer, which is true exactly when DuckDB's is, on the value it gets. -/
def SameTruth (D : ValueApi) (var : TextVar) (test : ParamTest String) (stored : StoredText) : Prop :=
  ∃ answer, serverAnswer D var.toXsqlvar (test.map Value.varchar) stored.cell = some answer ∧
    (answer = .true ↔ (test.map utf8).truth bytesAlgebra (getText stored.cell) = .true)

theorem isNull_storedText (stored : StoredText) : stored.cell.isNull = false := by cases stored <;> rfl

/-- Where a constant does not arrive, there is no answer. -/
theorem not_sameTruth {test : ParamTest String} {c : String} (hc : c ∈ test.params) (hread : ¬Readable var c)
    (stored : StoredText) : ¬SameTruth D var test stored := by
  rintro ⟨answer, hanswer, -⟩
  rw [serverAnswer_eq_none hc (encoded_varchar_unreadable hread)] at hanswer
  cases hanswer

theorem sameTruth_compare_iff (op : CompareOp) (c : String) (stored : StoredText) :
    SameTruth D var (.compare op c) stored ↔ ExactText var stored.value (.compare op c) := by
  by_cases hread : Readable var c
  · obtain ⟨cell, j, hcell, hnull, hchars⟩ := encoded_varchar (D := D) hread
    have hserver := serverAnswer_compare (f := Value.varchar) op (isNull_storedText stored) hcell hnull
    have hwhole : received c ++ (utf8 c).drop (received c).length = utf8 c :=
      List.prefix_iff_eq_append.mp (List.take_prefix _ _)
    have hduckdb : (ParamTest.map utf8 (.compare op c)).truth bytesAlgebra stored.value =
        .ofBool (op.decides (PadSpace.order stored.value (utf8 c))) := rfl
    rw [ExactText, and_iff_right hread, ← PadSpace.decides_cut_iff, hwhole, SameTruth, hserver, getText_cell, hduckdb,
      cell_compare_text hchars]
    simp only [Option.some.injEq, exists_eq_left', Truth.ofBool_eq_true]
    exact Bool.eq_iff_iff.symm
  · exact iff_of_false (not_sameTruth (List.mem_singleton_self c) hread stored) fun hexact => hread hexact.1

theorem sameTruth_inList_iff (negated : Bool) (c : String) (cs : List String) (stored : StoredText) :
    SameTruth D var (.inList negated c cs) stored ↔ ExactText var stored.value (.inList negated c cs) := by
  by_cases hread : ∀ e ∈ c :: cs, Readable var e
  · have harrives : ∀ e ∈ c :: cs, ∃ cell, encoded D var.toXsqlvar (.varchar e) = some cell ∧
        cell.isNull = false ∧ (cellAlgebra.compare .eq stored.cell cell = true ↔
          PadSpace.rtrim 0x20 stored.value = PadSpace.rtrim 0x20 (received e)) := by
      intro e he
      obtain ⟨cell, j, hcell, hnull, hchars⟩ := encoded_varchar (D := D) (hread e he)
      refine ⟨cell, hcell, hnull, ?_⟩
      rw [cell_compare_text hchars, decides_eq, PadSpace.padOrder_eq_iff]
    obtain ⟨found, hserver, hfound⟩ :=
      serverAnswer_inList Value.varchar negated _ (isNull_storedText stored) harrives
    obtain ⟨found', hduckdb, hfound'⟩ := ParamTest.truth_inList (A := bytesAlgebra) (a := stored.value) (utf8 c)
      (cs.map utf8) rfl (fun _ _ => rfl) negated
    have hmember : found' = true ↔ ∃ e ∈ c :: cs, stored.value = utf8 e := by
      rw [hfound', ← List.map_cons]
      simp only [bytesAlgebra, decides_eq, PadSpace.order_eq_iff, List.mem_map, exists_exists_and_eq_and]
    -- a value that is in the list arrives whole
    have hwhole : found' = true → found = true := by
      rw [hmember, hfound]
      rintro ⟨e, he, heq⟩
      have hlen := length_value stored
      rw [heq] at hlen
      exact ⟨e, he, by rw [received_of_short (by omega), heq]⟩
    rw [SameTruth, hserver, getText_cell, ParamTest.map, hduckdb, ExactText, and_iff_right hread, ← hfound, ← hmember]
    simp only [Option.some.injEq, exists_eq_left', Truth.ofBool_eq_true]
    cases found <;> cases found' <;> cases negated <;> simp at hwhole ⊢
  · refine iff_of_false ?_ fun hexact => hread hexact.1
    push Not at hread
    obtain ⟨e, he, hread⟩ := hread
    exact not_sameTruth he hread stored

end Encoding

/-! ## Literals for `CHARACTER SET NONE` -/

/-- The server's lexer at a literal with a character set introducer. -/
def readLiteral (introducer s : Bytes) : Option (Bytes × Bytes) :=
  (s.dropPrefix? introducer).bind (readQuoted 0x27)

/-- The literals of a list, after its opening parenthesis; each spends one unit of fuel. -/
def readLiterals (introducer : Bytes) : Nat → Bytes → Option (List Bytes)
  | 0, _ => none
  | n + 1, s =>
      (readLiteral introducer s).bind fun (b, s) =>
        if s = utf8 ")" then some [b]
        else (s.dropPrefix? (utf8 ", ")).bind fun s => (readLiterals introducer n s).map (b :: ·)

/-- What follows the column; an equality is a list of one. -/
def readNone (introducer s : Bytes) : Option (List Bytes) :=
  match s.dropPrefix? (utf8 " = ") with
  | some s => (readLiteral introducer s).bind fun (b, s) => if s = [] then some [b] else none
  | none => (s.dropPrefix? (utf8 " IN (")).bind fun s => readLiterals introducer s.length s

/-- What the server answers for a stored value. -/
def noneAnswer (introducer text stored : Bytes) : Option Truth :=
  (readNone introducer text).map (paddedAlgebra.member stored)

section None

variable {introducer : Bytes}

theorem readLiteral_emitted (b : Bytes) {rest : Bytes} (hrest : rest.head? ≠ some 0x27) :
    readLiteral introducer (introducer ++ sqlLiteral b ++ rest) = some (b, rest) := by
  rw [readLiteral, List.append_assoc, dropPrefix?_append, Option.bind_some]
  exact readQuoted_quoted 0x27 b hrest

/-- The items of a list are read back. -/
theorem readLiterals_emitted (b : Bytes) (bs : List Bytes) {n : Nat} (hn : bs.length < n) :
    readLiterals introducer n
      ((utf8 ", ").intercalate ((b :: bs).map fun b => introducer ++ sqlLiteral b) ++ utf8 ")") =
        some (b :: bs) := by
  induction bs generalizing b n with
  | nil =>
      obtain ⟨n, rfl⟩ : ∃ m, n = m + 1 := ⟨n - 1, by omega⟩
      rw [List.map_cons, List.map_nil, List.intercalate_singleton, readLiterals,
        readLiteral_emitted b (by decide), Option.bind_some]
      rfl
  | cons c bs ih =>
      rw [List.length_cons] at hn
      obtain ⟨n, rfl⟩ : ∃ m, n = m + 1 := ⟨n - 1, by omega⟩
      have hsep : ∀ rest : Bytes, (utf8 ", " ++ rest).head? ≠ some 0x27 ∧ utf8 ", " ++ rest ≠ utf8 ")" := by
        intro rest
        have htext : utf8 ", " = [0x2C, 0x20] := by decide
        have hclose : utf8 ")" = [0x29] := by decide
        rw [htext, hclose]
        simp
      rw [List.map_cons, List.map_cons, List.intercalate_cons_cons, List.append_assoc, List.append_assoc,
        readLiterals, readLiteral_emitted b (hsep _).1, Option.bind_some]
      have hitems := ih c (n := n) (by omega)
      rw [List.map_cons] at hitems
      simp only [if_neg (hsep _).2, dropPrefix?_append, Option.bind_some, hitems, Option.map_some]

variable (introducer) in
theorem length_items (b : Bytes) (bs : List Bytes) :
    bs.length < ((utf8 ", ").intercalate ((b :: bs).map fun b => introducer ++ sqlLiteral b)).length := by
  induction bs generalizing b with
  | nil => simp [sqlLiteral, quoted]
  | cons c bs ih =>
      have htail := ih c
      have hsep : (utf8 ", ").length = 2 := by decide
      rw [List.map_cons] at htail
      rw [List.map_cons, List.map_cons, List.intercalate_cons_cons, List.length_append, List.length_append,
        List.length_cons]
      omega

theorem noneSql_append (colExpr : Bytes) (isIn : Bool) (encoded : List Bytes) :
    noneSql colExpr introducer isIn encoded = colExpr ++ noneSql [] introducer isIn encoded := by
  cases isIn <;> simp [noneSql, List.append_assoc]

/-- The text the hook writes after the column is read as the literals. -/
theorem readNone_emitted {isIn : Bool} {encoded : List Bytes} (hne : encoded ≠ [])
    (hone : isIn = false → encoded.length = 1) :
    readNone introducer (noneSql [] introducer isIn encoded) = some encoded := by
  obtain ⟨b, bs, rfl⟩ := List.exists_cons_of_ne_nil hne
  cases isIn with
  | false =>
      obtain rfl : bs = [] := List.length_eq_zero_iff.mp (by simpa using hone rfl)
      have hread := @readLiteral_emitted introducer b [] (by simp)
      rw [List.append_nil] at hread
      simp only [noneSql, Bool.false_eq_true, if_false, List.nil_append, List.append_assoc, readNone,
        dropPrefix?_append, List.headD_cons, hread, Option.bind_some, if_true]
  | true =>
      have hno : ∀ rest : Bytes, (utf8 " IN (" ++ rest).dropPrefix? (utf8 " = ") = none := by
        intro rest
        have hin : utf8 " IN (" = [0x20, 0x49, 0x4E, 0x20, 0x28] := by decide
        have heq : utf8 " = " = [0x20, 0x3D, 0x20] := by decide
        rw [hin, heq]
        rfl
      have hlen := length_items introducer b bs
      simp only [noneSql, if_true, List.nil_append, List.append_assoc, readNone, hno, dropPrefix?_append,
        Option.bind_some]
      apply readLiterals_emitted
      rw [List.length_append]
      omega

/-- A list of items has at least one. -/
theorem columnAndItems_ne_nil {α : Type} {item : Expression → Option α} {children : List Expression}
    {col : Nat} {items : List α} (h : columnAndItems item children = some (col, items)) : items ≠ [] := by
  unfold columnAndItems at h
  split at h
  · obtain ⟨items', hitems, heq⟩ := Option.map_eq_some_iff.mp h
    obtain ⟨-, rfl⟩ := Prod.mk.inj heq
    have hlen := ParamTest.length_of_mapM hitems
    rintro rfl
    simp at hlen
  · cases h

theorem noneShape_values {e : Expression} {col : Nat} {isIn : Bool} {values : List String}
    (h : noneShape e = some (col, isIn, values)) : values ≠ [] ∧ (isIn = false → values.length = 1) := by
  unfold noneShape at h
  split at h
  next hin =>
    obtain ⟨-, heq⟩ := Prod.mk.inj (Option.some.inj h)
    obtain ⟨rfl, rfl⟩ := Prod.mk.inj heq
    refine ⟨?_, by simp⟩
    unfold tryExtractInList at hin
    split at hin
    · exact columnAndItems_ne_nil hin
    · cases hin
  next =>
    obtain ⟨p, -, heq⟩ := Option.map_eq_some_iff.mp h
    obtain ⟨-, heq⟩ := Prod.mk.inj heq
    obtain ⟨rfl, rfl⟩ := Prod.mk.inj heq
    exact ⟨by simp, fun _ => rfl⟩

end None

/-- The hook takes the predicate `e`: an equality or a list on a `CHAR` or `VARCHAR` of `CHARACTER SET NONE`,
    whose literals can be re-encoded. -/
structure TakesLiterals (bind : FirebirdBindData) (colIds : List Nat) (e : Expression) (col src : Nat)
    (isIn : Bool) (values : List String) (encoded : List Bytes) : Prop where
  shape : noneShape e = some (col, isIn, values)
  resolves : bind.resolveSrcCol colIds col = some src
  active : bind.nonePushdownActive = true
  column : (bind.columnDescs[src]?).any isNoneCharVarcharColumn = true
  encodes : (values.mapM fun v => NoneCharset.tryEncodeNoneLiteral (utf8 v) bind.noneEncoding) = some encoded

namespace TakesLiterals

variable {api : DuckdbApi} {bind : FirebirdBindData} {colIds : List Nat} {e : Expression} {col src : Nat}
  {isIn : Bool} {values : List String} {encoded : List Bytes}

theorem transcodes (h : TakesLiterals bind colIds e col src isIn values encoded) :
    NoneCharset.Transcodes bind.noneEncoding := by
  have hactive := h.active
  rw [FirebirdBindData.nonePushdownActive, Bool.and_eq_true, Bool.or_eq_true] at hactive
  exact hactive.2.imp of_decide_eq_true of_decide_eq_true

variable (api) in
/-- The text that is pushed, and what the server reads after the column. -/
theorem pushed (h : TakesLiterals bind colIds e col src isIn values encoded) :
    ∃ text, pushdownOf api bind colIds e = .push { sql := bind.colExpr src ++ text } ∧
      readNone (nonePushdownIntroducer bind.noneEncoding) text = some encoded := by
  obtain ⟨hne, hone⟩ := noneShape_values h.shape
  have hlen := ParamTest.length_of_mapM h.encodes
  refine ⟨noneSql [] (nonePushdownIntroducer bind.noneEncoding) isIn encoded, ?_, readNone_emitted ?_ ?_⟩
  · obtain ⟨desc, hdesc, hcolumn⟩ := (Option.any_eq_true _ _).mp h.column
    have hnone : nonePushdown bind colIds e =
        some (.push { sql := noneSql (bind.colExpr src) (nonePushdownIntroducer bind.noneEncoding) isIn encoded }) := by
      simp [nonePushdown, h.shape, h.resolves, h.active, hdesc, hcolumn, h.encodes]
    rw [pushdownOf, likePushdown_of_noneShape h.shape, hnone, noneSql_append]
    rfl
  · rintro rfl
    exact hne (List.length_eq_zero_iff.mp hlen)
  · intro hin
    rw [← hlen]
    exact hone hin

/-- A value decodes to one of the literals exactly if it is one of their encodings. -/
theorem decodes_iff (h : TakesLiterals bind colIds e col src isIn values encoded) (value : Bytes) :
    bytesAlgebra.member (NoneCharset.noneToUtf8 bind.noneEncoding value) (values.map utf8) = .true ↔
      value ∈ encoded := by
  have hdecode : ∀ v b, NoneCharset.tryEncodeNoneLiteral (utf8 v) bind.noneEncoding = some b →
      NoneCharset.noneToUtf8 bind.noneEncoding b = utf8 v := fun v b hb =>
    ((NoneCharset.tryEncodeNoneLiteral_eq_some h.transcodes).mp hb).1
  rw [Algebra.member_eq_true]
  simp only [bytes_test_eq, List.mem_map, exists_exists_and_eq_and]
  constructor
  · rintro ⟨v, hv, heq⟩
    -- the literal has an encoding, and the decoding is injective
    have hsome := ParamTest.isSome_mapM.mp (Option.isSome_of_eq_some h.encodes) v hv
    obtain ⟨b, hb⟩ := Option.isSome_iff_exists.mp hsome
    have hvalue : value = b := NoneCharset.noneToUtf8_injective h.transcodes (heq.trans (hdecode v b hb).symm)
    rw [hvalue]
    exact (ParamTest.mem_of_mapM h.encodes b).mpr ⟨v, hv, hb⟩
  · intro hmem
    obtain ⟨v, hv, hb⟩ := (ParamTest.mem_of_mapM h.encodes value).mp hmem
    exact ⟨v, hv, hdecode v value hb⟩

/-- The server compares with the encodings, padded. -/
theorem padded_iff (stored : StoredText) (encoded : List Bytes) :
    paddedAlgebra.member stored.bytes encoded = .true ↔
      ∃ b ∈ encoded, PadSpace.rtrim 0x20 stored.value = PadSpace.rtrim 0x20 b := by
  rw [Algebra.member_eq_true]
  simp only [padded_test_eq, rtrim_value]

end TakesLiterals

/-- The server's answer on a stored value is true exactly when DuckDB's is, on the decoded value it gets. -/
def SameTruthNone (mode : NoneEncoding) (text : Bytes) (values : List String) (stored : StoredText) : Prop :=
  noneAnswer (nonePushdownIntroducer mode) text stored.bytes = some .true ↔
    bytesAlgebra.member (NoneCharset.noneToUtf8 mode (getText stored.cell)) (values.map utf8) = .true

/-- No encoded literal is the value only up to trailing blanks, unless the value itself is one. -/
def ExactNone (value : Bytes) (encoded : List Bytes) : Prop :=
  (∃ b ∈ encoded, PadSpace.rtrim 0x20 value = PadSpace.rtrim 0x20 b) → value ∈ encoded

/-- **A pushed text test agrees with DuckDB's on a stored value exactly when neither the padding nor the length
    makes a difference.** With constants as parameters: the text the extension writes, read by the server and
    compared with what arrives of them. With literals for a column of `CHARACTER SET NONE`: the text the hook
    writes, read as the encodings of the literals. -/
theorem text_pushdown_exact_iff (D : ValueApi) (var : TextVar) (stored : StoredText) :
    (∀ test : ParamTest String,
      (∀ columnName : Bytes, pushed columnName (test.map Value.varchar) =
        some (render (fun _ : Unit => columnName) ((test.map Value.varchar).tokens ()),
          test.params.map Value.varchar)) ∧
      (SameTruth D var test stored ↔ ExactText var stored.value test)) ∧
    ∀ (api : DuckdbApi) (bind : FirebirdBindData) (colIds : List Nat) (e : Expression) (col src : Nat)
      (isIn : Bool) (values : List String) (encoded : List Bytes),
      TakesLiterals bind colIds e col src isIn values encoded →
      ∃ text, pushdownOf api bind colIds e = .push { sql := bind.colExpr src ++ text } ∧
        (SameTruthNone bind.noneEncoding text values stored ↔ ExactNone stored.value encoded) := by
  refine ⟨fun test => ⟨fun columnName => ?_, ?_⟩, ?_⟩
  · rw [← ParamTest.params_map]
    apply pushed_eq (fun _ : Unit => columnName) ()
    intro v hv
    rw [ParamTest.params_map] at hv
    obtain ⟨c, -, rfl⟩ := List.mem_map.mp hv
    rfl
  · cases test with
    | compare op c => exact sameTruth_compare_iff op c stored
    | inList negated c cs => exact sameTruth_inList_iff negated c cs stored
  · intro api bind colIds e col src isIn values encoded h
    obtain ⟨text, hpush, hread⟩ := h.pushed api
    refine ⟨text, hpush, ?_⟩
    rw [SameTruthNone, noneAnswer, hread, Option.map_some, Option.some.injEq, getText_cell, h.decodes_iff,
      TakesLiterals.padded_iff, ExactNone]
    constructor
    · intro hsame hpadded
      exact hsame.mp hpadded
    · intro hexact
      exact ⟨hexact, fun hmem => ⟨_, hmem, rfl⟩⟩

/-- The server's description of a placeholder compared with a `VARCHAR(10)`. -/
def varchar10 : TextVar := { sqltype := .varying, sqllen := 10, isText := .inr rfl }

/-- A `VARCHAR` stored as `'a '`. -/
def blankTail : StoredText := .varchar (utf8 "a ") (by decide)

/-- `CITY = 'São'` is pushed, and agrees with DuckDB on another value. -/
theorem text_pushdown_exact_iff_city :
    ∃ text, pushdownOf .v1_5 cityBind [0]
        (.boundComparison .compareEqual (.boundColumnRef 0 ⟨.varchar, 0, 0⟩) (.boundConstant (.varchar "São"))) =
        .push { sql := cityBind.colExpr 0 ++ text } ∧
      (SameTruthNone .win1252 text ["São"] blankTail ↔ ExactNone blankTail.value [[0x53, 0xE3, 0x6F]]) :=
  (text_pushdown_exact_iff plainApi varchar10 blankTail).2 .v1_5 cityBind [0] _ 0 0 false ["São"]
    [[0x53, 0xE3, 0x6F]] ⟨by decide, by decide, by decide, by decide, by decide⟩

/-- **`COL = 'a'` finds the `VARCHAR` stored as `'a '`**: for DuckDB, which gets the value with its blank, that is
    not `'a'`. -/
theorem text_pushdown_ignores_blank :
    pushed (utf8 "\"COL\"") (.compare .eq (.varchar "a")) = some (utf8 "\"COL\" = ?", [.varchar "a"]) ∧
    getText blankTail.cell = utf8 "a " ∧
    serverAnswer plainApi varchar10.toXsqlvar (.compare .eq (.varchar "a")) blankTail.cell = some .true ∧
    bytesAlgebra.test .eq (utf8 "a ") (utf8 "a") = .false ∧
    ¬SameTruth plainApi varchar10 (.compare .eq "a") blankTail := by
  have hserver :
      serverAnswer plainApi varchar10.toXsqlvar (.compare .eq (.varchar "a")) blankTail.cell = some .true := by
    decide
  have hduckdb : bytesAlgebra.test .eq (getText blankTail.cell) (utf8 "a") = .false := by decide
  refine ⟨by decide, by decide, hserver, by decide, ?_⟩
  rintro ⟨answer, hanswer, hsame⟩
  have htrue : bytesAlgebra.test .eq (getText blankTail.cell) (utf8 "a") = .true :=
    hsame.mp (Option.some.inj (hanswer.symm.trans hserver))
  rw [hduckdb] at htrue
  cases htrue

end FirebirdScan
