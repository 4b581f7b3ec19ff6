import FirebirdScan.Client.Bind
import FirebirdScan.Lib.PadSpace
import FirebirdScan.Lib.ParamTest
import FirebirdScan.Scanner.ComplexFilter

/-!
# `Scanner.Pushed` — a test with parameters, from the text to the server's answer

The translators write `col op ?` and `col IN (?, …)`, the hook `col NOT IN (?, …)`, for a column and constants
that can be bound (`pushed`, `pushed_eq`). The server describes a type for the placeholders, the client
encodes the constants for it, and the server compares what arrives with what it has stored:
`serverAnswer` is this whole way, and `serverAnswer_eq` says that it is the test on the encoded constants.
-/

namespace FirebirdScan

open SearchCondition

/-! ## The text -/

/-- The text the extension writes for a test, and its parameters. -/
def pushed (columnName : Bytes) : ParamTest Value → Option (Bytes × List Value)
  | .compare op c => emitComparison columnName (opText op) c []
  | .inList false c cs => emitInList columnName (c :: cs) []
  | .inList true c cs => some (notInSql columnName (c :: cs).length, c :: cs)

section Text

variable {κ : Type} {columnText : κ → Bytes} {col : κ}

/-- A comma and a placeholder for each value. -/
def morePlaceholders (cs : List Value) : Bytes := cs.flatMap fun _ => utf8 ", ?"

theorem render_placeholders (cs : List Value) :
    render columnText (cs.flatMap fun _ => [.comma, .blank, .operand .param]) = morePlaceholders cs := by
  induction cs with
  | nil => rfl
  | cons c cs ih =>
      rw [List.flatMap_cons, render_append, ih]
      rfl

/-- The item loop past its first item, on values that can be bound. -/
theorem emitInItems_bindable {cs : List Value} (h : ∀ c ∈ cs, isBindableType c.type = true)
    (acc : Bytes) (params : List Value) :
    emitInItems false acc cs params = some (acc ++ morePlaceholders cs, params ++ cs) := by
  induction cs generalizing acc params with
  | nil => simp [emitInItems, morePlaceholders]
  | cons c cs ih =>
      obtain ⟨hc, hcs⟩ := List.forall_mem_cons.mp h
      rw [emitInItems, if_pos hc, ih hcs]
      simp only [Bool.false_eq_true, if_false, List.append_assoc, List.singleton_append]
      rfl

theorem intercalate_placeholders (cs : List Value) :
    (utf8 ", ").intercalate (List.replicate (cs.length + 1) (utf8 "?")) = utf8 "?" ++ morePlaceholders cs := by
  induction cs with
  | nil => rfl
  | cons c cs ih =>
      rw [List.length_cons, List.replicate_succ, List.replicate_succ, List.intercalate_cons_cons,
        ← List.replicate_succ, ih]
      rfl

theorem render_inList (negated : Bool) (c : Value) (cs : List Value) :
    render columnText ((ParamTest.inList negated c cs).tokens col) =
      columnText col ++ (if negated then utf8 " NOT IN (" else utf8 " IN (") ++
        (utf8 "?" ++ morePlaceholders cs) ++ utf8 ")" := by
  simp only [ParamTest.tokens, render_append, render_cons, render_placeholders, tokenText, render_nil,
    List.append_assoc, List.append_nil]
  cases negated <;> rfl

variable (columnText col) in
/-- **What is written**: the test's text, if its constants can be bound. -/
theorem pushed_eq (test : ParamTest Value) (h : ∀ c ∈ test.params, isBindableType c.type = true) :
    pushed (columnText col) test = some (render columnText (test.tokens col), test.params) := by
  cases test with
  | compare op c =>
      rw [pushed, emitComparison, if_pos (h c (by simp [ParamTest.params]))]
      simp only [ParamTest.tokens, render_cons, render_nil, tokenText, List.append_nil, List.append_assoc]
      rfl
  | inList negated c cs =>
      obtain ⟨hc, hcs⟩ := List.forall_mem_cons.mp h
      rw [render_inList]
      cases negated with
      | false =>
          rw [pushed, emitInList, List.isEmpty_cons, if_neg (by decide), emitInItems, if_pos hc,
            emitInItems_bindable hcs]
          simp [ParamTest.params]
      | true =>
          rw [pushed, notInSql, List.length_cons, intercalate_placeholders]
          rfl

end Text

/-! ## The server -/

/-- The characters of a text. -/
def Cell.characters : Cell → Option Bytes
  | .text buffer sqllen => counted buffer sqllen
  | .varying len payload => some (payload.take len.toNat)
  | _ => none

/-- The server compares days and ticks as numbers, a timestamp's day first, and texts with the shorter one
    padded. It does not compare one kind with another here. -/
def Cell.order : Cell → Cell → Option Ordering
  | .date m, .date n => some (compare m.toInt n.toInt)
  | .time t, .time u => some (compare t.toNat u.toNat)
  | .timestamp m t, .timestamp n u => some ((compare m.toInt n.toInt).then (compare t.toNat u.toNat))
  | a, b => a.characters.bind fun s => b.characters.map fun t => PadSpace.padOrder 0x20 s t

def Cell.isNull : Cell → Bool
  | .null => true
  | _ => false

def cellAlgebra : Algebra Cell :=
  ⟨Cell.isNull, fun op a b => (a.order b).any op.decides⟩

/-- What an outcome holds, unless it failed. -/
def Outcome.value? {α : Type} : Outcome α → Option α
  | .ok a => some a
  | _ => none

/-- The cell holds something: its length is not below zero. -/
def Cell.readable : Cell → Bool
  | .text buffer sqllen => (counted buffer sqllen).isSome
  | _ => true

/-- A parameter as it arrives at a placeholder, if it does. -/
def encoded (D : ValueApi) (var : Xsqlvar) (val : Value) : Option Cell :=
  (bindInputParameter D 0 var val).value?.filter Cell.readable

/-- **What the server answers** for a stored value, if the bind does not fail and every parameter can be read: the
    placeholders are described as `var`, the parameters bound, the text read, and the condition evaluated. -/
def serverAnswer (D : ValueApi) (var : Xsqlvar) (test : ParamTest Value) (stored : Cell) : Option Truth := do
  let cells ← (bindInputParameters D (test.params.map fun _ => var) test.params).value?.filter (·.all Cell.readable)
  let cond ← read (test.tokens () : List (Token Unit Cell))
  let (answer, _) ← cond.eval cellAlgebra (fun _ => stored) cells
  some answer

section Answer

variable {D : ValueApi} {var : Xsqlvar}

/-- The position of a placeholder is only in the message. -/
theorem bindInputParameter_index (index : Nat) (val : Value) :
    (bindInputParameter D index var val).value?.filter Cell.readable = encoded D var val := by
  unfold encoded bindInputParameter
  split_ifs with h
  · rfl
  · cases var.sqltype <;> rfl

/-- All cells can be read if each can. -/
theorem filter_all_cons {α : Type} (p : α → Bool) (a : Option α) (as : Option (List α)) :
    (a.bind fun a => as.map (a :: ·)).filter (·.all p) =
      (a.filter p).bind fun a => (as.filter (·.all p)).map (a :: ·) := by
  cases a with
  | none => rfl
  | some a =>
      cases as with
      | none => simp
      | some as => cases h : p a <;> cases has : as.all p <;> simp_all [Option.filter]

theorem bindLoop_value (params : List Value) (index : Nat) :
    (bindLoop D index ((params.map fun _ => var).zip params)).value?.filter (·.all Cell.readable) =
      params.mapM (encoded D var) := by
  induction params generalizing index with
  | nil => rfl
  | cons c cs ih =>
      have hloop : (bindLoop D index (((c :: cs).map fun _ => var).zip (c :: cs))).value? =
          (bindInputParameter D index var c).value?.bind fun cell =>
            (bindLoop D (index + 1) ((cs.map fun _ => var).zip cs)).value?.map (cell :: ·) := by
        rw [List.map_cons, List.zip_cons_cons, bindLoop]
        cases bindInputParameter D index var c with
        | throws e => rfl
        | overflow => rfl
        | ok cell => cases bindLoop D (index + 1) ((cs.map fun _ => var).zip cs) <;> rfl
      rw [hloop, filter_all_cons, ih, bindInputParameter_index, List.mapM_cons]
      cases encoded D var c with
      | none => rfl
      | some cell => cases cs.mapM (encoded D var) <;> rfl

theorem bindInputParameters_value (params : List Value) :
    (bindInputParameters D (params.map fun _ => var) params).value?.filter (·.all Cell.readable) =
      params.mapM (encoded D var) := by
  rw [bindInputParameters, if_neg (by simp), bindLoop_value]

/-- **The server's answer is the test on the encoded constants.** -/
theorem serverAnswer_eq (test : ParamTest Value) (stored : Cell) :
    serverAnswer D var test stored =
      (test.traverse (encoded D var)).map fun cells => cells.truth cellAlgebra stored := by
  rw [serverAnswer, bindInputParameters_value, ParamTest.mapM_params, ParamTest.read_tokens]
  cases h : test.traverse (encoded D var) with
  | none => rfl
  | some cells =>
      have heval := ParamTest.eval_cond cellAlgebra (fun _ => stored) () cells
      rw [← ParamTest.cond_traverse h] at heval
      simp [heval]

variable {V : Type} {stored : Cell}

/-- A comparison is decided by the constant as it arrives. -/
theorem serverAnswer_compare {f : V → Value} (op : CompareOp) {c : V} {cell : Cell} (hstored : stored.isNull = false)
    (hcell : encoded D var (f c) = some cell) (hnull : cell.isNull = false) :
    serverAnswer D var ((ParamTest.compare op c).map f) stored =
      some (.ofBool (cellAlgebra.compare op stored cell)) := by
  rw [serverAnswer_eq, ParamTest.traverse_map, ParamTest.traverse, Function.comp_apply, hcell, Option.map_some,
    Option.map_some, ParamTest.truth, Algebra.test_eq_ofBool hstored hnull]

/-- A list whose constants all arrive is decided by whether one of them arrives as what is stored. -/
theorem serverAnswer_inList (f : V → Value) (negated : Bool) {c : V} {cs : List V} (P : V → Prop)
    (hstored : stored.isNull = false)
    (h : ∀ e ∈ c :: cs, ∃ cell, encoded D var (f e) = some cell ∧ cell.isNull = false ∧
      (cellAlgebra.compare .eq stored cell = true ↔ P e)) :
    ∃ found : Bool, serverAnswer D var ((ParamTest.inList negated c cs).map f) stored =
        some (.ofBool (found ^^ negated)) ∧
      (found = true ↔ ∃ e ∈ c :: cs, P e) := by
  have hall : ((ParamTest.inList negated c cs).traverse (encoded D var ∘ f)).isSome := by
    rw [ParamTest.isSome_traverse]
    intro e he
    obtain ⟨cell, hcell, -⟩ := h e he
    rw [Function.comp_apply, hcell]
    rfl
  obtain ⟨images, himages⟩ := Option.isSome_iff_exists.mp hall
  obtain ⟨d, ds, rfl, hmem⟩ := ParamTest.traverse_inList himages
  -- every cell of the list is what some element became
  have hnull : ∀ cell ∈ d :: ds, cellAlgebra.isNull cell = false := by
    intro cell hcell
    obtain ⟨e, he, heq⟩ := (hmem cell).mp hcell
    obtain ⟨cell', hcell', hnull, -⟩ := h e he
    obtain rfl := Option.some.inj (hcell'.symm.trans heq)
    exact hnull
  obtain ⟨found, htruth, hfound⟩ := ParamTest.truth_inList (A := cellAlgebra) d ds hstored hnull negated
  refine ⟨found, by rw [serverAnswer_eq, ParamTest.traverse_map, himages, Option.map_some, htruth], ?_⟩
  rw [hfound]
  constructor
  · rintro ⟨cell, hcell, hcompare⟩
    obtain ⟨e, he, heq⟩ := (hmem cell).mp hcell
    obtain ⟨cell', hcell', -, hiff⟩ := h e he
    obtain rfl := Option.some.inj (hcell'.symm.trans heq)
    exact ⟨e, he, hiff.mp hcompare⟩
  · rintro ⟨e, he, hp⟩
    obtain ⟨cell, hcell, -, hiff⟩ := h e he
    exact ⟨cell, (hmem cell).mpr ⟨e, he, hcell⟩, hiff.mpr hp⟩

/-- If a constant does not arrive, there is no answer. -/
theorem serverAnswer_eq_none {f : V → Value} {test : ParamTest V} {c : V} (hc : c ∈ test.params)
    (h : encoded D var (f c) = none) : serverAnswer D var (test.map f) stored = none := by
  rw [serverAnswer_eq, ParamTest.traverse_map]
  cases ht : test.traverse (encoded D var ∘ f) with
  | none => rfl
  | some images =>
      have himage := ParamTest.isSome_traverse.mp (Option.isSome_of_eq_some ht) c hc
      rw [Function.comp_apply, h] at himage
      cases himage

end Answer

end FirebirdScan
