import FirebirdScan.Lib.SearchCondition

/-!
# `Lib.ParamTest` — comparing a column with placeholders

The simplest search conditions: `col op ?` and `col [NOT] IN (?, …)`. A `ParamTest` is such a condition with
the values of its placeholders, so it has a truth value on a value of the column. Its text does not mention
the values (`tokens`), and is read back as a condition that takes them as parameters (`read_tokens`,
`eval_cond`).

`traverse` carries the values over to another type, where each has an image or none: parameters are encoded
before the server compares them.
-/

namespace SearchCondition

variable {κ U V W : Type}

/-- A comparison of a column with placeholders, and their values. -/
inductive ParamTest (V : Type) where
  | compare (op : CompareOp) (c : V)
  | inList (negated : Bool) (c : V) (cs : List V)

namespace ParamTest

/-- The values, in the order of the placeholders. -/
def params : ParamTest V → List V
  | .compare _ c => [c]
  | .inList _ c cs => c :: cs

/-- The truth value on a value of the column. -/
def truth (A : Algebra V) (a : V) : ParamTest V → Truth
  | .compare op c => A.test op a c
  | .inList negated c cs => (A.member a (c :: cs)).negateIf negated

def map (f : V → W) : ParamTest V → ParamTest W
  | .compare op c => .compare op (f c)
  | .inList negated c cs => .inList negated (f c) (cs.map f)

/-- The same test on the images of the values; `none` if one of them has none. -/
def traverse (f : V → Option W) : ParamTest V → Option (ParamTest W)
  | .compare op c => (f c).map (.compare op)
  | .inList negated c cs => (f c).bind fun d => (cs.mapM f).map fun ds => .inList negated d ds

/-! ## As a condition -/

/-- The text: placeholders stand for the values. -/
def tokens (col : κ) : ParamTest V → List (Token κ W)
  | .compare op _ => [.operand (.column col), .blank, .op op, .blank, .operand .param]
  | .inList negated _ cs =>
      .operand (.column col) :: .blank :: (if negated then [.kwNot, .blank] else []) ++
        .kwIn :: .blank :: .lparen :: .operand .param ::
          (cs.flatMap fun _ => [.comma, .blank, .operand .param]) ++ [.rparen]

def cond (col : κ) : ParamTest V → Cond κ W
  | .compare op _ => .compare (.column col) op .param
  | .inList negated _ cs => .inList negated (.column col) (.param :: List.replicate cs.length .param)

theorem visible_params (cs : List V) :
    ((.operand .param :: (cs.flatMap fun _ => [.comma, .blank, .operand .param]) ++ [.rparen] :
        List (Token κ W)).filter Token.visible) = itemTokens .param (List.replicate cs.length .param) := by
  induction cs with
  | nil => rfl
  | cons c cs ih =>
      rw [List.length_cons, List.replicate_succ, itemTokens, ← ih]
      simp [List.filter_cons, Token.visible]

/-- The text is read back. -/
theorem read_tokens (col : κ) (test : ParamTest V) :
    read (test.tokens col : List (Token κ W)) = some (test.cond col) := by
  apply Phrase.read
  apply Phrase.top
  cases test with
  | compare op c =>
      simpa [tokens, cond, List.filter_cons, Token.visible] using Phrase.compare (.column col) op .param
  | inList negated c cs =>
      have hphrase := Phrase.inList negated (.column col) (.param : Operand κ W)
        (List.replicate cs.length .param)
      rw [← visible_params] at hphrase
      cases negated <;> simpa [tokens, cond, List.filter_cons, Token.visible] using hphrase

theorem evalList_params (row : κ → V) (cs rest : List V) :
    Operand.evalList row (List.replicate cs.length .param) (cs ++ rest) = some (cs, rest) := by
  induction cs with
  | nil => rfl
  | cons c cs ih => simp [List.replicate_succ, Operand.evalList, Operand.eval, ih]

/-- The condition takes exactly the values, and has their truth value. -/
theorem eval_cond (A : Algebra V) (row : κ → V) (col : κ) (test : ParamTest V) :
    (test.cond col).eval A row test.params = some (test.truth A (row col), []) := by
  cases test with
  | compare op c => rfl
  | inList negated c cs =>
      have hitems := evalList_params row (c :: cs) []
      rw [List.append_nil, List.length_cons, List.replicate_succ] at hitems
      simp [cond, params, truth, Cond.eval, hitems]

/-! ## Carrying the values over -/

section Lists

variable {f : V → Option W} {cs : List V}

/-- A list of images has an image of each element, and nothing else. -/
theorem mem_of_mapM {ds : List W} (h : cs.mapM f = some ds) (d : W) :
    d ∈ ds ↔ ∃ c ∈ cs, f c = some d := by
  induction cs generalizing ds with
  | nil =>
      obtain rfl := Option.some.inj h
      simp
  | cons c cs ih =>
      rw [List.mapM_cons] at h
      obtain ⟨e, he, htail⟩ := Option.bind_eq_some_iff.mp h
      obtain ⟨es, hes, heq⟩ := Option.bind_eq_some_iff.mp htail
      obtain rfl := Option.some.inj heq
      simp [ih hes, he, eq_comm]

theorem length_of_mapM {ds : List W} (h : cs.mapM f = some ds) : cs.length = ds.length := by
  induction cs generalizing ds with
  | nil =>
      obtain rfl := Option.some.inj h
      rfl
  | cons c cs ih =>
      rw [List.mapM_cons] at h
      obtain ⟨e, he, htail⟩ := Option.bind_eq_some_iff.mp h
      obtain ⟨es, hes, heq⟩ := Option.bind_eq_some_iff.mp htail
      obtain rfl := Option.some.inj heq
      rw [List.length_cons, List.length_cons, ih hes]

theorem isSome_mapM : (cs.mapM f).isSome ↔ ∀ c ∈ cs, (f c).isSome := by
  induction cs with
  | nil => simp
  | cons c cs ih =>
      cases hc : f c with
      | none => simp [hc]
      | some d =>
          rw [List.forall_mem_cons, ← ih, List.mapM_cons, hc]
          cases hcs : cs.mapM f <;> simp

end Lists

theorem params_map (f : V → W) (test : ParamTest V) : (test.map f).params = test.params.map f := by
  cases test <;> rfl

theorem traverse_map (f : V → W) (g : W → Option U) (test : ParamTest V) :
    (test.map f).traverse g = test.traverse (g ∘ f) := by
  cases test with
  | compare op c => rfl
  | inList negated c cs =>
      simp only [map, traverse, List.mapM_map]
      rfl

/-- The images of the values make a test exactly when every value has one. -/
theorem mapM_params (f : V → Option W) (test : ParamTest V) :
    test.params.mapM f = (test.traverse f).map params := by
  cases test with
  | compare op c => cases hc : f c <;> simp [params, traverse, hc]
  | inList negated c cs =>
      cases hc : f c with
      | none => simp [params, traverse, hc]
      | some d => cases hcs : cs.mapM f <;> simp [params, traverse, hc, hcs]

theorem isSome_traverse {f : V → Option W} {test : ParamTest V} :
    (test.traverse f).isSome ↔ ∀ c ∈ test.params, (f c).isSome := by
  rw [← isSome_mapM, mapM_params, Option.isSome_map]

/-- The list on the images has exactly the images. -/
theorem traverse_inList {f : V → Option W} {negated : Bool} {c : V} {cs : List V} {images : ParamTest W}
    (h : (inList negated c cs).traverse f = some images) :
    ∃ d ds, images = .inList negated d ds ∧ ∀ e, e ∈ d :: ds ↔ ∃ v ∈ c :: cs, f v = some e := by
  obtain ⟨d, hd, htail⟩ := Option.bind_eq_some_iff.mp h
  obtain ⟨ds, hds, rfl⟩ := Option.map_eq_some_iff.mp htail
  refine ⟨d, ds, rfl, mem_of_mapM ?_⟩
  rw [List.mapM_cons, hd, hds]
  rfl

/-- The text of the test on the images is the same, and so is its condition. -/
theorem cond_traverse {f : V → Option W} {test : ParamTest V} {images : ParamTest W}
    (h : test.traverse f = some images) (col : κ) : (test.cond col : Cond κ U) = images.cond col := by
  cases test with
  | compare op c =>
      obtain ⟨d, -, rfl⟩ := Option.map_eq_some_iff.mp h
      rfl
  | inList negated c cs =>
      obtain ⟨d, -, htail⟩ := Option.bind_eq_some_iff.mp h
      obtain ⟨ds, hds, rfl⟩ := Option.map_eq_some_iff.mp htail
      rw [cond, cond, length_of_mapM hds]

end ParamTest

/-! ## Tests without `NULL` -/

section Decided

variable {A : Algebra V} {a : V}

theorem Algebra.test_eq_ofBool {c : V} (ha : A.isNull a = false) (hc : A.isNull c = false) (op : CompareOp) :
    A.test op a c = .ofBool (A.compare op a c) := by
  rw [Algebra.test, ha, hc]
  rfl

/-- Without `NULL`, membership is decided. -/
theorem Algebra.member_eq_ofBool {cs : List V} (ha : A.isNull a = false)
    (hcs : ∀ c ∈ cs, A.isNull c = false) : A.member a cs = .ofBool (cs.any (A.compare .eq a)) := by
  induction cs with
  | nil => rfl
  | cons c cs ih =>
      obtain ⟨hc, hcs⟩ := List.forall_mem_cons.mp hcs
      rw [Algebra.member, Algebra.test_eq_ofBool ha hc, ih hcs, List.any_cons]
      cases A.compare .eq a c <;> rfl

/-- A list is decided by whether it has an equal element. -/
theorem ParamTest.truth_inList (c : V) (cs : List V) (ha : A.isNull a = false)
    (hcs : ∀ e ∈ c :: cs, A.isNull e = false) (negated : Bool) :
    ∃ found : Bool, (ParamTest.inList negated c cs).truth A a = .ofBool (found ^^ negated) ∧
      (found = true ↔ ∃ e ∈ c :: cs, A.compare .eq a e = true) := by
  refine ⟨(c :: cs).any (A.compare .eq a), ?_, List.any_eq_true⟩
  rw [ParamTest.truth, Algebra.member_eq_ofBool ha hcs, Truth.negateIf_ofBool]

end Decided

end SearchCondition
