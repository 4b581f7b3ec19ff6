import FirebirdScan.Types

/-!
# `Query.Filter` — the predicates DuckDB hands the scan

A predicate reaches the extension in one of two forms. A `TableFilter` is the typed filter of the v1.5
API, keyed by column; in v2.0 it is an `EXPRESSION_FILTER` around a bound expression instead. A complex
predicate is a bound `Expression`, in both versions. Both are trees with lists of children, so each has
its own induction principle here (`Expression.tree_induction`, `TableFilter.tree_induction`).

The expression classes are those of the v2.0 API: there a comparison and a cast are function
expressions told apart by `IsComparison` and `IsCast`, in v1.5 they are classes of their own.
-/

namespace FirebirdScan

/-- `ExpressionType`, the members the extension tells apart. -/
inductive ExpressionType where
  | compareEqual | compareNotEqual | compareLessThan | compareGreaterThan
  | compareLessThanOrEqualTo | compareGreaterThanOrEqualTo
  | compareDistinctFrom | compareNotDistinctFrom
  | compareIn | compareNotIn
  | operatorNot | operatorIsNull | operatorIsNotNull
  | conjunctionAnd | conjunctionOr
  | other
deriving DecidableEq, Repr

/-- A bound expression. `boundRef` is the placeholder the planner substitutes for the filtered column. -/
inductive Expression where
  | boundRef (index : Nat)
  | boundColumnRef (columnIndex : Nat) (returnType : LogicalType)
  | boundConstant (value : Value)
  | boundCast (target : LogicalType) (tryCast : Bool) (child : Expression)
  | boundComparison (type : ExpressionType) (left right : Expression)
  | boundFunction (name : String) (children : List Expression)
  | boundOperator (type : ExpressionType) (children : List Expression)
  | boundConjunction (type : ExpressionType) (children : List Expression)
  | other

/-- A filter on one column. -/
inductive TableFilter where
  | constantComparison (comparisonType : ExpressionType) (constant : Value)
  | isNull
  | isNotNull
  | conjunctionAnd (childFilters : List TableFilter)
  | conjunctionOr (childFilters : List TableFilter)
  | inFilter (values : List Value)
  | optionalFilter (childFilter : Option TableFilter)
  | expressionFilter (expr : Option Expression)
  | other

/-- Induction on expressions, with a hypothesis for every child. -/
@[elab_as_elim]
theorem Expression.tree_induction {P : Expression → Prop}
    (boundRef : ∀ i, P (.boundRef i))
    (boundColumnRef : ∀ i t, P (.boundColumnRef i t))
    (boundConstant : ∀ v, P (.boundConstant v))
    (boundCast : ∀ t b c, P c → P (.boundCast t b c))
    (boundComparison : ∀ t l r, P l → P r → P (.boundComparison t l r))
    (boundFunction : ∀ n cs, (∀ c ∈ cs, P c) → P (.boundFunction n cs))
    (boundOperator : ∀ t cs, (∀ c ∈ cs, P c) → P (.boundOperator t cs))
    (boundConjunction : ∀ t cs, (∀ c ∈ cs, P c) → P (.boundConjunction t cs))
    (other : P .other) : ∀ e, P e := by
  intro e
  exact @Expression.rec P (fun cs => ∀ c ∈ cs, P c) boundRef boundColumnRef
    boundConstant boundCast boundComparison boundFunction boundOperator boundConjunction other (by simp)
    (fun c cs hc hcs => List.forall_mem_cons.mpr ⟨hc, hcs⟩) e

/-- Induction on filters, with a hypothesis for every child. -/
@[elab_as_elim]
theorem TableFilter.tree_induction {P : TableFilter → Prop}
    (constantComparison : ∀ t v, P (.constantComparison t v))
    (isNull : P .isNull)
    (isNotNull : P .isNotNull)
    (conjunctionAnd : ∀ fs, (∀ f ∈ fs, P f) → P (.conjunctionAnd fs))
    (conjunctionOr : ∀ fs, (∀ f ∈ fs, P f) → P (.conjunctionOr fs))
    (inFilter : ∀ vs, P (.inFilter vs))
    (optionalNone : P (.optionalFilter none))
    (optionalSome : ∀ f, P f → P (.optionalFilter (some f)))
    (expressionFilter : ∀ e, P (.expressionFilter e))
    (other : P .other) : ∀ f, P f := by
  intro f
  exact @TableFilter.rec P (fun fs => ∀ f ∈ fs, P f) (fun o => P (.optionalFilter o)) constantComparison isNull isNotNull conjunctionAnd
    conjunctionOr inFilter (fun _ h => h) expressionFilter other (by simp)
    (fun f fs hf hfs => List.forall_mem_cons.mpr ⟨hf, hfs⟩) optionalNone optionalSome f

end FirebirdScan
