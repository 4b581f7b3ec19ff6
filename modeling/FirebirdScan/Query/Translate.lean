import FirebirdScan.Query.Filter

/-!
# `Query.Translate` — filters to SQL text (`firebird_query.cpp`)

The recursive translators. Each takes the text of the column, the filter, and the parameters collected so
far, and returns the fragment with the extended parameters. `none` is the source's `false`: there the
fragment and the parameters are indeterminate, and every caller restores its own snapshot.

`DuckdbApi` stands for `FIREBIRD_DUCKDB_V2`: only the v2.0 build looks inside an `EXPRESSION_FILTER`.
-/

namespace FirebirdScan

/-- Which DuckDB API the extension is built against. -/
inductive DuckdbApi where
  | v1_5 | v2_0
deriving DecidableEq, Repr

/-! ## Constants -/

/-- `IsBindableType`, and `ExprValueBindable`, its copy in `firebird_scanner.cpp`. -/
def isBindableType (t : LogicalType) : Bool :=
  match t.id with
  | .boolean | .tinyint | .smallint | .integer | .bigint | .float | .double | .varchar | .date | .time
  | .timestamp => true
  | _ => false

/-- The digits of a decimal fraction, padded on the left to `scale` places. -/
def fractionDigits (scale n : Nat) : Bytes :=
  let digits := utf8 (toString n)
  List.replicate (scale - digits.length) 0x30 ++ digits

/-- `Decimal::ToString`: no digit in front of the point when the width leaves room for none. -/
def decimalToString (width scale : Nat) (value : Int) : Bytes :=
  let sign := if value < 0 then utf8 "-" else []
  if scale = 0 then sign ++ utf8 (toString value.natAbs)
  else
    sign ++ (if width > scale then utf8 (toString (value.natAbs / 10 ^ scale)) else []) ++ utf8 "." ++
      fractionDigits scale (value.natAbs % 10 ^ scale)

/-- `SafeLiteralInline`, over `Value::ToString` for the three types it lets through. -/
def safeLiteralInline : Value → Option Bytes
  | .null _ => some (utf8 "NULL")
  | .hugeint v => some (utf8 (toString v.toInt))
  | .uhugeint v => some (utf8 (toString v.toNat))
  | .decimal w s v => some (decimalToString w s v)
  | _ => none

/-- `ComparisonToSql`. -/
def comparisonToSql : ExpressionType → Option Bytes
  | .compareEqual => some (utf8 "=")
  | .compareNotEqual => some (utf8 "<>")
  | .compareLessThan => some (utf8 "<")
  | .compareGreaterThan => some (utf8 ">")
  | .compareLessThanOrEqualTo => some (utf8 "<=")
  | .compareGreaterThanOrEqualTo => some (utf8 ">=")
  | _ => none

/-- The tail the two comparison translators share: bind the constant, or inline it. -/
def emitComparison (columnName op : Bytes) (constant : Value) (params : List Value) :
    Option (Bytes × List Value) :=
  if isBindableType constant.type then
    some (columnName ++ utf8 " " ++ op ++ utf8 " ?", params ++ [constant])
  else
    (safeLiteralInline constant).map fun lit => (columnName ++ utf8 " " ++ op ++ utf8 " " ++ lit, params)

/-- The loop over the values of an `IN` list; `first` is the source's `i == 0`. -/
def emitInItems (first : Bool) (acc : Bytes) : List Value → List Value → Option (Bytes × List Value)
  | [], params => some (acc, params)
  | v :: vs, params =>
      let acc := if first then acc else acc ++ utf8 ", "
      if isBindableType v.type then emitInItems false (acc ++ utf8 "?") vs (params ++ [v])
      else
        match safeLiteralInline v with
        | none => none
        | some lit => emitInItems false (acc ++ lit) vs params

/-- The tail the two `IN` translators share. -/
def emitInList (columnName : Bytes) (values params : List Value) : Option (Bytes × List Value) :=
  if values.isEmpty then some (utf8 "(1=0)", params)
  else
    (emitInItems true (columnName ++ utf8 " IN (") values params).map fun (acc, params) =>
      (acc ++ utf8 ")", params)

/-! ## v2.0 bound expressions -/

/-- `IsColumnSubject`: a column reference, or a cast chain over one. -/
def isColumnSubject : Expression → Bool
  | .boundRef _ => true
  | .boundColumnRef _ _ => true
  | .boundCast _ _ child => isColumnSubject child
  | _ => false

/-- `TryGetConstant`. -/
def tryGetConstant : Expression → Option Value
  | .boundConstant v => some v
  | _ => none

/-- `FlipComparisonExpression`, on the types a comparison can have. -/
def flipComparisonExpression : ExpressionType → ExpressionType
  | .compareLessThan => .compareGreaterThan
  | .compareLessThanOrEqualTo => .compareGreaterThanOrEqualTo
  | .compareGreaterThan => .compareLessThan
  | .compareGreaterThanOrEqualTo => .compareLessThanOrEqualTo
  | t => t

/-- `TranslateComparison`. -/
def translateComparison (columnName : Bytes) (type : ExpressionType) (left right : Expression)
    (params : List Value) : Option (Bytes × List Value) :=
  let colOnLeft := isColumnSubject left
  if colOnLeft = isColumnSubject right then none
  else
    match tryGetConstant (if colOnLeft then right else left) with
    | none => none
    | some constant =>
        match comparisonToSql (if colOnLeft then type else flipComparisonExpression type) with
        | none => none
        | some op => if constant.isNull then none else emitComparison columnName op constant params

/-- The values of an `IN` list: constants, none of them `NULL`. -/
def inListValues : List Expression → Option (List Value)
  | [] => some []
  | e :: es =>
      match tryGetConstant e with
      | none => none
      | some v => if v.isNull then none else (inListValues es).map (v :: ·)

/-- `TranslateInList`, on the operator's children. -/
def translateInList (columnName : Bytes) : List Expression → List Value → Option (Bytes × List Value)
  | subject :: item :: items, params =>
      if isColumnSubject subject then
        (inListValues (item :: items)).bind fun values => emitInList columnName values params
      else none
  | _, _ => none

/-- The separator of a conjunction; no other type is translated. -/
def conjunctionSeparator : ExpressionType → Option Bytes
  | .conjunctionAnd => some (utf8 " AND ")
  | .conjunctionOr => some (utf8 " OR ")
  | _ => none

/-- The step of the conjunction loops: append one more parenthesised part. -/
def appendPart (sep acc part : Bytes) : Bytes :=
  (if acc = [] then acc else acc ++ sep) ++ utf8 "(" ++ part ++ utf8 ")"

/-- A conjunction is translated only if that gave some text. -/
def nonemptyFragment : Bytes × List Value → Option (Bytes × List Value)
  | (acc, params) => if acc = [] then none else some (acc, params)

mutual
/-- `TranslateFilterExpression`. -/
def translateFilterExpression (columnName : Bytes) : Expression → List Value → Option (Bytes × List Value)
  | .boundComparison type left right, params => translateComparison columnName type left right params
  | .boundOperator .compareIn children, params => translateInList columnName children params
  | .boundOperator .operatorIsNull [child], params =>
      if isColumnSubject child then some (columnName ++ utf8 " IS NULL", params) else none
  | .boundOperator .operatorIsNotNull [child], params =>
      if isColumnSubject child then some (columnName ++ utf8 " IS NOT NULL", params) else none
  | .boundConjunction type children, params =>
      match conjunctionSeparator type with
      | none => none
      | some sep => (translateExpressions columnName sep [] children params).bind nonemptyFragment
  | _, _ => none

/-- The loop over the children of a conjunction. -/
def translateExpressions (columnName sep : Bytes) :
    Bytes → List Expression → List Value → Option (Bytes × List Value)
  | acc, [], params => some (acc, params)
  | acc, child :: children, params =>
      match translateFilterExpression columnName child params with
      | none => none
      | some (part, params) =>
          translateExpressions columnName sep (appendPart sep acc part) children params
end

/-! ## `TableFilter` trees -/

mutual
/-- `TranslateFilter`. -/
def translateFilter (api : DuckdbApi) (columnName : Bytes) :
    TableFilter → List Value → Option (Bytes × List Value)
  | .expressionFilter expr, params =>
      if api = .v2_0 then
        match expr with
        | none => none
        | some e => translateFilterExpression columnName e params
      else none
  | .isNull, params => some (columnName ++ utf8 " IS NULL", params)
  | .isNotNull, params => some (columnName ++ utf8 " IS NOT NULL", params)
  | .constantComparison comparisonType constant, params =>
      match comparisonToSql comparisonType with
      | none => none
      | some op => emitComparison columnName op constant params
  | .conjunctionAnd childFilters, params =>
      (translateFilters api columnName (utf8 " AND ") [] childFilters params).bind nonemptyFragment
  | .conjunctionOr childFilters, params =>
      (translateFilters api columnName (utf8 " OR ") [] childFilters params).bind nonemptyFragment
  | .inFilter values, params => emitInList columnName values params
  | .optionalFilter none, _ => none
  | .optionalFilter (some child), params => translateFilter api columnName child params
  | .other, _ => none

/-- The loop over the children of a conjunction. -/
def translateFilters (api : DuckdbApi) (columnName sep : Bytes) :
    Bytes → List TableFilter → List Value → Option (Bytes × List Value)
  | acc, [], params => some (acc, params)
  | acc, child :: children, params =>
      match translateFilter api columnName child params with
      | none => none
      | some (part, params) => translateFilters api columnName sep (appendPart sep acc part) children params
end

end FirebirdScan
