import FirebirdScan.Client.Metadata
import Mathlib.Logic.Relation

/-!
# `Explain.DirectScan` — the guards of `firebird_explain_pushdown` (`HasFirebirdScanInNode`)

The explainer plans the query it is given, and planning a `firebird_scan` opens a connection. So it refuses a
statement in which it finds one. The statement is a parse tree of DuckDB's: query nodes, table references and
expressions, each of which may hold the others.

`directScan_refused_iff` compares where the search looks (`Edge.walked`) with where a reference may stand.
-/

namespace FirebirdScan

/-! ## Parse trees

Pointers that may be null are options, and left out of the lists. -/

mutual

/-- `QueryNode`. Every kind has the definitions of its `WITH` and the expressions of its `ORDER BY`, `LIMIT`,
    `OFFSET` and `DISTINCT ON`. -/
inductive QueryNode where
  | select (ctes : List QueryNode) (modifiers : List ParsedExpression) (selectList : List ParsedExpression)
      (fromTable : Option TableRef) (whereClause : Option ParsedExpression) (groups : List ParsedExpression)
      (having : Option ParsedExpression) (qualify : Option ParsedExpression)
  | setOperation (ctes : List QueryNode) (modifiers : List ParsedExpression) (children : List QueryNode)
  | recursiveCte (ctes : List QueryNode) (modifiers : List ParsedExpression) (left right : QueryNode)
      (keyTargets : List ParsedExpression)
  | cte (ctes : List QueryNode) (modifiers : List ParsedExpression) (query child : QueryNode)

/-- `TableRef`; a reference of any other kind may hold expressions (`VALUES`) or a query (`DESCRIBE`). -/
inductive TableRef where
  | tableFunction (function : Option ParsedExpression) (subquery : Option QueryNode)
  | join (left right : TableRef) (condition : Option ParsedExpression)
  | subquery (subquery : Option QueryNode)
  | pivot (source : TableRef) (expressions : List ParsedExpression) (subqueries : List QueryNode)
  | other (expressions : List ParsedExpression) (queries : List QueryNode)

/-- `ParsedExpression`; a scalar, `IN`, `ANY` or `EXISTS` subquery, and the expression it is compared with. -/
inductive ParsedExpression where
  | function (name : Bytes) (children : List ParsedExpression)
  | subquery (query : QueryNode) (child : Option ParsedExpression)
  | other (children : List ParsedExpression)

end

/-- A call of the name. -/
def ParsedExpression.calls (name : Bytes) : ParsedExpression → Bool
  | .function f _ => toLower f = name
  | _ => false

def firebirdScan : Bytes := utf8 "firebird_scan"

/-! ## The search -/

mutual

/-- `HasFirebirdScanInTableRef`. -/
def hasFirebirdScanInTableRef : TableRef → Bool
  | .tableFunction function subquery =>
      function.any (ParsedExpression.calls firebirdScan) ||
        match subquery with
        | some query => hasFirebirdScanInNode query
        | none => false
  | .join left right _ => hasFirebirdScanInTableRef left || hasFirebirdScanInTableRef right
  | .subquery (some query) => hasFirebirdScanInNode query
  | .subquery none => false
  | .pivot _ _ _ => false
  | .other _ _ => false

/-- `HasFirebirdScanInNode`. -/
def hasFirebirdScanInNode : QueryNode → Bool
  | .select ctes _ _ fromTable _ _ _ _ =>
      hasFirebirdScanInAny ctes ||
        match fromTable with
        | some ref => hasFirebirdScanInTableRef ref
        | none => false
  | .setOperation ctes _ children => hasFirebirdScanInAny ctes || hasFirebirdScanInAny children
  | .recursiveCte ctes _ _ _ _ => hasFirebirdScanInAny ctes
  | .cte ctes _ _ _ => hasFirebirdScanInAny ctes

/-- Its loops, over definitions and over branches. -/
def hasFirebirdScanInAny : List QueryNode → Bool
  | [] => false
  | node :: nodes => hasFirebirdScanInNode node || hasFirebirdScanInAny nodes

end

/-! ## Positions -/

/-- A part of a statement. -/
inductive QueryPart where
  | node (node : QueryNode)
  | ref (ref : TableRef)
  | expr (expr : ParsedExpression)

/-- Where a part stands in the one that holds it. -/
inductive Edge where
  | cteDefinition | modifier | selectList | fromTable | whereClause | group | having | qualify | setChild
  | recursiveLeft | recursiveRight | keyTarget | cteQuery | cteChild
  | functionCall | functionSubquery | joinLeft | joinRight | joinCondition | fromSubquery
  | pivotSource | pivotExpression | pivotSubquery | refExpression | refQuery
  | argument | subqueryQuery | subqueryChild | operand
deriving DecidableEq

/-- The WITH definitions of a query node, and the expressions of its modifiers. -/
def QueryNode.ctes : QueryNode → List QueryNode
  | .select ctes _ _ _ _ _ _ _ => ctes
  | .setOperation ctes _ _ => ctes
  | .recursiveCte ctes _ _ _ _ => ctes
  | .cte ctes _ _ _ => ctes

def QueryNode.modifiers : QueryNode → List ParsedExpression
  | .select _ modifiers _ _ _ _ _ _ => modifiers
  | .setOperation _ modifiers _ => modifiers
  | .recursiveCte _ modifiers _ _ _ => modifiers
  | .cte _ modifiers _ _ => modifiers

/-- The parts of a part. -/
inductive Child : Edge → QueryPart → QueryPart → Prop where
  | cteDefinition {n q} (h : q ∈ QueryNode.ctes n) : Child .cteDefinition (.node n) (.node q)
  | modifier {n e} (h : e ∈ QueryNode.modifiers n) : Child .modifier (.node n) (.expr e)
  | selectList {ctes mods list table cond groups having qualify e} (h : e ∈ list) :
      Child .selectList (.node (.select ctes mods list table cond groups having qualify)) (.expr e)
  | fromTable {ctes mods list ref cond groups having qualify} :
      Child .fromTable (.node (.select ctes mods list (some ref) cond groups having qualify)) (.ref ref)
  | whereClause {ctes mods list table e groups having qualify} :
      Child .whereClause (.node (.select ctes mods list table (some e) groups having qualify)) (.expr e)
  | group {ctes mods list table cond groups having qualify e} (h : e ∈ groups) :
      Child .group (.node (.select ctes mods list table cond groups having qualify)) (.expr e)
  | having {ctes mods list table cond groups e qualify} :
      Child .having (.node (.select ctes mods list table cond groups (some e) qualify)) (.expr e)
  | qualify {ctes mods list table cond groups having e} :
      Child .qualify (.node (.select ctes mods list table cond groups having (some e))) (.expr e)
  | setChild {ctes mods children q} (h : q ∈ children) :
      Child .setChild (.node (.setOperation ctes mods children)) (.node q)
  | recursiveLeft {ctes mods left right targets} :
      Child .recursiveLeft (.node (.recursiveCte ctes mods left right targets)) (.node left)
  | recursiveRight {ctes mods left right targets} :
      Child .recursiveRight (.node (.recursiveCte ctes mods left right targets)) (.node right)
  | keyTarget {ctes mods left right targets e} (h : e ∈ targets) :
      Child .keyTarget (.node (.recursiveCte ctes mods left right targets)) (.expr e)
  | cteQuery {ctes mods query child} : Child .cteQuery (.node (.cte ctes mods query child)) (.node query)
  | cteChild {ctes mods query child} : Child .cteChild (.node (.cte ctes mods query child)) (.node child)
  | functionCall {e sub} : Child .functionCall (.ref (.tableFunction (some e) sub)) (.expr e)
  | functionSubquery {f q} : Child .functionSubquery (.ref (.tableFunction f (some q))) (.node q)
  | joinLeft {left right cond} : Child .joinLeft (.ref (.join left right cond)) (.ref left)
  | joinRight {left right cond} : Child .joinRight (.ref (.join left right cond)) (.ref right)
  | joinCondition {left right e} : Child .joinCondition (.ref (.join left right (some e))) (.expr e)
  | fromSubquery {q} : Child .fromSubquery (.ref (.subquery (some q))) (.node q)
  | pivotSource {source exprs subs} : Child .pivotSource (.ref (.pivot source exprs subs)) (.ref source)
  | pivotExpression {source exprs subs e} (h : e ∈ exprs) :
      Child .pivotExpression (.ref (.pivot source exprs subs)) (.expr e)
  | pivotSubquery {source exprs subs q} (h : q ∈ subs) :
      Child .pivotSubquery (.ref (.pivot source exprs subs)) (.node q)
  | refExpression {exprs queries e} (h : e ∈ exprs) : Child .refExpression (.ref (.other exprs queries)) (.expr e)
  | refQuery {exprs queries q} (h : q ∈ queries) : Child .refQuery (.ref (.other exprs queries)) (.node q)
  | argument {name children e} (h : e ∈ children) : Child .argument (.expr (.function name children)) (.expr e)
  | subqueryQuery {q child} : Child .subqueryQuery (.expr (.subquery q child)) (.node q)
  | subqueryChild {q e} : Child .subqueryChild (.expr (.subquery q (some e))) (.expr e)
  | operand {children e} (h : e ∈ children) : Child .operand (.expr (.other children)) (.expr e)

/-- A reference to the table function `firebird_scan`, in any letter case. -/
def QueryPart.IsFirebirdScan (s : QueryPart) : Prop :=
  ∃ call subquery, s = .ref (.tableFunction (some call) subquery) ∧ call.calls firebirdScan = true

/-- A `firebird_scan` stands in the part, behind edges of the given kinds. -/
def HoldsScan (kinds : Edge → Bool) (s : QueryPart) : Prop :=
  ∃ t, Relation.ReflTransGen (fun a b => ∃ edge, kinds edge = true ∧ Child edge a b) s t ∧ t.IsFirebirdScan

/-- The edges of what a query reads from: the `FROM` clause, joins, subqueries in `FROM` or of a table function,
    the branches of set operations, and the definitions of `WITH`. -/
def Edge.walked : Edge → Bool
  | .cteDefinition | .fromTable | .setChild | .functionSubquery | .joinLeft | .joinRight | .fromSubquery => true
  | _ => false

/-- Any edge. -/
def Edge.any (_ : Edge) : Bool := true

/-! ## The search finds what stands behind walked edges -/

/-- What the search says of a part. -/
def QueryPart.found : QueryPart → Bool
  | .node n => hasFirebirdScanInNode n
  | .ref r => hasFirebirdScanInTableRef r
  | .expr _ => false

theorem hasFirebirdScanInAny_iff {nodes : List QueryNode} :
    hasFirebirdScanInAny nodes = true ↔ ∃ n ∈ nodes, hasFirebirdScanInNode n = true := by
  induction nodes with
  | nil => simp [hasFirebirdScanInAny]
  | cons n nodes ih => simp [hasFirebirdScanInAny, ih]

/-- Every kind of node has its `WITH` walked. -/
theorem found_of_ctes {n : QueryNode} (h : hasFirebirdScanInAny n.ctes = true) : hasFirebirdScanInNode n = true := by
  cases n with
  | select ctes _ _ fromTable =>
      change hasFirebirdScanInAny ctes = true at h
      cases fromTable <;> simp [hasFirebirdScanInNode, h]
  | setOperation ctes =>
      change hasFirebirdScanInAny ctes = true at h
      simp [hasFirebirdScanInNode, h]
  | recursiveCte | cte => exact h

/-- One walked edge. -/
theorem found_of_child {edge : Edge} {s t : QueryPart} (hedge : edge.walked = true) (h : Child edge s t)
    (hfound : t.found = true) : s.found = true := by
  cases h with
  | cteDefinition hmem => exact found_of_ctes (hasFirebirdScanInAny_iff.mpr ⟨_, hmem, hfound⟩)
  | fromTable =>
      show hasFirebirdScanInNode _ = true
      rw [hasFirebirdScanInNode, Bool.or_eq_true]
      exact .inr hfound
  | setChild hmem =>
      show hasFirebirdScanInNode _ = true
      rw [hasFirebirdScanInNode, Bool.or_eq_true]
      exact .inr (hasFirebirdScanInAny_iff.mpr ⟨_, hmem, hfound⟩)
  | functionSubquery =>
      show hasFirebirdScanInTableRef _ = true
      rw [hasFirebirdScanInTableRef, Bool.or_eq_true]
      exact .inr hfound
  | joinLeft =>
      show hasFirebirdScanInTableRef _ = true
      rw [hasFirebirdScanInTableRef, Bool.or_eq_true]
      exact .inl hfound
  | joinRight =>
      show hasFirebirdScanInTableRef _ = true
      rw [hasFirebirdScanInTableRef, Bool.or_eq_true]
      exact .inr hfound
  | fromSubquery => exact hfound
  | _ => cases hedge

theorem found_of_isFirebirdScan {s : QueryPart} (h : s.IsFirebirdScan) : s.found = true := by
  obtain ⟨call, subquery, rfl, hcall⟩ := h
  show hasFirebirdScanInTableRef _ = true
  cases subquery <;> simp [hasFirebirdScanInTableRef, hcall]

theorem found_of_holdsScan {s : QueryPart} (h : HoldsScan Edge.walked s) : s.found = true := by
  obtain ⟨t, hpath, hscan⟩ := h
  induction hpath using Relation.ReflTransGen.head_induction_on with
  | refl => exact found_of_isFirebirdScan hscan
  | head hstep _ ih =>
      obtain ⟨edge, hedge, hchild⟩ := hstep
      exact found_of_child hedge hchild ih

/-! ## And nothing else -/

theorem HoldsScan.of_child {kinds : Edge → Bool} {edge : Edge} {s t : QueryPart} (hedge : kinds edge = true)
    (h : Child edge s t) (ht : HoldsScan kinds t) : HoldsScan kinds s := by
  obtain ⟨u, hpath, hscan⟩ := ht
  exact ⟨u, .head ⟨edge, hedge, h⟩ hpath, hscan⟩

mutual

theorem holdsScan_of_ref : (r : TableRef) → hasFirebirdScanInTableRef r = true → HoldsScan Edge.walked (.ref r)
  | .tableFunction function none, h => by
      simp only [hasFirebirdScanInTableRef, Bool.or_false] at h
      cases function with
      | none => cases h
      | some call => exact ⟨_, .refl, call, none, rfl, h⟩
  | .tableFunction function (some query), h => by
      simp only [hasFirebirdScanInTableRef, Bool.or_eq_true] at h
      rcases h with h | h
      · cases function with
        | none => cases h
        | some call => exact ⟨_, .refl, call, some query, rfl, h⟩
      · exact .of_child rfl .functionSubquery (holdsScan_of_node query h)
  | .join left right _, h => by
      simp only [hasFirebirdScanInTableRef, Bool.or_eq_true] at h
      rcases h with h | h
      · exact .of_child rfl .joinLeft (holdsScan_of_ref left h)
      · exact .of_child rfl .joinRight (holdsScan_of_ref right h)
  | .subquery (some query), h => by
      simp only [hasFirebirdScanInTableRef] at h
      exact .of_child rfl .fromSubquery (holdsScan_of_node query h)

theorem holdsScan_of_node : (n : QueryNode) → hasFirebirdScanInNode n = true → HoldsScan Edge.walked (.node n)
  | .select ctes _ _ none _ _ _ _, h => by
      simp only [hasFirebirdScanInNode, Bool.or_false] at h
      obtain ⟨q, hq, hscan⟩ := holdsScan_of_any ctes h
      exact .of_child rfl (.cteDefinition hq) hscan
  | .select ctes _ _ (some ref) _ _ _ _, h => by
      simp only [hasFirebirdScanInNode, Bool.or_eq_true] at h
      rcases h with h | h
      · obtain ⟨q, hq, hscan⟩ := holdsScan_of_any ctes h
        exact .of_child rfl (.cteDefinition hq) hscan
      · exact .of_child rfl .fromTable (holdsScan_of_ref ref h)
  | .setOperation ctes _ children, h => by
      simp only [hasFirebirdScanInNode, Bool.or_eq_true] at h
      rcases h with h | h
      · obtain ⟨q, hq, hscan⟩ := holdsScan_of_any ctes h
        exact .of_child rfl (.cteDefinition hq) hscan
      · obtain ⟨q, hq, hscan⟩ := holdsScan_of_any children h
        exact .of_child rfl (.setChild hq) hscan
  | .recursiveCte ctes _ _ _ _, h => by
      simp only [hasFirebirdScanInNode] at h
      obtain ⟨q, hq, hscan⟩ := holdsScan_of_any ctes h
      exact .of_child rfl (.cteDefinition hq) hscan
  | .cte ctes _ _ _, h => by
      simp only [hasFirebirdScanInNode] at h
      obtain ⟨q, hq, hscan⟩ := holdsScan_of_any ctes h
      exact .of_child rfl (.cteDefinition hq) hscan

theorem holdsScan_of_any :
    (nodes : List QueryNode) → hasFirebirdScanInAny nodes = true → ∃ q ∈ nodes, HoldsScan Edge.walked (.node q)
  | node :: nodes, h => by
      simp only [hasFirebirdScanInAny, Bool.or_eq_true] at h
      rcases h with h | h
      · exact ⟨node, List.mem_cons_self, holdsScan_of_node node h⟩
      · obtain ⟨q, hq, hscan⟩ := holdsScan_of_any nodes h
        exact ⟨q, List.mem_cons_of_mem _ hq, hscan⟩

end

/-- **What the search finds**: the references behind walked edges. -/
theorem hasFirebirdScanInNode_iff (n : QueryNode) :
    hasFirebirdScanInNode n = true ↔ HoldsScan Edge.walked (.node n) :=
  ⟨holdsScan_of_node n, found_of_holdsScan⟩

/-! ## The guards -/

/-- A parsed statement; of the kinds of statements only one matters. -/
inductive Statement where
  | select (node : QueryNode)
  | other

/-- What the bind throws; the parser and `Value` have errors of their own. -/
inductive ExplainError where
  | binder (message : Bytes)
  | parser (message : Bytes)
  | nullValue
deriving DecidableEq

def oneArgumentMessage : Bytes := utf8 "firebird_explain_pushdown(sql VARCHAR): exactly one VARCHAR argument required"

def singleSelectMessage : Bytes :=
  utf8 "firebird_explain_pushdown: only a single read-only SELECT/WITH...SELECT is allowed"

def directScanMessage : Bytes :=
  utf8 ("firebird_explain_pushdown: direct firebird_scan(...) is not " ++
    "supported here (it would open a Firebird connection at bind). " ++
    "ATTACH … (TYPE firebird) and reference alias.main.table " ++
    "instead.")

/-- `ExplainPushdownBind`, whose data is the statement's text. `parseQuery` is DuckDB's parser. -/
def explainPushdownBind (parseQuery : Bytes → Except Bytes (List Statement)) (inputs : List Value) :
    Except ExplainError Bytes :=
  match inputs with
  | [input] =>
      if input.type.id ≠ .varchar then .error (.binder oneArgumentMessage)
      else
        match input with
        | .varchar sql =>
            match parseQuery (utf8 sql) with
            | .error message => .error (.parser message)
            | .ok [.select node] =>
                if hasFirebirdScanInNode node = true then .error (.binder directScanMessage) else .ok (utf8 sql)
            | .ok _ => .error (.binder singleSelectMessage)
        | _ => .error .nullValue
  | _ => .error (.binder oneArgumentMessage)

theorem explainPushdownBind_select {parseQuery : Bytes → Except Bytes (List Statement)} {sql : String}
    {n : QueryNode} (hparse : parseQuery (utf8 sql) = .ok [.select n]) :
    explainPushdownBind parseQuery [.varchar sql] =
      if hasFirebirdScanInNode n = true then .error (.binder directScanMessage) else .ok (utf8 sql) := by
  unfold explainPushdownBind
  dsimp only
  rw [hparse]
  exact if_neg fun h => h rfl

/-- **When a direct `firebird_scan` is refused**: when one of the statement's stands where a query reads from. -/
theorem directScan_refused_iff {parseQuery : Bytes → Except Bytes (List Statement)} {sql : String} {n : QueryNode}
    (hparse : parseQuery (utf8 sql) = .ok [.select n]) :
    (HoldsScan Edge.any (.node n) →
      hasFirebirdScanInNode n = true ∧
        explainPushdownBind parseQuery [.varchar sql] = .error (.binder directScanMessage)) ↔
    (HoldsScan Edge.any (.node n) → HoldsScan Edge.walked (.node n)) := by
  rw [explainPushdownBind_select hparse]
  constructor
  · intro h hscan
    exact (hasFirebirdScanInNode_iff n).mp (h hscan).1
  · intro h hscan
    have hfound := (hasFirebirdScanInNode_iff n).mpr (h hscan)
    exact ⟨hfound, if_pos hfound⟩

/-- `SELECT * FROM` the reference. -/
def selectFrom (ref : TableRef) : QueryNode := .select [] [] [.other []] (some ref) none [] none none

/-- `firebird_scan(…)` -/
def scanRef : TableRef := .tableFunction (some (.function (utf8 "Firebird_Scan") [.other [], .other []])) none

/-- What a query without a `FROM` clause reads from. -/
def noTable : TableRef := .other [] []

/-- `SELECT 1 UNION ALL SELECT * FROM firebird_scan(…)` -/
def unionScan : QueryNode := .setOperation [] [] [selectFrom noTable, selectFrom scanRef]

theorem holdsScan_selectFrom {kinds : Edge → Bool} (h : kinds .fromTable = true) :
    HoldsScan kinds (.node (selectFrom scanRef)) := by
  refine .of_child h .fromTable ?_
  exact ⟨_, .refl, _, _, rfl, by decide⟩

theorem directScan_refused_union :
    hasFirebirdScanInNode unionScan = true ∧
      explainPushdownBind (fun _ => .ok [.select unionScan]) [.varchar "SELECT 1 UNION ALL SELECT …"] =
        .error (.binder directScanMessage) := by
  have hbranch : HoldsScan Edge.walked (.node unionScan) :=
    .of_child rfl (.setChild (List.mem_cons_of_mem _ List.mem_cons_self)) (holdsScan_selectFrom rfl)
  have hany : HoldsScan Edge.any (.node unionScan) :=
    .of_child rfl (.setChild (List.mem_cons_of_mem _ List.mem_cons_self)) (holdsScan_selectFrom rfl)
  exact (directScan_refused_iff rfl).mpr (fun _ => hbranch) hany

/-- `SELECT 1 WHERE EXISTS (SELECT * FROM firebird_scan(…))` -/
def existsScan : QueryNode :=
  .select [] [] [.other []] (some noTable) (some (.subquery (selectFrom scanRef) none)) [] none none

/-- **A `firebird_scan` in a subquery of the `WHERE` clause is let through.** -/
theorem existsScan_let_through :
    HoldsScan Edge.any (.node existsScan) ∧ hasFirebirdScanInNode existsScan = false ∧
    explainPushdownBind (fun _ => .ok [.select existsScan]) [.varchar "SELECT 1 WHERE EXISTS (SELECT …)"] =
      .ok (utf8 "SELECT 1 WHERE EXISTS (SELECT …)") ∧
    ¬∀ n : QueryNode, HoldsScan Edge.any (.node n) → hasFirebirdScanInNode n = true := by
  have hholds : HoldsScan Edge.any (.node existsScan) :=
    .of_child rfl .whereClause (.of_child rfl .subqueryQuery (holdsScan_selectFrom rfl))
  refine ⟨hholds, rfl, rfl, ?_⟩
  intro h
  cases h existsScan hholds

end FirebirdScan
