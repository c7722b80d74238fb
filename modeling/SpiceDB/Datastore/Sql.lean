import Mathlib.Data.String.Basic
import Mathlib.Data.List.Sort
import SpiceDB.Datastore.Filter
import SpiceDB.Lib.Lex

namespace SpiceDB.Datastore

/-- A column of the relation tuple table, as `SchemaInformation` names them. -/
inductive Column where
  | colNamespace
  | colObjectID
  | colRelation
  | colUsersetNamespace
  | colUsersetObjectID
  | colUsersetRelation
  | colCaveatName
deriving DecidableEq

inductive PaginationFilterType where
  | TupleComparison
  | ExpandedLogicComparison
deriving DecidableEq

/-- The value a relationship stores in a column. -/
def columnValue (relationship : RelationTuple) : Column → String
  | .colNamespace => relationship.resourceAndRelation.«namespace»
  | .colObjectID => relationship.resourceAndRelation.objectId
  | .colRelation => relationship.resourceAndRelation.relation
  | .colUsersetNamespace => relationship.subject.«namespace»
  | .colUsersetObjectID => relationship.subject.objectId
  | .colUsersetRelation => relationship.subject.relation
  | .colCaveatName => (relationship.caveat.map (·.caveatName)).getD ""

/-- A condition of the `WHERE` clause, as squirrel builds it. -/
inductive Condition where
  /-- `sq.Eq`. -/
  | eq (column : Column) (value : String)
  /-- `sq.NotEq`. -/
  | notEq (column : Column) (value : String)
  /-- `column IN (?, ...)`. -/
  | inList (column : Column) (values : List String)
  /-- `sq.Like`, with the pattern it is given. -/
  | like (column : Column) (pattern : String)
  /-- `sq.Gt`. -/
  | gt (column : Column) (value : String)
  /-- `(columns) > (?, ...)`, a row value comparison. -/
  | rowGt (columns : List Column) (values : List String)
  /-- `sq.And`. -/
  | and (conditions : List Condition)
  /-- `sq.Or`. -/
  | or (conditions : List Condition)

/-- SQL `LIKE` with `%` for any sequence, `_` for any character and `\` escaping the next
character. -/
def likeMatch : List Char → List Char → Bool
  | [], s => s.isEmpty
  | '%' :: pattern, s => s.tails.any (likeMatch pattern)
  | '\\' :: c :: pattern, x :: s => c = x && likeMatch pattern s
  | '_' :: pattern, _ :: s => likeMatch pattern s
  | c :: pattern, x :: s => c = x && likeMatch pattern s
  | _ :: _, [] => false

mutual
/-- Whether a relationship satisfies a condition. -/
def Condition.eval (relationship : RelationTuple) : Condition → Bool
  | .eq column value => columnValue relationship column = value
  | .notEq column value => columnValue relationship column ≠ value
  | .inList column values => values.contains (columnValue relationship column)
  | .like column pattern => likeMatch pattern.toList (columnValue relationship column).toList
  | .gt column value => decide (value < columnValue relationship column)
  | .rowGt columns values => Lex.rowGt ((columns.map (columnValue relationship)).zip values)
  | .and conditions => evalAll relationship conditions
  | .or conditions => evalAny relationship conditions

/-- Every condition holds. -/
def evalAll (relationship : RelationTuple) : List Condition → Bool
  | [] => true
  | condition :: conditions => condition.eval relationship && evalAll relationship conditions

/-- Some condition holds. -/
def evalAny (relationship : RelationTuple) : List Condition → Bool
  | [] => false
  | condition :: conditions => condition.eval relationship || evalAny relationship conditions
end

/-- The `ORDER BY` columns of a sort order. -/
def sortColumns : SortOrder → List Column
  | .ByResource => [.colNamespace, .colObjectID, .colRelation, .colUsersetNamespace,
      .colUsersetObjectID, .colUsersetRelation]
  | .BySubject => [.colUsersetNamespace, .colUsersetObjectID, .colUsersetRelation, .colNamespace,
      .colObjectID, .colRelation]
  | .Unsorted => []

/-- `SchemaQueryFilterer`: the query built so far. The pagination filter type comes from the
datastore's `SchemaInformation`; tracing attributes are left out. -/
structure SchemaQueryFilterer where
  paginationFilterType : PaginationFilterType
  whereClauses : List Condition
  orderBy : List Column
  filteringColumnCounts : Column → ℕ

def newSchemaQueryFilterer (paginationFilterType : PaginationFilterType) : SchemaQueryFilterer :=
  ⟨paginationFilterType, [], [], fun _ => 0⟩

namespace SchemaQueryFilterer

def addWhere (sqf : SchemaQueryFilterer) (condition : Condition) : SchemaQueryFilterer :=
  { sqf with whereClauses := sqf.whereClauses ++ [condition] }

def recordColumnValue (sqf : SchemaQueryFilterer) (colName : Column) : SchemaQueryFilterer :=
  { sqf with filteringColumnCounts :=
      Function.update sqf.filteringColumnCounts colName (sqf.filteringColumnCounts colName + 1) }

def tupleOrder (sqf : SchemaQueryFilterer) (order : SortOrder) : SchemaQueryFilterer :=
  { sqf with orderBy := sqf.orderBy ++ sortColumns order }

/-- The columns and cursor values of `After`, in the order the source lists them. -/
def afterColumnsAndValues (cursor : RelationTuple) : SortOrder → List (Column × String)
  | .ByResource =>
    [(.colNamespace, cursor.resourceAndRelation.«namespace»),
     (.colObjectID, cursor.resourceAndRelation.objectId),
     (.colRelation, cursor.resourceAndRelation.relation),
     (.colUsersetNamespace, cursor.subject.«namespace»),
     (.colUsersetObjectID, cursor.subject.objectId),
     (.colUsersetRelation, cursor.subject.relation)]
  | .BySubject =>
    [(.colUsersetNamespace, cursor.subject.«namespace»),
     (.colUsersetObjectID, cursor.subject.objectId),
     (.colNamespace, cursor.resourceAndRelation.«namespace»),
     (.colObjectID, cursor.resourceAndRelation.objectId),
     (.colRelation, cursor.resourceAndRelation.relation),
     (.colUsersetRelation, cursor.subject.relation)]
  | .Unsorted => []

/-- The disjuncts of the expanded cursor condition: for each compared column, the compared
columns before it (`previous`) equal and this one greater. -/
def expandedClauses (compared : Column → Bool) :
    List (Column × String) → List (Column × String) → List Condition
  | _, [] => []
  | previous, cav :: rest =>
    (if compared cav.1 then
      [.and (((previous.filter fun p => compared p.1).map fun p => .eq p.1 p.2) ++ [.gt cav.1 cav.2])]
    else []) ++ expandedClauses compared (previous ++ [cav]) rest

/-- `After`: rows past the cursor in the given order, over the columns not restricted exactly
once. -/
def after (sqf : SchemaQueryFilterer) (cursor : RelationTuple) (order : SortOrder) :
    SchemaQueryFilterer :=
  let columnsAndValues := afterColumnsAndValues cursor order
  let compared := fun column => sqf.filteringColumnCounts column ≠ 1
  match sqf.paginationFilterType with
  | .TupleComparison =>
    let comparedColumns := columnsAndValues.filter fun cav => compared cav.1
    if comparedColumns.length > 0 then
      sqf.addWhere (.rowGt (comparedColumns.map Prod.fst) (comparedColumns.map Prod.snd))
    else sqf
  | .ExpandedLogicComparison =>
    let orClause := expandedClauses compared [] columnsAndValues
    if orClause.length > 0 then sqf.addWhere (.or orClause) else sqf

def filterToResourceType (sqf : SchemaQueryFilterer) (resourceType : String) : SchemaQueryFilterer :=
  (sqf.addWhere (.eq .colNamespace resourceType)).recordColumnValue .colNamespace

def filterToResourceID (sqf : SchemaQueryFilterer) (objectID : String) : SchemaQueryFilterer :=
  (sqf.addWhere (.eq .colObjectID objectID)).recordColumnValue .colObjectID

def filterToRelation (sqf : SchemaQueryFilterer) (relation : String) : SchemaQueryFilterer :=
  (sqf.addWhere (.eq .colRelation relation)).recordColumnValue .colRelation

def filterWithCaveatName (sqf : SchemaQueryFilterer) (caveatName : String) : SchemaQueryFilterer :=
  (sqf.addWhere (.eq .colCaveatName caveatName)).recordColumnValue .colCaveatName

/-- `FilterWithResourceIDPrefix`: the resource id column is not recorded. -/
def filterWithResourceIDPrefix (sqf : SchemaQueryFilterer) (idPrefix : String) :
    Except String SchemaQueryFilterer :=
  if idPrefix.contains '%' then throw (mustBugf "prefix cannot contain the percent sign")
  else if idPrefix = "" then throw (mustBugf "prefix cannot be empty")
  else pure (sqf.addWhere (.like .colObjectID (idPrefix ++ "%")))

/-- `FilterToResourceIDs`: the resource id column is recorded once per id. -/
def filterToResourceIDs (sqf : SchemaQueryFilterer) (resourceIds : List String) :
    Except String SchemaQueryFilterer :=
  if resourceIds.length > 100 then
    throw (mustBugf "cannot have more than 100 resources IDs in a single filter")
  else if resourceIds.any (·.isEmpty) then throw (mustBugf "got empty resource ID")
  else pure ((resourceIds.foldl (fun sqf _ => sqf.recordColumnValue .colObjectID) sqf).addWhere
    (.inList .colObjectID resourceIds))

/-- The clause of one subjects selector, with the columns it records. -/
def selectorClause (sqf : SchemaQueryFilterer) (selector : SubjectsSelector) :
    Except String (SchemaQueryFilterer × List Condition) := do
  let (sqf, clause) :=
    if selector.optionalSubjectType ≠ "" then
      (sqf.recordColumnValue .colUsersetNamespace, [Condition.eq .colUsersetNamespace selector.optionalSubjectType])
    else (sqf, [])
  let (sqf, clause) ← if selector.optionalSubjectIds ≠ [] then
      if selector.optionalSubjectIds.length > 100 then
        throw (mustBugf "cannot have more than 100 subject IDs in a single filter")
      else if selector.optionalSubjectIds.any (·.isEmpty) then throw (mustBugf "got empty subject ID")
      else pure (selector.optionalSubjectIds.foldl (fun sqf _ => sqf.recordColumnValue .colUsersetObjectID) sqf,
        clause ++ [Condition.inList .colUsersetObjectID selector.optionalSubjectIds])
    else pure (sqf, clause)
  let rf := selector.relationFilter
  if rf.isEmpty then pure (sqf, clause)
  else if rf.onlyNonEllipsisRelations then
    pure (sqf.recordColumnValue .colUsersetRelation, clause ++ [.notEq .colUsersetRelation ellipsis])
  else
    let relations := (if rf.includeEllipsisRelation then [ellipsis] else []) ++
      (if rf.nonEllipsisRelation ≠ "" then [rf.nonEllipsisRelation] else [])
    match relations with
    | [relName] => pure (sqf.recordColumnValue .colUsersetRelation, clause ++ [.eq .colUsersetRelation relName])
    | _ => pure (relations.foldl (fun sqf _ => sqf.recordColumnValue .colUsersetRelation) sqf,
        clause ++ [.or (relations.map fun relationName =>
          .eq .colUsersetRelation (if relationName = "" then ellipsis else relationName))])

/-- `FilterWithSubjectsSelectors`: one disjunct per selector. -/
def filterWithSubjectsSelectors (sqf : SchemaQueryFilterer) (selectors : List SubjectsSelector) :
    Except String SchemaQueryFilterer := do
  let (sqf, selectorsOrClause) ← selectors.foldlM (fun acc selector => do
      let (sqf, clause) ← selectorClause acc.1 selector
      pure (sqf, acc.2 ++ [Condition.and clause])) (sqf, [])
  pure (sqf.addWhere (.or selectorsOrClause))

def filterWithRelationshipsFilter (sqf : SchemaQueryFilterer) (filter : RelationshipsFilter) :
    Except String SchemaQueryFilterer := do
  let csqf := if filter.optionalResourceType ≠ "" then sqf.filterToResourceType filter.optionalResourceType else sqf
  let csqf := if filter.optionalResourceRelation ≠ "" then
    csqf.filterToRelation filter.optionalResourceRelation else csqf
  if filter.optionalResourceIds ≠ [] ∧ filter.optionalResourceIDPrefix ≠ "" then
    throw (mustBugf "cannot filter by both resource IDs and ID prefix")
  let csqf ← if filter.optionalResourceIds ≠ [] then csqf.filterToResourceIDs filter.optionalResourceIds
    else pure csqf
  let csqf ← if filter.optionalResourceIDPrefix ≠ "" then
    csqf.filterWithResourceIDPrefix filter.optionalResourceIDPrefix else pure csqf
  let csqf ← if filter.optionalSubjectsSelectors ≠ [] then
    csqf.filterWithSubjectsSelectors filter.optionalSubjectsSelectors else pure csqf
  pure (if filter.optionalCaveatName ≠ "" then csqf.filterWithCaveatName filter.optionalCaveatName else csqf)

/-- The row's values in the `ORDER BY` columns. -/
def orderKey (sqf : SchemaQueryFilterer) (relationship : RelationTuple) : List String :=
  sqf.orderBy.map (columnValue relationship)

/-- What the database returns for the query: the rows satisfying every condition, in
`ORDER BY` order, cut at the limit. -/
def run (sqf : SchemaQueryFilterer) (limit : Option ℕ) (relationships : List RelationTuple) :
    List RelationTuple :=
  let rows := (relationships.filter fun relationship => evalAll relationship sqf.whereClauses).insertionSort
    fun a b => Lex.rowGt ((sqf.orderKey a).zip (sqf.orderKey b)) = false
  match limit with
  | some limit => rows.take limit
  | none => rows

end SchemaQueryFilterer

/-- `QueryExecutor.ExecuteQuery`: the sort order, then the cursor, then the database. -/
def executeQuery (query : SchemaQueryFilterer) (sort : SortOrder) (after : Option RelationTuple)
    (limit : Option ℕ) (relationships : List RelationTuple) : Except String (List RelationTuple) := do
  let query := query.tupleOrder sort
  let query ← match after with
    | some cursor =>
      if sort = .Unsorted then throw "cursors are disabled on unsorted results"
      else pure (query.after cursor sort)
    | none => pure query
  pure (query.run limit relationships)

@[simp] theorem evalAll_nil (relationship : RelationTuple) : evalAll relationship [] = true := rfl

@[simp] theorem evalAll_cons (relationship : RelationTuple) (c : Condition) (cs : List Condition) :
    evalAll relationship (c :: cs) = (c.eval relationship && evalAll relationship cs) := rfl

@[simp] theorem evalAny_nil (relationship : RelationTuple) : evalAny relationship [] = false := rfl

@[simp] theorem evalAny_cons (relationship : RelationTuple) (c : Condition) (cs : List Condition) :
    evalAny relationship (c :: cs) = (c.eval relationship || evalAny relationship cs) := rfl

@[simp] theorem evalAll_append (relationship : RelationTuple) (l₁ l₂ : List Condition) :
    evalAll relationship (l₁ ++ l₂) = (evalAll relationship l₁ && evalAll relationship l₂) := by
  induction l₁ with
  | nil => simp
  | cons c cs ih => simp [ih, Bool.and_assoc]

@[simp] theorem evalAny_append (relationship : RelationTuple) (l₁ l₂ : List Condition) :
    evalAny relationship (l₁ ++ l₂) = (evalAny relationship l₁ || evalAny relationship l₂) := by
  induction l₁ with
  | nil => simp
  | cons c cs ih => simp [ih, Bool.or_assoc]

/-- A relationship's values in some columns, each paired with the cursor's. -/
def cursorPairs (relationship : RelationTuple) (columnsAndValues : List (Column × String)) :
    List (String × String) :=
  columnsAndValues.map fun cav => (columnValue relationship cav.1, cav.2)

theorem evalAll_eqs (relationship : RelationTuple) (columnsAndValues : List (Column × String)) :
    evalAll relationship (columnsAndValues.map fun p => Condition.eq p.1 p.2) =
      (cursorPairs relationship columnsAndValues).all fun q => decide (q.1 = q.2) := by
  induction columnsAndValues with
  | nil => rfl
  | cons p ps ih => simp [ih, cursorPairs, Condition.eval]

/-- The expanded cursor condition is the lexicographic comparison over the compared columns,
after the compared columns of `previous` are equal. -/
theorem evalAny_expandedClauses (compared : Column → Bool) (relationship : RelationTuple) :
    ∀ (columnsAndValues previous : List (Column × String)),
      evalAny relationship (SchemaQueryFilterer.expandedClauses compared previous columnsAndValues) =
        Lex.prefixExpanded (cursorPairs relationship (previous.filter fun p => compared p.1))
          (cursorPairs relationship (columnsAndValues.filter fun p => compared p.1)) := by
  intro columnsAndValues
  induction columnsAndValues with
  | nil => intro previous; simp [SchemaQueryFilterer.expandedClauses, Lex.prefixExpanded, cursorPairs]
  | cons cav rest ih =>
    intro previous
    rw [SchemaQueryFilterer.expandedClauses, evalAny_append, ih, List.filter_append]
    cases hc : compared cav.1 with
    | false => simp [hc]
    | true =>
      simp only [hc, if_true, List.filter_cons, List.filter_nil, cursorPairs, List.map_append,
        List.map_cons, List.map_nil, evalAny_cons, evalAny_nil, Bool.or_false, Condition.eval,
        evalAll_append, evalAll_eqs, evalAll_cons, evalAll_nil, Bool.and_true, Lex.prefixExpanded]

theorem length_expandedClauses (compared : Column → Bool) :
    ∀ (columnsAndValues previous : List (Column × String)),
      (SchemaQueryFilterer.expandedClauses compared previous columnsAndValues).length =
        (columnsAndValues.filter fun p => compared p.1).length := by
  intro columnsAndValues
  induction columnsAndValues with
  | nil => intro previous; rfl
  | cons cav rest ih =>
    intro previous
    rw [SchemaQueryFilterer.expandedClauses, List.length_append, ih, List.filter_cons]
    cases compared cav.1 <;> simp [Nat.add_comm]

/-- Under either pagination filter type, `After` keeps the rows that are lexicographically
past the cursor over the columns not restricted exactly once (all rows if every column is). -/
theorem eval_after (sqf : SchemaQueryFilterer) (cursor : RelationTuple) (order : SortOrder)
    (relationship : RelationTuple) :
    evalAll relationship (sqf.after cursor order).whereClauses =
      (evalAll relationship sqf.whereClauses &&
        (let compared := cursorPairs relationship ((SchemaQueryFilterer.afterColumnsAndValues cursor order).filter
          fun cav => sqf.filteringColumnCounts cav.1 ≠ 1)
        compared.isEmpty || Lex.rowGt compared)) := by
  unfold SchemaQueryFilterer.after
  cases sqf.paginationFilterType with
  | TupleComparison =>
    simp only
    split
    · rename_i hlen
      have hne : (cursorPairs relationship ((SchemaQueryFilterer.afterColumnsAndValues cursor order).filter
          fun cav => sqf.filteringColumnCounts cav.1 ≠ 1)).isEmpty = false := by
        simpa [cursorPairs, List.isEmpty_iff, ← List.length_pos_iff] using hlen
      rw [hne, Bool.false_or, SchemaQueryFilterer.addWhere, evalAll_append, evalAll_cons,
        evalAll_nil, Bool.and_true, Condition.eval, List.map_map, List.zip_map']
      rfl
    · rename_i hlen
      have hnil := List.eq_nil_of_length_eq_zero (Nat.eq_zero_of_not_pos hlen)
      rw [hnil]
      simp [cursorPairs]
  | ExpandedLogicComparison =>
    simp only
    split
    · rename_i hlen
      rw [length_expandedClauses] at hlen
      have hne : (cursorPairs relationship ((SchemaQueryFilterer.afterColumnsAndValues cursor order).filter
          fun cav => sqf.filteringColumnCounts cav.1 ≠ 1)).isEmpty = false := by
        simpa [cursorPairs, List.isEmpty_iff, ← List.length_pos_iff] using hlen
      rw [hne, Bool.false_or, SchemaQueryFilterer.addWhere, evalAll_append, evalAll_cons,
        evalAll_nil, Bool.and_true, Condition.eval, evalAny_expandedClauses, List.filter_nil,
        show cursorPairs relationship [] = [] from rfl, Lex.prefixExpanded_nil]
    · rename_i hlen
      rw [length_expandedClauses] at hlen
      have hnil := List.eq_nil_of_length_eq_zero (Nat.eq_zero_of_not_pos hlen)
      rw [hnil]
      simp [cursorPairs]

theorem afterColumnsAndValues_byResource (cursor : RelationTuple) :
    SchemaQueryFilterer.afterColumnsAndValues cursor .ByResource =
      (sortColumns .ByResource).map fun column => (column, columnValue cursor column) := rfl

/-- In resource order the cursor columns are the `ORDER BY` columns, so as long as the rows
agree with the cursor on every column restricted exactly once, `After` keeps exactly the rows
whose sort key is past the cursor's. -/
theorem eval_after_byResource (sqf : SchemaQueryFilterer) (cursor relationship : RelationTuple)
    (hfixed : ∀ column ∈ sortColumns .ByResource, sqf.filteringColumnCounts column = 1 →
      columnValue relationship column = columnValue cursor column)
    (hcompared : ∃ column ∈ sortColumns .ByResource, sqf.filteringColumnCounts column ≠ 1) :
    evalAll relationship (sqf.after cursor .ByResource).whereClauses =
      (evalAll relationship sqf.whereClauses &&
        Lex.rowGt (((sortColumns .ByResource).map (columnValue relationship)).zip
          ((sortColumns .ByResource).map (columnValue cursor)))) := by
  let keep := fun column => decide (sqf.filteringColumnCounts column ≠ 1)
  let pair := fun column => (columnValue relationship column, columnValue cursor column)
  have hpairs : cursorPairs relationship ((SchemaQueryFilterer.afterColumnsAndValues cursor .ByResource).filter
      fun cav => sqf.filteringColumnCounts cav.1 ≠ 1) = ((sortColumns .ByResource).filter keep).map pair := by
    rw [afterColumnsAndValues_byResource, List.filter_map, cursorPairs, List.map_map]
    rfl
  have hne : (((sortColumns .ByResource).filter keep).map pair).isEmpty = false := by
    obtain ⟨column, hmem, hcount⟩ := hcompared
    have hin : pair column ∈ ((sortColumns .ByResource).filter keep).map pair :=
      List.mem_map_of_mem (List.mem_filter.2 ⟨hmem, by simpa [keep] using hcount⟩)
    cases hl : ((sortColumns .ByResource).filter keep).map pair with
    | nil => simp [hl] at hin
    | cons _ _ => rfl
  have hdrop : ∀ column ∈ sortColumns .ByResource, keep column = false → (pair column).1 = (pair column).2 := by
    intro column hmem hkeep
    exact hfixed column hmem (by simpa [keep] using hkeep)
  rw [eval_after, hpairs]
  simp only [hne, Bool.false_or]
  rw [Lex.rowGt_map_filter pair keep _ hdrop, List.zip_map']

/-- A query of the documents, paged in resource order after `document:a#viewer@user:u`, keeps
`document:b#viewer@user:u`, which comes after it. -/
theorem eval_after_byResource_documents :
    let sqf := (newSchemaQueryFilterer .TupleComparison).filterToResourceType "document"
    let cursor : RelationTuple := ⟨⟨"document", "a", "viewer"⟩, ⟨"user", "u", "..."⟩, none⟩
    let relationship : RelationTuple := ⟨⟨"document", "b", "viewer"⟩, ⟨"user", "u", "..."⟩, none⟩
    evalAll relationship (sqf.after cursor .ByResource).whereClauses =
      (evalAll relationship sqf.whereClauses &&
        Lex.rowGt (((sortColumns .ByResource).map (columnValue relationship)).zip
          ((sortColumns .ByResource).map (columnValue cursor)))) :=
  eval_after_byResource _ _ _ (by decide +kernel) (by decide +kernel)

/-- Paging by subject through relationships filtered to one resource type loses a row: the
first page of one row ends at `r1`, and the page after `r1` is empty, although `r2` passes the
filter and comes after `r1` in subject order. `TupleOrder` sorts the subject relation third,
while `After` compares it last, behind the resource columns. -/
theorem after_bySubject_skips_row (pft : PaginationFilterType) :
    let filter : RelationshipsFilter := ⟨"document", [], "", "", [], ""⟩
    let r1 : RelationTuple := ⟨⟨"document", "b", "viewer"⟩, ⟨"group", "g", "a_rel"⟩, none⟩
    let r2 : RelationTuple := ⟨⟨"document", "a", "viewer"⟩, ⟨"group", "g", "b_rel"⟩, none⟩
    filter.test r2 = true ∧
      Lex.rowGt (((sortColumns .BySubject).map (columnValue r2)).zip
        ((sortColumns .BySubject).map (columnValue r1))) = true ∧
      ((newSchemaQueryFilterer pft).filterWithRelationshipsFilter filter >>= fun query =>
        executeQuery query .BySubject none (some 1) [r1, r2]) = .ok [r1] ∧
      ((newSchemaQueryFilterer pft).filterWithRelationshipsFilter filter >>= fun query =>
        executeQuery query .BySubject (some r1) none [r1, r2]) = .ok [] := by
  cases pft <;> decide +kernel

end SpiceDB.Datastore
