import SpiceDB.Datastore.Filter
import SpiceDB.Typesystem.TypeSystem
import SpiceDB.Caveats.Builder
import SpiceDB.Lib.Except

namespace SpiceDB

inductive SetOperationUsersetOperation where
  | INVALID
  | UNION
  | INTERSECTION
  | EXCLUSION
deriving DecidableEq, Repr

structure DirectSubject where
  subject : ObjectAndRelation
  caveatExpression : Option CaveatExpression

/-- `core.RelationTupleTreeNode`: an intermediate node of a set operation over its children,
or a leaf of direct subjects, with the object and relation it expands and its caveat. -/
inductive RelationTupleTreeNode where
  | intermediateNode (operation : SetOperationUsersetOperation) (childNodes : List RelationTupleTreeNode)
      (expanded : Option ObjectAndRelation) (caveatExpression : Option CaveatExpression)
  | leafNode (subjects : List DirectSubject) (expanded : Option ObjectAndRelation)
      (caveatExpression : Option CaveatExpression)

namespace RelationTupleTreeNode

def caveatExpression : RelationTupleTreeNode → Option CaveatExpression
  | .intermediateNode _ _ _ caveatExpression => caveatExpression
  | .leafNode _ _ caveatExpression => caveatExpression

/-- The node with its caveat expression set. -/
def setCaveatExpression (caveatExpression : Option CaveatExpression) :
    RelationTupleTreeNode → RelationTupleTreeNode
  | .intermediateNode operation childNodes expanded _ =>
    .intermediateNode operation childNodes expanded caveatExpression
  | .leafNode subjects expanded _ => .leafNode subjects expanded caveatExpression

/-- `GetIntermediateNode().ChildNodes = append(ChildNodes, child)`. Only intermediate nodes
are given a child; the source dereferences a nil node for a leaf. -/
def appendChildNode : RelationTupleTreeNode → RelationTupleTreeNode → RelationTupleTreeNode
  | .intermediateNode operation childNodes expanded caveatExpression, child =>
    .intermediateNode operation (childNodes ++ [child]) expanded caveatExpression
  | node@(.leafNode ..), _ => node

@[simp] theorem caveatExpression_setCaveatExpression (c : Option CaveatExpression)
    (node : RelationTupleTreeNode) : (node.setCaveatExpression c).caveatExpression = c := by
  cases node <;> rfl

end RelationTupleTreeNode

namespace Graph

open Caveats Datastore Typesystem

inductive ExpansionMode where
  | SHALLOW
  | RECURSIVE
deriving DecidableEq, Repr

/-- `dispatch.DispatchExpandRequest`; its depth is the dispatcher's. -/
structure ExpandRequest where
  resourceAndRelation : ObjectAndRelation
  expansionMode : ExpansionMode

/-- `ExpandResult`, its metadata left out. -/
abbrev ExpandResult := Except String RelationTupleTreeNode

abbrev ExpandReducer := ObjectAndRelation → List ExpandResult → ExpandResult

def setResult (op : SetOperationUsersetOperation) (start : ObjectAndRelation)
    (children : List RelationTupleTreeNode) : RelationTupleTreeNode :=
  .intermediateNode op children (some start) none

/-- `expandSetOperation`: the results of the requests read in order; the first error ends it. -/
def expandSetOperation (start : ObjectAndRelation) (requests : List ExpandResult)
    (op : SetOperationUsersetOperation) : ExpandResult := do
  let children ← requests.mapM id
  pure (setResult op start children)

def emptyExpansion (start : ObjectAndRelation) : ExpandResult :=
  pure (.leafNode [] (some start) none)

def expandError (err : String) : ExpandResult :=
  throw err

def expandAll : ExpandReducer := fun start requests =>
  expandSetOperation start requests .INTERSECTION

def expandAny : ExpandReducer := fun start requests =>
  expandSetOperation start requests .UNION

def expandDifference : ExpandReducer := fun start requests =>
  expandSetOperation start requests .EXCLUSION

/-- `decorateWithCaveatIfNecessary`: a caveat replaces that of the expanded tree's root. -/
def decorateWithCaveatIfNecessary (toDispatch : ExpandResult) :
    Option CaveatExpression → ExpandResult
  | none => toDispatch
  | some caveatExpr => do
    let result ← toDispatch
    pure (result.setCaveatExpression (some caveatExpr))

/-- The filter of the relationships of one object under `relation`, as both queries of the
expander build it. -/
def relationshipsFilterFor (resource : ObjectAndRelation) (relation : String) : RelationshipsFilter :=
  ⟨resource.«namespace», [resource.objectId], "", relation, [], ""⟩

/-- The `DirectSubject` of a relationship. -/
def directSubjectOf (tpl : RelationTuple) : DirectSubject :=
  ⟨tpl.subject, wrapCaveat tpl.caveat⟩

namespace ConcurrentExpander

section Expander

variable (schema : List NamespaceDefinition) (relationships : List RelationTuple)
  (dispatch : ExpandRequest → ExpandResult)

/-- `expandDirect`: the subjects of the relationships, and in a recursive expansion the
usersets among them expanded one level down under their relationships' caveats. -/
def expandDirect (req : ExpandRequest) : ExpandResult := do
  let filter := relationshipsFilterFor req.resourceAndRelation req.resourceAndRelation.relation
  let tuples := relationships.filter filter.test
  let foundTerminalUsersets := (tuples.filter (·.subject.relation = ellipsis)).map directSubjectOf
  let foundNonTerminalUsersets := (tuples.filter (·.subject.relation ≠ ellipsis)).map directSubjectOf
  let leaf : RelationTupleTreeNode :=
    .leafNode (foundTerminalUsersets ++ foundNonTerminalUsersets) (some req.resourceAndRelation) none
  if req.expansionMode = .SHALLOW ∨ foundNonTerminalUsersets.isEmpty then
    pure leaf
  else
    let requestsToDispatch := foundNonTerminalUsersets.map fun nonTerminalUser =>
      decorateWithCaveatIfNecessary (dispatch ⟨nonTerminalUser.subject, req.expansionMode⟩)
        nonTerminalUser.caveatExpression
    let result ← expandAny req.resourceAndRelation requestsToDispatch
    pure (result.appendChildNode leaf)

/-- `expandComputedUserset`: the relation expanded on the resource, or on the subject of the
relationship of an arrow; a relation missing from the definition expands to nothing. -/
def expandComputedUserset (req : ExpandRequest) (computedRelation : String) (tpl : Option RelationTuple) :
    ExpandResult :=
  let start := (tpl.map RelationTuple.subject).getD req.resourceAndRelation
  match checkNamespaceAndRelation schema start.«namespace» computedRelation true with
  | .error (.relationNotFound _ _) => emptyExpansion req.resourceAndRelation
  | .error err => expandError err.message
  | .ok () => dispatch ⟨⟨start.«namespace», start.objectId, computedRelation⟩, req.expansionMode⟩

/-- `expandTupleToUserset`: the computed relation expanded on each subject of the tupleset,
under the relationship's caveat, in a union. -/
def expandTupleToUserset (req : ExpandRequest) (tuplesetRelation computedUsersetRelation : String) :
    ExpandResult :=
  let filter := relationshipsFilterFor req.resourceAndRelation tuplesetRelation
  expandAny req.resourceAndRelation ((relationships.filter filter.test).map fun tpl =>
    decorateWithCaveatIfNecessary (expandComputedUserset schema dispatch req computedUsersetRelation (some tpl))
      (wrapCaveat tpl.caveat))

/-- The method `expandSetOperation`: its loop over the children returns at a `_this`, before any
request runs; otherwise the reducer combines the children's requests. -/
def expandSetOperation (req : ExpandRequest) (children : List SetOperationChild)
    (requests : List ExpandResult) (reducer : ExpandReducer) : ExpandResult :=
  if children.any SetOperationChild.isThis then
    expandError "use of _this is unsupported; please rewrite your schema"
  else
    reducer req.resourceAndRelation requests

mutual
def expandUsersetRewrite (req : ExpandRequest) : UsersetRewrite → ExpandResult
  | .union children => expandSetOperation req children (expandChildren req children) expandAny
  | .intersection children => expandSetOperation req children (expandChildren req children) expandAll
  | .exclusion children => expandSetOperation req children (expandChildren req children) expandDifference

/-- The requests the loop of `expandSetOperation` builds, one for each child. -/
def expandChildren (req : ExpandRequest) : List SetOperationChild → List ExpandResult
  | [] => []
  | child :: rest => expandChild req child :: expandChildren req rest

/-- The request of one child; a `_this` never runs, since the operation fails first. -/
def expandChild (req : ExpandRequest) : SetOperationChild → ExpandResult
  | .xThis => expandError "use of _this is unsupported; please rewrite your schema"
  | .computedUserset relation => expandComputedUserset schema dispatch req relation none
  | .usersetRewrite rewrite => expandUsersetRewrite req rewrite
  | .tupleToUserset tuplesetRelation computedUsersetRelation =>
    expandTupleToUserset schema relationships dispatch req tuplesetRelation computedUsersetRelation
  | .xNil => emptyExpansion req.resourceAndRelation
end

/-- `Expand`: a relation without rewrite is read from its relationships, a permission runs its
rewrite. -/
def expand (req : ExpandRequest) (relation : Relation) : ExpandResult :=
  match relation.usersetRewrite with
  | none => expandDirect relationships dispatch req
  | some rewrite => expandUsersetRewrite schema relationships dispatch req rewrite

end Expander

end ConcurrentExpander

/-- `localDispatcher.DispatchExpand` redispatching to itself: no request once the depth is
spent, then the relation read from its definition and expanded. -/
def dispatchExpand (schema : List NamespaceDefinition) (relationships : List RelationTuple) :
    ℕ → ExpandRequest → ExpandResult
  | 0, _ => throw "max depth exceeded: this usually indicates a recursive or too deep data dependency"
  | depth + 1, req => do
    let ns ← readNamespaceAndTypes schema req.resourceAndRelation.«namespace»
    let relation ← relationOrError ns req.resourceAndRelation.relation
    ConcurrentExpander.expand schema relationships (dispatchExpand schema relationships depth) req relation

section Results

variable {schema : List NamespaceDefinition} {relationships : List RelationTuple}
  {dispatch : ExpandRequest → ExpandResult} {γ : Type}

theorem expandSetOperation_eq_ok {start : ObjectAndRelation} {requests : List ExpandResult}
    {op : SetOperationUsersetOperation} {tree : RelationTupleTreeNode} :
    expandSetOperation start requests op = .ok tree ↔
      ∃ children, requests.mapM id = .ok children ∧ tree = setResult op start children := by
  unfold expandSetOperation
  rw [Except.bind_eq_ok]
  constructor
  · rintro ⟨children, h, hpure⟩
    rw [Except.pure_eq_ok, Except.ok.injEq] at hpure
    exact ⟨children, h, hpure.symm⟩
  · rintro ⟨children, h, rfl⟩
    exact ⟨children, h, rfl⟩

theorem forall₂_of_expandSetOperation {start : ObjectAndRelation} {items : List γ}
    {f : γ → ExpandResult} {op : SetOperationUsersetOperation} {tree : RelationTupleTreeNode}
    (h : expandSetOperation start (items.map f) op = .ok tree) :
    ∃ children, List.Forall₂ (fun item child => f item = .ok child) items children ∧
      tree = setResult op start children := by
  obtain ⟨children, hchildren, rfl⟩ := expandSetOperation_eq_ok.1 h
  exact ⟨children, List.forall₂_map_left_iff.1 (Except.forall₂_of_mapM_eq_ok hchildren), rfl⟩

theorem caveatExpression_of_expandSetOperation {start : ObjectAndRelation} {requests : List ExpandResult}
    {op : SetOperationUsersetOperation} {tree : RelationTupleTreeNode}
    (h : expandSetOperation start requests op = .ok tree) : tree.caveatExpression = none := by
  obtain ⟨children, -, rfl⟩ := expandSetOperation_eq_ok.1 h
  rfl

theorem ConcurrentExpander.expandSetOperation_eq_ok {req : ExpandRequest}
    {children : List SetOperationChild} {requests : List ExpandResult} {reducer : ExpandReducer}
    {tree : RelationTupleTreeNode}
    (h : ConcurrentExpander.expandSetOperation req children requests reducer = .ok tree) :
    children.any SetOperationChild.isThis = false ∧ reducer req.resourceAndRelation requests = .ok tree := by
  unfold ConcurrentExpander.expandSetOperation expandError at h
  split at h
  · cases h
  · rename_i hthis
    exact ⟨by simpa using hthis, h⟩

/-- What `expandDirect` returns: the leaf of the subjects, alone in a shallow expansion or where
no subject is a userset, and otherwise after the trees of the usersets in a union. -/
theorem expandDirect_eq_ok {req : ExpandRequest} {tree : RelationTupleTreeNode}
    (h : ConcurrentExpander.expandDirect relationships dispatch req = .ok tree) :
    let tuples := relationships.filter
      (relationshipsFilterFor req.resourceAndRelation req.resourceAndRelation.relation).test
    let nonTerminal := tuples.filter (·.subject.relation ≠ ellipsis)
    let leaf := RelationTupleTreeNode.leafNode
      ((tuples.filter (·.subject.relation = ellipsis)).map directSubjectOf ++ nonTerminal.map directSubjectOf)
      (some req.resourceAndRelation) none
    (req.expansionMode = .SHALLOW ∨ nonTerminal = []) ∧ tree = leaf ∨ ∃ children, List.Forall₂ (fun tpl child =>
        decorateWithCaveatIfNecessary (dispatch ⟨tpl.subject, req.expansionMode⟩) (wrapCaveat tpl.caveat) =
          .ok child) nonTerminal children ∧
      tree = setResult .UNION req.resourceAndRelation (children ++ [leaf]) := by
  unfold ConcurrentExpander.expandDirect at h
  dsimp only at h ⊢
  split at h
  · rename_i hleaf
    rw [Except.pure_eq_ok, Except.ok.injEq] at h
    exact .inl ⟨by simpa using hleaf, h.symm⟩
  · obtain ⟨result, hresult, htree⟩ := Except.bind_eq_ok.1 h
    rw [Except.pure_eq_ok, Except.ok.injEq] at htree
    subst htree
    unfold expandAny at hresult
    rw [List.map_map] at hresult
    obtain ⟨children, hchildren, rfl⟩ := forall₂_of_expandSetOperation hresult
    exact .inr ⟨children, hchildren, rfl⟩

/-- What `expandComputedUserset` returns: nothing where the relation is missing from the
definition, and otherwise the expansion it dispatches. -/
theorem expandComputedUserset_eq_ok {req : ExpandRequest} {computedRelation : String}
    {tpl : Option RelationTuple} {tree : RelationTupleTreeNode}
    (h : ConcurrentExpander.expandComputedUserset schema dispatch req computedRelation tpl = .ok tree) :
    let start := (tpl.map RelationTuple.subject).getD req.resourceAndRelation
    (∃ nsName relationName, checkNamespaceAndRelation schema start.«namespace» computedRelation true =
        .error (.relationNotFound nsName relationName) ∧ tree = .leafNode [] (some req.resourceAndRelation) none) ∨
      (checkNamespaceAndRelation schema start.«namespace» computedRelation true = .ok () ∧
        dispatch ⟨⟨start.«namespace», start.objectId, computedRelation⟩, req.expansionMode⟩ = .ok tree) := by
  intro start
  unfold ConcurrentExpander.expandComputedUserset at h
  dsimp only at h
  split at h
  · rename_i nsName relationName hcheck
    rw [emptyExpansion, Except.pure_eq_ok, Except.ok.injEq] at h
    exact .inl ⟨nsName, relationName, hcheck, h.symm⟩
  · cases h
  · rename_i hcheck
    exact .inr ⟨hcheck, h⟩

theorem caveatExpression_expandUsersetRewrite {req : ExpandRequest} {rewrite : UsersetRewrite}
    {tree : RelationTupleTreeNode}
    (h : ConcurrentExpander.expandUsersetRewrite schema relationships dispatch req rewrite = .ok tree) :
    tree.caveatExpression = none := by
  cases rewrite <;>
  · rw [ConcurrentExpander.expandUsersetRewrite] at h
    exact caveatExpression_of_expandSetOperation (ConcurrentExpander.expandSetOperation_eq_ok h).2

theorem caveatExpression_expand {req : ExpandRequest} {relation : Relation} {tree : RelationTupleTreeNode}
    (h : ConcurrentExpander.expand schema relationships dispatch req relation = .ok tree) :
    tree.caveatExpression = none := by
  unfold ConcurrentExpander.expand at h
  split at h
  · rcases expandDirect_eq_ok h with ⟨-, rfl⟩ | ⟨children, -, rfl⟩ <;> rfl
  · exact caveatExpression_expandUsersetRewrite h

end Results

theorem caveatExpression_dispatchExpand {schema : List NamespaceDefinition}
    {relationships : List RelationTuple} :
    ∀ {depth : ℕ} {req : ExpandRequest} {tree : RelationTupleTreeNode},
      dispatchExpand schema relationships depth req = .ok tree → tree.caveatExpression = none
  | 0, _, _, h => by cases h
  | _ + 1, _, _, h => by
    obtain ⟨ns, -, h⟩ := Except.bind_eq_ok.1 h
    obtain ⟨relation, -, h⟩ := Except.bind_eq_ok.1 h
    exact caveatExpression_expand h

end Graph

end SpiceDB
