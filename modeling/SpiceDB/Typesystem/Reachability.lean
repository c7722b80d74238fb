import Mathlib
import SpiceDB.Lib.Except
import SpiceDB.Typesystem.TypeSystem

namespace SpiceDB.Typesystem

inductive ReachabilityEntrypointKind where
  | RELATION_ENTRYPOINT
  | COMPUTED_USERSET_ENTRYPOINT
  | TUPLESET_TO_USERSET_ENTRYPOINT
deriving DecidableEq, Repr

/-- The name `%v` prints for a kind. -/
def ReachabilityEntrypointKind.name : ReachabilityEntrypointKind → String
  | .RELATION_ENTRYPOINT => "RELATION_ENTRYPOINT"
  | .COMPUTED_USERSET_ENTRYPOINT => "COMPUTED_USERSET_ENTRYPOINT"
  | .TUPLESET_TO_USERSET_ENTRYPOINT => "TUPLESET_TO_USERSET_ENTRYPOINT"

inductive EntrypointResultStatus where
  | DIRECT_OPERATION_RESULT
  | REACHABLE_CONDITIONAL_RESULT
deriving DecidableEq, Repr

structure ReachabilityEntrypoint where
  kind : ReachabilityEntrypointKind
  targetRelation : RelationReference
  resultStatus : EntrypointResultStatus
  tuplesetRelation : String
deriving DecidableEq

/-- `core.ReachabilityGraph`: the entrypoints of wildcard subject types, and of subject
relations. -/
structure ReachabilityGraph where
  entrypointsBySubjectType : AList fun _ : String => List ReachabilityEntrypoint
  entrypointsBySubjectRelation : AList fun _ : RelationReference => List ReachabilityEntrypoint

/-- The empty graph `computeReachability` starts from. -/
def emptyGraph : ReachabilityGraph := ⟨∅, ∅⟩

/-- `DirectRelation`: the relation a relation entrypoint reads. -/
def ReachabilityEntrypoint.directRelation (entrypoint : ReachabilityEntrypoint) :
    Except String RelationReference :=
  if entrypoint.kind ≠ .RELATION_ENTRYPOINT then
    throw ("cannot call DirectRelation for kind " ++ entrypoint.kind.name)
  else pure entrypoint.targetRelation

/-- `TuplesetRelation`: the tupleset of an arrow entrypoint. -/
def ReachabilityEntrypoint.tuplesetRelationOf (entrypoint : ReachabilityEntrypoint) :
    Except String String :=
  if entrypoint.kind ≠ .TUPLESET_TO_USERSET_ENTRYPOINT then
    throw ("cannot call TupleToUserset for kind " ++ entrypoint.kind.name)
  else pure entrypoint.tuplesetRelation

theorem ReachabilityEntrypoint.directRelation_eq_ok {entrypoint : ReachabilityEntrypoint}
    {rr : RelationReference} (h : entrypoint.directRelation = .ok rr) : rr = entrypoint.targetRelation := by
  unfold ReachabilityEntrypoint.directRelation at h
  split_ifs at h
  cases h
  rfl

theorem ReachabilityEntrypoint.tuplesetRelationOf_eq_ok {entrypoint : ReachabilityEntrypoint}
    {tuplesetRelation : String} (h : entrypoint.tuplesetRelationOf = .ok tuplesetRelation) :
    tuplesetRelation = entrypoint.tuplesetRelation := by
  unfold ReachabilityEntrypoint.tuplesetRelationOf at h
  split_ifs at h
  cases h
  rfl

def ReachabilityEntrypoint.isDirectResult (entrypoint : ReachabilityEntrypoint) : Bool :=
  entrypoint.resultStatus = .DIRECT_OPERATION_RESULT

inductive ReachabilityOption where
  | reachabilityFull
  | reachabilityOptimized
deriving DecidableEq

def addSubjectEntrypoint (graph : ReachabilityGraph) (namespaceName relationName : String)
    (entrypoint : ReachabilityEntrypoint) : Except String ReachabilityGraph :=
  let key : RelationReference := ⟨namespaceName, relationName⟩
  if relationName = "" then throw (mustBugf "found empty relation name for subject entrypoint")
  else
    let entrypoints := ((graph.entrypointsBySubjectRelation.lookup key).getD []) ++ [entrypoint]
    pure { graph with entrypointsBySubjectRelation := graph.entrypointsBySubjectRelation.insert key entrypoints }

/-- `addSubjectLinks`: a wildcard subject type becomes a subject type entrypoint, any other
allowed relation a subject relation entrypoint. -/
def addSubjectLinks (graph : ReachabilityGraph) (operationResultState : EntrypointResultStatus)
    (relation : Relation) (ts : NamespaceDefinition) : Except String ReachabilityGraph :=
  match relation.typeInformation with
  | none => throw ("missing type information for relation " ++ ts.name ++ "#" ++ relation.name)
  | some allowedDirectRelations =>
    let rr : RelationReference := ⟨ts.name, relation.name⟩
    let entrypoint : ReachabilityEntrypoint := ⟨.RELATION_ENTRYPOINT, rr, operationResultState, ""⟩
    allowedDirectRelations.foldlM (fun graph directRelation =>
      match directRelation.relationOrWildcard with
      | .publicWildcard =>
        let subjectType := directRelation.«namespace»
        let entrypoints := ((graph.entrypointsBySubjectType.lookup subjectType).getD []) ++ [entrypoint]
        pure { graph with entrypointsBySubjectType := graph.entrypointsBySubjectType.insert subjectType entrypoints }
      | .relation relationName =>
        addSubjectEntrypoint graph directRelation.«namespace» relationName entrypoint) graph

section Build

variable (schema : List NamespaceDefinition) (ts : NamespaceDefinition) (targetRelation : Relation)
  (option : ReachabilityOption)

/-- The entrypoints of an arrow's tupleset: the computed relation of every allowed type that
has it. -/
def addTuplesetEntrypoints (operationResultState : EntrypointResultStatus)
    (tuplesetRelation computedUsersetRelation : String) (graph : ReachabilityGraph) :
    Except String ReachabilityGraph := do
  let rr : RelationReference := ⟨ts.name, targetRelation.name⟩
  let directRelationTypes ← allowedDirectRelationsAndWildcards ts tuplesetRelation
  directRelationTypes.foldlM (fun graph allowedRelationType => do
    let relTypeSystem ← typeSystemForNamespace schema ts allowedRelationType.«namespace»
    if hasRelation relTypeSystem computedUsersetRelation then
      addSubjectEntrypoint graph allowedRelationType.«namespace» computedUsersetRelation
        ⟨.TUPLESET_TO_USERSET_ENTRYPOINT, rr, operationResultState, tuplesetRelation⟩
    else pure graph) graph

mutual
def computeRewriteReachability (operationResultState : EntrypointResultStatus) (graph : ReachabilityGraph) :
    UsersetRewrite → Except String ReachabilityGraph
  | .union child => computeRewriteOpReachability operationResultState false child graph
  | .intersection child =>
    -- the optimized graph takes only the first child
    computeRewriteOpReachability .REACHABLE_CONDITIONAL_RESULT (option = .reachabilityOptimized) child graph
  | .exclusion child =>
    computeRewriteOpReachability .REACHABLE_CONDITIONAL_RESULT (option = .reachabilityOptimized) child graph

/-- `computeRewriteOpReachability`, stopping after the first child when `firstOnly` (the source
passes the slice `Child[0:1]`). A `nil` child returns from the whole loop. -/
def computeRewriteOpReachability (operationResultState : EntrypointResultStatus) (firstOnly : Bool) :
    List SetOperationChild → ReachabilityGraph → Except String ReachabilityGraph
  | [], graph => pure graph
  | .xThis :: _, _ => throw "use of _this is unsupported; please rewrite your schema"
  | .computedUserset relation :: rest, graph => do
    let graph ← addSubjectEntrypoint graph ts.name relation
      ⟨.COMPUTED_USERSET_ENTRYPOINT, ⟨ts.name, targetRelation.name⟩, operationResultState, ""⟩
    if firstOnly then pure graph
    else computeRewriteOpReachability operationResultState firstOnly rest graph
  | .usersetRewrite rewrite :: rest, graph => do
    let graph ← computeRewriteReachability operationResultState graph rewrite
    if firstOnly then pure graph
    else computeRewriteOpReachability operationResultState firstOnly rest graph
  | .tupleToUserset tupleset computed :: rest, graph => do
    let graph ← addTuplesetEntrypoints schema ts targetRelation operationResultState tupleset computed graph
    if firstOnly then pure graph
    else computeRewriteOpReachability operationResultState firstOnly rest graph
  | .xNil :: _, graph => pure graph
end

end Build

end SpiceDB.Typesystem

namespace SpiceDB

mutual
/-- The branches the optimized graph walks: every intersection and exclusion cut to its first
child, all the way down; unions keep all their children. -/
def UsersetRewrite.firstBranches : UsersetRewrite → UsersetRewrite
  | .union child => .union (firstBranchesAll child)
  | .intersection [] => .intersection []
  | .intersection (c :: _) => .intersection [c.firstBranches]
  | .exclusion [] => .exclusion []
  | .exclusion (c :: _) => .exclusion [c.firstBranches]

/-- `firstBranches` of a child: a nested rewrite is cut, any other child is kept. -/
def SetOperationChild.firstBranches : SetOperationChild → SetOperationChild
  | .usersetRewrite rewrite => .usersetRewrite rewrite.firstBranches
  | c => c

/-- `firstBranches` of each child of a union. -/
def firstBranchesAll : List SetOperationChild → List SetOperationChild
  | [] => []
  | c :: cs => c.firstBranches :: firstBranchesAll cs
end

mutual
/-- A rewrite of unions only: no intersection or exclusion anywhere in it. -/
def UsersetRewrite.unionsOnly : UsersetRewrite → Bool
  | .union child => unionsOnlyAll child
  | .intersection _ => false
  | .exclusion _ => false

/-- `unionsOnly` of every nested rewrite among the children. -/
def unionsOnlyAll : List SetOperationChild → Bool
  | [] => true
  | .usersetRewrite rewrite :: cs => rewrite.unionsOnly && unionsOnlyAll cs
  | _ :: cs => unionsOnlyAll cs
end

mutual
theorem firstBranches_of_unionsOnly : ∀ {rewrite : UsersetRewrite},
    rewrite.unionsOnly = true → rewrite.firstBranches = rewrite
  | .union child, h => by
    rw [UsersetRewrite.firstBranches, firstBranchesAll_of_unionsOnly (by simpa [UsersetRewrite.unionsOnly] using h)]
  | .intersection _, h | .exclusion _, h => by simp [UsersetRewrite.unionsOnly] at h

theorem firstBranchesAll_of_unionsOnly : ∀ {cs : List SetOperationChild},
    unionsOnlyAll cs = true → firstBranchesAll cs = cs
  | [], _ => rfl
  | .usersetRewrite rewrite :: cs, h => by
    simp only [unionsOnlyAll, Bool.and_eq_true] at h
    simp [firstBranchesAll, SetOperationChild.firstBranches, firstBranches_of_unionsOnly h.1,
      firstBranchesAll_of_unionsOnly h.2]
  | .xThis :: cs, h | .computedUserset _ :: cs, h | .tupleToUserset _ _ :: cs, h | .xNil :: cs, h => by
    simp only [unionsOnlyAll] at h
    simp [firstBranchesAll, SetOperationChild.firstBranches, firstBranchesAll_of_unionsOnly h]
end

end SpiceDB

namespace SpiceDB.Typesystem

section Optimized

variable (schema : List NamespaceDefinition) (ts : NamespaceDefinition) (targetRelation : Relation)

mutual
theorem computeRewriteReachability_optimized (st : EntrypointResultStatus) :
    ∀ (graph : ReachabilityGraph) (rewrite : UsersetRewrite),
      computeRewriteReachability schema ts targetRelation .reachabilityOptimized st graph rewrite =
        computeRewriteReachability schema ts targetRelation .reachabilityFull st graph
          rewrite.firstBranches
  | graph, .union child => by
    simp only [computeRewriteReachability, UsersetRewrite.firstBranches]
    exact computeRewriteOpReachability_optimized st child graph
  | graph, .intersection [] | graph, .exclusion [] => by
    simp [computeRewriteReachability, UsersetRewrite.firstBranches, computeRewriteOpReachability]
  | graph, .intersection (c :: rest) | graph, .exclusion (c :: rest) => by
    simp only [computeRewriteReachability, UsersetRewrite.firstBranches]
    exact computeRewriteOpReachability_first _ c rest graph

/-- The optimized walk of a union's children is the full walk of their first branches. -/
theorem computeRewriteOpReachability_optimized (st : EntrypointResultStatus) :
    ∀ (cs : List SetOperationChild) (graph : ReachabilityGraph),
      computeRewriteOpReachability schema ts targetRelation .reachabilityOptimized st false cs graph =
        computeRewriteOpReachability schema ts targetRelation .reachabilityFull st false
          (firstBranchesAll cs) graph
  | [], graph => rfl
  | .xThis :: _, graph => rfl
  | .computedUserset relation :: rest, graph => by
    simp only [computeRewriteOpReachability, firstBranchesAll, SetOperationChild.firstBranches,
      Bool.false_eq_true, if_false]
    congr 1
    funext graph
    exact computeRewriteOpReachability_optimized st rest graph
  | .usersetRewrite rewrite :: rest, graph => by
    simp only [computeRewriteOpReachability, firstBranchesAll, SetOperationChild.firstBranches,
      Bool.false_eq_true, if_false]
    rw [computeRewriteReachability_optimized st graph rewrite]
    congr 1
    funext graph
    exact computeRewriteOpReachability_optimized st rest graph
  | .tupleToUserset tupleset computed :: rest, graph => by
    simp only [computeRewriteOpReachability, firstBranchesAll, SetOperationChild.firstBranches,
      Bool.false_eq_true, if_false]
    congr 1
    funext graph
    exact computeRewriteOpReachability_optimized st rest graph
  | .xNil :: _, graph => rfl

/-- The optimized walk of an intersection's or exclusion's children reads the first only. -/
theorem computeRewriteOpReachability_first (st : EntrypointResultStatus) :
    ∀ (c : SetOperationChild) (rest : List SetOperationChild) (graph : ReachabilityGraph),
      computeRewriteOpReachability schema ts targetRelation .reachabilityOptimized st true (c :: rest) graph =
        computeRewriteOpReachability schema ts targetRelation .reachabilityFull st false
          [c.firstBranches] graph
  | .xThis, _, graph => rfl
  | .computedUserset relation, rest, graph => by
    simp only [computeRewriteOpReachability, SetOperationChild.firstBranches, Bool.false_eq_true,
      if_false, if_true]
  | .usersetRewrite rewrite, rest, graph => by
    simp only [computeRewriteOpReachability, SetOperationChild.firstBranches, Bool.false_eq_true,
      if_false, if_true]
    rw [computeRewriteReachability_optimized st graph rewrite]
  | .tupleToUserset tupleset computed, rest, graph => by
    simp only [computeRewriteOpReachability, SetOperationChild.firstBranches, Bool.false_eq_true,
      if_false, if_true]
  | .xNil, _, graph => rfl
end

end Optimized

def computeReachability (schema : List NamespaceDefinition) (ts : NamespaceDefinition)
    (relationName : String) (option : ReachabilityOption) : Except String ReachabilityGraph :=
  match ts.relation.find? (·.name = relationName) with
  | none => throw ("relation \x60" ++ relationName ++ "\x60 not found under type \x60" ++ ts.name ++
      "\x60 missing when computing reachability")
  | some targetRelation =>
    if targetRelation.typeInformation.isNone ∧ targetRelation.usersetRewrite.isNone then
      throw ("relation \x60" ++ relationName ++
        "\x60 missing type information when computing reachability for namespace \x60" ++ ts.name ++ "\x60")
    else
      match targetRelation.usersetRewrite with
      | some rewrite =>
        computeRewriteReachability schema ts targetRelation option .DIRECT_OPERATION_RESULT emptyGraph rewrite
      | none => addSubjectLinks emptyGraph .DIRECT_OPERATION_RESULT targetRelation ts

/-- `getOrBuildGraph`, without its cache. -/
def getOrBuildGraph (schema : List NamespaceDefinition) (resourceType : RelationReference)
    (option : ReachabilityOption) : Except String ReachabilityGraph :=
  match readNamespaceByName schema resourceType.«namespace» with
  | .error err => throw err.message
  | .ok nsDef => computeReachability schema nsDef resourceType.relation option

/-- An entrypoint found, with the relation whose graph it came from. -/
abbrev FoundEntrypoint := ReachabilityEntrypoint × RelationReference

/-- `tuple.JoinRelRef`, the order the subject relations are walked in. -/
def joinRelRef (rr : RelationReference) : String := rr.«namespace» ++ "#" ++ rr.relation

/-- `collectEntrypoints` with at most `fuel` graphs read: `findOne` stops at the first
entrypoint found. Each graph read is of a relation not encountered before, so the number of
relations of the schema is enough fuel. -/
def collectEntrypoints (schema : List NamespaceDefinition) (subjectType : RelationReference)
    (option : ReachabilityOption) (findOne : Bool) :
    ℕ → RelationReference → List FoundEntrypoint × List RelationReference →
      Except String (List FoundEntrypoint × List RelationReference)
  | 0, _, state => pure state
  | fuel + 1, resourceType, (collected, encounteredRelations) => do
    if resourceType ∈ encounteredRelations then return (collected, encounteredRelations)
    let encounteredRelations := resourceType :: encounteredRelations
    let rrg ← getOrBuildGraph schema resourceType option
    let collected := collected ++ ((rrg.entrypointsBySubjectType.lookup subjectType.«namespace»).getD []).map
      (·, resourceType)
    if findOne ∧ collected ≠ [] then return (collected, encounteredRelations)
    let collected := collected ++ ((rrg.entrypointsBySubjectRelation.lookup subjectType).getD []).map
      (·, resourceType)
    if findOne ∧ collected ≠ [] then return (collected, encounteredRelations)
    -- the subject relations that are relations, in sorted order
    let keys := (rrg.entrypointsBySubjectRelation.keys.insertionSort fun a b => joinRelRef a ≤ joinRelRef b)
    keys.foldlM (fun (state : List FoundEntrypoint × List RelationReference) entrypointSetKey =>
      if findOne ∧ state.1 ≠ [] then pure state
      else if entrypointSetKey.relation ≠ ellipsis then
        collectEntrypoints schema subjectType option findOne fuel entrypointSetKey state
      else pure state) (collected, encounteredRelations)

/-- One key of `collectEntrypoints`'s loop over the subject relations. -/
def collectEntrypointsStep (schema : List NamespaceDefinition) (subjectType : RelationReference)
    (option : ReachabilityOption) (findOne : Bool) (fuel : ℕ)
    (state : List FoundEntrypoint × List RelationReference) (entrypointSetKey : RelationReference) :
    Except String (List FoundEntrypoint × List RelationReference) :=
  if findOne ∧ state.1 ≠ [] then pure state
  else if entrypointSetKey.relation ≠ ellipsis then
    collectEntrypoints schema subjectType option findOne fuel entrypointSetKey state
  else pure state

/-- The relations of a schema, which bound the graphs `collectEntrypoints` reads. -/
def relationCount (schema : List NamespaceDefinition) : ℕ :=
  (schema.map fun ns => ns.relation.length).sum

/-- `entrypointsForSubjectToResource`: the entrypoints found, each once. -/
def entrypointsForSubjectToResource (schema : List NamespaceDefinition) (ts : NamespaceDefinition)
    (subjectType resourceType : RelationReference) (option : ReachabilityOption) (findOne : Bool) :
    Except String (List FoundEntrypoint) := do
  if resourceType.«namespace» ≠ ts.name then
    throw "gave mismatching namespace name for resource type to reachability graph"
  let (collected, _) ← collectEntrypoints schema subjectType option findOne (relationCount schema + 1)
    resourceType ([], [])
  pure collected.dedup

def optimizedEntrypointsForSubjectToResource (schema : List NamespaceDefinition) (ts : NamespaceDefinition)
    (subjectType resourceType : RelationReference) : Except String (List FoundEntrypoint) :=
  entrypointsForSubjectToResource schema ts subjectType resourceType .reachabilityOptimized false

/-- `HasOptimizedEntrypointsForSubjectToResource`, without its cache. -/
def hasOptimizedEntrypointsForSubjectToResource (schema : List NamespaceDefinition)
    (ts : NamespaceDefinition) (subjectType resourceType : RelationReference) : Except String Bool := do
  let found ← entrypointsForSubjectToResource schema ts subjectType resourceType .reachabilityOptimized true
  pure (found ≠ [])

/-- The optimized graph of a relation whose rewrite has unions only (with `nil` children
anywhere among them) is its full graph. -/
theorem computeReachability_optimized_of_unionsOnly (schema : List NamespaceDefinition)
    (ts : NamespaceDefinition) (relationName : String)
    (hunions : ∀ rel ∈ ts.relation.find? (·.name = relationName),
      ∀ rewrite ∈ rel.usersetRewrite, rewrite.unionsOnly = true) :
    computeReachability schema ts relationName .reachabilityOptimized =
      computeReachability schema ts relationName .reachabilityFull := by
  unfold computeReachability
  cases hfind : ts.relation.find? (·.name = relationName) with
  | none => rfl
  | some targetRelation =>
    cases hrewrite : targetRelation.usersetRewrite with
    | none => simp only [hrewrite]
    | some rewrite =>
      have hunion := hunions targetRelation hfind rewrite hrewrite
      simp only [hrewrite, computeRewriteReachability_optimized,
        firstBranches_of_unionsOnly hunion]

section Collect

variable (schema : List NamespaceDefinition) (subjectType : RelationReference)
  (option : ReachabilityOption)

theorem collectEntrypoints_succ (findOne : Bool) (fuel : ℕ) (rt : RelationReference)
    (c : List FoundEntrypoint) (e : List RelationReference) :
    collectEntrypoints schema subjectType option findOne (fuel + 1) rt (c, e) =
      if rt ∈ e then .ok (c, e) else (do
        let rrg ← getOrBuildGraph schema rt option
        let c₁ := c ++ ((rrg.entrypointsBySubjectType.lookup subjectType.«namespace»).getD []).map
          (·, rt)
        if findOne ∧ c₁ ≠ [] then return (c₁, rt :: e)
        let c₂ := c₁ ++ ((rrg.entrypointsBySubjectRelation.lookup subjectType).getD []).map (·, rt)
        if findOne ∧ c₂ ≠ [] then return (c₂, rt :: e)
        (rrg.entrypointsBySubjectRelation.keys.insertionSort
          fun a b => joinRelRef a ≤ joinRelRef b).foldlM
          (collectEntrypointsStep schema subjectType option findOne fuel) (c₂, rt :: e)) :=
  rfl

/-- A loop over keys whose recursive calls keep what they collected keeps it too. -/
theorem prefix_of_foldlM_collectEntrypointsStep {findOne : Bool} {fuel : ℕ}
    (hcollect : ∀ rt state result,
      collectEntrypoints schema subjectType option findOne fuel rt state = .ok result →
        state.1 <+: result.1) :
    ∀ (keys : List RelationReference) (state result : List FoundEntrypoint × List RelationReference),
      keys.foldlM (collectEntrypointsStep schema subjectType option findOne fuel) state =
        .ok result → state.1 <+: result.1 := by
  intro keys state result h
  refine Except.foldlM_invariant (fun s => state.1 <+: s.1) ?_ keys state result
    (List.prefix_refl _) h
  intro s₁ key s₂ hs₁ hstep
  unfold collectEntrypointsStep at hstep
  split_ifs at hstep
  · simp only [Except.pure_eq_ok, Except.ok.injEq] at hstep
    rwa [← hstep]
  · exact hs₁.trans (hcollect key s₁ s₂ hstep)
  · simp only [Except.pure_eq_ok, Except.ok.injEq] at hstep
    rwa [← hstep]

/-- What `collectEntrypoints` has collected it keeps: the entrypoints it starts with are a prefix
of those it returns. -/
theorem prefix_of_collectEntrypoints (findOne : Bool) :
    ∀ (fuel : ℕ) (rt : RelationReference) (state result : List FoundEntrypoint × List RelationReference),
      collectEntrypoints schema subjectType option findOne fuel rt state = .ok result →
        state.1 <+: result.1
  | 0, _, state, result, h => by
    simp only [collectEntrypoints, Except.pure_eq_ok, Except.ok.injEq] at h
    subst h
    exact List.prefix_refl _
  | fuel + 1, rt, (c, e), result, h => by
    rw [collectEntrypoints_succ] at h
    split_ifs at h with hmem
    · simp only [Except.ok.injEq] at h
      subst h
      exact List.prefix_refl _
    · obtain ⟨rrg, -, h⟩ := Except.bind_eq_ok.1 h
      dsimp only at h
      have hfold := prefix_of_foldlM_collectEntrypointsStep schema subjectType option
        (prefix_of_collectEntrypoints findOne fuel)
      split_ifs at h
      · simp only [Except.pure_eq_ok, Except.ok.injEq] at h
        rw [← h]
        exact List.prefix_append _ _
      · simp only [Except.pure_eq_ok, Except.ok.injEq] at h
        rw [← h, List.append_assoc]
        exact List.prefix_append _ _
      · have := hfold _ _ _ h
        rw [List.append_assoc] at this
        exact (List.prefix_append _ _).trans this

theorem ne_nil_of_foldlM_collectEntrypointsStep {findOne : Bool} {fuel : ℕ}
    {keys : List RelationReference} {state result : List FoundEntrypoint × List RelationReference}
    (hstate : state.1 ≠ [])
    (h : keys.foldlM (collectEntrypointsStep schema subjectType option findOne fuel) state =
      .ok result) : result.1 ≠ [] := by
  intro hnil
  have hprefix := prefix_of_foldlM_collectEntrypointsStep schema subjectType option
    (prefix_of_collectEntrypoints schema subjectType option findOne fuel) keys state result h
  rw [hnil] at hprefix
  exact hstate (List.prefix_nil.1 hprefix)

theorem foldlM_collectEntrypointsStep_of_found {fuel : ℕ} :
    ∀ (keys : List RelationReference) (state : List FoundEntrypoint × List RelationReference),
      state.1 ≠ [] →
        keys.foldlM (collectEntrypointsStep schema subjectType option true fuel) state = .ok state
  | [], _, _ => rfl
  | key :: keys, state, hstate => by
    have hstep : collectEntrypointsStep schema subjectType option true fuel state key =
        .ok state := by
      simp [collectEntrypointsStep, hstate]
    rw [List.foldlM_cons, hstep, Except.ok_bind]
    exact foldlM_collectEntrypointsStep_of_found keys state hstate

/-- How the find-one walk's result stands to the find-all walk's from the same start: the same,
or entrypoints found, where the find-all walk, if it returns, has found some too. -/
def FindOneAgrees (one all : Except String (List FoundEntrypoint × List RelationReference)) :
    Prop :=
  one = all ∨
    ∃ found e, found ≠ [] ∧ one = .ok (found, e) ∧ ∀ result, all = .ok result → result.1 ≠ []

/-- The two walks over the keys of a graph, from nothing found, agree when the walks below
them do. -/
theorem foldlM_collectEntrypointsStep_agrees {fuel : ℕ}
    (hcollect : ∀ rt e, FindOneAgrees
      (collectEntrypoints schema subjectType option true fuel rt ([], e))
      (collectEntrypoints schema subjectType option false fuel rt ([], e))) :
    ∀ (keys : List RelationReference) (e : List RelationReference), FindOneAgrees
      (keys.foldlM (collectEntrypointsStep schema subjectType option true fuel) ([], e))
      (keys.foldlM (collectEntrypointsStep schema subjectType option false fuel) ([], e))
  | [], _ => .inl rfl
  | key :: keys, e => by
    simp only [List.foldlM_cons]
    by_cases hkey : key.relation ≠ ellipsis
    · have hone : collectEntrypointsStep schema subjectType option true fuel ([], e) key =
          collectEntrypoints schema subjectType option true fuel key ([], e) := by
        simp [collectEntrypointsStep, hkey]
      have hall : collectEntrypointsStep schema subjectType option false fuel ([], e) key =
          collectEntrypoints schema subjectType option false fuel key ([], e) := by
        simp [collectEntrypointsStep, hkey]
      rw [hone, hall]
      rcases hcollect key e with heq | ⟨found, e', hfound, hone', hall'⟩
      · -- the walks below agree: go on from what they return
        rw [heq]
        cases hr : collectEntrypoints schema subjectType option false fuel key ([], e) with
        | error err => exact .inl rfl
        | ok r =>
          obtain ⟨c', e'⟩ := r
          simp only [Except.ok_bind]
          by_cases hc' : c' = []
          · rw [hc']
            exact foldlM_collectEntrypointsStep_agrees hcollect keys e'
          · exact .inr ⟨c', e', hc', foldlM_collectEntrypointsStep_of_found schema subjectType
              option keys _ hc', fun _ hfold => ne_nil_of_foldlM_collectEntrypointsStep schema
              subjectType option hc' hfold⟩
      · -- the find-one walk below found some: it skips the rest
        rw [hone', Except.ok_bind,
          foldlM_collectEntrypointsStep_of_found schema subjectType option keys _ hfound]
        refine .inr ⟨found, e', hfound, rfl, fun result hresult => ?_⟩
        obtain ⟨s, hs, hfold⟩ := Except.bind_eq_ok.1 hresult
        exact ne_nil_of_foldlM_collectEntrypointsStep schema subjectType option (hall' s hs) hfold
    · have hone : collectEntrypointsStep schema subjectType option true fuel ([], e) key =
          .ok ([], e) := by
        simp [collectEntrypointsStep, hkey]
      have hall : collectEntrypointsStep schema subjectType option false fuel ([], e) key =
          .ok ([], e) := by
        simp [collectEntrypointsStep, hkey]
      rw [hone, hall, Except.ok_bind, Except.ok_bind]
      exact foldlM_collectEntrypointsStep_agrees hcollect keys e

/-- The find-one walk from nothing found agrees with the find-all walk: it is the same walk up
to the first entrypoint found, where it stops. -/
theorem collectEntrypoints_findOne_agrees :
    ∀ (fuel : ℕ) (rt : RelationReference) (e : List RelationReference), FindOneAgrees
      (collectEntrypoints schema subjectType option true fuel rt ([], e))
      (collectEntrypoints schema subjectType option false fuel rt ([], e))
  | 0, _, _ => .inl rfl
  | fuel + 1, rt, e => by
    rw [collectEntrypoints_succ, collectEntrypoints_succ]
    by_cases hmem : rt ∈ e
    · exact .inl (by simp only [hmem, if_true])
    simp only [hmem, if_false]
    cases getOrBuildGraph schema rt option with
    | error err => exact .inl rfl
    | ok rrg =>
      simp only [Except.ok_bind, List.nil_append, Bool.false_eq_true, false_and, if_false,
        true_and, ne_eq]
      -- the entrypoints of the graph's subject type, then of its subject relation
      generalize List.map (fun x => (x, rt))
        ((AList.lookup subjectType.namespace rrg.entrypointsBySubjectType).getD []) = found₁
      generalize List.map (fun x => (x, rt))
        ((AList.lookup subjectType rrg.entrypointsBySubjectRelation).getD []) = found₂
      by_cases h₁ : found₁ = []
      · rw [if_neg (not_not.2 h₁), h₁, List.nil_append]
        by_cases h₂ : found₂ = []
        · rw [if_neg (not_not.2 h₂), h₂]
          exact foldlM_collectEntrypointsStep_agrees schema subjectType option
            (collectEntrypoints_findOne_agrees fuel) _ (rt :: e)
        · rw [if_pos h₂]
          exact .inr ⟨found₂, rt :: e, h₂, rfl, fun _ hfold =>
            ne_nil_of_foldlM_collectEntrypointsStep schema subjectType option h₂ hfold⟩
      · rw [if_pos h₁]
        have hne : found₁ ++ found₂ ≠ [] := by simp [h₁]
        exact .inr ⟨found₁, rt :: e, h₁, rfl, fun _ hfold =>
          ne_nil_of_foldlM_collectEntrypointsStep schema subjectType option hne hfold⟩

end Collect

/-- `HasOptimizedEntrypointsForSubjectToResource` answers whether
`OptimizedEntrypointsForSubjectToResource` finds any entrypoint, whenever the latter returns;
and when it answers no, the latter returns none. -/
theorem hasOptimizedEntrypoints_agrees (schema : List NamespaceDefinition)
    (ts : NamespaceDefinition) (subjectType resourceType : RelationReference) :
    (∀ found, optimizedEntrypointsForSubjectToResource schema ts subjectType resourceType =
        .ok found →
      hasOptimizedEntrypointsForSubjectToResource schema ts subjectType resourceType =
        .ok (decide (found ≠ []))) ∧
    (hasOptimizedEntrypointsForSubjectToResource schema ts subjectType resourceType = .ok false →
      optimizedEntrypointsForSubjectToResource schema ts subjectType resourceType = .ok []) := by
  unfold optimizedEntrypointsForSubjectToResource hasOptimizedEntrypointsForSubjectToResource
    entrypointsForSubjectToResource
  by_cases hns : resourceType.«namespace» ≠ ts.name
  · simp [hns]
  simp only [hns, if_false]
  rcases collectEntrypoints_findOne_agrees schema subjectType .reachabilityOptimized
    (relationCount schema + 1) resourceType [] with heq | ⟨found₁, e, hfound, hone, hall⟩
  · -- the same walk: the same entrypoints
    rw [heq]
    cases collectEntrypoints schema subjectType .reachabilityOptimized false
      (relationCount schema + 1) resourceType ([], []) with
    | error err => simp
    | ok r => simp
  · -- the find-one walk found some; the find-all walk finds some too if it returns
    rw [hone]
    refine ⟨fun found hfind => ?_, fun hfalse => ?_⟩
    · obtain ⟨r, hr, hfound'⟩ := Except.bind_eq_ok.1 hfind
      simp only [Except.pure_eq_ok, Except.ok.injEq] at hfound'
      have hne := hall r hr
      simp [← hfound', List.dedup_eq_nil, hne, hfound]
    · simp [List.dedup_eq_nil, hfound] at hfalse

/-- The optimized walk keeps all the branches of unions: for every rewrite it is the full walk
of its first branches, which for a rewrite of unions is the rewrite itself, so that the
relation's optimized graph is its full graph. And the find-one lookup agrees with the find-all
lookup. -/
theorem optimized_entrypoints_complete_for_unions (schema : List NamespaceDefinition)
    (ts : NamespaceDefinition) :
    (∀ (targetRelation : Relation) (st : EntrypointResultStatus) (graph : ReachabilityGraph)
        (rewrite : UsersetRewrite),
      computeRewriteReachability schema ts targetRelation .reachabilityOptimized st graph rewrite =
        computeRewriteReachability schema ts targetRelation .reachabilityFull st graph
          rewrite.firstBranches) ∧
    (∀ relationName : String, (∀ rel ∈ ts.relation.find? (·.name = relationName),
        ∀ rewrite ∈ rel.usersetRewrite, rewrite.unionsOnly = true) →
      computeReachability schema ts relationName .reachabilityOptimized =
        computeReachability schema ts relationName .reachabilityFull) ∧
    (∀ (subjectType resourceType : RelationReference) found,
      optimizedEntrypointsForSubjectToResource schema ts subjectType resourceType = .ok found →
        hasOptimizedEntrypointsForSubjectToResource schema ts subjectType resourceType =
          .ok (decide (found ≠ []))) ∧
    (∀ subjectType resourceType : RelationReference,
      hasOptimizedEntrypointsForSubjectToResource schema ts subjectType resourceType = .ok false →
        optimizedEntrypointsForSubjectToResource schema ts subjectType resourceType = .ok []) :=
  ⟨fun targetRelation st graph rewrite =>
      computeRewriteReachability_optimized schema ts targetRelation st graph rewrite,
    fun relationName hunions =>
      computeReachability_optimized_of_unionsOnly schema ts relationName hunions,
    fun subjectType resourceType =>
      (hasOptimizedEntrypoints_agrees schema ts subjectType resourceType).1,
    fun subjectType resourceType =>
      (hasOptimizedEntrypoints_agrees schema ts subjectType resourceType).2⟩

/-- `view = viewer + nil` of the package's tests is a rewrite of unions, so its optimized graph
is its full graph. -/
theorem optimized_entrypoints_complete_for_unions_at_view :
    let userRelation := fun name =>
      Relation.mk name none (some [⟨"user", .relation ellipsis, none⟩]) .RELATION ""
    let document : NamespaceDefinition := ⟨"document", [userRelation "viewer",
      ⟨"view", some (.union [.computedUserset "viewer", .xNil]), none, .PERMISSION, ""⟩]⟩
    computeReachability [⟨"user", []⟩, document] document "view" .reachabilityOptimized =
      computeReachability [⟨"user", []⟩, document] document "view" .reachabilityFull := by
  intro userRelation document
  refine (optimized_entrypoints_complete_for_unions [⟨"user", []⟩, document] document).2.1 "view" ?_
  intro rel hrel rewrite hrewrite
  have hfind : document.relation.find? (·.name = "view") =
      some ⟨"view", some (.union [.computedUserset "viewer", .xNil]), none, .PERMISSION, ""⟩ := rfl
  rw [hfind, Option.mem_def, Option.some.injEq] at hrel
  subst hrel
  rw [Option.mem_def, Option.some.injEq] at hrewrite
  subst hrewrite
  rfl

/-- A union branch that is an intersection is cut in the optimized graph: in
`view = viewer + (editor & owner)` the full graph of `view` has an entrypoint for `owner`, read
through the union's second branch, and the optimized graph has none. -/
theorem optimized_graph_drops_nested_intersection_branch :
    let userRelation := fun name =>
      Relation.mk name none (some [⟨"user", .relation ellipsis, none⟩]) .RELATION ""
    let document : NamespaceDefinition := ⟨"document", [userRelation "viewer",
      userRelation "editor", userRelation "owner",
      ⟨"view", some (.union [.computedUserset "viewer",
        .usersetRewrite (.intersection [.computedUserset "editor", .computedUserset "owner"])]),
        none, .PERMISSION, ""⟩]⟩
    let reachesOwner := fun (option : ReachabilityOption) =>
      (computeReachability [⟨"user", []⟩, document] document "view" option).map
        fun graph => (graph.entrypointsBySubjectRelation.lookup ⟨"document", "owner"⟩).isSome
    reachesOwner .reachabilityFull = .ok true ∧ reachesOwner .reachabilityOptimized = .ok false :=
  ⟨rfl, rfl⟩

end SpiceDB.Typesystem
