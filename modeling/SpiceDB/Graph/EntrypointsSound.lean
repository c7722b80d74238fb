import SpiceDB.Typesystem.Reachability
import SpiceDB.Graph.Semantics
import SpiceDB.Lib.Except
import SpiceDB.Lib.AList

namespace SpiceDB.Graph

open Typesystem

/-- `rr` is read, at every object, as the relation `relation` of the schema. -/
def RelationAt (schema : List NamespaceDefinition) (rr : RelationReference) (relation : Relation) :
    Prop :=
  ∀ objectId, relationOf schema ⟨rr.«namespace», objectId, rr.relation⟩ = some relation

/-- The rewrite holds wherever the atom does: a path of unions leads to it from the root. -/
def ReadsAtom (rewrite : UsersetRewrite) (atom : Atom) : Prop :=
  ∀ atoms : Atom → Bool, atoms atom = true → rewrite.denote atoms = true

/-- The rewrite of the relation `rr`, reaching `atom` through unions. -/
def RewriteReads (schema : List NamespaceDefinition) (rr : RelationReference) (atom : Atom) : Prop :=
  ∃ relation rewrite, RelationAt schema rr relation ∧ relation.usersetRewrite = some rewrite ∧
    ReadsAtom rewrite atom

/-- What a lookup reads from a direct entrypoint of the graph of `resourceType`, found for the
subject relation `subjectType`: the relation of a relation entrypoint is read from its
relationships; a computed userset is `subjectType` itself, on the same object; an arrow reads
`subjectType` on the subjects of its tupleset. -/
def EntrypointMeans (schema : List NamespaceDefinition) (resourceType subjectType : RelationReference)
    (entrypoint : ReachabilityEntrypoint) : Prop :=
  match entrypoint.kind with
  | .RELATION_ENTRYPOINT =>
    ∃ relation, RelationAt schema entrypoint.targetRelation relation ∧ relation.usersetRewrite = none
  | .COMPUTED_USERSET_ENTRYPOINT =>
    subjectType.«namespace» = resourceType.«namespace» ∧
      RewriteReads schema resourceType (.relation subjectType.relation)
  | .TUPLESET_TO_USERSET_ENTRYPOINT =>
    Graph.hasRelation schema subjectType.«namespace» subjectType.relation = true ∧
      RewriteReads schema resourceType (.arrow entrypoint.tuplesetRelation subjectType.relation)

/-- Every direct entrypoint of a graph of `resourceType` means what the lookups read from it;
those of a wildcard subject type are relation entrypoints. -/
structure GraphMeans (schema : List NamespaceDefinition) (resourceType : RelationReference)
    (graph : ReachabilityGraph) : Prop where
  bySubjectRelation : ∀ subjectType entrypoint,
    entrypoint ∈ (graph.entrypointsBySubjectRelation.lookup subjectType).getD [] →
      entrypoint.isDirectResult = true → EntrypointMeans schema resourceType subjectType entrypoint
  bySubjectType : ∀ subjectNamespace entrypoint,
    entrypoint ∈ (graph.entrypointsBySubjectType.lookup subjectNamespace).getD [] →
      entrypoint.kind = .RELATION_ENTRYPOINT ∧
        (entrypoint.isDirectResult = true → ∀ subjectType, EntrypointMeans schema resourceType subjectType entrypoint)

section Build

variable {schema : List NamespaceDefinition} {resourceType : RelationReference}
  {graph graph' : ReachabilityGraph}

theorem graphMeans_emptyGraph : GraphMeans schema resourceType emptyGraph :=
  ⟨fun _ _ h => by simp [emptyGraph] at h, fun _ _ h => by simp [emptyGraph] at h⟩

/-- A subject relation entrypoint that means what it should keeps the graph meaningful. -/
theorem GraphMeans.addSubjectEntrypoint (h : GraphMeans schema resourceType graph)
    {nsName relationName : String} {entrypoint : ReachabilityEntrypoint}
    (hentrypoint : entrypoint.isDirectResult = true →
      EntrypointMeans schema resourceType ⟨nsName, relationName⟩ entrypoint)
    (hadd : Typesystem.addSubjectEntrypoint graph nsName relationName entrypoint = .ok graph') :
    GraphMeans schema resourceType graph' := by
  unfold Typesystem.addSubjectEntrypoint at hadd
  split_ifs at hadd
  rw [Except.pure_eq_ok, Except.ok.injEq] at hadd
  subst hadd
  refine ⟨fun subjectType e he hdirect => ?_, h.bySubjectType⟩
  -- the entrypoints of a subject relation form a multimap: the new one joins its key's list
  rcases MultiMap.mem_get_add.1 (show e ∈ (MultiMap.add ⟨graph.entrypointsBySubjectRelation⟩
      ⟨nsName, relationName⟩ entrypoint).get subjectType from he) with hold | ⟨rfl, rfl⟩
  · exact h.bySubjectRelation subjectType e hold hdirect
  · exact hentrypoint hdirect

/-- The relation entrypoints of a relation read from its relationships. -/
theorem GraphMeans.addSubjectLinks (h : GraphMeans schema resourceType graph)
    {st : EntrypointResultStatus} {relation : Relation} {ts : NamespaceDefinition}
    (hrelation : RelationAt schema ⟨ts.name, relation.name⟩ relation)
    (hrewrite : relation.usersetRewrite = none)
    (hadd : Typesystem.addSubjectLinks graph st relation ts = .ok graph') :
    GraphMeans schema resourceType graph' := by
  unfold Typesystem.addSubjectLinks at hadd
  split at hadd
  · cases hadd
  · rename_i allowedDirectRelations _
    -- every entrypoint added is the relation's own, which it reads from its relationships
    have hmeans : ∀ subjectType, EntrypointMeans schema resourceType subjectType
        ⟨.RELATION_ENTRYPOINT, ⟨ts.name, relation.name⟩, st, ""⟩ :=
      fun _ => ⟨relation, hrelation, hrewrite⟩
    refine Except.foldlM_invariant (GraphMeans schema resourceType) ?_ allowedDirectRelations graph graph'
      h hadd
    intro g allowed g' hg hstep
    split at hstep
    · rw [Except.pure_eq_ok, Except.ok.injEq] at hstep
      subst hstep
      refine ⟨hg.bySubjectRelation, fun subjectNamespace e he => ?_⟩
      rcases MultiMap.mem_get_add.1 (show e ∈ (MultiMap.add ⟨g.entrypointsBySubjectType⟩
          allowed.«namespace» _).get subjectNamespace from he) with hold | ⟨-, rfl⟩
      · exact hg.bySubjectType subjectNamespace e hold
      · exact ⟨rfl, fun _ => hmeans⟩
    · exact hg.addSubjectEntrypoint (fun _ => hmeans _) hstep

/-- `HasRelation` of a definition read for a type is the schema's. -/
theorem hasRelation_of_typeSystemForNamespace {ts relTypeSystem : NamespaceDefinition} {nsName relationName : String}
    (hts : schema.find? (·.name = ts.name) = some ts)
    (hread : typeSystemForNamespace schema ts nsName = .ok relTypeSystem)
    (hhas : Typesystem.hasRelation relTypeSystem relationName = true) :
    Graph.hasRelation schema nsName relationName = true := by
  have hfind : schema.find? (·.name = nsName) = some relTypeSystem := by
    unfold typeSystemForNamespace at hread
    split_ifs at hread with hname
    · rw [Except.pure_eq_ok, Except.ok.injEq] at hread
      subst hread
      rwa [← hname]
    · exact find?_of_readNamespaceAndTypes hread
  obtain ⟨relation, hmem, hname⟩ := List.any_eq_true.1 hhas
  have hsome : (relTypeSystem.relation.find? (·.name = relationName)).isSome := by
    rw [List.find?_isSome]
    exact ⟨relation, hmem, hname⟩
  simpa [Graph.hasRelation, relationOf, hfind] using hsome

/-- The arrow's entrypoints, on the computed relation of each type its tupleset allows. -/
theorem GraphMeans.addTuplesetEntrypoints (h : GraphMeans schema resourceType graph)
    {ts : NamespaceDefinition} {targetRelation : Relation} {st : EntrypointResultStatus}
    {tuplesetRelation computedUsersetRelation : String}
    (hts : schema.find? (·.name = ts.name) = some ts)
    (hreads : st = .DIRECT_OPERATION_RESULT →
      RewriteReads schema resourceType (.arrow tuplesetRelation computedUsersetRelation))
    (hadd : Typesystem.addTuplesetEntrypoints schema ts targetRelation st tuplesetRelation
      computedUsersetRelation graph = .ok graph') :
    GraphMeans schema resourceType graph' := by
  unfold Typesystem.addTuplesetEntrypoints at hadd
  obtain ⟨allowed, -, hadd⟩ := Except.bind_eq_ok.1 hadd
  refine Except.foldlM_invariant (GraphMeans schema resourceType) ?_ allowed graph graph' h hadd
  intro g allowedRelationType g' hg hstep
  obtain ⟨relTypeSystem, hread, hstep⟩ := Except.bind_eq_ok.1 hstep
  split_ifs at hstep with hhas
  · refine hg.addSubjectEntrypoint (fun hdirect => ?_) hstep
    exact ⟨hasRelation_of_typeSystemForNamespace hts hread hhas, hreads (by simpa [ReachabilityEntrypoint.isDirectResult] using hdirect)⟩
  · rw [Except.pure_eq_ok, Except.ok.injEq] at hstep
    exact hstep ▸ hg

section Walk

variable {ts : NamespaceDefinition} {targetRelation : Relation} {option : ReachabilityOption}
  {relation : Relation} {root : UsersetRewrite}

mutual
/-- The walk of a rewrite keeps the graph meaningful, where the rewrite, if it has the direct
status, holds the root wherever it holds itself. -/
theorem GraphMeans.computeRewriteReachability (hts : schema.find? (·.name = ts.name) = some ts)
    (hns : resourceType.«namespace» = ts.name) (hrelation : RelationAt schema resourceType relation)
    (hroot : relation.usersetRewrite = some root) :
    ∀ (st : EntrypointResultStatus) (graph graph' : ReachabilityGraph) (rewrite : UsersetRewrite),
      GraphMeans schema resourceType graph →
      (st = .DIRECT_OPERATION_RESULT → ∀ atoms, rewrite.denote atoms = true → root.denote atoms = true) →
      Typesystem.computeRewriteReachability schema ts targetRelation option st graph rewrite = .ok graph' →
      GraphMeans schema resourceType graph'
  | st, graph, graph', .union children, h, hctx, hrun => by
    rw [Typesystem.computeRewriteReachability] at hrun
    refine GraphMeans.computeRewriteOpReachability hts hns hrelation hroot st false children graph graph' h
      (fun hdirect child hchild atoms hatoms => hctx hdirect atoms ?_) hrun
    -- a child of a union holds the union
    rw [UsersetRewrite.denote, denoteAny_eq_any]
    exact List.any_eq_true.2 ⟨child, hchild, hatoms⟩
  | _, graph, graph', .intersection children, h, _, hrun => by
    rw [Typesystem.computeRewriteReachability] at hrun
    exact GraphMeans.computeRewriteOpReachability hts hns hrelation hroot _ _ children graph graph' h
      (fun hdirect => by cases hdirect) hrun
  | _, graph, graph', .exclusion children, h, _, hrun => by
    rw [Typesystem.computeRewriteReachability] at hrun
    exact GraphMeans.computeRewriteOpReachability hts hns hrelation hroot _ _ children graph graph' h
      (fun hdirect => by cases hdirect) hrun

/-- The walk of the children of a set operation keeps the graph meaningful, where each child
with the direct status holds the root wherever it holds itself. -/
theorem GraphMeans.computeRewriteOpReachability (hts : schema.find? (·.name = ts.name) = some ts)
    (hns : resourceType.«namespace» = ts.name) (hrelation : RelationAt schema resourceType relation)
    (hroot : relation.usersetRewrite = some root) :
    ∀ (st : EntrypointResultStatus) (firstOnly : Bool) (children : List SetOperationChild)
      (graph graph' : ReachabilityGraph),
      GraphMeans schema resourceType graph →
      (st = .DIRECT_OPERATION_RESULT → ∀ child ∈ children, ∀ atoms, child.denote atoms = true →
        root.denote atoms = true) →
      Typesystem.computeRewriteOpReachability schema ts targetRelation option st firstOnly children graph =
        .ok graph' →
      GraphMeans schema resourceType graph'
  | _, _, [], graph, graph', h, _, hrun => by
    rw [Typesystem.computeRewriteOpReachability, Except.pure_eq_ok, Except.ok.injEq] at hrun
    exact hrun ▸ h
  | _, _, .xThis :: _, _, _, _, _, hrun => by
    rw [Typesystem.computeRewriteOpReachability] at hrun
    cases hrun
  | st, firstOnly, .computedUserset computed :: rest, graph, graph', h, hctx, hrun => by
    rw [Typesystem.computeRewriteOpReachability] at hrun
    obtain ⟨g, hadd, hrun⟩ := Except.bind_eq_ok.1 hrun
    -- the computed relation is read on the same object, through the unions above it
    have hg : GraphMeans schema resourceType g := by
      refine h.addSubjectEntrypoint ?_ hadd
      intro hdirect
      refine ⟨hns.symm, relation, root, hrelation, hroot, fun atoms hatoms => ?_⟩
      refine hctx (by simpa [ReachabilityEntrypoint.isDirectResult] using hdirect) _
        List.mem_cons_self atoms ?_
      rwa [SetOperationChild.denote]
    split at hrun
    · rw [Except.pure_eq_ok, Except.ok.injEq] at hrun
      exact hrun ▸ hg
    · exact GraphMeans.computeRewriteOpReachability hts hns hrelation hroot st firstOnly rest g graph' hg
        (fun hdirect child hchild => hctx hdirect child (List.mem_cons_of_mem _ hchild)) hrun
  | st, firstOnly, .usersetRewrite rewrite :: rest, graph, graph', h, hctx, hrun => by
    rw [Typesystem.computeRewriteOpReachability] at hrun
    obtain ⟨g, hnested, hrun⟩ := Except.bind_eq_ok.1 hrun
    have hg : GraphMeans schema resourceType g :=
      GraphMeans.computeRewriteReachability hts hns hrelation hroot st graph g rewrite h
        (fun hdirect atoms hatoms => hctx hdirect _ List.mem_cons_self atoms (by rwa [SetOperationChild.denote]))
        hnested
    split at hrun
    · rw [Except.pure_eq_ok, Except.ok.injEq] at hrun
      exact hrun ▸ hg
    · exact GraphMeans.computeRewriteOpReachability hts hns hrelation hroot st firstOnly rest g graph' hg
        (fun hdirect child hchild => hctx hdirect child (List.mem_cons_of_mem _ hchild)) hrun
  | st, firstOnly, .tupleToUserset tuplesetRelation computed :: rest, graph, graph', h, hctx, hrun => by
    rw [Typesystem.computeRewriteOpReachability] at hrun
    obtain ⟨g, hadd, hrun⟩ := Except.bind_eq_ok.1 hrun
    have hg : GraphMeans schema resourceType g := by
      refine h.addTuplesetEntrypoints hts (fun hdirect => ⟨relation, root, hrelation, hroot, ?_⟩) hadd
      intro atoms hatoms
      exact hctx hdirect _ List.mem_cons_self atoms (by rwa [SetOperationChild.denote])
    split at hrun
    · rw [Except.pure_eq_ok, Except.ok.injEq] at hrun
      exact hrun ▸ hg
    · exact GraphMeans.computeRewriteOpReachability hts hns hrelation hroot st firstOnly rest g graph' hg
        (fun hdirect child hchild => hctx hdirect child (List.mem_cons_of_mem _ hchild)) hrun
  | _, _, .xNil :: _, graph, graph', h, _, hrun => by
    rw [Typesystem.computeRewriteOpReachability, Except.pure_eq_ok, Except.ok.injEq] at hrun
    exact hrun ▸ h
end

end Walk

/-- The graph of a relation means what the lookups read from it. -/
theorem graphMeans_computeReachability {ts : NamespaceDefinition} {relationName : String}
    {option : ReachabilityOption} (hts : schema.find? (·.name = ts.name) = some ts)
    (h : computeReachability schema ts relationName option = .ok graph) :
    GraphMeans schema ⟨ts.name, relationName⟩ graph := by
  unfold computeReachability at h
  split at h
  · cases h
  · rename_i targetRelation hfind
    have hname : targetRelation.name = relationName := by simpa using List.find?_some hfind
    have hrelation : RelationAt schema ⟨ts.name, relationName⟩ targetRelation := fun _ => by
      simp [relationOf, hts, hfind]
    split_ifs at h
    split at h
    · rename_i rewrite hrewrite
      exact GraphMeans.computeRewriteReachability hts rfl hrelation hrewrite _ _ _ _
        graphMeans_emptyGraph (fun _ _ hatoms => hatoms) h
    · rename_i hrewrite
      exact graphMeans_emptyGraph.addSubjectLinks (hname ▸ hrelation) hrewrite h

theorem graphMeans_getOrBuildGraph {option : ReachabilityOption}
    (h : getOrBuildGraph schema resourceType option = .ok graph) : GraphMeans schema resourceType graph := by
  unfold getOrBuildGraph readNamespaceByName at h
  cases hfind : schema.find? (·.name = resourceType.«namespace») with
  | none => simp [hfind] at h
  | some ts =>
    simp only [hfind, Except.pure_eq_ok] at h
    have hname : ts.name = resourceType.«namespace» := by simpa using List.find?_some hfind
    have hmeans := graphMeans_computeReachability (hname ▸ hfind) h
    rwa [hname] at hmeans

/-- An entrypoint found with the relation of its graph means, for the subject relation it was
found for, what the lookups read from it. -/
def FoundMeans (schema : List NamespaceDefinition) (subjectType : RelationReference) (found : FoundEntrypoint) :
    Prop :=
  found.1.isDirectResult = true → EntrypointMeans schema found.2 subjectType found.1

section Collect

variable {subjectType : RelationReference} {option : ReachabilityOption} {findOne : Bool}

/-- Every entrypoint the walk over the graphs collects means what it should. -/
theorem foundMeans_collectEntrypoints :
    ∀ (fuel : ℕ) (rt : RelationReference) (state result : List FoundEntrypoint × List RelationReference),
      (∀ p ∈ state.1, FoundMeans schema subjectType p) →
      collectEntrypoints schema subjectType option findOne fuel rt state = .ok result →
      ∀ p ∈ result.1, FoundMeans schema subjectType p
  | 0, _, state, result, hstate, h => by
    rw [collectEntrypoints, Except.pure_eq_ok, Except.ok.injEq] at h
    exact h ▸ hstate
  | fuel + 1, rt, (c, e), result, hstate, h => by
    rw [collectEntrypoints_succ] at h
    split_ifs at h
    · rw [Except.ok.injEq] at h
      exact h ▸ hstate
    obtain ⟨rrg, hgraph, h⟩ := Except.bind_eq_ok.1 h
    have hmeans := graphMeans_getOrBuildGraph hgraph
    -- the entrypoints of the graph's subject type, then of its subject relation
    have h₁ : ∀ p ∈ c ++ ((rrg.entrypointsBySubjectType.lookup subjectType.«namespace»).getD []).map
        (·, rt), FoundMeans schema subjectType p := by
      intro p hp
      rcases List.mem_append.1 hp with hp | hp
      · exact hstate p hp
      · obtain ⟨entrypoint, hentrypoint, rfl⟩ := List.mem_map.1 hp
        exact fun hdirect => (hmeans.bySubjectType _ entrypoint hentrypoint).2 hdirect subjectType
    have h₂ : ∀ p ∈ c ++ ((rrg.entrypointsBySubjectType.lookup subjectType.«namespace»).getD []).map
        (·, rt) ++ ((rrg.entrypointsBySubjectRelation.lookup subjectType).getD []).map (·, rt),
        FoundMeans schema subjectType p := by
      intro p hp
      rcases List.mem_append.1 hp with hp | hp
      · exact h₁ p hp
      · obtain ⟨entrypoint, hentrypoint, rfl⟩ := List.mem_map.1 hp
        exact hmeans.bySubjectRelation subjectType entrypoint hentrypoint
    dsimp only at h
    split_ifs at h
    · rw [Except.pure_eq_ok, Except.ok.injEq] at h
      exact h ▸ h₁
    · rw [Except.pure_eq_ok, Except.ok.injEq] at h
      exact h ▸ h₂
    -- each subject relation of the graph is walked in turn
    refine Except.foldlM_invariant (fun s => ∀ p ∈ s.1, FoundMeans schema subjectType p) ?_ _ _ result h₂ h
    intro s key s' hs hstep
    unfold collectEntrypointsStep at hstep
    split_ifs at hstep
    · rw [Except.pure_eq_ok, Except.ok.injEq] at hstep
      exact hstep ▸ hs
    · exact foundMeans_collectEntrypoints fuel key s s' hs hstep
    · rw [Except.pure_eq_ok, Except.ok.injEq] at hstep
      exact hstep ▸ hs

end Collect

theorem foundMeans_optimizedEntrypoints {ts : NamespaceDefinition} {subjectType resourceRelation : RelationReference}
    {found : List FoundEntrypoint}
    (h : optimizedEntrypointsForSubjectToResource schema ts subjectType resourceRelation = .ok found) :
    ∀ p ∈ found, FoundMeans schema subjectType p := by
  unfold optimizedEntrypointsForSubjectToResource entrypointsForSubjectToResource at h
  split_ifs at h
  · cases h
  obtain ⟨⟨collected, encountered⟩, hcollect, h⟩ := Except.bind_eq_ok.1 h
  dsimp only at h
  rw [Except.pure_eq_ok, Except.ok.injEq] at h
  subst h
  intro p hp
  exact foundMeans_collectEntrypoints _ _ _ _ (fun _ hp => by cases hp) hcollect p (List.mem_dedup.1 hp)

end Build

end SpiceDB.Graph
