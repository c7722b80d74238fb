import SpiceDB.Graph.ReachableResources
import SpiceDB.Graph.EntrypointsSound

namespace SpiceDB.Graph

open Caveats Typesystem Datastore

section Covers

variable (schema : List NamespaceDefinition) (relationships : List RelationTuple)

/-- A subject of `subjectType:subjectId` at depth `d`: a member of the userset, or, for the
wildcard of an ellipsis type, any object of the type. -/
def SubjectOf (v : Valuation) (d : ℕ) (subjectType : RelationReference) (subjectId : String)
    (s : ObjectAndRelation) : Prop :=
  member schema relationships v d ⟨subjectType.«namespace», subjectId, subjectType.relation⟩ s = true ∨
    (subjectId = publicWildcard ∧ subjectType.relation = ellipsis ∧
      s.«namespace» = subjectType.«namespace» ∧ s.relation = ellipsis)

/-- Every subject of `subjectType:subjectId` is a member of `resource`, `n` relations deeper. -/
def Covers (n : ℕ) (subjectType : RelationReference) (subjectId : String) (resource : ObjectAndRelation) :
    Prop :=
  ∀ v d s, SubjectOf schema relationships v d subjectType subjectId s →
    member schema relationships v (d + n) resource s = true

variable {schema relationships}

theorem Covers.trans {n m : ℕ} {subjectType foundType : RelationReference} {subjectId foundId : String}
    {resource : ObjectAndRelation}
    (h₁ : Covers schema relationships n subjectType subjectId ⟨foundType.«namespace», foundId, foundType.relation⟩)
    (h₂ : Covers schema relationships m foundType foundId resource) :
    Covers schema relationships (n + m) subjectType subjectId resource := by
  intro v d s hs
  have hfound := h₂ v (d + n) s (.inl (h₁ v d s hs))
  rwa [Nat.add_assoc] at hfound

theorem covers_refl {rr : RelationReference} {subjectId : String}
    (hwildcard : subjectId = publicWildcard → rr.relation ≠ ellipsis) :
    Covers schema relationships 0 rr subjectId ⟨rr.«namespace», subjectId, rr.relation⟩ := by
  rintro v d s (hmember | ⟨hid, hrel, -, -⟩)
  · exact hmember
  · exact absurd hrel (hwildcard hid)

/-- A subject the reported resource carries: one of the request's, or the wildcard of an
ellipsis subject type. -/
def IdOf (req : ReachableResourcesRequest) (subjectId : String) : Prop :=
  subjectId ∈ req.subjectIds ∨ (subjectId = publicWildcard ∧ req.subjectRelation.relation = ellipsis)

end Covers

/-- The schema and relationships LookupResources is sound over: definitions and relations are
named and no relation is named as the ellipsis; a caveat of a relationship is named; a
relationship's subject is of a type its relation allows, and a wildcard subject has the
ellipsis relation. -/
structure LookupAssumptions (schema : List NamespaceDefinition) (relationships : List RelationTuple) :
    Prop where
  namespaceNamed : ∀ ns ∈ schema, ns.name ≠ ""
  relationNamed : ∀ ns ∈ schema, ∀ relation ∈ ns.relation, relation.name ≠ ""
  relationNotEllipsis : ∀ ns ∈ schema, ∀ relation ∈ ns.relation, relation.name ≠ ellipsis
  caveatsNamed : ∀ tpl ∈ relationships, ∀ caveat ∈ tpl.caveat, caveat.caveatName ≠ ""
  subjectsAllowed : ∀ tpl ∈ relationships, ∀ relation,
    relationOf schema tpl.resourceAndRelation = some relation →
      ∃ allowed ∈ relation.typeInformation.getD [], allowed.«namespace» = tpl.subject.«namespace» ∧
        (allowed.relationOrWildcard = .relation tpl.subject.relation ∨
          (allowed.relationOrWildcard = .publicWildcard ∧ tpl.subject.objectId = publicWildcard ∧
            tpl.subject.relation = ellipsis))

/-- A request ReachableResources answers soundly: its subject type is named; no id is the
wildcard of an ellipsis type, which stands for every object of it; and for an ellipsis type, no
relationship has a userset of the type as subject. -/
structure RequestOk (relationships : List RelationTuple) (req : ReachableResourcesRequest) : Prop where
  namespaceNamed : req.subjectRelation.«namespace» ≠ ""
  relationNamed : req.subjectRelation.relation ≠ ""
  idsNotWildcard : req.subjectRelation.relation = ellipsis → publicWildcard ∉ req.subjectIds
  plainSubjects : req.subjectRelation.relation = ellipsis →
    ∀ tpl ∈ relationships, tpl.subject.«namespace» = req.subjectRelation.«namespace» →
      tpl.subject.relation = ellipsis

section Relations

variable {schema : List NamespaceDefinition} {relationships : List RelationTuple}
  (hassume : LookupAssumptions schema relationships)
include hassume

/-- A relation of the schema is named, and not as the ellipsis. -/
theorem LookupAssumptions.named_of_relationAt {rr : RelationReference} {relation : Relation}
    (h : RelationAt schema rr relation) :
    rr.«namespace» ≠ "" ∧ rr.relation ≠ "" ∧ rr.relation ≠ ellipsis := by
  have hof := h ""
  unfold relationOf at hof
  cases hfind : schema.find? (·.name = rr.«namespace») with
  | none => simp [hfind] at hof
  | some ns =>
    rw [hfind, Option.bind_some] at hof
    have hns : ns.name = rr.«namespace» := by simpa using List.find?_some hfind
    have hname : relation.name = rr.relation := by simpa using List.find?_some hof
    have hnsMem := List.mem_of_find?_eq_some hfind
    have hrelMem := List.mem_of_find?_eq_some hof
    exact ⟨hns ▸ hassume.namespaceNamed ns hnsMem, hname ▸ hassume.relationNamed ns hnsMem relation hrelMem,
      hname ▸ hassume.relationNotEllipsis ns hnsMem relation hrelMem⟩

/-- An object under the ellipsis is a terminal subject: its only member is itself. -/
theorem LookupAssumptions.eq_of_member_ellipsis {v : Valuation} {d : ℕ} {nsName objectId : String}
    {s : ObjectAndRelation}
    (h : member schema relationships v d ⟨nsName, objectId, ellipsis⟩ s = true) :
    s = ⟨nsName, objectId, ellipsis⟩ := by
  have hnone : relationOf schema ⟨nsName, objectId, ellipsis⟩ = none := by
    unfold relationOf
    cases hfind : schema.find? (·.name = nsName) with
    | none => rfl
    | some ns =>
      rw [Option.bind_some, List.find?_eq_none]
      intro relation hrelation hname
      exact hassume.relationNotEllipsis ns (List.mem_of_find?_eq_some hfind) relation hrelation
        (by simpa using hname)
  cases d with
  | zero => simp [member] at h
  | succ d =>
    simp only [member, hnone, Bool.or_false, decide_eq_true_eq] at h
    exact h.symm

theorem LookupAssumptions.caveatHolds_of_uncaveated {tpl : RelationTuple} (htpl : tpl ∈ relationships)
    (huncaveated : (tpl.caveat.any fun caveat => caveat.caveatName ≠ "") = false) (v : Valuation) :
    caveatHolds v tpl = true := by
  cases hcaveat : tpl.caveat with
  | none => simp [caveatHolds, hcaveat]
  | some caveat =>
    have hnamed := hassume.caveatsNamed tpl htpl caveat (by simp [hcaveat])
    simp [hcaveat, hnamed] at huncaveated

/-- A relationship of a relation read from its relationships covers its resource by its
subject, one relation deeper. -/
theorem LookupAssumptions.covers_of_relationship {T S : RelationReference} {relation : Relation}
    (hT : RelationAt schema T relation) (hrewrite : relation.usersetRewrite = none)
    {tpl : RelationTuple} (htpl : tpl ∈ relationships) {resourceId subjectId : String}
    (hresource : tpl.resourceAndRelation = ⟨T.«namespace», resourceId, T.relation⟩)
    (hsubject : tpl.subject = ⟨S.«namespace», subjectId, S.relation⟩) (hcaveat : ∀ v, caveatHolds v tpl = true) :
    Covers schema relationships 1 S subjectId ⟨T.«namespace», resourceId, T.relation⟩ := by
  intro v d s hs
  refine member_of_directMatch (hT resourceId) hrewrite (List.any_eq_true.2 ⟨tpl, htpl, ?_⟩)
  simp only [directMatch, hresource, decide_true, hcaveat v, Bool.true_and, hsubject, Bool.or_eq_true,
    decide_eq_true_eq]
  rcases hs with hmember | ⟨rfl, hellipsis, hns, hrel⟩
  · by_cases hellipsis : S.relation = ellipsis
    · rw [hellipsis] at hmember ⊢
      exact .inl (.inl (hassume.eq_of_member_ellipsis hmember).symm)
    · exact .inr (by simp [hellipsis, hmember])
  · -- the wildcard gives every object of its type
    refine .inl (.inr ?_)
    simp [wildcardMatches, hsubject, hns, hrel, hellipsis]

end Relations

section Rewrites

variable {schema : List NamespaceDefinition} {relationships : List RelationTuple}

/-- A relationship of an arrow's tupleset covers the resource by the computed relation of its
subject, one relation deeper, where the rewrite reaches the arrow through unions. -/
theorem covers_of_tuplesetRelationship {G S : RelationReference} {tuplesetRelation : String}
    (hreads : RewriteReads schema G (.arrow tuplesetRelation S.relation))
    (hhas : Graph.hasRelation schema S.«namespace» S.relation = true)
    {tpl : RelationTuple} (htpl : tpl ∈ relationships) {resourceId : String}
    (hresource : tpl.resourceAndRelation = ⟨G.«namespace», resourceId, tuplesetRelation⟩)
    (hns : tpl.subject.«namespace» = S.«namespace») (hcaveat : ∀ v, caveatHolds v tpl = true)
    (hwildcard : tpl.subject.objectId = publicWildcard → S.relation ≠ ellipsis) :
    Covers schema relationships 1 S tpl.subject.objectId ⟨G.«namespace», resourceId, G.relation⟩ := by
  obtain ⟨relation, rewrite, hrelation, hrewrite, hatom⟩ := hreads
  rintro v d s (hmember | ⟨hid, hellipsis, -, -⟩)
  · refine member_of_denote (hrelation resourceId) hrewrite (hatom _ ?_)
    simp only [atomHolds]
    refine List.any_eq_true.2 ⟨tpl, htpl, ?_⟩
    simp [hresource, hcaveat v, hns, hhas, hmember]
  · exact absurd hellipsis (hwildcard hid)

theorem covers_of_computed {G S : RelationReference} (hns : S.«namespace» = G.«namespace»)
    (hreads : RewriteReads schema G (.relation S.relation)) {subjectId : String}
    (hwildcard : subjectId = publicWildcard → S.relation ≠ ellipsis) :
    Covers schema relationships 1 S subjectId ⟨G.«namespace», subjectId, G.relation⟩ := by
  obtain ⟨relation, rewrite, hrelation, hrewrite, hatom⟩ := hreads
  rintro v d s (hmember | ⟨hid, hellipsis, -, -⟩)
  · refine member_of_denote (hrelation subjectId) hrewrite (hatom _ ?_)
    rw [atomHolds, ← hns]
    exact hmember
  · exact absurd hellipsis (hwildcard hid)

end Rewrites

theorem test_of_reverseQueryFilter {selector : SubjectsSelector} {resRelation : RelationReference}
    {tpl : RelationTuple} (h : (reverseQueryFilter selector resRelation).test tpl = true) :
    selector.test tpl.subject = true := by
  unfold reverseQueryFilter RelationshipsFilter.test at h
  split_ifs at h <;> simp_all

theorem SubjectsSelector.namespace_of_test {ss : SubjectsSelector} {subject : ObjectAndRelation}
    (htype : ss.optionalSubjectType ≠ "") (h : ss.test subject = true) :
    subject.«namespace» = ss.optionalSubjectType := by
  by_contra hne
  unfold SubjectsSelector.test at h
  simp [htype, Ne.symm hne] at h

theorem SubjectsSelector.mem_of_test {ss : SubjectsSelector} {subject : ObjectAndRelation}
    (hids : ss.optionalSubjectIds ≠ []) (h : ss.test subject = true) : subject.objectId ∈ ss.optionalSubjectIds := by
  by_contra hnot
  unfold SubjectsSelector.test at h
  simp [hids, hnot] at h

theorem SubjectsSelector.relation_of_test {nsName relationName : String} {ids : List String}
    {subject : ObjectAndRelation} (hrelation : relationName ≠ "")
    (h : (⟨nsName, ids, ⟨relationName, false, false⟩⟩ : SubjectsSelector).test subject = true) :
    subject.relation = relationName := by
  by_contra hne
  unfold SubjectsSelector.test at h
  simp [SubjectRelationFilter.isEmpty, hrelation, Ne.symm hne] at h

section Found

variable {schema : List NamespaceDefinition} {relationships : List RelationTuple}

variable (schema relationships) in
/-- Every uncaveated subject recorded for a resource found of `foundType` is one the request
carries, and covers the resource one relation deeper. -/
def FoundMean (req : ReachableResourcesRequest) (foundType : RelationReference) (rsm : ResourcesSubjectMap) :
    Prop :=
  ∀ resourceId info, info ∈ (rsm.resourcesAndSubjects.lookup resourceId).getD [] → info.isCaveated = false →
    IdOf req info.subjectId ∧
      Covers schema relationships 1 req.subjectRelation info.subjectId
        ⟨foundType.«namespace», resourceId, foundType.relation⟩

variable {req : ReachableResourcesRequest} {foundType : RelationReference} {rsm : ResourcesSubjectMap}

theorem foundMean_new (resourceType : RelationReference) :
    FoundMean schema relationships req foundType (newResourcesSubjectMap resourceType) := by
  intro resourceId info hinfo
  simp [newResourcesSubjectMap] at hinfo

theorem FoundMean.add (h : FoundMean schema relationships req foundType rsm) {resourceId : String} {info : SubjectInfo}
    (hinfo : info.isCaveated = false → IdOf req info.subjectId ∧
      Covers schema relationships 1 req.subjectRelation info.subjectId
        ⟨foundType.«namespace», resourceId, foundType.relation⟩) :
    FoundMean schema relationships req foundType (rsm.add resourceId info) := by
  intro resourceId' info' hinfo'
  -- the subjects of a resource form a multimap: the new one joins its resource's list
  rcases MultiMap.mem_get_add.1 (show info' ∈ (MultiMap.add ⟨rsm.resourcesAndSubjects⟩ resourceId info).get
      resourceId' from hinfo') with hold | ⟨rfl, rfl⟩
  · exact h resourceId' info' hold
  · exact hinfo

/-- The relationships a query found, recorded by their resources of `sourceType`, each covered
as an object of `foundType`. -/
theorem foundMean_foldlM_addRelationship {sourceType : RelationReference} {found : List RelationTuple}
    (hfound : ∀ tpl ∈ found, tpl.resourceAndRelation.«namespace» = sourceType.«namespace» →
      tpl.resourceAndRelation.relation = sourceType.relation →
      (tpl.caveat.any fun caveat => caveat.caveatName ≠ "") = false →
      IdOf req tpl.subject.objectId ∧ Covers schema relationships 1 req.subjectRelation tpl.subject.objectId
        ⟨foundType.«namespace», tpl.resourceAndRelation.objectId, foundType.relation⟩)
    (h : found.foldlM ResourcesSubjectMap.addRelationship (newResourcesSubjectMap sourceType) = .ok rsm) :
    FoundMean schema relationships req foundType rsm := by
  refine (Except.foldlM_invariant_of_mem
    (fun rsm : ResourcesSubjectMap => rsm.resourceType = sourceType ∧ FoundMean schema relationships req foundType rsm)
    found ?_ _ _ ⟨rfl, foundMean_new sourceType⟩ h).2
  rintro r tpl r' htpl ⟨htype, hr⟩ hstep
  unfold ResourcesSubjectMap.addRelationship at hstep
  split_ifs at hstep with hmismatch
  rw [Except.pure_eq_ok, Except.ok.injEq] at hstep
  subst hstep
  simp only [htype, not_or, not_not] at hmismatch
  exact ⟨htype, hr.add fun huncaveated => hfound tpl htpl hmismatch.1 hmismatch.2 huncaveated⟩

theorem foundMean_subjectIdsToResourcesMap
    (hcovers : ∀ subjectId ∈ req.subjectIds, Covers schema relationships 1 req.subjectRelation subjectId
      ⟨foundType.«namespace», subjectId, foundType.relation⟩) :
    FoundMean schema relationships req foundType (subjectIdsToResourcesMap foundType req.subjectIds) := by
  refine List.foldl_invariant (FoundMean schema relationships req foundType) req.subjectIds _ ?_
    (foundMean_new foundType)
  intro r subjectId hmem hr
  exact hr.add fun _ => ⟨.inl hmem, hcovers subjectId hmem⟩

end Found

section Reported

variable {schema : List NamespaceDefinition} {relationships : List RelationTuple}
  {req : ReachableResourcesRequest}

variable (schema relationships) in
/-- A resource reported as having permission carries subjects, each one of the request's that
covers it. -/
def ReportedSound (req : ReachableResourcesRequest) (resource : ReachableResource) : Prop :=
  resource.resultStatus = .HAS_PERMISSION → resource.forSubjectIds ≠ [] ∧
    ∀ subjectId ∈ resource.forSubjectIds, IdOf req subjectId ∧ ∃ n, Covers schema relationships n
      req.subjectRelation subjectId ⟨req.resourceRelation.«namespace», resource.resourceId, req.resourceRelation.relation⟩

variable (schema relationships) in
/-- Every request without a wildcard subject a dispatch answers, it answers with sound resources. -/
def ReachableDispatchSound (dispatch : ReachableResourcesRequest → Except String (List ReachableResource)) : Prop :=
  ∀ req results, RequestOk relationships req → dispatch req = .ok results →
    ∀ resource ∈ results, ReportedSound schema relationships req resource

theorem requestOk_of_named {resourceRelation foundType : RelationReference} {subjectIds : List String}
    (h : foundType.«namespace» ≠ "" ∧ foundType.relation ≠ "" ∧ foundType.relation ≠ ellipsis) :
    RequestOk relationships ⟨resourceRelation, foundType, subjectIds⟩ :=
  ⟨h.1, h.2.1, fun hellipsis => absurd hellipsis h.2.2, fun hellipsis => absurd hellipsis h.2.2⟩

/-- The resources found of the resource relation, reported with the entrypoint's status. -/
theorem reportedSound_asReachableResources {rsm : ResourcesSubjectMap} {isDirect : Bool}
    (hmean : isDirect = true → FoundMean schema relationships req req.resourceRelation rsm) :
    ∀ resource ∈ rsm.asReachableResources isDirect, ReportedSound schema relationships req resource := by
  intro resource hresource hstatus
  obtain ⟨resourceId, -, rfl⟩ := List.mem_map.1 hresource
  unfold ResourcesSubjectMap.asReachableResource at hstatus ⊢
  dsimp only at hstatus ⊢
  -- only a direct entrypoint with an uncaveated subject gives the permission
  split_ifs at hstatus ⊢ with hcaveated hdirect
  obtain ⟨info, hinfo, huncaveated⟩ : ∃ info ∈ (rsm.resourcesAndSubjects.lookup resourceId).getD [],
      info.isCaveated = false := by simpa using hcaveated
  refine ⟨by simpa using ⟨info, hinfo, huncaveated⟩, fun subjectId hsubject => ?_⟩
  obtain ⟨info, hinfo, rfl⟩ := List.mem_map.1 hsubject
  have hinfo := List.mem_filter.1 hinfo
  obtain ⟨hid, hcovers⟩ := hmean hdirect resourceId info hinfo.1 (by simpa using hinfo.2)
  exact ⟨hid, 1, hcovers⟩

/-- A resource found one level deeper, mapped back through the subjects that led to it: the
uncaveated ones cover what covers it. -/
theorem reportedSound_mapFoundResource {rsm : ResourcesSubjectMap} {foundType : RelationReference}
    {isDirect : Bool} {found mapped : ReachableResource}
    (hmean : isDirect = true → FoundMean schema relationships req foundType rsm ∧
      (found.resultStatus = .HAS_PERMISSION → ∀ forSubjectId ∈ found.forSubjectIds, ∃ n,
        Covers schema relationships n foundType forSubjectId
          ⟨req.resourceRelation.«namespace», found.resourceId, req.resourceRelation.relation⟩))
    (h : rsm.mapFoundResource found isDirect = .ok mapped) : ReportedSound schema relationships req mapped := by
  unfold ResourcesSubjectMap.mapFoundResource at h
  obtain ⟨infos, hinfos, h⟩ := Except.bind_eq_ok.1 h
  intro hstatus
  dsimp only at h
  -- only a direct entrypoint with uncaveated subjects passes the deeper status on
  split_ifs at h with hnonempty hdirect
  all_goals
    rw [Except.pure_eq_ok, Except.ok.injEq] at h
    subst h
  · obtain ⟨hmean, hcovers⟩ := hmean hdirect
    refine ⟨hnonempty, fun subjectId hsubject => ?_⟩
    obtain ⟨info, hinfo, rfl⟩ := List.mem_map.1 (List.mem_eraseDups.1 hsubject)
    obtain ⟨hinfo, huncaveated⟩ := List.mem_filter.1 hinfo
    obtain ⟨infosOf, hinfosOf, hinfo⟩ := List.mem_flatten.1 hinfo
    -- the subjects of one of the resources the deeper one was found for
    obtain ⟨forSubjectId, hfor, hlookup⟩ := Except.exists_of_mem_of_mapM_eq_ok hinfos hinfosOf
    have hlookup : rsm.resourcesAndSubjects.lookup forSubjectId = some infosOf := by
      split at hlookup
      · cases hlookup
      · cases hlookup
        assumption
    obtain ⟨hid, hcover⟩ := hmean forSubjectId info (by simpa [hlookup] using hinfo) (by simpa using huncaveated)
    obtain ⟨n, hcover'⟩ := hcovers hstatus forSubjectId hfor
    exact ⟨hid, 1 + n, hcover.trans hcover'⟩
  all_goals cases hstatus

variable {dispatch : ReachableResourcesRequest → Except String (List ReachableResource)}
  {ts : NamespaceDefinition} {foundType : RelationReference} {rsm : ResourcesSubjectMap}
  {entrypoint : ReachabilityEntrypoint} {dispatched : List ObjectAndRelation}
  {out : List ReachableResource × List ObjectAndRelation}

/-- `redispatchOrReport` reports nothing, the resources found of the resource relation, or
what a dispatch one level deeper reaches from them, mapped back. -/
theorem redispatchOrReport_cases
    (h : redispatchOrReport schema dispatch ts req foundType rsm entrypoint dispatched = .ok out) :
    out.1 = [] ∨ (foundType = req.resourceRelation ∧ out.1 = rsm.asReachableResources entrypoint.isDirectResult) ∨
      ∃ filteredSubjectIds results, dispatch ⟨req.resourceRelation, foundType, filteredSubjectIds⟩ = .ok results ∧
        results.mapM (fun result => rsm.mapFoundResource result entrypoint.isDirectResult) = .ok out.1 := by
  unfold redispatchOrReport at h
  split_ifs at h with hempty hsame
  · cases h
    exact .inl rfl
  all_goals
    obtain ⟨hasResourceEntrypoints, -, h⟩ := Except.bind_eq_ok.1 h
    split_ifs at h
  · cases h
    exact .inr (.inl ⟨hsame, rfl⟩)
  on_goal 2 =>
    cases h
    exact .inl rfl
  all_goals
    split at h
    split_ifs at h
    · cases h
      exact .inl rfl
    · obtain ⟨results, hresults, h⟩ := Except.bind_eq_ok.1 h
      obtain ⟨mapped, hmapped, h⟩ := Except.bind_eq_ok.1 h
      cases h
      exact .inr (.inr ⟨_, results, hresults, hmapped⟩)

/-- The resources found through a direct entrypoint, covered and of a relation of the schema,
are reported or dispatched soundly. -/
theorem reportedSound_redispatchOrReport (hdispatch : ReachableDispatchSound schema relationships dispatch)
    (hfound : entrypoint.isDirectResult = true → FoundMean schema relationships req foundType rsm ∧
      foundType.«namespace» ≠ "" ∧ foundType.relation ≠ "" ∧ foundType.relation ≠ ellipsis)
    (h : redispatchOrReport schema dispatch ts req foundType rsm entrypoint dispatched = .ok out) :
    ∀ resource ∈ out.1, ReportedSound schema relationships req resource := by
  rcases redispatchOrReport_cases h with hnothing | ⟨hsame, hreported⟩ | ⟨filteredSubjectIds, results, hresults, hmapped⟩
  · simp [hnothing]
  · rw [hreported]
    exact reportedSound_asReachableResources fun hdirect => hsame ▸ (hfound hdirect).1
  · intro mapped hmem
    obtain ⟨found, hfoundMem, hmap⟩ := Except.exists_of_mem_of_mapM_eq_ok hmapped hmem
    refine reportedSound_mapFoundResource (fun hdirect => ⟨(hfound hdirect).1, fun hstatus forSubjectId hfor => ?_⟩) hmap
    -- the deeper request is of a relation of the schema, so it has no wildcard subject
    have hsound := hdispatch _ results (requestOk_of_named (hfound hdirect).2) hresults found hfoundMem hstatus
    exact (hsound.2 forSubjectId hfor).2

end Reported

section Entrypoints

variable {schema : List NamespaceDefinition} {relationships : List RelationTuple}
  {dispatch : ReachableResourcesRequest → Except String (List ReachableResource)}
  {ts : NamespaceDefinition} {req : ReachableResourcesRequest} {dispatched : List ObjectAndRelation}
  {out : List ReachableResource × List ObjectAndRelation}

theorem LookupAssumptions.named_of_rewriteReads (hassume : LookupAssumptions schema relationships)
    {rr : RelationReference} {atom : Atom} (hreads : RewriteReads schema rr atom) :
    rr.«namespace» ≠ "" ∧ rr.relation ≠ "" ∧ rr.relation ≠ ellipsis := by
  obtain ⟨relation, -, hrelation, -⟩ := hreads
  exact hassume.named_of_relationAt hrelation

theorem RelationAt.find? {rr : RelationReference} {relation : Relation} (hrelation : RelationAt schema rr relation)
    {ns : NamespaceDefinition} (hns : schema.find? (·.name = rr.«namespace») = some ns) :
    ns.relation.find? (·.name = rr.relation) = some relation := by
  simpa [relationOf, hns] using hrelation ""

theorem RequestOk.subject_of_test (hreq : RequestOk relationships req) {tpl : RelationTuple}
    (htpl : tpl ∈ relationships) {ids : List String}
    (htest : (⟨req.subjectRelation.«namespace», ids,
      if req.subjectRelation.relation = ellipsis then ⟨"", true, false⟩
      else ⟨req.subjectRelation.relation, false, false⟩⟩ : SubjectsSelector).test tpl.subject = true) :
    tpl.subject.«namespace» = req.subjectRelation.«namespace» ∧
      tpl.subject.relation = req.subjectRelation.relation := by
  have hns := SubjectsSelector.namespace_of_test hreq.namespaceNamed htest
  refine ⟨hns, ?_⟩
  by_cases hellipsis : req.subjectRelation.relation = ellipsis
  · rw [hellipsis]
    exact hreq.plainSubjects hellipsis tpl htpl hns
  · rw [if_neg hellipsis] at htest
    exact SubjectsSelector.relation_of_test hreq.relationNamed htest

/-- The subject of a relationship a relation entrypoint's query finds is one of the request's,
or the wildcard of an ellipsis type: a relationship of a subject relation the relation allows is
looked up by the request's subjects, and one of a wildcard it allows is the wildcard. -/
theorem LookupAssumptions.idOf_of_relationQuery (hassume : LookupAssumptions schema relationships)
    {rr : RelationReference} {relation : Relation} (hrelation : RelationAt schema rr relation)
    {tpl : RelationTuple} (htpl : tpl ∈ relationships) (hns : tpl.resourceAndRelation.«namespace» = rr.«namespace»)
    (hrel : tpl.resourceAndRelation.relation = rr.relation)
    (hsubject : tpl.subject.«namespace» = req.subjectRelation.«namespace» ∧
      tpl.subject.relation = req.subjectRelation.relation)
    {ids : List String} (hids : ∀ id ∈ ids, IdOf req id) (hmem : ids ≠ [] → tpl.subject.objectId ∈ ids)
    (hdirect : (∃ allowed ∈ relation.typeInformation.getD [], allowed.«namespace» = req.subjectRelation.«namespace» ∧
      allowed.relationOrWildcard = .relation req.subjectRelation.relation) → ids ≠ []) :
    IdOf req tpl.subject.objectId := by
  have hof : relationOf schema tpl.resourceAndRelation = some relation := by
    have hat := hrelation tpl.resourceAndRelation.objectId
    rwa [← hns, ← hrel] at hat
  obtain ⟨allowed, hallowed, hallowedNs, hallowedRel | ⟨-, hwildcard, hellipsis⟩⟩ :=
    hassume.subjectsAllowed tpl htpl relation hof
  · exact hids _ (hmem (hdirect ⟨allowed, hallowed, hallowedNs.trans hsubject.1, by rw [hallowedRel, hsubject.2]⟩))
  · exact .inr ⟨hwildcard, hsubject.2 ▸ hellipsis⟩

/-- The subjects a relation entrypoint looks up are the request's, when the relation allows
their type directly, and the wildcard of an ellipsis type. -/
theorem idOf_of_relationQueryIds {isDirectAllowed : AllowedDirectRelation} {ids : List String}
    (hids : ids = (if isDirectAllowed = .DirectRelationValid then req.subjectIds else []) ∨
      (req.subjectRelation.relation = ellipsis ∧
        ids = (if isDirectAllowed = .DirectRelationValid then req.subjectIds else []) ++ [publicWildcard])) :
    (∀ id ∈ ids, IdOf req id) ∧ (isDirectAllowed = .DirectRelationValid → ∀ id ∈ req.subjectIds, id ∈ ids) := by
  have hbase : ∀ id ∈ (if isDirectAllowed = .DirectRelationValid then req.subjectIds else []), IdOf req id := by
    intro id hid
    split_ifs at hid
    exacts [.inl hid, absurd hid List.not_mem_nil]
  rcases hids with rfl | ⟨hellipsis, rfl⟩
  · exact ⟨hbase, fun hvalid id hid => by simpa [hvalid] using hid⟩
  · refine ⟨fun id hid => ?_, fun hvalid id hid => by simp [hvalid, hid]⟩
    rcases List.mem_append.1 hid with hid | hid
    · exact hbase id hid
    · exact .inr ⟨List.mem_singleton.1 hid, hellipsis⟩

/-- The query of a direct relation entrypoint reads relationships of its relation, which cover
their resources by the request's subjects. -/
theorem reportedSound_relationQuery (hassume : LookupAssumptions schema relationships)
    (hreq : RequestOk relationships req) (hsubjects : req.subjectIds ≠ [])
    (hdispatch : ReachableDispatchSound schema relationships dispatch) {entrypoint : ReachabilityEntrypoint}
    {rr : RelationReference}
    (hmeans : entrypoint.isDirectResult = true →
      ∃ relation, RelationAt schema rr relation ∧ relation.usersetRewrite = none)
    {relTypeSystem : NamespaceDefinition} (hrelTypeSystem : readNamespaceAndTypes schema rr.«namespace» = .ok relTypeSystem)
    {isDirectAllowed : AllowedDirectRelation}
    (hisDirectAllowed : isAllowedDirectRelation relTypeSystem rr.relation req.subjectRelation.«namespace»
      req.subjectRelation.relation = .ok isDirectAllowed) {ids : List String}
    (hids : ids = (if isDirectAllowed = .DirectRelationValid then req.subjectIds else []) ∨
      (req.subjectRelation.relation = ellipsis ∧
        ids = (if isDirectAllowed = .DirectRelationValid then req.subjectIds else []) ++ [publicWildcard]))
    {relationFilter : SubjectRelationFilter}
    (hfilter : relationFilter = if req.subjectRelation.relation = ellipsis then ⟨"", true, false⟩
      else ⟨req.subjectRelation.relation, false, false⟩)
    (h : redispatchOrReportOverDatabaseQuery schema relationships dispatch ts req
      ⟨req.subjectRelation.«namespace», ids, relationFilter⟩ rr rr entrypoint dispatched = .ok out) :
    ∀ resource ∈ out.1, ReportedSound schema relationships req resource := by
  subst hfilter
  have hids := idOf_of_relationQueryIds hids
  unfold redispatchOrReportOverDatabaseQuery at h
  obtain ⟨rsm, hrsm, h⟩ := Except.bind_eq_ok.1 h
  refine reportedSound_redispatchOrReport hdispatch (fun hdirect => ?_) h
  obtain ⟨relation, hrelation, hrewrite⟩ := hmeans hdirect
  refine ⟨foundMean_foldlM_addRelationship (fun tpl htpl hns hrel huncaveated => ?_) hrsm,
    hassume.named_of_relationAt hrelation⟩
  obtain ⟨htpl, htest⟩ := List.mem_filter.1 htpl
  have hsel := test_of_reverseQueryFilter htest
  have hsubject := hreq.subject_of_test htpl hsel
  -- the relation allows the request's subject relation, so its subjects were looked up
  have hdirect : (∃ allowed ∈ relation.typeInformation.getD [], allowed.«namespace» = req.subjectRelation.«namespace» ∧
      allowed.relationOrWildcard = .relation req.subjectRelation.relation) → ids ≠ [] := by
    rintro ⟨allowed, hallowed, hallowedNs, hallowedRel⟩ hnil
    have hvalid := isAllowedDirectRelation_of_mem
      (hrelation.find? (find?_of_readNamespaceAndTypes hrelTypeSystem)) hallowed hallowedNs hallowedRel
    rw [hvalid, Except.ok.injEq] at hisDirectAllowed
    obtain ⟨subjectId, hsubjectId⟩ := List.exists_mem_of_ne_nil _ hsubjects
    simpa [hnil] using hids.2 hisDirectAllowed.symm subjectId hsubjectId
  have hid := hassume.idOf_of_relationQuery hrelation htpl hns hrel hsubject hids.1
    (fun hne => SubjectsSelector.mem_of_test hne hsel) hdirect
  exact ⟨hid, hassume.covers_of_relationship hrelation hrewrite htpl (by rw [← hns, ← hrel])
    (by rw [← hsubject.1, ← hsubject.2]) (hassume.caveatHolds_of_uncaveated htpl huncaveated)⟩

/-- A direct relation entrypoint looks up the request's subjects, when its relation allows their
type directly, and the wildcard of an ellipsis type. -/
theorem reportedSound_lookupRelationEntrypoint (hassume : LookupAssumptions schema relationships)
    (hreq : RequestOk relationships req) (hsubjects : req.subjectIds ≠ [])
    (hdispatch : ReachableDispatchSound schema relationships dispatch) {entrypoint : ReachabilityEntrypoint}
    (hmeans : entrypoint.isDirectResult = true →
      ∃ relation, RelationAt schema entrypoint.targetRelation relation ∧ relation.usersetRewrite = none)
    (h : lookupRelationEntrypoint schema relationships dispatch ts entrypoint req dispatched = .ok out) :
    ∀ resource ∈ out.1, ReportedSound schema relationships req resource := by
  unfold lookupRelationEntrypoint at h
  obtain ⟨rr, hrr, h⟩ := Except.bind_eq_ok.1 h
  obtain ⟨relTypeSystem, hrelTypeSystem, h⟩ := Except.bind_eq_ok.1 h
  obtain ⟨isDirectAllowed, hisDirectAllowed, h⟩ := Except.bind_eq_ok.1 h
  rw [← ReachabilityEntrypoint.directRelation_eq_ok hrr] at hmeans
  dsimp only at h
  by_cases hellipsis : req.subjectRelation.relation = ellipsis
  · simp only [if_pos hellipsis] at h
    obtain ⟨isWildcardAllowed, -, h⟩ := Except.bind_eq_ok.1 h
    rw [Except.pure_eq_ok, Except.ok_bind] at h
    refine reportedSound_relationQuery hassume hreq hsubjects hdispatch hmeans hrelTypeSystem hisDirectAllowed
      ?_ (by rw [if_pos hellipsis]) h
    by_cases hwildcard : isWildcardAllowed = .PublicSubjectAllowed
    · exact .inr ⟨hellipsis, if_pos hwildcard⟩
    · exact .inl (if_neg hwildcard)
  · simp only [if_neg hellipsis] at h
    rw [Except.pure_eq_ok, Except.ok_bind] at h
    exact reportedSound_relationQuery hassume hreq hsubjects hdispatch hmeans hrelTypeSystem hisDirectAllowed
      (.inl rfl) (by rw [if_neg hellipsis]) h

/-- A direct arrow entrypoint reads relationships of its tupleset whose subjects are the
request's, which cover the arrow's relation on their resources. -/
theorem reportedSound_lookupTTUEntrypoint (hassume : LookupAssumptions schema relationships)
    (hreq : RequestOk relationships req) (hsubjects : req.subjectIds ≠ [])
    (hdispatch : ReachableDispatchSound schema relationships dispatch) {entrypoint : FoundEntrypoint}
    (hmeans : entrypoint.1.isDirectResult = true →
      Graph.hasRelation schema req.subjectRelation.«namespace» req.subjectRelation.relation = true ∧
        RewriteReads schema entrypoint.2 (.arrow entrypoint.1.tuplesetRelation req.subjectRelation.relation))
    (h : lookupTTUEntrypoint schema relationships dispatch ts entrypoint req dispatched = .ok out) :
    ∀ resource ∈ out.1, ReportedSound schema relationships req resource := by
  unfold lookupTTUEntrypoint at h
  obtain ⟨ttuTypeSystem, -, h⟩ := Except.bind_eq_ok.1 h
  obtain ⟨tuplesetRelation, htupleset, h⟩ := Except.bind_eq_ok.1 h
  obtain ⟨allowedRelations, -, h⟩ := Except.bind_eq_ok.1 h
  split at h
  · cases h
    simp
  unfold redispatchOrReportOverDatabaseQuery at h
  obtain ⟨rsm, hrsm, h⟩ := Except.bind_eq_ok.1 h
  refine reportedSound_redispatchOrReport hdispatch (fun hdirect => ?_) h
  obtain ⟨hhas, hreads⟩ := hmeans hdirect
  rw [← ReachabilityEntrypoint.tuplesetRelationOf_eq_ok htupleset] at hreads
  refine ⟨foundMean_foldlM_addRelationship (fun tpl htpl hns hrel huncaveated => ?_) hrsm,
    hassume.named_of_rewriteReads hreads⟩
  obtain ⟨htpl, htest⟩ := List.mem_filter.1 htpl
  have hsel := test_of_reverseQueryFilter htest
  have hmem := SubjectsSelector.mem_of_test hsubjects hsel
  have hwildcard : tpl.subject.objectId = publicWildcard → req.subjectRelation.relation ≠ ellipsis :=
    fun hid hellipsis => hreq.idsNotWildcard hellipsis (hid ▸ hmem)
  exact ⟨.inl hmem, covers_of_tuplesetRelationship hreads hhas htpl (by dsimp only at hns hrel; rw [← hns, ← hrel])
    (SubjectsSelector.namespace_of_test hreq.namespaceNamed hsel)
    (hassume.caveatHolds_of_uncaveated htpl huncaveated) hwildcard⟩

/-- Every entrypoint found, followed by its kind, gives sound resources. -/
theorem reportedSound_lookupEntrypoint (hassume : LookupAssumptions schema relationships)
    (hreq : RequestOk relationships req) (hsubjects : req.subjectIds ≠ [])
    (hdispatch : ReachableDispatchSound schema relationships dispatch) {entrypoint : FoundEntrypoint}
    (hmeans : FoundMeans schema req.subjectRelation entrypoint)
    (h : lookupEntrypoint schema relationships dispatch ts req entrypoint dispatched = .ok out) :
    ∀ resource ∈ out.1, ReportedSound schema relationships req resource := by
  unfold lookupEntrypoint at h
  unfold FoundMeans EntrypointMeans at hmeans
  split at h <;> rename_i hkind <;> simp only [hkind] at hmeans
  · exact reportedSound_lookupRelationEntrypoint hassume hreq hsubjects hdispatch hmeans h
  -- a computed userset takes the subjects as objects of the containing relation
  · refine reportedSound_redispatchOrReport hdispatch (fun hdirect => ?_) h
    obtain ⟨hns, hreads⟩ := hmeans hdirect
    refine ⟨foundMean_subjectIdsToResourcesMap fun subjectId hmem => ?_, hassume.named_of_rewriteReads hreads⟩
    exact covers_of_computed hns hreads fun hwildcard hellipsis => hreq.idsNotWildcard hellipsis (hwildcard ▸ hmem)
  · exact reportedSound_lookupTTUEntrypoint hassume hreq hsubjects hdispatch hmeans h

/-- Every entrypoint from the subject relation to the resource relation gives sound resources. -/
theorem reportedSound_afterSameType (hassume : LookupAssumptions schema relationships)
    (hreq : RequestOk relationships req) (hsubjects : req.subjectIds ≠ [])
    (hdispatch : ReachableDispatchSound schema relationships dispatch) {results : List ReachableResource}
    (h : afterSameType schema relationships dispatch req = .ok results) :
    ∀ resource ∈ results, ReportedSound schema relationships req resource := by
  unfold afterSameType at h
  obtain ⟨ts, -, h⟩ := Except.bind_eq_ok.1 h
  obtain ⟨entrypoints, hentrypoints, h⟩ := Except.bind_eq_ok.1 h
  obtain ⟨⟨reached, dispatched⟩, hfold, h⟩ := Except.bind_eq_ok.1 h
  cases h
  -- the resources of each entrypoint join those of the ones before
  refine Except.foldlM_invariant_of_mem
    (fun s : List ReachableResource × List ObjectAndRelation =>
      ∀ resource ∈ s.1, ReportedSound schema relationships req resource) entrypoints ?_ ([], []) _ (by simp) hfold
  rintro ⟨reached, dispatched⟩ entrypoint s' hmem hreached hstep
  obtain ⟨⟨found, dispatched'⟩, hlookup, hstep⟩ := Except.bind_eq_ok.1 hstep
  cases hstep
  intro resource hresource
  rcases List.mem_append.1 hresource with hold | hnew
  · exact hreached resource hold
  · exact reportedSound_lookupEntrypoint hassume hreq hsubjects hdispatch
      (foundMeans_optimizedEntrypoints hentrypoints entrypoint hmem) hlookup resource hnew

/-- ReachableResources reports the subjects themselves, of the resource relation, and what the
entrypoints reach, soundly. -/
theorem reportedSound_reachableResources (hassume : LookupAssumptions schema relationships)
    (hreq : RequestOk relationships req) (hdispatch : ReachableDispatchSound schema relationships dispatch)
    {results : List ReachableResource} (h : reachableResources schema relationships dispatch req = .ok results) :
    ∀ resource ∈ results, ReportedSound schema relationships req resource := by
  unfold reachableResources at h
  dsimp only at h
  by_cases hempty : req.subjectIds = []
  · simp [hempty] at h
  rw [if_neg hempty] at h
  obtain ⟨reached, hreached, h⟩ := Except.bind_eq_ok.1 h
  rw [Except.pure_eq_ok, Except.ok.injEq] at h
  subst h
  have hmem : ∀ subjectId, subjectId ∈ req.subjectIds.insertionSort (· ≤ ·) ↔ subjectId ∈ req.subjectIds :=
    fun _ => List.mem_insertionSort _
  have hsorted : RequestOk relationships { req with subjectIds := req.subjectIds.insertionSort (· ≤ ·) } :=
    ⟨hreq.namespaceNamed, hreq.relationNamed,
      fun hellipsis hwildcard => hreq.idsNotWildcard hellipsis ((hmem _).1 hwildcard), hreq.plainSubjects⟩
  have hnonempty : req.subjectIds.insertionSort (· ≤ ·) ≠ [] := by
    rw [← List.length_pos_iff, List.length_insertionSort, List.length_pos_iff]
    exact hempty
  intro resource hresource hstatus
  rcases List.mem_append.1 hresource with hsame | hreached'
  · -- a subject of the resource relation is a resource itself
    split_ifs at hsame with hrelation
    · obtain ⟨subjectId, hsubject, rfl⟩ := List.mem_map.1 hsame
      have hid := (hmem _).1 hsubject
      refine ⟨List.cons_ne_nil _ _, fun subjectId' hsubject' => ?_⟩
      rw [List.mem_singleton] at hsubject'
      subst subjectId'
      have hcovers : Covers schema relationships 0 req.subjectRelation subjectId
          ⟨req.subjectRelation.«namespace», subjectId, req.subjectRelation.relation⟩ :=
        covers_refl fun hwildcard hellipsis => hreq.idsNotWildcard hellipsis (hwildcard ▸ hid)
      exact ⟨.inl hid, 0, by rwa [← hrelation]⟩
    · cases hsame
  · obtain ⟨hne, hsubjects⟩ :=
      reportedSound_afterSameType hassume hsorted hnonempty hdispatch hreached resource hreached' hstatus
    refine ⟨hne, fun subjectId hsubject => ?_⟩
    obtain ⟨hid | hwildcard, hcovers⟩ := hsubjects subjectId hsubject
    · exact ⟨.inl ((hmem _).1 hid), hcovers⟩
    · exact ⟨.inr hwildcard, hcovers⟩

theorem dispatchSound_dispatchReachableResources (hassume : LookupAssumptions schema relationships) :
    ∀ depth, ReachableDispatchSound schema relationships (dispatchReachableResources schema relationships depth)
  | 0 => fun _ _ _ h => by cases h
  | depth + 1 => fun _ _ hreq h =>
    reportedSound_reachableResources hassume hreq (dispatchSound_dispatchReachableResources hassume depth) h

end Entrypoints

section Lookup

variable {schema : List NamespaceDefinition} {relationships : List RelationTuple}

end Lookup

end SpiceDB.Graph
