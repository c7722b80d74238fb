import SpiceDB.Graph.LookupSubjects
import SpiceDB.Graph.CheckSound
import SpiceDB.Lib.Delimited

namespace SpiceDB

mutual
/-- The tupleset relations the arrows of a rewrite read. -/
def UsersetRewrite.tuplesets : UsersetRewrite → List String
  | .union child => SetOperationChild.allTuplesets child
  | .intersection child => SetOperationChild.allTuplesets child
  | .exclusion child => SetOperationChild.allTuplesets child

/-- The tupleset relations the arrows of a child read. -/
def SetOperationChild.tuplesets : SetOperationChild → List String
  | .tupleToUserset tuplesetRelation _ => [tuplesetRelation]
  | .usersetRewrite rewrite => rewrite.tuplesets
  | _ => []

/-- The tupleset relations the arrows of children read. -/
def SetOperationChild.allTuplesets : List SetOperationChild → List String
  | [] => []
  | child :: rest => child.tuplesets ++ SetOperationChild.allTuplesets rest
end

namespace Graph

open Caveats Datasets Datastore StreamM

/-- No relationship of the tupleset relation of an arrow of `nsName` has a wildcard subject. -/
def ArrowReadsObjects (relationships : List RelationTuple) (nsName tuplesetRelation : String) : Prop :=
  ∀ tpl ∈ relationships, tpl.resourceAndRelation.«namespace» = nsName →
    tpl.resourceAndRelation.relation = tuplesetRelation → tpl.subject.objectId ≠ publicWildcard

/-- Every arrow of the schema reads objects. -/
def ArrowsReadObjects (schema : List NamespaceDefinition) (relationships : List RelationTuple) : Prop :=
  ∀ ns ∈ schema, ∀ relation ∈ ns.relation, ∀ rewrite ∈ relation.usersetRewrite,
    ∀ tuplesetRelation ∈ rewrite.tuplesets, ArrowReadsObjects relationships ns.name tuplesetRelation

/-- Subject namespaces hold no `:` and subject relations no `#`. -/
def SubjectTypesDelimited (relationships : List RelationTuple) : Prop :=
  ∀ tpl ∈ relationships, ':' ∉ tpl.subject.«namespace».toList ∧ '#' ∉ tpl.subject.relation.toList

theorem toList_stringONR (onr : ObjectAndRelation) :
    (stringONR onr).toList = if onr.relation = ellipsis then onr.«namespace».toList ++ ':' :: onr.objectId.toList
      else onr.«namespace».toList ++ ':' :: onr.objectId.toList ++ '#' :: onr.relation.toList := by
  unfold stringONR
  split <;> simp

theorem stringONR_inj_of_relation {ns ns' objectId objectId' relation : String} (hns : ':' ∉ ns.toList)
    (hns' : ':' ∉ ns'.toList) (h : stringONR ⟨ns, objectId, relation⟩ = stringONR ⟨ns', objectId', relation⟩) :
    ns = ns' ∧ objectId = objectId' := by
  have hlist := congrArg String.toList h
  rw [toList_stringONR, toList_stringONR] at hlist
  -- with the same relation, both keys end alike and the prefixes `ns:id` agree
  have hfront : ns.toList ++ ':' :: objectId.toList = ns'.toList ++ ':' :: objectId'.toList := by
    by_cases hrelation : relation = ellipsis
    · simpa only [hrelation, if_true] using hlist
    · simp only [hrelation, if_false] at hlist
      exact List.append_cancel_right hlist
  obtain ⟨h₁, h₂⟩ := Delimited.append_cons_inj hns hns' hfront
  exact ⟨String.toList_inj.1 h₁, String.toList_inj.1 h₂⟩

theorem stringONR_inj_of_userset {a b : ObjectAndRelation} (ha : ':' ∉ a.«namespace».toList)
    (hb : ':' ∉ b.«namespace».toList) (ha' : '#' ∉ a.relation.toList) (hb' : '#' ∉ b.relation.toList)
    (hra : a.relation ≠ ellipsis) (hrb : b.relation ≠ ellipsis) (h : stringONR a = stringONR b) : a = b := by
  have hlist := congrArg String.toList h
  simp only [toList_stringONR, hra, hrb, if_false, List.append_assoc, List.cons_append] at hlist
  -- the relation follows the last `#`, the namespace precedes the first `:`
  rw [← List.cons_append, ← List.append_assoc, ← List.cons_append, ← List.append_assoc] at hlist
  obtain ⟨hfront, hrelation⟩ := Delimited.append_cons_inj_right ha' hb' hlist
  obtain ⟨hns, hid⟩ := Delimited.append_cons_inj ha hb hfront
  cases a
  cases b
  simp only [String.toList_inj] at hns hid hrelation
  subst hns hid hrelation
  rfl

section Semantics

variable (schema : List NamespaceDefinition) (relationships : List RelationTuple) (v : Valuation)

/-- `x`, of the subject type of the request, is in its resource `r`, unfolding at most `depth`
relations. -/
def subjectMemberAt (depth : ℕ) (req : LookupSubjectsRequest) (r x : String) : Prop :=
  member schema relationships v depth ⟨req.resourceRelation.«namespace», r, req.resourceRelation.relation⟩
    ⟨req.subjectRelation.«namespace», x, req.subjectRelation.relation⟩ = true

/-- What the atoms of a rewrite read for resource `r` of a request and subject `x`, membership
one relation down unfolding at most `depth` relations. -/
def lookupAtoms (depth : ℕ) (req : LookupSubjectsRequest) (r x : String) : Atom → Bool :=
  atomHolds schema relationships v (member schema relationships v depth)
    ⟨req.resourceRelation.«namespace», r, req.resourceRelation.relation⟩
    ⟨req.subjectRelation.«namespace», x, req.subjectRelation.relation⟩

/-- The dispatcher publishes, for requests on objects, only members unfolding at most `depth`
relations. -/
def SubjectsDispatchSound (depth : ℕ) (dispatch : LookupSubjectsRequest → LookupSubjectsStream) : Prop :=
  ∀ req, publicWildcard ∉ req.resourceIds →
    PublishesOnly (ResponseSound v (subjectMemberAt schema relationships v depth req)) (dispatch req)

end Semantics

/-- A subject set of objects: the shape `Add` keeps, and no wildcard. -/
structure ObjectSet (S : SubjectSet) : Prop where
  wellFormed : WellFormed S
  constructor_eq : S.constructor = subjectSetConstructor
  wildcard_none : S.wildcard = none

theorem objectSet_newSubjectSet : ObjectSet newSubjectSet :=
  ⟨wellFormed_newBaseSubjectSet subjectSetConstructor, rfl, rfl⟩

theorem ObjectSet.add {S S' : SubjectSet} (hS : ObjectSet S) {t : FoundSubject} (ht : ConcreteSubject t)
    (h : S.add t = .ok S') : ObjectSet S' := by
  rw [add_of_not_wildcard S t ht.not_wildcard, Except.ok.injEq] at h
  subst h
  refine ⟨hS.wellFormed.addConcrete subjectSetConstructor_lawful hS.constructor_eq ht, ?_, ?_⟩
  · simp [BaseSubjectSet.addConcrete, hS.constructor_eq]
  · simp [BaseSubjectSet.addConcrete, unionWildcardWithConcrete, hS.wildcard_none]

theorem ObjectSet.subjectId_ne {S : SubjectSet} (hS : ObjectSet S) {t : FoundSubject} (ht : t ∈ S.asSlice) :
    t.subjectId ≠ publicWildcard := by
  rcases List.mem_append.1 ht with ht | ht
  · obtain ⟨e, he, rfl⟩ := List.mem_map.1 ht
    exact (hS.wellFormed.concreteMap.mem_entries he).2.not_wildcard
  · rw [hS.wildcard_none] at ht
    cases ht

/-- Subjects grouped by type: each type is the type of the subject of a relationship with `p`,
and each set holds objects. -/
structure GroupedFrom (p : RelationTuple → Prop) (s : SubjectByTypeSet) : Prop where
  types : ∀ k S, s.byType.lookup k = some S → ∃ tpl, p tpl ∧ k = ⟨tpl.subject.«namespace», tpl.subject.relation⟩
  objects : ∀ k S, s.byType.lookup k = some S → ObjectSet S

theorem groupedFrom_new {p : RelationTuple → Prop} : GroupedFrom p newSubjectByTypeSet where
  types _ _ h := by simp [newSubjectByTypeSet] at h
  objects _ _ h := by simp [newSubjectByTypeSet] at h

/-- Grouping the object subject of a relationship with `p` keeps a grouping. -/
theorem GroupedFrom.addSubjectOf {p : RelationTuple → Prop} {s s' : SubjectByTypeSet} (h : GroupedFrom p s)
    {tpl : RelationTuple} (hp : p tpl) (hobject : tpl.subject.objectId ≠ publicWildcard)
    (hadd : s.addSubjectOf tpl = .ok s') : GroupedFrom p s' := by
  obtain ⟨S', hS', hs'⟩ := Except.bind_eq_ok.1 hadd
  cases hs'
  have hS : ObjectSet ((s.byType.lookup ⟨tpl.subject.«namespace», tpl.subject.relation⟩).getD newSubjectSet) := by
    cases hlookup : s.byType.lookup ⟨tpl.subject.«namespace», tpl.subject.relation⟩ with
    | none => exact objectSet_newSubjectSet
    | some S => exact h.objects _ S hlookup
  have hS'' := hS.add ⟨hobject, rfl⟩ hS'
  constructor
  · intro k S hk
    by_cases hkey : k = ⟨tpl.subject.«namespace», tpl.subject.relation⟩
    · exact ⟨tpl, hp, hkey⟩
    · rw [AList.lookup_insert_ne hkey] at hk
      exact h.types k S hk
  · intro k S hk
    by_cases hkey : k = ⟨tpl.subject.«namespace», tpl.subject.relation⟩
    · subst hkey
      rw [AList.lookup_insert, Option.some.injEq] at hk
      exact hk ▸ hS''
    · rw [AList.lookup_insert_ne hkey] at hk
      exact h.objects k S hk

theorem resourceAndRelation_of_mem_filter {relationships : List RelationTuple} {nsName relationName : String}
    {resourceIds : List String} {tpl : RelationTuple}
    (htpl : tpl ∈ relationships.filter (RelationshipsFilter.test ⟨nsName, resourceIds, "", relationName, [], ""⟩))
    (hns : nsName ≠ "") (hrelation : relationName ≠ "") :
    tpl ∈ relationships ∧ tpl.resourceAndRelation = ⟨nsName, tpl.resourceAndRelation.objectId, relationName⟩ := by
  obtain ⟨hmem, htest⟩ := List.mem_filter.1 htpl
  obtain ⟨hresourceNs, hresourceRelation⟩ := RelationshipsFilter.test_resource htest hns hrelation
  refine ⟨hmem, ?_⟩
  simp only at hresourceNs hresourceRelation
  rw [← hresourceNs, ← hresourceRelation]

section Processor

variable {v : Valuation} {holds : String → String → Prop}

theorem ResponseSound.insert_combine {mapped : FoundSubjectsMap} (hmapped : ResponseSound v holds mapped)
    {r : String} {toAdd : List FoundSubject} (hadd : ∀ f ∈ toAdd, FoundSound v (holds r) f) :
    ResponseSound v holds (mapped.insert r (combineFoundSubjects (mapped.lookup r) toAdd)) := by
  refine hmapped.insert fun f hf => ?_
  cases hexisting : mapped.lookup r with
  | none =>
    rw [hexisting] at hf
    exact hadd f hf
  | some existing =>
    rw [hexisting] at hf
    rcases List.mem_append.1 hf with hf | hf
    · exact hmapped r existing hexisting f hf
    · exact hadd f hf

/-- Mapping found subjects sound for `P` through a relationship gives its resource what `P`
gives it under the relationship's caveat. -/
theorem mapThroughRelationship_sound {found : List FoundSubject} {P : String → Prop}
    (hfound : ∀ f ∈ found, FoundSound v P f) {tpl : RelationTuple}
    (htpl : ∀ x, P x → caveatHolds v tpl = true → holds tpl.resourceAndRelation.objectId x)
    {mapped mapped' : FoundSubjectsMap} (hmapped : ResponseSound v holds mapped)
    (h : mapThroughRelationship found mapped tpl = .ok mapped') : ResponseSound v holds mapped' := by
  unfold mapThroughRelationship at h
  split at h
  · -- without a caveat, the found subjects are the resource's as they are
    rename_i hcaveat
    cases h
    refine ResponseSound.insert_combine hmapped fun f hf => (hfound f hf).mono fun x hx => htpl x hx ?_
    simp [caveatHolds, hcaveat]
  · -- with one, they are gathered into a set that the caveat is conjoined to
    obtain ⟨S, hS, hpure⟩ := Except.bind_eq_ok.1 h
    cases hpure
    have hset := (setSound_newSubjectSet.unionWith found hfound (Except.mapError_eq_ok.1 hS)).withParentCaveatExpression
      (wrapCaveat tpl.caveat)
    refine ResponseSound.insert_combine hmapped fun f hf => (hset.foundSound_of_mem hf).mono fun x hx => htpl x hx.2 ?_
    rw [caveatHolds_eq_evalCaveat]
    exact hx.1

theorem mapFoundSubjects_sound {resourceType : RelationReference} {relationshipsBySubjectONR : MultiMap String RelationTuple}
    {P : String → String → Prop} {result mapped : FoundSubjectsMap} (hresult : ResponseSound v P result)
    (hmap : ∀ c tpl, tpl ∈ relationshipsBySubjectONR.get (stringONR ⟨resourceType.«namespace», c, resourceType.relation⟩) →
      ∀ x, P c x → caveatHolds v tpl = true → holds tpl.resourceAndRelation.objectId x)
    (h : mapFoundSubjects resourceType relationshipsBySubjectONR result = .ok mapped) : ResponseSound v holds mapped := by
  refine Except.foldlM_invariant_of_mem (ResponseSound v holds) result.entries ?_ ∅ mapped responseSound_empty h
  intro acc entry acc' hentry hacc hstep
  have hfound := hresult entry.1 entry.2 (AList.mem_lookup_iff.2 hentry)
  simp only at hstep
  split at hstep
  · cases hstep
  · exact Except.foldlM_invariant_of_mem (ResponseSound v holds) _
      (fun m tpl m' htpl hm hm' => mapThroughRelationship_sound hfound (hmap entry.1 tpl htpl) hm hm')
      acc acc' hacc hstep

end Processor

/-- `dispatchTo` publishes what the dispatched resources give the resources whose
relationships lead to them, when it dispatches on objects. -/
theorem dispatchTo_sound {schema : List NamespaceDefinition} {relationships : List RelationTuple} {v : Valuation}
    {depth : ℕ} {dispatch : LookupSubjectsRequest → LookupSubjectsStream}
    (hdispatch : SubjectsDispatchSound schema relationships v depth dispatch) (req : LookupSubjectsRequest)
    {toDispatchByType : SubjectByTypeSet} {relationshipsBySubjectONR : MultiMap String RelationTuple}
    {holds : String → String → Prop}
    (hobjects : ∀ k S, toDispatchByType.byType.lookup k = some S → ObjectSet S)
    (hmap : ∀ k S, toDispatchByType.byType.lookup k = some S → ∀ c tpl,
      tpl ∈ relationshipsBySubjectONR.get (stringONR ⟨k.«namespace», c, k.relation⟩) → ∀ x,
        member schema relationships v depth ⟨k.«namespace», c, k.relation⟩
          ⟨req.subjectRelation.«namespace», x, req.subjectRelation.relation⟩ = true →
        caveatHolds v tpl = true → holds tpl.resourceAndRelation.objectId x) :
    PublishesOnly (ResponseSound v holds) (dispatchTo dispatch req toDispatchByType relationshipsBySubjectONR) := by
  unfold dispatchTo
  split
  · exact publishesOnly_pure ()
  · refine publishesOnly_forM fun entry hentry => publishesOnly_forM fun chunk hchunk => ?_
    have hlookup := AList.mem_lookup_iff.2 hentry
    -- the chunks of a set of objects hold no wildcard
    have hchunkObjects : publicWildcard ∉ chunk := by
      intro hmem
      obtain ⟨t, ht, hid⟩ := List.mem_map.1 (mem_of_mem_forEachChunk hchunk hmem)
      exact (hobjects entry.1 entry.2 hlookup).subjectId_ne ht hid
    exact publishesOnly_wrap (hdispatch _ hchunkObjects) fun result hresult mapped hmapped =>
      mapFoundSubjects_sound hresult (hmap entry.1 entry.2 hlookup) hmapped

/-- The resources of a request are found as themselves. -/
theorem lookup_subjectsForConcreteIds (subjectIds : List String) (r : String) :
    (subjectsForConcreteIds subjectIds).lookup r = if r ∈ subjectIds then some [⟨r, none, []⟩] else none := by
  have hfold : ∀ (ids : List String) (m : FoundSubjectsMap),
      (ids.foldl (fun foundSubjects subjectID => foundSubjects.insert subjectID [⟨subjectID, none, []⟩]) m).lookup r =
        if r ∈ ids then some [⟨r, none, []⟩] else m.lookup r := by
    intro ids
    induction ids with
    | nil => simp
    | cons id rest ih =>
      intro m
      rw [List.foldl_cons, ih]
      by_cases hid : r = id
      · subst hid
        simp [AList.lookup_insert]
      · simp [hid, AList.lookup_insert_ne hid]
  rw [subjectsForConcreteIds, hfold]
  simp

/-- A relationship of the resource's relation whose subject is of the subject type gives the
resource its subject, or every subject of the type for a wildcard, under its caveat. -/
theorem foundSound_of_relationship {relationships : List RelationTuple} {v : Valuation}
    {memberOf : ObjectAndRelation → ObjectAndRelation → Bool} {req : LookupSubjectsRequest} {tpl : RelationTuple}
    (htpl : tpl ∈ relationships) (hresource : tpl.resourceAndRelation =
      ⟨req.resourceRelation.«namespace», tpl.resourceAndRelation.objectId, req.resourceRelation.relation⟩)
    (hns : tpl.subject.«namespace» = req.subjectRelation.«namespace») (hrel : tpl.subject.relation = req.subjectRelation.relation) :
    FoundSound v (fun x => relationships.any (directMatch v memberOf
      ⟨req.resourceRelation.«namespace», tpl.resourceAndRelation.objectId, req.resourceRelation.relation⟩
      ⟨req.subjectRelation.«namespace», x, req.subjectRelation.relation⟩) = true)
      ⟨tpl.subject.objectId, wrapCaveat tpl.caveat, []⟩ := by
  refine ⟨rfl, fun x hx => List.any_eq_true.2 ⟨tpl, htpl, ?_⟩⟩
  have hholds : holds v (⟨tpl.subject.objectId, wrapCaveat tpl.caveat, []⟩ : FoundSubject) = caveatHolds v tpl :=
    (caveatHolds_eq_evalCaveat v tpl).symm
  simp only [subjectMember, wildcardMember, excludedBy, hholds, subjectId_foundSubject,
    excludedSubjects_foundSubject, List.any_nil, Bool.not_false, Bool.and_true] at hx
  by_cases hid : tpl.subject.objectId = publicWildcard
  · -- a wildcard gives every subject of its type
    rw [if_pos hid] at hx
    refine directMatch_of_onrEqualOrWildcard hresource hx ?_ fun _ => hrel
    simp [onrEqualOrWildcard, hid, hns]
  · have hx' : tpl.subject.objectId = x ∧ caveatHolds v tpl = true := by
      simpa [hid] using hx
    refine directMatch_of_onrEqualOrWildcard hresource hx'.2 ?_ fun h => absurd h hid
    have hsubject : tpl.subject = ⟨req.subjectRelation.«namespace», x, req.subjectRelation.relation⟩ := by
      rw [← hns, ← hrel, ← hx'.1]
    simp [onrEqualOrWildcard, hsubject]

/-- What one step of the loop of `lookupDirectSubjects` does: it may find the subject, and keeps
a userset to dispatch with its relationship under its key. -/
theorem lookupDirectStep_cases {subjectRelation : RelationReference} {state state' : DirectSubjects}
    {tpl : RelationTuple} (h : lookupDirectStep subjectRelation state tpl = .ok state') :
    (state'.foundSubjectsByResourceID = state.foundSubjectsByResourceID ∨
      (tpl.subject.«namespace» = subjectRelation.«namespace» ∧ tpl.subject.relation = subjectRelation.relation ∧
        state.foundSubjectsByResourceID.addFromRelationship tpl = .ok state'.foundSubjectsByResourceID)) ∧
    ((state'.toDispatchByType = state.toDispatchByType ∧
        state'.relationshipsBySubjectONR = state.relationshipsBySubjectONR) ∨
      (tpl.subject.relation ≠ ellipsis ∧ state.toDispatchByType.addSubjectOf tpl = .ok state'.toDispatchByType ∧
        state'.relationshipsBySubjectONR = state.relationshipsBySubjectONR.add (stringONR tpl.subject) tpl)) := by
  unfold lookupDirectStep at h
  obtain ⟨found, hfound, hrest⟩ := Except.bind_eq_ok.1 h
  have hfound' : found = state.foundSubjectsByResourceID ∨
      (tpl.subject.«namespace» = subjectRelation.«namespace» ∧ tpl.subject.relation = subjectRelation.relation ∧
        state.foundSubjectsByResourceID.addFromRelationship tpl = .ok found) := by
    split at hfound
    · rename_i htype
      exact .inr ⟨htype.1, htype.2, Except.mapError_eq_ok.1 hfound⟩
    · cases hfound
      exact .inl rfl
  split at hrest
  · rename_i hrelation
    obtain ⟨toDispatch, hadd, hpure⟩ := Except.bind_eq_ok.1 hrest
    cases hpure
    exact ⟨hfound', .inr ⟨hrelation, hadd, rfl⟩⟩
  · cases hrest
    exact ⟨hfound', .inl ⟨rfl, rfl⟩⟩

section Direct

variable (v : Valuation)

/-- What the loop of `lookupDirectSubjects` keeps over the relationships `tuples`: the found
subjects are sound, the usersets to dispatch are grouped by type, and each relationship is
stored under the key of its subject. -/
structure DirectSound (tuples : List RelationTuple) (holds : String → String → Prop) (state : DirectSubjects) : Prop where
  found : SetsSound v holds state.foundSubjectsByResourceID
  grouped : GroupedFrom (fun tpl => tpl ∈ tuples ∧ tpl.subject.relation ≠ ellipsis) state.toDispatchByType
  keyed : ∀ key tpl, tpl ∈ state.relationshipsBySubjectONR.get key →
    tpl ∈ tuples ∧ key = stringONR tpl.subject ∧ tpl.subject.relation ≠ ellipsis

variable {v}

theorem directSound_start {tuples : List RelationTuple} {holds : String → String → Prop} :
    DirectSound v tuples holds ⟨newSubjectSetByResourceID, newSubjectByTypeSet, MultiMap.empty⟩ :=
  ⟨setsSound_new, groupedFrom_new, fun _ _ h => absurd h List.not_mem_nil⟩

theorem DirectSound.step {tuples : List RelationTuple} {holds : String → String → Prop}
    {subjectRelation : RelationReference} {state state' : DirectSubjects} (hs : DirectSound v tuples holds state)
    {tpl : RelationTuple} (htpl : tpl ∈ tuples)
    (hfound : tpl.subject.«namespace» = subjectRelation.«namespace» → tpl.subject.relation = subjectRelation.relation →
      FoundSound v (holds tpl.resourceAndRelation.objectId) ⟨tpl.subject.objectId, wrapCaveat tpl.caveat, []⟩)
    (hwildcard : tpl.subject.objectId = publicWildcard → tpl.subject.relation = ellipsis)
    (h : lookupDirectStep subjectRelation state tpl = .ok state') : DirectSound v tuples holds state' := by
  obtain ⟨hf, hd⟩ := lookupDirectStep_cases h
  constructor
  · rcases hf with hf | ⟨hns, hrel, hadd⟩
    · exact hf ▸ hs.found
    · exact hs.found.add (hfound hns hrel) hadd
  · rcases hd with ⟨hd, -⟩ | ⟨hrel, hadd, -⟩
    · exact hd ▸ hs.grouped
    · exact hs.grouped.addSubjectOf ⟨htpl, hrel⟩ (fun hid => hrel (hwildcard hid)) hadd
  · rcases hd with ⟨-, hm⟩ | ⟨hrel, -, hm⟩
    · exact hm ▸ hs.keyed
    · intro key tpl' htpl'
      rw [hm] at htpl'
      rcases MultiMap.mem_get_add.1 htpl' with htpl' | ⟨rfl, rfl⟩
      · exact hs.keyed key tpl' htpl'
      · exact ⟨htpl, rfl, hrel⟩

end Direct

/-- The types the arrow's mapper keeps are the computed relation of a definition that has it. -/
theorem computedRelationType_eq_some {schema : List NamespaceDefinition} {computedUsersetRelation : String}
    {resourceType updatedType : RelationReference} (hcomputed : computedUsersetRelation ≠ ellipsis)
    (h : computedRelationType schema computedUsersetRelation resourceType = .ok (some updatedType)) :
    updatedType = ⟨resourceType.«namespace», computedUsersetRelation⟩ ∧
      hasRelation schema resourceType.«namespace» computedUsersetRelation = true := by
  unfold computedRelationType at h
  split at h
  · rename_i hcheck
    cases h
    refine ⟨rfl, hasRelation_of_checkNamespaceAndRelation hcomputed ?_⟩
    -- away from the ellipsis, allowing it changes nothing
    unfold checkNamespaceAndRelation at hcheck ⊢
    simpa [hcomputed] using hcheck
  · cases h
  · cases h

theorem mem_get_tuplesetRelationshipsBySubjectONR {tuples : List RelationTuple} {computedUsersetRelation key : String}
    {tpl : RelationTuple} (h : tpl ∈ (tuplesetRelationshipsBySubjectONR tuples computedUsersetRelation).get key) :
    tpl ∈ tuples ∧ key = stringONR ⟨tpl.subject.«namespace», tpl.subject.objectId, computedUsersetRelation⟩ := by
  refine List.foldl_invariant (fun mm : MultiMap String RelationTuple => ∀ key tpl, tpl ∈ mm.get key →
      tpl ∈ tuples ∧ key = stringONR ⟨tpl.subject.«namespace», tpl.subject.objectId, computedUsersetRelation⟩)
    tuples MultiMap.empty ?_ (fun _ _ h => absurd h List.not_mem_nil) key tpl h
  intro mm tpl' htpl' hmm key' tpl'' h''
  rcases MultiMap.mem_get_add.1 h'' with h'' | ⟨rfl, rfl⟩
  · exact hmm key' tpl'' h''
  · exact ⟨htpl', rfl⟩

section Handler

variable {schema : List NamespaceDefinition} {relationships : List RelationTuple} {v : Valuation}
  {order : List (Σ _ : RelationReference, SubjectSet) → List (Σ _ : RelationReference, SubjectSet)}
  {dispatch : LookupSubjectsRequest → LookupSubjectsStream} {depth : ℕ}

/-- A relation without rewrite publishes the subjects of its relationships and what the usersets
among them give, each found through a relationship of the resource. -/
theorem lookupDirectSubjects_sound (hdispatch : SubjectsDispatchSound schema relationships v depth dispatch)
    (hwildcards : WildcardsTerminal relationships) (hnames : SubjectTypesDelimited relationships)
    (req : LookupSubjectsRequest) (relation : Relation) (hnamespace : req.resourceRelation.«namespace» ≠ "")
    (hrelationName : req.resourceRelation.relation ≠ "")
    (hrelation : ∀ r, relationOf schema ⟨req.resourceRelation.«namespace», r, req.resourceRelation.relation⟩ = some relation)
    (hrewrite : relation.usersetRewrite = none) :
    PublishesOnly (ResponseSound v (subjectMemberAt schema relationships v (depth + 1) req))
      (lookupDirectSubjects relationships dispatch req) := by
  let filter : RelationshipsFilter :=
    ⟨req.resourceRelation.«namespace», req.resourceIds, "", req.resourceRelation.relation, [], ""⟩
  -- a relationship of the relation gives its resource what it gives through `directMatch`
  have hdirect : ∀ tpl ∈ relationships.filter filter.test, ∀ x,
      relationships.any (directMatch v (member schema relationships v depth)
        ⟨req.resourceRelation.«namespace», tpl.resourceAndRelation.objectId, req.resourceRelation.relation⟩
        ⟨req.subjectRelation.«namespace», x, req.subjectRelation.relation⟩) = true →
      subjectMemberAt schema relationships v (depth + 1) req tpl.resourceAndRelation.objectId x :=
    fun _ _ _ h => member_of_directMatch (hrelation _) hrewrite h
  unfold lookupDirectSubjects
  refine publishesOnly_ofExcept_bind fun state hstate => ?_
  have hs : DirectSound v (relationships.filter filter.test) (subjectMemberAt schema relationships v (depth + 1) req)
      state := by
    refine Except.foldlM_invariant_of_mem _ _ ?_ _ _ directSound_start hstate
    intro s tpl s' htpl hs h
    obtain ⟨htplRels, hresource⟩ := resourceAndRelation_of_mem_filter htpl hnamespace hrelationName
    exact hs.step htpl (fun hns hrel => (foundSound_of_relationship htplRels hresource hns hrel).mono
      (hdirect tpl htpl)) (hwildcards tpl htplRels) h
  -- what the usersets give through their relationships
  have hdispatchTo : PublishesOnly (ResponseSound v (subjectMemberAt schema relationships v (depth + 1) req))
      (dispatchTo dispatch req state.toDispatchByType state.relationshipsBySubjectONR) := by
    refine dispatchTo_sound hdispatch req (fun k S hk => hs.grouped.objects k S hk) ?_
    intro k S hk c tpl htpl x hmember hcaveat
    obtain ⟨tpl', ⟨htpl', hrel'⟩, rfl⟩ := hs.grouped.types k S hk
    obtain ⟨htplFiltered, hkey, hrel⟩ := hs.keyed _ tpl htpl
    obtain ⟨htplRels, hresource⟩ := resourceAndRelation_of_mem_filter htplFiltered hnamespace hrelationName
    have htpl'Rels := (List.mem_filter.1 htpl').1
    -- the relationship stored under the key of the dispatched userset has that userset as subject
    have hsubject : (⟨tpl'.subject.«namespace», c, tpl'.subject.relation⟩ : ObjectAndRelation) = tpl.subject :=
      stringONR_inj_of_userset (hnames tpl' htpl'Rels).1 (hnames tpl htplRels).1 (hnames tpl' htpl'Rels).2
        (hnames tpl htplRels).2 hrel' hrel hkey
    refine hdirect tpl htplFiltered x (List.any_eq_true.2 ⟨tpl, htplRels, ?_⟩)
    refine directMatch_of_userset hresource hcaveat hrel ?_
    rw [← hsubject]
    exact hmember
  -- the subjects found here are published first, unless there are none
  dsimp only
  split
  · exact (publishesOnly_publish hs.found.asMap).bind fun _ => hdispatchTo
  · exact hdispatchTo

theorem lookupViaComputed_sound (hdispatch : SubjectsDispatchSound schema relationships v depth dispatch)
    (req : LookupSubjectsRequest) (hreq : publicWildcard ∉ req.resourceIds) (computedRelation : String) :
    PublishesOnly (ResponseSound v fun r x => lookupAtoms schema relationships v depth req r x (.relation computedRelation) = true)
      (lookupViaComputed schema dispatch req computedRelation) := by
  unfold lookupViaComputed
  split
  · exact publishesOnly_pure ()
  · exact publishesOnly_throw _
  · exact hdispatch _ hreq

/-- An arrow publishes what the computed relation of the tupleset subjects gives, each found
through a tupleset relationship of the resource. -/
theorem lookupViaTupleToUsersetAndDispatch_sound (horder : ∀ entries, (order entries).Perm entries)
    (hdispatch : SubjectsDispatchSound schema relationships v depth dispatch)
    (hnames : SubjectTypesDelimited relationships) (req : LookupSubjectsRequest)
    (hnamespace : req.resourceRelation.«namespace» ≠ "") {tuplesetRelation computedUsersetRelation : String}
    (htupleset : tuplesetRelation ≠ "") (hcomputed : computedUsersetRelation ≠ ellipsis)
    (harrow : ArrowReadsObjects relationships req.resourceRelation.«namespace» tuplesetRelation) :
    PublishesOnly (ResponseSound v fun r x =>
        lookupAtoms schema relationships v depth req r x (.arrow tuplesetRelation computedUsersetRelation) = true)
      (lookupViaTupleToUsersetAndDispatch schema relationships order dispatch req tuplesetRelation
        computedUsersetRelation) := by
  let filter : RelationshipsFilter :=
    ⟨req.resourceRelation.«namespace», req.resourceIds, "", tuplesetRelation, [], ""⟩
  unfold lookupViaTupleToUsersetAndDispatch
  refine publishesOnly_ofExcept_bind fun toDispatch htoDispatch => ?_
  obtain ⟨grouped, hgrouped, hmapped⟩ := Except.bind_eq_ok.1 htoDispatch
  -- the tupleset subjects are objects, grouped by type
  have hgroupedFrom : GroupedFrom (· ∈ relationships.filter filter.test) grouped := by
    refine Except.foldlM_invariant_of_mem _ _ ?_ _ _ groupedFrom_new hgrouped
    intro s tpl s' htpl hs hadd
    obtain ⟨htplRels, hresource⟩ := resourceAndRelation_of_mem_filter htpl hnamespace htupleset
    exact hs.addSubjectOf htpl (harrow tpl htplRels (congrArg ObjectAndRelation.«namespace» hresource)
      (congrArg ObjectAndRelation.relation hresource)) hadd
  refine dispatchTo_sound hdispatch req (fun k S hk => ?_) ?_
  · obtain ⟨k₀, -, hk₀⟩ := exists_of_lookup_map grouped order (fun _ h => (horder _).subset h) _ hmapped hk
    exact hgroupedFrom.objects k₀ S hk₀
  · intro k S hk c tpl htpl x hmember hcaveat
    obtain ⟨k₀, hk₀, hgroup⟩ := exists_of_lookup_map grouped order (fun _ h => (horder _).subset h) _ hmapped hk
    obtain ⟨rfl, hrelation⟩ := computedRelationType_eq_some hcomputed hk₀
    obtain ⟨tpl', htpl', rfl⟩ := hgroupedFrom.types k₀ S hgroup
    obtain ⟨htplFiltered, hkey⟩ := mem_get_tuplesetRelationshipsBySubjectONR htpl
    obtain ⟨htplRels, hresource⟩ := resourceAndRelation_of_mem_filter htplFiltered hnamespace htupleset
    -- the relationship stored under the key of the dispatched object has that object as subject
    obtain ⟨hns, hid⟩ := stringONR_inj_of_relation (hnames tpl' (List.mem_filter.1 htpl').1).1
      (hnames tpl htplRels).1 hkey
    simp only at hns hrelation hmember
    simp only [lookupAtoms, atomHolds, List.any_eq_true, Bool.and_eq_true, decide_eq_true_eq]
    refine ⟨tpl, htplRels, ⟨⟨hresource, hcaveat⟩, hns ▸ hrelation⟩, ?_⟩
    rw [← hns, ← hid]
    exact hmember

end Handler

section Reducers

variable {v : Valuation} {holds : SetOperationChild → String → String → Prop}

theorem unionFoundSubjects_sound {message : String} {results : List FoundSubjectsMap} {P : String → String → Prop}
    (hresults : ∀ response ∈ results, ResponseSound v P response) {foundSubjects : SubjectSetByResourceID}
    (h : unionFoundSubjects message results = .ok foundSubjects) : SetsSound v P foundSubjects :=
  Except.foldlM_invariant_of_mem _ results
    (fun _ response _ hresponse hs hunion => hs.unionWith (hresults response hresponse) (Except.mapError_eq_ok.1 hunion))
    _ _ setsSound_new h

theorem responseSound_of_mem_flatten {children : List SetOperationChild} {collected : List (List FoundSubjectsMap)}
    (h : List.Forall₂ (fun child responses => ∀ response ∈ responses, ResponseSound v (holds child) response)
      children collected) :
    ∀ response ∈ collected.flatten, ResponseSound v (fun r x => ∃ child ∈ children, holds child r x) response := by
  induction h with
  | nil =>
    intro response hresponse
    simp at hresponse
  | cons hhead _ ih =>
    intro response hresponse
    rcases List.mem_append.1 (List.flatten_cons ▸ hresponse) with hresponse | hresponse
    · exact (hhead response hresponse).mono fun r x hx => ⟨_, List.mem_cons_self, hx⟩
    · exact (ih response hresponse).mono fun r x ⟨child, hchild, hx⟩ => ⟨child, List.mem_cons_of_mem _ hchild, hx⟩

theorem unionCompletedChildOperations_sound {children : List SetOperationChild} {collected : List (List FoundSubjectsMap)}
    (h : List.Forall₂ (fun child responses => ∀ response ∈ responses, ResponseSound v (holds child) response)
      children collected) :
    PublishesOnly (ResponseSound v fun r x => ∃ child ∈ children, holds child r x)
      (unionCompletedChildOperations collected) := by
  unfold unionCompletedChildOperations
  refine publishesOnly_ofExcept_bind fun foundSubjects hfound => ?_
  have hsound := unionFoundSubjects_sound (responseSound_of_mem_flatten h) hfound
  split
  · exact publishesOnly_pure ()
  · exact publishesOnly_publish hsound.asMap

/-- The later children of an intersection each cut the found subjects down to what they give. -/
theorem combineRemaining_intersectionDifference_sound {message : String} {rest : List SetOperationChild}
    {collected : List (List FoundSubjectsMap)}
    (h : List.Forall₂ (fun child responses => ∀ response ∈ responses, ResponseSound v (holds child) response)
      rest collected) :
    ∀ {P : String → String → Prop} {foundSubjects foundSubjects' : SubjectSetByResourceID}, SetsSound v P foundSubjects →
      combineRemaining message SubjectSetByResourceID.intersectionDifference foundSubjects collected = .ok (some foundSubjects') →
      SetsSound v (fun r x => P r x ∧ ∀ child ∈ rest, holds child r x) foundSubjects' := by
  induction h with
  | nil =>
    intro P foundSubjects foundSubjects' hsound hcombine
    cases hcombine
    exact hsound.mono fun r x hx => ⟨hx, fun _ hchild => absurd hchild List.not_mem_nil⟩
  | cons hhead _ ih =>
    intro P foundSubjects foundSubjects' hsound hcombine
    obtain ⟨results, hresults, hcombine⟩ := Except.bind_eq_ok.1 hcombine
    obtain ⟨intersected, hintersected, hcombine⟩ := Except.bind_eq_ok.1 hcombine
    have hsound₁ := hsound.intersectionDifference (unionFoundSubjects_sound hhead hresults) hintersected
    split at hcombine
    · cases hcombine
    · refine (ih hsound₁ hcombine).mono ?_
      rintro r x ⟨⟨hP, hfirst⟩, hlater⟩
      refine ⟨hP, fun child hchild => ?_⟩
      rcases List.mem_cons.1 hchild with rfl | hchild
      · exact hfirst
      · exact hlater child hchild

/-- An intersection publishes what every child gives. -/
theorem intersectionCompletedChildOperations_sound {children : List SetOperationChild}
    {collected : List (List FoundSubjectsMap)}
    (h : List.Forall₂ (fun child responses => ∀ response ∈ responses, ResponseSound v (holds child) response)
      children collected) :
    PublishesOnly (ResponseSound v fun r x => ∀ child ∈ children, holds child r x)
      (intersectionCompletedChildOperations collected) := by
  unfold intersectionCompletedChildOperations
  cases h with
  | nil => exact publishesOnly_publish setsSound_new.asMap
  | cons hhead htail =>
    rw [combineCompletedChildOperations]
    refine publishesOnly_ofExcept_bind fun foundSubjects hfound => publishesOnly_ofExcept_bind fun result hresult => ?_
    cases result with
    | none => exact publishesOnly_pure ()
    | some foundSubjects' =>
      refine publishesOnly_publish ((combineRemaining_intersectionDifference_sound htail
        (unionFoundSubjects_sound hhead hfound) hresult).asMap.mono ?_)
      rintro r x ⟨hfirst, hlater⟩ child hchild
      rcases List.mem_cons.1 hchild with rfl | hchild
      · exact hfirst
      · exact hlater child hchild

end Reducers

theorem lookupSetOperation_sound {P : FoundSubjectsMap → Prop} {children : List SetOperationChild}
    {collected : Except String (List (List FoundSubjectsMap))}
    {completedChildOperations : List (List FoundSubjectsMap) → LookupSubjectsStream}
    (h : ∀ results, collected = .ok results → PublishesOnly P (completedChildOperations results)) :
    PublishesOnly P (lookupSetOperation children collected completedChildOperations) := by
  unfold lookupSetOperation
  split
  · exact publishesOnly_throw _
  · exact publishesOnly_ofExcept_bind h

section Rewrites

variable {schema : List NamespaceDefinition} {relationships : List RelationTuple} {v : Valuation}
  {order : List (Σ _ : RelationReference, SubjectSet) → List (Σ _ : RelationReference, SubjectSet)}
  {dispatch : LookupSubjectsRequest → LookupSubjectsStream} {depth : ℕ}

mutual
/-- A rewrite without exclusion, whose arrows read objects, publishes what it denotes, its
atoms read one relation down. -/
theorem lookupViaRewrite_sound (horder : ∀ entries, (order entries).Perm entries)
    (hdispatch : SubjectsDispatchSound schema relationships v depth dispatch)
    (hnames : SubjectTypesDelimited relationships) (req : LookupSubjectsRequest)
    (hreq : publicWildcard ∉ req.resourceIds) (hnamespace : req.resourceRelation.«namespace» ≠ "") :
    ∀ rewrite : UsersetRewrite, rewrite.exclusionFree = true →
      (∀ t ∈ rewrite.tuplesets, ArrowReadsObjects relationships req.resourceRelation.«namespace» t) →
      PublishesOnly (ResponseSound v fun r x => rewrite.denote (lookupAtoms schema relationships v depth req r x) = true)
        (lookupViaRewrite schema relationships order dispatch req rewrite)
  | .union child, hfree, harrows => by
    refine lookupSetOperation_sound fun collected hcollected => ?_
    refine (unionCompletedChildOperations_sound
      (collectChildren_sound horder hdispatch hnames req hreq hnamespace child hfree harrows collected hcollected)).mono
      fun response hresponse => hresponse.mono ?_
    rintro r x ⟨c, hc, hholds⟩
    simp only [UsersetRewrite.denote, denoteAny_eq_any, List.any_eq_true]
    exact ⟨c, hc, hholds⟩
  | .intersection child, hfree, harrows => by
    refine lookupSetOperation_sound fun collected hcollected => ?_
    refine (intersectionCompletedChildOperations_sound
      (collectChildren_sound horder hdispatch hnames req hreq hnamespace child hfree harrows collected hcollected)).mono
      fun response hresponse => hresponse.mono ?_
    intro r x hholds
    simp only [UsersetRewrite.denote, denoteAll_eq_all, List.all_eq_true]
    exact hholds
  | .exclusion _, hfree, _ => by simp [UsersetRewrite.exclusionFree] at hfree

/-- The children of a set operation each publish what they denote. -/
theorem collectChildren_sound (horder : ∀ entries, (order entries).Perm entries)
    (hdispatch : SubjectsDispatchSound schema relationships v depth dispatch)
    (hnames : SubjectTypesDelimited relationships) (req : LookupSubjectsRequest)
    (hreq : publicWildcard ∉ req.resourceIds) (hnamespace : req.resourceRelation.«namespace» ≠ "") :
    ∀ children : List SetOperationChild, SetOperationChild.allExclusionFree children = true →
      (∀ t ∈ SetOperationChild.allTuplesets children, ArrowReadsObjects relationships req.resourceRelation.«namespace» t) →
      ∀ collected, collectChildren schema relationships order dispatch req children = .ok collected →
        List.Forall₂ (fun child responses => ∀ response ∈ responses, ResponseSound v
          (fun r x => child.denote (lookupAtoms schema relationships v depth req r x) = true) response) children collected
  | [], _, _, collected, h => by
    cases h
    exact .nil
  | child :: rest, hfree, harrows, collected, h => by
    simp only [SetOperationChild.allExclusionFree, Bool.and_eq_true] at hfree
    have harrowsChild : ∀ t ∈ child.tuplesets, ArrowReadsObjects relationships req.resourceRelation.«namespace» t :=
      fun t ht => harrows t (List.mem_append_left _ ht)
    have harrowsRest : ∀ t ∈ SetOperationChild.allTuplesets rest,
        ArrowReadsObjects relationships req.resourceRelation.«namespace» t :=
      fun t ht => harrows t (List.mem_append_right _ ht)
    rw [collectChildren] at h
    obtain ⟨_, -, h⟩ := Except.bind_eq_ok.1 h
    obtain ⟨others, hothers, h⟩ := Except.bind_eq_ok.1 h
    cases h
    exact .cons (lookupChild_sound horder hdispatch hnames req hreq hnamespace child hfree.1 harrowsChild).mem_collect
      (collectChildren_sound horder hdispatch hnames req hreq hnamespace rest hfree.2 harrowsRest others hothers)

/-- A child without exclusion, whose arrows read objects, publishes what it denotes. -/
theorem lookupChild_sound (horder : ∀ entries, (order entries).Perm entries)
    (hdispatch : SubjectsDispatchSound schema relationships v depth dispatch)
    (hnames : SubjectTypesDelimited relationships) (req : LookupSubjectsRequest)
    (hreq : publicWildcard ∉ req.resourceIds) (hnamespace : req.resourceRelation.«namespace» ≠ "") :
    ∀ child : SetOperationChild, child.exclusionFree = true →
      (∀ t ∈ child.tuplesets, ArrowReadsObjects relationships req.resourceRelation.«namespace» t) →
      PublishesOnly (ResponseSound v fun r x => child.denote (lookupAtoms schema relationships v depth req r x) = true)
        (lookupChild schema relationships order dispatch req child)
  | .xThis, _, _ => publishesOnly_throw _
  | .computedUserset relation, _, _ => lookupViaComputed_sound hdispatch req hreq relation
  | .tupleToUserset tupleset computed, hfree, harrows => by
    simp only [SetOperationChild.exclusionFree, Bool.and_eq_true, decide_eq_true_eq] at hfree
    exact lookupViaTupleToUsersetAndDispatch_sound horder hdispatch hnames req hnamespace hfree.1 hfree.2
      (harrows tupleset List.mem_cons_self)
  | .usersetRewrite rewrite, hfree, harrows =>
    lookupViaRewrite_sound horder hdispatch hnames req hreq hnamespace rewrite hfree harrows
  | .xNil, _, _ => publishesOnly_pure ()
end

end Rewrites

/-- What a successful `ReadNamespaceAndRelation` gives. -/
theorem relationOf_of_readNamespaceAndRelation {schema : List NamespaceDefinition} {nsName relationName : String}
    {config : NamespaceDefinition} {relation : Relation}
    (h : readNamespaceAndRelation schema nsName relationName = .ok (config, relation)) :
    config ∈ schema ∧ relation ∈ config.relation ∧ config.name = nsName ∧ relation.name = relationName ∧
      ∀ objectId, relationOf schema ⟨nsName, objectId, relationName⟩ = some relation := by
  unfold readNamespaceAndRelation readNamespaceByName at h
  cases hfind : schema.find? (·.name = nsName) with
  | none => simp [hfind] at h
  | some found =>
    simp only [hfind, Except.pure_eq_ok, Except.ok_bind] at h
    cases hfindRelation : found.relation.find? (·.name = relationName) with
    | none => simp [hfindRelation] at h
    | some foundRelation =>
      simp only [hfindRelation, Except.ok.injEq, Prod.mk.injEq] at h
      obtain ⟨rfl, rfl⟩ := h
      refine ⟨List.mem_of_find?_eq_some hfind, List.mem_of_find?_eq_some hfindRelation,
        by simpa using List.find?_some hfind, by simpa using List.find?_some hfindRelation, fun objectId => ?_⟩
      simp [relationOf, hfind, hfindRelation]

/-- A request for the resource type itself finds each of its resources, objects, as itself. -/
theorem subjectsForConcreteIds_sound {schema : List NamespaceDefinition} {relationships : List RelationTuple}
    {v : Valuation} (depth : ℕ) (req : LookupSubjectsRequest) (hreq : publicWildcard ∉ req.resourceIds)
    (htype : req.subjectRelation.«namespace» = req.resourceRelation.«namespace» ∧
      req.subjectRelation.relation = req.resourceRelation.relation) :
    ResponseSound v (subjectMemberAt schema relationships v (depth + 1) req) (subjectsForConcreteIds req.resourceIds) := by
  intro r found hfound f hf
  rw [lookup_subjectsForConcreteIds] at hfound
  split at hfound
  · rename_i hr
    cases hfound
    rw [List.mem_singleton] at hf
    subst hf
    have hne : r ≠ publicWildcard := fun h => hreq (h ▸ hr)
    refine ⟨rfl, fun x hx => ?_⟩
    have hx' : r = x := by
      simpa [subjectMember, holds, subjectId_foundSubject, caveatExpression_foundSubject, hne] using hx
    subst hx'
    unfold subjectMemberAt
    rw [htype.1, htype.2]
    exact member_self depth _
  · cases hfound

/-- The handler publishes only members one relation deeper than its dispatcher: the resources
themselves for their own type, and what the relation's relationships or rewrite give. -/
theorem lookupSubjects_sound {schema : List NamespaceDefinition} {relationships : List RelationTuple} {v : Valuation}
    {order : List (Σ _ : RelationReference, SubjectSet) → List (Σ _ : RelationReference, SubjectSet)} (horder : ∀ entries, (order entries).Perm entries)
    {dispatch : LookupSubjectsRequest → LookupSubjectsStream} {depth : ℕ}
    (hdispatch : SubjectsDispatchSound schema relationships v depth dispatch) (hschema : ExclusionFreeSchema schema)
    (hwildcards : WildcardsTerminal relationships) (harrows : ArrowsReadObjects schema relationships)
    (hnames : SubjectTypesDelimited relationships) (req : LookupSubjectsRequest)
    (hreq : publicWildcard ∉ req.resourceIds) :
    PublishesOnly (ResponseSound v (subjectMemberAt schema relationships v (depth + 1) req))
      (lookupSubjects schema relationships order dispatch req) := by
  unfold lookupSubjects
  dsimp only
  split
  · exact publishesOnly_throw_bind _ _
  split
  on_goal 1 =>
    rename_i _ htype
    refine (publishesOnly_publish (subjectsForConcreteIds_sound depth req hreq htype)).bind fun _ => ?_
  -- with or without the resources themselves, the relation is read and run
  all_goals
    refine publishesOnly_ofExcept_bind fun ⟨config, relation⟩ hread => ?_
    obtain ⟨hconfig, hrelationMem, hconfigName, hrelationName, hrelation⟩ :=
      relationOf_of_readNamespaceAndRelation (Except.mapError_eq_ok.1 hread)
    have hnamespace := hconfigName ▸ hschema.namespaceNamed config hconfig
    have hfree := hschema.rewriteExclusionFree config hconfig relation hrelationMem
    dsimp only
    split
    · rename_i hrewrite
      exact lookupDirectSubjects_sound hdispatch hwildcards hnames req relation hnamespace
        (hrelationName ▸ hschema.relationNamed config hconfig relation hrelationMem) hrelation hrewrite
    · rename_i rewrite hrewrite
      have hrewriteFree : rewrite.exclusionFree = true := by simpa [hrewrite] using hfree
      have harrowsRewrite := fun t ht =>
        hconfigName ▸ harrows config hconfig relation hrelationMem rewrite hrewrite t ht
      refine (lookupViaRewrite_sound horder hdispatch hnames req hreq hnamespace rewrite hrewriteFree harrowsRewrite).mono
        fun response hresponse => hresponse.mono fun r x hdenote => ?_
      exact member_of_denote (hrelation r) hrewrite hdenote

theorem dispatchLookupSubjects_subjectsDispatchSound {schema : List NamespaceDefinition}
    {relationships : List RelationTuple} (hschema : ExclusionFreeSchema schema)
    (hwildcards : WildcardsTerminal relationships) (harrows : ArrowsReadObjects schema relationships)
    (hnames : SubjectTypesDelimited relationships) (v : Valuation)
    {order : List (Σ _ : RelationReference, SubjectSet) → List (Σ _ : RelationReference, SubjectSet)} (horder : ∀ entries, (order entries).Perm entries) :
    ∀ depth, SubjectsDispatchSound schema relationships v (depth + 1)
      (dispatchLookupSubjects schema relationships order depth)
  | 0 => fun _ _ => publishesOnly_throw _
  | depth + 1 => fun req hreq =>
    lookupSubjects_sound horder
      (dispatchLookupSubjects_subjectsDispatchSound hschema hwildcards harrows hnames v horder depth)
      hschema hwildcards harrows hnames req hreq

/-- Over a schema without exclusions whose arrows read objects, and over relationships whose
wildcards are objects and whose subject types are delimited, every subject LookupSubjects
publishes for a resource carries no exclusion and, under a caveat that holds, is a member of
the resource. -/
theorem dispatchLookupSubjects_sound {schema : List NamespaceDefinition} {relationships : List RelationTuple}
    (hschema : ExclusionFreeSchema schema) (hwildcards : WildcardsTerminal relationships)
    (harrows : ArrowsReadObjects schema relationships) (hnames : SubjectTypesDelimited relationships)
    (order : List (Σ _ : RelationReference, SubjectSet) → List (Σ _ : RelationReference, SubjectSet)) (horder : ∀ entries, (order entries).Perm entries)
    (v : Valuation) (depth : ℕ) (req : LookupSubjectsRequest) (hreq : publicWildcard ∉ req.resourceIds)
    {response : FoundSubjectsMap}
    (hresponse : response ∈ (StreamM.collect (dispatchLookupSubjects schema relationships order depth req)).1)
    {r : String} {found : List FoundSubject} (hfound : response.lookup r = some found) {f : FoundSubject}
    (hf : f ∈ found) :
    excludedSubjects f = [] ∧ ∀ x, subjectMember v f x = true →
      member schema relationships v (depth + 1) ⟨req.resourceRelation.«namespace», r, req.resourceRelation.relation⟩
        ⟨req.subjectRelation.«namespace», x, req.subjectRelation.relation⟩ = true :=
  (dispatchLookupSubjects_subjectsDispatchSound hschema hwildcards harrows hnames v horder depth req hreq).mem_collect
    response hresponse r found hfound f hf

/-- `sarah` views `document:d` through `group:eng`, and LookupSubjects reports her. -/
theorem dispatchLookupSubjects_sound_through_group :
    let memberRelation := fun name => Relation.mk name none
      (some [⟨"user", .relation ellipsis, none⟩, ⟨"group", .relation "member", none⟩]) .RELATION ""
    let schema : List NamespaceDefinition := [⟨"user", []⟩, ⟨"group", [memberRelation "member"]⟩,
      ⟨"document", [memberRelation "viewer", memberRelation "editor",
        ⟨"view", some (.union [.computedUserset "viewer", .computedUserset "editor"]), none, .PERMISSION, ""⟩]⟩]
    let relationships : List RelationTuple := [⟨⟨"document", "d", "viewer"⟩, ⟨"group", "eng", "member"⟩, none⟩,
      ⟨⟨"group", "eng", "member"⟩, ⟨"user", "sarah", ellipsis⟩, none⟩,
      ⟨⟨"document", "d", "editor"⟩, ⟨"user", "tom", ellipsis⟩, none⟩]
    member schema relationships (fun _ => true) 5 ⟨"document", "d", "view"⟩ ⟨"user", "sarah", ellipsis⟩ = true := by
  intro memberRelation schema relationships
  let req : LookupSubjectsRequest := ⟨⟨"document", "view"⟩, ["d"], ⟨"user", ellipsis⟩⟩
  -- some published response finds `sarah` for `d`
  have hfound : ((StreamM.collect (dispatchLookupSubjects schema relationships id 4 req)).1.any fun response =>
      ((response.lookup "d").getD []).any fun f => subjectMember (fun _ => true) f "sarah") = true := by
    decide +kernel
  obtain ⟨response, hresponse, hany⟩ := List.any_eq_true.1 hfound
  obtain ⟨f, hf, hx⟩ := List.any_eq_true.1 hany
  cases hlookup : response.lookup "d" with
  | none => simp [hlookup] at hf
  | some found =>
    rw [hlookup, Option.getD_some] at hf
    exact dispatchLookupSubjects_sound ⟨by decide +kernel, by decide +kernel, by decide +kernel⟩
      (by unfold WildcardsTerminal; decide +kernel) (by unfold ArrowsReadObjects ArrowReadsObjects; decide +kernel)
      (by unfold SubjectTypesDelimited; decide +kernel) id (fun _ => List.Perm.refl _) (fun _ => true) 4 req
      (by decide) hresponse hlookup hf
      |>.2 "sarah" hx

end Graph

end SpiceDB
