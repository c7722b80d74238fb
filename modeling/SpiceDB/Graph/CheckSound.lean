import SpiceDB.Graph.Check
import SpiceDB.Namespace.Aliasing
import Mathlib.Data.List.Forall2
import Mathlib.Order.Filter.AtTopBot.Basic
import Mathlib.Order.Filter.Finite
import Mathlib.Data.Set.Finite.List

namespace SpiceDB

mutual
/-- A rewrite without exclusion, whose arrows name their tupleset and a relation other than
the ellipsis. -/
def UsersetRewrite.exclusionFree : UsersetRewrite → Bool
  | .union child => SetOperationChild.allExclusionFree child
  | .intersection child => SetOperationChild.allExclusionFree child
  | .exclusion _ => false

/-- A child without exclusion below it. -/
def SetOperationChild.exclusionFree : SetOperationChild → Bool
  | .tupleToUserset tuplesetRelation computedUsersetRelation =>
    tuplesetRelation ≠ "" && computedUsersetRelation ≠ ellipsis
  | .usersetRewrite rewrite => rewrite.exclusionFree
  | _ => true

/-- Children without exclusion below them. -/
def SetOperationChild.allExclusionFree : List SetOperationChild → Bool
  | [] => true
  | child :: rest => child.exclusionFree && SetOperationChild.allExclusionFree rest
end

section Mono

variable {atoms atoms' : Atom → Bool}

mutual
theorem UsersetRewrite.denote_mono (himp : ∀ atom, atoms atom = true → atoms' atom = true) :
    ∀ rewrite : UsersetRewrite, rewrite.exclusionFree = true → rewrite.denote atoms = true →
      rewrite.denote atoms' = true
  | .union child, hfree, h => denoteAny_mono himp child hfree h
  | .intersection child, hfree, h => denoteAll_mono himp child hfree h
  | .exclusion _, hfree, _ => by simp [UsersetRewrite.exclusionFree] at hfree

theorem SetOperationChild.denote_mono (himp : ∀ atom, atoms atom = true → atoms' atom = true) :
    ∀ child : SetOperationChild, child.exclusionFree = true → child.denote atoms = true →
      child.denote atoms' = true
  | .xThis, _, h => h
  | .computedUserset _, _, h => himp _ h
  | .tupleToUserset _ _, _, h => himp _ h
  | .usersetRewrite rewrite, hfree, h => UsersetRewrite.denote_mono himp rewrite hfree h
  | .xNil, _, h => himp _ h

theorem denoteAny_mono (himp : ∀ atom, atoms atom = true → atoms' atom = true) :
    ∀ children : List SetOperationChild, SetOperationChild.allExclusionFree children = true →
      denoteAny atoms children = true → denoteAny atoms' children = true
  | [], _, h => h
  | child :: rest, hfree, h => by
    simp only [SetOperationChild.allExclusionFree, Bool.and_eq_true] at hfree
    simp only [denoteAny, Bool.or_eq_true] at h ⊢
    exact h.imp (SetOperationChild.denote_mono himp child hfree.1) (denoteAny_mono himp rest hfree.2)

theorem denoteAll_mono (himp : ∀ atom, atoms atom = true → atoms' atom = true) :
    ∀ children : List SetOperationChild, SetOperationChild.allExclusionFree children = true →
      denoteAll atoms children = true → denoteAll atoms' children = true
  | [], _, h => h
  | child :: rest, hfree, h => by
    simp only [SetOperationChild.allExclusionFree, Bool.and_eq_true] at hfree
    simp only [denoteAll, Bool.and_eq_true] at h ⊢
    exact h.imp (SetOperationChild.denote_mono himp child hfree.1) (denoteAll_mono himp rest hfree.2)
end

end Mono

namespace Graph

open Caveats Datastore Typesystem MembershipSet

/-- Every definition and relation of the schema is named, and no rewrite has an exclusion. -/
structure ExclusionFreeSchema (schema : List NamespaceDefinition) : Prop where
  namespaceNamed : ∀ ns ∈ schema, ns.name ≠ ""
  relationNamed : ∀ ns ∈ schema, ∀ relation ∈ ns.relation, relation.name ≠ ""
  rewriteExclusionFree : ∀ ns ∈ schema, ∀ relation ∈ ns.relation,
    relation.usersetRewrite.all UsersetRewrite.exclusionFree = true

/-- A relationship with a wildcard subject has the ellipsis relation. -/
def WildcardsTerminal (relationships : List RelationTuple) : Prop :=
  ∀ relationship ∈ relationships, relationship.subject.objectId = publicWildcard →
    relationship.subject.relation = ellipsis

theorem caveatHolds_eq_evalCaveat (v : Valuation) (relationship : RelationTuple) :
    caveatHolds v relationship = evalCaveat v (wrapCaveat relationship.caveat) := by
  cases h : relationship.caveat <;> simp [caveatHolds, h, wrapCaveat, run]

theorem directMatch_of_onrEqualOrWildcard {v : Valuation} {memberOf : ObjectAndRelation → ObjectAndRelation → Bool}
    {resource subject : ObjectAndRelation} {relationship : RelationTuple}
    (hresource : relationship.resourceAndRelation = resource) (hcaveat : caveatHolds v relationship = true)
    (hmatch : onrEqualOrWildcard relationship.subject subject = true)
    (hwildcard : relationship.subject.objectId = publicWildcard → relationship.subject.relation = subject.relation) :
    directMatch v memberOf resource subject relationship = true := by
  simp only [onrEqualOrWildcard, Bool.or_eq_true, Bool.and_eq_true, decide_eq_true_eq] at hmatch
  rcases hmatch with hsame | ⟨hid, hns⟩
  · simp [directMatch, hresource, hcaveat, hsame]
  · simp [directMatch, hresource, hcaveat, wildcardMatches, hid, hns, hwildcard hid]

theorem directMatch_of_userset {v : Valuation} {memberOf : ObjectAndRelation → ObjectAndRelation → Bool}
    {resource subject : ObjectAndRelation} {relationship : RelationTuple}
    (hresource : relationship.resourceAndRelation = resource) (hcaveat : caveatHolds v relationship = true)
    (hrelation : relationship.subject.relation ≠ ellipsis) (hmember : memberOf relationship.subject subject = true) :
    directMatch v memberOf resource subject relationship = true := by
  simp [directMatch, hresource, hcaveat, hrelation, hmember]

theorem hasRelation_of_checkNamespaceAndRelation {schema : List NamespaceDefinition} {nsName relationName : String}
    (hrelation : relationName ≠ ellipsis) (h : checkNamespaceAndRelation schema nsName relationName true = .ok ()) :
    hasRelation schema nsName relationName = true := by
  unfold checkNamespaceAndRelation readNamespaceByName at h
  cases hfind : schema.find? (·.name = nsName) with
  | none => simp [hfind] at h
  | some ns =>
    simp only [hfind, hrelation, Except.pure_eq_ok, Except.ok_bind, and_false, if_false] at h
    have hany : ns.relation.any (·.name = relationName) = true := by
      by_contra hnone
      simp [hnone] at h
    simpa [hasRelation, relationOf, hfind, List.any_eq_true] using hany

/-- What a successful read of a relation gives. -/
theorem relationOf_of_read {schema : List NamespaceDefinition} {nsName relationName : String}
    {ns : NamespaceDefinition} {relation : Relation}
    (hns : readNamespaceAndTypes schema nsName = .ok ns) (hrelation : relationOrError ns relationName = .ok relation) :
    ns ∈ schema ∧ relation ∈ ns.relation ∧ ns.name = nsName ∧ relation.name = relationName ∧
      ∀ objectId, relationOf schema ⟨nsName, objectId, relationName⟩ = some relation := by
  have hfind := find?_of_readNamespaceAndTypes hns
  have hfindRelation := relationOrError_eq_ok.1 hrelation
  refine ⟨List.mem_of_find?_eq_some hfind, List.mem_of_find?_eq_some hfindRelation,
    by simpa using List.find?_some hfind, by simpa using List.find?_some hfindRelation, fun objectId => ?_⟩
  simp [relationOf, hfind, hfindRelation]

/-- A check that succeeds reports only resources with `P`, under caveats that hold in `v`. -/
def CheckResultSound (v : Valuation) (P : String → Prop) (result : CheckResult) : Prop :=
  ∀ results, result = .ok results → ResultsSound v P results

section Results

variable {v : Valuation} {P Q : String → Prop}

theorem CheckResultSound.mono {result : CheckResult} (himp : ∀ resourceId, P resourceId → Q resourceId)
    (h : CheckResultSound v P result) : CheckResultSound v Q result :=
  fun results hresult => (h results hresult).mono himp

theorem checkResultSound_pure {results : CheckResultsMap} (h : ResultsSound v P results) :
    CheckResultSound v P (pure results) := by
  intro found hfound
  cases hfound
  exact h

theorem checkResultSound_error (message : String) : CheckResultSound v P (.error message) := by
  intro found hfound
  cases hfound

theorem noMembers_sound : CheckResultSound v P noMembers :=
  checkResultSound_pure resultsSound_empty

/-- The loop of a union reports what one of the results reports. -/
theorem unionResults_sound {resultsSetting : ResultsSetting} {results : List CheckResult}
    (hresults : ∀ result ∈ results, CheckResultSound v P result) :
    ∀ membershipSet : MembershipSet, ResultsSound v P membershipSet.membersByID →
      CheckResultSound v P (unionResults resultsSetting membershipSet results) := by
  induction results with
  | nil => exact fun membershipSet hms => checkResultSound_pure hms
  | cons result rest ih =>
    intro membershipSet hms found hfound
    rw [unionResults] at hfound
    obtain ⟨results, hresult, hrest⟩ := Except.bind_eq_ok.1 hfound
    have hunion := resultsSound_unionWith hms (hresults result List.mem_cons_self results hresult)
    simp only at hrest
    -- a member without caveat ends the loop when a single result is allowed
    split at hrest
    · exact checkResultSound_pure hunion found hrest
    · exact ih (fun r hr => hresults r (List.mem_cons_of_mem result hr)) _ hunion found hrest

theorem union_sound {resultsSetting : ResultsSetting} {results : List CheckResult}
    (hresults : ∀ result ∈ results, CheckResultSound v P result) :
    CheckResultSound v P (union resultsSetting results) := by
  match results, hresults with
  | [], _ => exact noMembers_sound
  | [result], hresults => exact hresults result List.mem_cons_self
  | _ :: _ :: _, hresults => exact unionResults_sound hresults newMembershipSet resultsSound_empty

theorem CheckResultSound.of_forall₂ {α : Type} {holds : α → String → Prop} {results : List CheckResult}
    {children : List α}
    (h : List.Forall₂ (fun result child => CheckResultSound v (holds child) result) results children) :
    ∀ result ∈ results, CheckResultSound v (fun resourceId => ∃ child ∈ children, holds child resourceId) result := by
  induction h with
  | nil => intro result hresult; cases hresult
  | cons hhead _ ih =>
    intro result hresult
    rcases List.mem_cons.1 hresult with rfl | hrest
    · exact hhead.mono fun resourceId h => ⟨_, List.mem_cons_self, h⟩
    · exact (ih result hrest).mono fun resourceId ⟨child, hchild, h⟩ =>
        ⟨child, List.mem_cons_of_mem _ hchild, h⟩

/-- The loop of an intersection, from a set sound for `Q`, reports what `Q` and every result
report. -/
theorem allResults_some_sound {α : Type} {holds : α → String → Prop} {results : List CheckResult}
    {children : List α}
    (h : List.Forall₂ (fun result child => CheckResultSound v (holds child) result) results children) :
    ∀ {Q : String → Prop} (membershipSet : MembershipSet), ResultsSound v Q membershipSet.membersByID →
      CheckResultSound v (fun resourceId => Q resourceId ∧ ∀ child ∈ children, holds child resourceId)
        (allResults (some membershipSet) results) := by
  induction h with
  | nil =>
    intro Q membershipSet hms
    exact checkResultSound_pure (hms.mono fun resourceId hq => ⟨hq, by simp⟩)
  | cons hhead _ ih =>
    intro Q membershipSet hms found hfound
    rw [allResults] at hfound
    obtain ⟨results, hresult, hrest⟩ := Except.bind_eq_ok.1 hfound
    have hinter := resultsSound_intersectWith hms (hhead results hresult)
    simp only at hrest
    -- an empty intersection ends the loop
    split at hrest
    · exact noMembers_sound found hrest
    · refine (ih _ hinter).mono ?_ found hrest
      rintro resourceId ⟨⟨hq, hchild⟩, hothers⟩
      exact ⟨hq, List.forall_mem_cons.2 ⟨hchild, hothers⟩⟩

theorem all_sound {α : Type} {holds : α → String → Prop} {results : List CheckResult} {children : List α}
    (h : List.Forall₂ (fun result child => CheckResultSound v (holds child) result) results children) :
    CheckResultSound v (fun resourceId => ∀ child ∈ children, holds child resourceId) (all results) := by
  cases h with
  | nil => exact noMembers_sound
  | cons hhead hrest =>
    cases hrest with
    | nil => exact hhead.mono fun resourceId h => by simpa using h
    | cons hsecond hrest =>
      -- the first result is the set the others are intersected with
      intro found hfound
      change allResults none _ = .ok found at hfound
      rw [allResults] at hfound
      obtain ⟨results, hresult, hothers⟩ := Except.bind_eq_ok.1 hfound
      have hfirst := @resultsSound_unionWith v _ newMembershipSet results resultsSound_empty
        (hhead results hresult)
      simp only at hothers
      split at hothers
      · exact noMembers_sound found hothers
      · exact (allResults_some_sound (.cons hsecond hrest) _ hfirst).mono
          (fun resourceId ⟨hq, hall⟩ => List.forall_mem_cons.2 ⟨hq, hall⟩) found hothers

/-- Mapped back through relationships, results sound for their subjects are sound for the
resources of the relationships. -/
theorem mapFoundResources_sound {Q : ObjectAndRelation → Prop} {result : CheckResultsMap}
    {resourceType : RelationReference} {relationshipsBySubject : List RelationTuple}
    (hresult : ResultsSound v (fun resourceId => Q ⟨resourceType.«namespace», resourceId, resourceType.relation⟩) result)
    (hrelationships : ∀ relationship ∈ relationshipsBySubject, caveatHolds v relationship = true →
      Q relationship.subject → P relationship.resourceAndRelation.objectId) :
    ResultsSound v P (mapFoundResources result resourceType relationshipsBySubject) := by
  unfold mapFoundResources MembershipSet.asCheckResultsMap
  refine List.foldlRecOn (motive := fun ms : MembershipSet => ResultsSound v P ms.membersByID) _ _
    resultsSound_empty ?_
  intro membershipSet hms found hfound
  -- each relationship to the resource found adds its resource, under both caveats
  refine resultsSound_foldl_addMember (fun relationship : RelationTuple => relationship.resourceAndRelation.objectId)
    (fun relationship => caveatAnd (wrapCaveat relationship.caveat) found.2) _ ?_ membershipSet hms
  intro relationship hrelationship heval
  obtain ⟨hmem, hsubject⟩ := List.mem_filter.1 hrelationship
  rw [evalCaveat_caveatAnd, Bool.and_eq_true, ← caveatHolds_eq_evalCaveat] at heval
  refine hrelationships relationship hmem heval.1 ?_
  rw [of_decide_eq_true hsubject]
  exact hresult.of_mem hfound heval.2

theorem combineResultWithFoundResources_sound {result : CheckResult} {foundResources : MembershipSet}
    (hresult : CheckResultSound v P result) (hfound : ResultsSound v P foundResources.membersByID) :
    CheckResultSound v P (combineResultWithFoundResources result foundResources) := by
  intro combined hcombined
  obtain ⟨results, hresults, hcombine⟩ := Except.bind_eq_ok.1 hcombined
  split at hcombine
  · exact checkResultSound_pure (hresult results hresults) combined hcombine
  · exact checkResultSound_pure (resultsSound_unionWith hfound (hresult results hresults)) combined hcombine

theorem filterForFoundMemberResource_sound (resourceRelation : RelationReference) (resourceIds : List String)
    (subject : ObjectAndRelation) :
    ResultsSound v (fun resourceId =>
        (⟨resourceRelation.«namespace», resourceId, resourceRelation.relation⟩ : ObjectAndRelation) = subject)
      (filterForFoundMemberResource resourceRelation resourceIds subject).1.membersByID := by
  unfold filterForFoundMemberResource
  split
  · exact resultsSound_empty
  · rename_i hsame
    split
    · refine resultsSound_addMember resultsSound_empty fun _ => ?_
      simp only [ne_eq, not_or, not_not] at hsame
      rw [hsame.1, hsame.2]
    · exact resultsSound_empty

end Results

/-- The dispatcher reports, for a subject object, only resources the subject is a member of,
unfolding at most `depth` relations. -/
def DispatchSound (schema : List NamespaceDefinition) (relationships : List RelationTuple) (v : Valuation)
    (depth : ℕ) (dispatch : CheckRequest → CheckResult) : Prop :=
  ∀ req : CheckRequest, req.subject.relation = ellipsis →
    CheckResultSound v (fun resourceId => member schema relationships v depth
      ⟨req.resourceRelation.«namespace», resourceId, req.resourceRelation.relation⟩ req.subject = true) (dispatch req)

/-- What the atoms of a rewrite read for a resource of a request, membership one relation
down unfolding at most `depth` relations. -/
def requestAtoms (schema : List NamespaceDefinition) (relationships : List RelationTuple) (v : Valuation)
    (depth : ℕ) (req : CheckRequest) (resourceId : String) : Atom → Bool :=
  atomHolds schema relationships v (member schema relationships v depth)
    ⟨req.resourceRelation.«namespace», resourceId, req.resourceRelation.relation⟩ req.subject

section Checker

variable {schema : List NamespaceDefinition} {relationships : List RelationTuple} {v : Valuation}
  {dispatch : CheckRequest → CheckResult} {depth : ℕ}

/-- The direct loop reports the resources of the relationships it reads, under their caveats:
in the results when it stops at a member, in the set otherwise. -/
theorem addDirectMembers_sound (crc : CurrentRequestContext) {P : String → Prop} (tuples : List RelationTuple)
    (htuples : ∀ tpl ∈ tuples, onrEqualOrWildcard tpl.subject crc.parentReq.subject = true →
      caveatHolds v tpl = true → P tpl.resourceAndRelation.objectId) :
    ∀ (foundResources : MembershipSet), ResultsSound v P foundResources.membersByID →
      ∀ found, addDirectMembers crc foundResources tuples = .ok found →
        ResultsSound v P (found.elim id MembershipSet.membersByID) := by
  induction tuples with
  | nil =>
    intro foundResources hfound found h
    simp only [addDirectMembers, Except.pure_eq_ok, Except.ok.injEq] at h
    subst h
    exact hfound
  | cons tpl rest ih =>
    intro foundResources hfound found h
    rw [addDirectMembers] at h
    split at h
    · simp at h
    · rename_i hmatch
      have hadd : ResultsSound v P
          (foundResources.addDirectMember tpl.resourceAndRelation.objectId tpl.caveat).membersByID := by
        refine resultsSound_addMember hfound fun heval => htuples tpl List.mem_cons_self ?_ ?_
        · simpa using hmatch
        · rwa [caveatHolds_eq_evalCaveat]
      simp only at h
      split at h
      · simp only [Except.pure_eq_ok, Except.ok.injEq] at h
        subst h
        exact hadd
      · exact ih (fun t ht => htuples t (List.mem_cons_of_mem tpl ht)) _ hadd found h

theorem resource_of_mem_filter {crc : CurrentRequestContext} {resourceIds : List String}
    {selectors : List SubjectsSelector} {tpl : RelationTuple}
    (hnamespace : crc.parentReq.resourceRelation.«namespace» ≠ "")
    (hrelation : crc.parentReq.resourceRelation.relation ≠ "")
    (htpl : tpl ∈ relationships.filter (RelationshipsFilter.test ⟨crc.parentReq.resourceRelation.«namespace»,
      resourceIds, "", crc.parentReq.resourceRelation.relation, selectors, ""⟩)) :
    tpl ∈ relationships ∧ tpl.resourceAndRelation = ⟨crc.parentReq.resourceRelation.«namespace»,
      tpl.resourceAndRelation.objectId, crc.parentReq.resourceRelation.relation⟩ := by
  obtain ⟨hmem, htest⟩ := List.mem_filter.1 htpl
  obtain ⟨hns, hrel⟩ := RelationshipsFilter.test_resource htest hnamespace hrelation
  simp only at hns hrel
  exact ⟨hmem, by rw [← hns, ← hrel]⟩

/-- What `checkDirect` reports for a resource: one of its relationships gives it the subject. -/
theorem checkDirect_sound (hdispatch : DispatchSound schema relationships v (depth + 1) dispatch)
    (hwildcards : WildcardsTerminal relationships) (crc : CurrentRequestContext) (relation : Relation)
    (hsubject : crc.parentReq.subject.relation = ellipsis)
    (hnamespace : crc.parentReq.resourceRelation.«namespace» ≠ "")
    (hrelation : crc.parentReq.resourceRelation.relation ≠ "") :
    CheckResultSound v (fun resourceId => relationships.any (directMatch v (member schema relationships v (depth + 1))
      ⟨crc.parentReq.resourceRelation.«namespace», resourceId, crc.parentReq.resourceRelation.relation⟩
        crc.parentReq.subject) = true)
      (checkDirect relationships dispatch crc relation) := by
  intro M hM
  unfold checkDirect at hM
  simp only at hM
  rw [← apply_ite (· >>= _)] at hM
  obtain ⟨found, hfound, hM⟩ := Except.bind_eq_ok.1 hM
  -- the relationships of the subject or its wildcard give what they report
  have hdirect : ResultsSound v (fun resourceId => relationships.any (directMatch v
      (member schema relationships v (depth + 1)) ⟨crc.parentReq.resourceRelation.«namespace», resourceId,
        crc.parentReq.resourceRelation.relation⟩ crc.parentReq.subject) = true)
      (found.elim id MembershipSet.membersByID) := by
    split at hfound
    · refine addDirectMembers_sound crc _ ?_ newMembershipSet resultsSound_empty found hfound
      intro tpl htpl hmatch hcaveat
      obtain ⟨hmem, hresource⟩ := resource_of_mem_filter hnamespace hrelation htpl
      refine List.any_eq_true.2 ⟨tpl, hmem, directMatch_of_onrEqualOrWildcard hresource hcaveat hmatch ?_⟩
      intro hwildcard
      rw [hwildcards tpl hmem hwildcard, hsubject]
    · cases hfound
      exact resultsSound_empty
  cases found with
  | inl results =>
    -- a member without caveat found directly ends the check
    cases hM
    exact hdirect
  | inr foundResources =>
    simp only at hM
    split at hM
    · cases hM
      exact hdirect
    · split at hM
      · simp at hM
      · rename_i hterminal
        refine combineResultWithFoundResources_sound (union_sound ?_) hdirect M hM
        -- each userset among the subjects is dispatched, and what it reports mapped back
        intro result hresult
        obtain ⟨dd, _, rfl⟩ := List.mem_map.1 hresult
        intro mapped hmapped
        obtain ⟨childResult, hchild, hpure⟩ := Except.bind_eq_ok.1 hmapped
        cases hpure
        refine mapFoundResources_sound
          (Q := fun subject => member schema relationships v (depth + 1) subject crc.parentReq.subject = true)
          (hdispatch ⟨dd.resourceType, dd.resourceIds, crc.parentReq.subject, crc.resultsSetting⟩ hsubject
            childResult hchild) ?_
        intro tpl htpl hcaveat hmember
        obtain ⟨hmem, hresource⟩ := resource_of_mem_filter hnamespace hrelation htpl
        have huserset : tpl.subject.relation ≠ ellipsis :=
          fun hterminal' => hterminal (List.any_eq_true.2 ⟨tpl, htpl, decide_eq_true hterminal'⟩)
        exact List.any_eq_true.2 ⟨tpl, hmem, directMatch_of_userset hresource hcaveat huserset hmember⟩

/-- A computed userset on the resources themselves reports members of the computed relation. -/
theorem checkComputedUserset_none_sound (hdispatch : DispatchSound schema relationships v (depth + 1) dispatch)
    (crc : CurrentRequestContext) (computedRelation : String)
    (hsubject : crc.parentReq.subject.relation = ellipsis) :
    CheckResultSound v (fun resourceId => member schema relationships v (depth + 1)
      ⟨crc.parentReq.resourceRelation.«namespace», resourceId, computedRelation⟩ crc.parentReq.subject = true)
      (checkComputedUserset schema dispatch crc computedRelation none) := by
  intro M hM
  unfold checkComputedUserset at hM
  simp only [Except.pure_eq_ok, Except.ok_bind, Option.isSome_none, Bool.false_eq_true, if_false] at hM
  have hfound := filterForFoundMemberResource_sound (v := v)
    ⟨crc.parentReq.resourceRelation.«namespace», computedRelation⟩ crc.filteredResourceIds crc.parentReq.subject
  rcases hfilter : filterForFoundMemberResource ⟨crc.parentReq.resourceRelation.«namespace», computedRelation⟩
    crc.filteredResourceIds crc.parentReq.subject with ⟨membershipSet, updatedTargetResourceIds⟩
  rw [hfilter] at hfound
  simp only [hfilter] at hM
  -- the subject found among the resources is a member of itself
  have hms : ResultsSound v (fun resourceId => member schema relationships v (depth + 1)
      ⟨crc.parentReq.resourceRelation.«namespace», resourceId, computedRelation⟩ crc.parentReq.subject = true)
      membershipSet.membersByID :=
    hfound.mono fun resourceId hsame => by rw [hsame]; exact member_self depth _
  split at hM
  · exact checkResultSound_pure hms M hM
  · exact combineResultWithFoundResources_sound (hdispatch ⟨⟨crc.parentReq.resourceRelation.«namespace»,
      computedRelation⟩, updatedTargetResourceIds, crc.parentReq.subject, crc.resultsSetting⟩ hsubject) hms M hM

/-- A computed userset on the subjects of a tupleset reports members of the computed relation,
which their definition has. -/
theorem checkComputedUserset_some_sound (hdispatch : DispatchSound schema relationships v (depth + 1) dispatch)
    (crc : CurrentRequestContext) (computedRelation : String) (dd : DirectDispatch)
    (hsubject : crc.parentReq.subject.relation = ellipsis) (hcomputed : computedRelation ≠ ellipsis) :
    CheckResultSound v (fun resourceId => member schema relationships v (depth + 1)
      ⟨dd.resourceType.«namespace», resourceId, computedRelation⟩ crc.parentReq.subject = true ∧
        hasRelation schema dd.resourceType.«namespace» computedRelation = true)
      (checkComputedUserset schema dispatch crc computedRelation (some dd)) := by
  intro M hM
  unfold checkComputedUserset at hM
  simp only [Except.pure_eq_ok, Except.ok_bind, Except.throw_eq_error, Except.error_bind,
    Option.isSome_some, if_true] at hM
  split at hM
  · cases hM
  · have hfound := filterForFoundMemberResource_sound (v := v)
      ⟨dd.resourceType.«namespace», computedRelation⟩ dd.resourceIds crc.parentReq.subject
    rcases hfilter : filterForFoundMemberResource ⟨dd.resourceType.«namespace», computedRelation⟩
      dd.resourceIds crc.parentReq.subject with ⟨membershipSet, updatedTargetResourceIds⟩
    rw [hfilter] at hfound
    simp only [hfilter] at hM
    -- the subject is an object, so it is none of the resources of the computed relation
    have hnone : ResultsSound v (fun _ => False) membershipSet.membersByID :=
      hfound.mono fun resourceId hsame => hcomputed ((congrArg ObjectAndRelation.relation hsame).trans hsubject)
    split at hM
    · exact checkResultSound_pure (hnone.mono fun _ h => h.elim) M hM
    · split at hM
      · exact checkResultSound_pure resultsSound_empty M hM
      · cases hM
      · rename_i hcheck
        have hrelation := hasRelation_of_checkNamespaceAndRelation hcomputed hcheck
        exact combineResultWithFoundResources_sound
          ((hdispatch ⟨⟨dd.resourceType.«namespace», computedRelation⟩, updatedTargetResourceIds,
            crc.parentReq.subject, crc.resultsSetting⟩ hsubject).mono fun resourceId hmember => ⟨hmember, hrelation⟩)
          (hnone.mono fun _ h => h.elim) M hM

/-- An arrow reports the resources whose tupleset relationships lead to a member of the
computed relation. -/
theorem checkTupleToUserset_sound (hdispatch : DispatchSound schema relationships v (depth + 1) dispatch)
    (crc : CurrentRequestContext) (tuplesetRelation computedUsersetRelation : String)
    (hsubject : crc.parentReq.subject.relation = ellipsis)
    (hnamespace : crc.parentReq.resourceRelation.«namespace» ≠ "")
    (htupleset : tuplesetRelation ≠ "") (hcomputed : computedUsersetRelation ≠ ellipsis) :
    CheckResultSound v (fun resourceId => requestAtoms schema relationships v (depth + 1) crc.parentReq resourceId
      (.arrow tuplesetRelation computedUsersetRelation) = true)
      (checkTupleToUserset schema relationships dispatch crc tuplesetRelation computedUsersetRelation) := by
  apply union_sound
  intro result hresult
  obtain ⟨dd, _, rfl⟩ := List.mem_map.1 hresult
  intro mapped hmapped
  obtain ⟨childResult, hchild, hpure⟩ := Except.bind_eq_ok.1 hmapped
  cases hpure
  refine mapFoundResources_sound (Q := fun subject => member schema relationships v (depth + 1)
      ⟨subject.«namespace», subject.objectId, computedUsersetRelation⟩ crc.parentReq.subject = true ∧
        hasRelation schema subject.«namespace» computedUsersetRelation = true)
    (checkComputedUserset_some_sound hdispatch crc computedUsersetRelation dd hsubject hcomputed childResult hchild) ?_
  -- a tupleset relationship of the resource leads to its subject
  intro tpl htpl hcaveat ⟨hmember, hrelation⟩
  obtain ⟨hmem, htest⟩ := List.mem_filter.1 htpl
  obtain ⟨hns, hrel⟩ := RelationshipsFilter.test_resource htest hnamespace htupleset
  simp only at hns hrel
  refine List.any_eq_true.2 ⟨tpl, hmem, ?_⟩
  simp [hcaveat, hmember, hrelation, ← hns, ← hrel]

mutual
/-- A rewrite without exclusion reports what it denotes, its atoms read one relation down. -/
theorem checkUsersetRewrite_sound (hdispatch : DispatchSound schema relationships v (depth + 1) dispatch)
    (crc : CurrentRequestContext) (hsubject : crc.parentReq.subject.relation = ellipsis)
    (hnamespace : crc.parentReq.resourceRelation.«namespace» ≠ "") :
    ∀ rewrite : UsersetRewrite, rewrite.exclusionFree = true →
      CheckResultSound v (fun resourceId =>
        rewrite.denote (requestAtoms schema relationships v (depth + 1) crc.parentReq resourceId) = true)
        (checkUsersetRewrite schema relationships dispatch crc rewrite)
  | .union child, hfree => by
    refine (union_sound (CheckResultSound.of_forall₂
      (runSetOperations_sound hdispatch crc hsubject hnamespace child hfree))).mono ?_
    rintro resourceId ⟨c, hc, hholds⟩
    simp only [UsersetRewrite.denote, denoteAny_eq_any, List.any_eq_true]
    exact ⟨c, hc, hholds⟩
  | .intersection child, hfree => by
    -- the children run with all results required, against the same request
    have hparent : (if child.length = 1 then crc else crc.requireAllResults).parentReq = crc.parentReq := by
      split <;> rfl
    have hchildren := runSetOperations_sound hdispatch (if child.length = 1 then crc else crc.requireAllResults)
      (hparent ▸ hsubject) (hparent ▸ hnamespace) child hfree
    rw [hparent] at hchildren
    refine (all_sound hchildren).mono ?_
    intro resourceId hholds
    simp only [UsersetRewrite.denote, denoteAll_eq_all, List.all_eq_true]
    exact hholds
  | .exclusion _, hfree => by simp [UsersetRewrite.exclusionFree] at hfree

theorem runSetOperation_sound (hdispatch : DispatchSound schema relationships v (depth + 1) dispatch)
    (crc : CurrentRequestContext) (hsubject : crc.parentReq.subject.relation = ellipsis)
    (hnamespace : crc.parentReq.resourceRelation.«namespace» ≠ "") :
    ∀ child : SetOperationChild, child.exclusionFree = true →
      CheckResultSound v (fun resourceId =>
        child.denote (requestAtoms schema relationships v (depth + 1) crc.parentReq resourceId) = true)
        (runSetOperation schema relationships dispatch crc child)
  | .xThis, _ => checkResultSound_error _
  | .computedUserset relation, _ => checkComputedUserset_none_sound hdispatch crc relation hsubject
  | .tupleToUserset tupleset computed, hfree => by
    simp only [SetOperationChild.exclusionFree, Bool.and_eq_true, decide_eq_true_eq] at hfree
    exact checkTupleToUserset_sound hdispatch crc tupleset computed hsubject hnamespace hfree.1 hfree.2
  | .usersetRewrite rewrite, hfree => checkUsersetRewrite_sound hdispatch crc hsubject hnamespace rewrite hfree
  | .xNil, _ => noMembers_sound

theorem runSetOperations_sound (hdispatch : DispatchSound schema relationships v (depth + 1) dispatch)
    (crc : CurrentRequestContext) (hsubject : crc.parentReq.subject.relation = ellipsis)
    (hnamespace : crc.parentReq.resourceRelation.«namespace» ≠ "") :
    ∀ children : List SetOperationChild, SetOperationChild.allExclusionFree children = true →
      List.Forall₂ (fun result child => CheckResultSound v (fun resourceId =>
          SetOperationChild.denote (requestAtoms schema relationships v (depth + 1) crc.parentReq resourceId)
            child = true) result)
        (runSetOperations schema relationships dispatch crc children) children
  | [], _ => .nil
  | child :: rest, hfree => by
    simp only [SetOperationChild.allExclusionFree, Bool.and_eq_true] at hfree
    exact .cons (runSetOperation_sound hdispatch crc hsubject hnamespace child hfree.1)
      (runSetOperations_sound hdispatch crc hsubject hnamespace rest hfree.2)
end

/-- `checkInternal` reports members, one relation deeper than the dispatcher. -/
theorem checkInternal_sound (hdispatch : DispatchSound schema relationships v (depth + 1) dispatch)
    (hwildcards : WildcardsTerminal relationships) (req : CheckRequest) (relation : Relation)
    (hsubject : req.subject.relation = ellipsis) (hnamespace : req.resourceRelation.«namespace» ≠ "")
    (hrelationName : req.resourceRelation.relation ≠ "")
    (hrelation : ∀ resourceId, relationOf schema
      ⟨req.resourceRelation.«namespace», resourceId, req.resourceRelation.relation⟩ = some relation)
    (hfree : relation.usersetRewrite.all UsersetRewrite.exclusionFree = true) :
    CheckResultSound v (fun resourceId => member schema relationships v (depth + 2)
      ⟨req.resourceRelation.«namespace», resourceId, req.resourceRelation.relation⟩ req.subject = true)
      (checkInternal schema relationships dispatch req relation) := by
  intro M hM
  unfold checkInternal at hM
  simp only [Except.pure_eq_ok, Except.throw_eq_error, Except.error_bind] at hM
  -- the subject found among the resources is a member of itself
  have hms : ResultsSound v (fun resourceId => member schema relationships v (depth + 2)
      ⟨req.resourceRelation.«namespace», resourceId, req.resourceRelation.relation⟩ req.subject = true)
      (filterForFoundMemberResource req.resourceRelation req.resourceIds.eraseDups req.subject).1.membersByID :=
    (filterForFoundMemberResource_sound req.resourceRelation req.resourceIds.eraseDups req.subject).mono
      fun resourceId hsame => by rw [hsame]; exact member_self (depth + 1) _
  -- the three requests refused, and the two answered by the subject alone
  split at hM
  · cases hM
  split at hM
  · cases hM
  split at hM
  · cases hM
  split at hM
  · exact checkResultSound_pure hms M hM
  split at hM
  · exact checkResultSound_pure resultsSound_empty M hM
  -- the relation is read from its relationships, or its rewrite is run
  split at hM
  · rename_i hrewrite
    refine combineResultWithFoundResources_sound ((checkDirect_sound hdispatch hwildcards ⟨req, _, _, _⟩ relation
      hsubject hnamespace hrelationName).mono ?_) hms M hM
    intro resourceId hdirect
    exact member_of_directMatch (hrelation resourceId) hrewrite hdirect
  · rename_i rewrite hrewrite
    have hrewriteFree : rewrite.exclusionFree = true := by simpa [hrewrite] using hfree
    refine combineResultWithFoundResources_sound ((checkUsersetRewrite_sound hdispatch ⟨req, _, _, _⟩
      hsubject hnamespace rewrite hrewriteFree).mono ?_) hms M hM
    intro resourceId hdenote
    exact member_of_denote (hrelation resourceId) hrewrite hdenote

end Checker

/-- The aliasing relations of the schema end the alias chains of their relations, as those
`computePermissionAliases` finds do. -/
def AliasesAnnotated (schema : List NamespaceDefinition) : Prop :=
  ∀ ns ∈ schema, ∀ relation ∈ ns.relation, relation.aliasingRelation ≠ "" →
    Namespace.ChainEnd ns relation.name relation.aliasingRelation

/-- Every aliasing relation of a definition read from the schema gives membership wherever the
relation it aliases does, `bound` relations further down. -/
def AliasBound (schema : List NamespaceDefinition) (relationships : List RelationTuple) (v : Valuation)
    (bound : ℕ) : Prop :=
  ∀ ns ∈ schema, ∀ relation ∈ ns.relation, schema.find? (·.name = ns.name) = some ns →
    relation.aliasingRelation ≠ "" → ∀ depth objectId subject,
      member schema relationships v depth ⟨ns.name, objectId, relation.aliasingRelation⟩ subject = true →
      member schema relationships v (depth + bound) ⟨ns.name, objectId, relation.name⟩ subject = true

theorem aliasesAnnotated_of_computePermissionAliases {schema : List NamespaceDefinition}
    (order : List (Σ _ : String, String) → List (Σ _ : String, String))
    (horder : ∀ entries, (order entries).Perm entries)
    (h : ∀ ns ∈ schema, (ns.relation.map (·.name)).Nodup ∧ ∀ relation ∈ ns.relation,
      relation.aliasingRelation ≠ "" → ((Namespace.computePermissionAliases order ns).toOption.bind
        fun aliases => aliases.lookup relation.name) = some relation.aliasingRelation) :
    AliasesAnnotated schema := by
  intro ns hns relation hrelation halias
  obtain ⟨hnames, hlookup⟩ := h ns hns
  obtain ⟨aliases, haliases, hfound⟩ := Option.bind_eq_some_iff.1 (hlookup relation hrelation halias)
  have hcomputed : Namespace.computePermissionAliases order ns = .ok aliases := by
    revert haliases
    cases Namespace.computePermissionAliases order ns <;> simp [Except.toOption]
  exact (Namespace.lookup_computePermissionAliases horder hnames hcomputed _ _).1 hfound

section Depth

variable {schema : List NamespaceDefinition} {relationships : List RelationTuple} {v : Valuation}

theorem ExclusionFreeSchema.exclusionFree_of_relationOf (hschema : ExclusionFreeSchema schema)
    {resource : ObjectAndRelation} {relation : Relation} {rewrite : UsersetRewrite}
    (hrelation : relationOf schema resource = some relation) (hrewrite : relation.usersetRewrite = some rewrite) :
    rewrite.exclusionFree = true := by
  obtain ⟨ns, hns, hfound⟩ := Option.bind_eq_some_iff.1 hrelation
  simpa [hrewrite] using hschema.rewriteExclusionFree ns (List.mem_of_find?_eq_some hns) relation
    (List.mem_of_find?_eq_some hfound)

theorem directMatch_mono {memberOf memberOf' : ObjectAndRelation → ObjectAndRelation → Bool}
    (himp : ∀ resource subject, memberOf resource subject = true → memberOf' resource subject = true)
    {resource subject : ObjectAndRelation} {relationship : RelationTuple}
    (h : directMatch v memberOf resource subject relationship = true) :
    directMatch v memberOf' resource subject relationship = true := by
  simp only [directMatch, Bool.and_eq_true, Bool.or_eq_true] at h ⊢
  exact ⟨h.1, h.2.imp_right (And.imp_right (himp _ _))⟩

theorem atomHolds_mono {memberOf memberOf' : ObjectAndRelation → ObjectAndRelation → Bool}
    (himp : ∀ resource subject, memberOf resource subject = true → memberOf' resource subject = true)
    {resource subject : ObjectAndRelation} :
    ∀ atom, atomHolds schema relationships v memberOf resource subject atom = true →
      atomHolds schema relationships v memberOf' resource subject atom = true
  | .relation _, h => himp _ _ h
  | .arrow _ _, h => by
    simp only [atomHolds, List.any_eq_true, Bool.and_eq_true] at h ⊢
    obtain ⟨relationship, hmem, hread, hmember⟩ := h
    exact ⟨relationship, hmem, hread, himp _ _ hmember⟩
  | .nil, h => h

/-- Over a schema without exclusions a member unfolding `depth` relations is one unfolding one
more: every reading of a relation is monotone in the membership below it. -/
theorem member_succ (hschema : ExclusionFreeSchema schema) :
    ∀ depth resource subject, member schema relationships v depth resource subject = true →
      member schema relationships v (depth + 1) resource subject = true
  | 0, _, _, h => by simp [member] at h
  | depth + 1, resource, subject, h => by
    have ih := member_succ hschema depth
    rw [member] at h ⊢
    simp only [Bool.or_eq_true] at h ⊢
    refine h.imp_right fun hrelation => ?_
    cases hfound : relationOf schema resource with
    | none => simp [hfound] at hrelation
    | some relation =>
      simp only [hfound] at hrelation ⊢
      cases hrewrite : relation.usersetRewrite with
      | none =>
        simp only [hrewrite, List.any_eq_true] at hrelation ⊢
        obtain ⟨relationship, hmem, hmatch⟩ := hrelation
        exact ⟨relationship, hmem, directMatch_mono ih hmatch⟩
      | some rewrite =>
        simp only [hrewrite] at hrelation ⊢
        exact UsersetRewrite.denote_mono (atomHolds_mono ih) rewrite
          (hschema.exclusionFree_of_relationOf hfound hrewrite) hrelation

theorem member_mono (hschema : ExclusionFreeSchema schema) {depth depth' : ℕ} (hle : depth ≤ depth')
    {resource subject : ObjectAndRelation} (h : member schema relationships v depth resource subject = true) :
    member schema relationships v depth' resource subject = true := by
  induction hle with
  | refl => exact h
  | step _ ih => exact member_succ hschema _ _ _ ih

theorem member_of_targetOf {ns : NamespaceDefinition} (hns : schema.find? (·.name = ns.name) = some ns)
    {p q : String} (htarget : Namespace.targetOf ns p = some q) {depth : ℕ} {objectId : String}
    {subject : ObjectAndRelation} (h : member schema relationships v depth ⟨ns.name, objectId, q⟩ subject = true) :
    member schema relationships v (depth + 1) ⟨ns.name, objectId, p⟩ subject = true := by
  obtain ⟨relation, hfound, htarget⟩ := Option.bind_eq_some_iff.1 htarget
  have hrewrite : relation.usersetRewrite = some (.union [.computedUserset q]) := by
    unfold Namespace.aliasTarget at htarget
    split at htarget <;> simp_all
  refine member_of_denote (by simp [relationOf, hns, hfound]) hrewrite ?_
  simpa [UsersetRewrite.denote, denoteAny, SetOperationChild.denote, atomHolds] using h

variable (relationships v) in
theorem member_of_chainEnd {ns : NamespaceDefinition} (hns : schema.find? (·.name = ns.name) = some ns)
    {p q : String} (hchain : Namespace.ChainEnd ns p q) :
    ∃ steps, ∀ depth objectId subject,
      member schema relationships v depth ⟨ns.name, objectId, q⟩ subject = true →
      member schema relationships v (depth + steps) ⟨ns.name, objectId, p⟩ subject = true := by
  induction hchain with
  | relation htarget _ => exact ⟨1, fun _ _ _ h => member_of_targetOf hns htarget h⟩
  | permission hstep _ => exact ⟨1, fun _ _ _ h => member_of_targetOf hns hstep.1 h⟩
  | step hstep _ ih =>
    obtain ⟨steps, hsteps⟩ := ih
    refine ⟨steps + 1, fun depth objectId subject h => ?_⟩
    rw [← Nat.add_assoc]
    exact member_of_targetOf hns hstep.1 (hsteps depth objectId subject h)

variable (relationships v) in
/-- The schema has finitely many aliasing relations, so one bound covers all their chains. -/
theorem exists_aliasBound (hschema : ExclusionFreeSchema schema) (haliases : AliasesAnnotated schema) :
    ∃ bound, AliasBound schema relationships v bound := by
  have hchain : ∀ ns ∈ schema, ∀ relation ∈ ns.relation, ∀ᶠ bound in Filter.atTop,
      schema.find? (·.name = ns.name) = some ns → relation.aliasingRelation ≠ "" →
      ∀ depth objectId subject,
        member schema relationships v depth ⟨ns.name, objectId, relation.aliasingRelation⟩ subject = true →
        member schema relationships v (depth + bound) ⟨ns.name, objectId, relation.name⟩ subject = true := by
    intro ns hns relation hrelation
    by_cases halias : schema.find? (·.name = ns.name) = some ns ∧ relation.aliasingRelation ≠ ""
    · obtain ⟨steps, hsteps⟩ := member_of_chainEnd relationships v halias.1
        (haliases ns hns relation hrelation halias.2)
      refine Filter.eventually_atTop.2 ⟨steps, fun bound hle _ _ depth objectId subject h => ?_⟩
      exact member_mono hschema (Nat.add_le_add_left hle depth) (hsteps depth objectId subject h)
    · exact Filter.Eventually.of_forall fun _ hfind halias' => absurd ⟨hfind, halias'⟩ halias
  have hall := (Filter.eventually_all_finite schema.finite_toSet).2 fun ns hns =>
    (Filter.eventually_all_finite ns.relation.finite_toSet).2 (hchain ns hns)
  exact hall.exists

end Depth

/-- The dispatcher at depth `depth` is sound for membership `depth * (bound + 1) + 1` relations
deep, where `bound` covers the alias chains; the depth of the dispatcher carries the induction,
each level checked by `checkInternal`, on the relation asked or on its alias. -/
theorem dispatchCheck_dispatchSound {schema : List NamespaceDefinition} {relationships : List RelationTuple}
    (hschema : ExclusionFreeSchema schema) (hwildcards : WildcardsTerminal relationships) {v : Valuation}
    {bound : ℕ} (hbound : AliasBound schema relationships v bound) (depth : ℕ) :
    DispatchSound schema relationships v (depth * (bound + 1) + 1) (dispatchCheck schema relationships depth) := by
  induction depth with
  | zero =>
    intro req _ results h
    cases h
  | succ depth ih =>
    intro req hsubject results h
    rw [dispatchCheck] at h
    obtain ⟨ns, hns, hread⟩ := Except.bind_eq_ok.1 h
    obtain ⟨relation, hrelation, hresolve⟩ := Except.bind_eq_ok.1 hread
    obtain ⟨checked, hchecked, hcheck⟩ := Except.bind_eq_ok.1 hresolve
    obtain ⟨hnsMem, hrelationMem, hnsName, hrelationName, hrelationOf⟩ := relationOf_of_read hns hrelation
    have hnamespace := hnsName ▸ hschema.namespaceNamed ns hnsMem
    rcases resolveAliasingRelation_eq_ok hchecked with rfl | ⟨halias, haliased, hreq⟩
    · -- the relation asked is checked; its members are found with depth to spare
      refine (checkInternal_sound ih hwildcards req relation hsubject hnamespace
        (hrelationName ▸ hschema.relationNamed ns hnsMem relation hrelationMem)
        hrelationOf (hschema.rewriteExclusionFree ns hnsMem relation hrelationMem)).mono ?_ results hcheck
      intro resourceId hmember
      refine member_mono hschema ?_ hmember
      rw [Nat.succ_mul]
      omega
    · -- the alias is checked in its place, and the alias chain leads back to the relation asked
      obtain ⟨aliased, haliasedMem, -, haliasedName, haliasedOf⟩ := relationOf_of_read hns haliased
      obtain ⟨req', aliasedRelation⟩ := checked
      dsimp only at haliasedMem haliasedName haliasedOf hreq hcheck
      subst hreq
      refine (checkInternal_sound ih hwildcards
        { req with resourceRelation := ⟨req.resourceRelation.«namespace», aliasedRelation.name⟩ } aliasedRelation
        hsubject hnamespace (hschema.relationNamed ns hnsMem aliasedRelation haliasedMem)
        (by simpa [haliasedName] using haliasedOf)
        (hschema.rewriteExclusionFree ns hnsMem aliasedRelation haliasedMem)).mono ?_ results hcheck
      intro resourceId hmember
      have hfind : schema.find? (·.name = ns.name) = some ns := by
        rw [hnsName]
        exact find?_of_readNamespaceAndTypes hns
      have hchain := hbound ns hnsMem relation hrelationMem hfind halias (depth * (bound + 1) + 2) resourceId
        req.subject
      rw [hnsName, hrelationName, ← haliasedName] at hchain
      rw [Nat.succ_mul, show depth * (bound + 1) + (bound + 1) + 1 = depth * (bound + 1) + 2 + bound by omega]
      exact hchain hmember

end Graph

end SpiceDB
