import SpiceDB.Lib.Stream
import SpiceDB.Datasets.SubjectSetByResourceId
import SpiceDB.Graph.Check
import SpiceDB.Datasets.SubjectByTypeSet

namespace SpiceDB.Graph

open Datasets Datastore

/-- The mapper of `lookupViaTupleToUserset`: a tupleset subject type goes to the computed
relation of its definition, and is dropped when the definition has no such relation. -/
def computedRelationType (schema : List NamespaceDefinition) (computedUsersetRelation : String)
    (resourceType : RelationReference) : Except String (Option RelationReference) :=
  match checkNamespaceAndRelation schema resourceType.«namespace» computedUsersetRelation false with
  | .ok () => pure (some ⟨resourceType.«namespace», computedUsersetRelation⟩)
  | .error (.relationNotFound _ _) => pure none
  | .error err => throw err.message

/-- `lookupViaTupleToUserset` up to `dispatchTo`: the types and subjects it dispatches to, for
the relationships `relationships` of the datastore and the map order `order`. -/
def lookupViaTupleToUserset (schema : List NamespaceDefinition) (relationships : List RelationTuple)
    (order : List (Σ _ : RelationReference, SubjectSet) → List (Σ _ : RelationReference, SubjectSet))
    (resourceType : String) (resourceIds : List String)
    (tuplesetRelation computedUsersetRelation : String) : Except String SubjectByTypeSet := do
  let filter : RelationshipsFilter := ⟨resourceType, resourceIds, "", tuplesetRelation, [], ""⟩
  let toDispatchByTuplesetType ←
    (relationships.filter filter.test).foldlM SubjectByTypeSet.addSubjectOf newSubjectByTypeSet
  toDispatchByTuplesetType.map order (computedRelationType schema computedUsersetRelation)

/-- The resources `dispatchTo` dispatches LookupSubjects on: for each type, the ids of its
subjects. -/
def dispatchToResources (toDispatchByType : SubjectByTypeSet) : List (RelationReference × List String) :=
  toDispatchByType.byType.entries.map fun entry => (entry.1, entry.2.asSlice.map (·.subjectId))

/-- An arrow whose tupleset admits both `folder` and `folder#member` loses one of them: the
two subject types map to the same computed relation `folder#view`, and `Map` keeps only the
set it visits last. Whatever order Go visits the map in, LookupSubjects on
`document:d#parent->view` dispatches to `folder:f1` or to `folder:f2`, never to both, though
`document:d` reaches `f1` and `f2` through `parent`. -/
theorem lookupViaTupleToUserset_drops_tupleset_type
    (order : List (Σ _ : RelationReference, SubjectSet) → List (Σ _ : RelationReference, SubjectSet))
    (horder : ∀ entries, (order entries).Perm entries) :
    let userRelation := fun name => Relation.mk name none (some [⟨"user", .relation ellipsis, none⟩]) .RELATION ""
    let folder : NamespaceDefinition := ⟨"folder", [userRelation "member", userRelation "viewer",
      ⟨"view", some (.union [.computedUserset "viewer"]), none, .PERMISSION, ""⟩]⟩
    let parentF1 : RelationTuple := ⟨⟨"document", "d", "parent"⟩, ⟨"folder", "f1", ellipsis⟩, none⟩
    let parentF2 : RelationTuple := ⟨⟨"document", "d", "parent"⟩, ⟨"folder", "f2", "member"⟩, none⟩
    ∃ toDispatch, lookupViaTupleToUserset [folder] [parentF1, parentF2] order "document" ["d"]
        "parent" "view" = .ok toDispatch ∧
      (dispatchToResources toDispatch).map Prod.fst = [⟨"folder", "view"⟩] ∧
      ("f1" ∉ (dispatchToResources toDispatch).flatMap Prod.snd ∨
        "f2" ∉ (dispatchToResources toDispatch).flatMap Prod.snd) := by
  intro userRelation folder parentF1 parentF2
  let filter : RelationshipsFilter := ⟨"document", ["d"], "", "parent", [], ""⟩
  let mapper := computedRelationType [folder] "view"
  let target : RelationReference := ⟨"folder", "view"⟩
  let ids := fun entry : (Σ _ : RelationReference, SubjectSet) => entry.2.asSlice.map (·.subjectId)
  -- both tupleset subjects are read, grouped under `folder#...` and `folder#member`: each
  -- group maps to `folder#view` and holds one of the two folders
  obtain ⟨grouped, hgrouped⟩ := Except.isOk_iff.1
    (show (([parentF1, parentF2].filter filter.test).foldlM SubjectByTypeSet.addSubjectOf
      newSubjectByTypeSet).isOk = true by decide +kernel)
  have hfacts : (Except.map (fun grouped : SubjectByTypeSet =>
      !grouped.byType.entries.isEmpty && grouped.byType.entries.all fun entry =>
        decide (mapper entry.1 = .ok (some target)) &&
          (!(ids entry).contains "f1" || !(ids entry).contains "f2"))
      (([parentF1, parentF2].filter filter.test).foldlM SubjectByTypeSet.addSubjectOf
        newSubjectByTypeSet)) = .ok true := by decide +kernel
  rw [hgrouped] at hfacts
  have hgroups := Except.ok.inj hfacts
  simp only [Bool.and_eq_true] at hgroups
  have hentries : ∀ entry ∈ grouped.byType.entries,
      mapper entry.1 = .ok (some target) ∧ ("f1" ∉ ids entry ∨ "f2" ∉ ids entry) := by
    intro entry hentry
    simpa using List.all_eq_true.1 hgroups.2 entry hentry
  have hnonempty : grouped.byType.entries ≠ [] := by simpa using hgroups.1
  -- `Map` keeps one entry under `folder#view`, the set of the last group it visits
  obtain ⟨toDispatch, hmap, last, hlast, hsingle⟩ := map_eq_single_of_mapper_const grouped order (horder _)
    mapper target hnonempty fun entry hentry => (hentries entry hentry).1
  refine ⟨toDispatch, ?_, ?_, ?_⟩
  · show ((([parentF1, parentF2].filter filter.test).foldlM SubjectByTypeSet.addSubjectOf
      newSubjectByTypeSet) >>= fun grouped => grouped.map order mapper) = .ok toDispatch
    rw [hgrouped]
    exact hmap
  · simp [dispatchToResources, hsingle, target]
  · simpa [dispatchToResources, hsingle, ids] using (hentries last hlast).2

/-- `dispatch.v1.DispatchLookupSubjectsRequest`; the depth of its metadata is the dispatcher's. -/
structure LookupSubjectsRequest where
  resourceRelation : RelationReference
  resourceIds : List String
  subjectRelation : RelationReference
deriving DecidableEq, Repr

/-- A computation publishing LookupSubjects responses: the found subjects of each resource. -/
abbrev LookupSubjectsStream := StreamM FoundSubjectsMap Unit

/-- `subjectsForConcreteIds`: each resource id found as itself. -/
def subjectsForConcreteIds (subjectIds : List String) : FoundSubjectsMap :=
  subjectIds.foldl (fun foundSubjects subjectID => foundSubjects.insert subjectID [⟨subjectID, none, []⟩]) ∅

def combineFoundSubjects (existing : Option (List FoundSubject)) (toAdd : List FoundSubject) : List FoundSubject :=
  match existing with
  | none => toAdd
  | some existing => existing ++ toAdd

/-- The processor of `dispatchTo` at one relationship that led to a dispatched resource: the
found subjects of that resource join those of the relationship's resource, under the
relationship's caveat. -/
def mapThroughRelationship (foundSubjects : List FoundSubject) (mapped : FoundSubjectsMap)
    (relationship : RelationTuple) : Except String FoundSubjectsMap := do
  let existing := mapped.lookup relationship.resourceAndRelation.objectId
  match relationship.caveat with
  | none => pure (mapped.insert relationship.resourceAndRelation.objectId (combineFoundSubjects existing foundSubjects))
  | some _ =>
    let foundSubjectSet ← (newSubjectSet.unionWith foundSubjects).mapError ("could not combine subject sets: " ++ ·)
    pure (mapped.insert relationship.resourceAndRelation.objectId (combineFoundSubjects existing
      (asFoundSubjects (foundSubjectSet.withParentCaveatExpression (Caveats.wrapCaveat relationship.caveat)))))

/-- The processor of `dispatchTo`: the found subjects of each dispatched resource of
`resourceType`, mapped through the relationships stored under the resource's key. -/
def mapFoundSubjects (resourceType : RelationReference) (relationshipsBySubjectONR : MultiMap String RelationTuple)
    (result : FoundSubjectsMap) : Except String FoundSubjectsMap :=
  result.entries.foldlM (fun mapped entry => do
    let subjectKey := stringONR ⟨resourceType.«namespace», entry.1, resourceType.relation⟩
    let relationships := relationshipsBySubjectONR.get subjectKey
    if relationships.isEmpty then
      throw ("missing relationships for subject key " ++ subjectKey ++ "; please report this error")
    relationships.foldlM (mapThroughRelationship entry.2) mapped) ∅

/-- `dispatchTo`: LookupSubjects dispatched on the subjects of each type as resources, in
chunks, each result forwarded through `mapFoundSubjects`. -/
def dispatchTo (dispatch : LookupSubjectsRequest → LookupSubjectsStream) (parentRequest : LookupSubjectsRequest)
    (toDispatchByType : SubjectByTypeSet) (relationshipsBySubjectONR : MultiMap String RelationTuple) :
    LookupSubjectsStream :=
  if toDispatchByType.isEmpty then pure ()
  else toDispatchByType.byType.entries.forM fun entry =>
    (forEachChunk maxDispatchChunkSize (entry.2.asSlice.map (·.subjectId))).forM fun resourceIdChunk =>
      StreamM.wrap (mapFoundSubjects entry.1 relationshipsBySubjectONR)
        (dispatch ⟨entry.1, resourceIdChunk, parentRequest.subjectRelation⟩)

/-- What the loop of `lookupDirectSubjects` builds. -/
structure DirectSubjects where
  foundSubjectsByResourceID : SubjectSetByResourceID
  toDispatchByType : SubjectByTypeSet
  relationshipsBySubjectONR : MultiMap String RelationTuple

/-- The loop of `lookupDirectSubjects` at one relationship: a subject of the subject type is
found, and a userset is kept to dispatch, with the relationship under its key. -/
def lookupDirectStep (subjectRelation : RelationReference) (state : DirectSubjects) (tpl : RelationTuple) :
    Except String DirectSubjects := do
  let foundSubjectsByResourceID ←
    (if tpl.subject.«namespace» = subjectRelation.«namespace» ∧ tpl.subject.relation = subjectRelation.relation then
      (state.foundSubjectsByResourceID.addFromRelationship tpl).mapError
        ("failed to call AddFromRelationship in lookupDirectSubjects: " ++ ·)
    else pure state.foundSubjectsByResourceID)
  if tpl.subject.relation ≠ ellipsis then
    let toDispatchByType ← state.toDispatchByType.addSubjectOf tpl
    pure ⟨foundSubjectsByResourceID, toDispatchByType, state.relationshipsBySubjectONR.add (stringONR tpl.subject) tpl⟩
  else pure { state with foundSubjectsByResourceID }

def lookupDirectSubjects (relationships : List RelationTuple) (dispatch : LookupSubjectsRequest → LookupSubjectsStream)
    (req : LookupSubjectsRequest) : LookupSubjectsStream := do
  let filter : RelationshipsFilter :=
    ⟨req.resourceRelation.«namespace», req.resourceIds, "", req.resourceRelation.relation, [], ""⟩
  let state ← StreamM.ofExcept ((relationships.filter filter.test).foldlM (lookupDirectStep req.subjectRelation)
    ⟨newSubjectSetByResourceID, newSubjectByTypeSet, MultiMap.empty⟩)
  if !state.foundSubjectsByResourceID.isEmpty then
    StreamM.publish state.foundSubjectsByResourceID.asMap
  dispatchTo dispatch req state.toDispatchByType state.relationshipsBySubjectONR

/-- `lookupViaComputed`: LookupSubjects dispatched on the computed relation of the same
resources; a relation missing from the definition finds nothing. -/
def lookupViaComputed (schema : List NamespaceDefinition) (dispatch : LookupSubjectsRequest → LookupSubjectsStream)
    (parentRequest : LookupSubjectsRequest) (computedRelation : String) : LookupSubjectsStream :=
  match checkNamespaceAndRelation schema parentRequest.resourceRelation.«namespace» computedRelation true with
  | .error (.relationNotFound _ _) => pure ()
  | .error err => throw err.message
  | .ok () =>
    dispatch ⟨⟨parentRequest.resourceRelation.«namespace», computedRelation⟩, parentRequest.resourceIds,
      parentRequest.subjectRelation⟩

/-- The relationships multimap of `lookupViaTupleToUserset`: each tupleset relationship under
its subject with the computed relation, the key the dispatched resources come back with. -/
def tuplesetRelationshipsBySubjectONR (tuples : List RelationTuple) (computedUsersetRelation : String) :
    MultiMap String RelationTuple :=
  tuples.foldl (fun relationshipsBySubjectONR tpl => relationshipsBySubjectONR.add
    (stringONR ⟨tpl.subject.«namespace», tpl.subject.objectId, computedUsersetRelation⟩) tpl) MultiMap.empty

/-- `lookupViaTupleToUserset` whole: the mapped tupleset subjects dispatched by `dispatchTo`,
mapped back through the tupleset relationships. -/
def lookupViaTupleToUsersetAndDispatch (schema : List NamespaceDefinition) (relationships : List RelationTuple)
    (order : List (Σ _ : RelationReference, SubjectSet) → List (Σ _ : RelationReference, SubjectSet))
    (dispatch : LookupSubjectsRequest → LookupSubjectsStream) (parentRequest : LookupSubjectsRequest)
    (tuplesetRelation computedUsersetRelation : String) : LookupSubjectsStream := do
  let toDispatchByComputedRelationType ← StreamM.ofExcept (lookupViaTupleToUserset schema relationships order
    parentRequest.resourceRelation.«namespace» parentRequest.resourceIds tuplesetRelation computedUsersetRelation)
  let filter : RelationshipsFilter :=
    ⟨parentRequest.resourceRelation.«namespace», parentRequest.resourceIds, "", tuplesetRelation, [], ""⟩
  dispatchTo dispatch parentRequest toDispatchByComputedRelationType
    (tuplesetRelationshipsBySubjectONR (relationships.filter filter.test) computedUsersetRelation)

/-- The loop of a reducer over what one or more children published: the found subjects are
added up, an error wrapped with `message`. -/
def unionFoundSubjects (message : String) (results : List FoundSubjectsMap) : Except String SubjectSetByResourceID :=
  results.foldlM (fun foundSubjects result => (foundSubjects.unionWith result).mapError (message ++ ·))
    newSubjectSetByResourceID

/-- `lookupSubjectsUnion.CompletedChildOperations`: what every child published, added up, and
published unless empty. -/
def unionCompletedChildOperations (collected : List (List FoundSubjectsMap)) : LookupSubjectsStream := do
  let foundSubjects ← StreamM.ofExcept
    (unionFoundSubjects "failed to UnionWith under lookupSubjectsUnion: " collected.flatten)
  if foundSubjects.isEmpty then pure ()
  else StreamM.publish foundSubjects.asMap

/-- The children after the first of an intersection or an exclusion: each child's results,
added up, are combined into the found subjects, and an empty result ends the reducer. -/
def combineRemaining (message : String)
    (combine : SubjectSetByResourceID → SubjectSetByResourceID → Except String SubjectSetByResourceID) :
    SubjectSetByResourceID → List (List FoundSubjectsMap) → Except String (Option SubjectSetByResourceID)
  | foundSubjects, [] => pure (some foundSubjects)
  | foundSubjects, results :: rest => do
    let results ← unionFoundSubjects message results
    let foundSubjects ← combine foundSubjects results
    if foundSubjects.isEmpty then pure none
    else combineRemaining message combine foundSubjects rest

/-- The `CompletedChildOperations` of an intersection or an exclusion: the first child's
results combined with each later child's, published unless a combination came out empty. -/
def combineCompletedChildOperations (message : String)
    (combine : SubjectSetByResourceID → SubjectSetByResourceID → Except String SubjectSetByResourceID) :
    List (List FoundSubjectsMap) → LookupSubjectsStream
  -- with no child, the zero value's empty map is published
  | [] => StreamM.publish newSubjectSetByResourceID.asMap
  | first :: rest => do
    let foundSubjects ← StreamM.ofExcept (unionFoundSubjects message first)
    match ← StreamM.ofExcept (combineRemaining message combine foundSubjects rest) with
    | none => pure ()
    | some foundSubjects => StreamM.publish foundSubjects.asMap

def intersectionCompletedChildOperations : List (List FoundSubjectsMap) → LookupSubjectsStream :=
  combineCompletedChildOperations "failed to UnionWith under lookupSubjectsIntersection: "
    SubjectSetByResourceID.intersectionDifference

def exclusionCompletedChildOperations : List (List FoundSubjectsMap) → LookupSubjectsStream :=
  combineCompletedChildOperations "failed to UnionWith under lookupSubjectsExclusion: "
    fun foundSubjects results => pure (foundSubjects.subtractAll results)

/-- `lookupSetOperation`, given what the children published or the first error among them. -/
def lookupSetOperation (children : List SetOperationChild) (collected : Except String (List (List FoundSubjectsMap)))
    (completedChildOperations : List (List FoundSubjectsMap) → LookupSubjectsStream) : LookupSubjectsStream := do
  -- the loop returns at `_this` without waiting for the children it started
  if children.any SetOperationChild.isThis then throw "use of _this is unsupported; please rewrite your schema"
  completedChildOperations (← StreamM.ofExcept collected)

section Handler

variable (schema : List NamespaceDefinition) (relationships : List RelationTuple)
  (order : List (Σ _ : RelationReference, SubjectSet) → List (Σ _ : RelationReference, SubjectSet))
  (dispatch : LookupSubjectsRequest → LookupSubjectsStream)

mutual
def lookupViaRewrite (req : LookupSubjectsRequest) : UsersetRewrite → LookupSubjectsStream
  | .union child => lookupSetOperation child (collectChildren req child) unionCompletedChildOperations
  | .intersection child =>
    lookupSetOperation child (collectChildren req child) intersectionCompletedChildOperations
  | .exclusion child => lookupSetOperation child (collectChildren req child) exclusionCompletedChildOperations

/-- The children of a set operation, each run on its collecting stream, up to the first that
fails. -/
def collectChildren (req : LookupSubjectsRequest) : List SetOperationChild → Except String (List (List FoundSubjectsMap))
  | [] => pure []
  | child :: rest => do
    let (published, result) := StreamM.collect (lookupChild req child)
    result
    let others ← collectChildren req rest
    pure (published :: others)

/-- The goroutine `lookupSetOperation` starts for a child; `nil` publishes nothing. -/
def lookupChild (req : LookupSubjectsRequest) : SetOperationChild → LookupSubjectsStream
  | .xThis => throw "use of _this is unsupported; please rewrite your schema"
  | .computedUserset relation => lookupViaComputed schema dispatch req relation
  | .usersetRewrite rewrite => lookupViaRewrite req rewrite
  | .tupleToUserset tuplesetRelation computedUsersetRelation =>
    lookupViaTupleToUsersetAndDispatch schema relationships order dispatch req tuplesetRelation computedUsersetRelation
  | .xNil => pure ()
end

def lookupSubjects (req : LookupSubjectsRequest) : LookupSubjectsStream := do
  if req.resourceIds = [] then throw "no resources ids given to lookupsubjects dispatch"
  -- a request for the resource type itself finds each resource
  if req.subjectRelation.«namespace» = req.resourceRelation.«namespace» ∧
      req.subjectRelation.relation = req.resourceRelation.relation then
    StreamM.publish (subjectsForConcreteIds req.resourceIds)
  let (_, relation) ← StreamM.ofExcept ((readNamespaceAndRelation schema req.resourceRelation.«namespace»
    req.resourceRelation.relation).mapError SchemaError.message)
  match relation.usersetRewrite with
  | none => lookupDirectSubjects relationships dispatch req
  | some rewrite => lookupViaRewrite schema relationships order dispatch req rewrite

end Handler

/-- The local dispatcher's `DispatchLookupSubjects`: with no depth remaining it fails
(`CheckDepth`), and otherwise it runs the handler, dispatching one level deeper. -/
def dispatchLookupSubjects (schema : List NamespaceDefinition) (relationships : List RelationTuple)
    (order : List (Σ _ : RelationReference, SubjectSet) → List (Σ _ : RelationReference, SubjectSet)) :
    ℕ → LookupSubjectsRequest → LookupSubjectsStream
  | 0, _ => throw "max depth exceeded: this usually indicates a recursive or too deep data dependency"
  | depth + 1, req =>
    lookupSubjects schema relationships order (dispatchLookupSubjects schema relationships order depth) req

/-- LookupSubjects on `document:d#view = parent->view` misses a subject Check grants. Both
`user:u1` and `user:u2` are members of `document:d#view`, through `folder:f1` and through
`folder:f2#member`. Whatever order `Map` visits the tupleset types in, only one of the two folders
is dispatched; visiting them in the order of the entries, LookupSubjects finds `u1` alone, and in
the other order `u2` alone. -/
theorem lookupSubjects_misses_subject_of_other_tupleset_type :
    let userRelation : String → Relation := fun name => Relation.mk name none (some [⟨"user", .relation ellipsis, none⟩]) .RELATION ""
    let folder : NamespaceDefinition := ⟨"folder", [userRelation "member", userRelation "viewer",
      ⟨"view", some (.union [.computedUserset "viewer"]), none, .PERMISSION, ""⟩]⟩
    let document : NamespaceDefinition := ⟨"document", [⟨"parent", none,
        some [⟨"folder", .relation ellipsis, none⟩, ⟨"folder", .relation "member", none⟩], .RELATION, ""⟩,
      ⟨"view", some (.union [.tupleToUserset "parent" "view"]), none, .PERMISSION, ""⟩]⟩
    let schema := [⟨"user", []⟩, folder, document]
    let parentF1 : RelationTuple := ⟨⟨"document", "d", "parent"⟩, ⟨"folder", "f1", ellipsis⟩, none⟩
    let parentF2 : RelationTuple := ⟨⟨"document", "d", "parent"⟩, ⟨"folder", "f2", "member"⟩, none⟩
    let relationships := [parentF1, parentF2, ⟨⟨"folder", "f1", "viewer"⟩, ⟨"user", "u1", ellipsis⟩, none⟩,
      ⟨⟨"folder", "f2", "viewer"⟩, ⟨"user", "u2", ellipsis⟩, none⟩]
    let req : LookupSubjectsRequest := ⟨⟨"document", "view"⟩, ["d"], ⟨"user", ellipsis⟩⟩
    let found := fun order => StreamM.collect (dispatchLookupSubjects schema relationships order 4 req)
    let foundIds := fun order =>
      (found order).1.flatMap fun response => ((response.lookup "d").getD []).map (·.subjectId)
    member schema relationships (fun _ => true) 4 ⟨"document", "d", "view"⟩ ⟨"user", "u1", ellipsis⟩ = true ∧
      member schema relationships (fun _ => true) 4 ⟨"document", "d", "view"⟩ ⟨"user", "u2", ellipsis⟩ = true ∧
      (∀ order : List (Σ _ : RelationReference, SubjectSet) → List (Σ _ : RelationReference, SubjectSet),
        (∀ entries, (order entries).Perm entries) →
        ∃ toDispatch, lookupViaTupleToUserset [folder] [parentF1, parentF2] order "document" ["d"]
            "parent" "view" = .ok toDispatch ∧
          ("f1" ∉ (dispatchToResources toDispatch).flatMap Prod.snd ∨
            "f2" ∉ (dispatchToResources toDispatch).flatMap Prod.snd)) ∧
      (found id).2 = .ok () ∧ foundIds id = ["u1"] ∧
      (found List.reverse).2 = .ok () ∧ foundIds List.reverse = ["u2"] := by
  intro userRelation folder document schema parentF1 parentF2 relationships req found foundIds
  refine ⟨by decide +kernel, by decide +kernel, fun order horder => ?_, by decide +kernel, by decide +kernel,
    by decide +kernel, by decide +kernel⟩
  obtain ⟨toDispatch, hok, -, hmissing⟩ := lookupViaTupleToUserset_drops_tupleset_type order horder
  exact ⟨toDispatch, hok, hmissing⟩

end SpiceDB.Graph
