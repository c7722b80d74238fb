import SpiceDB.Graph.Expand
import SpiceDB.Graph.CheckSound
import SpiceDB.DevelopmentMembership.Membership
import SpiceDB.Lib.Delimited

namespace SpiceDB

mutual
/-- Every intersection of a rewrite has a child. -/
def UsersetRewrite.intersectionsHaveChildren : UsersetRewrite → Bool
  | .union children => SetOperationChild.allIntersectionsHaveChildren children
  | .intersection children =>
    !children.isEmpty && SetOperationChild.allIntersectionsHaveChildren children
  | .exclusion children => SetOperationChild.allIntersectionsHaveChildren children

/-- Every intersection below a child has a child. -/
def SetOperationChild.intersectionsHaveChildren : SetOperationChild → Bool
  | .usersetRewrite rewrite => rewrite.intersectionsHaveChildren
  | _ => true

/-- Every intersection below the children has a child. -/
def SetOperationChild.allIntersectionsHaveChildren : List SetOperationChild → Bool
  | [] => true
  | child :: rest =>
    child.intersectionsHaveChildren && SetOperationChild.allIntersectionsHaveChildren rest
end

namespace Graph

open Caveats Datastore Typesystem DevelopmentMembership RelationTupleTreeNode

/-- A schema without exclusion whose intersections have children, and where no relation is
named as the ellipsis, so that no relation of a resource is a terminal subject. -/
structure ExpandableSchema (schema : List NamespaceDefinition) : Prop extends ExclusionFreeSchema schema where
  relationNotEllipsis : ∀ ns ∈ schema, ∀ relation ∈ ns.relation, relation.name ≠ ellipsis
  intersectionsHaveChildren : ∀ ns ∈ schema, ∀ relation ∈ ns.relation,
    relation.usersetRewrite.all UsersetRewrite.intersectionsHaveChildren = true

/-- No subject relation of a relationship holds a `#`. -/
def SubjectRelationsPlain (relationships : List RelationTuple) : Prop :=
  ∀ tpl ∈ relationships, '#' ∉ tpl.subject.relation.toList

theorem keyFor_eq_keyFor_iff {a b : ObjectAndRelation} (ha : '#' ∉ a.relation.toList)
    (hb : '#' ∉ b.relation.toList) :
    TrackingSubjectSet.keyFor a = TrackingSubjectSet.keyFor b ↔
      a.«namespace» = b.«namespace» ∧ a.relation = b.relation := by
  constructor
  · intro h
    have hlist := congrArg String.toList h
    simp only [TrackingSubjectSet.keyFor, joinRelRef, String.toList_append, List.append_assoc] at hlist
    obtain ⟨hns, hrelation⟩ := Delimited.append_cons_inj_right ha hb hlist
    exact ⟨String.toList_inj.1 hns, String.toList_inj.1 hrelation⟩
  · rintro ⟨hns, hrelation⟩
    simp [TrackingSubjectSet.keyFor, hns, hrelation]

theorem test_relationshipsFilterFor {resource : ObjectAndRelation} {relation : String}
    (hns : resource.«namespace» ≠ "") (hrelation : relation ≠ "") (tpl : RelationTuple) :
    (relationshipsFilterFor resource relation).test tpl =
      decide (tpl.resourceAndRelation = ⟨resource.«namespace», resource.objectId, relation⟩) := by
  obtain ⟨⟨ns, objectId, rel⟩, subject, caveat⟩ := tpl
  by_cases h : ns = resource.«namespace» ∧ objectId = resource.objectId ∧ rel = relation
  · obtain ⟨rfl, rfl, rfl⟩ := h
    simp [RelationshipsFilter.test, relationshipsFilterFor]
  · simp only [RelationshipsFilter.test, relationshipsFilterFor, ObjectAndRelation.mk.injEq] at h ⊢
    grind

theorem any_ite_eq_filter {α : Type} (l : List α) (p : α → Prop) [DecidablePred p] (f g : α → Bool) :
    l.any (fun a => if p a then f a else g a) =
      ((l.filter fun a => decide (p a)).any f || (l.filter fun a => decide ¬p a).any g) := by
  induction l with
  | nil => rfl
  | cons a l ih =>
    by_cases h : p a
    · simp [h, ih, Bool.or_assoc]
    · simp [h, ih, Bool.or_left_comm]

theorem any_congr_of_mem {α : Type} {l : List α} {p q : α → Bool} (h : ∀ a ∈ l, p a = q a) :
    l.any p = l.any q := by
  rw [Bool.eq_iff_iff, List.any_eq_true, List.any_eq_true]
  exact exists_congr fun a => and_congr_right fun ha => by rw [h a ha]

section Relationship

variable {v : Valuation} {x : ObjectAndRelation} {tpl : RelationTuple}

/-- A relationship of the resource gives a terminal subject as its own subject, or the
wildcard of its type, when that is terminal, and through its userset otherwise. -/
theorem directMatch_eq_ite {memberOf : ObjectAndRelation → ObjectAndRelation → Bool}
    {resource : ObjectAndRelation} (hresource : tpl.resourceAndRelation = resource)
    (hplain : '#' ∉ tpl.subject.relation.toList) (hx : x.relation = ellipsis) :
    directMatch v memberOf resource x tpl =
      if tpl.subject.relation = ellipsis then
        (directSubjectOf tpl).holds v (TrackingSubjectSet.keyFor x) x.objectId
      else evalCaveat v (wrapCaveat tpl.caveat) && memberOf tpl.subject x := by
  have hkey := @keyFor_eq_keyFor_iff tpl.subject x hplain (by rw [hx]; decide)
  obtain ⟨ns, objectId, relation⟩ := x
  obtain ⟨resourceAndRelation, ⟨subjectNs, subjectId, subjectRelation⟩, caveat⟩ := tpl
  dsimp only at hx hkey hplain hresource ⊢
  subst hx hresource
  by_cases hterminal : subjectRelation = ellipsis
  · subst hterminal
    simp only [directMatch, DirectSubject.holds, directSubjectOf, hkey, wildcardMatches,
      caveatHolds_eq_evalCaveat, ObjectAndRelation.mk.injEq, if_true]
    cases evalCaveat v (wrapCaveat caveat) <;> by_cases hns : subjectNs = ns <;> simp [hns]
    -- the caveat holds and the types agree: the same two tests of the id, in the other order
    exact Bool.or_comm _ _
  · simp [directMatch, wildcardMatches, caveatHolds_eq_evalCaveat, hterminal]

theorem holds_directSubjectOf_eq_false (hplain : '#' ∉ tpl.subject.relation.toList)
    (hx : x.relation = ellipsis) (hnonterminal : tpl.subject.relation ≠ ellipsis) :
    (directSubjectOf tpl).holds v (TrackingSubjectSet.keyFor x) x.objectId = false := by
  have hkey := @keyFor_eq_keyFor_iff tpl.subject x hplain (by rw [hx]; decide)
  simp [DirectSubject.holds, directSubjectOf, hkey, hx, hnonterminal]

end Relationship

section Missing

variable {schema : List NamespaceDefinition} {relationships : List RelationTuple} {v : Valuation}

/-- A relation `CheckNamespaceAndRelation` does not find is no relation of the definition. -/
theorem relationOf_eq_none_of_relationNotFound {nsName relationName n r : String}
    (h : checkNamespaceAndRelation schema nsName relationName true = .error (.relationNotFound n r))
    (objectId : String) :
    relationName ≠ ellipsis ∧ relationOf schema ⟨nsName, objectId, relationName⟩ = none := by
  unfold checkNamespaceAndRelation readNamespaceByName at h
  cases hfind : schema.find? (·.name = nsName) with
  | none => simp [hfind] at h
  | some ns =>
    by_cases hellipsis : relationName = ellipsis
    · simp [hfind, hellipsis] at h
    · have hany : ¬∃ relation ∈ ns.relation, relation.name = relationName := by
        intro hsome
        simp [hfind, hellipsis, hsome] at h
      refine ⟨hellipsis, ?_⟩
      simpa [relationOf, hfind, List.find?_eq_none] using hany

theorem member_eq_false_of_relationOf {depth : ℕ} {resource x : ObjectAndRelation}
    (hresource : relationOf schema resource = none) (hne : resource.relation ≠ x.relation) :
    member schema relationships v depth resource x = false := by
  cases depth with
  | zero => rfl
  | succ depth =>
    have hself : resource ≠ x := fun h => hne (h ▸ rfl)
    simp [member, hresource, hself]

theorem member_eq_hasRelation_and {depth : ℕ} {nsName objectId relationName : String} {x : ObjectAndRelation}
    (hrelation : relationName ≠ ellipsis) (hx : x.relation = ellipsis) :
    member schema relationships v depth ⟨nsName, objectId, relationName⟩ x =
      (hasRelation schema nsName relationName &&
        member schema relationships v depth ⟨nsName, objectId, relationName⟩ x) := by
  cases hhas : hasRelation schema nsName relationName with
  | true => rfl
  | false =>
    -- `relationOf` reads the type and the relation only
    have hnone : relationOf schema ⟨nsName, objectId, relationName⟩ = none := by
      simpa [hasRelation, relationOf] using hhas
    exact member_eq_false_of_relationOf hnone (hx ▸ hrelation)

theorem member_succ_of_direct {depth : ℕ} {resource x : ObjectAndRelation} {relation : Relation}
    (hrelation : relationOf schema resource = some relation) (hrewrite : relation.usersetRewrite = none)
    (hself : resource ≠ x) :
    member schema relationships v (depth + 1) resource x =
      relationships.any (directMatch v (member schema relationships v depth) resource x) := by
  simp [member, hrelation, hrewrite, hself]

theorem member_succ_of_rewrite {depth : ℕ} {resource x : ObjectAndRelation} {relation : Relation}
    {rewrite : UsersetRewrite} (hrelation : relationOf schema resource = some relation)
    (hrewrite : relation.usersetRewrite = some rewrite) (hself : resource ≠ x) :
    member schema relationships v (depth + 1) resource x =
      rewrite.denote (atomHolds schema relationships v (member schema relationships v depth) resource x) := by
  simp [member, hrelation, hrewrite, hself]

end Missing

/-- A result whose tree has no exclusion and says, of each terminal subject, what `holds`
says. -/
def ExpandsTo (holds : Valuation → ObjectAndRelation → Bool) (result : ExpandResult) : Prop :=
  ∀ tree, result = .ok tree → tree.exclusionFree = true ∧
    ∀ v x, x.relation = ellipsis → tree.denote v (TrackingSubjectSet.keyFor x) x.objectId = holds v x

section ExpandsTo

variable {holds holds' : Valuation → ObjectAndRelation → Bool} {result : ExpandResult}

theorem expandsTo_error (holds : Valuation → ObjectAndRelation → Bool) (err : String) :
    ExpandsTo holds (.error err) := by
  intro tree h
  cases h

theorem expandsTo_emptyExpansion (start : ObjectAndRelation) :
    ExpandsTo (fun _ _ => false) (emptyExpansion start) := by
  intro tree h
  rw [emptyExpansion, Except.pure_eq_ok, Except.ok.injEq] at h
  subst h
  exact ⟨rfl, fun v x _ => by simp [denote]⟩

theorem ExpandsTo.congr (h : ExpandsTo holds result)
    (heq : ∀ v x, x.relation = ellipsis → holds v x = holds' v x) : ExpandsTo holds' result := by
  intro tree htree
  obtain ⟨hfree, hden⟩ := h tree htree
  exact ⟨hfree, fun v x hx => (hden v x hx).trans (heq v x hx)⟩

theorem ExpandsTo.decorate (h : ExpandsTo holds result)
    (hroot : ∀ tree, result = .ok tree → tree.caveatExpression = none) (c : Option CaveatExpression) :
    ExpandsTo (fun v x => evalCaveat v c && holds v x) (decorateWithCaveatIfNecessary result c) := by
  cases c with
  | none => exact h.congr fun v x _ => by simp [evalCaveat]
  | some caveatExpr =>
    intro tree htree
    obtain ⟨inner, hinner, htree⟩ := Except.bind_eq_ok.1 htree
    rw [Except.pure_eq_ok, Except.ok.injEq] at htree
    subst htree
    obtain ⟨hfree, hden⟩ := h inner hinner
    refine ⟨by rw [exclusionFree_setCaveatExpression]; exact hfree, fun v x hx => ?_⟩
    rw [denote_setCaveatExpression (hroot inner hinner), hden v x hx]

/-- The children of a set operation over some items' requests are, in order, trees that say
what the items do. -/
theorem expandsTo_children {γ : Type} {items : List γ} {children : List RelationTupleTreeNode}
    {f : γ → ExpandResult} {holds : γ → Valuation → ObjectAndRelation → Bool}
    (h : List.Forall₂ (fun item child => f item = .ok child) items children)
    (hitems : ∀ item ∈ items, ExpandsTo (holds item) (f item)) :
    allExclusionFree children = true ∧ ∀ v x, x.relation = ellipsis →
      RelationTupleTreeNode.denoteAny v (TrackingSubjectSet.keyFor x) x.objectId children =
        items.any (holds · v x) ∧
      RelationTupleTreeNode.denoteAll v (TrackingSubjectSet.keyFor x) x.objectId children =
        items.all (holds · v x) := by
  induction h with
  | nil => exact ⟨rfl, fun _ _ _ => ⟨rfl, rfl⟩⟩
  | @cons item child items children hchild _ ih =>
    obtain ⟨hfree, hden⟩ := hitems item List.mem_cons_self child hchild
    obtain ⟨hfree', hden'⟩ := ih fun item' h' => hitems item' (List.mem_cons_of_mem item h')
    refine ⟨by simp [allExclusionFree, hfree, hfree'], fun v x hx => ?_⟩
    rw [RelationTupleTreeNode.denoteAny, RelationTupleTreeNode.denoteAll, hden v x hx,
      (hden' v x hx).1, (hden' v x hx).2, List.any_cons, List.all_cons]
    exact ⟨rfl, rfl⟩

theorem expandsTo_expandAny {γ : Type} {items : List γ} {f : γ → ExpandResult}
    {holds : γ → Valuation → ObjectAndRelation → Bool}
    (hitems : ∀ item ∈ items, ExpandsTo (holds item) (f item)) (start : ObjectAndRelation) :
    ExpandsTo (fun v x => items.any (holds · v x)) (expandAny start (items.map f)) := by
  intro tree htree
  obtain ⟨children, hchildren, rfl⟩ := forall₂_of_expandSetOperation htree
  obtain ⟨hfree, hden⟩ := expandsTo_children hchildren hitems
  exact ⟨hfree, fun v x hx => by simp [setResult, denote, evalCaveat, (hden v x hx).1]⟩

theorem expandsTo_expandAll {γ : Type} {items : List γ} {f : γ → ExpandResult}
    {holds : γ → Valuation → ObjectAndRelation → Bool} (hne : items ≠ [])
    (hitems : ∀ item ∈ items, ExpandsTo (holds item) (f item)) (start : ObjectAndRelation) :
    ExpandsTo (fun v x => items.all (holds · v x)) (expandAll start (items.map f)) := by
  intro tree htree
  obtain ⟨children, hchildren, rfl⟩ := forall₂_of_expandSetOperation htree
  obtain ⟨hfree, hden⟩ := expandsTo_children hchildren hitems
  -- the intersection has as many children as items
  have hchildrenNe : children ≠ [] := by
    rintro rfl
    exact hne (List.forall₂_nil_right_iff.1 hchildren)
  refine ⟨by simp [setResult, exclusionFree, hchildrenNe, hfree], fun v x hx => ?_⟩
  simp [setResult, denote, evalCaveat, (hden v x hx).2]

end ExpandsTo

/-- The dispatcher one level down: in a recursive expansion, a tree of the members of the
userset at `depth`, with no caveat at its root. -/
structure DispatchExpands (schema : List NamespaceDefinition) (relationships : List RelationTuple)
    (depth : ℕ) (dispatch : ExpandRequest → ExpandResult) : Prop where
  expandsTo : ∀ req : ExpandRequest, req.expansionMode = .RECURSIVE →
    ExpandsTo (fun v x => member schema relationships v depth req.resourceAndRelation x) (dispatch req)
  caveatExpression : ∀ req tree, dispatch req = .ok tree → tree.caveatExpression = none

section Expander

variable {schema : List NamespaceDefinition} {relationships : List RelationTuple}
  {dispatch : ExpandRequest → ExpandResult} {depth : ℕ} {req : ExpandRequest}

theorem expandComputedUserset_expandsTo (hd : DispatchExpands schema relationships depth dispatch)
    (hmode : req.expansionMode = .RECURSIVE) (computedRelation : String) (tpl : Option RelationTuple) :
    let start := (tpl.map RelationTuple.subject).getD req.resourceAndRelation
    ExpandsTo (fun v x => member schema relationships v depth ⟨start.«namespace», start.objectId, computedRelation⟩ x)
      (ConcurrentExpander.expandComputedUserset schema dispatch req computedRelation tpl) := by
  intro start tree htree
  rcases expandComputedUserset_eq_ok htree with ⟨n, r, hcheck, rfl⟩ | ⟨-, hdispatch⟩
  · obtain ⟨hrelation, hnone⟩ := relationOf_eq_none_of_relationNotFound hcheck start.objectId
    refine expandsTo_emptyExpansion req.resourceAndRelation |>.congr ?_ _ rfl
    intro v x hx
    exact (member_eq_false_of_relationOf hnone (hx ▸ hrelation)).symm
  · exact hd.expandsTo ⟨⟨start.«namespace», start.objectId, computedRelation⟩, req.expansionMode⟩ hmode
      tree hdispatch

theorem caveatExpression_expandComputedUserset (hd : DispatchExpands schema relationships depth dispatch)
    {computedRelation : String} {tpl : Option RelationTuple} {tree : RelationTupleTreeNode}
    (h : ConcurrentExpander.expandComputedUserset schema dispatch req computedRelation tpl = .ok tree) :
    tree.caveatExpression = none := by
  rcases expandComputedUserset_eq_ok h with ⟨-, -, -, rfl⟩ | ⟨-, hdispatch⟩
  · rfl
  · exact hd.caveatExpression _ _ hdispatch

/-- An arrow says who the computed relation of some subject of its tupleset has, under the
caveat of the relationship. -/
theorem expandTupleToUserset_expandsTo (hd : DispatchExpands schema relationships depth dispatch)
    (hmode : req.expansionMode = .RECURSIVE) (hns : req.resourceAndRelation.«namespace» ≠ "")
    {tuplesetRelation computedRelation : String} (htupleset : tuplesetRelation ≠ "")
    (hcomputed : computedRelation ≠ ellipsis) :
    ExpandsTo (fun v x => atomHolds schema relationships v (member schema relationships v depth)
        req.resourceAndRelation x (.arrow tuplesetRelation computedRelation))
      (ConcurrentExpander.expandTupleToUserset schema relationships dispatch req tuplesetRelation
        computedRelation) := by
  unfold ConcurrentExpander.expandTupleToUserset
  refine (expandsTo_expandAny (fun tpl _ =>
    (expandComputedUserset_expandsTo hd hmode computedRelation (some tpl)).decorate
      (fun _ => caveatExpression_expandComputedUserset hd) _) _).congr ?_
  intro v x hx
  rw [List.any_filter, atomHolds]
  refine congrArg relationships.any (funext fun tpl => ?_)
  -- an arrow to a relation the subject's type lacks reads nothing
  rw [test_relationshipsFilterFor hns htupleset, caveatHolds_eq_evalCaveat,
    member_eq_hasRelation_and hcomputed hx]
  simp [Bool.and_assoc]

theorem expandChildren_eq_map (children : List SetOperationChild) :
    ConcurrentExpander.expandChildren schema relationships dispatch req children =
      children.map (ConcurrentExpander.expandChild schema relationships dispatch req) := by
  induction children with
  | nil => rfl
  | cons child rest ih => rw [ConcurrentExpander.expandChildren, ih, List.map_cons]

mutual
/-- A rewrite says what its formula does, read over the atoms one relation down. -/
theorem expandUsersetRewrite_expandsTo (hd : DispatchExpands schema relationships depth dispatch)
    (hmode : req.expansionMode = .RECURSIVE) (hns : req.resourceAndRelation.«namespace» ≠ "") :
    ∀ rewrite : UsersetRewrite,
    rewrite.exclusionFree = true → rewrite.intersectionsHaveChildren = true →
    ExpandsTo (fun v x => rewrite.denote
        (atomHolds schema relationships v (member schema relationships v depth) req.resourceAndRelation x))
      (ConcurrentExpander.expandUsersetRewrite schema relationships dispatch req rewrite)
  | .union children, hfree, hne => by
    intro tree htree
    rw [ConcurrentExpander.expandUsersetRewrite] at htree
    obtain ⟨-, htree⟩ := ConcurrentExpander.expandSetOperation_eq_ok htree
    rw [expandChildren_eq_map] at htree
    refine (expandsTo_expandAny (expandChildren_expandsTo hd hmode hns children hfree hne) _).congr ?_ tree htree
    intro v x _
    rw [UsersetRewrite.denote, denoteAny_eq_any]
  | .intersection children, hfree, hne => by
    intro tree htree
    rw [ConcurrentExpander.expandUsersetRewrite] at htree
    obtain ⟨-, htree⟩ := ConcurrentExpander.expandSetOperation_eq_ok htree
    rw [expandChildren_eq_map] at htree
    simp only [UsersetRewrite.intersectionsHaveChildren, Bool.and_eq_true, Bool.not_eq_true',
      List.isEmpty_eq_false_iff] at hne
    refine (expandsTo_expandAll hne.1 (expandChildren_expandsTo hd hmode hns children hfree hne.2) _).congr ?_ tree htree
    intro v x _
    rw [UsersetRewrite.denote, denoteAll_eq_all]
  | .exclusion _, hfree, _ => by cases hfree

/-- Each child of a set operation says what it does. -/
theorem expandChildren_expandsTo (hd : DispatchExpands schema relationships depth dispatch)
    (hmode : req.expansionMode = .RECURSIVE) (hns : req.resourceAndRelation.«namespace» ≠ "") :
    ∀ children : List SetOperationChild,
    SetOperationChild.allExclusionFree children = true →
    SetOperationChild.allIntersectionsHaveChildren children = true →
    ∀ child ∈ children, ExpandsTo (fun v x => child.denote
        (atomHolds schema relationships v (member schema relationships v depth) req.resourceAndRelation x))
      (ConcurrentExpander.expandChild schema relationships dispatch req child)
  | [], _, _ => by simp
  | first :: rest, hfree, hne => by
    simp only [SetOperationChild.allExclusionFree, SetOperationChild.allIntersectionsHaveChildren,
      Bool.and_eq_true] at hfree hne
    exact List.forall_mem_cons.2
      ⟨expandChild_expandsTo hd hmode hns first hfree.1 hne.1,
        expandChildren_expandsTo hd hmode hns rest hfree.2 hne.2⟩

/-- A child says what it does: a computed userset the relation of the resource, an arrow the
relations of the tupleset's subjects, a nested rewrite its formula and `nil` nothing. -/
theorem expandChild_expandsTo (hd : DispatchExpands schema relationships depth dispatch)
    (hmode : req.expansionMode = .RECURSIVE) (hns : req.resourceAndRelation.«namespace» ≠ "") :
    ∀ child : SetOperationChild,
    child.exclusionFree = true → child.intersectionsHaveChildren = true →
    ExpandsTo (fun v x => child.denote
        (atomHolds schema relationships v (member schema relationships v depth) req.resourceAndRelation x))
      (ConcurrentExpander.expandChild schema relationships dispatch req child)
  | .xThis, _, _ => expandsTo_error _ _
  | .computedUserset relation, _, _ => by
    rw [ConcurrentExpander.expandChild]
    exact expandComputedUserset_expandsTo hd hmode relation none
  | .usersetRewrite rewrite, hfree, hne => by
    rw [ConcurrentExpander.expandChild]
    exact expandUsersetRewrite_expandsTo hd hmode hns rewrite hfree hne
  | .tupleToUserset tuplesetRelation computedRelation, hfree, _ => by
    simp only [SetOperationChild.exclusionFree, Bool.and_eq_true, decide_eq_true_eq] at hfree
    rw [ConcurrentExpander.expandChild]
    exact expandTupleToUserset_expandsTo hd hmode hns hfree.1 hfree.2
  | .xNil, _, _ => by
    rw [ConcurrentExpander.expandChild]
    exact expandsTo_emptyExpansion _ |>.congr fun _ _ _ => rfl
end

/-- A relation read from its relationships says what they give: its terminal subjects in the
leaf, and the members of its usersets, under the relationships' caveats, in the trees beside
it. -/
theorem expandDirect_expandsTo (hd : DispatchExpands schema relationships depth dispatch)
    (hmode : req.expansionMode = .RECURSIVE) (hplain : SubjectRelationsPlain relationships)
    (hns : req.resourceAndRelation.«namespace» ≠ "") (hrelation : req.resourceAndRelation.relation ≠ "") :
    ExpandsTo (fun v x => relationships.any
        (directMatch v (member schema relationships v depth) req.resourceAndRelation x))
      (ConcurrentExpander.expandDirect relationships dispatch req) := by
  intro tree htree
  have hfilter : ∀ tpl, (relationshipsFilterFor req.resourceAndRelation req.resourceAndRelation.relation).test tpl =
      decide (tpl.resourceAndRelation = req.resourceAndRelation) :=
    test_relationshipsFilterFor hns hrelation
  set tuples := relationships.filter
    (relationshipsFilterFor req.resourceAndRelation req.resourceAndRelation.relation).test with htuples
  set terminal := tuples.filter (·.subject.relation = ellipsis)
  set nonTerminal := tuples.filter (·.subject.relation ≠ ellipsis)
  have hplainTuples : ∀ tpl ∈ tuples, '#' ∉ tpl.subject.relation.toList :=
    fun tpl htpl => hplain tpl (List.mem_of_mem_filter htpl)
  -- the relationships of the resource, split as the leaf and the trees beside it read them
  have hsplit : ∀ v x, x.relation = ellipsis →
      relationships.any (directMatch v (member schema relationships v depth) req.resourceAndRelation x) =
        (terminal.any (fun tpl => (directSubjectOf tpl).holds v (TrackingSubjectSet.keyFor x) x.objectId) ||
          nonTerminal.any fun tpl =>
            evalCaveat v (wrapCaveat tpl.caveat) && member schema relationships v depth tpl.subject x) := by
    intro v x hx
    rw [← any_ite_eq_filter, htuples, List.any_filter]
    refine any_congr_of_mem fun tpl htpl => ?_
    rw [hfilter]
    by_cases hresource : tpl.resourceAndRelation = req.resourceAndRelation
    · rw [directMatch_eq_ite hresource (hplain tpl htpl) hx]
      simp [hresource]
    · simp [directMatch, hresource]
  -- no userset's relationship has a terminal subject in the leaf
  have hleaf : ∀ v x, x.relation = ellipsis →
      (RelationTupleTreeNode.leafNode (terminal.map directSubjectOf ++ nonTerminal.map directSubjectOf)
          (some req.resourceAndRelation) none).denote v (TrackingSubjectSet.keyFor x) x.objectId =
        terminal.any fun tpl => (directSubjectOf tpl).holds v (TrackingSubjectSet.keyFor x) x.objectId := by
    intro v x hx
    have hnone : (nonTerminal.any fun tpl =>
        (directSubjectOf tpl).holds v (TrackingSubjectSet.keyFor x) x.objectId) = false := by
      refine List.any_eq_false.2 fun tpl htpl => ?_
      have hnt : tpl.subject.relation ≠ ellipsis := by simpa using (List.mem_filter.1 htpl).2
      rw [holds_directSubjectOf_eq_false (hplainTuples tpl (List.mem_of_mem_filter htpl)) hx hnt]
      exact Bool.false_ne_true
    simp [denote, evalCaveat, List.any_map, Function.comp_def, hnone]
  rcases expandDirect_eq_ok htree with ⟨hleafOnly, rfl⟩ | ⟨children, hchildren, rfl⟩
  · -- a recursive expansion stops at the leaf only where there is no userset
    have hempty : nonTerminal = [] := hleafOnly.resolve_left (by simp [hmode])
    refine ⟨rfl, fun v x hx => ?_⟩
    dsimp only
    rw [hleaf v x hx, hsplit v x hx, hempty, List.any_nil, Bool.or_false]
  · obtain ⟨hfree, hden⟩ := expandsTo_children hchildren fun tpl _ =>
      (hd.expandsTo ⟨tpl.subject, req.expansionMode⟩ hmode).decorate (hd.caveatExpression _) _
    refine ⟨?_, fun v x hx => ?_⟩
    · rw [setResult, exclusionFree, allExclusionFree_iff]
      intro child hchild
      rcases List.mem_append.1 hchild with hchild | hchild
      · exact (allExclusionFree_iff children).1 hfree child hchild
      · rw [List.mem_singleton.1 hchild]
        rfl
    · dsimp only
      rw [setResult, denote, evalCaveat_none, Bool.true_and, RelationTupleTreeNode.denoteAny_eq_any,
        List.any_append, List.any_cons, List.any_nil, Bool.or_false, ← RelationTupleTreeNode.denoteAny_eq_any,
        (hden v x hx).1, hleaf v x hx, hsplit v x hx, Bool.or_comm]

end Expander

/-- A recursive expansion at every depth gives, for each userset, a tree of its members at that
depth. -/
theorem dispatchExpand_dispatchExpands {schema : List NamespaceDefinition} {relationships : List RelationTuple}
    (hschema : ExpandableSchema schema) (hplain : SubjectRelationsPlain relationships) :
    ∀ depth, DispatchExpands schema relationships depth (dispatchExpand schema relationships depth)
  | 0 => ⟨fun _ _ => expandsTo_error _ _, fun _ _ => caveatExpression_dispatchExpand⟩
  | depth + 1 => by
    have hd := dispatchExpand_dispatchExpands hschema hplain depth
    refine ⟨fun req hmode tree htree => ?_, fun _ _ => caveatExpression_dispatchExpand⟩
    obtain ⟨ns, hread, h⟩ := Except.bind_eq_ok.1 htree
    obtain ⟨relation, hrelation, h⟩ := Except.bind_eq_ok.1 h
    obtain ⟨hnsMem, hrelMem, hnsName, hrelName, hrelationOf⟩ := relationOf_of_read hread hrelation
    have hrelationOfResource : relationOf schema req.resourceAndRelation = some relation := hrelationOf _
    have hns : req.resourceAndRelation.«namespace» ≠ "" := hnsName ▸ hschema.namespaceNamed ns hnsMem
    have hrel : req.resourceAndRelation.relation ≠ "" := hrelName ▸ hschema.relationNamed ns hnsMem relation hrelMem
    -- a relation is never the terminal subject itself
    have hself : ∀ x : ObjectAndRelation, x.relation = ellipsis → req.resourceAndRelation ≠ x :=
      fun x hx hsame => hschema.relationNotEllipsis ns hnsMem relation hrelMem (hrelName.trans (hsame ▸ hx))
    unfold ConcurrentExpander.expand at h
    split at h
    · rename_i hrewrite
      obtain ⟨hfree, hden⟩ := expandDirect_expandsTo hd hmode hplain hns hrel tree h
      refine ⟨hfree, fun v x hx => ?_⟩
      rw [hden v x hx]
      exact (member_succ_of_direct hrelationOfResource hrewrite (hself x hx)).symm
    · rename_i rewrite hrewrite
      have hfree := hschema.rewriteExclusionFree ns hnsMem relation hrelMem
      have hne := hschema.intersectionsHaveChildren ns hnsMem relation hrelMem
      rw [hrewrite, Option.all_some] at hfree hne
      obtain ⟨hfree, hden⟩ := expandUsersetRewrite_expandsTo hd hmode hns rewrite hfree hne tree h
      refine ⟨hfree, fun v x hx => ?_⟩
      rw [hden v x hx]
      exact (member_succ_of_rewrite hrelationOfResource hrewrite (hself x hx)).symm

/-- A recursive expansion that succeeds over an expandable schema gives, through
`AccessibleExpansionSubjects`, exactly the terminal subjects that are members of the userset at
the dispatcher's depth, under every valuation of the caveats. -/
theorem accessibleExpansionSubjects_dispatchExpand {schema : List NamespaceDefinition}
    {relationships : List RelationTuple} (hschema : ExpandableSchema schema)
    (hplain : SubjectRelationsPlain relationships) (depth : ℕ) (req : ExpandRequest)
    (hmode : req.expansionMode = .RECURSIVE) {tree : RelationTupleTreeNode}
    (htree : dispatchExpand schema relationships depth req = .ok tree) :
    ∃ subjects, accessibleExpansionSubjects tree = .ok subjects ∧
      ∀ v x, x.relation = ellipsis →
        subjects.hasSubject v x = member schema relationships v depth req.resourceAndRelation x := by
  obtain ⟨hfree, hden⟩ :=
    (dispatchExpand_dispatchExpands hschema hplain depth).expandsTo req hmode tree htree
  obtain ⟨subjects, hsubjects, -, hmember⟩ := populateFoundSubjects_denote tree hfree
  exact ⟨subjects, hsubjects, fun v x hx => (hmember v _ _).trans (hden v x hx)⟩

theorem accessibleExpansionSubjects_document_view :
    let memberRelation := fun name => Relation.mk name none
      (some [⟨"user", .relation ellipsis, none⟩, ⟨"group", .relation "member", none⟩]) .RELATION ""
    let schema : List NamespaceDefinition := [⟨"user", []⟩, ⟨"group", [memberRelation "member"]⟩,
      ⟨"document", [memberRelation "viewer", memberRelation "editor",
        ⟨"view", some (.union [.computedUserset "viewer", .computedUserset "editor"]), none, .PERMISSION, ""⟩]⟩]
    let relationships : List RelationTuple := [⟨⟨"document", "d", "viewer"⟩, ⟨"group", "eng", "member"⟩, none⟩,
      ⟨⟨"group", "eng", "member"⟩, ⟨"user", "sarah", ellipsis⟩, none⟩,
      ⟨⟨"document", "d", "editor"⟩, ⟨"user", "tom", ellipsis⟩, none⟩]
    ∃ tree subjects, dispatchExpand schema relationships 4 ⟨⟨"document", "d", "view"⟩, .RECURSIVE⟩ = .ok tree ∧
      accessibleExpansionSubjects tree = .ok subjects ∧
      subjects.hasSubject (fun _ => true) ⟨"user", "sarah", ellipsis⟩ = true := by
  intro memberRelation schema relationships
  have hok : (dispatchExpand schema relationships 4 ⟨⟨"document", "d", "view"⟩, .RECURSIVE⟩).isOk = true := by
    decide +kernel
  cases htree : dispatchExpand schema relationships 4 ⟨⟨"document", "d", "view"⟩, .RECURSIVE⟩ with
  | error err => simp [htree, Except.isOk, Except.toBool] at hok
  | ok tree =>
    obtain ⟨subjects, hsubjects, hmember⟩ := accessibleExpansionSubjects_dispatchExpand
      ⟨⟨by decide +kernel, by decide +kernel, by decide +kernel⟩, by decide +kernel, by decide +kernel⟩
      (by unfold SubjectRelationsPlain; decide +kernel) 4 _ rfl htree
    refine ⟨tree, subjects, rfl, hsubjects, ?_⟩
    rw [hmember _ _ rfl]
    decide +kernel

end Graph

end SpiceDB
