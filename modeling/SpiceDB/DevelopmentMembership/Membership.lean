import SpiceDB.DevelopmentMembership.TrackingSubjectSet

namespace SpiceDB

open Caveats DevelopmentMembership

/-- A direct subject stands for `id` of the subject type `key`: it is of that type, its caveat
holds, and it is `id` or the wildcard. -/
def DirectSubject.holds (s : DirectSubject) (v : Valuation) (key id : String) : Bool :=
  decide (TrackingSubjectSet.keyFor s.subject = key) && evalCaveat v s.caveatExpression &&
    (decide (s.subject.objectId = publicWildcard) || decide (s.subject.objectId = id))

namespace RelationTupleTreeNode

mutual
/-- Whether `id` of the subject type `key` is among the subjects of a tree at `v`. -/
def denote (v : Valuation) (key id : String) : RelationTupleTreeNode → Bool
  | .intermediateNode .UNION childNodes _ caveatExpression =>
    evalCaveat v caveatExpression && denoteAny v key id childNodes
  | .intermediateNode .INTERSECTION childNodes _ caveatExpression =>
    evalCaveat v caveatExpression && denoteAll v key id childNodes
  | .intermediateNode .EXCLUSION [] _ _ => false
  | .intermediateNode .EXCLUSION (first :: rest) _ caveatExpression =>
    evalCaveat v caveatExpression && (denote v key id first && !denoteAny v key id rest)
  | .intermediateNode .INVALID _ _ _ => false
  | .leafNode subjects _ caveatExpression =>
    evalCaveat v caveatExpression && subjects.any (·.holds v key id)

/-- Some child says so. -/
def denoteAny (v : Valuation) (key id : String) : List RelationTupleTreeNode → Bool
  | [] => false
  | child :: rest => denote v key id child || denoteAny v key id rest

/-- Every child says so. -/
def denoteAll (v : Valuation) (key id : String) : List RelationTupleTreeNode → Bool
  | [] => true
  | child :: rest => denote v key id child && denoteAll v key id rest
end

mutual
/-- A tree of unions and of intersections with children. -/
def exclusionFree : RelationTupleTreeNode → Bool
  | .intermediateNode .UNION childNodes _ _ => allExclusionFree childNodes
  | .intermediateNode .INTERSECTION childNodes _ _ => !childNodes.isEmpty && allExclusionFree childNodes
  | .intermediateNode _ _ _ _ => false
  | .leafNode _ _ _ => true

/-- Trees of unions and of intersections with children. -/
def allExclusionFree : List RelationTupleTreeNode → Bool
  | [] => true
  | child :: rest => exclusionFree child && allExclusionFree rest
end

theorem denote_setCaveatExpression {tree : RelationTupleTreeNode} (htree : tree.caveatExpression = none)
    (c : Option CaveatExpression) (v : Valuation) (key id : String) :
    (tree.setCaveatExpression c).denote v key id = (evalCaveat v c && tree.denote v key id) := by
  cases tree with
  | intermediateNode operation childNodes expanded caveatExpression =>
    cases htree
    cases operation <;> cases childNodes <;> simp [setCaveatExpression, denote, evalCaveat_none]
  | leafNode subjects expanded caveatExpression =>
    cases htree
    simp [setCaveatExpression, denote, evalCaveat_none]

@[simp] theorem exclusionFree_setCaveatExpression (tree : RelationTupleTreeNode) (c : Option CaveatExpression) :
    (tree.setCaveatExpression c).exclusionFree = tree.exclusionFree := by
  cases tree with
  | intermediateNode operation childNodes expanded caveatExpression =>
    cases operation <;> rfl
  | leafNode subjects expanded caveatExpression => rfl

theorem denoteAny_eq_any (v : Valuation) (key id : String) (children : List RelationTupleTreeNode) :
    denoteAny v key id children = children.any (denote v key id) := by
  induction children with
  | nil => rw [denoteAny, List.any_nil]
  | cons child rest ih => rw [denoteAny, ih, List.any_cons]

theorem denoteAll_eq_all (v : Valuation) (key id : String) (children : List RelationTupleTreeNode) :
    denoteAll v key id children = children.all (denote v key id) := by
  induction children with
  | nil => rw [denoteAll, List.all_nil]
  | cons child rest ih => rw [denoteAll, ih, List.all_cons]

theorem allExclusionFree_iff (children : List RelationTupleTreeNode) :
    allExclusionFree children = true ↔ ∀ child ∈ children, child.exclusionFree = true := by
  induction children with
  | nil => simp [allExclusionFree]
  | cons child rest ih => simp [allExclusionFree, ih]

end RelationTupleTreeNode

namespace DevelopmentMembership

mutual
/-- `populateFoundSubjects`: the set of the subjects of a tree, each node's caveat conjoined to
what it found. -/
def populateFoundSubjects : RelationTupleTreeNode → Except String TrackingSubjectSet
  | .intermediateNode .UNION childNodes _ caveatExpression => do
    let toReturn ← unionChildNodes newTrackingSubjectSet childNodes
    pure (toReturn.applyParentCaveatExpression caveatExpression)
  | .intermediateNode .INTERSECTION [] _ _ => throw "found intersection with no children"
  | .intermediateNode .INTERSECTION (first :: rest) _ caveatExpression => do
    let firstChildSet ← populateFoundSubjects first
    let toReturn ← newTrackingSubjectSet.addFrom firstChildSet
    let toReturn ← intersectChildNodes toReturn rest
    pure (toReturn.applyParentCaveatExpression caveatExpression)
  | .intermediateNode .EXCLUSION [] _ _ => throw "found exclusion with no children"
  | .intermediateNode .EXCLUSION (first :: rest) _ caveatExpression => do
    let firstChildSet ← populateFoundSubjects first
    let toReturn ← newTrackingSubjectSet.addFrom firstChildSet
    let toReturn ← excludeChildNodes toReturn rest
    pure (toReturn.applyParentCaveatExpression caveatExpression)
  | .intermediateNode .INVALID _ _ _ => throw (mustBugf "unknown expand operation")
  | .leafNode subjects _ caveatExpression => do
    let toReturn ← newTrackingSubjectSet.add (subjects.map newFoundSubject)
    pure (toReturn.applyParentCaveatExpression caveatExpression)

/-- The loop of a union over its children. -/
def unionChildNodes (toReturn : TrackingSubjectSet) :
    List RelationTupleTreeNode → Except String TrackingSubjectSet
  | [] => pure toReturn
  | child :: rest => do
    let tss ← populateFoundSubjects child
    let toReturn ← toReturn.addFrom tss
    unionChildNodes toReturn rest

/-- The loop of an intersection over its children after the first. -/
def intersectChildNodes (toReturn : TrackingSubjectSet) :
    List RelationTupleTreeNode → Except String TrackingSubjectSet
  | [] => pure toReturn
  | child :: rest => do
    let childSet ← populateFoundSubjects child
    let updated ← toReturn.intersect childSet
    intersectChildNodes updated rest

/-- The loop of an exclusion over its children after the first. -/
def excludeChildNodes (toReturn : TrackingSubjectSet) :
    List RelationTupleTreeNode → Except String TrackingSubjectSet
  | [] => pure toReturn
  | child :: rest => do
    let childSet ← populateFoundSubjects child
    excludeChildNodes (toReturn.exclude childSet) rest
end

def accessibleExpansionSubjects (treeNode : RelationTupleTreeNode) : Except String TrackingSubjectSet :=
  populateFoundSubjects treeNode

/-- `FoundSubjects`: the subjects found for one object and relation. -/
structure FoundSubjects where
  subjects : TrackingSubjectSet

def TrackingSubjectSet.toFoundSubjects (tss : TrackingSubjectSet) : FoundSubjects :=
  ⟨tss⟩

/-- `Set`: the found subjects of each object and relation, by `tuple.StringONR`. -/
structure MembershipSet where
  objectsAndRelations : AList fun _ : String => FoundSubjects

def newMembershipSet : MembershipSet := ⟨∅⟩

/-- `AddExpansion`: the found subjects of the object and relation, whether they were added now,
and the set after. An object and relation added before keeps its subjects; a failure leaves
the set as it was. -/
def MembershipSet.addExpansion (ms : MembershipSet) (onr : ObjectAndRelation)
    (expansion : RelationTupleTreeNode) : Except String (FoundSubjects × Bool × MembershipSet) :=
  let onrString := stringONR onr
  match ms.objectsAndRelations.lookup onrString with
  | some existing => pure (existing, false, ms)
  | none => do
    let tss ← populateFoundSubjects expansion
    let fs := tss.toFoundSubjects
    pure (fs, true, ⟨ms.objectsAndRelations.insert onrString fs⟩)

open TrackingSubjectSet Datasets RelationTupleTreeNode

theorem subjectMember_newFoundSubject (s : DirectSubject) (v : Valuation) (id : String) :
    subjectMember v (newFoundSubject s) id =
      (evalCaveat v s.caveatExpression &&
        (decide (s.subject.objectId = publicWildcard) || decide (s.subject.objectId = id))) := by
  unfold subjectMember
  rw [FoundSubject.subjectId_eq, show (newFoundSubject s).subject = s.subject from rfl]
  by_cases hw : s.subject.objectId = publicWildcard
  · rw [if_pos hw, wildcardMember, excludedBy, holds, FoundSubject.excludedSubjects_eq,
      FoundSubject.caveatExpression_eq]
    simp [newFoundSubject, hw]
  · rw [if_neg hw, holds, FoundSubject.caveatExpression_eq]
    simp [newFoundSubject, hw, Bool.and_comm]

theorem exists_add_newFoundSubject (subjects : List DirectSubject) :
    ∃ S, newTrackingSubjectSet.add (subjects.map newFoundSubject) = .ok S ∧ S.ExclusionFree ∧
      ∀ v key id, S.memberAt v key id = subjects.any (·.holds v key id) := by
  obtain ⟨S, hS, hfree, hmem⟩ := exclusionFree_new.add (subjects.map newFoundSubject)
    (fun fs hfs => by obtain ⟨s, -, rfl⟩ := List.mem_map.1 hfs; rfl)
  refine ⟨S, hS, hfree, fun v key id => ?_⟩
  rw [hmem, memberAt_new, Bool.false_or, List.any_map]
  congr 1
  funext s
  rw [Function.comp_apply, subjectMember_newFoundSubject, DirectSubject.holds, Bool.and_assoc]
  rfl

mutual
/-- On a tree without exclusion, `populateFoundSubjects` builds the set of what the tree says. -/
theorem populateFoundSubjects_denote :
    ∀ tree : RelationTupleTreeNode, tree.exclusionFree = true →
      ∃ S, populateFoundSubjects tree = .ok S ∧ S.ExclusionFree ∧
        ∀ v key id, S.memberAt v key id = tree.denote v key id
  | .intermediateNode .UNION childNodes _ c, hfree => by
    obtain ⟨S, hS, hfreeS, hmem⟩ := unionChildNodes_denote childNodes newTrackingSubjectSet exclusionFree_new hfree
    obtain ⟨hfreeA, hmemA⟩ := hfreeS.applyParentCaveatExpression c
    refine ⟨_, by rw [populateFoundSubjects, hS]; rfl, hfreeA, fun v key id => ?_⟩
    rw [hmemA, hmem, memberAt_new, Bool.false_or, denote]
  | .intermediateNode .INTERSECTION [] _ _, hfree => by
    simp [exclusionFree] at hfree
  | .intermediateNode .INTERSECTION (first :: rest) _ c, hfree => by
    simp only [exclusionFree, allExclusionFree, List.isEmpty_cons, Bool.not_false, Bool.true_and,
      Bool.and_eq_true] at hfree
    obtain ⟨S₁, h₁, hfree₁, hmem₁⟩ := populateFoundSubjects_denote first hfree.1
    obtain ⟨S₂, h₂, hfree₂, hmem₂⟩ := exclusionFree_new.addFrom hfree₁
    obtain ⟨S₃, h₃, hfree₃, hmem₃⟩ := intersectChildNodes_denote rest S₂ hfree₂ hfree.2
    obtain ⟨hfreeA, hmemA⟩ := hfree₃.applyParentCaveatExpression c
    refine ⟨_, by rw [populateFoundSubjects, h₁, Except.ok_bind, h₂, Except.ok_bind, h₃]; rfl,
      hfreeA, fun v key id => ?_⟩
    rw [hmemA, hmem₃, hmem₂, memberAt_new, Bool.false_or, hmem₁, denote, RelationTupleTreeNode.denoteAll]
  | .intermediateNode .EXCLUSION _ _ _, hfree => by
    simp [exclusionFree] at hfree
  | .intermediateNode .INVALID _ _ _, hfree => by
    simp [exclusionFree] at hfree
  | .leafNode subjects _ c, _ => by
    obtain ⟨S, hS, hfreeS, hmem⟩ := exists_add_newFoundSubject subjects
    obtain ⟨hfreeA, hmemA⟩ := hfreeS.applyParentCaveatExpression c
    refine ⟨_, by rw [populateFoundSubjects, hS]; rfl, hfreeA, fun v key id => ?_⟩
    rw [hmemA, hmem, denote]

theorem unionChildNodes_denote :
    ∀ (children : List RelationTupleTreeNode) (acc : TrackingSubjectSet), acc.ExclusionFree →
      allExclusionFree children = true →
      ∃ S, unionChildNodes acc children = .ok S ∧ S.ExclusionFree ∧
        ∀ v key id, S.memberAt v key id = (acc.memberAt v key id || RelationTupleTreeNode.denoteAny v key id children)
  | [], acc, hacc, _ => ⟨acc, rfl, hacc, fun v key id => by rw [RelationTupleTreeNode.denoteAny, Bool.or_false]⟩
  | child :: rest, acc, hacc, hfree => by
    simp only [allExclusionFree, Bool.and_eq_true] at hfree
    obtain ⟨S₁, h₁, hfree₁, hmem₁⟩ := populateFoundSubjects_denote child hfree.1
    obtain ⟨S₂, h₂, hfree₂, hmem₂⟩ := hacc.addFrom hfree₁
    obtain ⟨S₃, h₃, hfree₃, hmem₃⟩ := unionChildNodes_denote rest S₂ hfree₂ hfree.2
    refine ⟨S₃, by rw [unionChildNodes, h₁, Except.ok_bind, h₂, Except.ok_bind, h₃], hfree₃, fun v key id => ?_⟩
    rw [hmem₃, hmem₂, hmem₁, RelationTupleTreeNode.denoteAny, Bool.or_assoc]

theorem intersectChildNodes_denote :
    ∀ (children : List RelationTupleTreeNode) (acc : TrackingSubjectSet), acc.ExclusionFree →
      allExclusionFree children = true →
      ∃ S, intersectChildNodes acc children = .ok S ∧ S.ExclusionFree ∧
        ∀ v key id, S.memberAt v key id = (acc.memberAt v key id && RelationTupleTreeNode.denoteAll v key id children)
  | [], acc, hacc, _ => ⟨acc, rfl, hacc, fun v key id => by rw [RelationTupleTreeNode.denoteAll, Bool.and_true]⟩
  | child :: rest, acc, hacc, hfree => by
    simp only [allExclusionFree, Bool.and_eq_true] at hfree
    obtain ⟨S₁, h₁, hfree₁, hmem₁⟩ := populateFoundSubjects_denote child hfree.1
    obtain ⟨S₂, h₂, hfree₂, hmem₂⟩ := hacc.intersect hfree₁
    obtain ⟨S₃, h₃, hfree₃, hmem₃⟩ := intersectChildNodes_denote rest S₂ hfree₂ hfree.2
    refine ⟨S₃, by rw [intersectChildNodes, h₁, Except.ok_bind, h₂, Except.ok_bind, h₃], hfree₃, fun v key id => ?_⟩
    rw [hmem₃, hmem₂, hmem₁, RelationTupleTreeNode.denoteAll, Bool.and_assoc]
end

end DevelopmentMembership

end SpiceDB
