import SpiceDB.Datasets.Laws
import SpiceDB.Datasets.Clone
import SpiceDB.Graph.Expand
import SpiceDB.Lib.AList
import SpiceDB.Lib.GoStrings
import SpiceDB.Typesystem.Reachability

namespace SpiceDB.DevelopmentMembership

open Caveats Datasets

/-- `FoundSubject`: a subject found, under its caveat, with the subjects a wildcard excludes. -/
structure FoundSubject where
  subject : ObjectAndRelation
  excludedSubjects : List FoundSubject
  caveatExpression : Option CaveatExpression

def newFoundSubject (subject : DirectSubject) : FoundSubject :=
  ⟨subject.subject, [], subject.caveatExpression⟩

instance : Subject FoundSubject where
  subjectId fs := fs.subject.objectId
  caveatExpression fs := fs.caveatExpression
  excludedSubjects fs := fs.excludedSubjects

theorem FoundSubject.subjectId_eq (fs : FoundSubject) : subjectId fs = fs.subject.objectId := rfl

theorem FoundSubject.caveatExpression_eq (fs : FoundSubject) :
    Subject.caveatExpression fs = fs.caveatExpression := rfl

theorem FoundSubject.excludedSubjects_eq (fs : FoundSubject) :
    Subject.excludedSubjects fs = fs.excludedSubjects := rfl

/-- `tuple.MustSplitRelRef`: the namespace and relation a key splits into at its first `#`.
Keys are made by `JoinRelRef` and hold a `#`, without which the source panics. -/
def mustSplitRelRef (relRef : String) : String × String :=
  let (ns, rel, _) := GoStrings.cut relRef '#'
  (ns, rel)

/-- The constructor of the set `getSetForKey` creates for `key`. -/
def constructorForKey (key : String) : Constructor FoundSubject :=
  let split := mustSplitRelRef key
  fun subjectID caveatExpression excludedSubjects _ =>
    ⟨⟨split.1, subjectID, split.2⟩, excludedSubjects, caveatExpression⟩

structure TrackingSubjectSet where
  setByType : AList fun _ : String => BaseSubjectSet FoundSubject

def newTrackingSubjectSet : TrackingSubjectSet := ⟨∅⟩

namespace TrackingSubjectSet

/-- The key of a subject type, `JoinRelRef` of its namespace and relation. -/
def keyFor (subject : ObjectAndRelation) : String :=
  Typesystem.joinRelRef ⟨subject.«namespace», subject.relation⟩

/-- `getSetForKey`: the set of the key, or a new one for it. The source stores a new set at
once, and each caller stores the set after changing it. -/
def getSetForKey (tss : TrackingSubjectSet) (key : String) : BaseSubjectSet FoundSubject :=
  (tss.setByType.lookup key).getD (newBaseSubjectSet (constructorForKey key))

def getSet (tss : TrackingSubjectSet) (fs : FoundSubject) : BaseSubjectSet FoundSubject :=
  tss.getSetForKey (keyFor fs.subject)

def addFrom (tss otherSet : TrackingSubjectSet) : Except String TrackingSubjectSet :=
  otherSet.setByType.entries.foldlM (fun tss entry => do
    let updated ← (tss.getSetForKey entry.1).unionWithSet entry.2
    pure ⟨tss.setByType.insert entry.1 updated⟩) tss

def add (tss : TrackingSubjectSet) (subjectsAndResources : List FoundSubject) :
    Except String TrackingSubjectSet :=
  subjectsAndResources.foldlM (fun tss fs => do
    let updated ← (tss.getSet fs).add fs
    pure ⟨tss.setByType.insert (keyFor fs.subject) updated⟩) tss

def exclude (tss otherSet : TrackingSubjectSet) : TrackingSubjectSet :=
  tss.setByType.entries.foldl (fun newSet entry =>
    let cloned :=
      match otherSet.setByType.lookup entry.1 with
      | some oss => entry.2.subtractAll oss
      | none => entry.2
    ⟨newSet.setByType.insert entry.1 cloned⟩) newTrackingSubjectSet

/-- `Intersect`: only the types both sets have are kept. -/
def intersect (tss otherSet : TrackingSubjectSet) : Except String TrackingSubjectSet :=
  tss.setByType.entries.foldlM (fun newSet entry =>
    match otherSet.setByType.lookup entry.1 with
    | some oss => do
      let cloned ← entry.2.intersectionDifference oss
      pure ⟨newSet.setByType.insert entry.1 cloned⟩
    | none => pure newSet) newTrackingSubjectSet

def applyParentCaveatExpression (tss : TrackingSubjectSet) : Option CaveatExpression → TrackingSubjectSet
  | none => tss
  | some parentCaveatExpr => ⟨tss.setByType.entries.foldl (fun setByType entry =>
      setByType.insert entry.1 (entry.2.withParentCaveatExpression (some parentCaveatExpr))) tss.setByType⟩

/-- `id` is in the set of the subject type `key` at `v`. -/
def memberAt (tss : TrackingSubjectSet) (v : Valuation) (key id : String) : Bool :=
  (tss.setByType.lookup key).any fun S => member S v id

/-- The set gives `subject` at `v`: in the set of its type, by its id or a wildcard. -/
def hasSubject (tss : TrackingSubjectSet) (v : Valuation) (subject : ObjectAndRelation) : Bool :=
  tss.memberAt v (keyFor subject) subject.objectId

/-- The set of `key` in a tracking set without exclusions. -/
structure SetFor (key : String) (S : BaseSubjectSet FoundSubject) : Prop where
  wellFormed : WellFormed S
  constructor_eq : S.constructor = constructorForKey key
  noExclusions : NoExclusions S

/-- Every set is the set of its key, without exclusions. -/
def ExclusionFree (tss : TrackingSubjectSet) : Prop :=
  ∀ key S, tss.setByType.lookup key = some S → SetFor key S

theorem lawfulConstructor_constructorForKey (key : String) : LawfulConstructor (constructorForKey key) :=
  ⟨fun _ _ _ _ => rfl, fun _ _ _ _ => rfl, fun _ _ _ _ => rfl⟩

theorem exclusionFree_new : newTrackingSubjectSet.ExclusionFree := by
  intro key S h
  cases h

@[simp] theorem memberAt_new (v : Valuation) (key id : String) :
    newTrackingSubjectSet.memberAt v key id = false := rfl

variable {tss other : TrackingSubjectSet} {key : String} {S : BaseSubjectSet FoundSubject}

theorem memberAt_insert (tss : TrackingSubjectSet) (key : String) (S : BaseSubjectSet FoundSubject)
    (v : Valuation) (key' id : String) :
    (⟨tss.setByType.insert key S⟩ : TrackingSubjectSet).memberAt v key' id =
      if key' = key then member S v id else tss.memberAt v key' id := by
  unfold memberAt
  by_cases hk : key' = key
  · subst hk
    simp [AList.lookup_insert]
  · simp [AList.lookup_insert_ne hk, hk]

theorem ExclusionFree.insert (h : tss.ExclusionFree) (hS : SetFor key S) :
    (⟨tss.setByType.insert key S⟩ : TrackingSubjectSet).ExclusionFree := by
  intro key' S' hk
  by_cases hkey : key' = key
  · subst hkey
    rw [AList.lookup_insert, Option.some.injEq] at hk
    exact hk ▸ hS
  · rw [AList.lookup_insert_ne hkey] at hk
    exact h key' S' hk

theorem ExclusionFree.setFor_getSetForKey (h : tss.ExclusionFree) (key : String) :
    SetFor key (tss.getSetForKey key) := by
  unfold getSetForKey
  cases hk : tss.setByType.lookup key with
  | none => exact ⟨wellFormed_newBaseSubjectSet _, rfl, fun _ hw => by cases hw⟩
  | some S => exact h key S hk

theorem member_getSetForKey (tss : TrackingSubjectSet) (v : Valuation) (key id : String) :
    member (tss.getSetForKey key) v id = tss.memberAt v key id := by
  unfold getSetForKey memberAt
  cases tss.setByType.lookup key with
  | none => simp [member, newBaseSubjectSet]
  | some S => rfl

theorem ExclusionFree.setFor_of_mem (h : tss.ExclusionFree) {entry : Σ _ : String, BaseSubjectSet FoundSubject}
    (hentry : entry ∈ tss.setByType.entries) : SetFor entry.1 entry.2 :=
  h entry.1 entry.2 (AList.mem_lookup_iff.2 hentry)

theorem memberAt_eq_any_entries (tss : TrackingSubjectSet) (v : Valuation) (key id : String) :
    tss.memberAt v key id = tss.setByType.entries.any fun e => decide (e.1 = key) && member e.2 v id :=
  (AList.any_entries_eq_lookup tss.setByType key (member · v id)).symm

theorem ExclusionFree.addOne (h : tss.ExclusionFree) {fs : FoundSubject} (hfs : fs.excludedSubjects = []) :
    ∃ S', (tss.getSet fs).add fs = .ok S' ∧ SetFor (keyFor fs.subject) S' ∧
      ∀ v id, member S' v id = (tss.memberAt v (keyFor fs.subject) id || subjectMember v fs id) := by
  have hset := h.setFor_getSetForKey (keyFor fs.subject)
  obtain ⟨S', hadd, hwf, hc, hno, hmem⟩ := NoExclusions.add (lawfulConstructor_constructorForKey _)
    hset.wellFormed hset.constructor_eq hset.noExclusions hfs
  refine ⟨S', hadd, ⟨hwf, hc, hno⟩, fun v id => ?_⟩
  rw [hmem, member_getSetForKey]

/-- `Add` of subjects without exclusions puts each in the set of its type. -/
theorem ExclusionFree.add (h : tss.ExclusionFree) (fss : List FoundSubject)
    (hfss : ∀ fs ∈ fss, fs.excludedSubjects = []) :
    ∃ tss', tss.add fss = .ok tss' ∧ tss'.ExclusionFree ∧ ∀ v key id, tss'.memberAt v key id =
      (tss.memberAt v key id || fss.any fun fs => decide (keyFor fs.subject = key) && subjectMember v fs id) := by
  -- what is added so far and what is left to add make up the target
  let I : List FoundSubject → TrackingSubjectSet → Prop := fun rest acc =>
    acc.ExclusionFree ∧ (∀ fs ∈ rest, fs.excludedSubjects = []) ∧ ∀ v key id,
      (acc.memberAt v key id || rest.any fun fs => decide (keyFor fs.subject = key) && subjectMember v fs id) =
        (tss.memberAt v key id || fss.any fun fs => decide (keyFor fs.subject = key) && subjectMember v fs id)
  have hstep : ∀ fs rest acc, I (fs :: rest) acc → ∃ acc',
      (do let updated ← (acc.getSet fs).add fs
          pure (⟨acc.setByType.insert (keyFor fs.subject) updated⟩ : TrackingSubjectSet)) = .ok acc' ∧
        I rest acc' := by
    rintro fs rest acc ⟨hacc, hrest, heq⟩
    obtain ⟨S', hadd, hS', hmem⟩ := hacc.addOne (hrest fs List.mem_cons_self)
    refine ⟨_, by rw [hadd]; rfl, hacc.insert hS', fun f hf => hrest f (List.mem_cons_of_mem fs hf), ?_⟩
    intro v key id
    rw [← heq v key id, memberAt_insert, List.any_cons]
    by_cases hk : key = keyFor fs.subject
    · subst hk
      rw [if_pos rfl, hmem, decide_eq_true rfl, Bool.true_and, Bool.or_assoc]
    · rw [if_neg hk, decide_eq_false (Ne.symm hk), Bool.false_and, Bool.false_or]
  obtain ⟨tss', hfold, hI⟩ := Except.foldlM_ok_of_step I hstep fss tss ⟨h, hfss, fun _ _ _ => rfl⟩
  refine ⟨tss', hfold, hI.1, fun v key id => ?_⟩
  rw [← hI.2.2 v key id, List.any_nil, Bool.or_false]

/-- `AddFrom` of a set without exclusions is the union, type by type. -/
theorem ExclusionFree.addFrom (h : tss.ExclusionFree) (ho : other.ExclusionFree) :
    ∃ tss', tss.addFrom other = .ok tss' ∧ tss'.ExclusionFree ∧
      ∀ v key id, tss'.memberAt v key id = (tss.memberAt v key id || other.memberAt v key id) := by
  let I : List (Σ _ : String, BaseSubjectSet FoundSubject) → TrackingSubjectSet → Prop := fun rest acc =>
    acc.ExclusionFree ∧ (∀ e ∈ rest, SetFor e.1 e.2) ∧ ∀ v key id,
      (acc.memberAt v key id || rest.any fun e => decide (e.1 = key) && member e.2 v id) =
        (tss.memberAt v key id || other.setByType.entries.any fun e => decide (e.1 = key) && member e.2 v id)
  have hstep : ∀ e rest acc, I (e :: rest) acc → ∃ acc',
      (do let updated ← (acc.getSetForKey e.1).unionWithSet e.2
          pure (⟨acc.setByType.insert e.1 updated⟩ : TrackingSubjectSet)) = .ok acc' ∧ I rest acc' := by
    rintro e rest acc ⟨hacc, hrest, heq⟩
    have hset := hacc.setFor_getSetForKey e.1
    have he := hrest e List.mem_cons_self
    obtain ⟨S', hunion, hwf, hc, hno, hmem⟩ := NoExclusions.unionWithSet (lawfulConstructor_constructorForKey _)
      hset.wellFormed hset.constructor_eq hset.noExclusions he.wellFormed he.noExclusions
    refine ⟨_, by rw [hunion]; rfl, hacc.insert ⟨hwf, hc, hno⟩,
      fun e' he' => hrest e' (List.mem_cons_of_mem e he'), ?_⟩
    intro v key id
    rw [← heq v key id, memberAt_insert, List.any_cons]
    by_cases hk : key = e.1
    · subst hk
      rw [if_pos rfl, hmem, member_getSetForKey, decide_eq_true rfl, Bool.true_and, Bool.or_assoc]
    · rw [if_neg hk, decide_eq_false (Ne.symm hk), Bool.false_and, Bool.false_or]
  obtain ⟨tss', hfold, hI⟩ := Except.foldlM_ok_of_step I hstep other.setByType.entries tss
    ⟨h, fun e he => ho.setFor_of_mem he, fun _ _ _ => rfl⟩
  refine ⟨tss', hfold, hI.1, fun v key id => ?_⟩
  rw [memberAt_eq_any_entries other, ← hI.2.2 v key id, List.any_nil, Bool.or_false]

theorem SetFor.intersectionDifference {O : BaseSubjectSet FoundSubject} (hS : SetFor key S)
    (hO : WellFormed O) (hnO : NoExclusions O) :
    ∃ S', S.intersectionDifference O = .ok S' ∧ SetFor key S' ∧
      ∀ v id, member S' v id = (member S v id && member O v id) := by
  have hc := lawfulConstructor_constructorForKey key
  obtain ⟨S', hint, hwf, hc', hview⟩ := exists_view_intersectionDifference hc hS.wellFormed hO hS.constructor_eq
  refine ⟨S', hint, ⟨hwf, hc', NoExclusions.intersectionDifference hc hS.wellFormed hO hS.constructor_eq
    hS.noExclusions hnO hint⟩, fun v id => ?_⟩
  rw [member_eq_memAt hwf, hview, WildcardSet.memAt_inter, ← member_eq_memAt hS.wellFormed,
    ← member_eq_memAt hO]

/-- `Intersect` of sets without exclusions is the intersection, type by type. -/
theorem ExclusionFree.intersect (h : tss.ExclusionFree) (ho : other.ExclusionFree) :
    ∃ tss', tss.intersect other = .ok tss' ∧ tss'.ExclusionFree ∧
      ∀ v key id, tss'.memberAt v key id = (tss.memberAt v key id && other.memberAt v key id) := by
  -- the types still to visit are not in the new set yet, so each visit writes a fresh key
  let I : List (Σ _ : String, BaseSubjectSet FoundSubject) → TrackingSubjectSet → Prop := fun rest acc =>
    acc.ExclusionFree ∧ rest.NodupKeys ∧ (∀ e ∈ rest, SetFor e.1 e.2 ∧ acc.setByType.lookup e.1 = none) ∧
      ∀ v key id, (acc.memberAt v key id ||
          rest.any fun e => decide (e.1 = key) && member e.2 v id && other.memberAt v key id) =
        (tss.setByType.entries.any fun e => decide (e.1 = key) && member e.2 v id && other.memberAt v key id)
  have hstep : ∀ e rest acc, I (e :: rest) acc → ∃ acc',
      (match other.setByType.lookup e.1 with
        | some oss => do
          let cloned ← e.2.intersectionDifference oss
          pure (⟨acc.setByType.insert e.1 cloned⟩ : TrackingSubjectSet)
        | none => pure acc) = .ok acc' ∧ I rest acc' := by
    rintro e rest acc ⟨hacc, hnodup, hrest, heq⟩
    obtain ⟨hfresh, hnodup'⟩ := List.nodupKeys_cons.1 hnodup
    obtain ⟨he, hnone⟩ := hrest e List.mem_cons_self
    have hkeys : ∀ e' ∈ rest, e'.1 ≠ e.1 := fun e' he' hk => hfresh (hk ▸ List.mem_keys_of_mem he')
    cases hoss : other.setByType.lookup e.1 with
    | none =>
      -- a type the other set lacks is dropped
      refine ⟨acc, rfl, hacc, hnodup', fun e' he' => hrest e' (List.mem_cons_of_mem e he'), ?_⟩
      intro v key id
      rw [← heq v key id, List.any_cons]
      by_cases hk : e.1 = key
      · subst hk
        simp [memberAt, hoss]
      · simp [hk]
    | some oss =>
      have hO := ho e.1 oss hoss
      obtain ⟨S', hint, hS', hmem⟩ := he.intersectionDifference hO.wellFormed hO.noExclusions
      refine ⟨_, by simp only [hint]; rfl, hacc.insert hS', hnodup', fun e' he' => ?_, ?_⟩
      · obtain ⟨hse', hnone'⟩ := hrest e' (List.mem_cons_of_mem e he')
        exact ⟨hse', by rw [AList.lookup_insert_ne (hkeys e' he'), hnone']⟩
      · intro v key id
        rw [← heq v key id, memberAt_insert, List.any_cons]
        by_cases hk : key = e.1
        · subst hk
          have hacc0 : acc.memberAt v e.1 id = false := by simp [memberAt, hnone]
          rw [if_pos rfl, hmem, hacc0, decide_eq_true rfl, Bool.true_and, Bool.false_or]
          simp [memberAt, hoss]
        · rw [if_neg hk, decide_eq_false (Ne.symm hk), Bool.false_and, Bool.false_and, Bool.false_or]
  obtain ⟨tss', hfold, hI⟩ := Except.foldlM_ok_of_step I hstep tss.setByType.entries newTrackingSubjectSet
    ⟨exclusionFree_new, tss.setByType.nodupKeys, fun e he => ⟨h.setFor_of_mem he, rfl⟩,
      fun _ _ _ => by rw [memberAt_new, Bool.false_or]⟩
  refine ⟨tss', hfold, hI.1, fun v key id => ?_⟩
  have hend := hI.2.2.2 v key id
  rw [List.any_nil, Bool.or_false] at hend
  rw [hend, memberAt_eq_any_entries tss, List.and_any_distrib_right]

/-- A parent caveat conjoins its value to every member. -/
theorem ExclusionFree.applyParentCaveatExpression (h : tss.ExclusionFree) (p : Option CaveatExpression) :
    (tss.applyParentCaveatExpression p).ExclusionFree ∧
      ∀ v key id, (tss.applyParentCaveatExpression p).memberAt v key id = (evalCaveat v p && tss.memberAt v key id) := by
  cases p with
  | none => exact ⟨h, fun v key id => by simp [TrackingSubjectSet.applyParentCaveatExpression, evalCaveat_none]⟩
  | some parentCaveatExpr =>
    -- each visited key is rewritten from its own set, and every key is visited
    have hlookup : ∀ key, (tss.applyParentCaveatExpression (some parentCaveatExpr)).setByType.lookup key =
        (tss.setByType.lookup key).map (·.withParentCaveatExpression (some parentCaveatExpr)) := by
      intro key
      have hfold := AList.lookup_foldl_local
        (fun m (e : Σ _ : String, BaseSubjectSet FoundSubject) =>
          m.insert e.1 (e.2.withParentCaveatExpression (some parentCaveatExpr)))
        (fun e _ => some (e.2.withParentCaveatExpression (some parentCaveatExpr)))
        tss.setByType.entries tss.setByType.nodupKeys (fun e _ m => AList.lookup_insert m)
        (fun e _ m a ha => AList.lookup_insert_ne ha) tss.setByType key
      rw [TrackingSubjectSet.applyParentCaveatExpression]
      refine hfold.trans ?_
      cases hk : tss.setByType.entries.dlookup key <;> simp [AList.lookup, hk]
    refine ⟨fun key S hk => ?_, fun v key id => ?_⟩
    · rw [hlookup, Option.map_eq_some_iff] at hk
      obtain ⟨S₀, hS₀, rfl⟩ := hk
      have hset := h key S₀ hS₀
      have hc := lawfulConstructor_constructorForKey key
      exact ⟨hset.wellFormed.withParentCaveatExpression hc hset.constructor_eq _, hset.constructor_eq,
        hset.noExclusions.withParentCaveatExpression hc hset.constructor_eq _⟩
    · unfold memberAt
      rw [hlookup]
      cases hk : tss.setByType.lookup key with
      | none => simp
      | some S₀ =>
        have hset := h key S₀ hk
        rw [Option.map_some, Option.any_some, Option.any_some,
          member_withParentCaveatExpression S₀ (hset.constructor_eq ▸ lawfulConstructor_constructorForKey key)]

end TrackingSubjectSet

end SpiceDB.DevelopmentMembership
