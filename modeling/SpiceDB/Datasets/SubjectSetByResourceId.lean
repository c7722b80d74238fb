import SpiceDB.Datasets.Laws
import SpiceDB.Datasets.Clone
import SpiceDB.Caveats.Builder

namespace SpiceDB.Datasets

open Caveats

/-- The found subjects of each resource, as a response carries them. -/
abbrev FoundSubjectsMap := AList fun _ : String => List FoundSubject

structure SubjectSetByResourceID where
  subjectSetByResourceID : AList fun _ : String => SubjectSet

def newSubjectSetByResourceID : SubjectSetByResourceID := ⟨∅⟩

namespace SubjectSetByResourceID

/-- `add`: the subject joins the set of the resource, created empty if missing. -/
def add (ssr : SubjectSetByResourceID) (resourceID : String) (subject : FoundSubject) :
    Except String SubjectSetByResourceID := do
  let subjects := (ssr.subjectSetByResourceID.lookup resourceID).getD newSubjectSet
  let subjects ← subjects.add subject
  pure ⟨ssr.subjectSetByResourceID.insert resourceID subjects⟩

def addFromRelationship (ssr : SubjectSetByResourceID) (relationship : RelationTuple) :
    Except String SubjectSetByResourceID :=
  ssr.add relationship.resourceAndRelation.objectId
    ⟨relationship.subject.objectId, wrapCaveat relationship.caveat, []⟩

/-- `UnionWith`: the found subjects of each resource are added in order, stopping at the
first error. -/
def unionWith (ssr : SubjectSetByResourceID) (other : FoundSubjectsMap) :
    Except String SubjectSetByResourceID :=
  other.entries.foldlM (fun ssr entry => entry.2.foldlM (fun ssr subject => ssr.add entry.1 subject) ssr) ssr

/-- The first loop of `IntersectionDifference` at one resource of the other map: the set of
the resource, if any, is intersected with the other's and dropped when empty. -/
def intersectStep (ssr : SubjectSetByResourceID) (entry : Σ _ : String, SubjectSet) :
    Except String SubjectSetByResourceID :=
  match ssr.subjectSetByResourceID.lookup entry.1 with
  | none => pure ssr
  | some existing => do
    let existing ← existing.intersectionDifference entry.2
    if existing.isEmpty then pure ⟨ssr.subjectSetByResourceID.erase entry.1⟩
    else pure ⟨ssr.subjectSetByResourceID.insert entry.1 existing⟩

/-- `IntersectionDifference`: the sets of the resources the other map has are intersected,
then the resources it does not have are dropped. -/
def intersectionDifference (ssr other : SubjectSetByResourceID) : Except String SubjectSetByResourceID := do
  let ssr ← other.subjectSetByResourceID.entries.foldlM intersectStep ssr
  pure ⟨ssr.subjectSetByResourceID.keys.foldl (fun sets resourceID =>
    if (other.subjectSetByResourceID.lookup resourceID).isSome then sets else sets.erase resourceID)
    ssr.subjectSetByResourceID⟩

/-- The loop of `SubtractAll` at one resource of the other map. -/
def subtractStep (ssr : SubjectSetByResourceID) (entry : Σ _ : String, SubjectSet) : SubjectSetByResourceID :=
  match ssr.subjectSetByResourceID.lookup entry.1 with
  | none => ssr
  | some existing =>
    let existing := existing.subtractAll entry.2
    if existing.isEmpty then ⟨ssr.subjectSetByResourceID.erase entry.1⟩
    else ⟨ssr.subjectSetByResourceID.insert entry.1 existing⟩

def subtractAll (ssr other : SubjectSetByResourceID) : SubjectSetByResourceID :=
  other.subjectSetByResourceID.entries.foldl subtractStep ssr

def isEmpty (ssr : SubjectSetByResourceID) : Bool := ssr.subjectSetByResourceID.entries.isEmpty

def asMap (ssr : SubjectSetByResourceID) : FoundSubjectsMap :=
  ssr.subjectSetByResourceID.entries.foldl (fun mapped entry => mapped.insert entry.1 (asFoundSubjects entry.2)) ∅

end SubjectSetByResourceID

section Soundness

variable (v : Valuation)

/-- A found subject without exclusions, every subject of which has `P`. -/
def FoundSound (P : String → Prop) (f : FoundSubject) : Prop :=
  excludedSubjects f = [] ∧ ∀ x, subjectMember v f x = true → P x

/-- Every found subject of each resource `r` is sound for `holds r`. -/
def ResponseSound (holds : String → String → Prop) (response : FoundSubjectsMap) : Prop :=
  ∀ r found, response.lookup r = some found → ∀ f ∈ found, FoundSound v (holds r) f

/-- A set of found subjects in the shape `Add` keeps, without exclusions, every member of
which has `P`. -/
structure SetSound (P : String → Prop) (S : SubjectSet) : Prop where
  wellFormed : WellFormed S
  constructor_eq : S.constructor = subjectSetConstructor
  noExclusions : NoExclusions S
  sound : ∀ x, member S v x = true → P x

/-- The set of each resource `r` is sound for `holds r`. -/
def SetsSound (holds : String → String → Prop) (ssr : SubjectSetByResourceID) : Prop :=
  ∀ r S, ssr.subjectSetByResourceID.lookup r = some S → SetSound v (holds r) S

variable {v} {P Q : String → Prop} {holds holds' : String → String → Prop}

theorem FoundSound.mono (himp : ∀ x, P x → Q x) {f : FoundSubject} (h : FoundSound v P f) :
    FoundSound v Q f :=
  ⟨h.1, fun x hx => himp x (h.2 x hx)⟩

theorem ResponseSound.mono (himp : ∀ r x, holds r x → holds' r x) {response : FoundSubjectsMap}
    (h : ResponseSound v holds response) : ResponseSound v holds' response :=
  fun r found hr f hf => (h r found hr f hf).mono (himp r)

theorem responseSound_empty : ResponseSound v holds ∅ := by
  intro r found hr
  cases hr

theorem ResponseSound.insert {response : FoundSubjectsMap} (h : ResponseSound v holds response)
    {r : String} {found : List FoundSubject} (hfound : ∀ f ∈ found, FoundSound v (holds r) f) :
    ResponseSound v holds (response.insert r found) := by
  intro r' found' hr'
  by_cases hr : r' = r
  · subst hr
    rw [AList.lookup_insert, Option.some.injEq] at hr'
    exact hr' ▸ hfound
  · rw [AList.lookup_insert_ne hr] at hr'
    exact h r' found' hr'

theorem SetSound.mono (himp : ∀ x, P x → Q x) {S : SubjectSet} (h : SetSound v P S) : SetSound v Q S :=
  ⟨h.wellFormed, h.constructor_eq, h.noExclusions, fun x hx => himp x (h.sound x hx)⟩

theorem setSound_newSubjectSet : SetSound v P newSubjectSet where
  wellFormed := wellFormed_newBaseSubjectSet subjectSetConstructor
  constructor_eq := rfl
  noExclusions _ h := by cases h
  sound x hx := by simp [member, newSubjectSet, newBaseSubjectSet] at hx

theorem SetSound.foundSound_of_mem {S : SubjectSet} (h : SetSound v P S) {f : FoundSubject}
    (hf : f ∈ asFoundSubjects S) : FoundSound v P f :=
  ⟨excludedSubjects_of_mem_asSlice h.wellFormed h.noExclusions hf,
    fun x hx => h.sound x (member_of_mem_asSlice h.wellFormed hf v x hx)⟩

theorem SetSound.add {S S' : SubjectSet} (hS : SetSound v P S) {f : FoundSubject}
    (hf : FoundSound v P f) (h : S.add f = .ok S') : SetSound v P S' := by
  obtain ⟨S'', hadd, hwf, hc, hno, hmem⟩ :=
    NoExclusions.add subjectSetConstructor_lawful hS.wellFormed hS.constructor_eq hS.noExclusions hf.1
  rw [h, Except.ok.injEq] at hadd
  subst hadd
  refine ⟨hwf, hc, hno, fun x hx => ?_⟩
  rw [hmem, Bool.or_eq_true] at hx
  rcases hx with hx | hx
  · exact hS.sound x hx
  · exact hf.2 x hx

theorem SetSound.unionWith :
    ∀ (found : List FoundSubject) {S S' : SubjectSet}, SetSound v P S → (∀ f ∈ found, FoundSound v P f) →
      S.unionWith found = .ok S' → SetSound v P S'
  | [], _, _, hS, _, h => by
    cases h
    exact hS
  | f :: rest, _, _, hS, hfound, h => by
    obtain ⟨S₁, h₁, hrest⟩ := Except.bind_eq_ok.1 h
    exact SetSound.unionWith rest (hS.add (hfound f List.mem_cons_self) h₁)
      (fun f' hf' => hfound f' (List.mem_cons_of_mem f hf')) hrest

theorem SetSound.withParentCaveatExpression {S : SubjectSet} (hS : SetSound v P S)
    (p : Option CaveatExpression) :
    SetSound v (fun x => evalCaveat v p = true ∧ P x) (S.withParentCaveatExpression p) := by
  have hc := subjectSetConstructor_lawful
  refine ⟨hS.wellFormed.withParentCaveatExpression hc hS.constructor_eq p, hS.constructor_eq,
    hS.noExclusions.withParentCaveatExpression hc hS.constructor_eq p, fun x hx => ?_⟩
  rw [member_withParentCaveatExpression S (hS.constructor_eq ▸ hc), Bool.and_eq_true] at hx
  exact ⟨hx.1, hS.sound x hx.2⟩

theorem SetSound.intersectionDifference {S O S' : SubjectSet} (hS : SetSound v P S)
    (hO : SetSound v Q O) (h : S.intersectionDifference O = .ok S') :
    SetSound v (fun x => P x ∧ Q x) S' := by
  have hc := subjectSetConstructor_lawful
  obtain ⟨S'', hint, hwf, hS'', -⟩ := hS.wellFormed.intersectionDifference hc hO.wellFormed hS.constructor_eq
  rw [h, Except.ok.injEq] at hint
  subst hint
  refine ⟨hwf, hS'', NoExclusions.intersectionDifference hc hS.wellFormed hO.wellFormed hS.constructor_eq
    hS.noExclusions hO.noExclusions h, fun x hx => ?_⟩
  rw [member_eq_memAt hwf, view_intersectionDifference hc hS.wellFormed hO.wellFormed hS.constructor_eq h,
    WildcardSet.memAt_inter, ← member_eq_memAt hS.wellFormed, ← member_eq_memAt hO.wellFormed,
    Bool.and_eq_true] at hx
  exact ⟨hS.sound x hx.1, hO.sound x hx.2⟩

theorem setsSound_new : SetsSound v holds newSubjectSetByResourceID := by
  intro r S hr
  cases hr

theorem SetsSound.insert_of_ne {ssr : SubjectSetByResourceID} {k : String} (h : SetsSound v holds ssr)
    (himp : ∀ r x, r ≠ k → holds r x → holds' r x) {S : SubjectSet} (hS : SetSound v (holds' k) S) :
    SetsSound v holds' ⟨ssr.subjectSetByResourceID.insert k S⟩ := by
  intro r S' hr
  by_cases hrk : r = k
  · subst hrk
    rw [AList.lookup_insert, Option.some.injEq] at hr
    exact hr ▸ hS
  · rw [AList.lookup_insert_ne hrk] at hr
    exact (h r S' hr).mono (himp r · hrk)

theorem SetsSound.erase_of_ne {ssr : SubjectSetByResourceID} {k : String} (h : SetsSound v holds ssr)
    (himp : ∀ r x, r ≠ k → holds r x → holds' r x) :
    SetsSound v holds' ⟨ssr.subjectSetByResourceID.erase k⟩ := by
  intro r S' hr
  by_cases hrk : r = k
  · subst hrk
    rw [AList.lookup_erase] at hr
    cases hr
  · rw [AList.lookup_erase_ne hrk] at hr
    exact (h r S' hr).mono (himp r · hrk)

theorem SetsSound.mono (himp : ∀ r x, holds r x → holds' r x) {ssr : SubjectSetByResourceID}
    (h : SetsSound v holds ssr) : SetsSound v holds' ssr :=
  fun r S hr => (h r S hr).mono (himp r)

theorem SetsSound.add {ssr ssr' : SubjectSetByResourceID} (h : SetsSound v holds ssr) {r : String}
    {f : FoundSubject} (hf : FoundSound v (holds r) f) (hadd : ssr.add r f = .ok ssr') :
    SetsSound v holds ssr' := by
  obtain ⟨S', hS', hssr'⟩ := Except.bind_eq_ok.1 hadd
  cases hssr'
  have hS : SetSound v (holds r) ((ssr.subjectSetByResourceID.lookup r).getD newSubjectSet) := by
    cases hr : ssr.subjectSetByResourceID.lookup r with
    | none => exact setSound_newSubjectSet
    | some S => exact h r S hr
  exact h.insert_of_ne (fun _ _ _ hx => hx) (hS.add hf hS')

theorem SetsSound.unionWith {ssr ssr' : SubjectSetByResourceID} (h : SetsSound v holds ssr)
    {other : FoundSubjectsMap} (hother : ResponseSound v holds other) (hunion : ssr.unionWith other = .ok ssr') :
    SetsSound v holds ssr' := by
  refine Except.foldlM_invariant_of_mem (SetsSound v holds) other.entries ?_ ssr ssr' h hunion
  intro s entry s' hentry hs hs'
  have hfound := hother entry.1 entry.2 (AList.mem_lookup_iff.2 hentry)
  exact Except.foldlM_invariant_of_mem (SetsSound v holds) entry.2
    (fun t f t' hf ht ht' => ht.add (hfound f hf) ht') s s' hs hs'

section Intersection

variable {ssr ssr' : SubjectSetByResourceID}

/-- One step of the first loop of `IntersectionDifference`: the resource it visits becomes
sound for the other side's property too. -/
theorem SetsSound.intersectStep {visited : List String}
    (h : SetsSound v (fun r x => holds r x ∧ (r ∈ visited → holds' r x)) ssr)
    {entry : Σ _ : String, SubjectSet} (hentry : SetSound v (holds' entry.1) entry.2)
    (hstep : ssr.intersectStep entry = .ok ssr') :
    SetsSound v (fun r x => holds r x ∧ (r ∈ entry.1 :: visited → holds' r x)) ssr' := by
  -- away from the visited resource, having visited it changes nothing
  have himp : ∀ r x, r ≠ entry.1 → (holds r x ∧ (r ∈ visited → holds' r x)) →
      holds r x ∧ (r ∈ entry.1 :: visited → holds' r x) := by
    intro r x hr hx
    exact ⟨hx.1, fun hmem => hx.2 ((List.mem_cons.1 hmem).resolve_left hr)⟩
  unfold SubjectSetByResourceID.intersectStep at hstep
  cases hlookup : ssr.subjectSetByResourceID.lookup entry.1 with
  | none =>
    rw [hlookup, Except.pure_eq_ok, Except.ok.injEq] at hstep
    subst hstep
    intro r S hr
    have hne : r ≠ entry.1 := by
      rintro rfl
      rw [hlookup] at hr
      cases hr
    exact (h r S hr).mono (himp r · hne)
  | some existing =>
    rw [hlookup] at hstep
    obtain ⟨existing', hint, hssr'⟩ := Except.bind_eq_ok.1 hstep
    have hsound : SetSound v (fun x => holds entry.1 x ∧ (entry.1 ∈ entry.1 :: visited → holds' entry.1 x))
        existing' :=
      ((h entry.1 existing hlookup).intersectionDifference hentry hint).mono
        fun x hx => ⟨hx.1.1, fun _ => hx.2⟩
    split at hssr' <;> cases hssr'
    · exact h.erase_of_ne himp
    · exact h.insert_of_ne himp hsound

/-- The first loop of `IntersectionDifference`: every resource it has visited is sound for both
properties. -/
theorem SetsSound.foldlM_intersectStep :
    ∀ (entries : List (Σ _ : String, SubjectSet)) (visited : List String) {ssr ssr' : SubjectSetByResourceID},
      (∀ entry ∈ entries, SetSound v (holds' entry.1) entry.2) →
      SetsSound v (fun r x => holds r x ∧ (r ∈ visited → holds' r x)) ssr →
      entries.foldlM SubjectSetByResourceID.intersectStep ssr = .ok ssr' →
      SetsSound v (fun r x => holds r x ∧ (r ∈ visited ∨ r ∈ entries.map (·.1) → holds' r x)) ssr'
  | [], _, _, _, _, h, hfold => by
    cases hfold
    exact h.mono fun r x hx => ⟨hx.1, fun hr => hx.2 (by simpa using hr)⟩
  | entry :: rest, visited, _, _, hentries, h, hfold => by
    rw [List.foldlM_cons] at hfold
    obtain ⟨ssr₁, hstep, hrest⟩ := Except.bind_eq_ok.1 hfold
    have h₁ := h.intersectStep (hentries entry List.mem_cons_self) hstep
    refine (SetsSound.foldlM_intersectStep rest (entry.1 :: visited)
      (fun e he => hentries e (List.mem_cons_of_mem entry he)) h₁ hrest).mono ?_
    intro r x hx
    refine ⟨hx.1, fun hr => hx.2 ?_⟩
    simp only [List.map_cons, List.mem_cons] at hr ⊢
    tauto

/-- The intersection of two sound maps of sets is sound for both properties. -/
theorem SetsSound.intersectionDifference {other : SubjectSetByResourceID} (h : SetsSound v holds ssr)
    (hother : SetsSound v holds' other) (hint : ssr.intersectionDifference other = .ok ssr') :
    SetsSound v (fun r x => holds r x ∧ holds' r x) ssr' := by
  obtain ⟨ssr₁, hfirst, hssr'⟩ := Except.bind_eq_ok.1 hint
  cases hssr'
  have h₁ := SetsSound.foldlM_intersectStep other.subjectSetByResourceID.entries []
    (fun entry hentry => hother entry.1 entry.2 (AList.mem_lookup_iff.2 hentry))
    (h.mono fun r x hx => ⟨hx, fun hr => absurd hr List.not_mem_nil⟩) hfirst
  -- the second loop keeps only the resources the other map has, all visited by the first
  intro r S hr
  rw [AList.lookup_foldl_erase] at hr
  split_ifs at hr with hdrop
  refine (h₁ r S hr).mono fun x hx => ⟨hx.1, hx.2 (.inr ?_)⟩
  have hkey : r ∈ ssr₁.subjectSetByResourceID.keys :=
    AList.mem_keys.1 (AList.lookup_isSome.1 (by rw [hr]; rfl))
  have hsome : (other.subjectSetByResourceID.lookup r).isSome = true := by
    by_contra hnone
    exact hdrop ⟨hkey, by simpa using hnone⟩
  obtain ⟨O, hO⟩ := Option.isSome_iff_exists.1 hsome
  exact List.mem_map.2 ⟨⟨r, O⟩, AList.mem_lookup_iff.1 hO, rfl⟩

end Intersection

theorem SetsSound.asMap {ssr : SubjectSetByResourceID} (h : SetsSound v holds ssr) :
    ResponseSound v holds ssr.asMap := by
  refine List.foldl_invariant (ResponseSound v holds) _ _ (fun mapped entry hentry hmapped => ?_)
    responseSound_empty
  exact hmapped.insert fun f hf =>
    (h entry.1 entry.2 (AList.mem_lookup_iff.2 hentry)).foundSound_of_mem hf

end Soundness

end SpiceDB.Datasets
