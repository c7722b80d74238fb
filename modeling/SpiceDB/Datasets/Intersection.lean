import SpiceDB.Datasets.SubjectSet

namespace SpiceDB.Datasets

open Caveats

variable {T : Type} [Subject T]

theorem wildcard_intersection_identity :
    ∀ a b e₁ e₂ : Bool, ((a && b) && !(e₁ || e₂)) = ((a && !e₁) && (b && !e₂)) := by
  decide

theorem intersection_identity :
    ∀ c₁ c₂ w₁ w₂ : Bool,
      ((c₁ && (c₂ || w₂)) || (c₂ && w₁) || (w₁ && w₂)) = ((c₁ || w₁) && (c₂ || w₂)) := by
  decide

theorem exclusionsMapFor_lookup_any (w : T) (hw : WildcardSubject w) (v : Valuation) (x : String) :
    ((exclusionsMapFor w).lookup x).any (holds v) = excludedBy v w x := by
  rw [exclusionsMapFor, AList.lookup_foldl_insert subjectId _ hw.distinct_exclusions, excludedBy,
    List.any_key_eq_find?_any subjectId x (holds v) _ hw.distinct_exclusions]
  cases (excludedSubjects w).find? (fun e => subjectId e = x) <;> simp

/-- One step of the first loop sets the visited concrete's id, and no other. -/
theorem lookup_intersectStepWithOther {constructor : Constructor T} (O : BaseSubjectSet T) (m : SubjectMap T) (p : T) (a : String) :
    (intersectStepWithOther O constructor m p).lookup a =
      if a = subjectId p then
        (unionConcreteWithConcrete (intersectConcreteWithConcrete p (O.concrete.lookup (subjectId p))
          constructor) (intersectConcreteWithWildcard p O.wildcard constructor) constructor).or
          (m.lookup a)
      else m.lookup a := by
  cases hr : unionConcreteWithConcrete (intersectConcreteWithConcrete p
      (O.concrete.lookup (subjectId p)) constructor)
      (intersectConcreteWithWildcard p O.wildcard constructor) constructor with
  | none => simp [intersectStepWithOther, hr]
  | some r =>
    simp only [intersectStepWithOther, hr, Option.some_or]
    by_cases ha : a = subjectId p
    · subst ha
      simp [AList.lookup_insert]
    · simp [ha, AList.lookup_insert_ne ha]

/-- One step of the second loop sets the visited concrete's id, and no other. -/
theorem lookup_intersectStepWithExisting {constructor : Constructor T} (w : T) (m : SubjectMap T) (q : T) (a : String) :
    (intersectStepWithExisting w constructor m q).lookup a =
      if a = subjectId q then
        match m.lookup a with
        | some u => (unionConcreteWithConcrete (some u)
            (intersectConcreteWithWildcard q (some w) constructor) constructor).or (some u)
        | none => intersectConcreteWithWildcard q (some w) constructor
      else m.lookup a := by
  cases hl : m.lookup (subjectId q) with
  | none =>
    cases hi : intersectConcreteWithWildcard q (some w) constructor with
    | none =>
      by_cases ha : a = subjectId q
      · rw [ha]
        simp [intersectStepWithExisting, hl, hi]
      · simp [intersectStepWithExisting, hl, hi, ha]
    | some r =>
      by_cases ha : a = subjectId q
      · rw [ha]
        simp [intersectStepWithExisting, hl, hi, AList.lookup_insert]
      · simp [intersectStepWithExisting, hl, hi, ha, AList.lookup_insert_ne ha]
  | some u =>
    cases hu : unionConcreteWithConcrete (some u) (intersectConcreteWithWildcard q (some w)
        constructor) constructor with
    | none =>
      by_cases ha : a = subjectId q
      · rw [ha]
        simp [intersectStepWithExisting, hl, hu]
      · simp [intersectStepWithExisting, hl, hu, ha]
    | some r =>
      by_cases ha : a = subjectId q
      · rw [ha]
        simp [intersectStepWithExisting, hl, hu, AList.lookup_insert]
      · simp [intersectStepWithExisting, hl, hu, ha, AList.lookup_insert_ne ha]

section Lawful

variable {constructor : Constructor T} (hc : LawfulConstructor constructor) (v : Valuation)
include hc

theorem intersectConcreteWithConcrete_any (p : T) (q : Option T) :
    (intersectConcreteWithConcrete p q constructor).any (holds v) = q.any (holds v p && holds v ·) := by
  cases q <;> simp [intersectConcreteWithConcrete, hc.caveatExpression_eq, holds]

/-- A concrete intersected with a wildcard holds when the concrete holds and is in the
wildcard. -/
theorem intersectConcreteWithWildcard_any (p : T) (w : Option T)
    (hw : ∀ w', w = some w' → WildcardSubject w') :
    (intersectConcreteWithWildcard p w constructor).any (holds v) =
      (holds v p && w.any (wildcardMember v · (subjectId p))) := by
  cases w with
  | none => simp [intersectConcreteWithWildcard]
  | some w =>
    have hex := exclusionsMapFor_lookup_any w (hw w rfl) v (subjectId p)
    simp only [intersectConcreteWithWildcard, Option.bind_some, Option.any_some, wildcardMember]
    cases hl : (exclusionsMapFor w).lookup (subjectId p) with
    | none =>
      rw [hl, Option.any_none] at hex
      rw [← hex]
      cases hcw : caveatExpression w <;> simp [holds, hcw, hc.caveatExpression_eq]
    | some e =>
      rw [hl, Option.any_some] at hex
      rw [← hex]
      cases hce : caveatExpression e <;> simp [holds, hce, hc.caveatExpression_eq]

/-- Two wildcards whose exclusions are concrete intersect into a wildcard holding the
members of both. -/
theorem intersectWildcardWithWildcard_some (w₁ w₂ : T) (h₁ : WildcardSubject w₁)
    (h₂ : WildcardSubject w₂) :
    ∃ W, intersectWildcardWithWildcard (some w₁) (some w₂) constructor = .ok (some W) ∧
      ∀ v x, wildcardMember v W x = (wildcardMember v w₁ x && wildcardMember v w₂ x) := by
  have hnew : (newBaseSubjectSet constructor).wildcard = none := rfl
  have hkey : Keyed (newBaseSubjectSet constructor).concrete := by
    intro k t hk
    simp [newBaseSubjectSet] at hk
  obtain ⟨S₁, hrun₁, hS₁, hkey₁, hw₁, hspec₁⟩ := addExclusions_spec hc (excludedSubjects w₁)
    (newBaseSubjectSet constructor) rfl hkey hnew (fun e he => (h₁.concrete_exclusions e he).not_wildcard)
  obtain ⟨S₂, hrun₂, -, hkey₂, hw₂, hspec₂⟩ := addExclusions_spec hc (excludedSubjects w₂) S₁ hS₁
    hkey₁ hw₁ (fun e he => (h₂.concrete_exclusions e he).not_wildcard)
  refine ⟨constructor publicWildcard (caveatAnd (caveatExpression w₁) (caveatExpression w₂))
    S₂.asSlice [w₁, w₂], ?_, fun v x => ?_⟩
  · simp only [intersectWildcardWithWildcard, hrun₁, hrun₂, Except.ok_bind, Except.pure_eq_ok]
  · have hex : excludedBy v (constructor publicWildcard
        (caveatAnd (caveatExpression w₁) (caveatExpression w₂)) S₂.asSlice [w₁, w₂]) x =
        (excludedBy v w₁ x || excludedBy v w₂ x) := by
      rw [excludedBy_construct hc, BaseSubjectSet.asSlice, hw₂, Option.toList_none,
        List.append_nil, AList.any_values_eq_lookup subjectId S₂.concrete hkey₂ x (holds v),
        hspec₂, hspec₁]
      simp [newBaseSubjectSet, excludedBy]
    rw [wildcardMember, hex, holds_construct hc, evalCaveat_caveatAnd]
    exact wildcard_intersection_identity _ _ _ _

end Lawful

/-- After the first loop, `x` holds what this set's concrete `x` makes with the other set's
concrete `x` and wildcard. -/
theorem lookup_first_loop {constructor : Constructor T} (S O : BaseSubjectSet T)
    (hkey : Keyed S.concrete) (x : String) :
    (S.concrete.entries.foldl (fun m e => intersectStepWithOther O constructor m e.2) ∅).lookup x =
      (S.concrete.lookup x).bind fun p => unionConcreteWithConcrete
        (intersectConcreteWithConcrete p (O.concrete.lookup x) constructor)
        (intersectConcreteWithWildcard p O.wildcard constructor) constructor := by
  rw [AList.lookup_foldl_local (fun m e => intersectStepWithOther O constructor m e.2)
    (fun e prev => (unionConcreteWithConcrete (intersectConcreteWithConcrete e.2
      (O.concrete.lookup (subjectId e.2)) constructor) (intersectConcreteWithWildcard e.2 O.wildcard constructor)
      constructor).or prev) S.concrete.entries S.concrete.nodupKeys
    (fun ⟨k, p⟩ he m => by
      have hp : subjectId p = k := hkey k p (AList.mem_lookup_iff.mpr he)
      simp [lookup_intersectStepWithOther, hp])
    (fun ⟨k, p⟩ he m a ha => by
      have hp : subjectId p = k := hkey k p (AList.mem_lookup_iff.mpr he)
      simp [lookup_intersectStepWithOther, hp, ha]) ∅ x]
  rw [show S.concrete.entries.dlookup x = S.concrete.lookup x from rfl]
  cases hl : S.concrete.lookup x with
  | none => simp
  | some p =>
    obtain rfl : subjectId p = x := hkey x p hl
    simp

/-- After the second loop, `x` also holds what the other set's concrete `x` makes with this
set's wildcard. -/
theorem lookup_second_loop {constructor : Constructor T} (O : BaseSubjectSet T) (w : T)
    (hkey : Keyed O.concrete) (m : SubjectMap T) (x : String) :
    (O.concrete.entries.foldl (fun m e => intersectStepWithExisting w constructor m e.2) m).lookup x =
      match O.concrete.lookup x with
      | some q => unionConcreteWithConcrete (m.lookup x)
          (intersectConcreteWithWildcard q (some w) constructor) constructor
      | none => m.lookup x := by
  rw [AList.lookup_foldl_local (fun m e => intersectStepWithExisting w constructor m e.2)
    (fun e prev => match prev with
      | some u => (unionConcreteWithConcrete (some u)
          (intersectConcreteWithWildcard e.2 (some w) constructor) constructor).or (some u)
      | none => intersectConcreteWithWildcard e.2 (some w) constructor)
    O.concrete.entries O.concrete.nodupKeys
    (fun ⟨k, q⟩ he m => by
      have hq : subjectId q = k := hkey k q (AList.mem_lookup_iff.mpr he)
      simp [lookup_intersectStepWithExisting, hq])
    (fun ⟨k, q⟩ he m a ha => by
      have hq : subjectId q = k := hkey k q (AList.mem_lookup_iff.mpr he)
      simp [lookup_intersectStepWithExisting, hq, ha]) m x]
  rw [show O.concrete.entries.dlookup x = O.concrete.lookup x from rfl]
  cases O.concrete.lookup x with
  | none => rfl
  | some q =>
    dsimp only
    -- a union with a present subject is present, so the second loop's `.or` keeps it
    cases m.lookup x with
    | none => rfl
    | some u =>
      dsimp only
      cases intersectConcreteWithWildcard q (some w) constructor <;> rfl

section Lawful

variable {constructor : Constructor T} (hc : LawfulConstructor constructor) (v : Valuation)
include hc

theorem first_loop_any (S O : BaseSubjectSet T) (hkey : Keyed S.concrete)
    (hOw : ∀ w, O.wildcard = some w → WildcardSubject w) (x : String) :
    ((S.concrete.entries.foldl (fun m e => intersectStepWithOther O constructor m e.2) ∅).lookup
      x).any (holds v) =
      ((S.concrete.lookup x).any (holds v) && member O v x) := by
  rw [lookup_first_loop S O hkey x]
  cases hl : (S.concrete.lookup x : Option T) with
  | none => simp
  | some p =>
    obtain rfl : subjectId p = x := hkey x p hl
    simp only [Option.bind_some, unionConcreteWithConcrete_any hc,
      intersectConcreteWithConcrete_any hc, intersectConcreteWithWildcard_any hc v p _ hOw,
      Option.any_some, member]
    cases O.concrete.lookup (subjectId p) <;> cases holds v p <;> simp

theorem second_loop_any (O : BaseSubjectSet T) (w : T) (hw : WildcardSubject w)
    (hkey : Keyed O.concrete) (m : SubjectMap T) (x : String) :
    ((O.concrete.entries.foldl (fun m e => intersectStepWithExisting w constructor m e.2) m).lookup
      x).any (holds v) =
      ((m.lookup x).any (holds v) || ((O.concrete.lookup x).any (holds v) && wildcardMember v w x)) := by
  rw [lookup_second_loop O w hkey m x]
  cases hl : O.concrete.lookup x with
  | none => simp
  | some q =>
    rw [unionConcreteWithConcrete_any hc, intersectConcreteWithWildcard_any hc v q (some w)
      (by rintro _ ⟨⟩; exact hw), hkey x q hl]
    rfl

end Lawful

/-- `IntersectionDifference` of two well-formed sets keeps exactly the members of both. -/
theorem intersectionDifference_member (S O S' : BaseSubjectSet T)
    (hc : LawfulConstructor S.constructor) (hS : WellFormed S) (hO : WellFormed O)
    (h : S.intersectionDifference O = .ok S') (v : Valuation) (x : String) :
    member S' v x = (member S v x && member O v x) := by
  unfold BaseSubjectSet.intersectionDifference at h
  obtain ⟨I, hI, hS'⟩ := Except.bind_eq_ok.mp h
  simp only [Except.pure_eq_ok, Except.ok.injEq] at hS'
  subst hS'
  have h₁ := first_loop_any hc v S O hS.concrete_key hO.wildcard_subject x
  cases hw₁ : S.wildcard with
  | none =>
    have hI' : I = none := by
      simpa [intersectWildcardWithWildcard, hw₁] using hI.symm
    simp only [member, hw₁, hI', h₁, Option.any_none, Bool.or_false]
  | some w₁ =>
    have hw₁' := hS.wildcard_subject w₁ hw₁
    have h₂ := second_loop_any hc v O w₁ hw₁' hO.concrete_key
      (S.concrete.entries.foldl (fun m e => intersectStepWithOther O S.constructor m e.2) ∅) x
    cases hw₂ : O.wildcard with
    | none =>
      have hI' : I = none := by
        simpa [intersectWildcardWithWildcard, hw₁, hw₂] using hI.symm
      simp only [member, hw₁, hI', h₂, h₁, hw₂, Option.any_none, Option.any_some, Bool.or_false]
      cases (S.concrete.lookup x).any (holds v) <;> cases (O.concrete.lookup x).any (holds v) <;>
        simp
    | some w₂ =>
      obtain ⟨W, hW, hmem⟩ := intersectWildcardWithWildcard_some hc w₁ w₂ hw₁'
        (hO.wildcard_subject w₂ hw₂)
      rw [hw₁, hw₂, hW] at hI
      cases hI
      simp only [member, hw₁, h₂, h₁, hw₂, Option.any_some, hmem]
      exact intersection_identity _ _ _ _

/-- A wildcard without `alice`, with `bob`, meets `alice` and a caveated `carol`: only
`carol` remains, under its caveat. -/
theorem intersectionDifference_member_carol :
    member (⟨subjectSetConstructor, (∅ : SubjectMap FoundSubject).insert "carol"
        ⟨"carol", some (.caveat ⟨"ok", ⟨[]⟩⟩), []⟩, none⟩ : SubjectSet) (fun _ => true) "carol" =
      (member ((⟨subjectSetConstructor, ∅, some ⟨publicWildcard, none, [⟨"alice", none, []⟩]⟩⟩ :
          SubjectSet).addConcrete ⟨"bob", none, []⟩) (fun _ => true) "carol" &&
        member ((newSubjectSet.addConcrete ⟨"alice", none, []⟩).addConcrete
          ⟨"carol", some (.caveat ⟨"ok", ⟨[]⟩⟩), []⟩) (fun _ => true) "carol") :=
  intersectionDifference_member _ _ _ subjectSetConstructor_lawful (by decide) (by decide) rfl _ _

end SpiceDB.Datasets
