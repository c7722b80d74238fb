import SpiceDB.Lib.AList
import SpiceDB.Lib.Except
import SpiceDB.Datasets.BaseSubjectSet

namespace SpiceDB.Datasets

open Caveats

variable {T : Type} [Subject T]

/-- A constructor builds exactly the element it is given. -/
structure LawfulConstructor (constructor : Constructor T) : Prop where
  subjectId_eq : ∀ id e xs srcs, subjectId (constructor id e xs srcs) = id
  caveatExpression_eq : ∀ id e xs srcs, caveatExpression (constructor id e xs srcs) = e
  excludedSubjects_eq : ∀ id e xs srcs, excludedSubjects (constructor id e xs srcs) = xs

/-- The element's own caveat holds. -/
def holds (v : Valuation) (t : T) : Bool := evalCaveat v (caveatExpression t)

/-- Some exclusion of `x` in the wildcard `w` holds. -/
def excludedBy (v : Valuation) (w : T) (x : String) : Bool :=
  (excludedSubjects w).any fun e => decide (subjectId e = x) && holds v e

/-- `x` is in the wildcard `w`. -/
def wildcardMember (v : Valuation) (w : T) (x : String) : Bool :=
  holds v w && !excludedBy v w x

/-- `x` is a member of the set. -/
def member (S : BaseSubjectSet T) (v : Valuation) (x : String) : Bool :=
  (S.concrete.lookup x).any (holds v) || S.wildcard.any (wildcardMember v · x)

/-- `x` is a member of the set holding the one subject `t`. -/
def subjectMember (v : Valuation) (t : T) (x : String) : Bool :=
  if subjectId t = publicWildcard then wildcardMember v t x
  else decide (subjectId t = x) && holds v t

/-- A concrete subject: not a wildcard, and no exclusions. -/
structure ConcreteSubject (t : T) : Prop where
  not_wildcard : subjectId t ≠ publicWildcard
  no_exclusions : excludedSubjects t = []

/-- A wildcard subject whose exclusions are concrete, with distinct ids. -/
structure WildcardSubject (w : T) : Prop where
  is_wildcard : subjectId w = publicWildcard
  concrete_exclusions : ∀ e ∈ excludedSubjects w, ConcreteSubject e
  distinct_exclusions : ((excludedSubjects w).map subjectId).Nodup

/-- The subjects the operations may be given. -/
def WellFormedSubject (t : T) : Prop := ConcreteSubject t ∨ WildcardSubject t

/-- Every element of the map is stored under its own id. -/
def Keyed (m : SubjectMap T) : Prop := ∀ k t, m.lookup k = some t → subjectId t = k

/-- The shape every set keeps. -/
structure WellFormed (S : BaseSubjectSet T) : Prop where
  concrete_key : Keyed S.concrete
  concrete_subject : ∀ k t, S.concrete.lookup k = some t → ConcreteSubject t
  wildcard_subject : ∀ w, S.wildcard = some w → WildcardSubject w

theorem concreteSubject_iff (t : T) :
    ConcreteSubject t ↔ subjectId t ≠ publicWildcard ∧ (excludedSubjects t).isEmpty = true := by
  rw [List.isEmpty_iff]
  exact ⟨fun h => ⟨h.not_wildcard, h.no_exclusions⟩, fun h => ⟨h.1, h.2⟩⟩

instance (t : T) : Decidable (ConcreteSubject t) := decidable_of_iff _ (concreteSubject_iff t).symm

theorem wildcardSubject_iff (w : T) :
    WildcardSubject w ↔ subjectId w = publicWildcard ∧ (∀ e ∈ excludedSubjects w, ConcreteSubject e) ∧
      ((excludedSubjects w).map subjectId).Nodup :=
  ⟨fun h => ⟨h.is_wildcard, h.concrete_exclusions, h.distinct_exclusions⟩,
    fun h => ⟨h.1, h.2.1, h.2.2⟩⟩

instance (w : T) : Decidable (WildcardSubject w) := decidable_of_iff _ (wildcardSubject_iff w).symm

theorem keyed_iff (m : SubjectMap T) : Keyed m ↔ ∀ e ∈ m.entries, subjectId e.2 = e.1 := by
  constructor
  · intro h e he
    exact h e.1 e.2 (AList.mem_lookup_iff.mpr he)
  · intro h k t hk
    exact h ⟨k, t⟩ (AList.mem_lookup_iff.mp hk)

instance (m : SubjectMap T) : Decidable (Keyed m) := decidable_of_iff _ (keyed_iff m).symm

theorem wellFormed_iff (S : BaseSubjectSet T) :
    WellFormed S ↔ Keyed S.concrete ∧ (∀ e ∈ S.concrete.entries, ConcreteSubject e.2) ∧
      ∀ w ∈ S.wildcard, WildcardSubject w := by
  constructor
  · intro h
    refine ⟨h.concrete_key, fun e he => ?_, fun w hw => h.wildcard_subject w hw⟩
    exact h.concrete_subject e.1 e.2 (AList.mem_lookup_iff.mpr he)
  · rintro ⟨hkey, hsub, hw⟩
    exact ⟨hkey, fun k t hk => hsub ⟨k, t⟩ (AList.mem_lookup_iff.mp hk), hw⟩

instance (S : BaseSubjectSet T) : Decidable (WellFormed S) := decidable_of_iff _ (wellFormed_iff S).symm

section Lawful

variable {constructor : Constructor T} (hc : LawfulConstructor constructor) (v : Valuation)
include hc

theorem holds_construct (id : String) (e : Option CaveatExpression) (xs srcs : List T) :
    holds v (constructor id e xs srcs) = evalCaveat v e := by
  simp [holds, hc.caveatExpression_eq]

theorem excludedBy_construct (id : String) (e : Option CaveatExpression) (xs srcs : List T)
    (x : String) : excludedBy v (constructor id e xs srcs) x =
      xs.any fun e => decide (subjectId e = x) && holds v e := by
  simp [excludedBy, hc.excludedSubjects_eq]

theorem unionConcreteWithConcrete_any (a b : Option T) :
    (unionConcreteWithConcrete a b constructor).any (holds v) = (a.any (holds v) || b.any (holds v)) := by
  cases a <;> cases b <;> simp [unionConcreteWithConcrete, hc.caveatExpression_eq, holds]

theorem unionConcreteWithConcrete_subjectId {a : T} {b : Option T}
    (hb : ∀ t, b = some t → subjectId t = subjectId a) :
    ∀ t, unionConcreteWithConcrete (some a) b constructor = some t → subjectId t = subjectId a := by
  intro t ht
  cases b with
  | none => simp [unionConcreteWithConcrete] at ht; rw [ht]
  | some b =>
    simp only [unionConcreteWithConcrete, Option.some.injEq] at ht
    rw [← ht, hc.subjectId_eq]

/-- One exclusion after a concrete joins the wildcard: it still excludes `x` unless the
concrete is `x` and holds. -/
theorem unionExclusionWithConcrete_any (t e : T) (x : String) :
    (unionExclusionWithConcrete t constructor e).any (fun e => decide (subjectId e = x) && holds v e) =
      (decide (subjectId e = x) && holds v e && !(decide (subjectId t = x) && holds v t)) := by
  unfold unionExclusionWithConcrete
  by_cases he : subjectId e = subjectId t
  · rw [if_pos he, he]
    by_cases hx : subjectId t = x
    · cases hct : caveatExpression t with
      | none => simp [hct, hx, holds]
      | some ct => simp [hct, hx, hc.subjectId_eq, hc.caveatExpression_eq, holds]
    · split <;> simp [hc.subjectId_eq, hx]
  · rw [if_neg he]
    by_cases hex : subjectId e = x
    · have htx : subjectId t ≠ x := fun h => he (hex.trans h.symm)
      simp [hex, htx]
    · simp [hex]

/-- Joining a concrete into a wildcard keeps the wildcard's caveat and lifts the
concrete's id out of the exclusions where the concrete holds. -/
theorem unionWildcardWithConcrete_some (w t : T) :
    ∃ w', unionWildcardWithConcrete (some w) t constructor = some w' ∧ holds v w' = holds v w ∧
      ∀ x, excludedBy v w' x = (excludedBy v w x && !(decide (subjectId t = x) && holds v t)) := by
  refine ⟨_, rfl, holds_construct hc v _ _ _ _, fun x => ?_⟩
  rw [excludedBy_construct hc, excludedBy]
  induction excludedSubjects w with
  | nil => simp
  | cons e es ih =>
    rw [List.filterMap_cons]
    have he := unionExclusionWithConcrete_any hc v t e x
    cases hu : unionExclusionWithConcrete t constructor e with
    | none =>
      rw [hu] at he
      simp only [Option.any_none] at he
      rw [ih, List.any_cons, Bool.and_or_distrib_right, ← he, Bool.false_or]
    | some e' =>
      rw [hu] at he
      simp only [Option.any_some] at he
      simp only [List.any_cons, ih, he, Bool.and_or_distrib_right]

end Lawful

theorem lookup_setConcrete_some (S : BaseSubjectSet T) (id : String) (t : T) (x : String) :
    ((S.setConcrete id (some t)).concrete.lookup x) =
      if x = subjectId t then some t else S.concrete.lookup x := by
  by_cases hx : x = subjectId t
  · subst hx
    simp [BaseSubjectSet.setConcrete, AList.lookup_insert]
  · simp [BaseSubjectSet.setConcrete, AList.lookup_insert_ne hx, hx]

theorem lookup_setConcrete (S : BaseSubjectSet T) (id : String) (o : Option T)
    (hid : ∀ u, o = some u → subjectId u = id) (x : String) :
    (S.setConcrete id o).concrete.lookup x = if x = id then o else S.concrete.lookup x := by
  cases o with
  | none =>
    by_cases hx : x = id
    · subst hx
      simp [BaseSubjectSet.setConcrete, AList.lookup_erase]
    · simp [BaseSubjectSet.setConcrete, AList.lookup_erase_ne hx, hx]
  | some u => rw [lookup_setConcrete_some, hid u rfl]

theorem union_concrete_identity :
    ∀ c t w e : Bool, ((c || t) || (w && !(e && !t))) = ((c || (w && !e)) || t) := by
  decide

theorem addConcrete_wildcard {constructor : Constructor T} (S : BaseSubjectSet T)
    (hS : S.constructor = constructor) (t : T) :
    (S.addConcrete t).wildcard = unionWildcardWithConcrete S.wildcard t constructor := by
  simp [BaseSubjectSet.addConcrete, hS]

section Lawful

variable {constructor : Constructor T} (hc : LawfulConstructor constructor) (v : Valuation)
include hc

/-- Adding a concrete stores, under its id, an element that holds when the previous entry
or the concrete holds. -/
theorem addConcrete_concrete (S : BaseSubjectSet T) (hS : S.constructor = constructor)
    (hkey : Keyed S.concrete) (t : T) :
    ∃ u, subjectId u = subjectId t ∧
      (∀ v, holds v u = ((S.concrete.lookup (subjectId t)).any (holds v) || holds v t)) ∧
      ∀ x, (S.addConcrete t).concrete.lookup x =
        if x = subjectId t then some u else S.concrete.lookup x := by
  obtain ⟨u, hsome⟩ : ∃ u, unionConcreteWithConcrete (S.concrete.lookup (subjectId t)) (some t)
      constructor = some u := by
    cases S.concrete.lookup (subjectId t) <;> simp [unionConcreteWithConcrete]
  have hid : subjectId u = subjectId t := by
    cases hl : S.concrete.lookup (subjectId t) with
    | none => rw [hl] at hsome; simp [unionConcreteWithConcrete] at hsome; rw [hsome]
    | some p =>
      rw [hl] at hsome
      have hp := hkey _ p hl
      rw [unionConcreteWithConcrete_subjectId hc (by rintro _ ⟨⟩; exact hp.symm) u hsome, hp]
  refine ⟨u, hid, fun v => ?_, fun x => ?_⟩
  · have hany := unionConcreteWithConcrete_any hc v (S.concrete.lookup (subjectId t)) (some t)
    rwa [hsome, Option.any_some, Option.any_some] at hany
  · simp only [BaseSubjectSet.addConcrete, hS, hsome, lookup_setConcrete_some, hid]

theorem keyed_addConcrete (S : BaseSubjectSet T) (hS : S.constructor = constructor)
    (hkey : Keyed S.concrete) (t : T) : Keyed (S.addConcrete t).concrete := by
  obtain ⟨u, hid, -, hlookup⟩ := addConcrete_concrete hc S hS hkey t
  intro k p hk
  rw [hlookup] at hk
  split at hk
  · rename_i hkt
    cases hk
    rw [hid, hkt]
  · exact hkey k p hk

/-- Adding a concrete subject is a union, on any set whose concretes are keyed by their
own id. -/
theorem member_addConcrete (S : BaseSubjectSet T) (hS : S.constructor = constructor)
    (hkey : Keyed S.concrete) (t : T) (x : String) :
    member (S.addConcrete t) v x = (member S v x || (decide (subjectId t = x) && holds v t)) := by
  obtain ⟨u, -, hholds, hlookup⟩ := addConcrete_concrete hc S hS hkey t
  rw [member, member, hlookup, addConcrete_wildcard S hS]
  by_cases hx : x = subjectId t
  · subst hx
    rw [if_pos rfl, Option.any_some, hholds]
    cases hw : S.wildcard with
    | none => simp [unionWildcardWithConcrete]
    | some w =>
      obtain ⟨w', hw', hh, hex⟩ := unionWildcardWithConcrete_some hc v w t
      simp only [hw', Option.any_some, wildcardMember, hh, hex, decide_true, Bool.true_and]
      exact union_concrete_identity _ _ _ _
  · have hx' : subjectId t ≠ x := Ne.symm hx
    rw [if_neg hx]
    cases hw : S.wildcard with
    | none => simp [unionWildcardWithConcrete, hx']
    | some w =>
      obtain ⟨w', hw', hh, hex⟩ := unionWildcardWithConcrete_some hc v w t
      simp [hw', wildcardMember, hh, hex, hx']

/-- Adding non-wildcard exclusions to a set of concretes succeeds and adds each of them. -/
theorem addExclusions_spec :
    ∀ (l : List T) (S : BaseSubjectSet T), S.constructor = constructor → Keyed S.concrete →
      S.wildcard = none → (∀ e ∈ l, subjectId e ≠ publicWildcard) →
      ∃ S', S.addExclusions l = .ok S' ∧ S'.constructor = constructor ∧ Keyed S'.concrete ∧
        S'.wildcard = none ∧ ∀ v x, (S'.concrete.lookup x).any (holds v) =
          ((S.concrete.lookup x).any (holds v) || l.any fun e => decide (subjectId e = x) && holds v e)
  | [], S, hS, hkey, hw, _ => ⟨S, rfl, hS, hkey, hw, fun v x => by simp⟩
  | e :: l, S, hS, hkey, hw, hl => by
    have he : subjectId e ≠ publicWildcard := hl e List.mem_cons_self
    have hw' : (S.addConcrete e).wildcard = none := by
      rw [addConcrete_wildcard S hS, hw]
      rfl
    obtain ⟨S', hrun, hS', hkey', hw'', hspec⟩ := addExclusions_spec l (S.addConcrete e)
      (by simp [BaseSubjectSet.addConcrete, hS]) (keyed_addConcrete hc S hS hkey e) hw'
      (fun e' he' => hl e' (List.mem_cons_of_mem _ he'))
    refine ⟨S', by simp [BaseSubjectSet.addExclusions, he, hrun], hS', hkey', hw'', fun v x => ?_⟩
    have hm := member_addConcrete hc v S hS hkey e x
    simp only [member, hw, hw', Option.any_none, Bool.or_false] at hm
    rw [hspec, hm, List.any_cons, Bool.or_assoc]

theorem unionConcreteWithConcrete_concrete {a b : Option T}
    (ha : ∀ t, a = some t → ConcreteSubject t) (hb : ∀ t, b = some t → ConcreteSubject t) :
    ∀ t, unionConcreteWithConcrete a b constructor = some t → ConcreteSubject t := by
  intro t ht
  cases a with
  | none => exact hb t ht
  | some p =>
    cases b with
    | none => exact ha t ht
    | some q =>
      simp only [unionConcreteWithConcrete, Option.some.injEq] at ht
      subst ht
      exact ⟨by rw [hc.subjectId_eq]; exact (ha p rfl).not_wildcard, hc.excludedSubjects_eq _ _ _ _⟩

theorem unionExclusionWithConcrete_subjectId (t e e' : T)
    (h : unionExclusionWithConcrete t constructor e = some e') : subjectId e' = subjectId e := by
  unfold unionExclusionWithConcrete at h
  split at h
  · rename_i he
    split at h
    · cases h
    · cases h
      rw [hc.subjectId_eq, he]
  · cases h
    rfl

theorem unionExclusionWithConcrete_concrete (t e e' : T) (he : ConcreteSubject e)
    (h : unionExclusionWithConcrete t constructor e = some e') : ConcreteSubject e' := by
  unfold unionExclusionWithConcrete at h
  split at h
  · rename_i hid
    split at h
    · cases h
    · cases h
      exact ⟨by rw [hc.subjectId_eq, ← hid]; exact he.not_wildcard, hc.excludedSubjects_eq _ _ _ _⟩
  · cases h
    exact he

theorem unionWildcardWithConcrete_wildcard (w t : T) (hw : WildcardSubject w) :
    ∀ w', unionWildcardWithConcrete (some w) t constructor = some w' → WildcardSubject w' := by
  intro w' h
  simp only [unionWildcardWithConcrete, Option.map_some, Option.some.injEq] at h
  subst h
  refine ⟨hc.subjectId_eq _ _ _ _, ?_, ?_⟩
  · rw [hc.excludedSubjects_eq]
    intro e he
    obtain ⟨e₀, he₀, hf⟩ := List.mem_filterMap.mp he
    exact unionExclusionWithConcrete_concrete hc t e₀ e (hw.concrete_exclusions e₀ he₀) hf
  · rw [hc.excludedSubjects_eq]
    exact hw.distinct_exclusions.sublist (List.map_filterMap_sublist _ subjectId subjectId
      (unionExclusionWithConcrete_subjectId hc t) _)

/-- Adding a concrete subject keeps a set well formed. -/
theorem WellFormed.addConcrete {S : BaseSubjectSet T} (hwf : WellFormed S)
    (hS : S.constructor = constructor) {t : T} (ht : ConcreteSubject t) :
    WellFormed (S.addConcrete t) where
  concrete_key := keyed_addConcrete hc S hS hwf.concrete_key t
  concrete_subject := by
    obtain ⟨u, hsome⟩ : ∃ u, unionConcreteWithConcrete (S.concrete.lookup (subjectId t)) (some t)
        constructor = some u := by
      cases S.concrete.lookup (subjectId t) <;> simp [unionConcreteWithConcrete]
    have hu : ConcreteSubject u := unionConcreteWithConcrete_concrete hc
      (fun p hp => hwf.concrete_subject _ p hp) (by rintro _ ⟨⟩; exact ht) u hsome
    intro k p hk
    simp only [BaseSubjectSet.addConcrete, hS, hsome, lookup_setConcrete_some] at hk
    split at hk
    · cases hk
      exact hu
    · exact hwf.concrete_subject k p hk
  wildcard_subject := by
    intro w hw
    rw [addConcrete_wildcard S hS] at hw
    cases hS' : S.wildcard with
    | none => simp [unionWildcardWithConcrete, hS'] at hw
    | some w₀ =>
      rw [hS'] at hw
      exact unionWildcardWithConcrete_wildcard hc w₀ t (hwf.wildcard_subject w₀ hS') w hw

end Lawful

theorem wellFormed_newBaseSubjectSet (constructor : Constructor T) :
    WellFormed (newBaseSubjectSet constructor) where
  concrete_key := by
    intro k t h
    simp [newBaseSubjectSet] at h
  concrete_subject := by
    intro k t h
    simp [newBaseSubjectSet] at h
  wildcard_subject := by
    intro w h
    cases h

end SpiceDB.Datasets
