import SpiceDB.Datasets.Union
import SpiceDB.Datasets.Clone

namespace SpiceDB.Datasets

open Caveats

variable {T : Type} [Subject T]

/-- What a helper may store under the id `k`: nothing, or a concrete subject of that id. -/
def ConcreteAt (k : String) (o : Option T) : Prop :=
  ∀ t, o = some t → subjectId t = k ∧ ConcreteSubject t

/-- A map of concretes, each under its own id. -/
def ConcreteMap (m : SubjectMap T) : Prop := ∀ k, ConcreteAt k (m.lookup k)

theorem concreteAt_none (k : String) : ConcreteAt k (none : Option T) := by
  rintro _ ⟨⟩

theorem concreteAt_some {k : String} {t : T} (hk : subjectId t = k) (ht : ConcreteSubject t) :
    ConcreteAt k (some t) := by
  rintro _ ⟨⟩
  exact ⟨hk, ht⟩

theorem WellFormed.concreteMap {S : BaseSubjectSet T} (hwf : WellFormed S) :
    ConcreteMap S.concrete :=
  fun k t hk => ⟨hwf.concrete_key k t hk, hwf.concrete_subject k t hk⟩

theorem WellFormed.of_concreteMap {S : BaseSubjectSet T} (hm : ConcreteMap S.concrete)
    (hw : ∀ w, S.wildcard = some w → WildcardSubject w) : WellFormed S :=
  ⟨fun k t hk => (hm k t hk).1, fun k t hk => (hm k t hk).2, hw⟩

theorem concreteMap_empty : ConcreteMap (∅ : SubjectMap T) := fun k => by
  rw [AList.lookup_empty]
  exact concreteAt_none k

theorem ConcreteMap.insert {m : SubjectMap T} (hm : ConcreteMap m) {k : String} {u : T}
    (hu : ConcreteAt k (some u)) : ConcreteMap (m.insert k u) := fun k' => by
  by_cases hk : k' = k
  · subst hk
    rwa [AList.lookup_insert]
  · rw [AList.lookup_insert_ne hk]
    exact hm k'

theorem ConcreteMap.erase {m : SubjectMap T} (hm : ConcreteMap m) (k : String) :
    ConcreteMap (m.erase k) := fun k' => by
  by_cases hk : k' = k
  · subst hk
    rw [AList.lookup_erase]
    exact concreteAt_none k'
  · rw [AList.lookup_erase_ne hk]
    exact hm k'

theorem ConcreteMap.setConcrete {S : BaseSubjectSet T} (hm : ConcreteMap S.concrete) (id : String)
    {o : Option T} (ho : ∀ u, o = some u → ConcreteSubject u) :
    ConcreteMap (S.setConcrete id o).concrete := by
  cases o with
  | none => exact hm.erase id
  | some u => exact hm.insert (concreteAt_some rfl (ho u rfl))

theorem ConcreteMap.mem_entries {m : SubjectMap T} (hm : ConcreteMap m) {e : Σ _ : String, T}
    (he : e ∈ m.entries) : subjectId e.2 = e.1 ∧ ConcreteSubject e.2 :=
  hm e.1 e.2 (AList.mem_lookup_iff.2 he)

theorem ConcreteMap.nodup_values {m : SubjectMap T} (hm : ConcreteMap m) :
    ((m.entries.map Sigma.snd).map subjectId).Nodup := by
  have hkeys : (m.entries.map Sigma.snd).map subjectId = m.keys := by
    rw [List.map_map, AList.keys, List.keys]
    exact List.map_congr_left fun e he => (hm.mem_entries he).1
  rw [hkeys]
  exact m.keys_nodup

@[simp] theorem BaseSubjectSet.addConcrete_constructor (S : BaseSubjectSet T) (t : T) :
    (S.addConcrete t).constructor = S.constructor := by
  simp [BaseSubjectSet.addConcrete]

@[simp] theorem BaseSubjectSet.subtractConcrete_constructor (S : BaseSubjectSet T) (t : T) :
    (S.subtractConcrete t).constructor = S.constructor := by
  cases hl : S.concrete.lookup (subjectId t) <;> cases hw : S.wildcard <;>
    simp [BaseSubjectSet.subtractConcrete, hl, hw]

/-- A loop of `setConcrete` calls keeps the constructor. -/
@[simp] theorem foldl_setConcrete_constructor {γ : Type} (k : γ → String) (g : γ → Option T)
    (l : List γ) (S : BaseSubjectSet T) :
    (l.foldl (fun b e => b.setConcrete (k e) (g e)) S).constructor = S.constructor :=
  List.foldl_invariant (fun b => b.constructor = S.constructor) l S
    (fun _ _ _ hb => by rw [BaseSubjectSet.setConcrete_constructor, hb]) rfl

section Lawful

variable {constructor : Constructor T} (hc : LawfulConstructor constructor)
include hc

theorem wildcardSubject_construct_excludedSubjects {w : T} (hw : WildcardSubject w) (e : Option CaveatExpression)
    (srcs : List T) : WildcardSubject (constructor publicWildcard e (excludedSubjects w) srcs) := by
  rw [wildcardSubject_iff, hc.subjectId_eq, hc.excludedSubjects_eq]
  exact ⟨rfl, hw.concrete_exclusions, hw.distinct_exclusions⟩

theorem concreteAt_construct {k : String} (hk : k ≠ publicWildcard) (e : Option CaveatExpression)
    (srcs : List T) : ConcreteAt k (some (constructor k e [] srcs)) :=
  concreteAt_some (hc.subjectId_eq _ _ _ _)
    ⟨by rw [hc.subjectId_eq]; exact hk, hc.excludedSubjects_eq _ _ _ _⟩

theorem ConcreteAt.unionConcreteWithConcrete {k : String} {a b : Option T} (ha : ConcreteAt k a)
    (hb : ConcreteAt k b) : ConcreteAt k (unionConcreteWithConcrete a b constructor) := by
  cases a with
  | none => exact hb
  | some p =>
    cases b with
    | none => exact ha
    | some q =>
      obtain ⟨hp, hpc⟩ := ha p rfl
      rw [SpiceDB.Datasets.unionConcreteWithConcrete, hp]
      exact concreteAt_construct hc (hp ▸ hpc.not_wildcard) _ _

variable {p : T} (hp : ConcreteSubject p)
include hp

theorem concreteAt_intersectConcreteWithConcrete (q : Option T) :
    ConcreteAt (subjectId p) (intersectConcreteWithConcrete p q constructor) := by
  cases q with
  | none => exact concreteAt_none _
  | some q => exact concreteAt_construct hc hp.not_wildcard _ _

theorem concreteAt_intersectConcreteWithWildcard (w : Option T) :
    ConcreteAt (subjectId p) (intersectConcreteWithWildcard p w constructor) := by
  cases w with
  | none => exact concreteAt_none _
  | some w =>
    simp only [intersectConcreteWithWildcard, Option.bind_some]
    -- every branch keeps `p`, builds a concrete of its id, or drops it
    split
    · split
      · exact concreteAt_some rfl hp
      · exact concreteAt_construct hc hp.not_wildcard _ _
    · split
      · exact concreteAt_none _
      · exact concreteAt_construct hc hp.not_wildcard _ _

theorem concreteAt_subtractConcreteFromConcrete (t : T) :
    ConcreteAt (subjectId p) (subtractConcreteFromConcrete p t constructor) := by
  unfold subtractConcreteFromConcrete
  split
  · exact concreteAt_none _
  · exact concreteAt_construct hc hp.not_wildcard _ _

theorem concreteAt_subtractWildcardFromConcrete (w : T) :
    ConcreteAt (subjectId p) (subtractWildcardFromConcrete p w constructor) := by
  unfold subtractWildcardFromConcrete
  split
  · split
    · exact concreteAt_none _
    · exact concreteAt_construct hc hp.not_wildcard _ _
  · split
    · exact concreteAt_some rfl hp
    · exact concreteAt_construct hc hp.not_wildcard _ _

end Lawful

theorem WellFormed.mem_asSlice {S : BaseSubjectSet T} (hwf : WellFormed S) :
    ∀ t ∈ S.asSlice, WellFormedSubject t := by
  intro t ht
  rcases List.mem_append.1 ht with ht | ht
  · obtain ⟨e, he, rfl⟩ := List.mem_map.1 ht
    exact .inl (hwf.concreteMap.mem_entries he).2
  · exact .inr (hwf.wildcard_subject t (Option.mem_toList.1 ht))

section Lawful

variable {constructor : Constructor T} (hc : LawfulConstructor constructor)
include hc

theorem ConcreteMap.intersectStepWithOther {m : SubjectMap T} (hm : ConcreteMap m)
    (O : BaseSubjectSet T) {p : T} (hp : ConcreteSubject p) :
    ConcreteMap (intersectStepWithOther O constructor m p) := by
  have hu := (concreteAt_intersectConcreteWithConcrete hc hp (O.concrete.lookup (subjectId p))
    ).unionConcreteWithConcrete hc (concreteAt_intersectConcreteWithWildcard hc hp O.wildcard)
  dsimp only [SpiceDB.Datasets.intersectStepWithOther]
  split
  · rename_i result hresult
    rw [hresult] at hu
    exact hm.insert hu
  · exact hm

theorem ConcreteMap.intersectStepWithExisting {m : SubjectMap T} (hm : ConcreteMap m) (w : T)
    {q : T} (hq : ConcreteSubject q) : ConcreteMap (intersectStepWithExisting w constructor m q) := by
  have hw := concreteAt_intersectConcreteWithWildcard hc hq (some w)
  dsimp only [SpiceDB.Datasets.intersectStepWithExisting]
  split
  · rename_i existingUpdated hexisting
    have hu := (hexisting ▸ hm (subjectId q)).unionConcreteWithConcrete hc hw
    split
    · rename_i result hresult
      rw [hresult] at hu
      exact hm.insert hu
    · exact hm
  · split
    · rename_i result hresult
      rw [hresult] at hw
      exact hm.insert hw
    · exact hm

theorem WellFormed.addExclusions :
    ∀ (l : List T) {S S' : BaseSubjectSet T}, WellFormed S → S.constructor = constructor →
      (∀ e ∈ l, ConcreteSubject e) → S.addExclusions l = .ok S' → WellFormed S'
  | [], S, S', hwf, _, _, h => by
    cases h
    exact hwf
  | e :: l, S, S', hwf, hS, hl, h => by
    have he := hl e List.mem_cons_self
    rw [BaseSubjectSet.addExclusions, if_neg he.not_wildcard] at h
    exact WellFormed.addExclusions l (hwf.addConcrete hc hS he) (by simp [hS])
      (fun e' he' => hl e' (List.mem_cons_of_mem _ he')) h

theorem WellFormed.wildcardSubject_construct {S : BaseSubjectSet T} (hwf : WellFormed S)
    (hnone : S.wildcard = none) (e : Option CaveatExpression) (srcs : List T) :
    WildcardSubject (constructor publicWildcard e S.asSlice srcs) := by
  have hm := hwf.concreteMap
  rw [wildcardSubject_iff, hc.subjectId_eq, hc.excludedSubjects_eq, BaseSubjectSet.asSlice, hnone,
    Option.toList_none, List.append_nil]
  refine ⟨rfl, fun t ht => ?_, hm.nodup_values⟩
  obtain ⟨e, he, rfl⟩ := List.mem_map.1 ht
  exact (hm.mem_entries he).2

/-- The exclusions of two wildcards, gathered in a set of concretes. -/
theorem addExclusions_wildcards {w₁ w₂ : T} (h₁ : WildcardSubject w₁) (h₂ : WildcardSubject w₂) :
    ∃ S₁ S₂, (newBaseSubjectSet constructor).addExclusions (excludedSubjects w₁) = .ok S₁ ∧
      S₁.addExclusions (excludedSubjects w₂) = .ok S₂ ∧ WellFormed S₂ ∧ S₂.constructor = constructor ∧
        S₂.wildcard = none := by
  have hkey : Keyed (newBaseSubjectSet constructor).concrete :=
    (wellFormed_newBaseSubjectSet constructor).concrete_key
  obtain ⟨S₁, hrun₁, hS₁, hkey₁, hw₁, -⟩ := addExclusions_spec hc (excludedSubjects w₁)
    (newBaseSubjectSet constructor) rfl hkey rfl
    (fun e he => (h₁.concrete_exclusions e he).not_wildcard)
  obtain ⟨S₂, hrun₂, hS₂, -, hw₂, -⟩ := addExclusions_spec hc (excludedSubjects w₂) S₁ hS₁ hkey₁ hw₁
    (fun e he => (h₂.concrete_exclusions e he).not_wildcard)
  have hwf₁ := WellFormed.addExclusions hc _ (wellFormed_newBaseSubjectSet constructor) rfl
    h₁.concrete_exclusions hrun₁
  exact ⟨S₁, S₂, hrun₁, hrun₂, WellFormed.addExclusions hc _ hwf₁ hS₁ h₂.concrete_exclusions hrun₂,
    hS₂, hw₂⟩

theorem intersectWildcardWithWildcard_wildcard {first second : Option T}
    (h₁ : ∀ w, first = some w → WildcardSubject w) (h₂ : ∀ w, second = some w → WildcardSubject w) :
    ∃ r, intersectWildcardWithWildcard first second constructor = .ok r ∧
      ∀ w, r = some w → WildcardSubject w := by
  cases first with
  | none => exact ⟨none, rfl, by rintro _ ⟨⟩⟩
  | some w₁ =>
    cases second with
    | none => exact ⟨none, rfl, by rintro _ ⟨⟩⟩
    | some w₂ =>
      obtain ⟨S₁, S₂, hrun₁, hrun₂, hwf₂, -, hnone₂⟩ := addExclusions_wildcards hc (h₁ w₁ rfl) (h₂ w₂ rfl)
      refine ⟨some (constructor publicWildcard (caveatAnd (caveatExpression w₁) (caveatExpression w₂))
        S₂.asSlice [w₁, w₂]), ?_, fun w hw => ?_⟩
      · simp only [intersectWildcardWithWildcard, hrun₁, hrun₂, Except.ok_bind, Except.pure_eq_ok]
      · cases hw
        exact hwf₂.wildcardSubject_construct hc hnone₂ _ _

/-- `IntersectionDifference` of two well-formed sets succeeds with a well-formed set; with no
wildcard on this side, the result has none. -/
theorem WellFormed.intersectionDifference {S O : BaseSubjectSet T} (hS : WellFormed S)
    (hO : WellFormed O) (hSc : S.constructor = constructor) :
    ∃ S', S.intersectionDifference O = .ok S' ∧ WellFormed S' ∧ S'.constructor = constructor ∧
      (S.wildcard = none → S'.wildcard = none) := by
  obtain ⟨I, hI, hIw⟩ := intersectWildcardWithWildcard_wildcard hc hS.wildcard_subject
    hO.wildcard_subject
  -- the first loop, over this set's concretes
  have h₁ : ConcreteMap (S.concrete.entries.foldl
      (fun m e => intersectStepWithOther O constructor m e.2) ∅) :=
    List.foldl_invariant ConcreteMap _ _
      (fun m e he hm => hm.intersectStepWithOther hc O (hS.concreteMap.mem_entries he).2)
      concreteMap_empty
  unfold BaseSubjectSet.intersectionDifference
  rw [hSc, hI, Except.ok_bind]
  refine ⟨_, rfl, WellFormed.of_concreteMap ?_ hIw, rfl, fun hnone => ?_⟩
  · -- the second loop, over the other set's concretes, when this set has a wildcard
    cases S.wildcard with
    | none => exact h₁
    | some w =>
      exact List.foldl_invariant ConcreteMap _ _
        (fun m e he hm => hm.intersectStepWithExisting hc w (hO.concreteMap.mem_entries he).2) h₁
  · rw [hnone] at hI
    cases hI
    rfl

theorem unionWildcardWithWildcard_wildcard {existing : Option T} {adding : T}
    (hex : ∀ w, existing = some w → WildcardSubject w) (had : WildcardSubject adding) :
    ∃ r, unionWildcardWithWildcard existing adding constructor = .ok r ∧
      ∀ w, r = some w → WildcardSubject w := by
  cases existing with
  | none =>
    refine ⟨some adding, rfl, ?_⟩
    rintro _ ⟨⟩
    exact had
  | some w =>
    -- the exclusions common to both wildcards: an intersection of two sets of concretes
    have hkey : Keyed (newBaseSubjectSet constructor).concrete :=
      (wellFormed_newBaseSubjectSet constructor).concrete_key
    obtain ⟨S₁, hrun₁, hS₁, -, hw₁, -⟩ := addExclusions_spec hc (excludedSubjects w)
      (newBaseSubjectSet constructor) rfl hkey rfl
      (fun e he => ((hex w rfl).concrete_exclusions e he).not_wildcard)
    obtain ⟨S₂, hrun₂, -, -, -, -⟩ := addExclusions_spec hc (excludedSubjects adding)
      (newBaseSubjectSet constructor) rfl hkey rfl
      (fun e he => (had.concrete_exclusions e he).not_wildcard)
    have hwf₁ := WellFormed.addExclusions hc _ (wellFormed_newBaseSubjectSet constructor) rfl
      (hex w rfl).concrete_exclusions hrun₁
    have hwf₂ := WellFormed.addExclusions hc _ (wellFormed_newBaseSubjectSet constructor) rfl
      had.concrete_exclusions hrun₂
    obtain ⟨S₃, hrun₃, hwf₃, -, hnone₃⟩ := hwf₁.intersectionDifference hc hwf₂ hS₁
    refine ⟨some (constructor publicWildcard
      (shortcircuitedOr (caveatExpression w) (caveatExpression adding)) S₃.asSlice [w, adding]),
      ?_, ?_⟩
    · simp only [unionWildcardWithWildcard, hrun₁, hrun₂, hrun₃, Except.ok_bind, Except.pure_eq_ok]
    · rintro _ ⟨⟩
      exact hwf₃.wildcardSubject_construct hc (hnone₃ hw₁) _ _

/-- `Add` of a well-formed subject succeeds and keeps a set well formed. -/
theorem WellFormed.add {S : BaseSubjectSet T} (hwf : WellFormed S) (hS : S.constructor = constructor)
    {t : T} (ht : WellFormedSubject t) :
    ∃ S', S.add t = .ok S' ∧ WellFormed S' ∧ S'.constructor = constructor := by
  rcases ht with ht | ht
  · exact ⟨_, add_of_not_wildcard S t ht.not_wildcard, hwf.addConcrete hc hS ht, by simp [hS]⟩
  · obtain ⟨r, hr, hrw⟩ := unionWildcardWithWildcard_wildcard hc hwf.wildcard_subject ht
    refine ⟨{ S with wildcard := (S.concrete.entries.foldl
      (fun w e => unionWildcardWithConcrete w e.2 constructor) r) }, ?_,
      WellFormed.of_concreteMap (S := { S with wildcard := _ }) hwf.concreteMap ?_, hS⟩
    · simp only [BaseSubjectSet.add, ht.is_wildcard, if_true, hS, hr, Except.ok_bind,
        Except.pure_eq_ok]
    · -- every concrete of the set lifts its id out of the wildcard's exclusions
      refine List.foldl_invariant (fun r => ∀ w, r = some w → WildcardSubject w) _ _ ?_ hrw
      intro r e _ hr' w hw
      cases r with
      | none => cases hw
      | some w₀ => exact unionWildcardWithConcrete_wildcard hc w₀ e.2 (hr' w₀ rfl) w hw

theorem WellFormed.unionWith :
    ∀ (l : List T) {S : BaseSubjectSet T}, WellFormed S → S.constructor = constructor →
      (∀ t ∈ l, WellFormedSubject t) →
      ∃ S', S.unionWith l = .ok S' ∧ WellFormed S' ∧ S'.constructor = constructor
  | [], S, hwf, hS, _ => ⟨S, rfl, hwf, hS⟩
  | t :: l, S, hwf, hS, hl => by
    obtain ⟨S₁, h₁, hwf₁, hS₁⟩ := hwf.add hc hS (hl t List.mem_cons_self)
    obtain ⟨S', h', hwf', hS'⟩ := WellFormed.unionWith l hwf₁ hS₁
      (fun t' ht' => hl t' (List.mem_cons_of_mem _ ht'))
    exact ⟨S', by rw [BaseSubjectSet.unionWith, h₁, Except.ok_bind, h'], hwf', hS'⟩

theorem subjectId_subtractExclusionWithConcrete (t e : T) :
    subjectId (subtractExclusionWithConcrete t constructor e) = subjectId e := by
  unfold subtractExclusionWithConcrete
  split
  · rename_i he
    rw [hc.subjectId_eq, he]
  · rfl

theorem concrete_subtractExclusionWithConcrete {t e : T} (ht : ConcreteSubject t)
    (he : ConcreteSubject e) : ConcreteSubject (subtractExclusionWithConcrete t constructor e) := by
  unfold subtractExclusionWithConcrete
  split
  · exact (concreteAt_construct hc ht.not_wildcard _ _ _ rfl).2
  · exact he

/-- Subtracting a concrete from a wildcard merges it into the exclusion of its id, or adds it
as a new one. -/
theorem subtractConcreteFromWildcard_wildcard {w t : T} (hw : WildcardSubject w)
    (ht : ConcreteSubject t) : WildcardSubject (subtractConcreteFromWildcard w t constructor) := by
  have hids : ((excludedSubjects w).map (subtractExclusionWithConcrete t constructor)).map subjectId =
      (excludedSubjects w).map subjectId := by
    rw [List.map_map]
    exact List.map_congr_left fun e _ => subjectId_subtractExclusionWithConcrete hc t e
  have hconc : ∀ e ∈ (excludedSubjects w).map (subtractExclusionWithConcrete t constructor),
      ConcreteSubject e := by
    intro e he
    obtain ⟨e₀, he₀, rfl⟩ := List.mem_map.1 he
    exact concrete_subtractExclusionWithConcrete hc ht (hw.concrete_exclusions e₀ he₀)
  dsimp only [subtractConcreteFromWildcard]
  rw [wildcardSubject_iff, hc.subjectId_eq, hc.excludedSubjects_eq]
  split
  · exact ⟨rfl, hconc, hids ▸ hw.distinct_exclusions⟩
  · -- not found: the concrete joins the exclusions, whose ids it is not among
    rename_i hfound
    refine ⟨rfl, fun e he => ?_, ?_⟩
    · rcases List.mem_append.1 he with he | he
      · exact hconc e he
      · rw [List.mem_singleton.1 he]
        exact ht
    · rw [List.map_append, hids, List.nodup_append]
      refine ⟨hw.distinct_exclusions, List.nodup_singleton _, fun a ha b hb hab => ?_⟩
      rw [List.map_singleton, List.mem_singleton] at hb
      subst hb
      obtain ⟨e, he, rfl⟩ := List.mem_map.1 ha
      exact hfound (List.any_eq_true.2 ⟨e, he, by simpa using hab⟩)

/-- Subtracting a wildcard from a wildcard leaves a wildcard with the same exclusions, and
concretes built from the subtracted wildcard's exclusions. -/
theorem subtractWildcardFromWildcard_wildcard {existing : Option T} {toRemove : T}
    (hex : ∀ w, existing = some w → WildcardSubject w) (ht : WildcardSubject toRemove) :
    (∀ w, (subtractWildcardFromWildcard existing toRemove constructor).1 = some w →
        WildcardSubject w) ∧
      ∀ u ∈ (subtractWildcardFromWildcard existing toRemove constructor).2, ConcreteSubject u := by
  cases existing with
  | none => exact ⟨by rintro _ ⟨⟩, by simp [subtractWildcardFromWildcard]⟩
  | some w =>
    have hw := hex w rfl
    dsimp only [subtractWildcardFromWildcard]
    split
    · exact ⟨by rintro _ ⟨⟩, by simp⟩
    · refine ⟨?_, ?_⟩
      · -- the remaining wildcard keeps the exclusions of `w`
        split
        · rintro _ ⟨⟩
          exact wildcardSubject_construct_excludedSubjects hc hw _ _
        · rintro _ ⟨⟩
      · -- in both cases, the concretes built from the removed wildcard's exclusions
        split <;> (
          intro u hu
          obtain ⟨ex, hex, hu⟩ := List.mem_filterMap.1 hu
          have hexc := ht.concrete_exclusions ex hex
          split at hu
          · exact (concreteAt_construct hc hexc.not_wildcard _ _ _ hu).2
          · split at hu
            · cases hu
            · exact (concreteAt_construct hc hexc.not_wildcard _ _ _ hu).2)

theorem WellFormed.subtractConcrete {S : BaseSubjectSet T} (hwf : WellFormed S)
    (hS : S.constructor = constructor) {t : T} (ht : ConcreteSubject t) :
    WellFormed (S.subtractConcrete t) := by
  refine WellFormed.of_concreteMap ?_ fun w hw => ?_
  · rw [BaseSubjectSet.subtractConcrete_concrete]
    split
    · rename_i existing hexisting
      refine hwf.concreteMap.setConcrete _ fun u hu => ?_
      rw [hS] at hu
      exact (concreteAt_subtractConcreteFromConcrete hc (hwf.concreteMap _ existing hexisting).2 t u
        hu).2
    · exact hwf.concreteMap
  · rw [BaseSubjectSet.subtractConcrete_wildcard] at hw
    obtain ⟨w₀, hw₀, rfl⟩ := Option.map_eq_some_iff.1 hw
    rw [hS]
    exact subtractConcreteFromWildcard_wildcard hc (hwf.wildcard_subject w₀ hw₀) ht

theorem WellFormed.subtractWildcard {S : BaseSubjectSet T} (hwf : WellFormed S)
    (hS : S.constructor = constructor) {t : T} (ht : WildcardSubject t) :
    WellFormed (S.subtractWildcard t) ∧ (S.subtractWildcard t).constructor = constructor := by
  -- the first loop: every concrete loses the wildcard
  have hB : ConcreteMap (S.concrete.entries.foldl (fun b e =>
      b.setConcrete (subjectId e.2) (subtractWildcardFromConcrete e.2 t constructor)) S).concrete :=
    List.foldl_invariant (fun b : BaseSubjectSet T => ConcreteMap b.concrete) _ _
      (fun b e he hb => hb.setConcrete _ fun u hu =>
        (concreteAt_subtractWildcardFromConcrete hc (hwf.concreteMap.mem_entries he).2 t u hu).2)
      hwf.concreteMap
  obtain ⟨hW, hC⟩ := subtractWildcardFromWildcard_wildcard hc hwf.wildcard_subject ht
  unfold BaseSubjectSet.subtractWildcard
  simp only [foldl_setConcrete_wildcard, foldl_setConcrete_constructor, hS]
  rcases hsw : subtractWildcardFromWildcard S.wildcard t constructor with ⟨W, C⟩
  rw [hsw] at hW hC
  -- the second loop stores the concretes the subtracted wildcard's exclusions leave behind
  refine ⟨WellFormed.of_concreteMap ?_ ?_, by simp⟩
  · exact List.foldl_invariant (fun b : BaseSubjectSet T => ConcreteMap b.concrete) _ _
      (fun b c hc' hb => hb.setConcrete _ fun u hu => by cases hu; exact hC c hc') hB
  · rw [foldl_setConcrete_wildcard]
    exact hW

theorem WellFormed.subtract {S : BaseSubjectSet T} (hwf : WellFormed S)
    (hS : S.constructor = constructor) {t : T} (ht : WellFormedSubject t) :
    WellFormed (S.subtract t) ∧ (S.subtract t).constructor = constructor := by
  rcases ht with ht | ht
  · rw [BaseSubjectSet.subtract, if_neg ht.not_wildcard]
    exact ⟨hwf.subtractConcrete hc hS ht, by simp [hS]⟩
  · rw [BaseSubjectSet.subtract, if_pos ht.is_wildcard]
    exact hwf.subtractWildcard hc hS ht

theorem WellFormed.subtractAll {S O : BaseSubjectSet T} (hwf : WellFormed S)
    (hS : S.constructor = constructor) (hO : WellFormed O) :
    WellFormed (S.subtractAll O) ∧ (S.subtractAll O).constructor = constructor :=
  List.foldl_invariant (fun b : BaseSubjectSet T => WellFormed b ∧ b.constructor = constructor)
    O.asSlice S (fun _ t ht hb => hb.1.subtract hc hb.2 (hO.mem_asSlice t ht)) ⟨hwf, hS⟩

theorem WellFormed.withParentCaveatExpression {S : BaseSubjectSet T} (hwf : WellFormed S)
    (hS : S.constructor = constructor) (p : Option CaveatExpression) :
    WellFormed (S.withParentCaveatExpression p) := by
  refine WellFormed.of_concreteMap (fun k => ?_) fun w hw => ?_
  · rw [lookup_withParentCaveatExpression]
    cases hk : S.concrete.lookup k with
    | none => exact concreteAt_none k
    | some t =>
      obtain ⟨hid, htc⟩ := hwf.concreteMap k t hk
      rw [Option.map_some, hS]
      exact concreteAt_construct hc (hid ▸ htc.not_wildcard) _ _
  · simp only [BaseSubjectSet.withParentCaveatExpression, Option.map_eq_some_iff] at hw
    obtain ⟨w₀, hw₀, rfl⟩ := hw
    rw [hS]
    exact wildcardSubject_construct_excludedSubjects hc (hwf.wildcard_subject w₀ hw₀) _ _

end Lawful

/-- The operations a caller applies to a set, with their arguments. -/
inductive SetOperation (T : Type) where
  | add (subject : T)
  | subtract (subject : T)
  | subtractAll (other : BaseSubjectSet T)
  | unionWithSet (other : BaseSubjectSet T)
  | intersectionDifference (other : BaseSubjectSet T)
  | withParentCaveatExpression (parentCaveatExpr : Option CaveatExpression)

/-- Well-formed arguments: subjects of the shape the code's comments require, and well-formed
sets. -/
def SetOperation.WellFormed : SetOperation T → Prop
  | .add subject | .subtract subject => WellFormedSubject subject
  | .subtractAll other | .unionWithSet other | .intersectionDifference other =>
    SpiceDB.Datasets.WellFormed other
  | .withParentCaveatExpression _ => True

instance (t : T) : Decidable (WellFormedSubject t) :=
  inferInstanceAs (Decidable (ConcreteSubject t ∨ WildcardSubject t))

instance (op : SetOperation T) : Decidable op.WellFormed :=
  match op with
  | .add subject | .subtract subject => inferInstanceAs (Decidable (WellFormedSubject subject))
  | .subtractAll other | .unionWithSet other | .intersectionDifference other =>
    inferInstanceAs (Decidable (SpiceDB.Datasets.WellFormed other))
  | .withParentCaveatExpression _ => inferInstanceAs (Decidable True)

/-- One operation. `Subtract`, `SubtractAll` and `IntersectionDifference` change the set in
place; `WithParentCaveatExpression` returns the set the run goes on with. -/
def BaseSubjectSet.apply (bss : BaseSubjectSet T) : SetOperation T → Except String (BaseSubjectSet T)
  | .add subject => bss.add subject
  | .subtract subject => pure (bss.subtract subject)
  | .subtractAll other => pure (bss.subtractAll other)
  | .unionWithSet other => bss.unionWithSet other
  | .intersectionDifference other => bss.intersectionDifference other
  | .withParentCaveatExpression parentCaveatExpr => pure (bss.withParentCaveatExpression parentCaveatExpr)

/-- A run of operations, stopping at the first error. -/
def BaseSubjectSet.run (bss : BaseSubjectSet T) (ops : List (SetOperation T)) :
    Except String (BaseSubjectSet T) :=
  ops.foldlM BaseSubjectSet.apply bss

section Run

variable {constructor : Constructor T} (hc : LawfulConstructor constructor)
include hc

/-- Each operation with well-formed arguments succeeds on a well-formed set and keeps it so. -/
theorem WellFormed.apply {S : BaseSubjectSet T} (hwf : WellFormed S)
    (hS : S.constructor = constructor) {op : SetOperation T} (hop : op.WellFormed) :
    ∃ S', S.apply op = .ok S' ∧ WellFormed S' ∧ S'.constructor = constructor := by
  cases op with
  | add t => exact hwf.add hc hS hop
  | subtract t =>
    obtain ⟨hwf', hS'⟩ := hwf.subtract hc hS hop
    exact ⟨_, rfl, hwf', hS'⟩
  | subtractAll O =>
    obtain ⟨hwf', hS'⟩ := hwf.subtractAll hc hS hop
    exact ⟨_, rfl, hwf', hS'⟩
  | unionWithSet O => exact WellFormed.unionWith hc O.asSlice hwf hS hop.mem_asSlice
  | intersectionDifference O =>
    obtain ⟨S', h, hwf', hS', -⟩ := hwf.intersectionDifference hc hop hS
    exact ⟨S', h, hwf', hS'⟩
  | withParentCaveatExpression p => exact ⟨_, rfl, hwf.withParentCaveatExpression hc hS p, hS⟩

theorem WellFormed.run :
    ∀ (ops : List (SetOperation T)) {S : BaseSubjectSet T}, WellFormed S →
      S.constructor = constructor → (∀ op ∈ ops, op.WellFormed) →
      ∃ S', S.run ops = .ok S' ∧ WellFormed S' ∧ S'.constructor = constructor
  | [], S, hwf, hS, _ => ⟨S, rfl, hwf, hS⟩
  | op :: ops, S, hwf, hS, hops => by
    obtain ⟨S₁, h₁, hwf₁, hS₁⟩ := hwf.apply hc hS (hops op List.mem_cons_self)
    obtain ⟨S', h', hwf', hS'⟩ := WellFormed.run ops hwf₁ hS₁
      (fun op' hop' => hops op' (List.mem_cons_of_mem _ hop'))
    refine ⟨S', ?_, hwf', hS'⟩
    rw [BaseSubjectSet.run, List.foldlM_cons, h₁, Except.ok_bind]
    exact h'

end Run

theorem base_subject_set_keeps_its_shape (constructor : Constructor T)
    (hc : LawfulConstructor constructor) (ops : List (SetOperation T))
    (hops : ∀ op ∈ ops, op.WellFormed) :
    ∃ S, (newBaseSubjectSet constructor).run ops = .ok S ∧ WellFormed S := by
  obtain ⟨S, hrun, hwf, -⟩ := WellFormed.run hc ops (wellFormed_newBaseSubjectSet constructor) rfl hops
  exact ⟨S, hrun, hwf⟩

theorem base_subject_set_keeps_its_shape_at_wildcards :
    let ops : List (SetOperation FoundSubject) := [
      .add ⟨"alice", none, []⟩,
      .add ⟨publicWildcard, some (.caveat ⟨"a", ⟨[]⟩⟩), [⟨"bob", none, []⟩]⟩,
      .add ⟨publicWildcard, none, [⟨"bob", none, []⟩, ⟨"carol", none, []⟩]⟩,
      .subtract ⟨"carol", some (.caveat ⟨"c", ⟨[]⟩⟩), []⟩,
      .subtract ⟨publicWildcard, some (.caveat ⟨"d", ⟨[]⟩⟩), [⟨"dave", none, []⟩]⟩,
      .withParentCaveatExpression (some (.caveat ⟨"p", ⟨[]⟩⟩))]
    (∀ op ∈ ops, op.WellFormed) ∧
      ∃ S, (newBaseSubjectSet subjectSetConstructor).run ops = .ok S ∧ WellFormed S := by
  intro ops
  have hops : ∀ op ∈ ops, op.WellFormed := by decide
  exact ⟨hops, base_subject_set_keeps_its_shape subjectSetConstructor subjectSetConstructor_lawful ops
    hops⟩

end SpiceDB.Datasets
