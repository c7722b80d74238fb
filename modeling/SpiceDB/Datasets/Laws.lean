import SpiceDB.Datasets.View

namespace SpiceDB.Datasets

open Caveats Condition

variable {T : Type} [Subject T]

/-- A set built from `NewBaseSubjectSet` by `Add` of well-formed subjects, one after another. -/
def BuiltByAdd (constructor : Constructor T) (S : BaseSubjectSet T) : Prop :=
  ∃ l : List T, (∀ t ∈ l, WellFormedSubject t) ∧ (newBaseSubjectSet constructor).unionWith l = .ok S

/-- What a set built by `Add` keeps: its shape, its constructor, and exclusions that leave out its
concretes. -/
structure AddInvariant (constructor : Constructor T) (S : BaseSubjectSet T) : Prop where
  wellFormed : WellFormed S
  constructor_eq : S.constructor = constructor
  lifted : S.view.Lifted

/-- No wildcard of the set excludes a subject. -/
def NoExclusions (S : BaseSubjectSet T) : Prop := ∀ w, S.wildcard = some w → excludedSubjects w = []

theorem exclusionOf_of_nil {w : T} (hw : excludedSubjects w = []) (x : String) :
    exclusionOf w x = none := by
  simp [exclusionOf, hw]

theorem wellFormedSubject_of_nil {t : T} (ht : excludedSubjects t = []) : WellFormedSubject t := by
  by_cases hid : subjectId t = publicWildcard
  · exact .inr ⟨hid, by simp [ht], by simp [ht]⟩
  · exact .inl ⟨hid, ht⟩

/-- A set has no exclusions exactly when its view's wildcard excludes nothing. -/
theorem noExclusions_iff_view (S : BaseSubjectSet T) : NoExclusions S ↔ S.view.WithoutExclusions := by
  constructor
  · intro h p hp
    obtain ⟨w, hw, rfl⟩ := Option.mem_map.mp hp
    funext x
    simp [wildcardView, exclusionOf_of_nil (h w hw)]
  · intro h w hw
    have hp := h (wildcardView w) (by simp [hw])
    rw [List.eq_nil_iff_forall_not_mem]
    intro e he
    -- the exclusion of `e`'s own id is found, so its presence is not `⊥`
    have hx := congrFun hp (subjectId e)
    simp only [wildcardView, exclusionOf, Pi.bot_apply] at hx
    cases hfind : (excludedSubjects w).find? (fun e' => subjectId e' = subjectId e) with
    | none => exact List.find?_eq_none.1 hfind e he (by simp)
    | some e' => simp [hfind] at hx

theorem withoutExclusions_subjectView {t : T} (ht : excludedSubjects t = []) :
    (subjectView t).WithoutExclusions := by
  intro p hp
  unfold subjectView at hp
  split at hp
  · cases hp
    funext x
    simp [wildcardView, exclusionOf_of_nil ht]
  · cases hp

/-- The view of a well-formed subject has the subject's members. -/
theorem memAt_subjectView {t : T} (ht : WellFormedSubject t) (v : Valuation) (x : String) :
    (subjectView t).memAt v x = subjectMember v t x := by
  unfold subjectView subjectMember
  by_cases hid : subjectId t = publicWildcard
  · have hw : WildcardSubject t := ht.resolve_left fun hc => hc.not_wildcard hid
    have hat : (⟨⊥, some (wildcardView t)⟩ : WildcardSet String (Valuation → Bool)).wildcardAt x =
        wildcardPresence (some t) x := rfl
    rw [if_pos hid, if_pos hid, WildcardSet.memAt, hat, evalAt_sup]
    simp only [Pi.bot_apply, evalAt_bot, Bool.false_or]
    rw [evalAt_wildcardPresence v (fun w h => by cases h; exact hw), Option.any_some]
  · rw [if_neg hid, if_neg hid, WildcardSet.memAt]
    by_cases hx : x = subjectId t
    · subst hx
      simp [WildcardSet.wildcardAt, evalAt_meaning, holds]
    · simp [WildcardSet.wildcardAt, Function.update_of_ne hx, Ne.symm hx]

/-- A member of a set's slice is in the set. -/
theorem member_of_mem_asSlice {S : BaseSubjectSet T} (hwf : WellFormed S) {t : T}
    (ht : t ∈ S.asSlice) (v : Valuation) (x : String) (h : subjectMember v t x = true) :
    member S v x = true := by
  rcases List.mem_append.1 ht with ht | ht
  · obtain ⟨e, he, rfl⟩ := List.mem_map.1 ht
    obtain ⟨hkey, hconcrete⟩ := hwf.concreteMap.mem_entries he
    simp only [subjectMember, if_neg hconcrete.not_wildcard, Bool.and_eq_true,
      decide_eq_true_eq] at h
    obtain ⟨rfl, hholds⟩ := h
    have hlookup : S.concrete.lookup (subjectId e.2) = some e.2 := by
      rw [hkey]
      exact AList.mem_lookup_iff.2 he
    simp [member, hlookup, hholds]
  · have hw : S.wildcard = some t := Option.mem_toList.1 ht
    simp only [subjectMember, if_pos (hwf.wildcard_subject t hw).is_wildcard] at h
    simp [member, hw, h]

theorem excludedSubjects_of_mem_asSlice {S : BaseSubjectSet T} (hwf : WellFormed S)
    (hno : NoExclusions S) {t : T} (ht : t ∈ S.asSlice) : excludedSubjects t = [] := by
  rcases List.mem_append.1 ht with ht | ht
  · obtain ⟨e, he, rfl⟩ := List.mem_map.1 ht
    exact (hwf.concreteMap.mem_entries he).2.no_exclusions
  · exact hno t (Option.mem_toList.1 ht)

theorem presence_dlookup_cons {k : String} {t : T} {l : List (Σ _ : String, T)}
    (hk : subjectId t = k) (hfresh : k ∉ l.keys) :
    Function.update (⊥ : String → CaveatCondition) (subjectId t) (presence (some t)) ⊔
        (fun x => presence (l.dlookup x)) = fun x => presence ((⟨k, t⟩ :: l).dlookup x) := by
  funext x
  subst hk
  by_cases hx : x = subjectId t
  · subst hx
    simp [List.dlookup_cons_eq, List.dlookup_eq_none.mpr hfresh]
  · rw [Pi.sup_apply, Function.update_of_ne hx, List.dlookup_cons_ne l ⟨subjectId t, t⟩ hx,
      Pi.bot_apply, bot_sup_eq]

/-- Adding the values of a list of entries keyed by their concretes' ids, one by one, is the
union with the view of those concretes. -/
theorem foldl_union_subjectView :
    ∀ (l : List (Σ _ : String, T)), l.NodupKeys → (∀ e ∈ l, subjectId e.2 = e.1 ∧ ConcreteSubject e.2) →
      ∀ V : WildcardSet String (Valuation → Bool), V.Lifted →
        (l.map Sigma.snd).foldl (fun V t => V.union (subjectView t)) V =
          V.union ⟨fun x => presence (l.dlookup x), none⟩
  | [], _, _, V, hV => (WildcardSet.union_bot hV).symm
  | ⟨k, t⟩ :: l, hnd, hl, V, hV => by
    obtain ⟨hfresh, hnd'⟩ := List.nodupKeys_cons.mp hnd
    obtain ⟨hk, ht⟩ := hl ⟨k, t⟩ List.mem_cons_self
    have hsub : subjectView t = ⟨Function.update ⊥ (subjectId t) (presence (some t)), none⟩ :=
      if_neg ht.not_wildcard
    rw [List.map_cons, List.foldl_cons, foldl_union_subjectView l hnd'
      (fun e he => hl e (List.mem_cons_of_mem _ he)) _ (WildcardSet.lifted_union _ _),
      WildcardSet.union_assoc, hsub]
    -- the union of two sets of concretes is the set of the joined concretes
    congr 1
    ext1
    · exact presence_dlookup_cons hk hfresh
    · rfl

theorem wildcard_addExclusions :
    ∀ (l : List T) {S S' : BaseSubjectSet T}, S.wildcard = none → S.addExclusions l = .ok S' →
      S'.wildcard = none
  | [], S, S', hw, h => by
    cases h
    exact hw
  | e :: l, S, S', hw, h => by
    rw [BaseSubjectSet.addExclusions] at h
    split at h
    · cases h
    · refine wildcard_addExclusions l ?_ h
      simp [BaseSubjectSet.addConcrete, hw, unionWildcardWithConcrete]

section Lawful

variable {constructor : Constructor T} (hc : LawfulConstructor constructor)
include hc

/-- Joining the concretes of a list of entries keyed by id into a wildcard lifts its
exclusions by all of them. -/
theorem wildcardView_foldl_unionWildcardWithConcrete :
    ∀ (l : List (Σ _ : String, T)), l.NodupKeys → (∀ e ∈ l, subjectId e.2 = e.1) →
      ∀ w, WildcardSubject w → ∃ w',
        l.foldl (fun w e => unionWildcardWithConcrete w e.2 constructor) (some w) = some w' ∧
          WildcardSubject w' ∧
          wildcardView w' = WildcardSet.lift (fun x => presence (l.dlookup x)) (wildcardView w)
  | [], _, _, w, hw => ⟨w, rfl, hw, (WildcardSet.lift_bot _).symm⟩
  | ⟨k, t⟩ :: l, hnd, hkey, w, hw => by
    obtain ⟨hfresh, hnd'⟩ := List.nodupKeys_cons.mp hnd
    have hk : subjectId t = k := hkey ⟨k, t⟩ List.mem_cons_self
    obtain ⟨w₁, h₁, hw₁, hv₁⟩ := wildcardView_unionWildcardWithConcrete hc hw t
    obtain ⟨w', h', hw', hv'⟩ := wildcardView_foldl_unionWildcardWithConcrete l hnd'
      (fun e he => hkey e (List.mem_cons_of_mem _ he)) w₁ hw₁
    refine ⟨w', by rw [List.foldl_cons, h₁, h'], hw', ?_⟩
    rw [hv', hv₁, WildcardSet.lift_lift, presence_dlookup_cons hk hfresh]

/-- Two wildcards unioned: either caveat, and the exclusions both make. -/
theorem wildcardView_unionWildcardWithWildcard {wa t : T} (ha : WildcardSubject wa)
    (ht : WildcardSubject t) {r : Option T}
    (h : unionWildcardWithWildcard (some wa) t constructor = .ok r) :
    ∃ w, r = some w ∧ WildcardSubject w ∧
      wildcardView w = WildcardSet.joinWildcards (wildcardView wa) (wildcardView t) := by
  obtain ⟨r', hr', hrw⟩ := unionWildcardWithWildcard_wildcard hc
    (fun w (hw : some wa = some w) => by cases hw; exact ha) ht
  rw [h] at hr'
  cases hr'
  have hkey := (wellFormed_newBaseSubjectSet constructor).concrete_key
  obtain ⟨S₁, hrun₁, hS₁, -, hw₁, -⟩ := addExclusions_spec hc (excludedSubjects wa)
    (newBaseSubjectSet constructor) rfl hkey rfl
    (fun e he => (ha.concrete_exclusions e he).not_wildcard)
  obtain ⟨S₂, hrun₂, -, -, -, -⟩ := addExclusions_spec hc (excludedSubjects t)
    (newBaseSubjectSet constructor) rfl hkey rfl
    (fun e he => (ht.concrete_exclusions e he).not_wildcard)
  have hwf₁ := WellFormed.addExclusions hc _ (wellFormed_newBaseSubjectSet constructor) rfl
    ha.concrete_exclusions hrun₁
  have hwf₂ := WellFormed.addExclusions hc _ (wellFormed_newBaseSubjectSet constructor) rfl
    ht.concrete_exclusions hrun₂
  obtain ⟨S₃, hrun₃, hwf₃, -, hnone₃⟩ := hwf₁.intersectionDifference hc hwf₂ hS₁
  simp only [unionWildcardWithWildcard, hrun₁, hrun₂, hrun₃, Except.ok_bind, Except.pure_eq_ok,
    Except.ok.injEq] at h
  subst h
  refine ⟨_, rfl, hrw _ rfl, ?_⟩
  simp only [wildcardView, WildcardSet.joinWildcards, presence_construct hc,
    meaning_shortcircuitedOr, WithBot.coe_sup, exclusionOf_construct hc,
    find?_asSlice_of_wildcard_none hwf₃.concrete_key (hnone₃ hw₁), Prod.mk.injEq]
  refine ⟨rfl, funext fun x => ?_⟩
  -- the common exclusions: the intersection of the two sets of exclusions, which have no wildcard
  have hx := congrFun (congrArg WildcardSet.concrete
    (view_intersectionDifference hc hwf₁ hwf₂ hS₁ hrun₃)) x
  rw [view_concrete, WildcardSet.concrete_inter, view_concrete, view_concrete, view_wildcardAt,
    view_wildcardAt, hw₁, wildcard_addExclusions _ rfl hrun₂] at hx
  rw [hx, presence_lookup_addExclusions_new hc ha hrun₁, presence_lookup_addExclusions_new hc ht hrun₂]
  simp [crossInf, wildcardPresence]

/-- `Add` of a well-formed subject, on a set whose exclusions leave out its concretes, is the
union with the subject's view. -/
theorem view_add {S S' : BaseSubjectSet T} (hwf : WellFormed S) (hS : S.constructor = constructor)
    (hL : S.view.Lifted) {t : T} (ht : WellFormedSubject t) (h : S.add t = .ok S') :
    S'.view = S.view.union (subjectView t) := by
  rcases ht with ht | ht
  · rw [add_of_not_wildcard S t ht.not_wildcard, Except.ok.injEq] at h
    subst h
    exact view_addConcrete hc hwf hS hL ht
  · have hsub : subjectView t = ⟨⊥, some (wildcardView t)⟩ := if_pos ht.is_wildcard
    unfold BaseSubjectSet.add at h
    rw [if_pos ht.is_wildcard, hS] at h
    obtain ⟨r, hr, hS'⟩ := Except.bind_eq_ok.mp h
    simp only [Except.pure_eq_ok, Except.ok.injEq] at hS'
    subst hS'
    -- the wildcards merged, as the union of the views merges them
    obtain ⟨w, rfl, hw, hv⟩ : ∃ w, r = some w ∧ WildcardSubject w ∧
        some (wildcardView w) =
          Option.merge WildcardSet.joinWildcards (S.wildcard.map wildcardView) (some (wildcardView t)) := by
      cases hSw : S.wildcard with
      | none =>
        rw [hSw] at hr
        cases hr
        exact ⟨t, rfl, ht, rfl⟩
      | some wa =>
        rw [hSw] at hr
        obtain ⟨w, rfl, hw, hv⟩ :=
          wildcardView_unionWildcardWithWildcard hc (hwf.wildcard_subject wa hSw) ht hr
        exact ⟨w, rfl, hw, by rw [hv]; rfl⟩
    -- then every concrete of the set lifts the exclusions of its id
    obtain ⟨w', hfold, -, hv'⟩ := wildcardView_foldl_unionWildcardWithConcrete hc
      S.concrete.entries S.concrete.nodupKeys
      (fun e he => hwf.concrete_key e.1 e.2 (AList.mem_lookup_iff.mpr he)) w hw
    ext1
    · funext x
      simp [hsub]
    · rw [view_wildcard, hfold, WildcardSet.wildcard_union, hsub, view_wildcard, ← hv,
        Option.map_some, Option.map_some, hv', sup_bot_eq]
      rfl

/-- `UnionWith` of well-formed subjects, on a set whose exclusions leave out its concretes, is
the union with each subject's view in turn. -/
theorem view_unionWith :
    ∀ (l : List T) {S S' : BaseSubjectSet T}, WellFormed S → S.constructor = constructor →
      S.view.Lifted → (∀ t ∈ l, WellFormedSubject t) → S.unionWith l = .ok S' →
      S'.view = l.foldl (fun V t => V.union (subjectView t)) S.view
  | [], S, S', _, _, _, _, h => by
    cases h
    rfl
  | t :: l, S, S', hwf, hS, hL, hl, h => by
    rw [BaseSubjectSet.unionWith, Except.bind_eq_ok] at h
    obtain ⟨S₁, h₁, hrest⟩ := h
    obtain ⟨S₁', h₁', hwf₁, hS₁⟩ := hwf.add hc hS (hl t List.mem_cons_self)
    rw [h₁] at h₁'
    cases h₁'
    have hv₁ := view_add hc hwf hS hL (hl t List.mem_cons_self) h₁
    rw [List.foldl_cons, ← hv₁]
    exact view_unionWith l hwf₁ hS₁ (hv₁ ▸ WildcardSet.lifted_union _ _)
      (fun t' ht' => hl t' (List.mem_cons_of_mem _ ht')) hrest

/-- `UnionWithSet` of two sets whose exclusions leave out their concretes is the union of their
views. -/
theorem view_unionWithSet {S O S' : BaseSubjectSet T} (hS : WellFormed S) (hO : WellFormed O)
    (hSc : S.constructor = constructor) (hSL : S.view.Lifted) (hOL : O.view.Lifted)
    (h : S.unionWithSet O = .ok S') : S'.view = S.view.union O.view := by
  rw [view_unionWith hc O.asSlice hS hSc hSL hO.mem_asSlice h, BaseSubjectSet.asSlice,
    List.foldl_append, foldl_union_subjectView _ O.concrete.nodupKeys
      (fun e he => hO.concreteMap.mem_entries he) _ hSL]
  cases hw : O.wildcard with
  | none => rw [view_of_wildcard_none hw]; rfl
  | some w =>
    have hsub : subjectView w = ⟨⊥, some (wildcardView w)⟩ :=
      if_pos (hO.wildcard_subject w hw).is_wildcard
    rw [Option.toList_some, List.foldl_cons, List.foldl_nil, hsub, WildcardSet.union_assoc,
      WildcardSet.union_wildcard]
    -- the other set's exclusions already leave out its concretes
    have hlift : WildcardSet.lift (fun x => presence (O.concrete.entries.dlookup x)) (wildcardView w) =
        wildcardView w := hOL (wildcardView w) (by simp [hw])
    congr 1
    ext1
    · rfl
    · rw [view_wildcard, hw, Option.map_some]
      exact congrArg some hlift

theorem BuiltByAdd.addInvariant {S : BaseSubjectSet T} (h : BuiltByAdd constructor S) :
    AddInvariant constructor S := by
  obtain ⟨l, hl, hrun⟩ := h
  obtain ⟨S', hrun', hwf, hS⟩ := WellFormed.unionWith hc l (wellFormed_newBaseSubjectSet constructor)
    rfl hl
  rw [hrun] at hrun'
  cases hrun'
  have hnew : (newBaseSubjectSet constructor).view.Lifted := by
    rintro p hp
    cases hp
  refine ⟨hwf, hS, ?_⟩
  rw [view_unionWith hc l (wellFormed_newBaseSubjectSet constructor) rfl hnew hl hrun]
  exact List.foldl_invariant WildcardSet.Lifted l _ (fun V t _ _ => WildcardSet.lifted_union _ _)
    hnew

theorem AddInvariant.unionWithSet {A B : BaseSubjectSet T} (hA : AddInvariant constructor A)
    (hB : AddInvariant constructor B) :
    ∃ S, A.unionWithSet B = .ok S ∧ AddInvariant constructor S ∧ S.view = A.view.union B.view := by
  obtain ⟨S, h, hwf, hS⟩ := WellFormed.unionWith hc B.asSlice hA.wellFormed hA.constructor_eq
    hB.wellFormed.mem_asSlice
  have hv := view_unionWithSet hc hA.wellFormed hB.wellFormed hA.constructor_eq hA.lifted hB.lifted h
  exact ⟨S, h, ⟨hwf, hS, hv ▸ WildcardSet.lifted_union _ _⟩, hv⟩

theorem exists_view_intersectionDifference {A B : BaseSubjectSet T} (hA : WellFormed A)
    (hB : WellFormed B) (hAc : A.constructor = constructor) :
    ∃ S, A.intersectionDifference B = .ok S ∧ WellFormed S ∧ S.constructor = constructor ∧
      S.view = A.view.inter B.view := by
  obtain ⟨S, h, hwf, hS, -⟩ := hA.intersectionDifference hc hB hAc
  exact ⟨S, h, hwf, hS, view_intersectionDifference hc hA hB hAc h⟩

section Laws

variable {A B C : BaseSubjectSet T}

theorem unionWithSet_comm (hA : AddInvariant constructor A) (hB : AddInvariant constructor B) :
    ∃ S₁ S₂, A.unionWithSet B = .ok S₁ ∧ B.unionWithSet A = .ok S₂ ∧ SameSubjects S₁ S₂ := by
  obtain ⟨S₁, h₁, hS₁, hv₁⟩ := hA.unionWithSet hc hB
  obtain ⟨S₂, h₂, hS₂, hv₂⟩ := hB.unionWithSet hc hA
  refine ⟨S₁, S₂, h₁, h₂, sameSubjects_of_view_eq hS₁.wellFormed hS₂.wellFormed ?_⟩
  rw [hv₁, hv₂, WildcardSet.union_comm]

theorem unionWithSet_assoc (hA : AddInvariant constructor A) (hB : AddInvariant constructor B)
    (hC : AddInvariant constructor C) :
    ∃ BC S₁ AB S₂, B.unionWithSet C = .ok BC ∧ A.unionWithSet BC = .ok S₁ ∧
      A.unionWithSet B = .ok AB ∧ AB.unionWithSet C = .ok S₂ ∧ SameSubjects S₁ S₂ := by
  obtain ⟨BC, hBC, hBC', hvBC⟩ := hB.unionWithSet hc hC
  obtain ⟨S₁, h₁, hS₁, hv₁⟩ := hA.unionWithSet hc hBC'
  obtain ⟨AB, hAB, hAB', hvAB⟩ := hA.unionWithSet hc hB
  obtain ⟨S₂, h₂, hS₂, hv₂⟩ := hAB'.unionWithSet hc hC
  refine ⟨BC, S₁, AB, S₂, hBC, h₁, hAB, h₂,
    sameSubjects_of_view_eq hS₁.wellFormed hS₂.wellFormed ?_⟩
  rw [hv₁, hvBC, hv₂, hvAB, WildcardSet.union_assoc]

theorem unionWithSet_self (hA : AddInvariant constructor A) :
    ∃ S, A.unionWithSet A = .ok S ∧ SameSubjects S A := by
  obtain ⟨S, h, hS, hv⟩ := hA.unionWithSet hc hA
  refine ⟨S, h, sameSubjects_of_view_eq hS.wellFormed hA.wellFormed ?_⟩
  rw [hv, WildcardSet.union_self hA.lifted]

theorem intersectionDifference_comm (hA : WellFormed A) (hB : WellFormed B)
    (hAc : A.constructor = constructor) (hBc : B.constructor = constructor) :
    ∃ S₁ S₂, A.intersectionDifference B = .ok S₁ ∧ B.intersectionDifference A = .ok S₂ ∧
      SameSubjects S₁ S₂ := by
  obtain ⟨S₁, h₁, hS₁, -, hv₁⟩ := exists_view_intersectionDifference hc hA hB hAc
  obtain ⟨S₂, h₂, hS₂, -, hv₂⟩ := exists_view_intersectionDifference hc hB hA hBc
  refine ⟨S₁, S₂, h₁, h₂, sameSubjects_of_view_eq hS₁ hS₂ ?_⟩
  rw [hv₁, hv₂, WildcardSet.inter_comm]

theorem intersectionDifference_assoc (hA : WellFormed A) (hB : WellFormed B) (hC : WellFormed C)
    (hAc : A.constructor = constructor) (hBc : B.constructor = constructor) :
    ∃ BC S₁ AB S₂, B.intersectionDifference C = .ok BC ∧ A.intersectionDifference BC = .ok S₁ ∧
      A.intersectionDifference B = .ok AB ∧ AB.intersectionDifference C = .ok S₂ ∧
      SameSubjects S₁ S₂ := by
  obtain ⟨BC, hBC, hBC', -, hvBC⟩ := exists_view_intersectionDifference hc hB hC hBc
  obtain ⟨S₁, h₁, hS₁, -, hv₁⟩ := exists_view_intersectionDifference hc hA hBC' hAc
  obtain ⟨AB, hAB, hAB', hABc, hvAB⟩ := exists_view_intersectionDifference hc hA hB hAc
  obtain ⟨S₂, h₂, hS₂, -, hv₂⟩ := exists_view_intersectionDifference hc hAB' hC hABc
  refine ⟨BC, S₁, AB, S₂, hBC, h₁, hAB, h₂, sameSubjects_of_view_eq hS₁ hS₂ ?_⟩
  rw [hv₁, hvBC, hv₂, hvAB, WildcardSet.inter_assoc]

theorem intersectionDifference_self (hA : WellFormed A) (hAc : A.constructor = constructor) :
    ∃ S, A.intersectionDifference A = .ok S ∧ SameSubjects S A := by
  obtain ⟨S, h, hS, -, hv⟩ := exists_view_intersectionDifference hc hA hA hAc
  refine ⟨S, h, sameSubjects_of_view_eq hS hA ?_⟩
  rw [hv, WildcardSet.inter_self]

end Laws

section Members

variable {A B S : BaseSubjectSet T}

theorem member_unionWithSet_of_member (hA : AddInvariant constructor A)
    (hB : AddInvariant constructor B) (h : A.unionWithSet B = .ok S) (v : Valuation) (x : String)
    (hx : (member A v x || member B v x) = true) : member S v x = true := by
  obtain ⟨S', h', hS', hv⟩ := hA.unionWithSet hc hB
  rw [h, Except.ok.injEq] at h'
  subst h'
  rw [member_eq_memAt hA.wellFormed, member_eq_memAt hB.wellFormed] at hx
  rw [member_eq_memAt hS'.wellFormed, hv]
  exact WildcardSet.memAt_union_of_memAt _ _ v x hx

/-- Where the two wildcards' caveats agree at `v`, as when neither is caveated, the members of
`UnionWithSet` are those of either set. -/
theorem member_unionWithSet (hA : AddInvariant constructor A) (hB : AddInvariant constructor B)
    (h : A.unionWithSet B = .ok S) (v : Valuation)
    (hw : ∀ wa ∈ A.wildcard, ∀ wb ∈ B.wildcard, holds v wa = holds v wb) (x : String) :
    member S v x = (member A v x || member B v x) := by
  obtain ⟨S', h', hS', hv⟩ := hA.unionWithSet hc hB
  rw [h, Except.ok.injEq] at h'
  subst h'
  rw [member_eq_memAt hS'.wellFormed, hv, member_eq_memAt hA.wellFormed,
    member_eq_memAt hB.wellFormed]
  apply WildcardSet.memAt_union
  -- the views' wildcard conditions are the wildcards' caveats
  intro p hp q hq
  obtain ⟨wa, hwa, rfl⟩ := Option.mem_map.mp hp
  obtain ⟨wb, hwb, rfl⟩ := Option.mem_map.mp hq
  rw [wildcardView, wildcardView, evalAt_presence, evalAt_presence, Option.any_some,
    Option.any_some]
  exact Or.inl (hw wa hwa wb hwb)

end Members

section WithoutExclusions

variable {S : BaseSubjectSet T}

theorem NoExclusions.add (hwf : WellFormed S) (hS : S.constructor = constructor)
    (hno : NoExclusions S) {t : T} (ht : excludedSubjects t = []) :
    ∃ S', S.add t = .ok S' ∧ WellFormed S' ∧ S'.constructor = constructor ∧ NoExclusions S' ∧
      ∀ v x, member S' v x = (member S v x || subjectMember v t x) := by
  have htw := wellFormedSubject_of_nil ht
  have hview := (noExclusions_iff_view S).1 hno
  have hsub := withoutExclusions_subjectView ht
  obtain ⟨S', h, hwf', hS'⟩ := hwf.add hc hS htw
  have hunion := view_add hc hwf hS hview.lifted htw h
  refine ⟨S', h, hwf', hS', (noExclusions_iff_view S').2 (hunion ▸ hview.union hsub), ?_⟩
  intro v x
  rw [member_eq_memAt hwf', hunion, WildcardSet.memAt_union, member_eq_memAt hwf,
    memAt_subjectView htw]
  -- neither wildcard excludes anything
  intro p hp q hq
  right
  rw [hview p hp, hsub q hq]

theorem NoExclusions.unionWith :
    ∀ (l : List T) {S : BaseSubjectSet T}, WellFormed S → S.constructor = constructor →
      NoExclusions S → (∀ t ∈ l, excludedSubjects t = []) →
      ∃ S', S.unionWith l = .ok S' ∧ WellFormed S' ∧ S'.constructor = constructor ∧
        NoExclusions S' ∧ ∀ v x, member S' v x = (member S v x || l.any fun t => subjectMember v t x)
  | [], S, hwf, hS, hno, _ => ⟨S, rfl, hwf, hS, hno, fun v x => by simp⟩
  | t :: l, S, hwf, hS, hno, hl => by
    obtain ⟨S₁, h₁, hwf₁, hS₁, hno₁, hmem₁⟩ := hno.add hc hwf hS (hl t List.mem_cons_self)
    obtain ⟨S', h', hwf', hS', hno', hmem'⟩ := NoExclusions.unionWith l hwf₁ hS₁ hno₁
      fun t' ht' => hl t' (List.mem_cons_of_mem t ht')
    refine ⟨S', by rw [BaseSubjectSet.unionWith, h₁, Except.ok_bind, h'], hwf', hS', hno', ?_⟩
    intro v x
    rw [hmem', hmem₁, List.any_cons, Bool.or_assoc]

/-- Between sets without exclusions, `UnionWithSet` is the union of members. -/
theorem NoExclusions.unionWithSet {O : BaseSubjectSet T} (hwf : WellFormed S)
    (hS : S.constructor = constructor) (hno : NoExclusions S) (hO : WellFormed O) (hnO : NoExclusions O) :
    ∃ S', S.unionWithSet O = .ok S' ∧ WellFormed S' ∧ S'.constructor = constructor ∧ NoExclusions S' ∧
      ∀ v x, member S' v x = (member S v x || member O v x) := by
  have hview := (noExclusions_iff_view S).1 hno
  have hviewO := (noExclusions_iff_view O).1 hnO
  obtain ⟨S', h, hwf', hS'⟩ := WellFormed.unionWith hc O.asSlice hwf hS hO.mem_asSlice
  have hunion := view_unionWithSet hc hwf hO hS hview.lifted hviewO.lifted h
  refine ⟨S', h, hwf', hS', (noExclusions_iff_view S').2 (hunion ▸ hview.union hviewO), ?_⟩
  intro v x
  rw [member_eq_memAt hwf', hunion, WildcardSet.memAt_union, member_eq_memAt hwf, member_eq_memAt hO]
  -- neither wildcard excludes anything
  intro p hp q hq
  right
  rw [hview p hp, hviewO q hq]

theorem NoExclusions.intersectionDifference {O S' : BaseSubjectSet T} (hS : WellFormed S)
    (hO : WellFormed O) (hSc : S.constructor = constructor) (hnS : NoExclusions S)
    (hnO : NoExclusions O) (h : S.intersectionDifference O = .ok S') : NoExclusions S' := by
  rw [noExclusions_iff_view, view_intersectionDifference hc hS hO hSc h]
  exact ((noExclusions_iff_view S).1 hnS).inter ((noExclusions_iff_view O).1 hnO)

theorem NoExclusions.withParentCaveatExpression (hS : S.constructor = constructor)
    (hno : NoExclusions S) (p : Option CaveatExpression) :
    NoExclusions (S.withParentCaveatExpression p) := by
  intro w hw
  simp only [BaseSubjectSet.withParentCaveatExpression, Option.map_eq_some_iff] at hw
  obtain ⟨w', hw', rfl⟩ := hw
  rw [hS, hc.excludedSubjects_eq]
  exact hno w' hw'

end WithoutExclusions

end Lawful

/-- On sets built by `Add`, `UnionWithSet` and `IntersectionDifference` are commutative,
associative and idempotent up to holding the same subjects. -/
theorem subject_set_union_and_intersection_laws (constructor : Constructor T)
    (hc : LawfulConstructor constructor) (A B C : BaseSubjectSet T) (hA : BuiltByAdd constructor A)
    (hB : BuiltByAdd constructor B) (hC : BuiltByAdd constructor C) :
    ((∃ S₁ S₂, A.unionWithSet B = .ok S₁ ∧ B.unionWithSet A = .ok S₂ ∧ SameSubjects S₁ S₂) ∧
      (∃ BC S₁ AB S₂, B.unionWithSet C = .ok BC ∧ A.unionWithSet BC = .ok S₁ ∧
        A.unionWithSet B = .ok AB ∧ AB.unionWithSet C = .ok S₂ ∧ SameSubjects S₁ S₂) ∧
      (∃ S, A.unionWithSet A = .ok S ∧ SameSubjects S A)) ∧
    ((∃ S₁ S₂, A.intersectionDifference B = .ok S₁ ∧ B.intersectionDifference A = .ok S₂ ∧
        SameSubjects S₁ S₂) ∧
      (∃ BC S₁ AB S₂, B.intersectionDifference C = .ok BC ∧ A.intersectionDifference BC = .ok S₁ ∧
        A.intersectionDifference B = .ok AB ∧ AB.intersectionDifference C = .ok S₂ ∧
        SameSubjects S₁ S₂) ∧
      (∃ S, A.intersectionDifference A = .ok S ∧ SameSubjects S A)) := by
  have hA' := hA.addInvariant hc
  have hB' := hB.addInvariant hc
  have hC' := hC.addInvariant hc
  refine ⟨⟨unionWithSet_comm hc hA' hB', unionWithSet_assoc hc hA' hB' hC',
    unionWithSet_self hc hA'⟩, ⟨?_, ?_, ?_⟩⟩
  · exact intersectionDifference_comm hc hA'.wellFormed hB'.wellFormed hA'.constructor_eq
      hB'.constructor_eq
  · exact intersectionDifference_assoc hc hA'.wellFormed hB'.wellFormed hC'.wellFormed
      hA'.constructor_eq hB'.constructor_eq
  · exact intersectionDifference_self hc hA'.wellFormed hA'.constructor_eq

/-- Three of the sets the repository's tests use: a wildcard without `1`, a caveated `1`, and a
caveated wildcard. -/
theorem subject_set_union_and_intersection_laws_at_test_sets :
    let A : SubjectSet := { newSubjectSet with wildcard := some ⟨publicWildcard, none, [⟨"1", none, []⟩]⟩ }
    let B : SubjectSet := newSubjectSet.addConcrete ⟨"1", some (.caveat ⟨"caveat", ⟨[]⟩⟩), []⟩
    let C : SubjectSet :=
      { newSubjectSet with wildcard := some ⟨publicWildcard, some (.caveat ⟨"caveat2", ⟨[]⟩⟩), []⟩ }
    BuiltByAdd subjectSetConstructor A ∧ BuiltByAdd subjectSetConstructor B ∧
      BuiltByAdd subjectSetConstructor C ∧
      ((∃ S₁ S₂, A.unionWithSet B = .ok S₁ ∧ B.unionWithSet A = .ok S₂ ∧ SameSubjects S₁ S₂) ∧
        (∃ BC S₁ AB S₂, B.unionWithSet C = .ok BC ∧ A.unionWithSet BC = .ok S₁ ∧
          A.unionWithSet B = .ok AB ∧ AB.unionWithSet C = .ok S₂ ∧ SameSubjects S₁ S₂) ∧
        (∃ S, A.unionWithSet A = .ok S ∧ SameSubjects S A)) ∧
      ((∃ S₁ S₂, A.intersectionDifference B = .ok S₁ ∧ B.intersectionDifference A = .ok S₂ ∧
          SameSubjects S₁ S₂) ∧
        (∃ BC S₁ AB S₂, B.intersectionDifference C = .ok BC ∧ A.intersectionDifference BC = .ok S₁ ∧
          A.intersectionDifference B = .ok AB ∧ AB.intersectionDifference C = .ok S₂ ∧
          SameSubjects S₁ S₂) ∧
        (∃ S, A.intersectionDifference A = .ok S ∧ SameSubjects S A)) := by
  intro A B C
  have hA : BuiltByAdd subjectSetConstructor A :=
    ⟨[⟨publicWildcard, none, [⟨"1", none, []⟩]⟩], by decide, rfl⟩
  have hB : BuiltByAdd subjectSetConstructor B :=
    ⟨[⟨"1", some (.caveat ⟨"caveat", ⟨[]⟩⟩), []⟩], by decide, rfl⟩
  have hC : BuiltByAdd subjectSetConstructor C :=
    ⟨[⟨publicWildcard, some (.caveat ⟨"caveat2", ⟨[]⟩⟩), []⟩], by decide, rfl⟩
  exact ⟨hA, hB, hC, subject_set_union_and_intersection_laws subjectSetConstructor
    subjectSetConstructor_lawful A B C hA hB hC⟩

end SpiceDB.Datasets
