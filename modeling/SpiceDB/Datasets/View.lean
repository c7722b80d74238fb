import SpiceDB.Lib.WildcardSet
import SpiceDB.Datasets.Invariant

namespace SpiceDB.Datasets

open Caveats Condition

/-- What a caveat expression means: `⊤` when there is none, its truth table otherwise. -/
def meaning : Option CaveatExpression → WithTop (Valuation → Bool)
  | none => ⊤
  | some e => ((fun v => evalCaveat v (some e) : Valuation → Bool) : WithTop (Valuation → Bool))

/-- The conditions of a set's members: absent, uncaveated, or under a truth table. -/
abbrev CaveatCondition := WithBot (WithTop (Valuation → Bool))

theorem meaning_of_ne_none {c : Option CaveatExpression} (hc : c ≠ none) :
    meaning c = ((fun v => evalCaveat v c : Valuation → Bool) : WithTop (Valuation → Bool)) := by
  cases c with
  | none => exact absurd rfl hc
  | some e => rfl

theorem meaning_eq_iff {a b : Option CaveatExpression} :
    meaning a = meaning b ↔ (a = none ↔ b = none) ∧ ∀ v, evalCaveat v a = evalCaveat v b := by
  cases a <;> cases b <;> simp [meaning, funext_iff]

@[simp] theorem meaning_caveatAnd (a b : Option CaveatExpression) :
    meaning (caveatAnd a b) = meaning a ⊓ meaning b := by
  cases a with
  | none => simp [caveatAnd, meaning]
  | some a =>
    cases b with
    | none => simp [caveatAnd, meaning]
    | some b =>
      have hne : caveatAnd (some a) (some b) ≠ none := by simp [caveatAnd_eq_none]
      rw [meaning_of_ne_none hne, meaning, meaning, ← WithTop.coe_inf]
      congr 1
      funext v
      simp

@[simp] theorem meaning_shortcircuitedOr (a b : Option CaveatExpression) :
    meaning (shortcircuitedOr a b) = meaning a ⊔ meaning b := by
  cases a with
  | none => simp [shortcircuitedOr, meaning]
  | some a =>
    cases b with
    | none => simp [shortcircuitedOr, meaning]
    | some b =>
      have hne : shortcircuitedOr (some a) (some b) ≠ none := by simp [shortcircuitedOr_eq_none]
      rw [meaning_of_ne_none hne, meaning, meaning, ← WithTop.coe_sup]
      congr 1
      funext v
      simp

theorem meaning_caveatInvert_some (e : CaveatExpression) :
    ((meaning (caveatInvert (some e)) : WithTop (Valuation → Bool)) : CaveatCondition) =
      neg ((meaning (some e) : WithTop (Valuation → Bool)) : CaveatCondition) := by
  simp only [caveatInvert, meaning, neg_coe_coe]
  rfl

variable {T : Type} [Subject T]

/-- The condition under which an optional subject is there: `⊥` when it is not, and its
caveat's meaning when it is. -/
def presence : Option T → CaveatCondition
  | none => ⊥
  | some t => meaning (caveatExpression t)

/-- The exclusion of `x` in the wildcard `w`. -/
def exclusionOf (w : T) (x : String) : Option T :=
  (excludedSubjects w).find? fun e => subjectId e = x

/-- A wildcard's condition and the conditions of its exclusions. -/
def wildcardView (w : T) : CaveatCondition × (String → CaveatCondition) :=
  (presence (some w), fun x => presence (exclusionOf w x))

/-- The view of a set: its concretes' conditions by id, and its wildcard's. -/
def BaseSubjectSet.view (S : BaseSubjectSet T) : WildcardSet String (Valuation → Bool) where
  concrete x := presence (S.concrete.lookup x)
  wildcard := S.wildcard.map wildcardView

/-- The view of the set holding the one subject. -/
def subjectView (t : T) : WildcardSet String (Valuation → Bool) :=
  if subjectId t = publicWildcard then ⟨⊥, some (wildcardView t)⟩
  else ⟨Function.update ⊥ (subjectId t) (presence (some t)), none⟩

/-- The condition under which `x` is in the optional wildcard `w`. -/
noncomputable def wildcardPresence (w : Option T) (x : String) : CaveatCondition :=
  match w with
  | none => ⊥
  | some w => presence (some w) ⊓ neg (presence (exclusionOf w x))

theorem view_wildcardAt (S : BaseSubjectSet T) (x : String) :
    S.view.wildcardAt x = wildcardPresence S.wildcard x := by
  unfold BaseSubjectSet.view WildcardSet.wildcardAt wildcardPresence
  cases S.wildcard <;> rfl

@[simp] theorem presence_none : presence (none : Option T) = ⊥ := rfl

@[simp] theorem presence_some (t : T) :
    presence (some t) = ((meaning (caveatExpression t) : WithTop (Valuation → Bool)) : CaveatCondition) :=
  rfl

@[simp] theorem view_concrete (S : BaseSubjectSet T) (x : String) :
    S.view.concrete x = presence (S.concrete.lookup x) := rfl

@[simp] theorem view_wildcard (S : BaseSubjectSet T) : S.view.wildcard = S.wildcard.map wildcardView :=
  rfl

theorem view_of_wildcard_none {S : BaseSubjectSet T} (h : S.wildcard = none) :
    S.view = ⟨fun x => presence (S.concrete.lookup x), none⟩ := by
  simp [BaseSubjectSet.view, h]

/-- Two optional caveat expressions are logically equivalent: both missing, or both present
and true under the same valuations. -/
def EquivalentCaveats (a b : Option CaveatExpression) : Prop :=
  (a = none ↔ b = none) ∧ ∀ v, evalCaveat v a = evalCaveat v b

/-- Two optional subjects are the same: both absent, or both present with the same id and
logically equivalent caveats. -/
def SameSubject : Option T → Option T → Prop
  | none, none => True
  | some s, some t => subjectId s = subjectId t ∧
      EquivalentCaveats (caveatExpression s) (caveatExpression t)
  | _, _ => False

/-- Two sets hold the same subjects: the same concretes by id, and a wildcard in both or in
neither, with logically equivalent caveats and the same exclusions by id. -/
structure SameSubjects (A B : BaseSubjectSet T) : Prop where
  concrete : ∀ x, SameSubject (A.concrete.lookup x) (B.concrete.lookup x)
  wildcard : SameSubject A.wildcard B.wildcard
  exclusions : ∀ w w', A.wildcard = some w → B.wildcard = some w' →
    ∀ x, SameSubject (exclusionOf w x) (exclusionOf w' x)

theorem sameSubject_of_presence_eq {a b : Option T} {x : String}
    (ha : ∀ t, a = some t → subjectId t = x) (hb : ∀ t, b = some t → subjectId t = x)
    (h : presence a = presence b) : SameSubject a b := by
  cases a with
  | none =>
    cases b with
    | none => trivial
    | some t => exact absurd h.symm WithBot.coe_ne_bot
  | some s =>
    cases b with
    | none => exact absurd h WithBot.coe_ne_bot
    | some t =>
      refine ⟨(ha s rfl).trans (hb t rfl).symm, meaning_eq_iff.mp ?_⟩
      exact WithBot.coe_injective h

theorem subjectId_of_exclusionOf {w t : T} {x : String} (h : exclusionOf w x = some t) :
    subjectId t = x := by
  simpa using List.find?_some h

/-- Well-formed sets with the same view hold the same subjects. -/
theorem sameSubjects_of_view_eq {A B : BaseSubjectSet T} (hA : WellFormed A) (hB : WellFormed B)
    (h : A.view = B.view) : SameSubjects A B where
  concrete x := sameSubject_of_presence_eq (hA.concrete_key x) (hB.concrete_key x)
    (congrFun (congrArg WildcardSet.concrete h) x)
  wildcard := by
    have hw := congrArg WildcardSet.wildcard h
    simp only [BaseSubjectSet.view] at hw
    cases hAw : A.wildcard with
    | none =>
      cases hBw : B.wildcard with
      | none => trivial
      | some w' => simp [hAw, hBw] at hw
    | some w =>
      cases hBw : B.wildcard with
      | none => simp [hAw, hBw] at hw
      | some w' =>
        simp only [hAw, hBw, Option.map_some, Option.some.injEq, wildcardView, Prod.mk.injEq] at hw
        refine sameSubject_of_presence_eq (x := publicWildcard) ?_ ?_ hw.1
        · rintro _ ⟨⟩
          exact (hA.wildcard_subject w hAw).is_wildcard
        · rintro _ ⟨⟩
          exact (hB.wildcard_subject w' hBw).is_wildcard
  exclusions w w' hAw hBw x := by
    have hw := congrArg WildcardSet.wildcard h
    simp only [BaseSubjectSet.view, hAw, hBw, Option.map_some, Option.some.injEq, wildcardView,
      Prod.mk.injEq] at hw
    exact sameSubject_of_presence_eq (fun _ => subjectId_of_exclusionOf)
      (fun _ => subjectId_of_exclusionOf) (congrFun hw.2 x)

theorem evalAt_meaning (v : Valuation) (e : Option CaveatExpression) :
    evalAt v ((meaning e : WithTop (Valuation → Bool)) : CaveatCondition) = evalCaveat v e := by
  cases e <;> rfl

theorem evalAt_presence (v : Valuation) (o : Option T) : evalAt v (presence o) = o.any (holds v) := by
  cases o with
  | none => rfl
  | some t => exact evalAt_meaning v (caveatExpression t)

theorem evalAt_wildcardPresence (v : Valuation) {W : Option T}
    (hW : ∀ w, W = some w → WildcardSubject w) (x : String) :
    evalAt v (wildcardPresence W x) = W.any (wildcardMember v · x) := by
  cases W with
  | none => rfl
  | some w =>
    simp only [wildcardPresence, evalAt_inf, evalAt_neg, evalAt_presence, Option.any_some,
      wildcardMember, excludedBy, exclusionOf]
    rw [List.any_key_eq_find?_any subjectId x (holds v) _ (hW w rfl).distinct_exclusions]

theorem member_eq_memAt {S : BaseSubjectSet T} (hS : WellFormed S) (v : Valuation) (x : String) :
    member S v x = S.view.memAt v x := by
  rw [WildcardSet.memAt, view_concrete, view_wildcardAt, evalAt_sup, evalAt_presence,
    evalAt_wildcardPresence v hS.wildcard_subject, member]

theorem lookup_exclusionsMapFor {w : T} (hw : WildcardSubject w) (x : String) :
    (exclusionsMapFor w).lookup x = exclusionOf w x := by
  rw [exclusionsMapFor, AList.lookup_foldl_insert subjectId _ hw.distinct_exclusions, exclusionOf]
  cases (excludedSubjects w).find? (fun e => subjectId e = x) <;> rfl

section Lawful

variable {constructor : Constructor T} (hc : LawfulConstructor constructor)
include hc

theorem exclusionOf_construct (id : String) (e : Option CaveatExpression) (xs srcs : List T)
    (x : String) : exclusionOf (constructor id e xs srcs) x = xs.find? fun e => subjectId e = x := by
  rw [exclusionOf, hc.excludedSubjects_eq]

theorem presence_construct (id : String) (e : Option CaveatExpression) (xs srcs : List T) :
    presence (some (constructor id e xs srcs)) =
      ((meaning e : WithTop (Valuation → Bool)) : CaveatCondition) := by
  rw [presence_some, hc.caveatExpression_eq]

theorem presence_unionConcreteWithConcrete (a b : Option T) :
    presence (unionConcreteWithConcrete a b constructor) = presence a ⊔ presence b := by
  cases a with
  | none => simp [unionConcreteWithConcrete]
  | some p =>
    cases b with
    | none => simp [unionConcreteWithConcrete]
    | some q => simp [unionConcreteWithConcrete, presence_construct hc, WithBot.coe_sup]

theorem presence_intersectConcreteWithConcrete (p : T) (q : Option T) :
    presence (intersectConcreteWithConcrete p q constructor) = presence (some p) ⊓ presence q := by
  cases q with
  | none => simp [intersectConcreteWithConcrete]
  | some q => simp [intersectConcreteWithConcrete, presence_construct hc, WithBot.coe_inf]

/-- A concrete intersected with a wildcard is there when the concrete is, and is in the
wildcard. -/
theorem presence_intersectConcreteWithWildcard (p : T) (w : Option T)
    (hw : ∀ w', w = some w' → WildcardSubject w') :
    presence (intersectConcreteWithWildcard p w constructor) =
      presence (some p) ⊓ wildcardPresence w (subjectId p) := by
  cases w with
  | none => simp [intersectConcreteWithWildcard, wildcardPresence]
  | some w =>
    simp only [intersectConcreteWithWildcard, Option.bind_some, wildcardPresence,
      lookup_exclusionsMapFor (hw w rfl)]
    -- the four cases of the source: an exclusion of the concrete or none, caveated or not
    cases hx : exclusionOf w (subjectId p) with
    | none =>
      cases hcw : caveatExpression w with
      | none => simp [hcw, meaning]
      | some cw => simp [hcw, presence_construct hc, WithBot.coe_inf]
    | some e =>
      cases hce : caveatExpression e with
      | none => simp [hce, meaning]
      | some ce =>
        simp [hce, presence_construct hc, WithBot.coe_inf, meaning_caveatInvert_some]

/-- The exclusion of `x` after a concrete joins the wildcard: lifted where the concrete is
`x` and is there. -/
theorem presence_exclusionOf_unionWildcardWithConcrete {w : T} (hw : WildcardSubject w) (t : T)
    (x : String) :
    presence ((excludedSubjects w).filterMap (unionExclusionWithConcrete t constructor) |>.find?
        fun e => subjectId e = x) =
      presence (exclusionOf w x) ⊓
        neg (Function.update (⊥ : String → CaveatCondition) (subjectId t) (presence (some t)) x) := by
  rw [List.find?_filterMap_of_nodup _ subjectId subjectId
    (unionExclusionWithConcrete_subjectId hc t) x _ hw.distinct_exclusions]
  cases he : exclusionOf w x with
  | none =>
    rw [exclusionOf] at he
    simp [he]
  | some e =>
    rw [exclusionOf] at he
    have hex : subjectId e = x := subjectId_of_exclusionOf he
    rw [he, Option.bind_some]
    unfold unionExclusionWithConcrete
    by_cases het : subjectId e = subjectId t
    · rw [if_pos het, ← hex, het, Function.update_self]
      cases hct : caveatExpression t with
      | none => simp [hct, meaning]
      | some ct => simp [hct, presence_construct hc, WithBot.coe_inf, meaning_caveatInvert_some]
    · rw [if_neg het, ← hex, Function.update_of_ne het]
      simp

theorem wildcardView_unionWildcardWithConcrete {w : T} (hw : WildcardSubject w) (t : T) :
    ∃ w', unionWildcardWithConcrete (some w) t constructor = some w' ∧ WildcardSubject w' ∧
      wildcardView w' =
        WildcardSet.lift (Function.update ⊥ (subjectId t) (presence (some t))) (wildcardView w) := by
  refine ⟨_, rfl, unionWildcardWithConcrete_wildcard hc w t hw _ rfl, ?_⟩
  simp only [wildcardView, WildcardSet.lift, presence_construct hc, exclusionOf,
    hc.excludedSubjects_eq, presence_exclusionOf_unionWildcardWithConcrete hc hw]
  rfl

end Lawful

theorem find?_asSlice_of_wildcard_none {S : BaseSubjectSet T} (hkey : Keyed S.concrete)
    (hnone : S.wildcard = none) (x : String) :
    S.asSlice.find? (fun e => subjectId e = x) = S.concrete.lookup x := by
  rw [BaseSubjectSet.asSlice, hnone, Option.toList_none, List.append_nil]
  exact AList.find?_values_eq_dlookup subjectId x _ S.concrete.nodupKeys
    fun e he => hkey e.1 e.2 (AList.mem_lookup_iff.mpr he)

theorem constructor_addExclusions :
    ∀ (l : List T) {S S' : BaseSubjectSet T}, S.addExclusions l = .ok S' → S'.constructor = S.constructor
  | [], S, S', h => by
    cases h
    rfl
  | e :: l, S, S', h => by
    rw [BaseSubjectSet.addExclusions] at h
    split at h
    · cases h
    · rw [constructor_addExclusions l h]
      simp [BaseSubjectSet.addConcrete]

section Lawful

variable {constructor : Constructor T} (hc : LawfulConstructor constructor)
include hc

/-- Adding a concrete to a set keyed by id stores, under its id, its union with what was
there. -/
theorem lookup_addConcrete (S : BaseSubjectSet T) (hS : S.constructor = constructor)
    (hkey : Keyed S.concrete) (t : T) (x : String) :
    (S.addConcrete t).concrete.lookup x =
      if x = subjectId t then
        unionConcreteWithConcrete (S.concrete.lookup (subjectId t)) (some t) constructor
      else S.concrete.lookup x := by
  have hid : ∀ u, unionConcreteWithConcrete (S.concrete.lookup (subjectId t)) (some t) constructor =
      some u → subjectId u = subjectId t := by
    cases hl : S.concrete.lookup (subjectId t) with
    | none =>
      rintro u ⟨⟩
      rfl
    | some p =>
      rintro u ⟨⟩
      rw [hc.subjectId_eq, hkey _ p hl]
  simp only [BaseSubjectSet.addConcrete, hS]
  exact lookup_setConcrete _ _ _ hid x

theorem presence_lookup_addConcrete (S : BaseSubjectSet T) (hS : S.constructor = constructor)
    (hkey : Keyed S.concrete) (t : T) (x : String) :
    presence ((S.addConcrete t).concrete.lookup x) = presence (S.concrete.lookup x) ⊔
      Function.update (⊥ : String → CaveatCondition) (subjectId t) (presence (some t)) x := by
  rw [lookup_addConcrete hc S hS hkey t x]
  by_cases hx : x = subjectId t
  · subst hx
    rw [if_pos rfl, presence_unionConcreteWithConcrete hc, Function.update_self]
  · rw [if_neg hx, Function.update_of_ne hx, Pi.bot_apply, sup_bot_eq]

/-- Adding a concrete to a set whose exclusions leave out its concretes is the union with the
concrete's view. -/
theorem view_addConcrete {S : BaseSubjectSet T} (hwf : WellFormed S)
    (hS : S.constructor = constructor) (hL : S.view.Lifted) {t : T} (ht : ConcreteSubject t) :
    (S.addConcrete t).view = S.view.union (subjectView t) := by
  have hsub : subjectView t = ⟨Function.update ⊥ (subjectId t) (presence (some t)), none⟩ :=
    if_neg ht.not_wildcard
  ext1
  · funext x
    rw [WildcardSet.concrete_union, hsub, Pi.sup_apply, view_concrete, view_concrete]
    exact presence_lookup_addConcrete hc S hS hwf.concrete_key t x
  · rw [WildcardSet.wildcard_union, hsub, view_wildcard, view_wildcard, addConcrete_wildcard S hS]
    cases hw : S.wildcard with
    | none => rfl
    | some w =>
      obtain ⟨w', hw', -, hview⟩ :=
        wildcardView_unionWildcardWithConcrete hc (hwf.wildcard_subject w hw) t
      -- the exclusions already leave out the set's concretes, so only the new one lifts them
      have hlift : WildcardSet.lift S.view.concrete (wildcardView w) = wildcardView w :=
        hL _ (by simp [hw])
      rw [hw', Option.map_some, Option.map_some, Option.merge, Option.map_some, hview,
        ← WildcardSet.lift_lift, hlift]

/-- Adding concrete exclusions with distinct ids to a set keyed by id joins each one's
presence into its id's. -/
theorem presence_lookup_addExclusions :
    ∀ (l : List T) {S S' : BaseSubjectSet T}, S.constructor = constructor → Keyed S.concrete →
      (l.map subjectId).Nodup → S.addExclusions l = .ok S' → ∀ x,
        presence (S'.concrete.lookup x) =
          presence (S.concrete.lookup x) ⊔ presence (l.find? fun e => subjectId e = x)
  | [], S, S', _, _, _, h, x => by
    cases h
    simp
  | e :: l, S, S', hS, hkey, hnd, h, x => by
    simp only [List.map_cons, List.nodup_cons] at hnd
    rw [BaseSubjectSet.addExclusions] at h
    split at h
    · cases h
    · rw [presence_lookup_addExclusions l (by simp [BaseSubjectSet.addConcrete, hS])
        (keyed_addConcrete hc S hS hkey e) hnd.2 h x, presence_lookup_addConcrete hc S hS hkey e x,
        List.find?_cons]
      by_cases hx : subjectId e = x
      · -- `e` is the one exclusion of id `x`
        have hl : l.find? (fun e => subjectId e = x) = none := by
          rw [List.find?_eq_none]
          intro e' he' heq
          exact hnd.1 (List.mem_map.mpr ⟨e', he', by simpa [hx] using heq⟩)
        subst hx
        simp [hl]
      · simp [hx, Function.update_of_ne (Ne.symm hx)]

theorem presence_lookup_addExclusions_new {w : T} (hw : WildcardSubject w) {S : BaseSubjectSet T}
    (h : (newBaseSubjectSet constructor).addExclusions (excludedSubjects w) = .ok S) (x : String) :
    presence (S.concrete.lookup x) = presence (exclusionOf w x) := by
  rw [presence_lookup_addExclusions hc _ rfl (wellFormed_newBaseSubjectSet constructor).concrete_key
    hw.distinct_exclusions h]
  simp [newBaseSubjectSet, exclusionOf]

theorem presence_first_loop (S O : BaseSubjectSet T) (hkey : Keyed S.concrete)
    (hOw : ∀ w, O.wildcard = some w → WildcardSubject w) (x : String) :
    presence ((S.concrete.entries.foldl (fun m e => intersectStepWithOther O constructor m e.2)
        ∅).lookup x) =
      presence (S.concrete.lookup x) ⊓ presence (O.concrete.lookup x) ⊔
        presence (S.concrete.lookup x) ⊓ wildcardPresence O.wildcard x := by
  rw [lookup_first_loop S O hkey x]
  cases hl : S.concrete.lookup x with
  | none => simp
  | some p =>
    obtain rfl : subjectId p = x := hkey x p hl
    rw [Option.bind_some, presence_unionConcreteWithConcrete hc,
      presence_intersectConcreteWithConcrete hc, presence_intersectConcreteWithWildcard hc p _ hOw]

theorem presence_second_loop (O : BaseSubjectSet T) (w : T) (hw : WildcardSubject w)
    (hkey : Keyed O.concrete) (m : SubjectMap T) (x : String) :
    presence ((O.concrete.entries.foldl (fun m e => intersectStepWithExisting w constructor m e.2)
        m).lookup x) =
      presence (m.lookup x) ⊔ presence (O.concrete.lookup x) ⊓ wildcardPresence (some w) x := by
  rw [lookup_second_loop O w hkey m x]
  cases hl : O.concrete.lookup x with
  | none => simp
  | some q =>
    dsimp only
    rw [presence_unionConcreteWithConcrete hc,
      presence_intersectConcreteWithWildcard hc q _ (by rintro _ ⟨⟩; exact hw), hkey x q hl]

/-- The wildcard of two intersected wildcards: both conditions, and either's exclusions. -/
theorem wildcardView_intersectWildcardWithWildcard {w₁ w₂ : T} (h₁ : WildcardSubject w₁)
    (h₂ : WildcardSubject w₂) {I : Option T}
    (hI : intersectWildcardWithWildcard (some w₁) (some w₂) constructor = .ok I) :
    I.map wildcardView = some ((wildcardView w₁).1 ⊓ (wildcardView w₂).1,
      (wildcardView w₁).2 ⊔ (wildcardView w₂).2) := by
  obtain ⟨S₁, S₂, hrun₁, hrun₂, hwf₂, -, hnone₂⟩ := addExclusions_wildcards hc h₁ h₂
  simp only [intersectWildcardWithWildcard, hrun₁, hrun₂, Except.ok_bind, Except.pure_eq_ok,
    Except.ok.injEq] at hI
  subst hI
  have hwf₁ := WellFormed.addExclusions hc _ (wellFormed_newBaseSubjectSet constructor) rfl
    h₁.concrete_exclusions hrun₁
  have hS₁ : S₁.constructor = constructor := constructor_addExclusions _ hrun₁
  simp only [Option.map_some, wildcardView, presence_construct hc, meaning_caveatAnd,
    WithBot.coe_inf, exclusionOf_construct hc,
    find?_asSlice_of_wildcard_none hwf₂.concrete_key hnone₂, Option.some.injEq, Prod.mk.injEq]
  refine ⟨rfl, funext fun x => ?_⟩
  rw [presence_lookup_addExclusions hc _ hS₁ hwf₁.concrete_key h₂.distinct_exclusions hrun₂,
    presence_lookup_addExclusions_new hc h₁ hrun₁]
  rfl

/-- `IntersectionDifference` of two well-formed sets has the view of the intersection. -/
theorem view_intersectionDifference {S O S' : BaseSubjectSet T} (hS : WellFormed S)
    (hO : WellFormed O) (hSc : S.constructor = constructor) (h : S.intersectionDifference O = .ok S') :
    S'.view = S.view.inter O.view := by
  unfold BaseSubjectSet.intersectionDifference at h
  obtain ⟨I, hI, hS'⟩ := Except.bind_eq_ok.mp h
  simp only [Except.pure_eq_ok, Except.ok.injEq] at hS'
  subst hS'
  rw [hSc] at hI ⊢
  ext1
  · -- the concretes: the first loop, and the second when this set has a wildcard
    funext x
    have h₁ := presence_first_loop hc S O hS.concrete_key hO.wildcard_subject x
    rw [view_concrete, WildcardSet.concrete_inter, view_concrete, view_concrete, view_wildcardAt,
      view_wildcardAt]
    cases hw : S.wildcard with
    | none => simp [h₁, wildcardPresence, crossInf]
    | some w =>
      rw [presence_second_loop hc O w (hS.wildcard_subject w hw) hO.concrete_key, h₁]
      rfl
  · rw [view_wildcard, WildcardSet.wildcard_inter, view_wildcard, view_wildcard]
    cases hw₁ : S.wildcard with
    | none =>
      rw [hw₁] at hI
      cases hI
      rfl
    | some w₁ =>
      cases hw₂ : O.wildcard with
      | none =>
        rw [hw₁, hw₂] at hI
        cases hI
        rfl
      | some w₂ =>
        rw [hw₁, hw₂] at hI
        exact wildcardView_intersectWildcardWithWildcard hc (hS.wildcard_subject w₁ hw₁)
          (hO.wildcard_subject w₂ hw₂) hI

end Lawful

end SpiceDB.Datasets
