import SpiceDB.Lib.Condition

/-- A set of keys under conditions: concrete members and an optional wildcard with
exclusions. -/
@[ext]
structure WildcardSet (κ α : Type*) where
  concrete : κ → WithBot (WithTop α)
  wildcard : Option (WithBot (WithTop α) × (κ → WithBot (WithTop α)))

namespace WildcardSet

open Condition

variable {κ α : Type*} [BooleanAlgebra α]

/-- The condition under which `k` is in the wildcard: the wildcard's, and not `k`'s
exclusion. -/
def wildcardAt (S : WildcardSet κ α) (k : κ) : WithBot (WithTop α) :=
  match S.wildcard with
  | none => ⊥
  | some p => p.1 ⊓ neg (p.2 k)

/-- Two wildcards joined: either condition, and the exclusions both make. -/
def joinWildcards (p q : WithBot (WithTop α) × (κ → WithBot (WithTop α))) :
    WithBot (WithTop α) × (κ → WithBot (WithTop α)) :=
  (p.1 ⊔ q.1, p.2 ⊓ q.2)

/-- A wildcard whose exclusion of each key is lifted where `c` makes the key a member. -/
def lift (c : κ → WithBot (WithTop α)) (p : WithBot (WithTop α) × (κ → WithBot (WithTop α))) :
    WithBot (WithTop α) × (κ → WithBot (WithTop α)) :=
  (p.1, fun k => p.2 k ⊓ neg (c k))

/-- The union. -/
def union (S T : WildcardSet κ α) : WildcardSet κ α where
  concrete := S.concrete ⊔ T.concrete
  wildcard := (Option.merge joinWildcards S.wildcard T.wildcard).map (lift (S.concrete ⊔ T.concrete))

/-- The intersection. -/
def inter (S T : WildcardSet κ α) : WildcardSet κ α where
  concrete k := crossInf (S.concrete k) (T.concrete k) (S.wildcardAt k) (T.wildcardAt k)
  wildcard := Option.map₂ (fun p q => (p.1 ⊓ q.1, p.2 ⊔ q.2)) S.wildcard T.wildcard

/-- The exclusions already leave out every concrete member. -/
def Lifted (S : WildcardSet κ α) : Prop := ∀ p ∈ S.wildcard, lift S.concrete p = p

/-- The wildcard, if any, excludes no key. -/
def WithoutExclusions (S : WildcardSet κ α) : Prop := ∀ p ∈ S.wildcard, p.2 = ⊥

@[simp] theorem concrete_union (S T : WildcardSet κ α) :
    (S.union T).concrete = S.concrete ⊔ T.concrete := rfl

@[simp] theorem wildcard_union (S T : WildcardSet κ α) :
    (S.union T).wildcard =
      (Option.merge joinWildcards S.wildcard T.wildcard).map (lift (S.concrete ⊔ T.concrete)) := rfl

@[simp] theorem concrete_inter (S T : WildcardSet κ α) (k : κ) :
    (S.inter T).concrete k =
      crossInf (S.concrete k) (T.concrete k) (S.wildcardAt k) (T.wildcardAt k) := rfl

@[simp] theorem wildcard_inter (S T : WildcardSet κ α) :
    (S.inter T).wildcard = Option.map₂ (fun p q => (p.1 ⊓ q.1, p.2 ⊔ q.2)) S.wildcard T.wildcard :=
  rfl

theorem lift_lift (c c' : κ → WithBot (WithTop α)) (p : WithBot (WithTop α) × (κ → WithBot (WithTop α))) :
    lift c (lift c' p) = lift (c' ⊔ c) p := by
  simp only [lift, Pi.sup_apply, Condition.neg_sup, inf_assoc]

theorem joinWildcards_lift_left (c : κ → WithBot (WithTop α))
    (p q : WithBot (WithTop α) × (κ → WithBot (WithTop α))) :
    joinWildcards (lift c p) q = lift c (joinWildcards p q) := by
  simp only [joinWildcards, lift, Prod.mk.injEq, true_and]
  funext k
  simp only [Pi.inf_apply, inf_right_comm]

theorem joinWildcards_lift_right (c : κ → WithBot (WithTop α))
    (p q : WithBot (WithTop α) × (κ → WithBot (WithTop α))) :
    joinWildcards p (lift c q) = lift c (joinWildcards p q) := by
  simp only [joinWildcards, lift, Prod.mk.injEq, true_and]
  funext k
  simp only [Pi.inf_apply, inf_assoc]

theorem joinWildcards_comm (p q : WithBot (WithTop α) × (κ → WithBot (WithTop α))) :
    joinWildcards p q = joinWildcards q p := by
  simp only [joinWildcards, sup_comm, inf_comm]

theorem joinWildcards_assoc (p q r : WithBot (WithTop α) × (κ → WithBot (WithTop α))) :
    joinWildcards (joinWildcards p q) r = joinWildcards p (joinWildcards q r) := by
  simp only [joinWildcards, sup_assoc, inf_assoc]

theorem lift_lift_of_le {c d : κ → WithBot (WithTop α)} (h : d ≤ c)
    (p : WithBot (WithTop α) × (κ → WithBot (WithTop α))) : lift c (lift d p) = lift c p := by
  rw [lift_lift, sup_of_le_right h]

@[simp] theorem lift_bot (p : WithBot (WithTop α) × (κ → WithBot (WithTop α))) : lift ⊥ p = p := by
  simp [lift]

theorem union_bot {S : WildcardSet κ α} (hS : S.Lifted) : S.union ⟨⊥, none⟩ = S := by
  ext1
  · exact sup_bot_eq _
  · simp only [union, sup_bot_eq]
    cases hw : S.wildcard with
    | none => rfl
    | some p => exact congrArg some (hS p hw)

theorem union_wildcard (c : κ → WithBot (WithTop α))
    (p : WithBot (WithTop α) × (κ → WithBot (WithTop α))) :
    (⟨c, none⟩ : WildcardSet κ α).union ⟨⊥, some p⟩ = ⟨c, some (lift c p)⟩ := by
  simp [union]

theorem union_comm (S T : WildcardSet κ α) : S.union T = T.union S := by
  ext1
  · exact sup_comm _ _
  · simp only [union, sup_comm S.concrete]
    cases S.wildcard <;> cases T.wildcard <;> simp [joinWildcards_comm]

theorem union_assoc (S T U : WildcardSet κ α) : (S.union T).union U = S.union (T.union U) := by
  ext1
  · exact sup_assoc _ _ _
  · -- every case is one lift, by everything, of the wildcards joined in order
    simp only [union, sup_assoc]
    have h₁ : S.concrete ⊔ T.concrete ≤ S.concrete ⊔ (T.concrete ⊔ U.concrete) :=
      sup_le_sup_left le_sup_left _
    have h₂ : T.concrete ⊔ U.concrete ≤ S.concrete ⊔ (T.concrete ⊔ U.concrete) := le_sup_right
    cases S.wildcard <;> cases T.wildcard <;> cases U.wildcard <;>
      simp [joinWildcards_lift_left, joinWildcards_lift_right, joinWildcards_assoc,
        lift_lift_of_le h₁, lift_lift_of_le h₂]

theorem lifted_union (S T : WildcardSet κ α) : (S.union T).Lifted := by
  intro p hp
  obtain ⟨q, -, rfl⟩ := Option.mem_map.mp hp
  exact lift_lift_of_le le_rfl q

theorem WithoutExclusions.lifted {S : WildcardSet κ α} (h : S.WithoutExclusions) : S.Lifted := by
  intro p hp
  obtain ⟨a, e⟩ := p
  obtain rfl : e = ⊥ := h _ hp
  simp only [lift, Pi.bot_apply, bot_inf_eq]
  rfl

theorem WithoutExclusions.union {S T : WildcardSet κ α} (hS : S.WithoutExclusions)
    (hT : T.WithoutExclusions) : (S.union T).WithoutExclusions := by
  intro p hp
  obtain ⟨q, hq, rfl⟩ := Option.mem_map.mp hp
  -- the merged wildcard excludes what both exclude, and lifting only meets that
  have hq' : q.2 = ⊥ := by
    cases hSw : S.wildcard <;> cases hTw : T.wildcard <;>
      simp only [hSw, hTw, Option.merge, Option.mem_def, reduceCtorEq, Option.some.injEq] at hq
    · subst hq
      exact hT _ hTw
    · subst hq
      exact hS _ hSw
    · subst hq
      simp [joinWildcards, hS _ hSw, hT _ hTw]
  funext k
  simp [lift, hq']

theorem union_self {S : WildcardSet κ α} (hS : S.Lifted) : S.union S = S := by
  ext1
  · exact sup_idem _
  · simp only [union, sup_idem]
    cases hw : S.wildcard with
    | none => rfl
    | some p =>
      have hp := hS p hw
      simp only [Option.merge, joinWildcards, sup_idem, inf_idem, Option.map_some]
      exact congrArg some hp

theorem wildcardAt_inter (S T : WildcardSet κ α) (k : κ) :
    (S.inter T).wildcardAt k = S.wildcardAt k ⊓ T.wildcardAt k := by
  unfold wildcardAt inter
  cases S.wildcard <;> cases T.wildcard <;> simp [Condition.neg_sup, inf_assoc, inf_left_comm]

theorem WithoutExclusions.inter {S T : WildcardSet κ α} (hS : S.WithoutExclusions)
    (hT : T.WithoutExclusions) : (S.inter T).WithoutExclusions := by
  intro p hp
  cases hSw : S.wildcard <;> cases hTw : T.wildcard <;>
    simp only [wildcard_inter, hSw, hTw, Option.map₂_none_left, Option.map₂_none_right,
      Option.map₂_some_some, Option.mem_def, reduceCtorEq, Option.some.injEq] at hp
  subst hp
  simp [hS _ hSw, hT _ hTw]

theorem inter_comm (S T : WildcardSet κ α) : S.inter T = T.inter S := by
  ext1
  · funext k
    exact crossInf_comm _ _ _ _
  · simp only [inter]
    cases S.wildcard <;> cases T.wildcard <;> simp [inf_comm, sup_comm]

theorem inter_assoc (S T U : WildcardSet κ α) : (S.inter T).inter U = S.inter (T.inter U) := by
  ext1
  · funext k
    simp only [concrete_inter, wildcardAt_inter]
    exact (crossInf_assoc _ _ _ _ _ _).symm
  · simp only [inter]
    cases S.wildcard <;> cases T.wildcard <;> cases U.wildcard <;> simp [inf_assoc, sup_assoc]

theorem inter_self (S : WildcardSet κ α) : S.inter S = S := by
  ext1
  · funext k
    exact crossInf_self _ _
  · simp only [inter]
    cases S.wildcard <;> simp

section Membership

variable {V : Type*}

/-- `k` is a member at `v`. -/
noncomputable def memAt (S : WildcardSet κ (V → Bool)) (v : V) (k : κ) : Bool :=
  evalAt v (S.concrete k ⊔ S.wildcardAt k)

theorem wildcardAt_le_union_left (S T : WildcardSet κ α) (k : κ) :
    S.wildcardAt k ≤ (S.union T).wildcardAt k := by
  unfold wildcardAt
  cases hS : S.wildcard with
  | none => exact bot_le
  | some p =>
    cases hT : T.wildcard with
    | none =>
      simp only [union, hS, hT, Option.merge, Option.map_some, lift]
      exact inf_le_inf_left _ (neg_anti inf_le_left)
    | some q =>
      simp only [union, hS, hT, Option.merge, Option.map_some, lift, joinWildcards, Pi.inf_apply]
      exact inf_le_inf le_sup_left (neg_anti (inf_le_left.trans inf_le_left))

theorem memAt_union_of_memAt_left {S : WildcardSet κ (V → Bool)} {v : V} {k : κ}
    (h : S.memAt v k = true) (T : WildcardSet κ (V → Bool)) : (S.union T).memAt v k = true :=
  evalAt_of_le v (sup_le_sup le_sup_left (wildcardAt_le_union_left S T k)) h

theorem memAt_union_of_memAt (S T : WildcardSet κ (V → Bool)) (v : V) (k : κ)
    (h : (S.memAt v k || T.memAt v k) = true) : (S.union T).memAt v k = true := by
  rcases Bool.or_eq_true_iff.mp h with hS | hT
  · exact memAt_union_of_memAt_left hS T
  · rw [union_comm]
    exact memAt_union_of_memAt_left hT S

theorem union_exact_identity : ∀ c d a b e f : Bool, (a = b ∨ e = f) →
    (c || d || (a || b) && !(e && f && !(c || d))) = (c || a && !e || (d || b && !f)) := by
  decide

/-- Where the two wildcards' conditions agree at `v`, or they exclude `k` alike, the union's
members are those of either side. -/
theorem memAt_union (S T : WildcardSet κ (V → Bool)) (v : V) (k : κ)
    (h : ∀ p ∈ S.wildcard, ∀ q ∈ T.wildcard,
      evalAt v p.1 = evalAt v q.1 ∨ evalAt v (p.2 k) = evalAt v (q.2 k)) :
    (S.union T).memAt v k = (S.memAt v k || T.memAt v k) := by
  unfold memAt wildcardAt
  cases hS : S.wildcard with
  | none =>
    cases hT : T.wildcard with
    | none => simp [union, hS, hT]
    | some q =>
      simp only [union, hS, hT, Option.merge, Option.map_some, lift, Pi.sup_apply, evalAt_sup,
        evalAt_inf, evalAt_neg, evalAt_bot]
      cases evalAt v (S.concrete k) <;> cases evalAt v (T.concrete k) <;> simp
  | some p =>
    cases hT : T.wildcard with
    | none =>
      simp only [union, hS, hT, Option.merge, Option.map_some, lift, Pi.sup_apply, evalAt_sup,
        evalAt_inf, evalAt_neg, evalAt_bot]
      cases evalAt v (S.concrete k) <;> cases evalAt v (T.concrete k) <;> simp
    | some q =>
      -- both wildcards: the exclusions were met, which is exact once their conditions or their
      -- exclusions of `k` agree
      simp only [union, hS, hT, Option.merge, Option.map_some, lift, joinWildcards, Pi.sup_apply,
        Pi.inf_apply, evalAt_sup, evalAt_inf, evalAt_neg]
      exact union_exact_identity _ _ _ _ _ _ (h p hS q hT)

theorem memAt_inter (S T : WildcardSet κ (V → Bool)) (v : V) (k : κ) :
    (S.inter T).memAt v k = (S.memAt v k && T.memAt v k) := by
  rw [memAt, concrete_inter, wildcardAt_inter, crossInf_sup_inf, evalAt_inf]
  rfl

end Membership

end WildcardSet
