import SpiceDB.Datasets.Intersection

namespace SpiceDB.Datasets

open Caveats

variable {T : Type} [Subject T]

/-- A loop of `setConcrete` calls leaves the wildcard alone. -/
@[simp] theorem foldl_setConcrete_wildcard {γ : Type} (k : γ → String) (g : γ → Option T) :
    ∀ (l : List γ) (S : BaseSubjectSet T),
      (l.foldl (fun b e => b.setConcrete (k e) (g e)) S).wildcard = S.wildcard
  | [], _ => rfl
  | e :: l, S => by
    rw [List.foldl_cons, foldl_setConcrete_wildcard k g l, BaseSubjectSet.setConcrete_wildcard]

/-- A loop of `setConcrete` calls over a map's own entries, each storing a subject of the
visited id or nothing, sets each visited id to what its step computed. -/
theorem lookup_foldl_setConcrete (g : T → Option T)
    (hg : ∀ p u, g p = some u → subjectId u = subjectId p) :
    ∀ (l : List (Σ _ : String, T)), l.NodupKeys → (∀ e ∈ l, subjectId e.2 = e.1) →
      ∀ (S : BaseSubjectSet T) (x : String),
        (l.foldl (fun b e => b.setConcrete (subjectId e.2) (g e.2)) S).concrete.lookup x =
          match l.dlookup x with
          | some p => g p
          | none => S.concrete.lookup x
  | [], _, _, S, x => by simp [List.dlookup_nil]
  | ⟨k, p⟩ :: l, hnd, hkey, S, x => by
    obtain ⟨hfresh, hnd'⟩ := List.nodupKeys_cons.mp hnd
    have hp : subjectId p = k := hkey ⟨k, p⟩ List.mem_cons_self
    rw [List.foldl_cons, lookup_foldl_setConcrete g hg l hnd'
      (fun e he => hkey e (List.mem_cons_of_mem _ he))]
    -- the step sets `k` and nothing else; later steps never visit `k` again
    have hstep := lookup_setConcrete S (subjectId p) (g p) (fun u hu => hg p u hu) x
    by_cases hx : x = k
    · subst hx
      have hl : l.dlookup x = none := List.dlookup_eq_none.mpr hfresh
      rw [hl, List.dlookup_cons_eq, hstep, hp, if_pos rfl]
    · rw [List.dlookup_cons_ne l ⟨k, p⟩ hx, hstep, hp, if_neg hx]

theorem subtract_concrete_identity :
    ∀ c w e t : Bool, ((c && !t) || (w && !(e || t))) = ((c || (w && !e)) && !t) := by
  decide

@[simp] theorem BaseSubjectSet.subtractConcrete_wildcard (S : BaseSubjectSet T) (t : T) :
    (S.subtractConcrete t).wildcard =
      S.wildcard.map (subtractConcreteFromWildcard · t S.constructor) := by
  cases hl : S.concrete.lookup (subjectId t) <;> cases hw : S.wildcard <;>
    simp [BaseSubjectSet.subtractConcrete, hl, hw]

theorem BaseSubjectSet.subtractConcrete_concrete (S : BaseSubjectSet T) (t : T) :
    (S.subtractConcrete t).concrete =
      match S.concrete.lookup (subjectId t) with
      | some existing => (S.setConcrete (subjectId t)
          (subtractConcreteFromConcrete existing t S.constructor)).concrete
      | none => S.concrete := by
  cases hl : S.concrete.lookup (subjectId t) <;> cases hw : S.wildcard <;>
    simp [BaseSubjectSet.subtractConcrete, hl, hw]

section Lawful

variable {constructor : Constructor T} (hc : LawfulConstructor constructor) (v : Valuation)
include hc

theorem subtractConcreteFromConcrete_any (p t : T) :
    (subtractConcreteFromConcrete p t constructor).any (holds v) = (holds v p && !holds v t) := by
  unfold subtractConcreteFromConcrete
  cases ht : caveatExpression t with
  | none => simp [holds, ht]
  | some e => simp [holds, ht, hc.caveatExpression_eq]

theorem subtractConcreteFromConcrete_subjectId {p t u : T}
    (h : subtractConcreteFromConcrete p t constructor = some u) : subjectId u = subjectId p := by
  unfold subtractConcreteFromConcrete at h
  split at h
  · cases h
  · cases h
    exact hc.subjectId_eq _ _ _ _

theorem subtractExclusionWithConcrete_any (t e : T) (x : String) :
    (decide (subjectId (subtractExclusionWithConcrete t constructor e) = x) &&
        holds v (subtractExclusionWithConcrete t constructor e)) =
      ((decide (subjectId e = x) && holds v e) ||
        (decide (subjectId e = subjectId t) && (decide (subjectId t = x) && holds v t))) := by
  unfold subtractExclusionWithConcrete
  by_cases he : subjectId e = subjectId t
  · rw [if_pos he, hc.subjectId_eq, holds_construct hc, evalCaveat_shortcircuitedOr, he]
    simp only [decide_true, Bool.true_and, holds]
    cases decide (subjectId t = x) <;> simp
  · simp [he]

/-- Subtracting a concrete from a wildcard excludes the concrete's id wherever the concrete
holds. -/
theorem subtractConcreteFromWildcard_excludedBy (w t : T) (x : String) :
    excludedBy v (subtractConcreteFromWildcard w t constructor) x =
      (excludedBy v w x || (decide (subjectId t = x) && holds v t)) := by
  -- over the rewritten exclusions, the removed id is excluded when some exclusion had it
  have hmap : ∀ l : List T, (l.map (subtractExclusionWithConcrete t constructor)).any
      (fun e => decide (subjectId e = x) && holds v e) =
      (l.any (fun e => decide (subjectId e = x) && holds v e) ||
        (l.any (fun e => decide (subjectId e = subjectId t)) &&
          (decide (subjectId t = x) && holds v t))) := by
    have key : ∀ a f k L F : Bool,
        ((a || (f && k)) || (L || (F && k))) = ((a || L) || ((f || F) && k)) := by decide
    intro l
    induction l with
    | nil => simp
    | cons e l ih =>
      rw [List.map_cons, List.any_cons, ih, subtractExclusionWithConcrete_any hc v t e x,
        List.any_cons, List.any_cons]
      exact key _ _ _ _ _
  rw [subtractConcreteFromWildcard, excludedBy_construct hc, excludedBy]
  split
  · rename_i hfound
    rw [hmap, hfound, Bool.true_and]
  · rename_i hfound
    rw [Bool.not_eq_true] at hfound
    rw [List.any_append, hmap, hfound]
    simp

theorem holds_subtractConcreteFromWildcard (w t : T) :
    holds v (subtractConcreteFromWildcard w t constructor) = holds v w :=
  holds_construct hc v _ _ _ _

/-- Subtracting a wildcard from a concrete keeps the concrete where it is not in the
wildcard. -/
theorem subtractWildcardFromConcrete_any (p w : T) (hw : WildcardSubject w) :
    (subtractWildcardFromConcrete p w constructor).any (holds v) =
      (holds v p && !wildcardMember v w (subjectId p)) := by
  have hex := exclusionsMapFor_lookup_any w hw v (subjectId p)
  unfold subtractWildcardFromConcrete
  rw [wildcardMember]
  cases hl : (exclusionsMapFor w).lookup (subjectId p) with
  | none =>
    rw [hl, Option.any_none] at hex
    rw [← hex]
    cases hcw : caveatExpression w with
    | none => simp [holds, hcw]
    | some cw => simp [holds, hcw, hc.caveatExpression_eq]
  | some e =>
    rw [hl, Option.any_some] at hex
    rw [← hex]
    cases hce : caveatExpression e with
    | none => simp [holds, hce]
    | some ce =>
      simp only [hce, Option.isNone_some, Bool.false_eq_true, if_false, Option.any_some, holds,
        hc.caveatExpression_eq, evalCaveat_caveatAnd, evalCaveat_caveatOr_caveatInvert,
        evalCaveat_some]
      cases evalCaveat v (caveatExpression w) <;> simp

theorem subtractWildcardFromConcrete_subjectId {p w u : T}
    (h : subtractWildcardFromConcrete p w constructor = some u) : subjectId u = subjectId p := by
  unfold subtractWildcardFromConcrete at h
  split at h
  · split at h
    · cases h
    · cases h
      exact hc.subjectId_eq _ _ _ _
  · split at h
    · cases h
      rfl
    · cases h
      exact hc.subjectId_eq _ _ _ _

/-- After a concrete is subtracted, a concrete entry holds where it held and the removed
subject does not. -/
theorem subtractConcrete_concrete_any (S : BaseSubjectSet T) (hS : S.constructor = constructor)
    (hkey : Keyed S.concrete) (t : T) (x : String) :
    ((S.subtractConcrete t).concrete.lookup x).any (holds v) =
      ((S.concrete.lookup x).any (holds v) && !(decide (subjectId t = x) && holds v t)) := by
  rw [BaseSubjectSet.subtractConcrete_concrete]
  cases hl : S.concrete.lookup (subjectId t) with
  | none =>
    by_cases hx : subjectId t = x
    · subst hx
      simp [hl]
    · simp [hx]
  | some p =>
    have hp : subjectId p = subjectId t := hkey _ p hl
    rw [hS, lookup_setConcrete S (subjectId t) _
      (fun u hu => (subtractConcreteFromConcrete_subjectId hc hu).trans hp)]
    by_cases hx : x = subjectId t
    · subst hx
      rw [if_pos rfl, subtractConcreteFromConcrete_any hc, hl, Option.any_some]
      simp
    · have hx' : subjectId t ≠ x := Ne.symm hx
      simp [hx, hx']

theorem member_subtract_concrete (S : BaseSubjectSet T) (hS : S.constructor = constructor)
    (hwf : WellFormed S) (t : T) (ht : ConcreteSubject t) (x : String) :
    member (S.subtract t) v x = (member S v x && !subjectMember v t x) := by
  have hsub : S.subtract t = S.subtractConcrete t := by
    simp [BaseSubjectSet.subtract, ht.not_wildcard]
  rw [hsub, member, subtractConcrete_concrete_any hc v S hS hwf.concrete_key t x,
    BaseSubjectSet.subtractConcrete_wildcard, member, subjectMember, if_neg ht.not_wildcard]
  cases hw : S.wildcard with
  | none => simp
  | some w =>
    simp only [Option.map_some, Option.any_some, wildcardMember, hS,
      holds_subtractConcreteFromWildcard hc, subtractConcreteFromWildcard_excludedBy hc]
    exact subtract_concrete_identity _ _ _ _

/-- Subtracting a wildcard from a set without one is a set difference: every concrete loses
the wildcard's members. -/
theorem member_subtract_wildcard_of_none (S : BaseSubjectSet T) (hS : S.constructor = constructor)
    (hwf : WellFormed S) (hnone : S.wildcard = none) (w : T) (hw : WildcardSubject w)
    (x : String) :
    member (S.subtract w) v x = (member S v x && !subjectMember v w x) := by
  have hsub : S.subtract w = S.subtractWildcard w := by
    simp [BaseSubjectSet.subtract, hw.is_wildcard]
  have hfold := lookup_foldl_setConcrete (subtractWildcardFromConcrete · w S.constructor)
    (fun p u hu => subtractWildcardFromConcrete_subjectId (hS ▸ hc) hu) S.concrete.entries
    S.concrete.nodupKeys (fun e he => hwf.concrete_key e.1 e.2 (AList.mem_lookup_iff.mpr he)) S x
  -- without a wildcard, `subtractWildcardFromWildcard` returns nothing and adds no concretes
  simp only [hsub, BaseSubjectSet.subtractWildcard, foldl_setConcrete_wildcard, hnone,
    subtractWildcardFromWildcard, List.foldl_nil, member, hfold, Option.any_none, Bool.or_false,
    subjectMember, hw.is_wildcard, if_pos]
  rw [show S.concrete.entries.dlookup x = S.concrete.lookup x from rfl]
  cases hl : S.concrete.lookup x with
  | none => simp
  | some p =>
    obtain rfl : subjectId p = x := hwf.concrete_key x p hl
    rw [hS, subtractWildcardFromConcrete_any hc v p w hw, Option.any_some]

end Lawful

/-- Subtracting an uncaveated wildcard that excludes `y` from a wildcard under caveat `a`
leaves that wildcard in place: with `a` true, `x` is still a member, though the difference
holds no id but `y`. -/
theorem subtract_wildcard_keeps_caveated_wildcard :
    member ((⟨subjectSetConstructor, ∅, some ⟨publicWildcard, some (.caveat ⟨"a", ⟨[]⟩⟩), []⟩⟩ :
        SubjectSet).subtract ⟨publicWildcard, none, [⟨"y", none, []⟩]⟩) (fun _ => true) "x" ≠
      (member (⟨subjectSetConstructor, ∅,
          some ⟨publicWildcard, some (.caveat ⟨"a", ⟨[]⟩⟩), []⟩⟩ : SubjectSet) (fun _ => true) "x" &&
        !subjectMember (fun _ => true) (⟨publicWildcard, none, [⟨"y", none, []⟩]⟩ : FoundSubject)
          "x") := by
  decide

end SpiceDB.Datasets
