import SpiceDB.Datasets.Subtract

namespace SpiceDB.Datasets

open Caveats

variable {T : Type} [Subject T]

theorem union_wildcard_identity :
    ∀ c w e : Bool, (c || (w && !(e && !c))) = (c || (w && !e)) := by
  decide

theorem add_of_not_wildcard (S : BaseSubjectSet T) (t : T) (ht : subjectId t ≠ publicWildcard) :
    S.add t = .ok (S.addConcrete t) := by
  simp [BaseSubjectSet.add, ht]

section Lawful

variable {constructor : Constructor T} (hc : LawfulConstructor constructor) (v : Valuation)
include hc

theorem foldl_unionWildcardWithConcrete (l : List (Σ _ : String, T)) :
    ∀ w : T, ∃ w', l.foldl (fun w e => unionWildcardWithConcrete w e.2 constructor) (some w) =
      some w' ∧ holds v w' = holds v w ∧ ∀ x, excludedBy v w' x =
        (excludedBy v w x && !(l.any fun e => decide (subjectId e.2 = x) && holds v e.2)) := by
  induction l with
  | nil => exact fun w => ⟨w, rfl, rfl, fun x => by simp⟩
  | cons e l ih =>
    intro w
    obtain ⟨w₁, h₁, hh₁, hex₁⟩ := unionWildcardWithConcrete_some hc v w e.2
    obtain ⟨w', h', hh', hex'⟩ := ih w₁
    refine ⟨w', by rw [List.foldl_cons, h₁, h'], hh'.trans hh₁, fun x => ?_⟩
    rw [hex', hex₁, List.any_cons, Bool.not_or, Bool.and_assoc]

theorem member_add_concrete (S S' : BaseSubjectSet T) (hS : S.constructor = constructor)
    (hkey : Keyed S.concrete) (t : T) (ht : ConcreteSubject t) (h : S.add t = .ok S')
    (x : String) : member S' v x = (member S v x || subjectMember v t x) := by
  rw [add_of_not_wildcard S t ht.not_wildcard, Except.ok.injEq] at h
  subst h
  rw [member_addConcrete hc v S hS hkey t x, subjectMember, if_neg ht.not_wildcard]

/-- Adding a wildcard to a set without one is a union. -/
theorem member_add_wildcard_of_none (S S' : BaseSubjectSet T) (hS : S.constructor = constructor)
    (hkey : Keyed S.concrete) (hnone : S.wildcard = none) (w : T) (hw : subjectId w = publicWildcard)
    (h : S.add w = .ok S') (x : String) :
    member S' v x = (member S v x || subjectMember v w x) := by
  obtain ⟨w', hfold, hh, hex⟩ := foldl_unionWildcardWithConcrete hc v S.concrete.entries w
  -- the wildcard branch: with no wildcard to merge with, `w` is joined with every concrete
  have hS' : S' = { S with wildcard := some w' } := by
    rw [← hS] at hfold
    simp only [BaseSubjectSet.add, hw, if_pos, hnone, unionWildcardWithWildcard, Except.pure_eq_ok,
      Except.ok_bind, hfold, Except.ok.injEq] at h
    exact h.symm
  have hc' : ((S.concrete.entries.map Sigma.snd).any fun p => decide (subjectId p = x) && holds v p) =
      (S.concrete.lookup x).any (holds v) :=
    AList.any_values_eq_lookup subjectId S.concrete hkey x (holds v)
  rw [List.any_map] at hc'
  rw [hS', member, member, hnone, subjectMember, if_pos hw, Option.any_some, Option.any_none,
    Bool.or_false, wildcardMember, wildcardMember, hh, hex]
  simp only [Function.comp_def] at hc'
  rw [hc']
  exact union_wildcard_identity _ _ _

end Lawful

/-- Adding a wildcard under caveat `k` to an uncaveated wildcard that excludes `x` drops the
exclusion: with `k` false, `x` is a member of the result though it is in neither set. -/
theorem add_wildcard_drops_exclusion :
    (⟨subjectSetConstructor, ∅, some ⟨publicWildcard, none, [⟨"x", none, []⟩]⟩⟩ : SubjectSet).add
        ⟨publicWildcard, some (.caveat ⟨"k", ⟨[]⟩⟩), []⟩ =
      .ok ⟨subjectSetConstructor, ∅, some ⟨publicWildcard, none, []⟩⟩ ∧
    member (⟨subjectSetConstructor, ∅, some ⟨publicWildcard, none, []⟩⟩ : SubjectSet)
        (fun _ => false) "x" ≠
      (member (⟨subjectSetConstructor, ∅, some ⟨publicWildcard, none, [⟨"x", none, []⟩]⟩⟩ :
          SubjectSet) (fun _ => false) "x" ||
        subjectMember (fun _ => false)
          (⟨publicWildcard, some (.caveat ⟨"k", ⟨[]⟩⟩), []⟩ : FoundSubject) "x") :=
  ⟨rfl, by decide⟩

end SpiceDB.Datasets
