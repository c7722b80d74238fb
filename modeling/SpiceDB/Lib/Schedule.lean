import Mathlib.Algebra.Order.BigOperators.Group.Finset

namespace Schedule

variable {σ ε : Type _}

/-- The run of the schedule `es` from `s`. -/
def run (step : σ → ε → Option σ) (s : σ) (es : List ε) : Option σ := es.foldlM step s

variable {step : σ → ε → Option σ}

@[simp] theorem run_nil (s : σ) : run step s [] = some s := rfl

@[simp] theorem run_cons (s : σ) (e : ε) (es : List ε) :
    run step s (e :: es) = (step s e).bind fun s' => run step s' es := rfl

theorem run_append (s : σ) (es es' : List ε) :
    run step s (es ++ es') = (run step s es).bind fun s' => run step s' es' := by
  simp only [run, List.foldlM_append]
  rfl

theorem run_invariant (P : σ → Prop) (hstep : ∀ s e s', P s → step s e = some s' → P s') :
    ∀ (es : List ε) (s s' : σ), P s → run step s es = some s' → P s'
  | [], s, s', hs, h => by
    cases h
    exact hs
  | e :: es, s, s', hs, h => by
    rw [run_cons, Option.bind_eq_some_iff] at h
    obtain ⟨s₁, h₁, hrest⟩ := h
    exact run_invariant P hstep es s₁ s' (hstep s e s₁ hs h₁) hrest

theorem exists_run_finished (μ : σ → ℕ) (Finished : σ → Prop)
    (hprogress : ∀ s, ¬Finished s → ∃ e s', step s e = some s' ∧ μ s' < μ s) (s : σ) :
    ∃ es s', run step s es = some s' ∧ Finished s' := by
  induction hμ : μ s using Nat.strong_induction_on generalizing s with
  | _ m ih =>
    by_cases hs : Finished s
    · exact ⟨[], s, rfl, hs⟩
    · obtain ⟨e, s₁, h₁, hlt⟩ := hprogress s hs
      obtain ⟨es, s', hrun, hfin⟩ := ih (μ s₁) (hμ ▸ hlt) s₁ rfl
      exact ⟨e :: es, s', by rw [run_cons, h₁, Option.bind_some, hrun], hfin⟩

theorem sum_rank_lt {rank rank' : ℕ → ℕ} {n i : ℕ} (hi : i < n) (hlt : rank' i < rank i)
    (hle : ∀ j, rank' j ≤ rank j) :
    ∑ j ∈ Finset.range n, rank' j < ∑ j ∈ Finset.range n, rank j :=
  Finset.sum_lt_sum (fun j _ => hle j) ⟨i, Finset.mem_range.2 hi, hlt⟩

end Schedule
