import Mathlib.Data.List.Basic

namespace TruthTable

/-- Every assignment of the first `n` variables, as a list whose `i`-th entry is variable `i`. -/
def assignments : ℕ → List (List Bool)
  | 0 => [[]]
  | n + 1 => (assignments n).flatMap fun a => [false :: a, true :: a]

/-- The valuation an assignment gives: variables past its end are false. -/
def valuation (a : List Bool) (i : ℕ) : Bool := a.getD i false

/-- The truth table of a function of the variables, over the first `n` of them. -/
def tabulate (n : ℕ) (f : (ℕ → Bool) → Bool) : List Bool :=
  (assignments n).map fun a => f (valuation a)

/-- The first `n` variables of `v`, the rest false. -/
def restrict (n : ℕ) (v : ℕ → Bool) (i : ℕ) : Bool := decide (i < n) && v i

theorem restrict_restrict (n : ℕ) (v : ℕ → Bool) : restrict n (restrict n v) = restrict n v := by
  funext i
  by_cases hi : i < n <;> simp [restrict, hi]

theorem mem_assignments {n : ℕ} {a : List Bool} : a ∈ assignments n ↔ a.length = n := by
  induction n generalizing a with
  | zero => simp [assignments, List.length_eq_zero_iff]
  | succ n ih =>
    simp only [assignments, List.mem_flatMap, List.mem_cons, List.not_mem_nil, or_false, ih]
    constructor
    · rintro ⟨b, hb, rfl | rfl⟩ <;> simp [hb]
    · intro ha
      obtain ⟨x, b, rfl⟩ := List.exists_cons_of_length_eq_add_one ha
      exact ⟨b, by simpa using ha, by cases x <;> simp⟩

theorem valuation_eq_restrict {n : ℕ} {a : List Bool} (ha : a.length = n) :
    valuation a = restrict n (valuation a) := by
  funext i
  by_cases hi : i < n
  · simp [restrict, hi]
  · simp [restrict, valuation, hi, List.getElem?_eq_none (show a.length ≤ i by omega)]

theorem exists_assignment (n : ℕ) (v : ℕ → Bool) :
    ∃ a ∈ assignments n, valuation a = restrict n v := by
  refine ⟨(List.range n).map v, mem_assignments.2 (by simp), ?_⟩
  funext i
  by_cases hi : i < n
  · simp [valuation, restrict, hi]
  · simp [valuation, restrict, hi]

theorem tabulate_eq_iff {n : ℕ} {f g : (ℕ → Bool) → Bool} :
    tabulate n f = tabulate n g ↔ ∀ v, f (restrict n v) = g (restrict n v) := by
  rw [tabulate, tabulate, List.map_inj_left]
  constructor
  · intro h v
    obtain ⟨a, ha, hv⟩ := exists_assignment n v
    rw [← hv]
    exact h a ha
  · intro h a ha
    rw [valuation_eq_restrict (mem_assignments.1 ha)]
    exact h _

end TruthTable
