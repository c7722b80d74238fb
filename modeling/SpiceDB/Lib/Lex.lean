import Mathlib

namespace Lex

variable {α : Type*} [LinearOrder α]

/-- The row of first components is greater than the row of second components. -/
def rowGt : List (α × α) → Bool
  | [] => false
  | p :: rest => decide (p.2 < p.1) || (decide (p.1 = p.2) && rowGt rest)

/-- The disjunction that expands `rowGt`, each disjunct carrying the columns before it,
which start with `previous`. -/
def prefixExpanded : List (α × α) → List (α × α) → Bool
  | _, [] => false
  | previous, p :: rest =>
    ((previous.all fun q => decide (q.1 = q.2)) && decide (p.2 < p.1)) ||
      prefixExpanded (previous ++ [p]) rest

@[simp] theorem rowGt_nil : rowGt ([] : List (α × α)) = false := rfl

@[simp] theorem rowGt_cons (p : α × α) (rest : List (α × α)) :
    rowGt (p :: rest) = (decide (p.2 < p.1) || (decide (p.1 = p.2) && rowGt rest)) := rfl

theorem prefixExpanded_eq (rows : List (α × α)) :
    ∀ previous : List (α × α), prefixExpanded previous rows =
      ((previous.all fun q => decide (q.1 = q.2)) && rowGt rows) := by
  induction rows with
  | nil => intro previous; simp [prefixExpanded]
  | cons p rest ih =>
    intro previous
    rw [prefixExpanded, ih, List.all_append, List.all_cons, List.all_nil, Bool.and_true, rowGt_cons]
    cases previous.all fun q => decide (q.1 = q.2) <;> simp

theorem prefixExpanded_nil (rows : List (α × α)) : prefixExpanded [] rows = rowGt rows := by
  simp [prefixExpanded_eq]

theorem rowGt_map_filter {β : Type*} (f : β → α × α) (keep : β → Bool) :
    ∀ columns : List β, (∀ c ∈ columns, keep c = false → (f c).1 = (f c).2) →
      rowGt ((columns.filter keep).map f) = rowGt (columns.map f)
  | [], _ => rfl
  | c :: rest, hdrop => by
    have ih := rowGt_map_filter f keep rest fun d hd => hdrop d (List.mem_cons_of_mem c hd)
    cases hk : keep c with
    | true => rw [List.filter_cons_of_pos hk, List.map_cons, List.map_cons, rowGt_cons, rowGt_cons, ih]
    | false =>
      have heq : (f c).1 = (f c).2 := hdrop c List.mem_cons_self hk
      rw [List.filter_cons_of_neg (by simp [hk]), ih, List.map_cons, rowGt_cons, heq]
      simp

end Lex
