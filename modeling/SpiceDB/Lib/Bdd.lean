import Mathlib.Data.String.Basic
import SpiceDB.Lib.TruthTable

/-- The operations of a binary decision diagram library that a client builds and prints nodes
with: the node of a variable and of its negation, conjunction and disjunction of nodes, and the
text a node is printed as. -/
structure Bdd (Node : Type) where
  ithvar : ℕ → Node
  nithvar : ℕ → Node
  and : List Node → Node
  or : List Node → Node
  print : Node → String

namespace Bdd

open TruthTable

variable {Node : Type}

/-- The laws of a reduced ordered diagram of `varnum` variables. A node means a Boolean function
of the first `varnum` variables, each operation builds the function it names, and two nodes print
alike exactly when they mean one function: the printed diagram is canonical. -/
structure Lawful (bdd : Bdd Node) (varnum : ℕ) (meaning : Node → (ℕ → Bool) → Bool) : Prop where
  meaning_ithvar : ∀ i v, meaning (bdd.ithvar i) v = restrict varnum v i
  meaning_nithvar : ∀ i v, meaning (bdd.nithvar i) v = !restrict varnum v i
  meaning_and : ∀ nodes v, meaning (bdd.and nodes) v = nodes.all fun node => meaning node v
  meaning_or : ∀ nodes v, meaning (bdd.or nodes) v = nodes.any fun node => meaning node v
  print_eq_iff : ∀ node node', bdd.print node = bdd.print node' ↔
    ∀ v, meaning node (restrict varnum v) = meaning node' (restrict varnum v)

section Lawful

variable {bdd : Bdd Node} {varnum : ℕ} {meaning : Node → (ℕ → Bool) → Bool}

theorem Lawful.meaning_and_map (hbdd : bdd.Lawful varnum meaning) (nodes : List Node) (v : ℕ → Bool) :
    meaning (bdd.and nodes) v = (nodes.map fun node => meaning node v).all id := by
  simp [hbdd.meaning_and, List.all_map]

theorem Lawful.meaning_or_map (hbdd : bdd.Lawful varnum meaning) (nodes : List Node) (v : ℕ → Bool) :
    meaning (bdd.or nodes) v = (nodes.map fun node => meaning node v).any id := by
  simp [hbdd.meaning_or, List.any_map]

end Lawful

/-- Boolean functions as their own nodes, printed as their truth tables over the first `varnum`
variables. -/
def truthTables (varnum : ℕ) : Bdd ((ℕ → Bool) → Bool) where
  ithvar i := fun v => restrict varnum v i
  nithvar i := fun v => !restrict varnum v i
  and nodes := fun v => nodes.all fun node => node v
  or nodes := fun v => nodes.any fun node => node v
  print node := String.ofList ((tabulate varnum node).map fun b => if b then '1' else '0')

theorem truthTables_lawful (varnum : ℕ) : (truthTables varnum).Lawful varnum fun node => node where
  meaning_ithvar _ _ := rfl
  meaning_nithvar _ _ := rfl
  meaning_and _ _ := rfl
  meaning_or _ _ := rfl
  print_eq_iff node node' := by
    have hdigit : Function.Injective fun b : Bool => if b then '1' else '0' := by
      intro b b' h
      cases b <;> cases b' <;> simp_all
    rw [← tabulate_eq_iff]
    constructor
    · intro h
      exact (List.map_injective_iff.2 hdigit) (String.ofList_injective h)
    · intro h
      simp only [truthTables, h]

end Bdd
