import Mathlib.Data.Rat.Defs

namespace SpiceDB

/-- A `structpb.Value`: one of the six JSON kinds. -/
inductive Value where
  | nullValue
  | numberValue (n : ℚ)
  | stringValue (s : String)
  | boolValue (b : Bool)
  | structValue (fields : List (String × Value))
  | listValue (values : List Value)

/-- A `structpb.Struct`: named fields. -/
structure Struct where
  fields : List (String × Value)

namespace Value

mutual
/-- Structural equality of values, as the generated `EqualVT` compares them. -/
def equal : Value → Value → Bool
  | .nullValue, .nullValue => true
  | .numberValue n, .numberValue m => n == m
  | .stringValue s, .stringValue t => s == t
  | .boolValue b, .boolValue c => b == c
  | .structValue fs, .structValue gs => equalFields fs gs
  | .listValue vs, .listValue ws => equalValues vs ws
  | _, _ => false

/-- Pointwise equality of two field lists. -/
def equalFields : List (String × Value) → List (String × Value) → Bool
  | [], [] => true
  | (k, v) :: fs, (l, w) :: gs => k == l && equal v w && equalFields fs gs
  | _, _ => false

/-- Pointwise equality of two value lists. -/
def equalValues : List Value → List Value → Bool
  | [], [] => true
  | v :: vs, w :: ws => equal v w && equalValues vs ws
  | _, _ => false
end

mutual
theorem eq_of_equal : ∀ {v w : Value}, equal v w = true → v = w
  | .nullValue, .nullValue, _ => rfl
  | .numberValue n, .numberValue m, h => by simpa [equal] using h
  | .stringValue s, .stringValue t, h => by simpa [equal] using h
  | .boolValue b, .boolValue c, h => by simpa [equal] using h
  | .structValue fs, .structValue gs, h => by
    have hf : equalFields fs gs = true := by simpa [equal] using h
    rw [eq_of_equalFields hf]
  | .listValue vs, .listValue ws, h => by
    have hv : equalValues vs ws = true := by simpa [equal] using h
    rw [eq_of_equalValues hv]
  | .nullValue, .numberValue _, h | .nullValue, .stringValue _, h
  | .nullValue, .boolValue _, h | .nullValue, .structValue _, h
  | .nullValue, .listValue _, h | .numberValue _, .nullValue, h
  | .numberValue _, .stringValue _, h | .numberValue _, .boolValue _, h
  | .numberValue _, .structValue _, h | .numberValue _, .listValue _, h
  | .stringValue _, .nullValue, h | .stringValue _, .numberValue _, h
  | .stringValue _, .boolValue _, h | .stringValue _, .structValue _, h
  | .stringValue _, .listValue _, h | .boolValue _, .nullValue, h
  | .boolValue _, .numberValue _, h | .boolValue _, .stringValue _, h
  | .boolValue _, .structValue _, h | .boolValue _, .listValue _, h
  | .structValue _, .nullValue, h | .structValue _, .numberValue _, h
  | .structValue _, .stringValue _, h | .structValue _, .boolValue _, h
  | .structValue _, .listValue _, h | .listValue _, .nullValue, h
  | .listValue _, .numberValue _, h | .listValue _, .stringValue _, h
  | .listValue _, .boolValue _, h | .listValue _, .structValue _, h => by
    simp [equal] at h

theorem eq_of_equalFields : ∀ {fs gs : List (String × Value)}, equalFields fs gs = true → fs = gs
  | [], [], _ => rfl
  | (k, v) :: fs, (l, w) :: gs, h => by
    simp only [equalFields, Bool.and_eq_true, beq_iff_eq] at h
    obtain ⟨⟨hk, hv⟩, hs⟩ := h
    rw [hk, eq_of_equal hv, eq_of_equalFields hs]
  | [], _ :: _, h | _ :: _, [], h => by simp [equalFields] at h

theorem eq_of_equalValues : ∀ {vs ws : List Value}, equalValues vs ws = true → vs = ws
  | [], [], _ => rfl
  | v :: vs, w :: ws, h => by
    simp only [equalValues, Bool.and_eq_true] at h
    rw [eq_of_equal h.1, eq_of_equalValues h.2]
  | [], _ :: _, h | _ :: _, [], h => by simp [equalValues] at h
end

mutual
theorem equal_refl : ∀ v : Value, equal v v = true
  | .nullValue => rfl
  | .numberValue n => by simp [equal]
  | .stringValue s => by simp [equal]
  | .boolValue b => by simp [equal]
  | .structValue fs => by simpa [equal] using equalFields_refl fs
  | .listValue vs => by simpa [equal] using equalValues_refl vs

theorem equalFields_refl : ∀ fs : List (String × Value), equalFields fs fs = true
  | [] => rfl
  | (k, v) :: fs => by simp [equalFields, equal_refl v, equalFields_refl fs]

theorem equalValues_refl : ∀ vs : List Value, equalValues vs vs = true
  | [] => rfl
  | v :: vs => by simp [equalValues, equal_refl v, equalValues_refl vs]
end

instance : DecidableEq Value := fun v w =>
  decidable_of_iff (equal v w = true) ⟨eq_of_equal, fun h => h ▸ equal_refl v⟩

end Value

instance : DecidableEq Struct := fun a b =>
  decidable_of_iff (a.fields = b.fields) (by cases a; cases b; simp)

end SpiceDB
