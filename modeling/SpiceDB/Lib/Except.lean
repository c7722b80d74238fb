import Mathlib.Data.List.Forall2

namespace Except

variable {ε α β : Type _}

@[simp] theorem ok_bind (a : α) (f : α → Except ε β) : (Except.ok a >>= f) = f a := rfl

@[simp] theorem error_bind (e : ε) (f : α → Except ε β) :
    (Except.error e >>= f : Except ε β) = .error e := rfl

@[simp] theorem pure_eq_ok (a : α) : (pure a : Except ε α) = .ok a := rfl

@[simp] theorem throw_eq_error (e : ε) : (throw e : Except ε α) = .error e := rfl

theorem bind_eq_ok {x : Except ε α} {f : α → Except ε β} {b : β} :
    (x >>= f) = .ok b ↔ ∃ a, x = .ok a ∧ f a = .ok b := by
  cases x with
  | error e => simp
  | ok a => simp

theorem mapError_eq_ok {ε' : Type _} {x : Except ε α} {f : ε → ε'} {a : α} :
    x.mapError f = .ok a ↔ x = .ok a := by
  cases x <;> simp [Except.mapError]

theorem isOk_iff {x : Except ε α} : x.isOk = true ↔ ∃ a, x = .ok a := by
  cases x with
  | error e => simp [Except.isOk, Except.toBool]
  | ok a => simp [Except.isOk, Except.toBool]

theorem foldlM_invariant {σ : Type _} (P : σ → Prop) {f : σ → α → Except ε σ}
    (hf : ∀ s a s', P s → f s a = .ok s' → P s') :
    ∀ (xs : List α) (s s' : σ), P s → xs.foldlM f s = .ok s' → P s'
  | [], s, s', hs, h => by
    cases h
    exact hs
  | a :: rest, s, s', hs, h => by
    rw [List.foldlM_cons] at h
    obtain ⟨s₁, h₁, hrest⟩ := bind_eq_ok.1 h
    exact foldlM_invariant P hf rest s₁ s' (hf s a s₁ hs h₁) hrest

theorem foldlM_invariant_of_mem {σ : Type _} (P : σ → Prop) {f : σ → α → Except ε σ} :
    ∀ (xs : List α), (∀ s a s', a ∈ xs → P s → f s a = .ok s' → P s') →
      ∀ (s s' : σ), P s → xs.foldlM f s = .ok s' → P s'
  | [], _, s, s', hs, h => by
    cases h
    exact hs
  | a :: rest, hf, s, s', hs, h => by
    rw [List.foldlM_cons] at h
    obtain ⟨s₁, h₁, hrest⟩ := bind_eq_ok.1 h
    exact foldlM_invariant_of_mem P rest (fun t b t' hb => hf t b t' (List.mem_cons_of_mem a hb))
      s₁ s' (hf s a s₁ List.mem_cons_self hs h₁) hrest

theorem foldlM_ok_of_step {σ : Type _} (I : List α → σ → Prop) {f : σ → α → Except ε σ}
    (hstep : ∀ a rest s, I (a :: rest) s → ∃ s', f s a = .ok s' ∧ I rest s') :
    ∀ (xs : List α) (s : σ), I xs s → ∃ s', xs.foldlM f s = .ok s' ∧ I [] s'
  | [], s, hs => ⟨s, rfl, hs⟩
  | a :: rest, s, hs => by
    obtain ⟨s₁, h₁, hs₁⟩ := hstep a rest s hs
    obtain ⟨s', h', hs'⟩ := foldlM_ok_of_step I hstep rest s₁ hs₁
    refine ⟨s', ?_, hs'⟩
    rw [List.foldlM_cons, h₁]
    exact h'

theorem forall₂_of_mapM_eq_ok {f : α → Except ε β} :
    ∀ {xs : List α} {ys : List β}, xs.mapM f = .ok ys → List.Forall₂ (fun x y => f x = .ok y) xs ys
  | [], ys, h => by
    rw [List.mapM_nil, pure_eq_ok, Except.ok.injEq] at h
    subst h
    exact .nil
  | x :: xs, ys, h => by
    rw [List.mapM_cons] at h
    obtain ⟨y, hx, h⟩ := bind_eq_ok.1 h
    obtain ⟨zs, hxs, h⟩ := bind_eq_ok.1 h
    rw [pure_eq_ok, Except.ok.injEq] at h
    subst h
    exact .cons hx (forall₂_of_mapM_eq_ok hxs)

theorem exists_of_mem_of_mapM_eq_ok {f : α → Except ε β} {xs : List α} {ys : List β}
    (h : xs.mapM f = .ok ys) {y : β} (hy : y ∈ ys) : ∃ x ∈ xs, f x = .ok y := by
  have hall := forall₂_of_mapM_eq_ok h
  clear h
  induction hall with
  | nil => cases hy
  | @cons x y' xs ys hx _ ih =>
    rcases List.mem_cons.1 hy with rfl | hy
    · exact ⟨x, List.mem_cons_self, hx⟩
    · obtain ⟨x', hx', hfx'⟩ := ih hy
      exact ⟨x', List.mem_cons_of_mem x hx', hfx'⟩

end Except
