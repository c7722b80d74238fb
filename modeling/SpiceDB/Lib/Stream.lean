import Mathlib.Data.List.Basic

/-- Computations that publish values of `α` and may fail with a message. -/
abbrev StreamM (α β : Type) := ExceptT String (StateM (List α)) β

namespace StreamM

variable {α β γ : Type}

/-- How a computation ends on a stream that holds `published`, and what the stream holds
after. -/
def run (m : StreamM α β) (published : List α) : Except String β × List α :=
  (ExceptT.run m).run published

def publish (a : α) : StreamM α Unit := modify (· ++ [a])

/-- A computation that publishes nothing and ends with `e`. -/
def ofExcept (e : Except String β) : StreamM α β := ExceptT.mk (pure e)

/-- What a computation publishes on a fresh stream, and how it ends. -/
def collect (m : StreamM α Unit) : List α × Except String Unit :=
  let (result, published) := m.run []
  (published, result)

/-- Publishes each value a run published, through `processor`, up to the first value the
processor fails on, and then ends as the run did. -/
def forward (processor : α → Except String α) : List α → Except String Unit → StreamM α Unit
  | [], result => ofExcept result
  | a :: rest, result => do
    publish (← ofExcept (processor a))
    forward processor rest result

/-- What `m` publishes, published through `processor` up to the first value it fails on, as a
stream wrapping this one does; it then ends as `m` did. -/
def wrap (processor : α → Except String α) (m : StreamM α Unit) : StreamM α Unit :=
  forward processor (collect m).1 (collect m).2

@[simp] theorem run_pure (b : β) (s : List α) : (pure b : StreamM α β).run s = (.ok b, s) := rfl

@[simp] theorem run_throw (e : String) (s : List α) :
    (throw e : StreamM α β).run s = (.error e, s) := rfl

@[simp] theorem run_publish (a : α) (s : List α) : (publish a).run s = (.ok (), s ++ [a]) := rfl

@[simp] theorem run_ofExcept (e : Except String β) (s : List α) :
    (ofExcept e : StreamM α β).run s = (e, s) := rfl

theorem run_bind_of_ok {m : StreamM α β} {f : β → StreamM α γ} {s s' : List α} {b : β}
    (h : m.run s = (.ok b, s')) : (m >>= f).run s = (f b).run s' := by
  simp only [run] at h ⊢
  simp only [ExceptT.run_bind, StateT.run_bind, h]
  rfl

theorem run_bind_of_error {m : StreamM α β} {f : β → StreamM α γ} {s s' : List α} {e : String}
    (h : m.run s = (.error e, s')) : (m >>= f).run s = (.error e, s') := by
  simp only [run] at h ⊢
  simp only [ExceptT.run_bind, StateT.run_bind, h]
  rfl

/-- `m` only appends to the stream, and every value it appends has `P`. -/
def PublishesOnly (P : α → Prop) (m : StreamM α β) : Prop :=
  ∀ published, ∃ new, (m.run published).2 = published ++ new ∧ ∀ a ∈ new, P a

section Rules

variable {P Q : α → Prop}

theorem publishesOnly_ofExcept (e : Except String β) : PublishesOnly P (ofExcept e : StreamM α β) :=
  fun published => ⟨[], by simp, by simp⟩

theorem publishesOnly_pure (b : β) : PublishesOnly P (pure b : StreamM α β) :=
  publishesOnly_ofExcept (.ok b)

theorem publishesOnly_throw (e : String) : PublishesOnly P (throw e : StreamM α β) :=
  publishesOnly_ofExcept (.error e)

theorem publishesOnly_throw_bind (e : String) (f : β → StreamM α γ) :
    PublishesOnly P ((throw e : StreamM α β) >>= f) := by
  intro published
  rw [run_bind_of_error (run_throw e published)]
  exact ⟨[], by simp, by simp⟩

theorem publishesOnly_publish {a : α} (ha : P a) : PublishesOnly P (publish a) := by
  intro published
  refine ⟨[a], run_publish a published ▸ rfl, ?_⟩
  intro a' ha'
  rw [List.mem_singleton.1 ha']
  exact ha

theorem PublishesOnly.mono (himp : ∀ a, P a → Q a) {m : StreamM α β} (h : PublishesOnly P m) :
    PublishesOnly Q m := by
  intro published
  obtain ⟨new, hrun, hnew⟩ := h published
  exact ⟨new, hrun, fun a ha => himp a (hnew a ha)⟩

/-- A computation run after another appends what both publish. -/
theorem PublishesOnly.bind {m : StreamM α β} {f : β → StreamM α γ} (hm : PublishesOnly P m)
    (hf : ∀ b, PublishesOnly P (f b)) : PublishesOnly P (m >>= f) := by
  intro published
  obtain ⟨new, hrun, hnew⟩ := hm published
  rcases hm' : m.run published with ⟨_ | b, s'⟩
  · rw [run_bind_of_error hm']
    rw [hm'] at hrun
    exact ⟨new, hrun, hnew⟩
  · rw [run_bind_of_ok hm']
    have hs' : s' = published ++ new := by simpa [hm'] using hrun
    obtain ⟨new', hrun', hnew'⟩ := hf b s'
    refine ⟨new ++ new', by rw [hrun', hs', List.append_assoc], ?_⟩
    intro a ha
    rcases List.mem_append.1 ha with ha | ha
    · exact hnew a ha
    · exact hnew' a ha

theorem publishesOnly_ofExcept_bind {e : Except String β} {f : β → StreamM α γ}
    (hf : ∀ b, e = .ok b → PublishesOnly P (f b)) : PublishesOnly P (ofExcept e >>= f) := by
  intro published
  cases he : e with
  | error err =>
    rw [run_bind_of_error (run_ofExcept _ published)]
    exact ⟨[], by simp, by simp⟩
  | ok b =>
    rw [run_bind_of_ok (run_ofExcept _ published)]
    exact hf b he published

theorem publishesOnly_forM {l : List γ} {f : γ → StreamM α Unit}
    (hf : ∀ x ∈ l, PublishesOnly P (f x)) : PublishesOnly P (l.forM f) := by
  induction l with
  | nil => exact publishesOnly_pure ()
  | cons x rest ih =>
    change PublishesOnly P (f x >>= fun _ => rest.forM f)
    exact (hf x List.mem_cons_self).bind fun _ =>
      ih fun y hy => hf y (List.mem_cons_of_mem x hy)

theorem publishesOnly_forward {processor : α → Except String α} {result : Except String Unit} :
    ∀ {published : List α}, (∀ a ∈ published, ∀ a', processor a = .ok a' → P a') →
      PublishesOnly P (forward processor published result)
  | [], _ => publishesOnly_ofExcept result
  | a :: _, h =>
    publishesOnly_ofExcept_bind fun a' ha' =>
      (publishesOnly_publish (h a List.mem_cons_self a' ha')).bind fun _ =>
        publishesOnly_forward fun b hb => h b (List.mem_cons_of_mem a hb)

theorem PublishesOnly.mem_collect {m : StreamM α Unit} (h : PublishesOnly P m) :
    ∀ a ∈ (collect m).1, P a := by
  obtain ⟨new, hrun, hnew⟩ := h []
  intro a ha
  apply hnew a
  simpa [collect, hrun] using ha

theorem publishesOnly_wrap {processor : α → Except String α} {m : StreamM α Unit} (hm : PublishesOnly P m)
    (hprocessor : ∀ a, P a → ∀ a', processor a = .ok a' → Q a') : PublishesOnly Q (wrap processor m) :=
  publishesOnly_forward fun a ha a' h => hprocessor a (hm.mem_collect a ha) a' h

end Rules

end StreamM
