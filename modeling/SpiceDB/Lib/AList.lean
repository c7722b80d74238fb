import Mathlib.Data.List.AList
import Mathlib.Data.List.Sort
import SpiceDB.Lib.Except

namespace AList

variable {α β γ : Type*} [DecidableEq α]

/-- A fold over entries with distinct keys, each step changing only the key it visits,
leaves every visited key at what its step made of the key's previous value, and every
other key alone. -/
theorem lookup_foldl_local
    (step : AList (fun _ : α => β) → (Σ _ : α, β) → AList (fun _ : α => β))
    (F : (Σ _ : α, β) → Option β → Option β) :
    ∀ (l : List (Σ _ : α, β)), l.NodupKeys →
      (∀ e ∈ l, ∀ m, (step m e).lookup e.1 = F e (m.lookup e.1)) →
      (∀ e ∈ l, ∀ m a, a ≠ e.1 → (step m e).lookup a = m.lookup a) →
      ∀ m a, (l.foldl step m).lookup a =
        match l.dlookup a with
        | some b => F ⟨a, b⟩ (m.lookup a)
        | none => m.lookup a
  | [], _, _, _, m, a => by simp [List.dlookup_nil]
  | ⟨k, b⟩ :: l, hnd, hself, hother, m, a => by
    obtain ⟨hfresh, hnd'⟩ := List.nodupKeys_cons.mp hnd
    have ih := lookup_foldl_local step F l hnd'
      (fun e' he' => hself e' (List.mem_cons_of_mem _ he'))
      (fun e' he' => hother e' (List.mem_cons_of_mem _ he')) (step m ⟨k, b⟩) a
    rw [List.foldl_cons, ih]
    by_cases ha : a = k
    · subst ha
      have hl : l.dlookup a = none := List.dlookup_eq_none.mpr hfresh
      rw [hl, List.dlookup_cons_eq]
      exact hself ⟨a, b⟩ List.mem_cons_self m
    · rw [List.dlookup_cons_ne l ⟨k, b⟩ ha, hother ⟨k, b⟩ List.mem_cons_self m a ha]

/-- Filling a map from a list whose keys are distinct finds each key's element. -/
theorem lookup_foldl_insert (f : γ → α) :
    ∀ (l : List γ), (l.map f).Nodup → ∀ (m : AList (fun _ : α => γ)) (a : α),
      (l.foldl (fun m e => m.insert (f e) e) m).lookup a =
        match l.find? (fun e => f e = a) with
        | some e => some e
        | none => m.lookup a
  | [], _, m, a => by simp
  | e :: l, hnd, m, a => by
    simp only [List.map_cons, List.nodup_cons] at hnd
    rw [List.foldl_cons, lookup_foldl_insert f l hnd.2]
    by_cases ha : f e = a
    · subst ha
      have hl : l.find? (fun e' => f e' = f e) = none := by
        rw [List.find?_eq_none]
        intro e' he' heq
        exact hnd.1 (List.mem_map.mpr ⟨e', he', by simpa using heq⟩)
      simp [hl, lookup_insert]
    · simp only [List.find?_cons, ha, decide_false]
      cases l.find? (fun e' => f e' = a) <;> simp [lookup_insert_ne (Ne.symm ha)]

/-- In a map whose values carry their own key, searching the values for a key is a
lookup. -/
theorem any_values_eq_lookup (f : β → α) (m : AList (fun _ : α => β))
    (hkey : ∀ k b, m.lookup k = some b → f b = k) (a : α) (p : β → Bool) :
    (m.entries.map Sigma.snd).any (fun b => decide (f b = a) && p b) = (m.lookup a).any p := by
  cases hl : m.lookup a with
  | none =>
    simp only [Option.any_none, List.any_eq_false, List.mem_map, Bool.and_eq_true,
      decide_eq_true_eq, not_and]
    rintro _ ⟨⟨k, b⟩, hm, rfl⟩ hb
    have hk : m.lookup k = some b := mem_lookup_iff.mpr hm
    rw [hkey k b hk] at hb
    subst hb
    rw [hl] at hk
    cases hk
  | some b =>
    simp only [Option.any_some]
    apply Bool.eq_iff_iff.mpr
    simp only [List.any_eq_true, List.mem_map, Bool.and_eq_true, decide_eq_true_eq]
    constructor
    · rintro ⟨_, ⟨⟨k, b'⟩, hm, rfl⟩, hb', hp⟩
      have hk : m.lookup k = some b' := mem_lookup_iff.mpr hm
      rw [hkey k b' hk] at hb'
      subst hb'
      rw [hl] at hk
      cases hk
      exact hp
    · intro hp
      exact ⟨b, ⟨⟨a, b⟩, mem_lookup_iff.mp hl, rfl⟩, hkey a b hl, hp⟩

theorem find?_values_eq_dlookup (f : β → α) (a : α) :
    ∀ (l : List (Σ _ : α, β)), l.NodupKeys → (∀ e ∈ l, f e.2 = e.1) →
      (l.map Sigma.snd).find? (fun b => f b = a) = l.dlookup a
  | [], _, _ => rfl
  | ⟨k, b⟩ :: l, hnd, hkey => by
    obtain ⟨-, hnd'⟩ := List.nodupKeys_cons.mp hnd
    have hb : f b = k := hkey ⟨k, b⟩ List.mem_cons_self
    by_cases ha : a = k
    · subst ha
      simp [hb, List.dlookup_cons_eq]
    · have hba : ¬f b = a := fun h => ha (h.symm.trans hb)
      rw [List.dlookup_cons_ne l ⟨k, b⟩ ha, List.map_cons, List.find?_cons_of_neg (by simpa using hba),
        find?_values_eq_dlookup f a l hnd' fun e he => hkey e (List.mem_cons_of_mem _ he)]

theorem lookup_filter_key (m : AList (fun _ : α => β)) (p : α → Bool) (a : α) :
    (⟨m.entries.filter (fun e => p e.1), m.nodupKeys.sublist List.filter_sublist⟩ : AList _).lookup a =
      if p a then m.lookup a else none := by
  split
  · rename_i hp
    apply Option.ext
    intro b
    rw [← Option.mem_def, mem_lookup_iff, ← Option.mem_def, mem_lookup_iff]
    simp [hp]
  · rename_i hp
    refine Option.eq_none_iff_forall_not_mem.2 fun b hb => ?_
    rw [mem_lookup_iff] at hb
    exact hp (List.mem_filter.1 hb).2

/-- Searching the entries for a key is a lookup. -/
theorem any_entries_eq_lookup (m : AList (fun _ : α => β)) (a : α) (p : β → Bool) :
    m.entries.any (fun e => decide (e.1 = a) && p e.2) = (m.lookup a).any p := by
  cases hl : m.lookup a with
  | none =>
    simp only [Option.any_none, List.any_eq_false, Bool.and_eq_true, decide_eq_true_eq, not_and]
    rintro ⟨k, b⟩ hm rfl
    rw [mem_lookup_iff.mpr hm] at hl
    cases hl
  | some b =>
    simp only [Option.any_some]
    apply Bool.eq_iff_iff.mpr
    simp only [List.any_eq_true, Bool.and_eq_true, decide_eq_true_eq]
    constructor
    · rintro ⟨⟨k, b'⟩, hm, rfl, hp⟩
      rw [mem_lookup_iff.mpr hm] at hl
      cases hl
      exact hp
    · intro hp
      exact ⟨⟨a, b⟩, mem_lookup_iff.mp hl, rfl, hp⟩

/-- A fold over entries with distinct keys, each step changing the map only at the key it
visits and raising a flag from what it finds there, ends with the flag raised exactly when
it was at the start or some step finds, in the map the fold started from, what raises it. -/
theorem foldl_flag_local {σ : Type*} (get : σ → AList (fun _ : α => β)) (flag : σ → Bool)
    (step : σ → (Σ _ : α, β) → σ) (g : (Σ _ : α, β) → Option β → Bool) :
    ∀ (l : List (Σ _ : α, β)), l.NodupKeys →
      (∀ e ∈ l, ∀ s a, a ≠ e.1 → (get (step s e)).lookup a = (get s).lookup a) →
      (∀ e ∈ l, ∀ s, flag (step s e) = (flag s || g e ((get s).lookup e.1))) →
      ∀ s, flag (l.foldl step s) = (flag s || l.any fun e => g e ((get s).lookup e.1))
  | [], _, _, _, s => by simp
  | e :: l, hnd, hother, hflag, s => by
    obtain ⟨hfresh, hnd'⟩ := List.nodupKeys_cons.mp hnd
    -- the later keys are not the visited one, so the step left their values alone
    have hlater : (l.any fun e' => g e' ((get (step s e)).lookup e'.1)) =
        l.any fun e' => g e' ((get s).lookup e'.1) := by
      apply Bool.eq_iff_iff.mpr
      simp only [List.any_eq_true]
      refine exists_congr fun e' => and_congr_right fun he' => ?_
      rw [hother e List.mem_cons_self s e'.1 fun h => hfresh (h ▸ List.mem_keys_of_mem he')]
    rw [List.foldl_cons, foldl_flag_local get flag step g l hnd'
      (fun e' he' => hother e' (List.mem_cons_of_mem _ he'))
      (fun e' he' => hflag e' (List.mem_cons_of_mem _ he')) (step s e),
      hflag e List.mem_cons_self s, hlater, List.any_cons, Bool.or_assoc]

theorem mem_values_iff (m : AList (fun _ : α => β)) (b : β) :
    b ∈ m.entries.map (·.2) ↔ ∃ a, m.lookup a = some b := by
  simp only [List.mem_map]
  constructor
  · rintro ⟨⟨a, b⟩, hm, rfl⟩
    exact ⟨a, mem_lookup_iff.mpr hm⟩
  · rintro ⟨a, ha⟩
    exact ⟨⟨a, b⟩, mem_lookup_iff.mp ha, rfl⟩

theorem lookup_filter (m : AList (fun _ : α => β)) (p : (Σ _ : α, β) → Bool) (a : α) :
    (⟨m.entries.filter p, m.nodupKeys.sublist List.filter_sublist⟩ : AList _).lookup a =
      (m.lookup a).filter fun b => p ⟨a, b⟩ := by
  apply Option.ext
  intro b
  rw [Option.filter_eq_some_iff, ← Option.mem_def, mem_lookup_iff, ← Option.mem_def,
    mem_lookup_iff]
  exact List.mem_filter

section KeyOfValue

variable (m : AList (fun _ : α => β)) (key : β → α)
  (hkey : ∀ a b, m.lookup a = some b → a = key b)

include hkey

theorem mem_values_iff_lookup (b : β) : b ∈ m.entries.map (·.2) ↔ m.lookup (key b) = some b := by
  rw [mem_values_iff]
  constructor
  · rintro ⟨a, ha⟩
    rwa [← hkey a b ha]
  · intro hb
    exact ⟨key b, hb⟩

theorem map_values_eq_keys : (m.entries.map (·.2)).map key = m.keys := by
  rw [List.map_map, keys]
  exact List.map_congr_left fun e he => (hkey e.1 e.2 (mem_lookup_iff.mpr he)).symm

end KeyOfValue

/-- A loop over keys that erases those `p` rejects: a key it visits and rejects is gone, and
every other key keeps its value. -/
theorem lookup_foldl_erase (p : α → Bool) (a : α) :
    ∀ (keys : List α) (m : AList (fun _ : α => β)),
      (keys.foldl (fun m k => if p k then m else m.erase k) m).lookup a =
        if a ∈ keys ∧ p a = false then none else m.lookup a
  | [], m => by simp
  | k :: keys, m => by
    rw [List.foldl_cons, lookup_foldl_erase p a keys]
    by_cases hk : p k = true
    · rw [if_pos hk]
      by_cases ha : a = k
      · subst ha
        simp [hk]
      · simp [ha]
    · rw [if_neg hk]
      by_cases ha : a = k
      · subst ha
        simp [hk, lookup_erase]
      · simp [ha, lookup_erase_ne ha]

end AList

namespace AList

-- the map, the values and the errors live in one universe, as a monadic fold needs
universe u

variable {α β γ ε : Type u} [DecidableEq α] (f : γ → α) (g : γ → Except ε β)

theorem foldlM_insert_ok :
    ∀ (l : List γ) (m : AList fun _ : α => β), (∀ x ∈ l, ∃ b, g x = .ok b) →
      ∃ res, l.foldlM (fun m x => do let b ← g x; pure (m.insert (f x) b)) m = .ok res
  | [], m, _ => ⟨m, rfl⟩
  | x :: l, m, hok => by
    obtain ⟨b, hb⟩ := hok x List.mem_cons_self
    obtain ⟨res, hres⟩ := foldlM_insert_ok l (m.insert (f x) b)
      fun y hy => hok y (List.mem_cons_of_mem x hy)
    refine ⟨res, ?_⟩
    rw [List.foldlM_cons, Except.bind_eq_ok]
    exact ⟨m.insert (f x) b, by rw [hb]; rfl, hres⟩

theorem lookup_foldlM_insert_of_not_mem (a : α) :
    ∀ (l : List γ) (m res : AList fun _ : α => β), a ∉ l.map f →
      l.foldlM (fun m x => do let b ← g x; pure (m.insert (f x) b)) m = .ok res →
      res.lookup a = m.lookup a
  | [], m, res, _, h => by cases h; rfl
  | x :: l, m, res, ha, h => by
    simp only [List.map_cons, List.mem_cons, not_or] at ha
    rw [List.foldlM_cons, Except.bind_eq_ok] at h
    obtain ⟨m', hstep, hrest⟩ := h
    obtain ⟨b, -, hm'⟩ := Except.bind_eq_ok.1 hstep
    cases hm'
    rw [lookup_foldlM_insert_of_not_mem a l _ res ha.2 hrest, lookup_insert_ne ha.1]

/-- Filling a map from a list with distinct keys finds each element's computed value. -/
theorem lookup_foldlM_insert :
    ∀ (l : List γ) (m res : AList fun _ : α => β), (l.map f).Nodup →
      l.foldlM (fun m x => do let b ← g x; pure (m.insert (f x) b)) m = .ok res →
      ∀ x ∈ l, ∃ b, g x = .ok b ∧ res.lookup (f x) = some b
  | [], _, _, _, _, x, hx => absurd hx List.not_mem_nil
  | y :: l, m, res, hnd, h, x, hx => by
    simp only [List.map_cons, List.nodup_cons] at hnd
    rw [List.foldlM_cons, Except.bind_eq_ok] at h
    obtain ⟨m', hstep, hrest⟩ := h
    obtain ⟨b, hb, hm'⟩ := Except.bind_eq_ok.1 hstep
    cases hm'
    rcases List.mem_cons.1 hx with rfl | hx
    · -- the element's own key is written here and by no later element
      refine ⟨b, hb, ?_⟩
      rw [lookup_foldlM_insert_of_not_mem f g (f x) l _ res hnd.1 hrest, lookup_insert]
    · exact lookup_foldlM_insert l _ res hnd.2 hrest x hx

end AList

/-- `mapz.MultiMap`: the values added under each key, in the order they were added. -/
structure MultiMap (κ ν : Type*) [DecidableEq κ] where
  items : AList fun _ : κ => List ν

namespace MultiMap

variable {κ ν : Type*} [DecidableEq κ]

def empty : MultiMap κ ν := ⟨∅⟩

/-- `Add`: the value joins the end of its key's values. -/
def add (mm : MultiMap κ ν) (key : κ) (item : ν) : MultiMap κ ν :=
  ⟨mm.items.insert key ((mm.items.lookup key).getD [] ++ [item])⟩

/-- `Get`: the values of a key, none when it has none. -/
def get (mm : MultiMap κ ν) (key : κ) : List ν := (mm.items.lookup key).getD []

@[simp] theorem get_empty (key : κ) : (empty : MultiMap κ ν).get key = [] := rfl

theorem mem_get_add {mm : MultiMap κ ν} {key key' : κ} {item x : ν} :
    x ∈ (mm.add key item).get key' ↔ x ∈ mm.get key' ∨ (key' = key ∧ x = item) := by
  by_cases hk : key' = key
  · subst hk
    simp [add, get, AList.lookup_insert]
  · simp [add, get, AList.lookup_insert_ne hk, hk]

end MultiMap

namespace List

variable {α γ : Type*} [DecidableEq α]

theorem any_key_eq_find?_any (f : γ → α) (a : α) (p : γ → Bool) :
    ∀ (l : List γ), (l.map f).Nodup →
      l.any (fun e => decide (f e = a) && p e) = (l.find? (fun e => f e = a)).any p
  | [], _ => rfl
  | e :: l, hnd => by
    simp only [List.map_cons, List.nodup_cons] at hnd
    by_cases ha : f e = a
    · have hnone : l.any (fun e' => decide (f e' = a) && p e') = false := by
        simp only [List.any_eq_false, Bool.and_eq_true, decide_eq_true_eq, not_and]
        intro e' he' heq
        exact absurd (List.mem_map.mpr ⟨e', he', heq.trans ha.symm⟩) hnd.1
      simp [ha, hnone]
    · simp [ha, any_key_eq_find?_any f a p l hnd.2]

/-- In a list whose keys are distinct, the element found for a key after dropping some
elements and rewriting the rest without changing their keys is what the rewrite makes of the
element found before. -/
theorem find?_filterMap_of_nodup {β : Type*} (f : γ → Option β) (g : β → α) (k : γ → α)
    (hk : ∀ a b, f a = some b → g b = k a) (x : α) :
    ∀ l : List γ, (l.map k).Nodup →
      (l.filterMap f).find? (fun b => g b = x) = (l.find? (fun a => k a = x)).bind f
  | [], _ => rfl
  | a :: l, hnd => by
    simp only [List.map_cons, List.nodup_cons] at hnd
    have ih := find?_filterMap_of_nodup f g k hk x l hnd.2
    rw [List.filterMap_cons]
    by_cases hx : k a = x
    · -- the element found is `a`: no later element has its key
      have hl : l.find? (fun a => k a = x) = none := by
        rw [List.find?_eq_none]
        intro a' ha' heq
        exact hnd.1 (List.mem_map.mpr ⟨a', ha', by simpa [hx] using heq⟩)
      cases hfa : f a with
      | none => simp [ih, hl, hx, hfa]
      | some b => simp [hx, hfa, hk a b hfa]
    · cases hfa : f a with
      | none => simp [ih, hx]
      | some b => simp [ih, hx, hk a b hfa]

omit [DecidableEq α] in
theorem map_filterMap_sublist {β : Type*} (f : γ → Option β) (g : β → α) (k : γ → α)
    (hk : ∀ a b, f a = some b → g b = k a) :
    ∀ l : List γ, ((l.filterMap f).map g).Sublist (l.map k)
  | [] => by simp
  | a :: l => by
    rw [List.filterMap_cons, List.map_cons]
    cases ha : f a with
    | none => exact (map_filterMap_sublist f g k hk l).cons _
    | some b =>
      rw [List.map_cons, hk a b ha]
      exact (map_filterMap_sublist f g k hk l).cons_cons _

omit [DecidableEq α] in
theorem foldl_invariant {σ : Type*} (P : σ → Prop) {f : σ → γ → σ} :
    ∀ (l : List γ) (s : σ), (∀ s x, x ∈ l → P s → P (f s x)) → P s → P (l.foldl f s)
  | [], _, _, hs => hs
  | x :: l, s, hf, hs =>
    foldl_invariant P l (f s x) (fun s' y hy => hf s' y (List.mem_cons_of_mem x hy))
      (hf s x List.mem_cons_self hs)

omit [DecidableEq α] in
theorem get_foldl_of_last_write {σ β δ : Type*} (get : σ → δ) {step : σ → γ → σ}
    (f : γ → Option β) (g : β → δ) (hstep : ∀ s c, get (step s c) = (f c).elim (get s) g) :
    ∀ (cs : List γ) (s : σ), get (cs.foldl step s) = ((cs.filterMap f).getLast?).elim (get s) g
  | [], _ => rfl
  | c :: cs, s => by
    rw [List.foldl_cons, get_foldl_of_last_write get f g hstep cs (step s c), hstep,
      List.filterMap_cons]
    cases f c with
    | none => rfl
    | some b =>
      rw [List.getLast?_cons]
      cases (cs.filterMap f).getLast? <;> rfl

section Sorting

variable {δ : Type*} [LinearOrder δ]

omit [DecidableEq α] in
theorem insertionSort_map_of_lt_iff (f : δ → α) (less : α → α → Bool)
    (hless : ∀ a b, less (f a) (f b) = true ↔ a < b) (l : List δ) :
    (l.map f).insertionSort (fun i j => less j i = false) = (l.insertionSort (· ≤ ·)).map f := by
  refine (List.map_insertionSort _ _ f l fun a _ b _ => ?_).symm
  rw [Bool.eq_false_iff, ne_eq, hless, not_lt]

/-- A sorted list is its part below a bound followed by its part from the bound on. -/
theorem filter_lt_append_filter_le (b : δ) :
    ∀ {l : List δ}, l.Pairwise (· ≤ ·) →
      l.filter (fun x => decide (x < b)) ++ l.filter (fun x => decide (b ≤ x)) = l
  | [], _ => rfl
  | x :: l, h => by
    obtain ⟨hx, hl⟩ := List.pairwise_cons.mp h
    by_cases hxb : x < b
    · simp [hxb, not_le.mpr hxb, filter_lt_append_filter_le b hl]
    · -- everything from `x` on is at or above the bound
      have hall : ∀ y ∈ x :: l, b ≤ y := by
        intro y hy
        rcases List.mem_cons.mp hy with rfl | hy
        · exact not_lt.mp hxb
        · exact (not_lt.mp hxb).trans (hx y hy)
      rw [List.filter_eq_nil_iff.mpr fun y hy => by simpa using hall y hy,
        List.filter_eq_self.mpr fun y hy => by simpa using hall y hy]
      rfl

end Sorting

end List
