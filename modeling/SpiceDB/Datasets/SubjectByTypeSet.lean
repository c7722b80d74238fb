import SpiceDB.Lib.Except
import SpiceDB.Core.Tuple
import SpiceDB.Caveats.Builder
import SpiceDB.Datasets.SubjectSet

namespace SpiceDB.Datasets

structure SubjectByTypeSet where
  byType : AList fun _ : RelationReference => SubjectSet

def newSubjectByTypeSet : SubjectByTypeSet := ⟨∅⟩

namespace SubjectByTypeSet

/-- `AddSubject`: the subject joins the set of its type, created empty if missing. -/
def addSubject (s : SubjectByTypeSet) (subject : ObjectAndRelation)
    (caveat : Option ContextualizedCaveat) : Except String SubjectByTypeSet := do
  let key : RelationReference := ⟨subject.«namespace», subject.relation⟩
  let subjects := (s.byType.lookup key).getD newSubjectSet
  let subjects ← subjects.add ⟨subject.objectId, Caveats.wrapCaveat caveat, []⟩
  pure ⟨s.byType.insert key subjects⟩

def addSubjectOf (s : SubjectByTypeSet) (relationship : RelationTuple) : Except String SubjectByTypeSet :=
  s.addSubject relationship.subject relationship.caveat

def isEmpty (s : SubjectByTypeSet) : Bool := s.byType.entries.isEmpty

def subjectSetForType (s : SubjectByTypeSet) (rr : RelationReference) : Option SubjectSet :=
  s.byType.lookup rr

/-- The loop of `Map` over the entries in the order it visits them: each set is stored under
the type the mapper gives, over whatever is stored there. -/
def mapEntries (mapper : RelationReference → Except String (Option RelationReference)) :
    List (Σ _ : RelationReference, SubjectSet) → SubjectByTypeSet → Except String SubjectByTypeSet
  | [], mapped => pure mapped
  | entry :: rest, mapped => do
    match ← mapper entry.1 with
    | none => mapEntries mapper rest mapped
    | some updatedType => mapEntries mapper rest ⟨mapped.byType.insert updatedType entry.2⟩

/-- `Map`, visiting the entries in the order `order` puts them in. -/
def map (s : SubjectByTypeSet)
    (order : List (Σ _ : RelationReference, SubjectSet) → List (Σ _ : RelationReference, SubjectSet))
    (mapper : RelationReference → Except String (Option RelationReference)) :
    Except String SubjectByTypeSet :=
  mapEntries mapper (order s.byType.entries) newSubjectByTypeSet

end SubjectByTypeSet

open SubjectByTypeSet

/-- What `Map` stores under a type: the set of the last entry visited whose type the mapper
sends there, or what was there before. -/
theorem lookup_mapEntries (mapper : RelationReference → Except String (Option RelationReference))
    (k : RelationReference) :
    ∀ (order : List (Σ _ : RelationReference, SubjectSet)) (mapped result : SubjectByTypeSet),
      mapEntries mapper order mapped = .ok result →
      result.byType.lookup k =
        match order.reverse.find? (fun entry => decide (mapper entry.1 = .ok (some k))) with
        | some entry => some entry.2
        | none => mapped.byType.lookup k
  | [], mapped, result, h => by cases h; rfl
  | entry :: rest, mapped, result, h => by
    obtain ⟨target, htarget, hrest⟩ := Except.bind_eq_ok.1 h
    rw [List.reverse_cons, List.find?_append]
    -- the rest of the loop decides unless no later entry maps to `k`
    cases target with
    | none =>
      rw [lookup_mapEntries mapper k rest mapped result hrest]
      cases rest.reverse.find? (fun entry => decide (mapper entry.1 = .ok (some k))) with
      | some later => rfl
      | none => simp [htarget]
    | some updatedType =>
      rw [lookup_mapEntries mapper k rest _ result hrest]
      cases rest.reverse.find? (fun entry => decide (mapper entry.1 = .ok (some k))) with
      | some later => rfl
      | none =>
        by_cases hk : updatedType = k
        · subst hk
          simp [htarget]
        · have hne : mapper entry.1 ≠ .ok (some k) := by
            rw [htarget]
            intro heq
            exact hk (Option.some.inj (Except.ok.inj heq))
          simp [hne, AList.lookup_insert_ne (Ne.symm hk)]

/-- The mapper succeeds on every entry, so `Map` does. -/
theorem mapEntries_ok (mapper : RelationReference → Except String (Option RelationReference)) :
    ∀ (order : List (Σ _ : RelationReference, SubjectSet)) (mapped : SubjectByTypeSet),
      (∀ entry ∈ order, ∃ target, mapper entry.1 = .ok target) →
      ∃ result, mapEntries mapper order mapped = .ok result
  | [], mapped, _ => ⟨mapped, rfl⟩
  | entry :: rest, mapped, hok => by
    obtain ⟨target, htarget⟩ := hok entry List.mem_cons_self
    have hrest := fun mapped => mapEntries_ok mapper rest mapped
      fun e he => hok e (List.mem_cons_of_mem entry he)
    cases target with
    | none =>
      obtain ⟨result, hresult⟩ := hrest mapped
      exact ⟨result, by rw [mapEntries, htarget]; exact hresult⟩
    | some updatedType =>
      obtain ⟨result, hresult⟩ := hrest ⟨mapped.byType.insert updatedType entry.2⟩
      exact ⟨result, by rw [mapEntries, htarget]; exact hresult⟩

/-- `Map` stores sets only under types the mapper gives. -/
theorem mem_mapEntries (mapper : RelationReference → Except String (Option RelationReference))
    (k : RelationReference) :
    ∀ (order : List (Σ _ : RelationReference, SubjectSet)) (mapped result : SubjectByTypeSet),
      mapEntries mapper order mapped = .ok result → k ∈ result.byType →
      k ∈ mapped.byType ∨ ∃ entry ∈ order, mapper entry.1 = .ok (some k)
  | [], mapped, result, h, hk => by cases h; exact .inl hk
  | entry :: rest, mapped, result, h, hk => by
    obtain ⟨target, htarget, hrest⟩ := Except.bind_eq_ok.1 h
    cases target with
    | none =>
      rcases mem_mapEntries mapper k rest mapped result hrest hk with hold | ⟨e, he, hmap⟩
      · exact .inl hold
      · exact .inr ⟨e, List.mem_cons_of_mem entry he, hmap⟩
    | some updatedType =>
      rcases mem_mapEntries mapper k rest _ result hrest hk with hold | ⟨e, he, hmap⟩
      · rcases (AList.mem_insert _).1 hold with rfl | hold
        · exact .inr ⟨entry, List.mem_cons_self, htarget⟩
        · exact .inl hold
      · exact .inr ⟨e, List.mem_cons_of_mem entry he, hmap⟩

/-- `Map` stores under a type the set of an entry the mapper sends there. -/
theorem exists_of_lookup_map (s : SubjectByTypeSet)
    (order : List (Σ _ : RelationReference, SubjectSet) → List (Σ _ : RelationReference, SubjectSet))
    (horder : ∀ entry ∈ order s.byType.entries, entry ∈ s.byType.entries)
    (mapper : RelationReference → Except String (Option RelationReference)) {result : SubjectByTypeSet}
    (h : s.map order mapper = .ok result) {k : RelationReference} {S : SubjectSet}
    (hk : result.byType.lookup k = some S) :
    ∃ k₀, mapper k₀ = .ok (some k) ∧ s.byType.lookup k₀ = some S := by
  rw [lookup_mapEntries mapper k _ _ _ h] at hk
  cases hfind : (order s.byType.entries).reverse.find? (fun entry => decide (mapper entry.1 = .ok (some k))) with
  | none =>
    rw [hfind] at hk
    simp [newSubjectByTypeSet] at hk
  | some entry =>
    rw [hfind, Option.some.injEq] at hk
    subst hk
    refine ⟨entry.1, by simpa using List.find?_some hfind, ?_⟩
    exact AList.mem_lookup_iff.2 (horder entry (List.mem_reverse.1 (List.mem_of_find?_eq_some hfind)))

/-- A map whose every key is `k` and which has a value under `k` has just that entry. -/
theorem entries_eq_singleton {β : Type} {m : AList fun _ : RelationReference => β} {k : RelationReference}
    {b : β} (hkeys : ∀ k' ∈ m, k' = k) (hk : m.lookup k = some b) : m.entries = [⟨k, b⟩] := by
  obtain ⟨entries, hnodup⟩ := m
  match entries, hnodup with
  | [], _ => exact absurd hk (by simp [AList.lookup])
  | [⟨k', b'⟩], _ =>
    have hk' : k' = k := hkeys k' (by simp [AList.mem_keys, AList.keys])
    subst hk'
    have hb : b' = b := by simpa [AList.lookup] using hk
    rw [hb]
  | ⟨k₁, _⟩ :: ⟨k₂, _⟩ :: rest, hnodup =>
    -- two entries would share the key `k`
    have h₁ : k₁ = k := hkeys k₁ (by simp [AList.mem_keys, AList.keys])
    have h₂ : k₂ = k := hkeys k₂ (by simp [AList.mem_keys, AList.keys])
    simp [List.NodupKeys, List.keys, h₁, h₂] at hnodup

/-- When the mapper sends every type of a nonempty map to `target`, `Map` keeps one entry: the
set of the last entry it visits, whatever the order. -/
theorem map_eq_single_of_mapper_const (s : SubjectByTypeSet)
    (order : List (Σ _ : RelationReference, SubjectSet) → List (Σ _ : RelationReference, SubjectSet))
    (horder : (order s.byType.entries).Perm s.byType.entries)
    (mapper : RelationReference → Except String (Option RelationReference)) (target : RelationReference)
    (hnonempty : s.byType.entries ≠ [])
    (htarget : ∀ entry ∈ s.byType.entries, mapper entry.1 = .ok (some target)) :
    ∃ result, s.map order mapper = .ok result ∧
      ∃ last ∈ s.byType.entries, result.byType.entries = [⟨target, last.2⟩] := by
  have hmem : ∀ entry ∈ order s.byType.entries, entry ∈ s.byType.entries :=
    fun entry hentry => horder.subset hentry
  obtain ⟨result, hmap⟩ := mapEntries_ok mapper (order s.byType.entries) newSubjectByTypeSet
    fun entry hentry => ⟨_, htarget entry (hmem entry hentry)⟩
  -- the set kept under `target` is that of the last entry visited
  obtain ⟨last, hlast, hfind⟩ : ∃ last ∈ s.byType.entries,
      (order s.byType.entries).reverse.find?
        (fun entry => decide (mapper entry.1 = .ok (some target))) = some last := by
    obtain ⟨first, hfirst⟩ := List.exists_mem_of_ne_nil _ hnonempty
    have hvisited : first ∈ (order s.byType.entries).reverse :=
      List.mem_reverse.2 (horder.symm.subset hfirst)
    cases hf : (order s.byType.entries).reverse.find?
        (fun entry => decide (mapper entry.1 = .ok (some target))) with
    | some last => exact ⟨last, hmem last (List.mem_reverse.1 (List.mem_of_find?_eq_some hf)), rfl⟩
    | none =>
      have := List.find?_eq_none.1 hf first hvisited
      simp [htarget first hfirst] at this
  have hlookup := lookup_mapEntries mapper target _ _ _ hmap
  rw [hfind] at hlookup
  -- and `target` is the only type stored
  have hkeys : ∀ k ∈ result.byType, k = target := by
    intro k hk
    rcases mem_mapEntries mapper k _ _ _ hmap hk with hempty | ⟨entry, hentry, hmapped⟩
    · exact absurd hempty (AList.notMem_empty k)
    · rw [htarget entry (hmem entry hentry)] at hmapped
      exact (Option.some.inj (Except.ok.inj hmapped)).symm
  exact ⟨result, hmap, last, hlast, entries_eq_singleton hkeys hlookup⟩

/-- Two subject types that the mapper sends to one type lose one of their sets. `folder`
holds `f1` and `folder#member` holds `f2`; both map to `folder#view`, and whatever order Go
visits the map in, the set `Map` stores under `folder#view` misses `f1` or `f2`. -/
theorem map_drops_colliding_type
    (order : List (Σ _ : RelationReference, SubjectSet) → List (Σ _ : RelationReference, SubjectSet))
    (horder : ∀ entries, (order entries).Perm entries) :
    let ids := fun subjects : SubjectSet => subjects.asSlice.map (·.subjectId)
    let mapper : RelationReference → Except String (Option RelationReference) :=
      fun _ => pure (some ⟨"folder", "view"⟩)
    ∃ s mapped subjects,
      (newSubjectByTypeSet.addSubject ⟨"folder", "f1", ellipsis⟩ none >>= fun s =>
        s.addSubject ⟨"folder", "f2", "member"⟩ none) = .ok s ∧
      (s.subjectSetForType ⟨"folder", ellipsis⟩).map ids = some ["f1"] ∧
      (s.subjectSetForType ⟨"folder", "member"⟩).map ids = some ["f2"] ∧
      s.map order mapper = .ok mapped ∧ mapped.subjectSetForType ⟨"folder", "view"⟩ = some subjects ∧
      ("f1" ∉ ids subjects ∨ "f2" ∉ ids subjects) := by
  intro ids mapper
  let added := newSubjectByTypeSet.addSubject ⟨"folder", "f1", ellipsis⟩ none >>= fun s =>
    s.addSubject ⟨"folder", "f2", "member"⟩ none
  obtain ⟨s, hs⟩ := Except.isOk_iff.1 (show added.isOk = true by decide +kernel)
  -- each of the two groups holds one folder, and the mapper sends both to `folder#view`
  have hfacts : (Except.map (fun s : SubjectByTypeSet =>
      ((s.subjectSetForType ⟨"folder", ellipsis⟩).map ids == some ["f1"]) &&
      ((s.subjectSetForType ⟨"folder", "member"⟩).map ids == some ["f2"]) &&
      !s.byType.entries.isEmpty &&
      s.byType.entries.all fun entry => !(ids entry.2).contains "f1" || !(ids entry.2).contains "f2")
      added) = .ok true := by decide +kernel
  rw [hs] at hfacts
  have hgroups := Except.ok.inj hfacts
  simp only [Bool.and_eq_true, beq_iff_eq] at hgroups
  obtain ⟨⟨⟨hf1, hf2⟩, hnonempty⟩, hone⟩ := hgroups
  obtain ⟨mapped, hmap, last, hlast, hsingle⟩ := map_eq_single_of_mapper_const s order (horder _)
    mapper ⟨"folder", "view"⟩ (by simpa using hnonempty) fun _ _ => rfl
  -- `Map` keeps the set of the group it visits last
  have hlookup : mapped.subjectSetForType ⟨"folder", "view"⟩ = some last.2 := by
    simp [subjectSetForType, AList.lookup, hsingle]
  refine ⟨s, mapped, last.2, hs, hf1, hf2, hmap, hlookup, ?_⟩
  simpa using List.all_eq_true.1 hone last hlast

/-- Visiting the map in the order of its entries is one order Go may take. -/
theorem map_drops_colliding_type_in_entry_order :
    (∀ entries : List (Σ _ : RelationReference, SubjectSet), (id entries).Perm entries) ∧
    let ids := fun subjects : SubjectSet => subjects.asSlice.map (·.subjectId)
    let mapper : RelationReference → Except String (Option RelationReference) :=
      fun _ => pure (some ⟨"folder", "view"⟩)
    ∃ s mapped subjects,
      (newSubjectByTypeSet.addSubject ⟨"folder", "f1", ellipsis⟩ none >>= fun s =>
        s.addSubject ⟨"folder", "f2", "member"⟩ none) = .ok s ∧
      (s.subjectSetForType ⟨"folder", ellipsis⟩).map ids = some ["f1"] ∧
      (s.subjectSetForType ⟨"folder", "member"⟩).map ids = some ["f2"] ∧
      s.map id mapper = .ok mapped ∧ mapped.subjectSetForType ⟨"folder", "view"⟩ = some subjects ∧
      ("f1" ∉ ids subjects ∨ "f2" ∉ ids subjects) :=
  ⟨fun _ => List.Perm.refl _, map_drops_colliding_type id fun _ => List.Perm.refl _⟩

end SpiceDB.Datasets
