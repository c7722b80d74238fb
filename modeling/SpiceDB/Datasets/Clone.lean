import SpiceDB.Lib.Heap
import SpiceDB.Datasets.SubjectSet

namespace SpiceDB.Datasets

open Caveats

variable {T : Type}

/-- The maps and handles that set values point into. -/
structure SetHeap (T : Type) where
  maps : List (SubjectMap T)
  handles : List (Option T)

/-- `BaseSubjectSet[T]` as a Go value: the constructor, the map and the handle it points to. -/
structure BaseSubjectSetRef (T : Type) where
  constructor : Constructor T
  concrete : ℕ
  wildcard : ℕ

/-- The set a value holds in a heap; `none` for a dangling reference. -/
def SetHeap.read (heap : SetHeap T) (bss : BaseSubjectSetRef T) : Option (BaseSubjectSet T) := do
  let concrete ← heap.maps[bss.concrete]?
  let wildcard ← heap.handles[bss.wildcard]?
  pure ⟨bss.constructor, concrete, wildcard⟩

/-- `heap'` keeps every map and handle of `heap`. -/
def SetHeap.Extends (heap heap' : SetHeap T) : Prop :=
  Heap.Extends heap.maps heap'.maps ∧ Heap.Extends heap.handles heap'.handles

def SetHeap.setHandle (heap : SetHeap T) (r : ℕ) (value : Option T) : SetHeap T :=
  { heap with handles := heap.handles.set r value }

/-- A write into the map at `r`. -/
def SetHeap.modifyMap (heap : SetHeap T) (r : ℕ) (f : SubjectMap T → SubjectMap T) : SetHeap T :=
  { heap with maps := heap.maps.modify r f }

/-- `Clone`: a new map with the entries of the set's map, and a new handle with its pointer.
A dangling reference, which no Go value holds, clones as empty. -/
def BaseSubjectSetRef.clone (bss : BaseSubjectSetRef T) (heap : SetHeap T) :
    BaseSubjectSetRef T × SetHeap T :=
  (⟨bss.constructor, heap.maps.length, heap.handles.length⟩,
    ⟨Heap.alloc heap.maps (heap.maps[bss.concrete]?.getD ∅),
      Heap.alloc heap.handles (heap.handles[bss.wildcard]?.getD none)⟩)

@[simp] theorem SetHeap.setHandle_maps (heap : SetHeap T) (r : ℕ) (value : Option T) :
    (heap.setHandle r value).maps = heap.maps := rfl

@[simp] theorem SetHeap.modifyMap_handles (heap : SetHeap T) (r : ℕ)
    (f : SubjectMap T → SubjectMap T) : (heap.modifyMap r f).handles = heap.handles := rfl

theorem SetHeap.read_eq_some {heap : SetHeap T} {bss : BaseSubjectSetRef T} {S : BaseSubjectSet T} :
    heap.read bss = some S ↔ heap.maps[bss.concrete]? = some S.concrete ∧
      heap.handles[bss.wildcard]? = some S.wildcard ∧ bss.constructor = S.constructor := by
  cases hm : heap.maps[bss.concrete]? <;> cases hw : heap.handles[bss.wildcard]? <;>
    cases S <;> simp [SetHeap.read, hm, hw, eq_comm]
  tauto

theorem SetHeap.Extends.read {heap heap' : SetHeap T} (h : heap.Extends heap')
    {bss : BaseSubjectSetRef T} {S : BaseSubjectSet T} (hread : heap.read bss = some S) :
    heap'.read bss = some S := by
  obtain ⟨hm, hw, hc⟩ := SetHeap.read_eq_some.1 hread
  obtain ⟨hlm, -⟩ := List.getElem?_eq_some_iff.1 hm
  obtain ⟨hlw, -⟩ := List.getElem?_eq_some_iff.1 hw
  exact SetHeap.read_eq_some.2 ⟨(h.1.2 _ hlm).trans hm, (h.2.2 _ hlw).trans hw, hc⟩

theorem foldl_modifyMap {γ : Type _} (r : ℕ) (f : γ → SubjectMap T → SubjectMap T) :
    ∀ (l : List γ) (heap : SetHeap T),
      l.foldl (fun heap e => heap.modifyMap r (f e)) heap =
        ⟨l.foldl (fun maps e => maps.modify r (f e)) heap.maps, heap.handles⟩
  | [], _ => rfl
  | e :: l, heap => by
    rw [List.foldl_cons, foldl_modifyMap r f l]
    rfl

section Clone

variable {heap : SetHeap T} {bss : BaseSubjectSetRef T} {S : BaseSubjectSet T}

theorem extends_clone (heap : SetHeap T) (bss : BaseSubjectSetRef T) :
    heap.Extends (bss.clone heap).2 :=
  ⟨Heap.extends_alloc _ _, Heap.extends_alloc _ _⟩

theorem read_clone (hread : heap.read bss = some S) :
    (bss.clone heap).2.read (bss.clone heap).1 = some S := by
  obtain ⟨hm, hw, hc⟩ := SetHeap.read_eq_some.1 hread
  refine SetHeap.read_eq_some.2 ⟨?_, ?_, hc⟩
  · simp only [BaseSubjectSetRef.clone, hm, Option.getD_some]
    exact Heap.getElem?_alloc_self _ _
  · simp only [BaseSubjectSetRef.clone, hw, Option.getD_some]
    exact Heap.getElem?_alloc_self _ _

end Clone

variable [Subject T]

/-- "Apply the parent caveat expression to the wildcard, if any", through the handle at `r`. -/
def SetHeap.applyToWildcard (heap : SetHeap T) (constructor : Constructor T)
    (parentCaveatExpr : Option CaveatExpression) (r : ℕ) : SetHeap T :=
  match heap.handles[r]?.getD none with
  | some wildcard => heap.setHandle r (some (constructor publicWildcard
      (caveatAnd parentCaveatExpr (caveatExpression wildcard)) (excludedSubjects wildcard) [wildcard]))
  | none => heap

/-- "Apply the parent caveat expression to each concrete" of the map at `r`. The loop ranges
over the map while it writes to it; it only overwrites the keys it visits, so it visits the
entries the map had when it started. -/
def SetHeap.applyToConcretes (heap : SetHeap T) (constructor : Constructor T)
    (parentCaveatExpr : Option CaveatExpression) (r : ℕ) : SetHeap T :=
  (heap.maps[r]?.getD ∅).entries.foldl (fun heap e =>
    heap.modifyMap r fun concrete => concrete.insert e.1
      (constructor e.1 (caveatAnd parentCaveatExpr (caveatExpression e.2)) [] [e.2])) heap

/-- `WithParentCaveatExpression`: the writes go to the clone's handle and map. -/
def BaseSubjectSetRef.withParentCaveatExpression (bss : BaseSubjectSetRef T)
    (parentCaveatExpr : Option CaveatExpression) (heap : SetHeap T) :
    BaseSubjectSetRef T × SetHeap T :=
  let (clone, heap) := bss.clone heap
  let heap := heap.applyToWildcard bss.constructor parentCaveatExpr clone.wildcard
  let heap := heap.applyToConcretes bss.constructor parentCaveatExpr clone.concrete
  (clone, heap)

theorem lookup_withParentCaveatExpression (S : BaseSubjectSet T) (p : Option CaveatExpression)
    (x : String) : (S.withParentCaveatExpression p).concrete.lookup x =
      (S.concrete.lookup x).map fun t => S.constructor x (caveatAnd p (caveatExpression t)) [] [t] := by
  simp only [BaseSubjectSet.withParentCaveatExpression]
  rw [AList.lookup_foldl_local _ (fun e _ => some (S.constructor e.1
      (caveatAnd p (caveatExpression e.2)) [] [e.2])) _ S.concrete.nodupKeys
    (fun e _ m => AList.lookup_insert m) (fun e _ m a ha => AList.lookup_insert_ne ha)]
  show (match S.concrete.lookup x with | some b => _ | none => _) = _
  cases S.concrete.lookup x <;> rfl

/-- Every member of the result is a member of the set under the parent caveat. -/
theorem member_withParentCaveatExpression (S : BaseSubjectSet T)
    (hc : LawfulConstructor S.constructor) (p : Option CaveatExpression) (v : Valuation)
    (x : String) : member (S.withParentCaveatExpression p) v x = (evalCaveat v p && member S v x) := by
  -- the wildcard keeps its exclusions and only its caveat is conjoined
  have hwild : (S.withParentCaveatExpression p).wildcard.any (wildcardMember v · x) =
      (evalCaveat v p && S.wildcard.any (wildcardMember v · x)) := by
    simp only [BaseSubjectSet.withParentCaveatExpression]
    cases S.wildcard with
    | none => simp
    | some w =>
      simp only [Option.map_some, Option.any_some, wildcardMember, holds_construct hc,
        excludedBy_construct hc, evalCaveat_caveatAnd]
      rw [excludedBy, holds, Bool.and_assoc]
  have hconc : ((S.withParentCaveatExpression p).concrete.lookup x).any (holds v) =
      (evalCaveat v p && (S.concrete.lookup x).any (holds v)) := by
    rw [lookup_withParentCaveatExpression]
    cases S.concrete.lookup x with
    | none => simp
    | some t =>
      rw [Option.map_some, Option.any_some, Option.any_some, holds_construct hc,
        evalCaveat_caveatAnd]
      rfl
  rw [member, member, hconc, hwild, Bool.and_or_distrib_left]

section Heap

variable {heap₀ heap : SetHeap T} {constructor : Constructor T} {p : Option CaveatExpression}
  {r : ℕ}

theorem applyToWildcard_maps : (heap.applyToWildcard constructor p r).maps = heap.maps := by
  unfold SetHeap.applyToWildcard
  split <;> rfl

theorem getElem?_applyToWildcard {w : Option T} (h : heap.handles[r]? = some w) :
    (heap.applyToWildcard constructor p r).handles[r]? = some (w.map fun wildcard =>
      constructor publicWildcard (caveatAnd p (caveatExpression wildcard)) (excludedSubjects wildcard)
        [wildcard]) := by
  have hr := (List.getElem?_eq_some_iff.1 h).1
  unfold SetHeap.applyToWildcard
  rw [h, Option.getD_some]
  cases w with
  | none => exact h
  | some wildcard => exact Heap.getElem?_set_self hr _

theorem SetHeap.Extends.applyToWildcard (h : heap₀.Extends heap) (hr : heap₀.handles.length ≤ r) :
    heap₀.Extends (heap.applyToWildcard constructor p r) := by
  unfold SetHeap.applyToWildcard
  split
  · exact ⟨h.1, h.2.set hr _⟩
  · exact h

theorem getElem?_applyToConcretes {m : SubjectMap T} (h : heap.maps[r]? = some m) :
    (heap.applyToConcretes constructor p r).maps[r]? = some (m.entries.foldl (fun m e =>
      m.insert e.1 (constructor e.1 (caveatAnd p (caveatExpression e.2)) [] [e.2])) m) := by
  rw [SetHeap.applyToConcretes, h, Option.getD_some, foldl_modifyMap, Heap.getElem?_foldl_modify, h,
    Option.map_some]

theorem applyToConcretes_handles :
    (heap.applyToConcretes constructor p r).handles = heap.handles := by
  rw [SetHeap.applyToConcretes, foldl_modifyMap]

theorem SetHeap.Extends.applyToConcretes (h : heap₀.Extends heap) (hr : heap₀.maps.length ≤ r) :
    heap₀.Extends (heap.applyToConcretes constructor p r) := by
  rw [SetHeap.applyToConcretes, foldl_modifyMap]
  exact ⟨Heap.Extends.foldl_modify hr _ _ _ h.1, h.2⟩

variable {bss : BaseSubjectSetRef T} {S : BaseSubjectSet T}

/-- The heap model reads as the functional one, in a heap that keeps every earlier cell. -/
theorem read_withParentCaveatExpression (hread : heap.read bss = some S)
    (p : Option CaveatExpression) :
    (bss.withParentCaveatExpression p heap).2.read (bss.withParentCaveatExpression p heap).1 =
        some (S.withParentCaveatExpression p) ∧
      heap.Extends (bss.withParentCaveatExpression p heap).2 := by
  obtain ⟨-, -, hc⟩ := SetHeap.read_eq_some.1 hread
  obtain ⟨hm, hw, -⟩ := SetHeap.read_eq_some.1 (read_clone hread)
  have hfresh := extends_clone heap bss
  -- the clone's cells lie past every cell of `heap`
  have hmlen : heap.maps.length ≤ (bss.clone heap).1.concrete := Nat.le_refl _
  have hwlen : heap.handles.length ≤ (bss.clone heap).1.wildcard := Nat.le_refl _
  simp only [BaseSubjectSetRef.withParentCaveatExpression]
  refine ⟨SetHeap.read_eq_some.2 ⟨?_, ?_, hc⟩, (hfresh.applyToWildcard hwlen).applyToConcretes hmlen⟩
  · rw [getElem?_applyToConcretes (by rwa [applyToWildcard_maps])]
    simp [BaseSubjectSet.withParentCaveatExpression, hc]
  · rw [applyToConcretes_handles, getElem?_applyToWildcard hw]
    simp [BaseSubjectSet.withParentCaveatExpression, hc]

end Heap

theorem with_parent_caveat_conjoins_and_leaves_receiver (heap : SetHeap T)
    (bss : BaseSubjectSetRef T) (S : BaseSubjectSet T) (hread : heap.read bss = some S)
    (hc : LawfulConstructor bss.constructor) (p : Option CaveatExpression) :
    (∃ S', (bss.withParentCaveatExpression p heap).2.read (bss.withParentCaveatExpression p heap).1 =
          some S' ∧ ∀ v x, member S' v x = (evalCaveat v p && member S v x)) ∧
      (bss.withParentCaveatExpression p heap).2.read bss = some S ∧
      heap.Extends (bss.withParentCaveatExpression p heap).2 := by
  obtain ⟨hresult, hframe⟩ := read_withParentCaveatExpression hread p
  obtain ⟨-, -, hcons⟩ := SetHeap.read_eq_some.1 hread
  exact ⟨⟨_, hresult, member_withParentCaveatExpression S (hcons ▸ hc) p⟩, hframe.read hread, hframe⟩

theorem with_parent_caveat_conjoins_and_leaves_receiver_at_alice :
    let wildcard : FoundSubject := ⟨publicWildcard, none, [⟨"bob", none, []⟩]⟩
    let alice : FoundSubject := ⟨"alice", some (.caveat ⟨"a", ⟨[]⟩⟩), []⟩
    let heap : SetHeap FoundSubject := ⟨[(∅ : SubjectMap FoundSubject).insert "alice" alice],
      [some wildcard]⟩
    let bss : BaseSubjectSetRef FoundSubject := ⟨subjectSetConstructor, 0, 0⟩
    let S : SubjectSet := ⟨subjectSetConstructor, (∅ : SubjectMap FoundSubject).insert "alice" alice,
      some wildcard⟩
    let p := some (.caveat ⟨"parent", ⟨[]⟩⟩)
    heap.read bss = some S ∧
      (∃ S', (bss.withParentCaveatExpression p heap).2.read (bss.withParentCaveatExpression p heap).1 =
          some S' ∧ ∀ v x, member S' v x = (evalCaveat v p && member S v x)) ∧
      (bss.withParentCaveatExpression p heap).2.read bss = some S ∧
      heap.Extends (bss.withParentCaveatExpression p heap).2 := by
  intro wildcard alice heap bss S p
  have hread : heap.read bss = some S := rfl
  exact ⟨hread, with_parent_caveat_conjoins_and_leaves_receiver heap bss S hread
    subjectSetConstructor_lawful p⟩

end SpiceDB.Datasets
