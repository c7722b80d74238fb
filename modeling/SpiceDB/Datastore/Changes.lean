import Mathlib.Data.List.AList
import Mathlib.Data.List.Sort
import Mathlib.Data.List.Induction
import SpiceDB.Core.Schema
import SpiceDB.Lib.AList

namespace SpiceDB.Datastore.Common

inductive Operation where
  | UNKNOWN
  | CREATE
  | TOUCH
  | DELETE
deriving DecidableEq, Repr

structure RelationTupleUpdate where
  operation : Operation
  tuple : RelationTuple
deriving DecidableEq

/-- `core.CaveatDefinition`, with its name, the one field the change tracking reads. -/
structure CaveatDefinition where
  name : String
deriving DecidableEq

/-- `datastore.SchemaDefinition`, as the type switch of `AddChangedDefinition` tells it apart. -/
inductive SchemaDefinition where
  | namespaceDefinition (definition : NamespaceDefinition)
  | caveatDefinition (definition : CaveatDefinition)

def nsPrefix : String := "n$"

def caveatPrefix : String := "c$"

/-- The two kinds of schema definitions, each with the prefix of its keys in
`definitionsChanged`. -/
inductive DefinitionKind where
  | «namespace»
  | caveat
deriving DecidableEq, Repr

def DefinitionKind.keyPrefix : DefinitionKind → String
  | .namespace => nsPrefix
  | .caveat => caveatPrefix

def SchemaDefinition.name : SchemaDefinition → String
  | .namespaceDefinition definition => definition.name
  | .caveatDefinition definition => definition.name

def SchemaDefinition.kind : SchemaDefinition → DefinitionKind
  | .namespaceDefinition _ => .namespace
  | .caveatDefinition _ => .caveat

/-- `datastore.WatchContent`, a set of bits. -/
abbrev WatchContent := ℕ

def watchRelationships : WatchContent := 1

def watchSchema : WatchContent := 2

/-- `datastore.RevisionChanges`; `IsCheckpoint`, which the change tracking leaves unset, is
left out. -/
structure RevisionChanges (R : Type _) where
  revision : R
  relationshipChanges : List RelationTupleUpdate
  changedDefinitions : List SchemaDefinition
  deletedNamespaces : List String
  deletedCaveats : List String

/-- The deleted names of one kind. -/
def RevisionChanges.deleted {R : Type _} (rc : RevisionChanges R) : DefinitionKind → List String
  | .namespace => rc.deletedNamespaces
  | .caveat => rc.deletedCaveats

structure ChangeRecord (R : Type _) where
  rev : R
  tupleTouches : AList fun _ : String => RelationTuple
  tupleDeletes : AList fun _ : String => RelationTuple
  definitionsChanged : AList fun _ : String => SchemaDefinition
  namespacesDeleted : AList fun _ : String => Unit
  caveatsDeleted : AList fun _ : String => Unit

structure Changes (R K : Type _) where
  records : AList fun _ : K => ChangeRecord R
  keyFunc : R → K
  content : WatchContent

namespace ChangeRecord

variable {R : Type _}

/-- The record `recordForRevision` makes for a revision it has not seen. -/
def new (rev : R) : ChangeRecord R := ⟨rev, ∅, ∅, ∅, ∅, ∅⟩

/-- The deleted names of one kind. -/
def deleted (record : ChangeRecord R) : DefinitionKind → AList fun _ : String => Unit
  | .namespace => record.namespacesDeleted
  | .caveat => record.caveatsDeleted

/-- The record with the deleted names of one kind replaced. -/
def setDeleted (record : ChangeRecord R) :
    DefinitionKind → (AList fun _ : String => Unit) → ChangeRecord R
  | .namespace, names => { record with namespacesDeleted := names }
  | .caveat, names => { record with caveatsDeleted := names }

/-- The `TOUCH` case of `AddRelationshipChange`: a delete of the same relationship at this
revision is dropped. -/
def touch (record : ChangeRecord R) (tplKey : String) (tpl : RelationTuple) : ChangeRecord R :=
  { record with
    tupleDeletes := record.tupleDeletes.erase tplKey
    tupleTouches := record.tupleTouches.insert tplKey tpl }

/-- The `DELETE` case: kept only when the relationship was not touched at this revision. -/
def delete (record : ChangeRecord R) (tplKey : String) (tpl : RelationTuple) : ChangeRecord R :=
  if tplKey ∈ record.tupleTouches then record
  else { record with tupleDeletes := record.tupleDeletes.insert tplKey tpl }

/-- What `AddDeletedNamespace` and `AddDeletedCaveat` write. -/
def deleteDefinition (record : ChangeRecord R) (kind : DefinitionKind) (name : String) :
    ChangeRecord R :=
  let record := { record with
    definitionsChanged := record.definitionsChanged.erase (kind.keyPrefix ++ name) }
  record.setDeleted kind ((record.deleted kind).insert name ())

/-- What `AddChangedDefinition` writes. -/
def changeDefinition (record : ChangeRecord R) (definition : SchemaDefinition) : ChangeRecord R :=
  let kind := definition.kind
  let record := record.setDeleted kind ((record.deleted kind).erase definition.name)
  { record with
    definitionsChanged :=
      record.definitionsChanged.insert (kind.keyPrefix ++ definition.name) definition }

/-- The record as `revisionChanges` reads it back: the touches, then the deletes, then the
definitions and the deleted names. -/
def asRevisionChanges (record : ChangeRecord R) : RevisionChanges R where
  revision := record.rev
  relationshipChanges :=
    record.tupleTouches.entries.map (fun e => ⟨.TOUCH, e.2⟩) ++
      record.tupleDeletes.entries.map (fun e => ⟨.DELETE, e.2⟩)
  changedDefinitions := record.definitionsChanged.entries.map (·.2)
  deletedNamespaces := record.namespacesDeleted.keys
  deletedCaveats := record.caveatsDeleted.keys

end ChangeRecord

def newChanges {R K : Type _} [DecidableEq K] (keyFunc : R → K) (content : WatchContent) :
    Changes R K :=
  ⟨∅, keyFunc, content⟩

namespace Changes

variable {R K : Type _} [DecidableEq K]

def isEmpty (ch : Changes R K) : Bool := ch.records.entries.isEmpty

/-- `recordForRevision`, with what its caller then writes to the record it returns. -/
def updateRecord (ch : Changes R K) (rev : R) (write : ChangeRecord R → ChangeRecord R) :
    Changes R K :=
  let k := ch.keyFunc rev
  let record := (ch.records.lookup k).getD (ChangeRecord.new rev)
  { ch with records := ch.records.insert k (write record) }

theorem updateRecord_records (ch : Changes R K) (rev : R) (write : ChangeRecord R → ChangeRecord R) :
    (ch.updateRecord rev write).records =
      ch.records.insert (ch.keyFunc rev)
        (write ((ch.records.lookup (ch.keyFunc rev)).getD (ChangeRecord.new rev))) := rfl

/-- `AddRelationshipChange`. The error comes with the change set, since the Go method has made
the record for the revision before it finds the operation unknown. -/
def addRelationshipChange (ch : Changes R K) (rev : R) (tpl : RelationTuple) (op : Operation) :
    Changes R K × Option String :=
  if ch.content &&& watchRelationships ≠ watchRelationships then (ch, none)
  else
    let tplKey := stringWithoutCaveat tpl
    match op with
    | .TOUCH => (ch.updateRecord rev (·.touch tplKey tpl), none)
    | .DELETE => (ch.updateRecord rev (·.delete tplKey tpl), none)
    | _ => (ch.updateRecord rev id, some (mustBugf "unknown change operation"))

/-- `AddDeletedNamespace` and `AddDeletedCaveat`, which differ in the kind only. -/
def addDeletedDefinition (ch : Changes R K) (kind : DefinitionKind) (rev : R) (name : String) :
    Changes R K :=
  if ch.content &&& watchSchema ≠ watchSchema then ch
  else ch.updateRecord rev (·.deleteDefinition kind name)

def addDeletedNamespace (ch : Changes R K) (rev : R) (namespaceName : String) : Changes R K :=
  ch.addDeletedDefinition .namespace rev namespaceName

def addDeletedCaveat (ch : Changes R K) (rev : R) (caveatName : String) : Changes R K :=
  ch.addDeletedDefinition .caveat rev caveatName

def addChangedDefinition (ch : Changes R K) (rev : R) (definition : SchemaDefinition) :
    Changes R K :=
  if ch.content &&& watchSchema ≠ watchSchema then ch
  else ch.updateRecord rev (·.changeDefinition definition)

variable [LinearOrder R]

/-- `revisionChanges`, with `boundRev = none` for `withBound = false`; `GreaterThan` is the
order of the revisions. The early returns of `nil` (no records, no record within the bound)
return what the general path returns there. The keys are sorted by `lessThanFunc`, `j` going
after `i` unless it is less. -/
def revisionChanges (ch : Changes R K) (lessThanFunc : K → K → Bool) (boundRev : Option R) :
    List (RevisionChanges R) :=
  let revisionsWithChanges :=
    (ch.records.entries.filter fun e => boundRev.all fun b => decide (e.2.rev < b)).map (·.1)
  let sorted := revisionsWithChanges.insertionSort fun i j => lessThanFunc j i = false
  sorted.filterMap fun k => (ch.records.lookup k).map ChangeRecord.asRevisionChanges

def asRevisionChanges (ch : Changes R K) (lessThanFunc : K → K → Bool) :
    List (RevisionChanges R) :=
  ch.revisionChanges lessThanFunc none

def removeAllChangesBefore (ch : Changes R K) (boundRev : R) : Changes R K :=
  { ch with records :=
      ⟨ch.records.entries.filter fun e => !decide (e.2.rev < boundRev),
        ch.records.nodupKeys.sublist List.filter_sublist⟩ }

/-- `FilterAndRemoveRevisionChanges`: the changes below the bound, and the change set without
them. -/
def filterAndRemoveRevisionChanges (ch : Changes R K) (lessThanFunc : K → K → Bool)
    (boundRev : R) : List (RevisionChanges R) × Changes R K :=
  (ch.revisionChanges lessThanFunc (some boundRev), ch.removeAllChangesBefore boundRev)

end Changes

/-- A call to the change set, as a datastore's watch code makes them. -/
inductive ChangeCall (R : Type _) where
  | addRelationshipChange (rev : R) (tpl : RelationTuple) (op : Operation)
  | addChangedDefinition (rev : R) (definition : SchemaDefinition)
  | addDeletedNamespace (rev : R) (namespaceName : String)
  | addDeletedCaveat (rev : R) (caveatName : String)

namespace ChangeCall

variable {R : Type _}

def rev : ChangeCall R → R
  | .addRelationshipChange rev _ _ => rev
  | .addChangedDefinition rev _ => rev
  | .addDeletedNamespace rev _ => rev
  | .addDeletedCaveat rev _ => rev

/-- The bit of the content mask a call is tracked under. -/
def contentBit : ChangeCall R → WatchContent
  | .addRelationshipChange .. => watchRelationships
  | _ => watchSchema

/-- Whether the change set tracks the call under the content mask. -/
def watched (content : WatchContent) (c : ChangeCall R) : Bool :=
  content &&& c.contentBit = c.contentBit

/-- A call the change set accepts without an error: a relationship change is a touch or a
delete. -/
def valid : ChangeCall R → Bool
  | .addRelationshipChange _ _ op => op = .TOUCH || op = .DELETE
  | _ => true

/-- What a call writes to the record of its revision. -/
def write : ChangeCall R → ChangeRecord R → ChangeRecord R
  | .addRelationshipChange _ tpl .TOUCH => (·.touch (stringWithoutCaveat tpl) tpl)
  | .addRelationshipChange _ tpl .DELETE => (·.delete (stringWithoutCaveat tpl) tpl)
  | .addRelationshipChange _ _ _ => id
  | .addChangedDefinition _ definition => (·.changeDefinition definition)
  | .addDeletedNamespace _ namespaceName => (·.deleteDefinition .namespace namespaceName)
  | .addDeletedCaveat _ caveatName => (·.deleteDefinition .caveat caveatName)

end ChangeCall

namespace Changes

variable {R K : Type _} [DecidableEq K]

/-- One call. -/
def apply (ch : Changes R K) : ChangeCall R → Changes R K × Option String
  | .addRelationshipChange rev tpl op => ch.addRelationshipChange rev tpl op
  | .addChangedDefinition rev definition => (ch.addChangedDefinition rev definition, none)
  | .addDeletedNamespace rev namespaceName => (ch.addDeletedNamespace rev namespaceName, none)
  | .addDeletedCaveat rev caveatName => (ch.addDeletedCaveat rev caveatName, none)

/-- The calls one after another, as the watch loops make them: the first error is returned. -/
def run (ch : Changes R K) (calls : List (ChangeCall R)) : Except String (Changes R K) :=
  calls.foldlM (fun ch c => match ch.apply c with
    | (ch, none) => pure ch
    | (_, some err) => throw err) ch

/-- A tracked call writes to the record of its revision; an untracked one changes nothing. -/
theorem apply_fst (ch : Changes R K) (c : ChangeCall R) :
    (ch.apply c).1 = if c.watched ch.content then ch.updateRecord c.rev c.write else ch := by
  cases c with
  | addRelationshipChange rev tpl op =>
    by_cases h : ch.content &&& watchRelationships = watchRelationships
    · cases op <;> simp [apply, addRelationshipChange, ChangeCall.watched,
        ChangeCall.contentBit, ChangeCall.rev, ChangeCall.write, h]
    · simp [apply, addRelationshipChange, ChangeCall.watched, ChangeCall.contentBit, h]
  | addChangedDefinition rev definition =>
    by_cases h : ch.content &&& watchSchema = watchSchema <;>
      simp [apply, addChangedDefinition, ChangeCall.watched, ChangeCall.contentBit,
        ChangeCall.rev, ChangeCall.write, h]
  | addDeletedNamespace rev namespaceName =>
    by_cases h : ch.content &&& watchSchema = watchSchema <;>
      simp [apply, addDeletedNamespace, addDeletedDefinition, ChangeCall.watched,
        ChangeCall.contentBit, ChangeCall.rev, ChangeCall.write, h]
  | addDeletedCaveat rev caveatName =>
    by_cases h : ch.content &&& watchSchema = watchSchema <;>
      simp [apply, addDeletedCaveat, addDeletedDefinition, ChangeCall.watched,
        ChangeCall.contentBit, ChangeCall.rev, ChangeCall.write, h]

theorem apply_snd_of_valid (ch : Changes R K) {c : ChangeCall R} (hc : c.valid) :
    (ch.apply c).2 = none := by
  cases c with
  | addRelationshipChange rev tpl op =>
    simp only [apply, addRelationshipChange]
    split
    · rfl
    · cases op <;> simp_all [ChangeCall.valid]
  | addChangedDefinition => rfl
  | addDeletedNamespace => rfl
  | addDeletedCaveat => rfl

theorem run_of_valid (ch : Changes R K) (calls : List (ChangeCall R))
    (hcalls : ∀ c ∈ calls, c.valid) :
    ch.run calls = .ok (calls.foldl (fun ch c => (ch.apply c).1) ch) := by
  induction calls generalizing ch with
  | nil => rfl
  | cons c calls ih =>
    have hc : (ch.apply c).2 = none := apply_snd_of_valid ch (hcalls c List.mem_cons_self)
    have hrest := ih (ch.apply c).1 fun c' hc' => hcalls c' (List.mem_cons_of_mem c hc')
    simp only [run, List.foldlM_cons, List.foldl_cons] at hrest ⊢
    rcases h : ch.apply c with ⟨ch', err⟩
    rw [h] at hc hrest
    obtain rfl : err = none := hc
    exact hrest

end Changes

namespace ChangeRecord

variable {R : Type _} (record : ChangeRecord R)

@[simp] theorem touch_deleted (tplKey tpl kind) :
    (record.touch tplKey tpl).deleted kind = record.deleted kind := by
  cases kind <;> rfl

@[simp] theorem delete_rev (tplKey tpl) : (record.delete tplKey tpl).rev = record.rev := by
  unfold delete
  split <;> rfl

@[simp] theorem delete_tupleTouches (tplKey tpl) :
    (record.delete tplKey tpl).tupleTouches = record.tupleTouches := by
  unfold delete
  split <;> rfl

theorem delete_tupleDeletes (tplKey tpl) :
    (record.delete tplKey tpl).tupleDeletes =
      if tplKey ∈ record.tupleTouches then record.tupleDeletes
      else record.tupleDeletes.insert tplKey tpl := by
  unfold delete
  split <;> rfl

@[simp] theorem delete_definitionsChanged (tplKey tpl) :
    (record.delete tplKey tpl).definitionsChanged = record.definitionsChanged := by
  unfold delete
  split <;> rfl

@[simp] theorem delete_deleted (tplKey tpl kind) :
    (record.delete tplKey tpl).deleted kind = record.deleted kind := by
  unfold delete
  split
  · rfl
  · cases kind <;> rfl

@[simp] theorem deleteDefinition_rev (kind name) :
    (record.deleteDefinition kind name).rev = record.rev := by
  cases kind <;> rfl

@[simp] theorem deleteDefinition_tupleTouches (kind name) :
    (record.deleteDefinition kind name).tupleTouches = record.tupleTouches := by
  cases kind <;> rfl

@[simp] theorem deleteDefinition_tupleDeletes (kind name) :
    (record.deleteDefinition kind name).tupleDeletes = record.tupleDeletes := by
  cases kind <;> rfl

@[simp] theorem deleteDefinition_definitionsChanged (kind name) :
    (record.deleteDefinition kind name).definitionsChanged =
      record.definitionsChanged.erase (kind.keyPrefix ++ name) := by
  cases kind <;> rfl

@[simp] theorem deleteDefinition_deleted (kind name kind') :
    (record.deleteDefinition kind name).deleted kind' =
      if kind' = kind then (record.deleted kind).insert name () else record.deleted kind' := by
  cases kind <;> cases kind' <;> rfl

@[simp] theorem changeDefinition_rev (definition) :
    (record.changeDefinition definition).rev = record.rev := by
  cases definition <;> rfl

@[simp] theorem changeDefinition_tupleTouches (definition) :
    (record.changeDefinition definition).tupleTouches = record.tupleTouches := by
  cases definition <;> rfl

@[simp] theorem changeDefinition_tupleDeletes (definition) :
    (record.changeDefinition definition).tupleDeletes = record.tupleDeletes := by
  cases definition <;> rfl

@[simp] theorem changeDefinition_definitionsChanged (definition : SchemaDefinition) :
    (record.changeDefinition definition).definitionsChanged =
      record.definitionsChanged.insert (definition.kind.keyPrefix ++ definition.name)
        definition := by
  cases definition <;> rfl

@[simp] theorem changeDefinition_deleted (definition : SchemaDefinition) (kind) :
    (record.changeDefinition definition).deleted kind =
      if kind = definition.kind then (record.deleted definition.kind).erase definition.name
      else record.deleted kind := by
  cases definition <;> cases kind <;> rfl

end ChangeRecord
theorem keyPrefix_append_inj {kind kind' : DefinitionKind} {name name' : String}
    (h : kind.keyPrefix ++ name = kind'.keyPrefix ++ name') : kind = kind' ∧ name = name' := by
  have hl := congrArg String.toList h
  simp only [String.toList_append] at hl
  cases kind <;> cases kind' <;> simp_all [DefinitionKind.keyPrefix, nsPrefix, caveatPrefix]

namespace ChangeRecord

variable {R : Type _} (record : ChangeRecord R)

theorem lookup_definitionsChanged_deleteDefinition (k : DefinitionKind) (n : String)
    (kind : DefinitionKind) (name : String) :
    (record.deleteDefinition k n).definitionsChanged.lookup (kind.keyPrefix ++ name) =
      if kind = k ∧ n = name then none
      else record.definitionsChanged.lookup (kind.keyPrefix ++ name) := by
  rw [deleteDefinition_definitionsChanged]
  by_cases h : kind = k ∧ n = name
  · obtain ⟨rfl, rfl⟩ := h
    simp [AList.lookup_erase]
  · have hne : k.keyPrefix ++ n ≠ kind.keyPrefix ++ name :=
      fun heq => h ⟨(keyPrefix_append_inj heq).1.symm, (keyPrefix_append_inj heq).2⟩
    rw [if_neg h, AList.lookup_erase_ne (Ne.symm hne)]

theorem lookup_deleted_deleteDefinition (k : DefinitionKind) (n : String) (kind : DefinitionKind)
    (name : String) :
    ((record.deleteDefinition k n).deleted kind).lookup name =
      if kind = k ∧ n = name then some () else (record.deleted kind).lookup name := by
  rw [deleteDefinition_deleted]
  by_cases hkind : kind = k
  · subst hkind
    by_cases hn : n = name
    · subst hn
      simp [AList.lookup_insert]
    · simp [hn, AList.lookup_insert_ne (Ne.symm hn)]
  · simp [hkind]

end ChangeRecord

namespace ChangeCall

variable {R : Type _}

/-- The tuple of a relationship call with operation `op` under the key `tplKey`. -/
def tupleFor (op : Operation) (tplKey : String) : ChangeCall R → Option RelationTuple
  | .addRelationshipChange _ tpl op' =>
    if op' = op ∧ stringWithoutCaveat tpl = tplKey then some tpl else none
  | _ => none

/-- What a call says of the definition `name` of kind `kind`: changed to a definition
(`some (some d)`), deleted (`some none`), or nothing. -/
def definitionFor (kind : DefinitionKind) (name : String) :
    ChangeCall R → Option (Option SchemaDefinition)
  | .addChangedDefinition _ d => if d.kind = kind ∧ d.name = name then some (some d) else none
  | .addDeletedNamespace _ n => if kind = .namespace ∧ n = name then some none else none
  | .addDeletedCaveat _ n => if kind = .caveat ∧ n = name then some none else none
  | _ => none

theorem key_of_tupleFor {op : Operation} {tplKey : String} {c : ChangeCall R}
    {tpl : RelationTuple} (h : c.tupleFor op tplKey = some tpl) :
    stringWithoutCaveat tpl = tplKey := by
  cases c with
  | addRelationshipChange rev tpl' op' =>
    simp only [tupleFor] at h
    split at h
    · cases h
      simp_all
    · cases h
  | _ => cases h

theorem kind_name_of_definitionFor {kind : DefinitionKind} {name : String} {c : ChangeCall R}
    {d : SchemaDefinition} (h : c.definitionFor kind name = some (some d)) :
    d.kind = kind ∧ d.name = name := by
  cases c with
  | addChangedDefinition rev d' =>
    simp only [definitionFor] at h
    split at h
    · cases h
      assumption
    · cases h
  | addRelationshipChange => cases h
  | addDeletedNamespace rev n =>
    simp only [definitionFor] at h
    split at h <;> simp at h
  | addDeletedCaveat rev n =>
    simp only [definitionFor] at h
    split at h <;> simp at h

/-- A call writes the touch of the key it touches, and leaves the other touches alone. -/
theorem lookup_tupleTouches_write (c : ChangeCall R) (record : ChangeRecord R) (k : String) :
    (c.write record).tupleTouches.lookup k =
      (c.tupleFor .TOUCH k).elim (record.tupleTouches.lookup k) some := by
  cases c with
  | addRelationshipChange rev tpl op =>
    cases op with
    | TOUCH =>
      simp only [write, tupleFor, true_and, ChangeRecord.touch]
      by_cases h : stringWithoutCaveat tpl = k
      · subst h
        simp [AList.lookup_insert]
      · simp [h, AList.lookup_insert_ne (Ne.symm h)]
    | DELETE => simp [write, tupleFor]
    | UNKNOWN => simp [write, tupleFor]
    | CREATE => simp [write, tupleFor]
  | addChangedDefinition rev d => simp [write, tupleFor]
  | addDeletedNamespace rev n => simp [write, tupleFor]
  | addDeletedCaveat rev n => simp [write, tupleFor]

/-- A call writes the definition it changes or deletes, and leaves the others alone. -/
theorem lookup_definitionsChanged_write (c : ChangeCall R) (record : ChangeRecord R)
    (kind : DefinitionKind) (name : String) :
    (c.write record).definitionsChanged.lookup (kind.keyPrefix ++ name) =
      (c.definitionFor kind name).elim
        (record.definitionsChanged.lookup (kind.keyPrefix ++ name)) id := by
  cases c with
  | addRelationshipChange rev tpl op =>
    cases op <;> simp [write, definitionFor, ChangeRecord.touch]
  | addChangedDefinition rev d =>
    simp only [write, definitionFor, ChangeRecord.changeDefinition_definitionsChanged]
    by_cases h : d.kind = kind ∧ d.name = name
    · obtain ⟨rfl, rfl⟩ := h
      simp [AList.lookup_insert]
    · have hne : d.kind.keyPrefix ++ d.name ≠ kind.keyPrefix ++ name :=
        fun heq => h (keyPrefix_append_inj heq)
      simp [h, AList.lookup_insert_ne (Ne.symm hne)]
  | addDeletedNamespace rev n =>
    simp only [write, definitionFor]
    rw [ChangeRecord.lookup_definitionsChanged_deleteDefinition]
    by_cases h : kind = .namespace ∧ n = name <;> simp [h]
  | addDeletedCaveat rev n =>
    simp only [write, definitionFor]
    rw [ChangeRecord.lookup_definitionsChanged_deleteDefinition]
    by_cases h : kind = .caveat ∧ n = name <;> simp [h]

/-- A call deletes the relationship it touches; a delete of a relationship that is not touched
is written; everything else leaves the deletes alone. -/
theorem lookup_tupleDeletes_write (c : ChangeCall R) (record : ChangeRecord R) (k : String) :
    (c.write record).tupleDeletes.lookup k =
      if (c.tupleFor .TOUCH k).isSome then none
      else if k ∈ record.tupleTouches then record.tupleDeletes.lookup k
      else (c.tupleFor .DELETE k).elim (record.tupleDeletes.lookup k) some := by
  cases c with
  | addRelationshipChange rev tpl op =>
    by_cases hk : stringWithoutCaveat tpl = k
    · subst hk
      cases op with
      | TOUCH => simp [write, tupleFor, ChangeRecord.touch, AList.lookup_erase]
      | DELETE =>
        simp only [write, tupleFor, ChangeRecord.delete_tupleDeletes]
        split <;> simp [AList.lookup_insert]
      | UNKNOWN => simp [write, tupleFor]
      | CREATE => simp [write, tupleFor]
    · cases op with
      | TOUCH =>
        simp [write, tupleFor, hk, ChangeRecord.touch, AList.lookup_erase_ne (Ne.symm hk)]
      | DELETE =>
        simp only [write, tupleFor, ChangeRecord.delete_tupleDeletes]
        split <;> simp [hk, AList.lookup_insert_ne (Ne.symm hk)]
      | UNKNOWN => simp [write, tupleFor]
      | CREATE => simp [write, tupleFor]
  | addChangedDefinition rev d => simp [write, tupleFor]
  | addDeletedNamespace rev n => simp [write, tupleFor]
  | addDeletedCaveat rev n => simp [write, tupleFor]

/-- A call marks the name it deletes, unmarks the name it changes, and leaves the others. -/
theorem lookup_deleted_write (c : ChangeCall R) (record : ChangeRecord R) (kind : DefinitionKind)
    (name : String) :
    ((c.write record).deleted kind).lookup name =
      (c.definitionFor kind name).elim ((record.deleted kind).lookup name)
        fun o => o.elim (some ()) fun _ => none := by
  cases c with
  | addRelationshipChange rev tpl op =>
    cases op <;> simp [write, definitionFor]
  | addChangedDefinition rev d =>
    simp only [write, definitionFor, ChangeRecord.changeDefinition_deleted]
    by_cases h : d.kind = kind ∧ d.name = name
    · obtain ⟨rfl, rfl⟩ := h
      simp [AList.lookup_erase]
    · by_cases hkind : kind = d.kind
      · subst hkind
        have hname : d.name ≠ name := fun hn => h ⟨rfl, hn⟩
        simp [hname, AList.lookup_erase_ne (Ne.symm hname)]
      · simp [h, hkind]
  | addDeletedNamespace rev n =>
    simp only [write, definitionFor]
    rw [ChangeRecord.lookup_deleted_deleteDefinition]
    by_cases h : kind = .namespace ∧ n = name <;> simp [h]
  | addDeletedCaveat rev n =>
    simp only [write, definitionFor]
    rw [ChangeRecord.lookup_deleted_deleteDefinition]
    by_cases h : kind = .caveat ∧ n = name <;> simp [h]

theorem rev_write (c : ChangeCall R) (record : ChangeRecord R) :
    (c.write record).rev = record.rev := by
  cases c with
  | addRelationshipChange rev tpl op => cases op <;> simp [write, ChangeRecord.touch]
  | addChangedDefinition => simp [write]
  | addDeletedNamespace => simp [write]
  | addDeletedCaveat => simp [write]

/-- Every changed definition sits under its own prefixed name. -/
def DefinitionKeys (record : ChangeRecord R) : Prop :=
  ∀ k d, record.definitionsChanged.lookup k = some d → k = d.kind.keyPrefix ++ d.name

theorem DefinitionKeys.deleteDefinition {record : ChangeRecord R} (h : DefinitionKeys record)
    (kind : DefinitionKind) (n : String) : DefinitionKeys (record.deleteDefinition kind n) := by
  intro k d hk
  rw [ChangeRecord.deleteDefinition_definitionsChanged] at hk
  by_cases hkey : k = kind.keyPrefix ++ n
  · subst hkey
    simp [AList.lookup_erase] at hk
  · exact h k d (by rwa [AList.lookup_erase_ne hkey] at hk)

theorem definitionKeys_write (c : ChangeCall R) {record : ChangeRecord R}
    (h : DefinitionKeys record) : DefinitionKeys (c.write record) := by
  intro k d hk
  cases c with
  | addRelationshipChange rev tpl op =>
    cases op <;> simp [write, ChangeRecord.touch] at hk <;> exact h k d hk
  | addChangedDefinition rev d' =>
    simp only [write, ChangeRecord.changeDefinition_definitionsChanged] at hk
    by_cases hkey : k = d'.kind.keyPrefix ++ d'.name
    · subst hkey
      rw [AList.lookup_insert] at hk
      cases hk
      rfl
    · rw [AList.lookup_insert_ne hkey] at hk
      exact h k d hk
  | addDeletedNamespace rev n => exact h.deleteDefinition .namespace n k d hk
  | addDeletedCaveat rev n => exact h.deleteDefinition .caveat n k d hk

end ChangeCall

section Record

variable {R : Type _}

/-- The record that the calls `cs` made at the revision `r` write, from the fresh one. -/
def recordOf (r : R) (cs : List (ChangeCall R)) : ChangeRecord R :=
  cs.foldl (fun record c => c.write record) (ChangeRecord.new r)

/-- The update that the calls `cs` at one revision leave for the relationship `tplKey`: its
last touch, or else its last delete. -/
def lastUpdate (cs : List (ChangeCall R)) (tplKey : String) : Option RelationTupleUpdate :=
  match (cs.filterMap (·.tupleFor .TOUCH tplKey)).getLast? with
  | some tpl => some ⟨.TOUCH, tpl⟩
  | none => (cs.filterMap (·.tupleFor .DELETE tplKey)).getLast?.map (⟨.DELETE, ·⟩)

/-- The last call of `cs` for the definition `name` of kind `kind`: a change to a definition,
or a deletion (`some none`). -/
def lastDefinition (cs : List (ChangeCall R)) (kind : DefinitionKind) (name : String) :
    Option (Option SchemaDefinition) :=
  (cs.filterMap (·.definitionFor kind name)).getLast?

/-- What reading back the record of one revision has to give for the calls `cs` made at it:
each relationship once, as `lastUpdate` says, and each definition name in at most one list, as
its last call says. -/
structure Coalesced (cs : List (ChangeCall R)) (rc : RevisionChanges R) : Prop where
  relationships_nodup : (rc.relationshipChanges.map fun u => stringWithoutCaveat u.tuple).Nodup
  mem_relationshipChanges : ∀ u, u ∈ rc.relationshipChanges ↔
    lastUpdate cs (stringWithoutCaveat u.tuple) = some u
  definitions_nodup : (rc.changedDefinitions.map fun d => (d.kind, d.name)).Nodup
  mem_changedDefinitions : ∀ d, d ∈ rc.changedDefinitions ↔
    lastDefinition cs d.kind d.name = some (some d)
  deleted_nodup : ∀ kind, (rc.deleted kind).Nodup
  mem_deleted : ∀ kind name, name ∈ rc.deleted kind ↔ lastDefinition cs kind name = some none

theorem recordOf_concat (r : R) (cs : List (ChangeCall R)) (c : ChangeCall R) :
    recordOf r (cs ++ [c]) = c.write (recordOf r cs) := by
  rw [recordOf, List.foldl_concat]
  rfl

theorem rev_recordOf (r : R) (cs : List (ChangeCall R)) : (recordOf r cs).rev = r :=
  List.foldl_invariant (fun record : ChangeRecord R => record.rev = r) cs _
    (fun record c _ h => (ChangeCall.rev_write c record).trans h) rfl

theorem lookup_tupleTouches_recordOf (r : R) (cs : List (ChangeCall R)) (k : String) :
    (recordOf r cs).tupleTouches.lookup k = (cs.filterMap (·.tupleFor .TOUCH k)).getLast? := by
  rw [recordOf, List.get_foldl_of_last_write (fun record : ChangeRecord R => record.tupleTouches.lookup k)
    (ChangeCall.tupleFor .TOUCH k) some (fun record c => ChangeCall.lookup_tupleTouches_write c record k)]
  cases (cs.filterMap (·.tupleFor .TOUCH k)).getLast? <;> rfl

theorem lookup_tupleDeletes_recordOf (r : R) (cs : List (ChangeCall R)) (k : String) :
    (recordOf r cs).tupleDeletes.lookup k =
      if cs.filterMap (·.tupleFor .TOUCH k) = [] then
        (cs.filterMap (·.tupleFor .DELETE k)).getLast?
      else none := by
  induction cs using List.reverseRec with
  | nil => rfl
  | append_singleton cs c ih =>
    -- the touches so far decide whether a delete of `k` is still written
    have hmem : k ∈ (recordOf r cs).tupleTouches ↔ cs.filterMap (·.tupleFor .TOUCH k) ≠ [] := by
      rw [← AList.lookup_isSome, lookup_tupleTouches_recordOf, Option.isSome_iff_ne_none, ne_eq,
        List.getLast?_eq_none_iff]
    rw [recordOf_concat, ChangeCall.lookup_tupleDeletes_write, List.filterMap_append,
      List.filterMap_append, ih]
    cases hT : c.tupleFor .TOUCH k with
    | some tpl => simp [hT]
    | none =>
      by_cases hcs : cs.filterMap (·.tupleFor .TOUCH k) = []
      · cases hD : c.tupleFor .DELETE k <;> simp [hmem, hcs, hT, hD]
      · simp [hmem, hcs, hT]

theorem lookup_definitionsChanged_recordOf (r : R) (cs : List (ChangeCall R))
    (kind : DefinitionKind) (name : String) :
    (recordOf r cs).definitionsChanged.lookup (kind.keyPrefix ++ name) =
      (lastDefinition cs kind name).join := by
  rw [recordOf, List.get_foldl_of_last_write
    (fun record : ChangeRecord R => record.definitionsChanged.lookup (kind.keyPrefix ++ name))
    (ChangeCall.definitionFor kind name) id
    (fun record c => ChangeCall.lookup_definitionsChanged_write c record kind name), lastDefinition]
  cases (cs.filterMap (·.definitionFor kind name)).getLast? <;> rfl

theorem lookup_deleted_recordOf (r : R) (cs : List (ChangeCall R)) (kind : DefinitionKind)
    (name : String) :
    ((recordOf r cs).deleted kind).lookup name =
      (lastDefinition cs kind name).elim none fun o => o.elim (some ()) fun _ => none := by
  rw [recordOf, List.get_foldl_of_last_write
    (fun record : ChangeRecord R => (record.deleted kind).lookup name)
    (ChangeCall.definitionFor kind name) (fun o => o.elim (some ()) fun _ => none)
    (fun record c => ChangeCall.lookup_deleted_write c record kind name), lastDefinition]
  cases kind <;> rfl

theorem definitionKeys_recordOf (r : R) (cs : List (ChangeCall R)) :
    ChangeCall.DefinitionKeys (recordOf r cs) :=
  List.foldl_invariant ChangeCall.DefinitionKeys cs _
    (fun _ c _ h => ChangeCall.definitionKeys_write c h) (fun _ _ h => by cases h)

theorem key_of_lookup_tupleTouches {r : R} {cs : List (ChangeCall R)} {k : String}
    {tpl : RelationTuple} (h : (recordOf r cs).tupleTouches.lookup k = some tpl) :
    k = stringWithoutCaveat tpl := by
  rw [lookup_tupleTouches_recordOf] at h
  obtain ⟨c, -, hc⟩ := List.mem_filterMap.mp (List.mem_of_getLast? h)
  exact (ChangeCall.key_of_tupleFor hc).symm

theorem key_of_lookup_tupleDeletes {r : R} {cs : List (ChangeCall R)} {k : String}
    {tpl : RelationTuple} (h : (recordOf r cs).tupleDeletes.lookup k = some tpl) :
    k = stringWithoutCaveat tpl := by
  rw [lookup_tupleDeletes_recordOf] at h
  split at h
  · obtain ⟨c, -, hc⟩ := List.mem_filterMap.mp (List.mem_of_getLast? h)
    exact (ChangeCall.key_of_tupleFor hc).symm
  · cases h

/-- A relationship is reported as the last call for it says. -/
theorem mem_relationshipChanges_recordOf (r : R) (cs : List (ChangeCall R))
    (u : RelationTupleUpdate) :
    u ∈ (recordOf r cs).asRevisionChanges.relationshipChanges ↔
      lastUpdate cs (stringWithoutCaveat u.tuple) = some u := by
  obtain ⟨op, tpl⟩ := u
  have hT := AList.mem_values_iff_lookup (recordOf r cs).tupleTouches stringWithoutCaveat
    (fun _ _ h => key_of_lookup_tupleTouches h) tpl
  have hD := AList.mem_values_iff_lookup (recordOf r cs).tupleDeletes stringWithoutCaveat
    (fun _ _ h => key_of_lookup_tupleDeletes h) tpl
  rw [lookup_tupleTouches_recordOf] at hT
  rw [lookup_tupleDeletes_recordOf] at hD
  have hrc : (recordOf r cs).asRevisionChanges.relationshipChanges =
      ((recordOf r cs).tupleTouches.entries.map (·.2)).map (⟨.TOUCH, ·⟩) ++
        ((recordOf r cs).tupleDeletes.entries.map (·.2)).map (⟨.DELETE, ·⟩) := by
    simp only [ChangeRecord.asRevisionChanges, List.map_map]
    rfl
  rw [hrc, List.mem_append, List.mem_map, List.mem_map]
  simp only [RelationTupleUpdate.mk.injEq]
  -- the touches decide: with one, the update is a touch, and without, the last delete
  unfold lastUpdate
  cases hlast : (cs.filterMap (·.tupleFor .TOUCH (stringWithoutCaveat tpl))).getLast? with
  | some t =>
    have hne : cs.filterMap (·.tupleFor .TOUCH (stringWithoutCaveat tpl)) ≠ [] := fun h => by
      rw [List.getLast?_eq_none_iff.mpr h] at hlast
      cases hlast
    simp only [hlast, hne, if_false] at hT hD
    constructor
    · rintro (⟨t', ht', rfl, rfl⟩ | ⟨t', ht', rfl, rfl⟩)
      · have := hT.mp ht'
        simp_all
      · simp_all
    · intro h
      simp only [Option.some.injEq, RelationTupleUpdate.mk.injEq] at h
      obtain ⟨rfl, rfl⟩ := h
      exact Or.inl ⟨t, hT.mpr rfl, rfl, rfl⟩
  | none =>
    have he : cs.filterMap (·.tupleFor .TOUCH (stringWithoutCaveat tpl)) = [] :=
      List.getLast?_eq_none_iff.mp hlast
    simp only [he, if_true] at hT hD
    constructor
    · rintro (⟨t', ht', rfl, rfl⟩ | ⟨t', ht', rfl, rfl⟩)
      · simp_all
      · simp [hD.mp ht']
    · intro h
      obtain ⟨t', ht', he'⟩ := Option.map_eq_some_iff.mp h
      simp only [RelationTupleUpdate.mk.injEq] at he'
      obtain ⟨rfl, rfl⟩ := he'
      exact Or.inr ⟨t', hD.mpr ht', rfl, rfl⟩

/-- No relationship is reported twice. -/
theorem relationships_nodup_recordOf (r : R) (cs : List (ChangeCall R)) :
    ((recordOf r cs).asRevisionChanges.relationshipChanges.map
      fun u => stringWithoutCaveat u.tuple).Nodup := by
  have hkeys : (recordOf r cs).asRevisionChanges.relationshipChanges.map
      (fun u => stringWithoutCaveat u.tuple) =
        (recordOf r cs).tupleTouches.keys ++ (recordOf r cs).tupleDeletes.keys := by
    rw [← AList.map_values_eq_keys (recordOf r cs).tupleTouches stringWithoutCaveat
        (fun _ _ h => key_of_lookup_tupleTouches h),
      ← AList.map_values_eq_keys (recordOf r cs).tupleDeletes stringWithoutCaveat
        (fun _ _ h => key_of_lookup_tupleDeletes h)]
    simp only [ChangeRecord.asRevisionChanges, List.map_append, List.map_map]
    rfl
  rw [hkeys, List.nodup_append]
  refine ⟨AList.keys_nodup _, AList.keys_nodup _, fun k hkT k' hkD hkk => ?_⟩
  subst hkk
  -- a touched relationship has no delete left
  have hT := AList.lookup_isSome.mpr (AList.mem_keys.mpr hkT)
  have hD := AList.lookup_isSome.mpr (AList.mem_keys.mpr hkD)
  rw [lookup_tupleTouches_recordOf, Option.isSome_iff_ne_none, ne_eq,
    List.getLast?_eq_none_iff] at hT
  rw [lookup_tupleDeletes_recordOf, if_neg hT] at hD
  cases hD

theorem mem_changedDefinitions_recordOf (r : R) (cs : List (ChangeCall R)) (d : SchemaDefinition) :
    d ∈ (recordOf r cs).asRevisionChanges.changedDefinitions ↔
      lastDefinition cs d.kind d.name = some (some d) := by
  rw [← Option.join_eq_some_iff, ← lookup_definitionsChanged_recordOf r]
  exact AList.mem_values_iff_lookup (recordOf r cs).definitionsChanged
    (fun d => d.kind.keyPrefix ++ d.name) (definitionKeys_recordOf r cs) d

theorem definitions_nodup_recordOf (r : R) (cs : List (ChangeCall R)) :
    ((recordOf r cs).asRevisionChanges.changedDefinitions.map fun d => (d.kind, d.name)).Nodup := by
  -- the pairs determine the keys, which are distinct
  apply List.Nodup.of_map fun p : DefinitionKind × String => p.1.keyPrefix ++ p.2
  rw [List.map_map]
  have hkeys := AList.map_values_eq_keys (recordOf r cs).definitionsChanged
    (fun d : SchemaDefinition => d.kind.keyPrefix ++ d.name) (definitionKeys_recordOf r cs)
  simp only [ChangeRecord.asRevisionChanges] at hkeys ⊢
  rw [show ((fun p : DefinitionKind × String => p.1.keyPrefix ++ p.2) ∘
      fun d : SchemaDefinition => (d.kind, d.name)) = fun d => d.kind.keyPrefix ++ d.name from rfl,
    hkeys]
  exact AList.keys_nodup _

theorem deleted_asRevisionChanges (record : ChangeRecord R) (kind : DefinitionKind) :
    record.asRevisionChanges.deleted kind = (record.deleted kind).keys := by
  cases kind <;> rfl

theorem mem_deleted_recordOf (r : R) (cs : List (ChangeCall R)) (kind : DefinitionKind)
    (name : String) :
    name ∈ (recordOf r cs).asRevisionChanges.deleted kind ↔
      lastDefinition cs kind name = some none := by
  rw [deleted_asRevisionChanges, ← AList.mem_keys, ← AList.lookup_isSome,
    lookup_deleted_recordOf]
  rcases lastDefinition cs kind name with _ | _ | d <;> simp

theorem coalesced_recordOf (r : R) (cs : List (ChangeCall R)) :
    Coalesced cs (recordOf r cs).asRevisionChanges where
  relationships_nodup := relationships_nodup_recordOf r cs
  mem_relationshipChanges := mem_relationshipChanges_recordOf r cs
  definitions_nodup := definitions_nodup_recordOf r cs
  mem_changedDefinitions := mem_changedDefinitions_recordOf r cs
  deleted_nodup kind := by
    rw [deleted_asRevisionChanges]
    exact AList.keys_nodup _
  mem_deleted := mem_deleted_recordOf r cs

end Record

end SpiceDB.Datastore.Common
