import Mathlib.Data.List.AList
import SpiceDB.Core.Tuple
import SpiceDB.Caveats.Builder

namespace SpiceDB.Datasets

open Caveats

/-- `datasets.Subject[T]`: what a set reads from its elements. -/
class Subject (T : Type) where
  subjectId : T → String
  caveatExpression : T → Option CaveatExpression
  excludedSubjects : T → List T

export Subject (subjectId caveatExpression excludedSubjects)

/-- `datasets.constructor[T]`: builds an element from an id, a caveat, exclusions and the
elements it was combined from. -/
abbrev Constructor (T : Type) := String → Option CaveatExpression → List T → List T → T

/-- The Go map `map[string]T` of concrete subjects. -/
abbrev SubjectMap (T : Type) := AList (fun _ : String => T)

structure BaseSubjectSet (T : Type) where
  constructor : Constructor T
  concrete : SubjectMap T
  wildcard : Option T

variable {T : Type} [Subject T]

def newBaseSubjectSet (constructor : Constructor T) : BaseSubjectSet T :=
  ⟨constructor, ∅, none⟩

/-- The message of the `MustBugf` raised for a wildcard among exclusions. -/
def wildcardExclusionError : String := "wildcards are not allowed in exclusions"

/-- `exclusionsMapFor`: the exclusions of a wildcard by subject id, later ones winning. -/
def exclusionsMapFor (wildcard : T) : SubjectMap T :=
  (excludedSubjects wildcard).foldl (fun m e => m.insert (subjectId e) e) ∅

/-- The body of the exclusion loop of `unionWildcardWithConcrete`: an exclusion of the added
concrete is dropped when the concrete is unconditional, and otherwise made conditional on
the concrete being absent. -/
def unionExclusionWithConcrete (adding : T) (constructor : Constructor T) (existingExclusion : T) :
    Option T :=
  if subjectId existingExclusion = subjectId adding then
    if (caveatExpression adding).isNone then none
    else some (constructor (subjectId adding)
      (caveatAnd (caveatExpression existingExclusion) (caveatInvert (caveatExpression adding)))
      [] [existingExclusion, adding])
  else some existingExclusion

def unionWildcardWithConcrete (existing : Option T) (adding : T) (constructor : Constructor T) :
    Option T :=
  existing.map fun existingWildcard =>
    constructor publicWildcard (caveatExpression existingWildcard)
      ((excludedSubjects existingWildcard).filterMap (unionExclusionWithConcrete adding constructor))
      [existingWildcard]

def unionConcreteWithConcrete (existing adding : Option T) (constructor : Constructor T) :
    Option T :=
  match existing, adding with
  | none, _ => adding
  | _, none => existing
  | some existingConcrete, some addingConcrete =>
    some (constructor (subjectId existingConcrete)
      (shortcircuitedOr (caveatExpression existingConcrete) (caveatExpression addingConcrete))
      [] [existingConcrete, addingConcrete])

/-- `setConcrete`: deletes under the given id, or stores the subject under its own id. -/
def BaseSubjectSet.setConcrete (bss : BaseSubjectSet T) (subjectID : String) :
    Option T → BaseSubjectSet T
  | none => { bss with concrete := bss.concrete.erase subjectID }
  | some subject => { bss with concrete := bss.concrete.insert (subjectId subject) subject }

@[simp] theorem BaseSubjectSet.setConcrete_wildcard (bss : BaseSubjectSet T) (id : String)
    (o : Option T) : (bss.setConcrete id o).wildcard = bss.wildcard := by
  cases o <;> rfl

@[simp] theorem BaseSubjectSet.setConcrete_constructor (bss : BaseSubjectSet T) (id : String)
    (o : Option T) : (bss.setConcrete id o).constructor = bss.constructor := by
  cases o <;> rfl

/-- The branch of `Add` for a subject that is not a wildcard; it cannot fail. -/
def BaseSubjectSet.addConcrete (bss : BaseSubjectSet T) (foundSubject : T) : BaseSubjectSet T :=
  let bss := bss.setConcrete (subjectId foundSubject)
    (unionConcreteWithConcrete (bss.concrete.lookup (subjectId foundSubject)) (some foundSubject)
      bss.constructor)
  { bss with wildcard := unionWildcardWithConcrete bss.wildcard foundSubject bss.constructor }

/-- The loop shared by the wildcard helpers: each exclusion is checked not to be a wildcard
and added to a set of concretes (so `Add` takes its concrete branch). -/
def BaseSubjectSet.addExclusions (bss : BaseSubjectSet T) : List T → Except String (BaseSubjectSet T)
  | [] => pure bss
  | excludedSubject :: rest =>
    if subjectId excludedSubject = publicWildcard then throw wildcardExclusionError
    else (bss.addConcrete excludedSubject).addExclusions rest

/-- `AsSlice`: the concretes followed by the wildcard. -/
def BaseSubjectSet.asSlice (bss : BaseSubjectSet T) : List T :=
  bss.concrete.entries.map Sigma.snd ++ bss.wildcard.toList

def intersectConcreteWithConcrete (first : T) (second : Option T) (constructor : Constructor T) :
    Option T :=
  second.map fun secondConcrete =>
    constructor (subjectId first)
      (caveatAnd (caveatExpression first) (caveatExpression secondConcrete)) [] [first, secondConcrete]

/-- `intersectWildcardWithWildcard`: `&&` of the caveats, union of the exclusions. -/
def intersectWildcardWithWildcard (first second : Option T) (constructor : Constructor T) :
    Except String (Option T) :=
  match first, second with
  | some firstWildcard, some secondWildcard => do
    let concreteExclusions ← (newBaseSubjectSet constructor).addExclusions
      (excludedSubjects firstWildcard)
    let concreteExclusions ← concreteExclusions.addExclusions (excludedSubjects secondWildcard)
    pure (some (constructor publicWildcard
      (caveatAnd (caveatExpression firstWildcard) (caveatExpression secondWildcard))
      concreteExclusions.asSlice [firstWildcard, secondWildcard]))
  | _, _ => pure none

/-- `intersectConcreteWithWildcard`. Its four cases are exhaustive, so the `MustBugf` of the
`default` case is unreachable and the function cannot fail. -/
def intersectConcreteWithWildcard (concrete : T) (wildcard : Option T) (constructor : Constructor T) :
    Option T :=
  wildcard.bind fun wildcardToIntersect =>
    match (exclusionsMapFor wildcardToIntersect).lookup (subjectId concrete) with
    | none =>
      if (caveatExpression wildcardToIntersect).isNone then some concrete
      else some (constructor (subjectId concrete)
        (caveatAnd (caveatExpression concrete) (caveatExpression wildcardToIntersect)) []
        [concrete, wildcardToIntersect])
    | some exclusion =>
      if (caveatExpression exclusion).isNone then none
      else some (constructor (subjectId concrete)
        (caveatAnd (caveatExpression concrete)
          (caveatAnd (caveatExpression wildcardToIntersect)
            (caveatInvert (caveatExpression exclusion)))) []
        [concrete, wildcardToIntersect, exclusion])

/-- One step of the first loop of `IntersectionDifference`, over this set's concretes. -/
def intersectStepWithOther (other : BaseSubjectSet T) (constructor : Constructor T)
    (updatedConcretes : SubjectMap T) (concreteSubject : T) : SubjectMap T :=
  let concreteIntersected := intersectConcreteWithConcrete concreteSubject
    (other.concrete.lookup (subjectId concreteSubject)) constructor
  let otherWildcardIntersected := intersectConcreteWithWildcard concreteSubject other.wildcard
    constructor
  match unionConcreteWithConcrete concreteIntersected otherWildcardIntersected constructor with
  | some result => updatedConcretes.insert (subjectId concreteSubject) result
  | none => updatedConcretes

/-- One step of the second loop of `IntersectionDifference`, over the other set's concretes. -/
def intersectStepWithExisting (existingWildcard : T) (constructor : Constructor T)
    (updatedConcretes : SubjectMap T) (otherSubject : T) : SubjectMap T :=
  let existingWildcardIntersect := intersectConcreteWithWildcard otherSubject
    (some existingWildcard) constructor
  match updatedConcretes.lookup (subjectId otherSubject) with
  | some existingUpdated =>
    -- the union with a present subject is present, so `*result` is defined
    match unionConcreteWithConcrete (some existingUpdated) existingWildcardIntersect constructor with
    | some result => updatedConcretes.insert (subjectId otherSubject) result
    | none => updatedConcretes
  | none =>
    match existingWildcardIntersect with
    | some result => updatedConcretes.insert (subjectId otherSubject) result
    | none => updatedConcretes

def BaseSubjectSet.intersectionDifference (bss other : BaseSubjectSet T) :
    Except String (BaseSubjectSet T) := do
  let intersection ← intersectWildcardWithWildcard bss.wildcard other.wildcard bss.constructor
  let updatedConcretes := bss.concrete.entries.foldl
    (fun m e => intersectStepWithOther other bss.constructor m e.2) ∅
  let updatedConcretes := match bss.wildcard with
    | none => updatedConcretes
    | some existingWildcard => other.concrete.entries.foldl
      (fun m e => intersectStepWithExisting existingWildcard bss.constructor m e.2) updatedConcretes
  pure { bss with wildcard := intersection, concrete := updatedConcretes }

/-- `unionWildcardWithWildcard`: `||` of the caveats, intersection of the exclusions. -/
def unionWildcardWithWildcard (existing : Option T) (adding : T) (constructor : Constructor T) :
    Except String (Option T) :=
  match existing with
  | none => pure (some adding)
  | some existingWildcard => do
    let expression := shortcircuitedOr (caveatExpression existingWildcard) (caveatExpression adding)
    let exisingConcreteExclusions ← (newBaseSubjectSet constructor).addExclusions
      (excludedSubjects existingWildcard)
    let foundConcreteExclusions ← (newBaseSubjectSet constructor).addExclusions
      (excludedSubjects adding)
    let exisingConcreteExclusions ←
      exisingConcreteExclusions.intersectionDifference foundConcreteExclusions
    pure (some (constructor publicWildcard expression exisingConcreteExclusions.asSlice
      [existingWildcard, adding]))

/-- `Add`: union with the set holding the one subject. -/
def BaseSubjectSet.add (bss : BaseSubjectSet T) (foundSubject : T) :
    Except String (BaseSubjectSet T) :=
  if subjectId foundSubject = publicWildcard then do
    let updated ← unionWildcardWithWildcard bss.wildcard foundSubject bss.constructor
    let updated := bss.concrete.entries.foldl
      (fun w e => unionWildcardWithConcrete w e.2 bss.constructor) updated
    pure { bss with wildcard := updated }
  else pure (bss.addConcrete foundSubject)

/-- `UnionWith`: the subjects are added in order, stopping at the first error. -/
def BaseSubjectSet.unionWith (bss : BaseSubjectSet T) : List T → Except String (BaseSubjectSet T)
  | [] => pure bss
  | fs :: rest => do
    let bss ← bss.add fs
    bss.unionWith rest

def BaseSubjectSet.unionWithSet (bss other : BaseSubjectSet T) : Except String (BaseSubjectSet T) :=
  bss.unionWith other.asSlice

/-- `subtractWildcardFromWildcard`: the remaining wildcard and the concretes that the
subtracted wildcard's exclusions leave behind. -/
def subtractWildcardFromWildcard (existing : Option T) (toRemove : T) (constructor : Constructor T) :
    Option T × List T :=
  match existing with
  | none => (none, [])
  | some existingWildcard =>
    if (caveatExpression toRemove).isNone && (excludedSubjects toRemove).isEmpty then (none, [])
    else
      let existingExclusions := exclusionsMapFor existingWildcard
      let resultingConcreteSubjects := (excludedSubjects toRemove).filterMap fun excludedSubject =>
        match existingExclusions.lookup (subjectId excludedSubject) with
        | none => some (constructor (subjectId excludedSubject)
            (caveatAnd (caveatAnd (caveatExpression existingWildcard) (caveatExpression toRemove))
              (caveatExpression excludedSubject)) [] [excludedSubject])
        | some existingExclusion =>
          if (caveatExpression existingExclusion).isNone then none
          else some (constructor (subjectId excludedSubject)
            (caveatAnd (caveatAnd (caveatAnd (caveatExpression existingWildcard)
              (caveatExpression toRemove)) (caveatInvert (caveatExpression existingExclusion)))
              (caveatExpression excludedSubject)) [] [excludedSubject])
      let combinedConditionalExpression :=
        caveatAnd (caveatExpression existingWildcard) (caveatInvert (caveatExpression toRemove))
      match combinedConditionalExpression with
      | some _ => (some (constructor publicWildcard combinedConditionalExpression
          (excludedSubjects existingWildcard) [existingWildcard, toRemove]), resultingConcreteSubjects)
      | none => (none, resultingConcreteSubjects)

def subtractWildcardFromConcrete (existingConcrete wildcardToRemove : T) (constructor : Constructor T) :
    Option T :=
  match (exclusionsMapFor wildcardToRemove).lookup (subjectId existingConcrete) with
  | none =>
    if (caveatExpression wildcardToRemove).isNone then none
    else some (constructor (subjectId existingConcrete)
      (caveatAnd (caveatExpression existingConcrete) (caveatInvert (caveatExpression wildcardToRemove)))
      [] [existingConcrete])
  | some exclusion =>
    if (caveatExpression exclusion).isNone then some existingConcrete
    else
      let exclusionConditional :=
        caveatOr (caveatInvert (caveatExpression wildcardToRemove)) (caveatExpression exclusion)
      some (constructor (subjectId existingConcrete)
        (caveatAnd (caveatExpression existingConcrete) exclusionConditional) [] [existingConcrete])

def subtractConcreteFromConcrete (existingConcrete toRemove : T) (constructor : Constructor T) :
    Option T :=
  if (caveatExpression toRemove).isNone then none
  else some (constructor (subjectId existingConcrete)
    (caveatAnd (caveatExpression existingConcrete) (caveatInvert (caveatExpression toRemove)))
    [] [existingConcrete, toRemove])

/-- The body of the exclusion loop of `subtractConcreteFromWildcard`: an exclusion of the
removed concrete's id applies when either of the two does. -/
def subtractExclusionWithConcrete (concreteToRemove : T) (constructor : Constructor T)
    (existingExclusion : T) : T :=
  if subjectId existingExclusion = subjectId concreteToRemove then
    constructor (subjectId concreteToRemove)
      (shortcircuitedOr (caveatExpression existingExclusion) (caveatExpression concreteToRemove))
      [] [existingExclusion, concreteToRemove]
  else existingExclusion

/-- `subtractConcreteFromWildcard`: the concrete joins the exclusions, merging with an
exclusion of the same id. -/
def subtractConcreteFromWildcard (wildcard concreteToRemove : T) (constructor : Constructor T) : T :=
  let updatedExclusions :=
    (excludedSubjects wildcard).map (subtractExclusionWithConcrete concreteToRemove constructor)
  let wasFound := (excludedSubjects wildcard).any fun e => subjectId e = subjectId concreteToRemove
  constructor publicWildcard (caveatExpression wildcard)
    (if wasFound then updatedExclusions else updatedExclusions ++ [concreteToRemove]) [wildcard]

/-- The branch of `Subtract` for a wildcard: every concrete loses the wildcard, then the
wildcard loses it, and the concretes that the subtracted wildcard's exclusions leave behind
are stored. -/
def BaseSubjectSet.subtractWildcard (bss : BaseSubjectSet T) (toRemove : T) : BaseSubjectSet T :=
  let bss := bss.concrete.entries.foldl (fun b e =>
    b.setConcrete (subjectId e.2) (subtractWildcardFromConcrete e.2 toRemove bss.constructor)) bss
  let (updatedWildcard, concretesToAdd) :=
    subtractWildcardFromWildcard bss.wildcard toRemove bss.constructor
  let bss := { bss with wildcard := updatedWildcard }
  concretesToAdd.foldl (fun b concrete => b.setConcrete (subjectId concrete) (some concrete)) bss

/-- The branch of `Subtract` for a subject that is not a wildcard. -/
def BaseSubjectSet.subtractConcrete (bss : BaseSubjectSet T) (toRemove : T) : BaseSubjectSet T :=
  let bss := match bss.concrete.lookup (subjectId toRemove) with
    | some existing => bss.setConcrete (subjectId toRemove)
        (subtractConcreteFromConcrete existing toRemove bss.constructor)
    | none => bss
  match bss.wildcard with
  | some wildcard =>
    { bss with wildcard := some (subtractConcreteFromWildcard wildcard toRemove bss.constructor) }
  | none => bss

def BaseSubjectSet.subtract (bss : BaseSubjectSet T) (toRemove : T) : BaseSubjectSet T :=
  if subjectId toRemove = publicWildcard then bss.subtractWildcard toRemove
  else bss.subtractConcrete toRemove

def BaseSubjectSet.subtractAll (bss other : BaseSubjectSet T) : BaseSubjectSet T :=
  other.asSlice.foldl BaseSubjectSet.subtract bss

/-- `WithParentCaveatExpression`: every member conjoined with the parent caveat, on a clone. -/
def BaseSubjectSet.withParentCaveatExpression (bss : BaseSubjectSet T)
    (parentCaveatExpr : Option CaveatExpression) : BaseSubjectSet T :=
  let wildcard := bss.wildcard.map fun wildcard =>
    bss.constructor publicWildcard (caveatAnd parentCaveatExpr (caveatExpression wildcard))
      (excludedSubjects wildcard) [wildcard]
  let concrete := bss.concrete.entries.foldl (fun m e =>
    m.insert e.1 (bss.constructor e.1 (caveatAnd parentCaveatExpr (caveatExpression e.2)) [] [e.2]))
    bss.concrete
  { bss with concrete, wildcard }

def BaseSubjectSet.get (bss : BaseSubjectSet T) (id : String) : Option T :=
  if id = publicWildcard then bss.wildcard else bss.concrete.lookup id

def BaseSubjectSet.isEmpty (bss : BaseSubjectSet T) : Bool :=
  bss.wildcard.isNone && bss.concrete.entries.isEmpty

end SpiceDB.Datasets
