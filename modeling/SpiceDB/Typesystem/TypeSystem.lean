import SpiceDB.Core.Schema
import SpiceDB.Lib.Except

namespace SpiceDB.Typesystem

inductive AllowedDirectRelation where
  | UnknownIfRelationAllowed
  | DirectRelationValid
  | DirectRelationNotValid
deriving DecidableEq, Repr

inductive AllowedPublicSubject where
  | UnknownIfPublicAllowed
  | PublicSubjectAllowed
  | PublicSubjectNotAllowed
deriving DecidableEq, Repr

/-- The relation of a definition, or the error `NewRelationNotFoundErr` gives. -/
def relationOrError (ts : NamespaceDefinition) (relationName : String) : Except String Relation :=
  match ts.relation.find? (·.name = relationName) with
  | none => throw (SchemaError.relationNotFound ts.name relationName).message
  | some found => pure found

/-- `ReadNamespaceAndTypes`: the definition read from the schema. -/
def readNamespaceAndTypes (schema : List NamespaceDefinition) (nsName : String) :
    Except String NamespaceDefinition :=
  match readNamespaceByName schema nsName with
  | .ok ns => pure ns
  | .error err => throw err.message

/-- `typeSystemForNamespace`: the definition itself, or another read from the schema. -/
def typeSystemForNamespace (schema : List NamespaceDefinition) (ts : NamespaceDefinition)
    (nsName : String) : Except String NamespaceDefinition :=
  if ts.name = nsName then pure ts else readNamespaceAndTypes schema nsName

def hasRelation (ts : NamespaceDefinition) (relationName : String) : Bool :=
  ts.relation.any (·.name = relationName)

def allowedDirectRelationsAndWildcards (ts : NamespaceDefinition) (sourceRelationName : String) :
    Except String (List AllowedRelation) := do
  let found ← relationOrError ts sourceRelationName
  pure (found.typeInformation.getD [])

def isAllowedDirectRelation (ts : NamespaceDefinition)
    (sourceRelationName targetNamespaceName targetRelationName : String) :
    Except String AllowedDirectRelation := do
  let found ← relationOrError ts sourceRelationName
  match found.typeInformation with
  | none => pure .UnknownIfRelationAllowed
  | some allowedRelations =>
    if allowedRelations.any fun allowedRelation =>
        allowedRelation.«namespace» = targetNamespaceName ∧ allowedRelation.getRelation = targetRelationName
    then pure .DirectRelationValid
    else pure .DirectRelationNotValid

def isAllowedPublicNamespace (ts : NamespaceDefinition) (sourceRelationName targetNamespaceName : String) :
    Except String AllowedPublicSubject := do
  let found ← relationOrError ts sourceRelationName
  match found.typeInformation with
  | none => pure .UnknownIfPublicAllowed
  | some allowedRelations =>
    if allowedRelations.any fun allowedRelation =>
        allowedRelation.«namespace» = targetNamespaceName ∧ allowedRelation.isPublicWildcard
    then pure .PublicSubjectAllowed
    else pure .PublicSubjectNotAllowed

/-- `GetAllowedDirectNamespaceSubjectRelations`: the relations (a set, here without repeats in
the order first met) a relation allows on subjects of a type; `none` without type information. -/
def getAllowedDirectNamespaceSubjectRelations (ts : NamespaceDefinition)
    (sourceRelationName targetNamespaceName : String) : Except String (Option (List String)) := do
  let found ← relationOrError ts sourceRelationName
  match found.typeInformation with
  | none => pure none
  | some allowedRelations =>
    pure (some ((allowedRelations.filter fun allowedRelation =>
      allowedRelation.«namespace» = targetNamespaceName ∧ !allowedRelation.isPublicWildcard).map
        AllowedRelation.getRelation).eraseDups)

section Read

variable {schema : List NamespaceDefinition} {ts : NamespaceDefinition}

theorem find?_of_readNamespaceAndTypes {nsName : String} {ns : NamespaceDefinition}
    (hns : readNamespaceAndTypes schema nsName = .ok ns) : schema.find? (·.name = nsName) = some ns := by
  unfold readNamespaceAndTypes readNamespaceByName at hns
  cases hfind : schema.find? (·.name = nsName) with
  | none => simp [hfind] at hns
  | some found =>
    simp only [hfind, Except.pure_eq_ok, Except.ok.injEq] at hns
    rw [hns]

theorem relationOrError_eq_ok {relationName : String} {relation : Relation} :
    relationOrError ts relationName = .ok relation ↔ ts.relation.find? (·.name = relationName) = some relation := by
  unfold relationOrError
  split <;> rename_i hfind <;> simp [hfind]

variable {relationName nsName : String} {relation : Relation} {allowed : AllowedRelation}

theorem isAllowedDirectRelation_of_mem {targetRelationName : String}
    (hfind : ts.relation.find? (·.name = relationName) = some relation)
    (hallowed : allowed ∈ relation.typeInformation.getD []) (hns : allowed.«namespace» = nsName)
    (hrelation : allowed.relationOrWildcard = .relation targetRelationName) :
    isAllowedDirectRelation ts relationName nsName targetRelationName = .ok .DirectRelationValid := by
  rw [isAllowedDirectRelation, relationOrError_eq_ok.2 hfind, Except.ok_bind]
  cases htype : relation.typeInformation with
  | none => simp [htype] at hallowed
  | some allowedRelations =>
    rw [htype, Option.getD_some] at hallowed
    have hany : (allowedRelations.any fun allowedRelation =>
        allowedRelation.«namespace» = nsName ∧ allowedRelation.getRelation = targetRelationName) = true :=
      List.any_eq_true.2 ⟨allowed, hallowed, by simp [hns, AllowedRelation.getRelation, hrelation]⟩
    simp only [hany, if_true, Except.pure_eq_ok]

theorem isAllowedPublicNamespace_of_mem (hfind : ts.relation.find? (·.name = relationName) = some relation)
    (hallowed : allowed ∈ relation.typeInformation.getD []) (hns : allowed.«namespace» = nsName)
    (hwildcard : allowed.relationOrWildcard = .publicWildcard) :
    isAllowedPublicNamespace ts relationName nsName = .ok .PublicSubjectAllowed := by
  rw [isAllowedPublicNamespace, relationOrError_eq_ok.2 hfind, Except.ok_bind]
  cases htype : relation.typeInformation with
  | none => simp [htype] at hallowed
  | some allowedRelations =>
    rw [htype, Option.getD_some] at hallowed
    have hany : (allowedRelations.any fun allowedRelation =>
        allowedRelation.«namespace» = nsName ∧ allowedRelation.isPublicWildcard) = true :=
      List.any_eq_true.2 ⟨allowed, hallowed, by simp [hns, AllowedRelation.isPublicWildcard, hwildcard]⟩
    simp only [hany, if_true, Except.pure_eq_ok]

end Read

end SpiceDB.Typesystem
