import Mathlib.Data.String.Basic
import SpiceDB.Core.Tuple

namespace SpiceDB

/-- `RelationMetadata_RelationKind`, the kind the schema compiler records for a relation. -/
inductive RelationKind where
  | UNKNOWN_KIND
  | RELATION
  | PERMISSION
deriving DecidableEq, Repr

mutual
inductive SetOperationChild where
  | xThis
  | computedUserset (relation : String)
  | tupleToUserset (tuplesetRelation computedUsersetRelation : String)
  | usersetRewrite (rewrite : UsersetRewrite)
  | xNil

/-- `core.UsersetRewrite`, with the children of its `SetOperation`. -/
inductive UsersetRewrite where
  | union (child : List SetOperationChild)
  | intersection (child : List SetOperationChild)
  | exclusion (child : List SetOperationChild)
end

/-- The relation of an allowed subject type, or its public wildcard. -/
inductive RelationOrWildcard where
  | relation (name : String)
  | publicWildcard
deriving DecidableEq, Repr

structure AllowedRelation where
  «namespace» : String
  relationOrWildcard : RelationOrWildcard
  requiredCaveat : Option String
deriving DecidableEq, Repr

/-- `AllowedRelation.GetRelation`: the relation, empty for a wildcard. -/
def AllowedRelation.getRelation (allowedRelation : AllowedRelation) : String :=
  match allowedRelation.relationOrWildcard with
  | .relation name => name
  | .publicWildcard => ""

def AllowedRelation.isPublicWildcard (allowedRelation : AllowedRelation) : Bool :=
  allowedRelation.relationOrWildcard = .publicWildcard

/-- `core.Relation`: the type information, when present, is its list of allowed direct
relations; the aliasing relation is the one `AnnotateNamespace` records, empty for none. -/
structure Relation where
  name : String
  usersetRewrite : Option UsersetRewrite
  typeInformation : Option (List AllowedRelation)
  kind : RelationKind
  aliasingRelation : String

structure NamespaceDefinition where
  name : String
  relation : List Relation

/-- Whether a child is a nested rewrite. -/
def SetOperationChild.isRewrite : SetOperationChild → Bool
  | .usersetRewrite _ => true
  | _ => false

/-- Whether a child is `_this`. -/
def SetOperationChild.isThis : SetOperationChild → Bool
  | .xThis => true
  | _ => false

/-- `TypeSystem.IsPermission`: the relation exists and the compiler marked it a permission. -/
def NamespaceDefinition.isPermission (ns : NamespaceDefinition) (relationName : String) : Bool :=
  (ns.relation.find? (·.name = relationName)).any (·.kind = .PERMISSION)

/-- What a leaf of a rewrite reads: a relation of the object, an arrow, or `nil`. -/
inductive Atom where
  | relation (name : String)
  | arrow (tuplesetRelation computedUsersetRelation : String)
  | nil
deriving DecidableEq, Repr

mutual
/-- The value of a rewrite when each atom has the value `atoms` gives it. -/
def UsersetRewrite.denote (atoms : Atom → Bool) : UsersetRewrite → Bool
  | .union child => denoteAny atoms child
  | .intersection child => denoteAll atoms child
  | .exclusion [] => true
  | .exclusion (first :: rest) => first.denote atoms && !denoteAny atoms rest

/-- The value of a child; `_this` has no reading and is false. -/
def SetOperationChild.denote (atoms : Atom → Bool) : SetOperationChild → Bool
  | .xThis => false
  | .computedUserset relation => atoms (.relation relation)
  | .tupleToUserset tupleset computed => atoms (.arrow tupleset computed)
  | .usersetRewrite rewrite => rewrite.denote atoms
  | .xNil => atoms .nil

/-- Some child holds. -/
def denoteAny (atoms : Atom → Bool) : List SetOperationChild → Bool
  | [] => false
  | child :: rest => child.denote atoms || denoteAny atoms rest

/-- Every child holds. -/
def denoteAll (atoms : Atom → Bool) : List SetOperationChild → Bool
  | [] => true
  | child :: rest => child.denote atoms && denoteAll atoms rest
end

theorem denoteAny_eq_any (atoms : Atom → Bool) (children : List SetOperationChild) :
    denoteAny atoms children = children.any fun child => child.denote atoms := by
  induction children with
  | nil => rfl
  | cons child rest ih => rw [denoteAny, ih, List.any_cons]

theorem denoteAll_eq_all (atoms : Atom → Bool) (children : List SetOperationChild) :
    denoteAll atoms children = children.all fun child => child.denote atoms := by
  induction children with
  | nil => rfl
  | cons child rest ih => rw [denoteAll, ih, List.all_cons]

/-- The errors of looking up a definition or a relation in a schema. -/
inductive SchemaError where
  /-- `NewNamespaceNotFoundErr`. -/
  | namespaceNotFound (nsName : String)
  /-- `NewRelationNotFoundErr`. -/
  | relationNotFound (nsName relationName : String)
deriving DecidableEq, Repr

/-- The message of a schema error. -/
def SchemaError.message : SchemaError → String
  | .namespaceNotFound nsName => "object definition \x60" ++ nsName ++ "\x60 not found"
  | .relationNotFound nsName relationName =>
    "relation/permission \x60" ++ relationName ++ "\x60 not found under definition \x60" ++ nsName ++ "\x60"

/-- `ReadNamespaceByName` over the definitions of a schema. -/
def readNamespaceByName (schema : List NamespaceDefinition) (nsName : String) :
    Except SchemaError NamespaceDefinition :=
  match schema.find? (·.name = nsName) with
  | some ns => pure ns
  | none => throw (.namespaceNotFound nsName)

def checkNamespaceAndRelation (schema : List NamespaceDefinition) (nsName relation : String)
    (allowEllipsis : Bool) : Except SchemaError Unit := do
  let config ← readNamespaceByName schema nsName
  if allowEllipsis ∧ relation = ellipsis then return ()
  if config.relation.any (·.name = relation) then pure ()
  else throw (.relationNotFound nsName relation)

/-- `ReadNamespaceAndRelation`: the definition, and its first relation of that name. -/
def readNamespaceAndRelation (schema : List NamespaceDefinition) (nsName relationName : String) :
    Except SchemaError (NamespaceDefinition × Relation) := do
  let config ← readNamespaceByName schema nsName
  match config.relation.find? (·.name = relationName) with
  | some relation => pure (config, relation)
  | none => throw (.relationNotFound nsName relationName)

end SpiceDB
