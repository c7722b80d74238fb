import SpiceDB.Core.Schema
import SpiceDB.Caveats.Run

namespace SpiceDB.Graph

open Caveats

/-- The relation of a resource, found in its definition. -/
def relationOf (schema : List NamespaceDefinition) (resource : ObjectAndRelation) : Option Relation :=
  (schema.find? (·.name = resource.«namespace»)).bind fun ns =>
    ns.relation.find? (·.name = resource.relation)

/-- A relationship's caveat holds; one without a caveat always does. -/
def caveatHolds (v : Valuation) (relationship : RelationTuple) : Bool :=
  (relationship.caveat.map v).getD true

/-- The relationship's subject is the wildcard of the subject's type. -/
def wildcardMatches (relationship : RelationTuple) (subject : ObjectAndRelation) : Bool :=
  relationship.subject.«namespace» = subject.«namespace» &&
    relationship.subject.objectId = publicWildcard &&
    relationship.subject.relation = subject.relation

/-- Whether the definition of an object type has a relation of that name. -/
def hasRelation (schema : List NamespaceDefinition) (nsName relationName : String) : Bool :=
  (relationOf schema ⟨nsName, "", relationName⟩).isSome

section Member

variable (schema : List NamespaceDefinition) (relationships : List RelationTuple) (v : Valuation)

/-- A relationship of `resource` whose caveat holds gives it `subject`: as its subject, as the
wildcard of the subject's type, or through the userset that is its subject, read by
`memberOf`. -/
def directMatch (memberOf : ObjectAndRelation → ObjectAndRelation → Bool)
    (resource subject : ObjectAndRelation) (relationship : RelationTuple) : Bool :=
  decide (relationship.resourceAndRelation = resource) && caveatHolds v relationship &&
    (decide (relationship.subject = subject) || wildcardMatches relationship subject ||
      (decide (relationship.subject.relation ≠ ellipsis) && memberOf relationship.subject subject))

/-- What an atom of the rewrite of `resource` reads, with membership one relation down read
by `memberOf`. -/
def atomHolds (memberOf : ObjectAndRelation → ObjectAndRelation → Bool)
    (resource subject : ObjectAndRelation) : Atom → Bool
  | .relation name => memberOf ⟨resource.«namespace», resource.objectId, name⟩ subject
  | .arrow tupleset computed =>
    relationships.any fun relationship =>
      decide (relationship.resourceAndRelation = ⟨resource.«namespace», resource.objectId, tupleset⟩) &&
        caveatHolds v relationship &&
        hasRelation schema relationship.subject.«namespace» computed &&
        memberOf ⟨relationship.subject.«namespace», relationship.subject.objectId, computed⟩ subject
  | .nil => false

/-- Whether `subject` is in `resource`, unfolding at most `depth` relations. -/
def member : ℕ → ObjectAndRelation → ObjectAndRelation → Bool
  | 0, _, _ => false
  | depth + 1, resource, subject =>
    decide (resource = subject) ||
      match relationOf schema resource with
      | none => false
      | some relation =>
        match relation.usersetRewrite with
        | none => relationships.any (directMatch v (member depth) resource subject)
        | some rewrite => rewrite.denote (atomHolds schema relationships v (member depth) resource subject)

end Member

section Unfold

variable {schema : List NamespaceDefinition} {relationships : List RelationTuple} {v : Valuation}

theorem member_self (depth : ℕ) (subject : ObjectAndRelation) :
    member schema relationships v (depth + 1) subject subject = true := by
  simp [member]

theorem member_of_directMatch {depth : ℕ} {resource subject : ObjectAndRelation} {relation : Relation}
    (hrelation : relationOf schema resource = some relation) (hrewrite : relation.usersetRewrite = none)
    (hdirect : relationships.any (directMatch v (member schema relationships v depth) resource subject) = true) :
    member schema relationships v (depth + 1) resource subject = true := by
  simp [member, hrelation, hrewrite, hdirect]

theorem member_of_denote {depth : ℕ} {resource subject : ObjectAndRelation} {relation : Relation}
    {rewrite : UsersetRewrite} (hrelation : relationOf schema resource = some relation)
    (hrewrite : relation.usersetRewrite = some rewrite)
    (hdenote : rewrite.denote
      (atomHolds schema relationships v (member schema relationships v depth) resource subject) = true) :
    member schema relationships v (depth + 1) resource subject = true := by
  simp [member, hrelation, hrewrite, hdenote]

end Unfold

end SpiceDB.Graph
