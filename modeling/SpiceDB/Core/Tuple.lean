import SpiceDB.Core.Caveat

namespace SpiceDB

/-- `tuple.PublicWildcard`: the subject id of a wildcard. -/
def publicWildcard : String := "*"

/-- `tuple.Ellipsis`: the relation of a subject that is the object itself. -/
def ellipsis : String := "..."

/-- The message of an error raised by `spiceerrors.MustBugf` outside tests (its stack trace
left out). -/
def mustBugf (message : String) : String := "BUG: " ++ message

/-- `core.RelationReference`: a relation of an object type. -/
structure RelationReference where
  «namespace» : String
  relation : String
deriving DecidableEq, Repr

/-- `core.ObjectAndRelation`: an object, or a userset of it. -/
structure ObjectAndRelation where
  «namespace» : String
  objectId : String
  relation : String
deriving DecidableEq, Repr

/-- `core.RelationTuple`: a relationship, with its optional caveat. -/
structure RelationTuple where
  resourceAndRelation : ObjectAndRelation
  subject : ObjectAndRelation
  caveat : Option ContextualizedCaveat
deriving DecidableEq

/-- `tuple.StringONR`: `ns:id`, and `ns:id#rel` for a userset. -/
def stringONR (onr : ObjectAndRelation) : String :=
  if onr.relation = ellipsis then onr.«namespace» ++ ":" ++ onr.objectId
  else onr.«namespace» ++ ":" ++ onr.objectId ++ "#" ++ onr.relation

/-- `tuple.StringWithoutCaveat`: `resource@subject`, the caveat left out. -/
def stringWithoutCaveat (tpl : RelationTuple) : String :=
  stringONR tpl.resourceAndRelation ++ "@" ++ stringONR tpl.subject

/-- `tuple.OnrEqualOrWildcard`: the subject of a relationship is the target or the wildcard of
its type. -/
def onrEqualOrWildcard (tpl target : ObjectAndRelation) : Bool :=
  tpl = target || (tpl.objectId = publicWildcard && tpl.«namespace» = target.«namespace»)

end SpiceDB
