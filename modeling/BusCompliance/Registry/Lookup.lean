import BusCompliance.Event
import BusCompliance.Registry.Basic
import BusCompliance.Schema.Version

/-!
# Looking templates up

An id is tried as it stands, then as an alias, then without its last segments, longest first. In
front of it may stand the version and the name of a level.
-/

namespace BusCompliance

namespace Registry

/-- The id behind the version and level name of this registry, if it begins with them. -/
def unqualified (r : Registry) (id : String) : String :=
  let rest? := (Text.dropStem (versionFolder r.version ++ ".").toList id.toList).bind
    (Text.splitFirst '.')
  match rest? with
  | some (level, bare) =>
    if (r.headerNamed? (String.ofList level)).isSome then String.ofList bare else id
  | none => id

/-- The template of an id or of an alias. -/
def byName? (r : Registry) (id : String) : Option Template :=
  match r.templates.get? id with
  | some t => some t
  | none => (r.aliases.get? id).bind fun (_, target) => r.templates.get? target

/-- What is left of an id without its last segments, longest first; two segments stay at least. -/
def bases (id : String) : List String :=
  let segments := Text.segments id
  (List.range' 2 (segments.length - 2)).reverse.map fun n => Text.join (segments.take n)

/-- The template of the longest base that has one. -/
def byBase? (r : Registry) (id : String) : Option Template := (bases id).findSome? r.templates.get?

def findTemplate (r : Registry) (id : String) : Action Template :=
  if Text.allBlank id then Action.ofExcept (.error .blankSchemaId)
  else
    let bare := r.unqualified id
    match r.byName? bare with
    | some t => pure t
    | none =>
      match r.byBase? bare with
      | some t => do
        Action.log (.resolvedByBase bare t.id)
        return t
      | none => Action.ofExcept (.error (.unknownSchema id))

end Registry

end BusCompliance
