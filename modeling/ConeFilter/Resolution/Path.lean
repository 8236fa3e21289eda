import ConeFilter.Resolution.Event
import ConeFilter.Schema

/-!
Column paths are walks through a schema. Every segment but the last has to be
a relation of the model reached so far, and the last has to be a field of the
model it arrives at. The first segment that breaks the walk is the one named
in the failure.
-/
namespace ConeFilter

/-- Where names are looked up: a catalog and the model that filters start from. -/
structure Scope where
  catalog : Catalog
  model : String

namespace Scope

def walk (catalog : Catalog) (model : String) : List String → Except Failure Unit
  | [] => .error (.misuse .emptyColumn)
  | [segment] =>
      if catalog.fieldExists model segment then .ok () else .error (.unknownField segment)
  | segment :: next :: rest =>
      match catalog.relatedModel model segment with
      | some target => walk catalog target (next :: rest)
      | none => .error (.unknownField segment)

/-- The name under which a store knows the field at the end of a path. -/
def flatten (path : List String) : String := String.intercalate "__" path

def column (scope : Scope) (path : List String) : Except Failure String × List Event :=
  match walk scope.catalog scope.model path with
  | .ok () => (.ok (flatten path), [.fieldResolved (path.length - 1)])
  | .error failure => (.error failure, [])

/-- Several columns in a row; a failure does not stop the next. -/
def columns (scope : Scope) (paths : List (List String)) :
    List (Except Failure String) × List Event :=
  let outcomes := paths.map scope.column
  (outcomes.map (·.1), outcomes.flatMap (·.2))

end Scope

end ConeFilter
