import ConeFilter.Json.Basic
import ConeFilter.Sql.Dialect

/-!
Configuration: the dialect that filter text is written in, by name. A name
that no dialect has can be configured, and is found out when it is used.
-/
namespace ConeFilter

structure Config where
  dialect : String := "postgres"
deriving DecidableEq, Inhabited

namespace Config

/-- What is left out has its default, in an object and in a list. -/
def ofJson : Json → Option Config
  | .object members =>
      match Json.find? "dialect" members with
      | none => some {}
      | some name => name.toString?.map fun dialect => { dialect }
  | .array [] => some {}
  | .array [name] => name.toString?.map fun dialect => { dialect }
  | _ => none

def toJson (config : Config) : Json := .object [("dialect", .string config.dialect)]

end Config

end ConeFilter
