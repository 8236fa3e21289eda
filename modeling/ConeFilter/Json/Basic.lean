import ConeFilter.Dictionary
import ConeFilter.Numeral.Integer

/-!
JSON values. Numbers written without a point or an exponent are integers and
keep all their digits, all others are doubles. The members of an object stand
in the order of their keys and no key stands twice.
-/
namespace ConeFilter

inductive Json where
  | null
  | bool (truth : Bool)
  | int (number : Int)
  | float (number : Float)
  | string (content : String)
  | array (elements : List Json)
  | object (members : List (String × Json))
deriving Inhabited

namespace Json

def ofMembers (members : List (String × Json)) : Json :=
  .object (members.foldl (fun sorted entry => insertEntry entry.1 entry.2 sorted) [])

def find? (key : String) (members : List (String × Json)) : Option Json := entryAt members key

/-! Reading scalars. A double may be written as an integer, and nothing else
converts. -/

def toBool? : Json → Option Bool
  | .bool truth => some truth
  | _ => none

def toString? : Json → Option String
  | .string content => some content
  | _ => none

def toFloat? : Json → Option Float
  | .float number => some number
  | .int number => some (Float.ofInt number)
  | _ => none

def toWord? : Json → Option Int64
  | .int number => Numeral.exactWord number
  | _ => none

def toCount? : Json → Option Nat
  | .int number => if 0 ≤ number ∧ number < 0x10000000000000000 then some number.toNat else none
  | _ => none

def toList? : Json → Option (List Json)
  | .array elements => some elements
  | _ => none

/-! Reading records. A record is an object with at least the fields named, or
an array with exactly their values in order. -/

def record? (names : List String) : Json → Option (List Json)
  | .object members => names.mapM fun name => find? name members
  | .array elements => if elements.length = names.length then some elements else none
  | _ => none

/-! Reading choices. A choice without contents is its name, alone or with a
null; any other is an object whose only key is its name. -/

def choice? : Json → Option String
  | .string name => some name
  | .object [(name, .null)] => some name
  | _ => none

def table? {α : Type} (read : Json → Option α) : Json → Option (Dictionary α)
  | .object members =>
      let readEntry (entry : String × Json) := (read entry.2).map fun value => (entry.1, value)
      (members.mapM readEntry).map Dictionary.ofList
  | _ => none

/-! Writing. -/

def strings (contents : List String) : Json := .array (contents.map .string)

def table {α : Type} (write : α → Json) (dictionary : Dictionary α) : Json :=
  .object (dictionary.entries.map fun entry => (entry.1, write entry.2))

end Json

end ConeFilter
