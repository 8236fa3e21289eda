import ConeFilter.Json.Encode

/-!
Reading the JSON form back. A record may have members that nobody asks for,
and a choice may not. The names of the parts of a choice that is itself a
record have to be written out, while a record that stands alone may also be
the bare list of its fields.
-/
namespace ConeFilter

namespace ArithOp

def ofJson (json : Json) : Option ArithOp :=
  (Json.choice? json).bind fun name => [add, sub, mul, div].find? fun op => op.name == name

end ArithOp

namespace CompareOp

def ofJson (json : Json) : Option CompareOp :=
  (Json.choice? json).bind fun name =>
    [equal, less, lessEqual, greater, greaterEqual, contains].find? fun op => op.name == name

end CompareOp

def Value.ofJson : Json → Option Value
  | .object [("Text", content)] => content.toString?.map .text
  | .object [("Int", content)] => content.toWord?.map .int
  | .object [("Float", content)] => content.toFloat?.map .float
  | .object [("Bool", content)] => content.toBool?.map .bool
  | _ => none

/-! Operands nest, and their parts are found by name. Every member is read as
if it were an operand, and the ones that are wanted are then picked out. -/

mutual

def Operand.ofJson : Json → Option Operand
  | .object [("Literal", content)] => (Value.ofJson content).map .literal
  | .object [("Field", content)] => content.toString?.map .field
  | .object [("Expr", content)] => Operand.ofArithmeticJson content
  | _ => none

def Operand.ofArithmeticJson : Json → Option Operand
  | .object [("Neg", content)] => (Operand.ofJson content).map .negation
  | .object [("Binary", .object members)] => do
      let op ← (Json.find? "op" members).bind ArithOp.ofJson
      let operands := Operand.ofMembers members
      let left ← (operands.lookup "left").join
      let right ← (operands.lookup "right").join
      pure (.binary op left right)
  | _ => none

def Operand.ofMembers : List (String × Json) → List (String × Option Operand)
  | [] => []
  | (name, content) :: rest => (name, Operand.ofJson content) :: Operand.ofMembers rest

end

def Predicate.compareOfMembers (members : List (String × Json)) : Option Predicate := do
  let op ← (Json.find? "op" members).bind CompareOp.ofJson
  let left ← (Json.find? "left" members).bind Operand.ofJson
  let right ← (Json.find? "right" members).bind Operand.ofJson
  pure (.compare op left right)

def Predicate.isNullOfMembers (members : List (String × Json)) : Option Predicate := do
  let operand ← (Json.find? "operand" members).bind Operand.ofJson
  let expected ← (Json.find? "expect_null" members).bind Json.toBool?
  pure (.isNull operand expected)

def Predicate.memberOfMembers (members : List (String × Json)) : Option Predicate := do
  let operand ← (Json.find? "operand" members).bind Operand.ofJson
  let values ← (Json.find? "values" members).bind Json.toList?
  pure (.member operand (← values.mapM Value.ofJson))

def Predicate.ofJson : Json → Option Predicate
  | .object [("Compare", .object members)] => compareOfMembers members
  | .object [("IsNull", .object members)] => isNullOfMembers members
  | .object [("In", .object members)] => memberOfMembers members
  | .object [("And", .array [left, right])] => do
      pure (.and (← Predicate.ofJson left) (← Predicate.ofJson right))
  | .object [("Or", .array [left, right])] => do
      pure (.or (← Predicate.ofJson left) (← Predicate.ofJson right))
  | .object [("Not", inner)] => (Predicate.ofJson inner).map .not
  | _ => none

def Cone.ofJson (json : Json) : Option Cone :=
  match json.record? ["ra", "dec", "radius"] with
  | some [ra, dec, radius] => do
      pure { ra := ← ra.toFloat?, dec := ← dec.toFloat?, radius := ← radius.toFloat? }
  | _ => none

def Extra.ofJson (json : Json) : Option Extra :=
  match json.record? ["cones", "aliases"] with
  | some [cones, aliases] => do
      let cones ← (← cones.toList?).mapM Cone.ofJson
      let aliases ← aliases.table? Json.toString?
      pure { cones, aliases }
  | _ => none

def FieldKind.scalarNamed : String → Option FieldKind
  | "bool" => some .bool
  | "int" => some .int
  | "float" => some .float
  | "text" => some .text
  | "date" => some .date
  | "timestamp" => some .timestamp
  | _ => none

def FieldKind.ofJson : Json → Option FieldKind
  | .object [("relation", .object members)] =>
      ((Json.find? "target" members).bind Json.toString?).map .relation
  | json => json.choice?.bind scalarNamed

def Field.ofJson (json : Json) : Option Field :=
  match json.record? ["name", "kind"] with
  | some [name, kind] => do pure { name := ← name.toString?, kind := ← FieldKind.ofJson kind }
  | _ => none

def Model.ofJson (json : Json) : Option Model :=
  match json.record? ["name", "fields"] with
  | some [name, fields] => do
      pure { name := ← name.toString?, fields := ← (← fields.toList?).mapM Field.ofJson }
  | _ => none

/-- A registry is checked again when it is read. -/
def Registry.ofJson (json : Json) : Option Registry := do
  let models ← (← json.toList?).mapM Model.ofJson
  (Registry.ofModels models).toOption

end ConeFilter
