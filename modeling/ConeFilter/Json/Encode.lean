import ConeFilter.Cone
import ConeFilter.Json.Basic
import ConeFilter.Predicate
import ConeFilter.Schema

/-!
The JSON form of predicates, cones and schemas. A choice is an object whose
only key names it, or just the name if it holds nothing; a record is an object
with all of its fields. How a double is written is left to the caller:
`Json.ofFloat` is the usual way, which has nothing but null for a double that
is not finite.
-/
namespace ConeFilter

def Json.ofFloat (number : Float) : Json := if number.isFinite then .float number else .null

namespace Json

def tagged (name : String) (content : Json) : Json := .object [(name, content)]

end Json

namespace ArithOp

def name : ArithOp → String
  | .add => "Add"
  | .sub => "Sub"
  | .mul => "Mul"
  | .div => "Div"

end ArithOp

namespace CompareOp

def name : CompareOp → String
  | .equal => "Eq"
  | .less => "Lt"
  | .lessEqual => "Lte"
  | .greater => "Gt"
  | .greaterEqual => "Gte"
  | .contains => "ContainsCi"

end CompareOp

section
variable (number : Float → Json)

def Value.toJson : Value → Json
  | .text content => .tagged "Text" (.string content)
  | .int word => .tagged "Int" (.int word.toInt)
  | .float x => .tagged "Float" (number x)
  | .bool truth => .tagged "Bool" (.bool truth)

def Operand.toJson : Operand → Json
  | .literal value => .tagged "Literal" (value.toJson number)
  | .field name => .tagged "Field" (.string name)
  | .binary op left right =>
      .tagged "Expr" (.tagged "Binary" (.object
        [("left", left.toJson), ("op", .string op.name), ("right", right.toJson)]))
  | .negation operand => .tagged "Expr" (.tagged "Neg" operand.toJson)

/-- Arithmetic on its own, without the tag that makes it an operand. -/
def Operand.arithmeticJson : Operand → Json
  | .binary op left right =>
      .tagged "Binary" (.object
        [("left", left.toJson number), ("op", .string op.name), ("right", right.toJson number)])
  | .negation operand => .tagged "Neg" (operand.toJson number)
  | .literal _ | .field _ => .null

def Predicate.toJson : Predicate → Json
  | .compare op left right =>
      .tagged "Compare" (.object
        [("left", left.toJson number), ("op", .string op.name), ("right", right.toJson number)])
  | .isNull operand expected =>
      .tagged "IsNull" (.object
        [("expect_null", .bool expected), ("operand", operand.toJson number)])
  | .and left right => .tagged "And" (.array [left.toJson, right.toJson])
  | .or left right => .tagged "Or" (.array [left.toJson, right.toJson])
  | .not inner => .tagged "Not" inner.toJson
  | .member operand values =>
      .tagged "In" (.object
        [("operand", operand.toJson number), ("values", .array (values.map (Value.toJson number)))])

def Cone.toJson (cone : Cone) : Json :=
  .object [("dec", number cone.dec), ("ra", number cone.ra), ("radius", number cone.radius)]

def Extra.toJson (extra : Extra) : Json :=
  .object
    [("aliases", .table .string extra.aliases),
      ("cones", .array (extra.cones.map (Cone.toJson number)))]

end

namespace FieldKind

def toJson : FieldKind → Json
  | .bool => .string "bool"
  | .int => .string "int"
  | .float => .string "float"
  | .text => .string "text"
  | .date => .string "date"
  | .timestamp => .string "timestamp"
  | .relation target => .tagged "relation" (.object [("target", .string target)])

end FieldKind

def Field.toJson (field : Field) : Json :=
  .object [("kind", field.kind.toJson), ("name", .string field.name)]

def Model.toJson (model : Model) : Json :=
  .object [("fields", .array (model.fields.map Field.toJson)), ("name", .string model.name)]

def Registry.toJson (registry : Registry) : Json := .array (registry.models.map Model.toJson)

end ConeFilter
