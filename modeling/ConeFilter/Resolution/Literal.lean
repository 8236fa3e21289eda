import ConeFilter.Node
import ConeFilter.Resolution.Failure

/-!
Literals get their type from their kind and their value from their text. A
minus sign directly in front of a numeric literal is read together with its
text, because the least word has no positive counterpart.
-/
namespace ConeFilter

namespace LiteralKind

def read? (kind : LiteralKind) (raw : String) : Option Value :=
  match kind with
  | .string => some (.text raw)
  | .integer => (Numeral.readWord raw).map .int
  | .decimal => (Numeral.readFinite raw).map .float
  | .other => none

def readNegative? (kind : LiteralKind) (raw : String) : Option Value :=
  match kind with
  | .integer => (Numeral.readWord ("-" ++ raw)).map .int
  | .decimal => (Numeral.readFinite raw).map fun number => .float (-number)
  | .string | .other => none

end LiteralKind

def typeLiteral (kind : LiteralKind) (raw : String) : Except Failure Value :=
  match kind.read? raw with
  | some value => .ok value
  | none => .error (.invalidLiteral raw)

def typeNegative (kind : LiteralKind) (raw : String) : Except Failure Value :=
  match kind.readNegative? raw with
  | some value => .ok value
  | none => .error (.invalidLiteral ("-" ++ raw))

end ConeFilter
