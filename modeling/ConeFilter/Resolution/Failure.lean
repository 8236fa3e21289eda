import ConeFilter.Predicate

/-!
Why a tree is refused. A pass stops at the first failure it meets, so there is
always exactly one. The kind of a failure forgets what it is about; counters
and callers that only classify use it.
-/
namespace ConeFilter

/-- A construct that has no place where it stands. -/
inductive Misuse where
  | emptyIdentifier
  | emptyColumn
  | noCounterpart (label : String)
  | negatedCondition (condition : Predicate)
  | conditionAsValue (condition : Predicate)
  | valueAsCondition (value : Operand)
deriving BEq, Inhabited

inductive ConeArgument where
  | ra
  | dec
  | radius
deriving DecidableEq, Inhabited

inductive Failure where
  | unknownField (name : String)
  | misuse (cause : Misuse)
  | invalidLiteral (literal : String)
  | coneArity (found : Nat)
  | coneArgument (argument : ConeArgument)
deriving BEq, Inhabited

inductive FailureKind where
  | unknownField
  | misuse
  | invalidLiteral
  | coneArity
  | coneArgument
deriving DecidableEq, Inhabited

namespace Misuse

def text : Misuse → String
  | .emptyIdentifier => "empty quoted identifier"
  | .emptyColumn => "empty column reference"
  | .noCounterpart label => label
  | .negatedCondition condition => "negation of condition `" ++ condition.render ++ "`"
  | .conditionAsValue condition => "condition `" ++ condition.render ++ "` used as a value"
  | .valueAsCondition value => "value `" ++ value.render ++ "` used as a condition"

end Misuse

namespace ConeArgument

def name : ConeArgument → String
  | .ra => "ra"
  | .dec => "dec"
  | .radius => "radius"

end ConeArgument

namespace Failure

def kind : Failure → FailureKind
  | .unknownField _ => .unknownField
  | .misuse _ => .misuse
  | .invalidLiteral _ => .invalidLiteral
  | .coneArity _ => .coneArity
  | .coneArgument _ => .coneArgument

def message : Failure → String
  | .unknownField name => "field '" ++ name ++ "' does not exist"
  | .misuse cause => "invalid query: unsupported " ++ cause.text
  | .invalidLiteral literal => "invalid literal '" ++ literal ++ "'"
  | .coneArity found =>
      "cone statement should contain exactly 3 arguments: cone(ra, dec, radius); found " ++
        Numeral.natText found
  | .coneArgument argument => "cone argument '" ++ argument.name ++ "' must be a numeric literal"

end Failure

namespace FailureKind

def name : FailureKind → String
  | .unknownField => "FieldDoesNotExist"
  | .misuse => "InvalidQuery"
  | .invalidLiteral => "InvalidLiteral"
  | .coneArity => "InvalidConeNumberArguments"
  | .coneArgument => "InvalidConeArgument"

end FailureKind

end ConeFilter
