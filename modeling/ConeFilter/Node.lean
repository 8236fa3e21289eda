import ConeFilter.Predicate

/-!
Expression trees, as a front end hands them over: literals are still raw text
with a hint of their kind, columns are unchecked paths, and what the filter
language has no counterpart for is kept as its text.
-/
namespace ConeFilter

inductive LiteralKind where
  | string
  | integer
  | decimal
  | other
deriving DecidableEq, Inhabited

inductive Connective where
  | and
  | or
deriving DecidableEq, Inhabited

/-- The operators that turn into a null test in front of a bare NULL. -/
inductive Equality where
  | equal
  | unequal
  | is
deriving DecidableEq, Inhabited

inductive Relation where
  | less
  | lessEqual
  | greater
  | greaterEqual
  | matches
deriving DecidableEq, Inhabited

inductive Node where
  | literal (kind : LiteralKind) (raw : String)
  | column (path : List String)
  -- A quoted identifier stands for its text and not for a column.
  | quoted (path : List String)
  | null
  | negate (operand : Node)
  | not (condition : Node)
  | nested (inner : Node)
  | connect (op : Connective) (left right : Node)
  | equality (op : Equality) (left right : Node)
  | relate (op : Relation) (left right : Node)
  | arithmetic (op : ArithOp) (left right : Node)
  | between (subject low high : Node)
  | member (subject : Node) (items : List Node)
  | call (name : String) (arguments : List Node)
  | unsupported (text : String)
deriving Inhabited

/-! Labels name a node in the message that refuses it. -/

def Connective.label : Connective → String
  | .and => "AND"
  | .or => "OR"

def Equality.label : Equality → String
  | .equal => "="
  | .unequal => "!="
  | .is => "IS"

def Relation.label : Relation → String
  | .less => "<"
  | .lessEqual => "<="
  | .greater => ">"
  | .greaterEqual => ">="
  | .matches => "pattern match"

namespace Node

/-- The segments of a dotted name; a dot more is a segment more, even an empty one. -/
def splitDots : List Char → List Char × List (List Char)
  | [] => ([], [])
  | c :: rest =>
      let (segment, later) := splitDots rest
      if c = '.' then ([], segment :: later) else (c :: segment, later)

def dotted (name : String) : Node :=
  let (first, later) := splitDots name.toList
  .column ((first :: later).map String.ofList)

def label : Node → String
  | .literal _ _ => "literal"
  | .column _ | .quoted _ => "column"
  | .null => "NULL"
  | .negate _ => "negation"
  | .not _ => "NOT"
  | .nested _ => "parenthesized expression"
  | .connect op _ _ => op.label
  | .equality op _ _ => op.label
  | .relate op _ _ => op.label
  | .arithmetic op _ _ => op.symbol
  | .between _ _ _ => "BETWEEN"
  | .member _ _ => "IN"
  | .call name _ => "function '" ++ name ++ "'"
  | .unsupported text => "expression `" ++ text ++ "`"

end Node

end ConeFilter
