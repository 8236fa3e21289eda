import ConeFilter.Sql.Token

/-!
Expressions, with every detail that their written form keeps: the quotes of
names, the digits of numbers, the spelling of operators. Stars and named
arguments are expressions that only stand among the arguments of a call. A
call has more to it than its name and arguments: parameters, clauses inside
the parentheses and clauses behind them, with expressions of their own.
-/
namespace ConeFilter.Sql

structure Identifier where
  quote : Option Char
  name : String
deriving DecidableEq, Inhabited

inductive Literal where
  | number (digits : String) (long : Bool)
  | string (quote : Char) (content : String)
  | national (content : String)
  | escaped (content : String)
  | null
  | verbatim (text : String)
deriving DecidableEq, Inhabited

inductive UnaryOp where
  | minus
  | plus
  | not
  | absolute
  | complement
  | factorial
deriving DecidableEq, Inhabited

/-- Pattern operators and the ones without a meaning here keep their spelling. -/
inductive BinaryOp where
  | and
  | or
  | equal
  | unequal
  | less
  | lessEqual
  | greater
  | greaterEqual
  | plus
  | minus
  | times
  | divide
  | matches (spelling : String)
  | matchesNot (spelling : String)
  | like (spelling : String)
  | other (spelling : String)
deriving DecidableEq, Inhabited

inductive Quantifier where
  | any
  | all
  | some
deriving DecidableEq, Inhabited

inductive TruthTest where
  | true
  | false
  | unknown
deriving DecidableEq, Inhabited

inductive LikeForm where
  | like
  | ilike
  | similar
deriving DecidableEq, Inhabited

inductive RegexpForm where
  | regexp
  | rlike
deriving DecidableEq, Inhabited

inductive CallMode where
  | plain
  | all
  | distinct
deriving DecidableEq, Inhabited

/-! Words of the clauses that a call may have besides its arguments. -/

inductive NullTreatment where
  | ignore
  | respect
deriving DecidableEq, Inhabited

inductive Direction where
  | ascending
  | descending
deriving DecidableEq, Inhabited

inductive NullsPlace where
  | first
  | last
deriving DecidableEq, Inhabited

inductive Extreme where
  | least
  | greatest
deriving DecidableEq, Inhabited

inductive JsonNulls where
  | absent
  | null
deriving DecidableEq, Inhabited

inductive FrameUnit where
  | rows
  | range
  | groups
deriving DecidableEq, Inhabited

mutual

inductive Expr where
  | identifier (name : Identifier)
  | path (names : List Identifier)
  | literal (value : Literal)
  | nested (inner : Expr)
  | tuple (elements : List Expr)
  | unary (op : UnaryOp) (operand : Expr)
  | binary (op : BinaryOp) (left right : Expr)
  | quantified (op : BinaryOp) (quantifier : Quantifier) (left right : Expr)
  | isNull (operand : Expr)
  | isNotNull (operand : Expr)
  | isTruth (negated : Bool) (test : TruthTest) (operand : Expr)
  | isDistinct (negated : Bool) (left right : Expr)
  | between (negated : Bool) (subject low high : Expr)
  | inList (negated : Bool) (subject : Expr) (elements : List Expr)
  | inQuery (negated : Bool) (subject selected : Expr)
  | like (negated : Bool) (form : LikeForm) (subject pattern : Expr) (escape : Option Literal)
  | regexp (negated : Bool) (form : RegexpForm) (subject pattern : Expr)
  | cast (operand : Expr) (type : String)
  | castCall (operand : Expr) (type : String)
  | cases (operand : Option Expr) (branches : List (Expr × Expr)) (otherwise : Option Expr)
  | exists (negated : Bool) (selected : Expr)
  | typed (type : String) (value : Literal)
  | field (root part : Expr)
  | subscript (root index : Expr)
  | collate (operand : Expr) (collation : List Identifier)
  -- Parameters stand in parentheses of their own in front of the arguments.
  | call (braced : Bool) (name : List Identifier) (parameters arguments : Arguments)
      (clauses : CallClauses)
  | star (qualifier : List Identifier)
  | named (name value : Expr)
  -- Every form that is not listed here, by its written form.
  | other (text : String)

/-- A call may lack parentheses, as the name of the current user does. -/
inductive Arguments where
  | absent
  | selection (selected : Expr)
  | list (mode : CallMode) (values : List Expr) (clauses : List ArgumentClause)

/-- What may stand behind the last argument, inside the parentheses. -/
inductive ArgumentClause where
  | nulls (treatment : NullTreatment)
  | orderBy (keys : List SortKey)
  | limit (count : Expr)
  | having (extreme : Extreme) (value : Expr)
  | separator (value : Literal)
  | overflowError
  | overflowTruncate (filler : Option Expr) (counted : Bool)
  | jsonNulls (kept : JsonNulls)

structure SortKey where
  key : Expr
  direction : Option Direction := none
  nulls : Option NullsPlace := none
  fill : Option Fill := none

/-- How gaps between sorted rows are filled. -/
structure Fill where
  start : Option Expr := none
  stop : Option Expr := none
  step : Option Expr := none

/-- A distance that is left out is unbounded. -/
inductive FrameBound where
  | currentRow
  | preceding (distance : Option Expr)
  | following (distance : Option Expr)

structure Frame where
  unit : FrameUnit
  start : FrameBound
  stop : Option FrameBound := none

inductive Window where
  | named (name : Identifier)
  | defined (base : Option Identifier) (partitions : List Expr) (keys : List SortKey)
      (frame : Option Frame)

/-- What may stand behind the parentheses of a call. -/
structure CallClauses where
  withinGroup : List SortKey := []
  filter : Option Expr := none
  nulls : Option NullTreatment := none
  window : Option Window := none

end

instance : Inhabited Expr := ⟨.star []⟩

end ConeFilter.Sql
