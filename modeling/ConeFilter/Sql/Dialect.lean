import ConeFilter.Sql.Letters

/-!
Dialects. All that one dialect does differently from another is a field of
this record, so the scanner and the grammar are written once. The strengths
say how tightly an operator binds; an expression takes in every operator that
binds more tightly than the one it stands behind.
-/
namespace ConeFilter.Sql

structure Strengths where
  period : Nat
  cast : Nat
  bracket : Nat
  caret : Nat
  product : Nat
  sum : Nat
  xor : Nat
  concat : Nat
  ampersand : Nat
  pipe : Nat
  shift : Nat
  -- Arrows, containment and the operators that a user can define.
  special : Nat
  between : Nat
  like : Nat
  comparison : Nat
  is : Nat
  not : Nat
  and : Nat
  or : Nat

structure Dialect where
  strengths : Strengths
  -- Characters of names that are not quoted.
  nameStart : Char → Bool
  namePart : Char → Bool
  -- Opening characters of quoted names. Double quotes around anything else
  -- make a string.
  nameQuotes : List Char
  -- In strings, a backslash stands for nothing but itself unless it escapes.
  backslashEscapes : Bool := false
  keepsWildcardEscapes : Bool := false
  escapeStrings : Bool := false
  bitStrings : Bool := false
  -- Numbers with underscores in them, and names that start with digits.
  digitSeparators : Bool := false
  digitNames : Bool := false
  -- Comments.
  dashCommentNeedsBlank : Bool := false
  hashComments : Bool := false
  returnEndsComment : Bool := false
  nestedComments : Bool := false
  -- Operators made up of any operator characters, and the question mark as
  -- one; elsewhere it stands for a value.
  customOperators : Bool := false
  -- Operators in front of and behind an operand, besides the signs.
  unaryOperators : Bool := false
  overlap : Bool := false
  -- Constructs.
  truthLiterals : Bool := true
  currentUser : Bool := false
  qualifiedStars : Bool := false
  emptyLists : Bool := false
  regexpTakesRest : Bool := false
  namesAnyArgument : Bool := false
  -- Clauses of calls.
  parametricCalls : Bool := false
  filterClauses : Bool := false
  nullsAmongArguments : Bool := false
  havingArguments : Bool := false
  separatorArguments : Bool := false
  fillsGaps : Bool := false

namespace Dialect

def usualStrengths : Strengths :=
  { period := 100
    cast := 50
    bracket := 50
    caret := 22
    product := 40
    sum := 30
    xor := 24
    concat := 40
    ampersand := 23
    pipe := 21
    shift := 22
    special := 16
    between := 20
    like := 19
    comparison := 20
    is := 17
    not := 15
    and := 10
    or := 5 }

def postgresStrengths : Strengths :=
  { period := 200
    cast := 140
    bracket := 130
    caret := 100
    product := 90
    sum := 80
    xor := 75
    concat := 70
    ampersand := 70
    pipe := 70
    shift := 70
    special := 70
    between := 60
    like := 60
    comparison := 50
    is := 40
    not := 30
    and := 20
    or := 10 }

def doubleQuote : Char := '"'

def backtick : Char := '\x60'

def ansi : Dialect :=
  { strengths := usualStrengths
    nameStart := fun c => isLetter c || c = '_'
    namePart := fun c => isLetter c || c.isDigit || c = '_'
    nameQuotes := [doubleQuote, backtick] }

/-- Every character beyond ASCII may stand in a name, blanks included. -/
def postgres : Dialect :=
  { ansi with
    strengths := postgresStrengths
    nameStart := fun c => isWideLetter c || c = '_'
    namePart := fun c => isWideLetter c || c.isDigit || c = '_' || c = '$'
    nameQuotes := [doubleQuote]
    escapeStrings := true
    bitStrings := true
    digitSeparators := true
    returnEndsComment := true
    nestedComments := true
    customOperators := true
    unaryOperators := true
    overlap := true
    currentUser := true
    qualifiedStars := true
    namesAnyArgument := true
    filterClauses := true }

def generic : Dialect :=
  { ansi with
    escapeStrings := true
    bitStrings := true
    nestedComments := true
    currentUser := true
    parametricCalls := true
    filterClauses := true
    nullsAmongArguments := true
    havingArguments := true
    separatorArguments := true
    fillsGaps := true }

def mysql : Dialect :=
  { ansi with
    nameStart := fun c => isWideLetter c || c = '_' || c = '$' || c = '@'
    namePart := fun c => isWideLetter c || c.isDigit || c = '_' || c = '$' || c = '@'
    nameQuotes := [backtick]
    backslashEscapes := true
    keepsWildcardEscapes := true
    bitStrings := true
    digitNames := true
    dashCommentNeedsBlank := true
    hashComments := true
    separatorArguments := true }

def hive : Dialect :=
  { ansi with
    digitNames := true
    hashComments := true
    filterClauses := true }

def sqlite : Dialect :=
  { ansi with
    nameQuotes := [doubleQuote, backtick, '[']
    emptyLists := true
    regexpTakesRest := true
    filterClauses := true }

def snowflake : Dialect := { ansi with backslashEscapes := true, hashComments := true }

def redshift : Dialect :=
  { ansi with
    nameQuotes := [doubleQuote]
    backslashEscapes := true
    escapeStrings := true }

def mssql : Dialect :=
  { ansi with
    nameQuotes := [doubleQuote, '[']
    nestedComments := true
    truthLiterals := false
    namesAnyArgument := true }

def clickhouse : Dialect :=
  { ansi with
    backslashEscapes := true
    digitSeparators := true
    parametricCalls := true
    fillsGaps := true }

def bigquery : Dialect :=
  { ansi with
    nameQuotes := [backtick]
    backslashEscapes := true
    bitStrings := true
    hashComments := true
    nullsAmongArguments := true
    havingArguments := true }

def duckdb : Dialect := { ansi with filterClauses := true }

def databricks : Dialect := { ansi with nameQuotes := [backtick], filterClauses := true }

/-! Dialects are chosen by name, in any case. -/

def named (name : String) : Option Dialect :=
  match smalls name with
  | "generic" => some generic
  | "mysql" => some mysql
  | "postgresql" | "postgres" => some postgres
  | "hive" => some hive
  | "sqlite" => some sqlite
  | "snowflake" => some snowflake
  | "redshift" => some redshift
  | "mssql" => some mssql
  | "clickhouse" => some clickhouse
  | "bigquery" => some bigquery
  | "ansi" => some ansi
  | "duckdb" => some duckdb
  | "databricks" => some databricks
  | _ => none

end Dialect

end ConeFilter.Sql
