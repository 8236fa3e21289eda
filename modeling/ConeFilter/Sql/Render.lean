import ConeFilter.Sql.Expr

/-!
The written form of expressions: keywords in capitals, one blank around
operators and after commas, nothing else changed.
-/
namespace ConeFilter.Sql

/-! Quotes inside quotes are doubled. One that is doubled already, or that a
backslash stands before, is taken to be escaped and left alone. -/

def escapeQuotes (quote : Char) (escaped : Bool) : List Char → List Char
  | [] => []
  | [c] => if c = quote && !escaped then [c, c] else [c]
  | c :: d :: rest =>
      if c = quote then
        if escaped then c :: escapeQuotes quote true (d :: rest)
        else if d = quote then c :: d :: escapeQuotes quote false rest
        else c :: c :: escapeQuotes quote false (d :: rest)
      else c :: escapeQuotes quote (c = '\\') (d :: rest)

def quotedText (quote : Char) (content : String) : String :=
  Token.enclosed quote (String.ofList (escapeQuotes quote false content.toList))

def controlText (c : Char) : List Char :=
  match c with
  | '\'' => ['\\', '\'']
  | '\\' => ['\\', '\\']
  | '\n' => ['\\', 'n']
  | '\t' => ['\\', 't']
  | '\r' => ['\\', 'r']
  | other => [other]

namespace Identifier

def render (identifier : Identifier) : String :=
  match identifier.quote with
  | none => identifier.name
  | some '[' => Token.enclosed '[' identifier.name
  | some quote => quotedText quote identifier.name

end Identifier

def renderPath (names : List Identifier) : String :=
  String.intercalate "." (names.map Identifier.render)

namespace Literal

def render : Literal → String
  | .number digits long => if long then digits ++ "L" else digits
  | .string quote content => quotedText quote content
  | .national content => "N" ++ Token.enclosed '\'' content
  | .escaped content => "E" ++ Token.enclosed '\'' (String.ofList (content.toList.flatMap controlText))
  | .null => "NULL"
  | .verbatim text => text

end Literal

namespace BinaryOp

def symbol : BinaryOp → String
  | .and => "AND"
  | .or => "OR"
  | .equal => "="
  | .unequal => "<>"
  | .less => "<"
  | .lessEqual => "<="
  | .greater => ">"
  | .greaterEqual => ">="
  | .plus => "+"
  | .minus => "-"
  | .times => "*"
  | .divide => "/"
  | .matches spelling | .matchesNot spelling | .like spelling | .other spelling => spelling

end BinaryOp

def Quantifier.keyword : Quantifier → String
  | .any => "ANY"
  | .all => "ALL"
  | .some => "SOME"

def TruthTest.keyword : TruthTest → String
  | .true => "TRUE"
  | .false => "FALSE"
  | .unknown => "UNKNOWN"

def LikeForm.keyword : LikeForm → String
  | .like => "LIKE"
  | .ilike => "ILIKE"
  | .similar => "SIMILAR TO"

def RegexpForm.keyword : RegexpForm → String
  | .regexp => "REGEXP"
  | .rlike => "RLIKE"

def CallMode.keyword : CallMode → String
  | .plain => ""
  | .all => "ALL "
  | .distinct => "DISTINCT "

def NullTreatment.keyword : NullTreatment → String
  | .ignore => "IGNORE NULLS"
  | .respect => "RESPECT NULLS"

def Direction.keyword : Direction → String
  | .ascending => "ASC"
  | .descending => "DESC"

def NullsPlace.keyword : NullsPlace → String
  | .first => "NULLS FIRST"
  | .last => "NULLS LAST"

def Extreme.keyword : Extreme → String
  | .least => "MIN"
  | .greatest => "MAX"

def JsonNulls.keyword : JsonNulls → String
  | .absent => "ABSENT ON NULL"
  | .null => "NULL ON NULL"

def FrameUnit.keyword : FrameUnit → String
  | .rows => "ROWS"
  | .range => "RANGE"
  | .groups => "GROUPS"

def countKeyword (counted : Bool) : String := if counted then "WITH COUNT" else "WITHOUT COUNT"

/-- The keyword of a choice that was made, with a blank in front. -/
def spaced {α : Type} (keyword : α → String) : Option α → String
  | none => ""
  | some choice => " " ++ keyword choice

def spacedWords (words : List String) : String :=
  String.intercalate " " (words.filter fun word => !word.isEmpty)

def negation (negated : Bool) : String := if negated then "NOT " else ""

def escapeClause : Option Literal → String
  | none => ""
  | some literal => " ESCAPE " ++ literal.render

mutual

def Expr.render : Expr → String
  | .identifier name => name.render
  | .path names => renderPath names
  | .literal value => value.render
  | .nested inner => "(" ++ inner.render ++ ")"
  | .tuple elements => "(" ++ Expr.renderList elements ++ ")"
  | .unary .minus operand => "-" ++ operand.render
  | .unary .plus operand => "+" ++ operand.render
  | .unary .not operand => "NOT " ++ operand.render
  | .unary .absolute operand => "@" ++ operand.render
  | .unary .complement operand => "~" ++ operand.render
  | .unary .factorial operand => operand.render ++ "!"
  | .binary op left right => left.render ++ " " ++ op.symbol ++ " " ++ right.render
  | .quantified op quantifier left right =>
      left.render ++ " " ++ op.symbol ++ " " ++ quantifier.keyword ++ "(" ++ right.render ++ ")"
  | .isNull operand => operand.render ++ " IS NULL"
  | .isNotNull operand => operand.render ++ " IS NOT NULL"
  | .isTruth negated test operand => operand.render ++ " IS " ++ negation negated ++ test.keyword
  | .isDistinct negated left right =>
      left.render ++ " IS " ++ negation negated ++ "DISTINCT FROM " ++ right.render
  | .between negated subject low high =>
      subject.render ++ " " ++ negation negated ++ "BETWEEN " ++ low.render ++ " AND " ++ high.render
  | .inList negated subject elements =>
      subject.render ++ " " ++ negation negated ++ "IN (" ++ Expr.renderList elements ++ ")"
  | .inQuery negated subject selected =>
      subject.render ++ " " ++ negation negated ++ "IN (SELECT " ++ selected.render ++ ")"
  | .like negated form subject pattern escape =>
      subject.render ++ " " ++ negation negated ++ form.keyword ++ " " ++ pattern.render ++
        escapeClause escape
  | .regexp negated form subject pattern =>
      subject.render ++ " " ++ negation negated ++ form.keyword ++ " " ++ pattern.render
  | .cast operand type => operand.render ++ "::" ++ type
  | .castCall operand type => "CAST(" ++ operand.render ++ " AS " ++ type ++ ")"
  | .cases operand branches otherwise =>
      "CASE" ++ Expr.renderClause " " operand "" ++ Expr.renderBranches branches ++
        Expr.renderClause " ELSE " otherwise "" ++ " END"
  | .exists negated selected => negation negated ++ "EXISTS (SELECT " ++ selected.render ++ ")"
  | .typed type value => type ++ " " ++ value.render
  | .field root part => root.render ++ "." ++ part.render
  | .subscript root index => root.render ++ "[" ++ index.render ++ "]"
  | .collate operand collation => operand.render ++ " COLLATE " ++ renderPath collation
  | .call braced name parameters arguments clauses =>
      let text := renderPath name ++ parameters.render ++ arguments.render ++ clauses.render
      if braced then "\x7bfn " ++ text ++ "\x7d" else text
  | .star [] => "*"
  | .star qualifier => renderPath qualifier ++ ".*"
  | .named name value => name.render ++ " => " ++ value.render
  | .other text => text

def Expr.renderList : List Expr → String
  | [] => ""
  | [element] => element.render
  | element :: next :: rest => element.render ++ ", " ++ Expr.renderList (next :: rest)

def Expr.renderBranches : List (Expr × Expr) → String
  | [] => ""
  | (condition, result) :: rest =>
      " WHEN " ++ condition.render ++ " THEN " ++ result.render ++ Expr.renderBranches rest

def Expr.renderClause (opening : String) (clause : Option Expr) (closing : String) : String :=
  match clause with
  | none => ""
  | some inner => opening ++ inner.render ++ closing

def Arguments.render : Arguments → String
  | .absent => ""
  | .selection selected => "(SELECT " ++ selected.render ++ ")"
  | .list mode values clauses =>
      "(" ++ mode.keyword ++
        spacedWords [Expr.renderList values, ArgumentClause.renderAll clauses] ++ ")"

def ArgumentClause.render : ArgumentClause → String
  | .nulls treatment => treatment.keyword
  | .orderBy keys => "ORDER BY " ++ SortKey.renderList keys
  | .limit count => "LIMIT " ++ count.render
  | .having extreme value => "HAVING " ++ extreme.keyword ++ " " ++ value.render
  | .separator value => "SEPARATOR " ++ value.render
  | .overflowError => "ON OVERFLOW ERROR"
  | .overflowTruncate filler counted =>
      "ON OVERFLOW TRUNCATE" ++ Expr.renderClause " " filler "" ++ " " ++ countKeyword counted
  | .jsonNulls kept => kept.keyword

def ArgumentClause.renderAll : List ArgumentClause → String
  | [] => ""
  | [clause] => clause.render
  | clause :: next :: rest => clause.render ++ " " ++ ArgumentClause.renderAll (next :: rest)

def SortKey.render : SortKey → String
  | ⟨key, direction, nulls, fill⟩ =>
      key.render ++ spaced Direction.keyword direction ++ spaced NullsPlace.keyword nulls ++
        Fill.renderClause fill

def SortKey.renderList : List SortKey → String
  | [] => ""
  | [key] => key.render
  | key :: next :: rest => key.render ++ ", " ++ SortKey.renderList (next :: rest)

def Fill.renderClause : Option Fill → String
  | none => ""
  | some ⟨start, stop, step⟩ =>
      " WITH FILL" ++ Expr.renderClause " FROM " start "" ++ Expr.renderClause " TO " stop "" ++
        Expr.renderClause " STEP " step ""

def FrameBound.render : FrameBound → String
  | .currentRow => "CURRENT ROW"
  | .preceding none => "UNBOUNDED PRECEDING"
  | .preceding (some distance) => distance.render ++ " PRECEDING"
  | .following none => "UNBOUNDED FOLLOWING"
  | .following (some distance) => distance.render ++ " FOLLOWING"

def Frame.renderClause : Option Frame → String
  | none => ""
  | some ⟨unit, start, none⟩ => unit.keyword ++ " " ++ start.render
  | some ⟨unit, start, some stop⟩ =>
      unit.keyword ++ " BETWEEN " ++ start.render ++ " AND " ++ stop.render

def Window.renderClause : Option Window → String
  | none => ""
  | some (.named name) => " OVER " ++ name.render
  | some (.defined base partitions keys frame) =>
      let partitioned :=
        if partitions.isEmpty then "" else "PARTITION BY " ++ Expr.renderList partitions
      let sorted := if keys.isEmpty then "" else "ORDER BY " ++ SortKey.renderList keys
      let named := (base.map Identifier.render).getD ""
      " OVER (" ++ spacedWords [named, partitioned, sorted, Frame.renderClause frame] ++ ")"

def CallClauses.render : CallClauses → String
  | ⟨withinGroup, filter, nulls, window⟩ =>
      let sorted :=
        if withinGroup.isEmpty then ""
        else " WITHIN GROUP (ORDER BY " ++ SortKey.renderList withinGroup ++ ")"
      sorted ++ Expr.renderClause " FILTER (WHERE " filter ")" ++
        spaced NullTreatment.keyword nulls ++ Window.renderClause window

end

end ConeFilter.Sql
