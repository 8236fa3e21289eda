import ConeFilter.Sql.Render
import ConeFilter.Sql.Scanner

/-!
The grammar of expressions, by strengths of operators. An expression of some
strength is an operand, the links of a path behind it, and then every operator
that binds more tightly than that strength, each with its own right side.

Expressions nest at most fifty deep, which bounds the recursion. Every rule
below is written for a given reader of the expressions inside it, and the last
definition closes the circle, one level less at a time. The loops of a rule are
bounded by the number of tokens, because each round reads at least one.
-/
namespace ConeFilter.Sql

abbrev Tokens := List Token

abbrev Reads (α : Type) := Tokens → Option (α × Tokens)

/-! Words that matter. -/

def nextKeyword : Tokens → String
  | token :: _ => token.keyword
  | [] => ""

def expect (text : String) : Tokens → Option Tokens
  | .symbol other :: rest => if other = text then some rest else none
  | _ => none

def expectKeyword (keyword : String) : Tokens → Option Tokens
  | token :: rest => if token.keyword = keyword then some rest else none
  | [] => none

/-- The rest behind a keyword if it is there. -/
def skipKeyword (keyword : String) (input : Tokens) : Bool × Tokens :=
  match expectKeyword keyword input with
  | some rest => (true, rest)
  | none => (false, input)

/-- The rest behind keywords if all of them are there. -/
def expectKeywords (keywords : List String) (input : Tokens) : Option Tokens :=
  keywords.foldlM (fun rest keyword => expectKeyword keyword rest) input

def skipNot (input : Tokens) : Bool × Tokens := skipKeyword "NOT" input

/-! Lists with commas between the elements, and none behind the last. -/

def commaList {α : Type} (element : Reads α) : Nat → Reads (List α)
  | 0, _ => none
  | rounds + 1, input => do
      let (first, rest) ← element input
      match rest with
      | .symbol "," :: rest =>
          let (others, rest) ← commaList element rounds rest
          pure (first :: others, rest)
      | rest => pure ([first], rest)

def separated {α : Type} (element : Reads α) (input : Tokens) : Option (List α × Tokens) :=
  commaList element input.length input

/-! Literals. -/

def literal (dialect : Dialect) : Reads Literal
  | .number digits long :: rest => some (.number digits long, rest)
  | .string quote content :: rest => some (.string quote content, rest)
  | .national content :: rest => some (.national content, rest)
  | .escaped content :: rest => some (.escaped content, rest)
  | .verbatim text :: rest => some (.verbatim text, rest)
  | .colon true :: .word _ name :: rest => some (.verbatim (":" ++ name), rest)
  | .colon true :: .number digits false :: rest => some (.verbatim (":" ++ digits), rest)
  | token :: rest =>
      match token.keyword with
      | "NULL" => some (.null, rest)
      | "TRUE" => if dialect.truthLiterals then some (.verbatim "true", rest) else none
      | "FALSE" => if dialect.truthLiterals then some (.verbatim "false", rest) else none
      | _ => none
  | [] => none

/-! Types are single words. The ones that are known are written in capitals,
and a known one in front of a literal says how to read it. -/

def knownTypes : List String :=
  ["BIGINT", "BOOL", "BOOLEAN", "BYTEA", "CHAR", "CHARACTER", "DATE", "DATETIME", "DEC", "DECIMAL",
    "DOUBLE", "FLOAT", "FLOAT4", "FLOAT8", "INT", "INT2", "INT4", "INT8", "INTEGER", "JSON", "JSONB",
    "NUMERIC", "REAL", "SMALLINT", "STRING", "TEXT", "TIME", "TIMESTAMP", "TIMESTAMPTZ", "TINYINT",
    "UUID", "VARCHAR"]

def typeName : Reads String
  | .word none name :: rest =>
      if capitals name ∈ knownTypes then some (capitals name, rest) else some (name, rest)
  | .word quote name :: rest => some (Identifier.render ⟨quote, name⟩, rest)
  | _ => none

def typedLiteral (dialect : Dialect) (input : Tokens) : Option (Expr × Tokens) := do
  let (type, rest) ← typeName input
  if nextKeyword input ∈ knownTypes then
    let (value, rest) ← literal dialect rest
    pure (.typed type value, rest)
  else none

/-! Paths that end in a star. -/

def qualifiedStar : Reads (List Identifier)
  | .word quote name :: .symbol "." :: .symbol "*" :: rest => some ([⟨quote, name⟩], rest)
  | .word quote name :: .symbol "." :: rest =>
      (qualifiedStar rest).map fun read => (⟨quote, name⟩ :: read.1, read.2)
  | _ => none

/-- Names with points between them. -/
def objectName : Reads (List Identifier)
  | .word quote name :: .symbol "." :: rest =>
      (objectName rest).map fun read => (⟨quote, name⟩ :: read.1, read.2)
  | .word quote name :: rest => some ([⟨quote, name⟩], rest)
  | _ => none

/-! The strength of the operator that comes next, or zero if none does. -/

namespace Dialect

def symbolStrength (dialect : Dialect) (text : String) : Nat :=
  let strengths := dialect.strengths
  if text ∈ ["=", "==", "<>", "<", "<=", ">", ">=", "~", "~*", "!~", "!~*", "~~", "~~*", "!~~", "!~~*",
    "<=>", ":="] then strengths.comparison
  else if text ∈ ["+", "-"] then strengths.sum
  else if text ∈ ["*", "/", "%"] then strengths.product
  else if text ∈ ["->", "->>", "@>", "<@", "?"] then strengths.special
  else if text ∈ ["#", "<<", ">>"] then strengths.shift
  else match text with
    | "." => strengths.period
    | "::" => strengths.cast
    | "[" => strengths.bracket
    | "^" => strengths.caret
    | "||" => strengths.concat
    | "&" => strengths.ampersand
    | "|" => strengths.pipe
    | "!" => if dialect.unaryOperators then strengths.special else strengths.cast
    | "&&" => if dialect.overlap then strengths.special else 0
    | _ => 0

def predicateStrength (dialect : Dialect) (keyword : String) : Nat :=
  if keyword ∈ ["IN", "BETWEEN"] then dialect.strengths.between
  else if keyword ∈ ["LIKE", "ILIKE", "SIMILAR", "REGEXP", "RLIKE"] then dialect.strengths.like
  else 0

def strength (dialect : Dialect) : Tokens → Nat
  | .symbol text :: _ => dialect.symbolStrength text
  | .custom _ :: _ => dialect.strengths.special
  | token :: rest =>
      match token.keyword with
      | "OR" => dialect.strengths.or
      | "AND" => dialect.strengths.and
      | "XOR" => dialect.strengths.xor
      | "IS" => dialect.strengths.is
      | "NOT" => dialect.predicateStrength (nextKeyword rest)
      | keyword => dialect.predicateStrength keyword
  | [] => 0

end Dialect

/-! Operators with a value on both sides. -/

def symbolOperator (text : String) : Option BinaryOp :=
  match text with
  | "=" | "==" => some .equal
  | "<>" => some .unequal
  | "<" => some .less
  | "<=" => some .lessEqual
  | ">" => some .greater
  | ">=" => some .greaterEqual
  | "+" => some .plus
  | "-" => some .minus
  | "*" => some .times
  | "/" => some .divide
  | "~" | "~*" => some (.matches text)
  | "!~" | "!~*" => some (.matchesNot text)
  | "~~" | "~~*" | "!~~" | "!~~*" => some (.like text)
  | "%" | "^" | "||" | "&" | "|" | "#" | "<<" | ">>" | "->" | "->>" | "@>" | "<@" | "?" | "&&"
  | "<=>" | ":=" => some (.other text)
  | _ => none

def binaryOperator : Reads BinaryOp
  | .symbol text :: rest => (symbolOperator text).map fun op => (op, rest)
  | .custom text :: rest => some (.other text, rest)
  | token :: rest =>
      match token.keyword with
      | "AND" => some (.and, rest)
      | "OR" => some (.or, rest)
      | "XOR" => some (.other "XOR", rest)
      | _ => none
  | [] => none

def quantifier : Reads Quantifier
  | token :: rest =>
      match token.keyword with
      | "ANY" => some (.any, rest)
      | "ALL" => some (.all, rest)
      | "SOME" => some (.some, rest)
      | _ => none
  | [] => none

def BinaryOp.quantifiable : BinaryOp → Bool
  | .equal | .unequal | .less | .lessEqual | .greater | .greaterEqual => true
  | .matches _ | .matchesNot _ | .like _ => true
  | _ => false

/-! The rules. `sub` reads an expression of a given strength one level down,
and `query` the expression that a nested selection selects, which is a level
further down. -/

section
variable (dialect : Dialect) (sub : Nat → Reads Expr) (query : Reads Expr)

def parenthesized (input : Tokens) : Option (Expr × Tokens) := do
  let (elements, rest) ← separated (sub 0) (← expect "(" input)
  let rest ← expect ")" rest
  match elements with
  | [inner] => pure (.nested inner, rest)
  | elements => pure (.tuple elements, rest)

def selection (input : Tokens) : Option (Expr × Tokens) := do
  query (← expectKeyword "SELECT" input)

def parenthesizedSelection (input : Tokens) : Option (Expr × Tokens) := do
  let (selected, rest) ← selection query (← expect "(" input)
  pure (selected, ← expect ")" rest)

/-! Calls. -/

def argumentValue (input : Tokens) : Option (Expr × Tokens) :=
  match input with
  | .symbol "*" :: rest => some (.star [], rest)
  | _ =>
      match qualifiedStar input with
      | some (qualifier, rest) => some (.star qualifier, rest)
      | none => sub 0 input

def mayName : Expr → Bool
  | .identifier _ => true
  | .star _ => false
  | _ => dialect.namesAnyArgument

def argument (input : Tokens) : Option (Expr × Tokens) := do
  let (first, rest) ← argumentValue sub input
  match rest with
  | .symbol "=>" :: rest =>
      if mayName dialect first then
        let (value, rest) ← argumentValue sub rest
        pure (.named first value, rest)
      else none
  | rest => pure (first, rest)

def callMode (input : Tokens) : CallMode × Tokens :=
  match expectKeyword "ALL" input, expectKeyword "DISTINCT" input with
  | some rest, _ => (.all, rest)
  | none, some rest => (.distinct, rest)
  | none, none => (.plain, input)

/-! Clauses of calls. A clause is asked for by its keywords; without them it is left out. -/

def clause {α : Type} (allowed : Bool) (keywords : List String) (rule : Reads α)
    (input : Tokens) : Option (Option α × Tokens) :=
  match (if allowed then expectKeywords keywords input else none) with
  | none => some (none, input)
  | some rest => (rule rest).map fun read => (some read.1, read.2)

/-- The first choice whose keywords come next. -/
def chosen {α : Type} (choices : List (List String × α)) (input : Tokens) : Option α × Tokens :=
  let found := choices.findSome? fun choice =>
    (expectKeywords choice.1 input).map fun rest => (choice.2, rest)
  match found with
  | some (choice, rest) => (some choice, rest)
  | none => (none, input)

def direction : Tokens → Option Direction × Tokens :=
  chosen [(["ASC"], .ascending), (["DESC"], .descending)]

def nullsPlace : Tokens → Option NullsPlace × Tokens :=
  chosen [(["NULLS", "FIRST"], .first), (["NULLS", "LAST"], .last)]

def jsonNulls : Tokens → Option JsonNulls × Tokens :=
  chosen [(["ABSENT", "ON", "NULL"], .absent), (["NULL", "ON", "NULL"], .null)]

def extreme : Tokens → Option Extreme × Tokens :=
  chosen [(["MIN"], .least), (["MAX"], .greatest)]

def frameUnit : Tokens → Option FrameUnit × Tokens :=
  chosen [(["ROWS"], .rows), (["RANGE"], .range), (["GROUPS"], .groups)]

/-- Half of a null treatment is an error. -/
def nullTreatment (allowed : Bool) (input : Tokens) : Option (Option NullTreatment × Tokens) :=
  let choices := [(["RESPECT"], NullTreatment.respect), (["IGNORE"], .ignore)]
  match chosen (if allowed then choices else []) input with
  | (some treatment, rest) => (expectKeyword "NULLS" rest).map fun rest => (some treatment, rest)
  | (none, rest) => some (none, rest)

def fill (input : Tokens) : Option (Fill × Tokens) := do
  let (start, rest) ← clause true ["FROM"] (sub 0) input
  let (stop, rest) ← clause true ["TO"] (sub 0) rest
  let (step, rest) ← clause true ["STEP"] (sub 0) rest
  pure (⟨start, stop, step⟩, rest)

def sortKey (input : Tokens) : Option (SortKey × Tokens) := do
  let (key, rest) ← sub 0 input
  let (direction, rest) := direction rest
  let (nulls, rest) := nullsPlace rest
  let (fill, rest) ← clause dialect.fillsGaps ["WITH", "FILL"] (fill sub) rest
  pure (⟨key, direction, nulls, fill⟩, rest)

def having (input : Tokens) : Option (ArgumentClause × Tokens) := do
  let (extreme, rest) := extreme input
  let (value, rest) ← sub 0 rest
  pure (.having (← extreme) value, rest)

def startsString : Tokens → Bool
  | .string '\'' _ :: _ | .national _ :: _ | .escaped _ :: _ => true
  | _ => false

def overflow (input : Tokens) : Option (ArgumentClause × Tokens) :=
  match expectKeyword "ERROR" input with
  | some rest => some (.overflowError, rest)
  | none => do
      let rest ← expectKeyword "TRUNCATE" input
      let (filler, rest) ← clause (startsString rest) [] (sub 0) rest
      let (counted, rest) := chosen [(["WITH", "COUNT"], true), (["WITHOUT", "COUNT"], false)] rest
      pure (.overflowTruncate filler (← counted), rest)

def argumentClauses (input : Tokens) : Option (List ArgumentClause × Tokens) := do
  let (nulls, rest) ← nullTreatment dialect.nullsAmongArguments input
  let (keys, rest) ← clause true ["ORDER", "BY"] (separated (sortKey dialect sub)) rest
  let (count, rest) ← clause true ["LIMIT"] (sub 0) rest
  let (bound, rest) ← clause dialect.havingArguments ["HAVING"] (having sub) rest
  let (separator, rest) ← clause dialect.separatorArguments ["SEPARATOR"] (literal dialect) rest
  let (overflow, rest) ← clause true ["ON", "OVERFLOW"] (overflow sub) rest
  let (kept, rest) := jsonNulls rest
  let found := [nulls.map .nulls, keys.map .orderBy, count.map .limit, bound,
    separator.map .separator, overflow, kept.map .jsonNulls]
  pure (found.filterMap id, rest)

/-- The clause about nulls in objects may also stand in front of the arguments. -/
def argumentList (input : Tokens) : Option (Arguments × Tokens) :=
  let (kept, rest) := jsonNulls input
  let early := (kept.map ArgumentClause.jsonNulls).toList
  match expect ")" rest with
  | some rest => some (.list .plain [] early, rest)
  | none => do
      let (mode, rest) := callMode rest
      let (values, rest) ← separated (argument dialect sub) rest
      let (clauses, rest) ← argumentClauses dialect sub rest
      pure (.list mode values (early ++ clauses), ← expect ")" rest)

def withinGroup (input : Tokens) : Option (List SortKey × Tokens) := do
  let rest ← expectKeywords ["ORDER", "BY"] (← expect "(" input)
  let (keys, rest) ← separated (sortKey dialect sub) rest
  pure (keys, ← expect ")" rest)

/-- A word that no condition follows is passed over. -/
def filterClause (input : Tokens) : Option (Option Expr × Tokens) :=
  match (if dialect.filterClauses then expectKeyword "FILTER" input else none) with
  | none => some (none, input)
  | some rest =>
      match expect "(" rest with
      | none => some (none, rest)
      | some rest => do
          let (condition, rest) ← clause true ["WHERE"] (sub 0) rest
          if condition.isNone then some (none, rest) else pure (condition, ← expect ")" rest)

/-- Spans of time are no distances here. -/
def frameDistance (input : Tokens) : Option (Option Expr × Tokens) :=
  match expectKeyword "UNBOUNDED" input with
  | some rest => some (none, rest)
  | none => if startsString input then none else clause true [] (sub 0) input

def frameBound (input : Tokens) : Option (FrameBound × Tokens) :=
  match expectKeywords ["CURRENT", "ROW"] input with
  | some rest => some (.currentRow, rest)
  | none => do
      let (distance, rest) ← frameDistance sub input
      match expectKeyword "PRECEDING" rest with
      | some rest => pure (.preceding distance, rest)
      | none => pure (.following distance, ← expectKeyword "FOLLOWING" rest)

def frame (input : Tokens) : Option (Frame × Tokens) := do
  let (unit, rest) := frameUnit input
  let (between, rest) := skipKeyword "BETWEEN" rest
  let (start, rest) ← frameBound sub rest
  let (stop, rest) ← clause between ["AND"] (frameBound sub) rest
  if between && stop.isNone then none else pure (⟨← unit, start, stop⟩, rest)

def windowBase : Tokens → Option Identifier × Tokens
  | .word quote name :: rest =>
      let opens := quote.isNone && capitals name ∈ ["PARTITION", "ORDER", "ROWS", "RANGE", "GROUPS"]
      if opens then (none, .word quote name :: rest) else (some ⟨quote, name⟩, rest)
  | input => (none, input)

def window (input : Tokens) : Option (Window × Tokens) :=
  match input with
  | .word quote name :: rest => some (.named ⟨quote, name⟩, rest)
  | .string quote name :: rest => some (.named ⟨some quote, name⟩, rest)
  | _ => do
      let (base, rest) := windowBase (← expect "(" input)
      let (partitions, rest) ← clause true ["PARTITION", "BY"] (separated (sub 0)) rest
      let (keys, rest) ← clause true ["ORDER", "BY"] (separated (sortKey dialect sub)) rest
      let (frame, rest) ← clause (expect ")" rest).isNone [] (frame sub) rest
      pure (.defined base (partitions.getD []) (keys.getD []) frame, ← expect ")" rest)

/-- Nulls are treated inside the parentheses or behind them. -/
def Arguments.treatsNulls : Arguments → Bool
  | .list _ _ clauses => clauses.any fun | .nulls _ => true | _ => false
  | _ => false

def callClauses (arguments : Arguments) (input : Tokens) : Option (CallClauses × Tokens) := do
  let (keys, rest) ← clause true ["WITHIN", "GROUP"] (withinGroup dialect sub) input
  let (filter, rest) ← filterClause dialect sub rest
  let (nulls, rest) ← nullTreatment (!arguments.treatsNulls) rest
  let (window, rest) ← clause true ["OVER"] (window dialect sub) rest
  pure (⟨keys.getD [], filter, nulls, window⟩, rest)

def callOf (braced : Bool) (name : List Identifier) (input : Tokens) : Option (Expr × Tokens) := do
  let (first, rest) ← argumentList dialect sub (← expect "(" input)
  let parametric := dialect.parametricCalls && (expect "(" rest).isSome
  let (second, rest) ←
    clause parametric [] (fun rest => argumentList dialect sub (rest.drop 1)) rest
  let (parameters, arguments) := match second with
    | some arguments => (first, arguments)
    | none => (Arguments.absent, first)
  let (clauses, rest) ← callClauses dialect sub arguments rest
  pure (.call braced name parameters arguments clauses, rest)

def bracedCall (input : Tokens) : Option (Expr × Tokens) := do
  let (name, rest) ← objectName (← expectKeyword "FN" input)
  let (called, rest) ← callOf dialect sub true name rest
  pure (called, ← expect "\x7d" rest)

/-- A word that has no special meaning, or that did not get its special reading. -/
def ordinaryWord (name : Identifier) (input : Tokens) : Option (Expr × Tokens) :=
  match input with
  | .symbol "(" :: _ => callOf dialect sub false [name] input
  | rest => some (.identifier name, rest)

/-! Words with a special meaning in front of an operand. -/

def branch (input : Tokens) : Option ((Expr × Expr) × Tokens) := do
  let (condition, rest) ← sub 0 (← expectKeyword "WHEN" input)
  let (result, rest) ← sub 0 (← expectKeyword "THEN" rest)
  pure ((condition, result), rest)

def branches : Nat → Reads (List (Expr × Expr))
  | 0, _ => none
  | rounds + 1, input => do
      let (first, rest) ← branch sub input
      if nextKeyword rest = "WHEN" then
        let (others, rest) ← branches rounds rest
        pure (first :: others, rest)
      else pure ([first], rest)

def caseOperand (input : Tokens) : Option (Option Expr × Tokens) :=
  if nextKeyword input = "WHEN" then some (none, input)
  else (sub 0 input).map fun read => (some read.1, read.2)

def caseOtherwise (input : Tokens) : Option (Option Expr × Tokens) :=
  match expectKeyword "ELSE" input with
  | none => some (none, input)
  | some rest => (sub 0 rest).map fun read => (some read.1, read.2)

def caseRule (input : Tokens) : Option (Expr × Tokens) := do
  let (operand, rest) ← caseOperand sub input
  let (branches, rest) ← branches sub rest.length rest
  let (otherwise, rest) ← caseOtherwise sub rest
  pure (.cases operand branches otherwise, ← expectKeyword "END" rest)

def castRule (input : Tokens) : Option (Expr × Tokens) := do
  let (operand, rest) ← sub 0 (← expect "(" input)
  let (type, rest) ← typeName (← expectKeyword "AS" rest)
  pure (.castCall operand type, ← expect ")" rest)

def existsRule (negated : Bool) (input : Tokens) : Option (Expr × Tokens) :=
  (parenthesizedSelection query input).map fun read => (.exists negated read.1, read.2)

def notRule (input : Tokens) : Option (Expr × Tokens) :=
  match expectKeyword "EXISTS" input with
  | some rest => existsRule query true rest
  | none => (sub dialect.strengths.not input).map fun read => (.unary .not read.1, read.2)

def namedCall (name : String) (arguments : Arguments) : Expr :=
  .call false [⟨none, name⟩] .absent arguments {}

/-- The reading that a word asks for, if it asks for one. -/
def specialWord (name : String) (input : Tokens) : Option (Option (Expr × Tokens)) :=
  match capitals name with
  | "NULL" => some (some (.literal .null, input))
  | "TRUE" => if dialect.truthLiterals then some (some (.literal (.verbatim "true"), input)) else none
  | "FALSE" => if dialect.truthLiterals then some (some (.literal (.verbatim "false"), input)) else none
  | "CURRENT_USER" =>
      if dialect.currentUser then some (some (namedCall name .absent, input)) else none
  | "CASE" => some (caseRule sub input)
  | "CAST" => some (castRule sub input)
  | "EXISTS" => some (existsRule query false input)
  | "ARRAY" =>
      if (expect "(" input).isSome then
        some ((parenthesizedSelection query input).map fun read =>
          (namedCall name (.selection read.1), read.2))
      else none
  | "NOT" => some (notRule dialect sub query input)
  | _ => none

/-- A word that cannot be read the way it asks for is read as any other word, unless it is
one that never names anything. -/
def unquotedWord (name : String) (input : Tokens) : Option (Expr × Tokens) :=
  let ordinary := ordinaryWord dialect sub ⟨none, name⟩ input
  match specialWord dialect sub query name input with
  | none => ordinary
  | some (some read) => some read
  | some none => if capitals name = "EXISTS" then none else ordinary

/-! Operands. -/

def signed (op : UnaryOp) (strength : Nat) (input : Tokens) : Option (Expr × Tokens) :=
  (sub strength input).map fun read => (.unary op read.1, read.2)

def symbolOperand (text : String) (rest : Tokens) : Option (Expr × Tokens) :=
  match text with
  | "-" => signed sub .minus dialect.strengths.product rest
  | "+" => signed sub .plus dialect.strengths.product rest
  | "@" => if dialect.unaryOperators then signed sub .absolute dialect.strengths.sum rest else none
  | "~" => if dialect.unaryOperators then signed sub .complement dialect.strengths.sum rest else none
  | "(" => parenthesized sub (.symbol "(" :: rest)
  | "\x7b" => bracedCall dialect sub rest
  | _ => none

def plainOperand (input : Tokens) : Option (Expr × Tokens) :=
  match input with
  | .word none name :: rest => unquotedWord dialect sub query name rest
  | .word quote name :: rest => ordinaryWord dialect sub ⟨quote, name⟩ rest
  | .symbol text :: rest => symbolOperand dialect sub text rest
  | other => (literal dialect other).map fun read => (.literal read.1, read.2)

def collated (operand : Expr) (input : Tokens) : Option (Expr × Tokens) :=
  match expectKeyword "COLLATE" input with
  | none => some (operand, input)
  | some rest => (objectName rest).map fun read => (.collate operand read.1, read.2)

/-- What a type says about a literal is complete and takes no collation. -/
def operand (input : Tokens) : Option (Expr × Tokens) :=
  match typedLiteral dialect input with
  | some read => some read
  | none => do
      let (plain, rest) ← plainOperand dialect sub query input
      collated plain rest

end

/-! The links of a path: names behind points, and subscripts. -/

inductive Link where
  | part (expr : Expr)
  | index (expr : Expr)

def Link.ofExpr : Expr → List Link
  | .path names => names.map fun name => .part (.identifier name)
  | other => [.part other]

def Link.name? : Link → Option Identifier
  | .part (.identifier name) => some name
  | _ => none

def attach (root : Expr) : Link → Expr
  | .part expr => .field root expr
  | .index expr => .subscript root expr

/-- Names alone make a path, and names in front of a call make a longer name. -/
def linkNames (root : Identifier) (links : List Link) : Option Expr :=
  match links.getLast?, links.dropLast.mapM Link.name? with
  | some (.part (.identifier last)), some names => some (.path (root :: names ++ [last]))
  | some (.part (.call braced name parameters arguments clauses)), some names =>
      some (.call braced (root :: names ++ name) parameters arguments clauses)
  | _, _ => none

def link (root : Expr) (links : List Link) : Expr :=
  let nested := links.foldl attach root
  match root with
  | .identifier name => (linkNames name links).getD nested
  | _ => nested

def linkStar (root : Expr) (links : List Link) : Option Expr :=
  match root, links.mapM Link.name? with
  | .identifier name, some names => some (.star (name :: names))
  | _, _ => none

section
variable (dialect : Dialect) (sub : Nat → Reads Expr)

def linked (root : Expr) : Nat → List Link → Reads Expr
  | 0, links, input => some (link root links, input)
  | rounds + 1, links, input =>
      match input with
      | .symbol "." :: .symbol "*" :: rest =>
          if dialect.qualifiedStars then (linkStar root links).map fun star => (star, rest)
          else some (link root links, input)
      | .symbol "." :: .string '\'' name :: rest =>
          linked root rounds (links ++ [.part (.identifier ⟨some '\'', name⟩)]) rest
      | .symbol "." :: rest => do
          let (next, rest) ← sub dialect.strengths.period rest
          linked root rounds (links ++ Link.ofExpr next) rest
      | .symbol "[" :: rest => do
          let (index, rest) ← sub 0 rest
          linked root rounds (links ++ [.index index]) (← expect "]" rest)
      | _ => some (link root links, input)

/-! Operators behind an operand. -/

def isRule (left : Expr) (input : Tokens) : Option (Expr × Tokens) :=
  let (negated, rest) := skipNot input
  match nextKeyword rest with
  | "NULL" => some (if negated then .isNotNull left else .isNull left, rest.drop 1)
  | "TRUE" => some (.isTruth negated .true left, rest.drop 1)
  | "FALSE" => some (.isTruth negated .false left, rest.drop 1)
  | "UNKNOWN" => some (.isTruth negated .unknown left, rest.drop 1)
  | "DISTINCT" => do
      let (right, rest) ← sub 0 (← expectKeyword "FROM" (rest.drop 1))
      pure (.isDistinct negated left right, rest)
  | _ => none

def betweenRule (negated : Bool) (left : Expr) (input : Tokens) : Option (Expr × Tokens) := do
  let (low, rest) ← sub dialect.strengths.between input
  let (high, rest) ← sub dialect.strengths.between (← expectKeyword "AND" rest)
  pure (.between negated left low high, rest)

def listElements (input : Tokens) : Option (List Expr × Tokens) :=
  if dialect.emptyLists && (expect ")" input).isSome then some ([], input)
  else separated (sub 0) input

def inRule (query : Reads Expr) (negated : Bool) (left : Expr) (input : Tokens) :
    Option (Expr × Tokens) := do
  let rest ← expect "(" input
  match selection query rest with
  | some (selected, rest) => pure (.inQuery negated left selected, ← expect ")" rest)
  | none =>
      let (elements, rest) ← listElements dialect sub rest
      pure (.inList negated left elements, ← expect ")" rest)

def escapeRule (input : Tokens) : Option (Option Literal × Tokens) :=
  match expectKeyword "ESCAPE" input with
  | none => some (none, input)
  | some rest => (literal dialect rest).map fun read => (some read.1, read.2)

def likeRule (negated : Bool) (form : LikeForm) (left : Expr) (input : Tokens) :
    Option (Expr × Tokens) := do
  let (pattern, rest) ← sub dialect.strengths.like input
  let (escape, rest) ← escapeRule dialect rest
  pure (.like negated form left pattern escape, rest)

def regexpRule (negated : Bool) (form : RegexpForm) (left : Expr) (input : Tokens) :
    Option (Expr × Tokens) :=
  (sub dialect.strengths.like input).map fun read => (.regexp negated form left read.1, read.2)

def predicateRule (query : Reads Expr) (left : Expr) (input : Tokens) : Option (Expr × Tokens) :=
  let (negated, rest) := skipNot input
  let after := rest.drop 1
  match nextKeyword rest with
  | "REGEXP" => regexpRule dialect sub negated .regexp left after
  | "RLIKE" => regexpRule dialect sub negated .rlike left after
  | "IN" => inRule dialect sub query negated left after
  | "BETWEEN" => betweenRule dialect sub negated left after
  | "LIKE" => likeRule dialect sub negated .like left after
  | "ILIKE" => likeRule dialect sub negated .ilike left after
  | "SIMILAR" => do likeRule dialect sub negated .similar left (← expectKeyword "TO" after)
  | _ => none

def binaryRule (strength : Nat) (left : Expr) (input : Tokens) : Option (Expr × Tokens) := do
  let (op, rest) ← binaryOperator input
  match quantifier rest with
  | some (quantifier, rest) =>
      let (right, rest) ← sub strength (← expect "(" rest)
      let rest ← expect ")" rest
      if op.quantifiable then pure (.quantified op quantifier left right, rest) else none
  | none =>
      let (right, rest) ← sub strength rest
      pure (.binary op left right, rest)

def castSuffix (left : Expr) (input : Tokens) : Option (Expr × Tokens) :=
  (typeName input).map fun read => (.cast left read.1, read.2)

def operation (query : Reads Expr) (strength : Nat) (left : Expr) (input : Tokens) :
    Option (Expr × Tokens) :=
  match input with
  | .symbol "::" :: rest => castSuffix left rest
  | .symbol "!" :: rest => if dialect.unaryOperators then some (.unary .factorial left, rest) else none
  | token :: rest =>
      if token.keyword = "REGEXP" ∧ dialect.regexpTakesRest then
        (sub 0 rest).map fun read => (.binary (.matches "REGEXP") left read.1, read.2)
      else if token.keyword = "IS" then isRule sub left rest
      else
        match binaryRule sub strength left input with
        | some read => some read
        | none => predicateRule dialect sub query left input
  | [] => none

/-- Points belong to paths, so one that is left over ends the expression. -/
def operations (query : Reads Expr) (strength : Nat) : Nat → Expr → Reads Expr
  | 0, left, input => some (left, input)
  | rounds + 1, left, input =>
      let next := dialect.strength input
      if next ≤ strength || (expect "." input).isSome then some (left, input)
      else do
        let (combined, rest) ← operation dialect sub query next left input
        operations query strength rounds combined rest

def expression (query : Reads Expr) (strength : Nat) (input : Tokens) : Option (Expr × Tokens) := do
  let (first, rest) ← operand dialect sub query input
  let (whole, rest) ← linked dialect sub first rest.length [] rest
  operations dialect sub query strength rest.length whole rest

end

/-! Levels. -/

def depthLimit : Nat := 50

def exprAt (dialect : Dialect) : Nat → Nat → Reads Expr
  | 0 => fun _ _ => none
  | 1 => expression dialect (fun _ _ => none) (fun _ => none)
  | depth + 2 => expression dialect (exprAt dialect (depth + 1)) (exprAt dialect depth 0)

/-! A whole text is one expression and any number of semicolons. -/

inductive SyntaxFault where
  | malformed
  | trailing (token : Token)
deriving DecidableEq

namespace SyntaxFault

/-- Only what follows a complete expression is described. -/
def message? : SyntaxFault → Option String
  | .malformed => none
  | .trailing token =>
      some ("sql parser error: unexpected trailing input starting at '" ++ token.render ++ "'")

end SyntaxFault

def parse (dialect : Dialect) (text : String) : Except SyntaxFault Expr :=
  match (tokens dialect text).bind (exprAt dialect depthLimit 0) with
  | none => .error .malformed
  | some (expr, rest) =>
      match rest.dropWhile (· == .symbol ";") with
      | [] => .ok expr
      | token :: _ => .error (.trailing token)

end ConeFilter.Sql
