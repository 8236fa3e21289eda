import ConeFilter.Numeral.Integer
import ConeFilter.Sql.Dialect
import ConeFilter.Sql.Token

/-!
The scanner. One step reads a blank, a comment or a token from the front of
the text, and a text is scanned by steps until it is empty. Where two readings
are possible the longer one is taken. Strings, quoted names and comments that
do not end are faults, and a fault anywhere refuses the whole text.
-/
namespace ConeFilter.Sql

abbrev Text := List Char

/-! Strings and quoted names, after their opening quote. A quote inside is
doubled. -/

def controlCharacter (c : Char) : Char :=
  match c with
  | '0' => '\x00'
  | 'a' => '\x07'
  | 'b' => '\x08'
  | 'f' => '\x0c'
  | 'n' => '\n'
  | 'r' => '\r'
  | 't' => '\t'
  | 'Z' => '\x1a'
  | other => other

def before (characters : Text) (read : Option (Text × Text)) : Option (Text × Text) :=
  read.map fun result => (characters ++ result.1, result.2)

def quotedBody (closing : Char) (backslash keepsWildcards : Bool) : Text → Option (Text × Text)
  | [] => none
  | [c] => if c = closing then some ([], []) else none
  | c :: d :: rest =>
      if c = closing then
        if d = closing then before [closing] (quotedBody closing backslash keepsWildcards rest)
        else some ([], d :: rest)
      else if c = '\\' && backslash then
        let read := quotedBody closing backslash keepsWildcards rest
        if keepsWildcards && (d = '%' || d = '_') then before [c, d] read
        else before [controlCharacter d] read
      else before [c] (quotedBody closing backslash keepsWildcards (d :: rest))

def plainString (dialect : Dialect) (quote : Char) (text : Text) : Option (String × Text) :=
  (quotedBody quote dialect.backslashEscapes dialect.keepsWildcardEscapes text).map fun read =>
    (String.ofList read.1, read.2)

/-! Escape strings. A character can be written by its number, and the
character with number zero cannot be written that way. -/

def digitOf (c : Char) : Nat :=
  if c.isDigit then c.toNat - '0'.toNat
  else if 'a' ≤ c then c.toNat - 'a'.toNat + 10
  else c.toNat - 'A'.toNat + 10

def numberOf (base : Nat) (digits : Text) : Nat :=
  digits.foldl (fun n c => base * n + digitOf c) 0

def isOctalDigit (c : Char) : Bool := '0' ≤ c && c ≤ '7'

/-- Bytes are counted modulo their range, and only ASCII can be written as one. -/
def byteCharacter (n : Nat) : Option Char :=
  let byte := n % 256
  if byte < 128 then some (Char.ofNat byte) else none

def codePoint (n : Nat) : Option Char :=
  if n < 0xD800 ∨ (0xDFFF < n ∧ n < 0x110000) then some (Char.ofNat n) else none

/-- Exactly so many hexadecimal digits; the first may be a plus sign instead. -/
def unicodeCharacter (digits : Nat) (text : Text) : Option (Char × Text) :=
  let written := text.take digits
  let significant := match written with
    | '+' :: rest => rest
    | all => all
  if written.length = digits ∧ significant.all isHexDigit then
    (codePoint (numberOf 16 significant)).map fun c => (c, text.drop digits)
  else none

def escapeCharacter : Text → Option (Char × Text)
  | 'b' :: rest => some ('\x08', rest)
  | 'f' :: rest => some ('\x0c', rest)
  | 'n' :: rest => some ('\n', rest)
  | 'r' :: rest => some ('\r', rest)
  | 't' :: rest => some ('\t', rest)
  | 'u' :: rest => unicodeCharacter 4 rest
  | 'U' :: rest => unicodeCharacter 8 rest
  | 'x' :: rest =>
      let digits := (rest.take 2).takeWhile isHexDigit
      if digits.isEmpty then some ('x', rest)
      else (byteCharacter (numberOf 16 digits)).map fun c => (c, rest.drop digits.length)
  | c :: rest =>
      if isOctalDigit c then
        let digits := c :: (rest.take 2).takeWhile isOctalDigit
        (byteCharacter (numberOf 8 digits)).map fun c => (c, rest.drop (digits.length - 1))
      else some (c, rest)
  | [] => none

def escapedBody (text : Text) : Option (Text × Text) :=
  match text with
  | [] => none
  | '\'' :: '\'' :: rest => before ['\''] (escapedBody rest)
  | '\'' :: rest => some ([], rest)
  | '\\' :: rest =>
      match escapeCharacter rest with
      | some (c, after) =>
          if c.toNat = 0 then none
          else if after.length ≤ rest.length then before [c] (escapedBody after)
          else none
      | none => none
  | c :: rest => before [c] (escapedBody rest)
termination_by text.length

/-! Numbers. Separators stand between digits, and whether one belongs to the
number is decided by the character behind it. -/

def startsWithHexDigit : Text → Bool
  | c :: _ => isHexDigit c
  | [] => false

def digitRun (isPart : Char → Bool) (separators : Bool) : Text → Text × Text
  | [] => ([], [])
  | c :: rest =>
      if isPart c || (separators && c = '_' && startsWithHexDigit rest) then
        let (run, after) := digitRun isPart separators rest
        (c :: run, after)
      else ([], c :: rest)

def exponentPart (text : Text) : Text × Text :=
  match text with
  | [] => ([], [])
  | e :: rest =>
      let (sign, digits) := match rest with
        | '+' :: more => (['+'], more)
        | '-' :: more => (['-'], more)
        | more => ([], more)
      let run := digits.takeWhile Char.isDigit
      if (e = 'e' || e = 'E') && !run.isEmpty then
        (e :: (sign ++ run), digits.dropWhile Char.isDigit)
      else ([], text)

def scanNumber (dialect : Dialect) (text : Text) : Token × Text :=
  let run := digitRun Char.isDigit dialect.digitSeparators
  let (whole, rest) := run text
  match whole, rest with
  | ['0'], 'x' :: rest =>
      let (digits, rest) := digitRun isHexDigit dialect.digitSeparators rest
      (.verbatim ("X'" ++ String.ofList digits ++ "'"), rest)
  | _, _ =>
      let (point, rest) := match rest with
        | '.' :: more => (['.'], more)
        | more => ([], more)
      let (fraction, rest) := run rest
      let significand := whole ++ point ++ fraction
      if significand = ['.'] then (.symbol ".", rest)
      else
        let (exponent, rest) := exponentPart rest
        let name := rest.takeWhile dialect.namePart
        if dialect.digitNames && exponent.isEmpty && !name.isEmpty then
          (.word none (String.ofList (significand ++ name)), rest.dropWhile dialect.namePart)
        else
          let digits := String.ofList (significand ++ exponent)
          match rest with
          | 'L' :: rest => (.number digits true, rest)
          | rest => (.number digits false, rest)

/-! Comments, after the characters that open them. -/

def lineComment (dialect : Dialect) (text : Text) : Text :=
  text.dropWhile fun c => !(c = '\n' || (dialect.returnEndsComment && c = '\r'))

/-- The number counts the comments that are open around the next character. -/
def blockComment (dialect : Dialect) : Nat → Text → Option Text
  | depth, '*' :: '/' :: rest =>
      match depth with
      | 0 => some rest
      | outer + 1 => blockComment dialect outer rest
  | depth, '/' :: '*' :: rest =>
      if dialect.nestedComments then blockComment dialect (depth + 1) rest
      else blockComment dialect depth ('*' :: rest)
  | depth, _ :: rest => blockComment dialect depth rest
  | _, [] => none

/-! Dollar signs. -/

def isTagPart (c : Char) : Bool := c.isAlphanum || c = '_' || (isWide c && !isWideBlank c)

def upTo (delimiter : Text) : Text → Option (Text × Text)
  | [] => if delimiter.isEmpty then some ([], []) else none
  | c :: rest =>
      if delimiter.isPrefixOf (c :: rest) then some ([], (c :: rest).drop delimiter.length)
      else before [c] (upTo delimiter rest)

def scanDollar (text : Text) : Option (Token × Text) :=
  let tag := text.takeWhile isTagPart
  match text.dropWhile isTagPart with
  | '$' :: rest =>
      let delimiter := '$' :: tag ++ ['$']
      (upTo delimiter rest).map fun read =>
        (.verbatim (String.ofList (delimiter ++ read.1 ++ delimiter)), read.2)
  | rest => some (.verbatim (String.ofList ('$' :: tag)), rest)

/-! Operators, the longer ones before their beginnings, and whether a custom
operator may begin with them. -/

def operators : List (String × Bool) :=
  [("!~~*", false), ("!~~", false), ("!~*", false), ("!~", false), ("!=", false), ("!!", false),
    ("!", false), ("<=>", true), ("<=", true), ("<>", true), ("<<", true), ("<@", true), ("<", true),
    (">=", true), (">>", true), (">", true), ("->>", true), ("->", true), ("-", true),
    ("==", false), ("=>", false), ("=", false), ("||", true), ("|", true), ("&&", true), ("&", true),
    ("~~*", true), ("~~", true), ("~*", true), ("~", true), ("#", true), ("@>", false), ("@", false),
    ("::", false), (":=", false), ("^", false), ("+", false), ("*", false), ("/", false), ("%", true)]

def isCustomPart (c : Char) : Bool := c = Dialect.backtick || "+-*/<>=~!@#%^&|?".toList.contains c

def operatorSymbol (text : String) : String := if text = "!=" then "<>" else text

def operatorAt (text : Text) : Option (String × Bool) :=
  operators.find? fun operator => operator.1.toList.isPrefixOf text

/-- A custom operator is at least one character longer than what it begins with. An arrow to
the left is the beginning of operators, but is none itself. -/
def scanOperator (dialect : Dialect) (text : Text) : Option (Token × Text) :=
  match operatorAt text with
  | none => none
  | some (operator, mayContinue) =>
      let rest := text.drop operator.length
      let more := rest.takeWhile isCustomPart
      if dialect.customOperators && mayContinue && !more.isEmpty then
        if operator = "<" ∧ more = ['-'] then none
        else some (.custom (operator ++ String.ofList more), rest.dropWhile isCustomPart)
      else some (.symbol (operatorSymbol operator), rest)

/-- The question mark takes the character behind it along. -/
def scanQuestion (dialect : Dialect) (rest : Text) : Token × Text :=
  if dialect.customOperators then (.symbol "?", rest.drop 1)
  else
    (.verbatim (String.ofList ('?' :: rest.takeWhile Char.isDigit)), rest.dropWhile Char.isDigit)

/-! Words. -/

def scanWord (dialect : Dialect) (first : Char) (rest : Text) : Token × Text :=
  (.word none (String.ofList (first :: rest.takeWhile dialect.namePart)),
    rest.dropWhile dialect.namePart)

/-- A letter directly in front of a single quote gives the string a meaning. -/
def markedString (dialect : Dialect) (mark : Char) (rest : Text) : Option (Option (Token × Text)) :=
  match mark with
  | 'N' | 'n' => some ((plainString dialect '\'' rest).map fun read => (.national read.1, read.2))
  | 'E' | 'e' =>
      if dialect.escapeStrings then
        some ((escapedBody rest).map fun read => (.escaped (String.ofList read.1), read.2))
      else none
  | 'X' | 'x' =>
      some ((quotedBody '\'' true false rest).map fun read =>
        (.verbatim ("X'" ++ String.ofList read.1 ++ "'"), read.2))
  | 'B' | 'b' =>
      if dialect.bitStrings then
        some ((quotedBody '\'' false false rest).map fun read =>
          (.verbatim ("B'" ++ String.ofList read.1 ++ "'"), read.2))
      else none
  | _ => none

def startsOperand (dialect : Dialect) : Text → Bool
  | c :: _ => dialect.nameStart c || c.isDigit || dialect.nameQuotes.contains c
  | [] => false

/-! One step. -/

inductive Step where
  | blank (rest : Text)
  | token (token : Token) (rest : Text)
  | fault

def Step.ofToken (read : Token × Text) : Step := .token read.1 read.2

def Step.ofToken? : Option (Token × Text) → Step
  | some read => .ofToken read
  | none => .fault

def scanOther (dialect : Dialect) (c : Char) (rest : Text) : Step :=
  if dialect.nameStart c && (c.isAlpha || c = '_' || isWide c || (rest.head?.any dialect.namePart)) then
    .ofToken (scanWord dialect c rest)
  else if c = ':' && !(rest.head? == some ':' || rest.head? == some '=') then
    .token (.colon (startsOperand dialect rest)) rest
  else if c = '?' then .ofToken (scanQuestion dialect rest)
  else if (operatorAt (c :: rest)).isSome then .ofToken? (scanOperator dialect (c :: rest))
  else if c = '$' then .ofToken? (scanDollar rest)
  else if isBlank c then .blank rest
  else .token (.symbol (String.singleton c)) rest

def scanQuoted (dialect : Dialect) (quote : Char) (rest : Text) : Step :=
  if dialect.nameQuotes.contains quote then
    .ofToken? ((quotedBody (Token.closing quote) false false rest).map fun read =>
      (.word (some quote) (String.ofList read.1), read.2))
  else if quote = '"' then
    .ofToken? ((plainString dialect quote rest).map fun read => (.string quote read.1, read.2))
  else scanOther dialect quote rest

/-- A point in front of an underscore belongs to a path, so it has to follow a word. -/
def scanPoint (dialect : Dialect) (afterWord : Bool) (rest : Text) : Step :=
  if rest.head? == some '_' then
    if afterWord then .token (.symbol ".") rest else .fault
  else .ofToken (scanNumber dialect ('.' :: rest))

def step (dialect : Dialect) (afterWord : Bool) : Text → Step
  | '\'' :: rest =>
      .ofToken? ((plainString dialect '\'' rest).map fun read => (.string '\'' read.1, read.2))
  | '-' :: '-' :: rest =>
      if dialect.dashCommentNeedsBlank && rest.head? != some ' ' then
        .ofToken? (scanOperator dialect ('-' :: '-' :: rest))
      else .blank (lineComment dialect rest)
  | '/' :: '*' :: rest =>
      match blockComment dialect 0 rest with
      | some rest => .blank rest
      | none => .fault
  | '.' :: rest => scanPoint dialect afterWord rest
  | c :: '\'' :: rest =>
      match markedString dialect c rest with
      | some read => .ofToken? read
      | none =>
          if c.isDigit then .ofToken (scanNumber dialect (c :: '\'' :: rest))
          else if c = '#' && dialect.hashComments then .blank (lineComment dialect ('\'' :: rest))
          else scanQuoted dialect c ('\'' :: rest)
  | c :: rest =>
      if c.isDigit then .ofToken (scanNumber dialect (c :: rest))
      else if c = '#' && dialect.hashComments then .blank (lineComment dialect rest)
      else scanQuoted dialect c rest
  | [] => .fault

/-- Every step reads at least one character; the tests of length say so. -/
def scan (dialect : Dialect) (afterWord : Bool) (text : Text) : Option (List Token) :=
  match text with
  | [] => some []
  | c :: rest =>
      match step dialect afterWord (c :: rest) with
      | .blank after =>
          if after.length ≤ rest.length then scan dialect false after else none
      | .token token after =>
          if after.length ≤ rest.length then
            (scan dialect token.isWord after).map (token :: ·)
          else none
      | .fault => none
termination_by text.length

def tokens (dialect : Dialect) (text : String) : Option (List Token) :=
  scan dialect false text.toList

end ConeFilter.Sql
