import ConeFilter.Json.Basic
import ConeFilter.Numeral.Decimal
import ConeFilter.Value

/-!
JSON text. Reading takes one value with blanks around it and refuses anything
after it; every nested call of the reader has one character less to read, so
the length of the text bounds its recursion. Writing is compact, escapes no
more than it has to, and writes a number that is not finite as null.
-/
namespace ConeFilter.Json

def isBlank (c : Char) : Bool := c = ' ' || c = '\t' || c = '\n' || c = '\r'

def skipBlanks (text : List Char) : List Char := text.dropWhile isBlank

/-! Numbers. No digits follow a leading zero, and a point has digits on both
its sides. -/

def isNumberPart (c : Char) : Bool :=
  c.isDigit || c = '-' || c = '+' || c = '.' || c = 'e' || c = 'E'

/-- The digits before and behind the point, and the exponent if there is one. -/
structure Number where
  negative : Bool
  whole : List Char
  fraction : List Char
  exponent : Option Int
deriving DecidableEq

namespace Number

/-- Integers that neither a signed nor an unsigned word can hold are doubles, and so is minus
zero. -/
def integer? (number : Number) : Option Int :=
  let magnitude : Int := Numeral.natOfDigits number.whole
  let value := if number.negative then -magnitude else magnitude
  if number.fraction = [] ∧ number.exponent = none ∧ ¬ (number.negative = true ∧ value = 0) ∧
      -0x8000000000000000 ≤ value ∧ value < 0x10000000000000000 then some value
  else none

def decimal (number : Number) : Numeral.Decimal :=
  .finite number.negative (Numeral.natOfDigits (number.whole ++ number.fraction))
    (number.exponent.getD 0 - number.fraction.length)

/-- A number too large for a double is refused. -/
def toJson? (number : Number) : Option Json :=
  match number.integer? with
  | some n => some (.int n)
  | none =>
      let double := number.decimal.toFloat
      if double.isFinite then some (.float double) else none

end Number

def readWhole (text : List Char) : Option (List Char × List Char) :=
  let digits := text.takeWhile Char.isDigit
  if digits = ['0'] ∨ digits ≠ [] ∧ digits.head? ≠ some '0' then
    some (digits, text.dropWhile Char.isDigit)
  else none

def readFraction : List Char → Option (List Char × List Char)
  | '.' :: rest =>
      let digits := rest.takeWhile Char.isDigit
      if digits = [] then none else some (digits, rest.dropWhile Char.isDigit)
  | rest => some ([], rest)

def readExponent : List Char → Option (Option Int)
  | [] => some none
  | mark :: rest => if mark = 'e' ∨ mark = 'E' then (Numeral.readInt rest).map some else none

def readUnsigned (negative : Bool) (text : List Char) : Option Number := do
  let (whole, rest) ← readWhole text
  let (fraction, rest) ← readFraction rest
  let exponent ← readExponent rest
  pure { negative, whole, fraction, exponent }

def readParts : List Char → Option Number
  | '-' :: rest => readUnsigned true rest
  | text => readUnsigned false text

def readNumber (text : List Char) : Option Json := (readParts text).bind Number.toJson?

/-! Strings, after their opening quote. -/

def hexDigit? (c : Char) : Option Nat :=
  if c.isDigit then some (c.toNat - '0'.toNat)
  else if 'a' ≤ c ∧ c ≤ 'f' then some (c.toNat - 'a'.toNat + 10)
  else if 'A' ≤ c ∧ c ≤ 'F' then some (c.toNat - 'A'.toNat + 10)
  else none

def hexUnit (a b c d : Char) : Option Nat := do
  let a ← hexDigit? a
  let b ← hexDigit? b
  let c ← hexDigit? c
  let d ← hexDigit? d
  pure (((a * 16 + b) * 16 + c) * 16 + d)

def codePoint? (n : Nat) : Option Char :=
  if n < 0xD800 ∨ (0xDFFF < n ∧ n < 0x110000) then some (Char.ofNat n) else none

/-- A high and a low unit together stand for one character past the first plane. -/
def pairedCodePoint (high low : Nat) : Option Char :=
  if 0xD800 ≤ high ∧ high < 0xDC00 ∧ 0xDC00 ≤ low ∧ low < 0xE000 then
    codePoint? (0x10000 + (high - 0xD800) * 0x400 + (low - 0xDC00))
  else none

def escaped? : Char → Option Char
  | '"' => some '"'
  | '\\' => some '\\'
  | '/' => some '/'
  | 'b' => some '\x08'
  | 'f' => some '\x0c'
  | 'n' => some '\n'
  | 'r' => some '\r'
  | 't' => some '\t'
  | _ => none

def readString (read : List Char) : List Char → Option (String × List Char)
  | '"' :: rest => some (String.ofList read.reverse, rest)
  | '\\' :: 'u' :: a :: b :: c :: d :: '\\' :: 'u' :: e :: f :: g :: h :: rest =>
      match hexUnit a b c d, hexUnit e f g h with
      | some first, some second =>
          match codePoint? first, pairedCodePoint first second with
          | some character, _ =>
              readString (character :: read) ('\\' :: 'u' :: e :: f :: g :: h :: rest)
          | none, some character => readString (character :: read) rest
          | none, none => none
      | _, _ => none
  | '\\' :: 'u' :: a :: b :: c :: d :: rest =>
      match (hexUnit a b c d).bind codePoint? with
      | some character => readString (character :: read) rest
      | none => none
  | '\\' :: c :: rest =>
      match escaped? c with
      | some character => readString (character :: read) rest
      | none => none
  | c :: rest => if c.toNat < 32 then none else readString (c :: read) rest
  | [] => none

/-! Values. -/

def readWordAs (word : String) (json : Json) (text : List Char) : Option (Json × List Char) :=
  if text.take word.length = word.toList then some (json, text.drop word.length) else none

mutual

def readValue : Nat → List Char → Option (Json × List Char)
  | 0, _ => none
  | steps + 1, text =>
      match skipBlanks text with
      | '"' :: rest => (readString [] rest).map fun result => (.string result.1, result.2)
      | '[' :: rest =>
          match skipBlanks rest with
          | ']' :: after => some (.array [], after)
          | _ => (readElements steps rest).map fun result => (.array result.1, result.2)
      | '\x7b' :: rest =>
          match skipBlanks rest with
          | '\x7d' :: after => some (.object [], after)
          | _ => (readMembers steps rest).map fun result => (ofMembers result.1, result.2)
      | 'n' :: rest => readWordAs "ull" .null rest
      | 't' :: rest => readWordAs "rue" (.bool true) rest
      | 'f' :: rest => readWordAs "alse" (.bool false) rest
      | number =>
          (readNumber (number.takeWhile isNumberPart)).map fun json =>
            (json, number.dropWhile isNumberPart)

def readElements : Nat → List Char → Option (List Json × List Char)
  | 0, _ => none
  | steps + 1, text => do
      let (element, rest) ← readValue steps text
      match skipBlanks rest with
      | ',' :: rest =>
          let (elements, rest) ← readElements steps rest
          pure (element :: elements, rest)
      | ']' :: rest => pure ([element], rest)
      | _ => none

def readMembers : Nat → List Char → Option (List (String × Json) × List Char)
  | 0, _ => none
  | steps + 1, text =>
      match skipBlanks text with
      | '"' :: rest => do
          let (key, rest) ← readString [] rest
          match skipBlanks rest with
          | ':' :: rest =>
              let (value, rest) ← readValue steps rest
              match skipBlanks rest with
              | ',' :: rest =>
                  let (members, rest) ← readMembers steps rest
                  pure ((key, value) :: members, rest)
              | '\x7d' :: rest => pure ([(key, value)], rest)
              | _ => none
          | _ => none
      | _ => none

end

def read (text : String) : Option Json :=
  let characters := text.toList
  match readValue (characters.length + 1) characters with
  | some (json, rest) => if (skipBlanks rest).isEmpty then some json else none
  | none => none

/-! Writing. -/

def hexText (n : Nat) : Char :=
  if n < 10 then Numeral.digitChar n else Char.ofNat (n - 10 + 'a'.toNat)

def writeChar (c : Char) : List Char :=
  if c = '"' then ['\\', '"']
  else if c = '\\' then ['\\', '\\']
  else if c.toNat < 32 then ['\\', 'u', '0', '0', hexText (c.toNat / 16), hexText (c.toNat % 16)]
  else [c]

def writeString (content : String) : String :=
  "\"" ++ String.ofList (content.toList.flatMap writeChar) ++ "\""

mutual

def write : Json → String
  | .null => "null"
  | .bool true => "true"
  | .bool false => "false"
  | .int number => Numeral.intText number
  | .float number => if number.isFinite then Value.floatText number else "null"
  | .string content => writeString content
  | .array elements => "[" ++ writeElements elements ++ "]"
  | .object members => "\x7b" ++ writeMembers members ++ "\x7d"

def writeElements : List Json → String
  | [] => ""
  | [element] => write element
  | element :: next :: rest => write element ++ "," ++ writeElements (next :: rest)

def writeMembers : List (String × Json) → String
  | [] => ""
  | [(key, value)] => writeString key ++ ":" ++ write value
  | (key, value) :: next :: rest =>
      writeString key ++ ":" ++ write value ++ "," ++ writeMembers (next :: rest)

end

end ConeFilter.Json
