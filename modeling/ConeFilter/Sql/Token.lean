import ConeFilter.Sql.Letters

/-!
Tokens of filter text. Blanks and comments leave none. Operators, punctuation
and characters that fit nowhere are symbols; an operator spelled in two ways
has the symbol of one.
-/
namespace ConeFilter.Sql

inductive Token where
  -- A name, with the character that opened its quotes if it has any.
  | word (quote : Option Char) (name : String)
  | number (digits : String) (long : Bool)
  | string (quote : Char) (content : String)
  | national (content : String)
  | escaped (content : String)
  -- Literals of which nothing but the text matters.
  | verbatim (text : String)
  | symbol (text : String)
  | custom (text : String)
  -- Whether a name or a number follows without a blank.
  | colon (touching : Bool)
deriving DecidableEq, Inhabited

namespace Token

def closing (quote : Char) : Char := if quote = '[' then ']' else quote

def enclosed (quote : Char) (content : String) : String :=
  String.singleton quote ++ content ++ String.singleton (closing quote)

/-- The keyword that a token spells, in capitals. Quoted names spell none. -/
def keyword : Token → String
  | .word none name => capitals name
  | _ => ""

def isWord : Token → Bool
  | .word _ _ => true
  | _ => false

/-- Quotes inside are not doubled: this text only points at a place. -/
def render : Token → String
  | .word none name => name
  | .word (some quote) name => enclosed quote name
  | .number digits long => if long then digits ++ "L" else digits
  | .string quote content => enclosed quote content
  | .national content => "N" ++ enclosed '\'' content
  | .escaped content => "E" ++ enclosed '\'' content
  | .verbatim text => text
  | .symbol text => text
  | .custom text => text
  | .colon _ => ":"

end Token

end ConeFilter.Sql
