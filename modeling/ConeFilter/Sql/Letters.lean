/-!
Letters and blanks. Beyond ASCII, every character that is not a blank counts
as a letter. The case maps are those of ASCII, except that three characters
beyond it have an ASCII letter as their other case and so can stand in a
keyword or in the name of a dialect.
-/
namespace ConeFilter.Sql

def isWideBlank (c : Char) : Bool :=
  let n := c.toNat
  n = 0x85 || n = 0xA0 || n = 0x1680 || (0x2000 ≤ n && n ≤ 0x200A) || n = 0x2028 || n = 0x2029 ||
    n = 0x202F || n = 0x205F || n = 0x3000

def isBlank (c : Char) : Bool :=
  c = ' ' || (0x09 ≤ c.toNat && c.toNat ≤ 0x0D) || isWideBlank c

def isWide (c : Char) : Bool := 0x80 ≤ c.toNat

def isLetter (c : Char) : Bool := c.isAlpha || (isWide c && !isWideBlank c)

def isWideLetter (c : Char) : Bool := c.isAlpha || isWide c

def isHexDigit (c : Char) : Bool :=
  c.isDigit || ('a' ≤ c && c ≤ 'f') || ('A' ≤ c && c ≤ 'F')

/-- The long s and the dotless i are small letters. -/
def capital (c : Char) : Char :=
  if c = 'ſ' then 'S' else if c = 'ı' then 'I' else c.toUpper

/-- The sign for kelvins is a capital letter. -/
def small (c : Char) : Char := if c.toNat = 0x212A then 'k' else c.toLower

def capitals (name : String) : String := String.ofList (name.toList.map capital)

def smalls (name : String) : String := String.ofList (name.toList.map small)

end ConeFilter.Sql
