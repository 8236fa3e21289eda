import ConeFilter.Dictionary
import ConeFilter.Numeral.Integer

/-!
Cone searches. A cone is a circle on the sky: the coordinates of its centre
and its radius. A predicate cannot hold one, so it refers to a cone by the
name of a slot, and the cones themselves travel beside the predicate in the
order in which they were met.
-/
namespace ConeFilter

structure Cone where
  ra : Float
  dec : Float
  radius : Float
deriving BEq, Inhabited

structure Extra where
  cones : List Cone := []
  aliases : Dictionary String := {}
deriving BEq, Inhabited

namespace Cone

/-! Slot names. The first cone has the bare name and the others have their
position behind it. A name is read with more freedom than it is written: the
position may have a plus sign, and zeros may follow that. -/

def slotStem : String := "cone_query"

def slotName (index : Nat) : String :=
  if index = 0 then slotStem else slotStem ++ Numeral.natText index

def dropStem : List Char → List Char → Option (List Char)
  | [], rest => some rest
  | _ :: _, [] => none
  | c :: stem, d :: rest => if c = d then dropStem stem rest else none

def readSuffix : List Char → Option Nat
  | [] => some 0
  | '0' :: _ => none
  | suffix => Numeral.readIndex suffix

def slotIndex (name : String) : Option Nat :=
  (dropStem slotStem.toList name.toList).bind readSuffix

end Cone

namespace Extra

def coneFor (extra : Extra) (field : String) : Option Cone :=
  (Cone.slotIndex field).bind fun index => extra.cones[index]?

/-- The fields that stand for cones, each with its cone. -/
def conesAmong (extra : Extra) (fields : List String) : List (String × Cone) :=
  fields.filterMap fun field => (extra.coneFor field).map fun cone => (field, cone)

def isEmpty (extra : Extra) : Bool := extra.cones.isEmpty && extra.aliases.isEmpty

end Extra

end ConeFilter
