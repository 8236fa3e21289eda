import ConeFilter.Resolution.Failure

/-!
What a pass reports while it runs: its start, the columns and cones it meets
from left to right, and how it ended. The depth of a column is the number of
relations on its path.
-/
namespace ConeFilter

inductive Event where
  | started (model : String)
  | finished (model : String) (cones : Nat)
  | failed (model : String) (kind : FailureKind)
  | fieldResolved (depth : Nat)
  | coneRecorded (index : Nat)
deriving DecidableEq, Inhabited

end ConeFilter
