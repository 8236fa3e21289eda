import ConeFilter.Proofs.AcceptedTrees
import ConeFilter.Proofs.FilterMeaning
import ConeFilter.Proofs.SessionAccounts
import ConeFilter.Proofs.SlotCollisions
import ConeFilter.Proofs.SlotSpellings
import ConeFilter.Proofs.FilterOutcomes
import ConeFilter.Proofs.TextOperands
import ConeFilter.Proofs.JsonNumbers
import ConeFilter.Proofs.JsonRoundTrips
import ConeFilter.Proofs.Parentheses
import ConeFilter.Proofs.Renumbering
import ConeFilter.Proofs.IntegerFolding
import ConeFilter.Proofs.CanonicalRegistries
import ConeFilter.Proofs.GrowingSchemas
import ConeFilter.Proofs.NumberTokens
import ConeFilter.Proofs.LoweredTrees
import ConeFilter.Proofs.DisplayTexts
import ConeFilter.Proofs.ResultSizes
import ConeFilter.Proofs.SignedLiterals
import ConeFilter.Proofs.LeftmostFailures
