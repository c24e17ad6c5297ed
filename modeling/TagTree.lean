import TagTree.Node.Agreement
import TagTree.Decode.Inside
import TagTree.Json.Finite
import TagTree.Main
import TagTree.Proofs.Decoding
import TagTree.Proofs.Encoding
import TagTree.Proofs.Locations
import TagTree.Proofs.NodeArrays
import TagTree.Proofs.Blame
import TagTree.Proofs.FirstFault
import TagTree.Proofs.SlotEdits
import TagTree.Proofs.ZeroSigns
import TagTree.Proofs.Documents
import TagTree.Proofs.KindFields
import TagTree.Proofs.Runs
import TagTree.Proofs.Acceptance
import TagTree.Proofs.ReadBack
import TagTree.Proofs.SortedPaths
import TagTree.Proofs.Discovery
import TagTree.Proofs.Attribution
import TagTree.Proofs.Batches
import TagTree.Proofs.SExprText
import TagTree.Proofs.Unambiguity
import TagTree.Proofs.Locality
import TagTree.Proofs.SameFile
import TagTree.Proofs.SingleLine
import TagTree.Proofs.PropertyKeys
import TagTree.Proofs.Offsets
import TagTree.Proofs.Compacting
import TagTree.Proofs.Events
import TagTree.Proofs.Causality
import TagTree.Proofs.CausalScanners
import TagTree.Proofs.Faults
