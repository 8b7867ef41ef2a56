import LatchSim.Simulator
import LatchSim.Format.Circuit
import LatchSim.Format.Report
import LatchSim.Session
import LatchSim.Proofs.Resolution
import LatchSim.Proofs.Reference
import LatchSim.Proofs.Combinational
import LatchSim.Proofs.Chain
import LatchSim.Proofs.Lockstep
import LatchSim.Proofs.Reordering
import LatchSim.Proofs.Lifecycle
import LatchSim.Proofs.History
import LatchSim.Proofs.Influence
import LatchSim.Proofs.Slice
import LatchSim.Proofs.Shuffle
import LatchSim.Proofs.Format.Nesting
import LatchSim.Proofs.Gate
import LatchSim.Proofs.Journal
import LatchSim.Proofs.Chronicle
import LatchSim.Proofs.Verdict
import LatchSim.Proofs.Bindings
import LatchSim.Proofs.Session
import LatchSim.Proofs.Evaluation
import LatchSim.Proofs.Format.Report
import LatchSim.Proofs.Notices
import LatchSim.Proofs.Format.Extent
import LatchSim.Proofs.Depth
import LatchSim.Proofs.Text.Order
import LatchSim.Proofs.FiniteMap
import LatchSim.Proofs.Samples
