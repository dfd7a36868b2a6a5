import RtuStation.Bank.Lemmas
import RtuStation.Main
import RtuStation.Proofs.Requests
import RtuStation.Proofs.Writes
import RtuStation.Proofs.Answers
import RtuStation.Proofs.Extents
import RtuStation.Proofs.History
import RtuStation.Proofs.Deliveries
import RtuStation.Proofs.Contention
import RtuStation.Proofs.Session
import RtuStation.Proofs.Bursts
import RtuStation.Proofs.Calls
import RtuStation.Proofs.Tokens
import RtuStation.Proofs.Courses
import RtuStation.Proofs.Custody
import RtuStation.Proofs.Progress
import RtuStation.Proofs.Cancellation
import RtuStation.Proofs.Residue
import RtuStation.Proofs.Noise
import RtuStation.Proofs.Executions
import RtuStation.Proofs.Lifecycle
import RtuStation.Proofs.Belongings
import RtuStation.Proofs.Leftovers
import RtuStation.Proofs.Retransmission
import RtuStation.Proofs.BankNames
import RtuStation.Proofs.Creation
import RtuStation.Proofs.Refusals
import RtuStation.Proofs.Handles
import RtuStation.Proofs.Teardown
import RtuStation.Proofs.Placements
import RtuStation.Proofs.Independence
import RtuStation.Proofs.Compounds
import RtuStation.Proofs.Replies
import RtuStation.Proofs.Addressing
import RtuStation.Proofs.Attempts
import RtuStation.Proofs.Lengths
import RtuStation.Proofs.Receptions
import RtuStation.Proofs.Scores
import RtuStation.Proofs.Escalation
import RtuStation.Proofs.CanonicalNames
import RtuStation.Proofs.UsableNames
import RtuStation.Proofs.Positions
import RtuStation.Proofs.Preservation
import RtuStation.Proofs.Coherence
import RtuStation.Proofs.Windows
import RtuStation.Proofs.Services
import RtuStation.Proofs.Bounds
import RtuStation.Proofs.Ranges
import RtuStation.Proofs.CheckSequences
import RtuStation.Proofs.NearNames
