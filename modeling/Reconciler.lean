import Reconciler.Simulation.Session
import Reconciler.Service.Environment
import Reconciler.Text.Line
import Reconciler.Proofs.Provisioning.Owners
import Reconciler.Proofs.Provisioning.Recovery
import Reconciler.Proofs.Provisioning.Agreement
import Reconciler.Proofs.Convergence.Order
import Reconciler.Proofs.Convergence.FixedPoint
import Reconciler.Proofs.Convergence.Sharing
import Reconciler.Proofs.Convergence.Wiring
import Reconciler.Proofs.Convergence.WakeUps
import Reconciler.Proofs.Ownership.Interference
import Reconciler.Proofs.Api.Attempts
import Reconciler.Proofs.Api.Handlers
import Reconciler.Proofs.Api.Spacing
import Reconciler.Proofs.Backoff
import Reconciler.Proofs.Redaction.Passwords
import Reconciler.Proofs.Descriptor
import Reconciler.Proofs.Reports.Warnings
import Reconciler.Proofs.Secrecy.Passes
import Reconciler.Proofs.Redaction.Contexts
import Reconciler.Proofs.Redaction.Records
import Reconciler.Proofs.Ownership.References
import Reconciler.Proofs.Independence.Deeds
import Reconciler.Proofs.Independence.Looking
import Reconciler.Proofs.Independence.Footprints
import Reconciler.Proofs.Independence.Handlers
import Reconciler.Proofs.Independence.Commuting
import Reconciler.Proofs.Conditions.Lists
import Reconciler.Proofs.Conditions.History
import Reconciler.Proofs.Provisioning.Waiting
import Reconciler.Proofs.Posting
import Reconciler.Proofs.Provisioning.Standing
import Reconciler.Proofs.Provisioning.Verdicts
import Reconciler.Proofs.Labelling.Once
import Reconciler.Proofs.Ledger.Books
import Reconciler.Proofs.Convergence.Repair
import Reconciler.Proofs.Intervals
import Reconciler.Proofs.Redaction.Repetition
