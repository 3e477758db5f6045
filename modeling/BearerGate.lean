import BearerGate.Http.Session
import BearerGate.Record
import BearerGate.Settings.LogLevel
import BearerGate.Proofs.Gate.Soundness
import BearerGate.Proofs.Gate.Channel
import BearerGate.Proofs.Http.Rendering
import BearerGate.Proofs.Gate.Retention
import BearerGate.Proofs.Gate.Transparency
import BearerGate.Proofs.Gate.Accounting
import BearerGate.Proofs.Http.Refinement
import BearerGate.Proofs.Gate.Noninterference
import BearerGate.Proofs.Token.Agreement
import BearerGate.Proofs.Http.Sharing
import BearerGate.Proofs.Gate.Fetching
import BearerGate.Proofs.Publication.Grammar
import BearerGate.Proofs.Token.Leniency
import BearerGate.Proofs.Token.Times
import BearerGate.Proofs.Claims
import BearerGate.Proofs.Gate.Credentials
import BearerGate.Proofs.Gate.Retrying
import BearerGate.Proofs.Settings.Domain
import BearerGate.Proofs.Settings.Spelling
import BearerGate.Proofs.Json.Documents
import BearerGate.Proofs.Settings.Origins
import BearerGate.Proofs.Http.Problems
