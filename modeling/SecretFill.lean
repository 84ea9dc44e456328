import SecretFill.Batch
import SecretFill.Diagnosis
import SecretFill.Main
import SecretFill.Number.Shortest
import SecretFill.Placeholder
import SecretFill.Report
import SecretFill.Store.Memory
import SecretFill.Proofs.SingleFlight
import SecretFill.Proofs.Transparency
import SecretFill.Proofs.Documents
import SecretFill.Proofs.Join
import SecretFill.Proofs.Calls
import SecretFill.Proofs.Policies
import SecretFill.Proofs.Rescanning
import SecretFill.Proofs.Substitution
import SecretFill.Proofs.Splicing
import SecretFill.Proofs.LineBreaks
import SecretFill.Proofs.Contents
import SecretFill.Proofs.Muted
import SecretFill.Proofs.Twins
import SecretFill.Proofs.Diagnostics
import SecretFill.Proofs.Spans
import SecretFill.Proofs.Encoding
import SecretFill.Proofs.Accounts
import SecretFill.Proofs.Deliveries
import SecretFill.Proofs.Positions
import SecretFill.Proofs.Keys
import SecretFill.Proofs.Lookup
import SecretFill.Proofs.Words
import SecretFill.Proofs.Scalars
import SecretFill.Proofs.Notes
import SecretFill.Proofs.Quoting
import SecretFill.Proofs.Moves
import SecretFill.Proofs.Embedding
import SecretFill.Proofs.TrimmedFragments
import SecretFill.Proofs.FirstDocument
import SecretFill.Proofs.Causes
import SecretFill.Proofs.Handles
import SecretFill.Proofs.OtherLines
import SecretFill.Proofs.WrittenKeys
import SecretFill.Proofs.Margins
import SecretFill.Proofs.Errands
import SecretFill.Proofs.Lockstep
import SecretFill.Proofs.EmptySecrets
import SecretFill.Proofs.SettingsFiles
import SecretFill.Proofs.Troubles
import SecretFill.Proofs.Precedence
