import BearerToken.Command.Run
import BearerToken.Log.Line
import BearerToken.Main
import BearerToken.Service
import BearerToken.Settings.Assembly
import BearerToken.Store.Memory
import BearerToken.Store.Remote
import BearerToken.Web.Guard
import BearerToken.Proofs.Base64Url
import BearerToken.Proofs.TokenId.Bytes
import BearerToken.Proofs.Codec.Layout
import BearerToken.Proofs.Codec.Ending
import BearerToken.Proofs.Codec.RoundTrip
import BearerToken.Proofs.Codec.Collision
import BearerToken.Proofs.Codec.Secrets
import BearerToken.Proofs.Numeral
import BearerToken.Proofs.Json.Order
import BearerToken.Proofs.Json.Reread
import BearerToken.Proofs.Uuid
import BearerToken.Proofs.Json.Number
import BearerToken.Proofs.Binary64.Rounding
import BearerToken.Proofs.Binary64.Shortest
import BearerToken.Proofs.Json.Decimal
import BearerToken.Proofs.Json.RoundTrip
import BearerToken.Proofs.Json.Spelling
import BearerToken.Proofs.Json.Canonical
import BearerToken.Proofs.Record.Fields
import BearerToken.Proofs.Record.RoundTrip
import BearerToken.Proofs.Store.Memory
import BearerToken.Proofs.Store.Ledger
import BearerToken.Proofs.Action
import BearerToken.Proofs.TokenId.Time
import BearerToken.Proofs.Policy.Deadline
import BearerToken.Proofs.Service.Memory
import BearerToken.Proofs.Service.Session
import BearerToken.Proofs.Service.Retention
import BearerToken.Proofs.Service.Lookup
import BearerToken.Proofs.Service.Coverage
import BearerToken.Proofs.Service.Lifetime
import BearerToken.Proofs.Service.Failure
import BearerToken.Proofs.Store.Remote
import BearerToken.Proofs.Store.Upsert
import BearerToken.Proofs.Store.Twins
import BearerToken.Proofs.Service.Issuance
import BearerToken.Proofs.Service.Agreement
import BearerToken.Proofs.Service.Contents
import BearerToken.Proofs.Service.Tasks
import BearerToken.Proofs.Service.Interleaving
import BearerToken.Proofs.Service.Upkeep
import BearerToken.Proofs.Service.Access
import BearerToken.Proofs.Service.Outcome
import BearerToken.Proofs.Store.Faults
import BearerToken.Proofs.Json.Bounds
import BearerToken.Proofs.Record.Legible
import BearerToken.Proofs.Service.Corruption
import BearerToken.Proofs.Web.Extraction
import BearerToken.Proofs.Service.Secrecy
import BearerToken.Proofs.Web.Refusals
import BearerToken.Proofs.Store.Namespaces
import BearerToken.Proofs.Codec.Migration
import BearerToken.Proofs.Service.Renewal
import BearerToken.Proofs.Service.BestEffort
import BearerToken.Proofs.Json.Forms
import BearerToken.Proofs.Record.Rereading
import BearerToken.Proofs.Service.Rewriting
import BearerToken.Proofs.Store.Sweeping
import BearerToken.Proofs.Json.Meaning
import BearerToken.Proofs.Json.Printable
import BearerToken.Proofs.Record.StateText
import BearerToken.Proofs.Settings.Environment
import BearerToken.Proofs.Binary64.Monotone
import BearerToken.Proofs.Calendar
import BearerToken.Proofs.Json.Report
import BearerToken.Proofs.Command.Inspect
import BearerToken.Proofs.TokenId.Order
import BearerToken.Proofs.TokenId.Ticks
import BearerToken.Proofs.Codec.Overflow
import BearerToken.Proofs.Codec.PayloadText
import BearerToken.Proofs.Numeral.Bounds
import BearerToken.Proofs.Uuid.Spelling
import BearerToken.Proofs.Store.Address
import BearerToken.Proofs.Json.Place
import BearerToken.Proofs.Text.Utf8
import BearerToken.Proofs.Log.Line
