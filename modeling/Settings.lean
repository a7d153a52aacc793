import Settings.Text.Units
import Settings.Text.Position
import Settings.Text.Quoted
import Settings.Decimal.Layout
import Settings.Decimal.Read
import Settings.Binary.Text
import Settings.Json.Writer
import Settings.Json.Reader
import Settings.Datum.Text
import Settings.Schema.Written
import Settings.Script.Inspect
import Settings.Script.Parse
import Settings.Storage.Window
import Settings.Store.Scripted
import Settings.Session.Run
import Settings.Console
import Settings.Proofs.Binary.Order
import Settings.Proofs.Decimal.Magnitude
import Settings.Proofs.Decimal.Digits
import Settings.Proofs.Json.Literal
import Settings.Proofs.Json.Layout
import Settings.Proofs.Json.Valuation
import Settings.Proofs.Json.Finite
import Settings.Proofs.Json.Quotation
import Settings.Proofs.Json.Reread
import Settings.Proofs.Json.Shape
import Settings.Proofs.Json.Nesting
import Settings.Proofs.Json.Fidelity
import Settings.Proofs.Json.Accepted
import Settings.Proofs.Storage.Reliable
import Settings.Proofs.Store.Load
import Settings.Proofs.Store.Reopen
import Settings.Proofs.Store.Edits
import Settings.Proofs.Store.ScriptCalls
import Settings.Proofs.Session.Holders
import Settings.Proofs.Session.Frame
import Settings.Proofs.Session.Alike
import Settings.Proofs.Session.Writes
import Settings.Proofs.Session.Memory
import Settings.Proofs.Session.LastWrite
import Settings.Proofs.Session.Mapping
import Settings.Proofs.Json.Parsing
import Settings.Proofs.Json.Denotation
import Settings.Proofs.Store.Opening
import Settings.Proofs.Session.Interchange
import Settings.Proofs.Json.Unambiguous
import Settings.Proofs.Json.Written
import Settings.Proofs.Binary.Integers
import Settings.Proofs.Json.Plain
import Settings.Proofs.Script.Objects
import Settings.Proofs.Script.Shown
import Settings.Proofs.Script.Stringified
import Settings.Proofs.Store.ScriptReads
import Settings.Proofs.Session.ScriptReads
import Settings.Proofs.Session.Lockstep
import Settings.Proofs.Session.Parties
import Settings.Proofs.Session.Interleaving
import Settings.Proofs.Json.Canonical
import Settings.Proofs.Json.Injective
import Settings.Proofs.Datum.Ordered
import Settings.Proofs.Session.Canonical
import Settings.Proofs.Schema.Exact
import Settings.Proofs.Store.TypedReads
import Settings.Proofs.Datum.Obstructed
import Settings.Proofs.Store.Changes
import Settings.Proofs.Script.Obstacles
import Settings.Proofs.Store.Converted
import Settings.Proofs.Session.ScriptSets
import Settings.Proofs.Binary.Exact
import Settings.Proofs.Json.SafeIntegers
import Settings.Proofs.Script.Rewritten
import Settings.Proofs.Session.SetBack
import Settings.Proofs.Json.Places
import Settings.Proofs.Json.Integers
import Settings.Proofs.Store.Integers
import Settings.Proofs.Session.Integers
import Settings.Proofs.Json.Keys
import Settings.Proofs.Store.Entries
import Settings.Proofs.Session.Effects
import Settings.Proofs.Binary.Cutoffs
import Settings.Proofs.Script.Presented
import Settings.Proofs.Script.Reordered
import Settings.Proofs.Session.Presented
