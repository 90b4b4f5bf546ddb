import TableServer.Proofs.Record
import TableServer.Proofs.Json.RoundTrip
import TableServer.Proofs.Json.Characters
import TableServer.Proofs.Text.Utf8
import TableServer.Proofs.Text.CodePoints
import TableServer.Proofs.Execution.Ledger
import TableServer.Proofs.Statement.Decision
import TableServer.Client.Exchange
import TableServer.Connection.Serve
import TableServer.Execution.Inserts
import TableServer.Main
import TableServer.Report
import TableServer.Server.Machine
import TableServer.Statement.Print
import TableServer.Statement.Token
import TableServer.Network.Address
import TableServer.Network.HostName
import TableServer.Proofs.Execution.Serial
import TableServer.Proofs.Json.Strings
import TableServer.Proofs.Json.Numbers
import TableServer.Proofs.Json.Values
import TableServer.Proofs.Store.Content
import TableServer.Proofs.Store.Naming
import TableServer.Proofs.Store.Saving
import TableServer.Proofs.Store.Keeping
import TableServer.Proofs.Execution.Serialised
import TableServer.Proofs.Connection.Answers
import TableServer.Proofs.Statement.Written
import TableServer.Proofs.Execution.Growth
import TableServer.Proofs.Connection.Durability
import TableServer.Proofs.Store.Opening
import TableServer.Proofs.Execution.Reference
import TableServer.Proofs.Server.Restarts
import TableServer.Proofs.Store.Directories
import TableServer.Proofs.Store.Steps
import TableServer.Proofs.Store.Atomic
import TableServer.Proofs.Json.Bounds
import TableServer.Proofs.Store.Lossless
import TableServer.Proofs.Connection.Framing
import TableServer.Proofs.Connection.AllOrNothing
import TableServer.Proofs.Execution.Outlasting
import TableServer.Proofs.Json.Limits
import TableServer.Proofs.Store.Corruption
import TableServer.Proofs.Connection.Serving
import TableServer.Proofs.Store.Unmade
import TableServer.Proofs.Store.Seclusion
import TableServer.Proofs.Execution.Apart
import TableServer.Proofs.Execution.Progress
import TableServer.Proofs.Execution.Names
import TableServer.Proofs.Store.Fields
import TableServer.Proofs.Store.Patterns
import TableServer.Proofs.Client.Pairing
import TableServer.Proofs.Statement.Cleaning
import TableServer.Proofs.Statement.Printing
import TableServer.Proofs.Store.Expansion
import TableServer.Proofs.Store.Confinement
import TableServer.Proofs.Json.Prefixes
import TableServer.Proofs.Client.HangUp
import TableServer.Proofs.Execution.Columns
import TableServer.Proofs.Statement.Tokens
import TableServer.Proofs.Client.Reporting
import TableServer.Proofs.Client.LineLimit
