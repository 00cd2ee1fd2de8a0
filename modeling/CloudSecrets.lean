import CloudSecrets.Client
import CloudSecrets.CommandLine.Command
import CloudSecrets.CommandLine.Flag
import CloudSecrets.CommandLine.Help
import CloudSecrets.CommandLine.Reading
import CloudSecrets.CommandLine.Run
import CloudSecrets.CommandLine.Word
import CloudSecrets.Config.Fault
import CloudSecrets.Config.Load
import CloudSecrets.Config.Place
import CloudSecrets.Config.Reader
import CloudSecrets.Entries
import CloudSecrets.Fault
import CloudSecrets.FileTree.Lookup
import CloudSecrets.FileTree.Path
import CloudSecrets.FileTree.Tree
import CloudSecrets.Json.Parser
import CloudSecrets.Json.Printer
import CloudSecrets.Json.Value
import CloudSecrets.Label
import CloudSecrets.Main
import CloudSecrets.Number.Binary64
import CloudSecrets.Number.Numeral
import CloudSecrets.Number.Power
import CloudSecrets.Number.Shortest
import CloudSecrets.Preference
import CloudSecrets.Secret
import CloudSecrets.Service.Operations
import CloudSecrets.Service.Request
import CloudSecrets.Session
import CloudSecrets.Table
import CloudSecrets.Text.Blank
import CloudSecrets.Text.Digit
import CloudSecrets.Text.Lines
import CloudSecrets.Text.Printable
import CloudSecrets.Text.Quoted
import CloudSecrets.Text.Utf8
import CloudSecrets.Timeout
import CloudSecrets.World
import CloudSecrets.Yaml.Calendar
import CloudSecrets.Yaml.Cursor
import CloudSecrets.Yaml.Document
import CloudSecrets.Yaml.Node
import CloudSecrets.Yaml.Scalar
import CloudSecrets.Yaml.Tag
import CloudSecrets.Yaml.Token
import CloudSecrets.Yaml.Token.Scalar
import CloudSecrets.Yaml.Value
import CloudSecrets.Proofs.Action
import CloudSecrets.Proofs.Client
import CloudSecrets.Proofs.CommandLine.Bounds
import CloudSecrets.Proofs.CommandLine.Create
import CloudSecrets.Proofs.CommandLine.Credentials
import CloudSecrets.Proofs.CommandLine.Exit
import CloudSecrets.Proofs.CommandLine.Frame
import CloudSecrets.Proofs.CommandLine.History
import CloudSecrets.Proofs.CommandLine.Laziness
import CloudSecrets.Proofs.CommandLine.Misuse
import CloudSecrets.Proofs.CommandLine.Password
import CloudSecrets.Proofs.CommandLine.Perform
import CloudSecrets.Proofs.CommandLine.Persistence
import CloudSecrets.Proofs.CommandLine.Reading
import CloudSecrets.Proofs.CommandLine.Recovery
import CloudSecrets.Proofs.CommandLine.Secrecy
import CloudSecrets.Proofs.CommandLine.Settings
import CloudSecrets.Proofs.CommandLine.Show
import CloudSecrets.Proofs.CommandLine.Verbosity
import CloudSecrets.Proofs.CommandLine.Word
import CloudSecrets.Proofs.Config.Credentials
import CloudSecrets.Proofs.Config.Faults
import CloudSecrets.Proofs.Config.Load
import CloudSecrets.Proofs.Config.Mishap
import CloudSecrets.Proofs.Config.Place
import CloudSecrets.Proofs.Config.Validity
import CloudSecrets.Proofs.FileTree.Canonical
import CloudSecrets.Proofs.FileTree.Folders
import CloudSecrets.Proofs.FileTree.Growth
import CloudSecrets.Proofs.FileTree.Lookup
import CloudSecrets.Proofs.FileTree.Outline
import CloudSecrets.Proofs.FileTree.Path
import CloudSecrets.Proofs.Json.Legible
import CloudSecrets.Proofs.Json.RoundTrip
import CloudSecrets.Proofs.Json.Text
import CloudSecrets.Proofs.Label
import CloudSecrets.Proofs.Preference
import CloudSecrets.Proofs.Preference.Reading
import CloudSecrets.Proofs.Preference.Storing
import CloudSecrets.Proofs.Service.Addressing
import CloudSecrets.Proofs.Service.Calls
import CloudSecrets.Proofs.Service.Encounter
import CloudSecrets.Proofs.Service.Requests
import CloudSecrets.Proofs.Session.Cache
import CloudSecrets.Proofs.Session.Credentials
import CloudSecrets.Proofs.Session.Preference
import CloudSecrets.Proofs.Session.Resolution
import CloudSecrets.Proofs.Table
import CloudSecrets.Proofs.Text.Plain
import CloudSecrets.Proofs.Yaml.Overlong
import CloudSecrets.Proofs.Yaml.Shown
import CloudSecrets.Proofs.Service.Disabling
import CloudSecrets.Proofs.Session.Connection
import CloudSecrets.Proofs.Config.Selection
import CloudSecrets.Proofs.Table.Layout
import CloudSecrets.Proofs.Table.Lossless
import CloudSecrets.Proofs.Table.Spread
import CloudSecrets.Proofs.Table.Rows
import CloudSecrets.Proofs.Entries
import CloudSecrets.Proofs.Label.Collecting
import CloudSecrets.Proofs.Table.Alignment
import CloudSecrets.Proofs.Service.Naming
