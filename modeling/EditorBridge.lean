import EditorBridge.CommandLine
import EditorBridge.Commands
import EditorBridge.Config.Basic
import EditorBridge.Config.Loader
import EditorBridge.Config.Path
import EditorBridge.Config.Tree
import EditorBridge.Context
import EditorBridge.Document
import EditorBridge.Duration
import EditorBridge.Effect
import EditorBridge.Entries
import EditorBridge.Failure
import EditorBridge.Frame
import EditorBridge.Highlight
import EditorBridge.Json.Basic
import EditorBridge.Json.Decode
import EditorBridge.Json.Printer
import EditorBridge.Json.Reader
import EditorBridge.Json.Shape
import EditorBridge.Json.Source
import EditorBridge.LensCache
import EditorBridge.Log
import EditorBridge.Main
import EditorBridge.Model
import EditorBridge.Number.Double
import EditorBridge.Number.Shortest
import EditorBridge.Panel.Bridge
import EditorBridge.Panel.Html
import EditorBridge.Panel.Message
import EditorBridge.Program
import EditorBridge.Proofs.Config.Layers
import EditorBridge.Proofs.Config.Settings
import EditorBridge.Proofs.Frame.Arrival
import EditorBridge.Proofs.Frame.Grammar
import EditorBridge.Proofs.Frame.HeaderLine
import EditorBridge.Proofs.Frame.Reading
import EditorBridge.Proofs.Frame.Stream
import EditorBridge.Proofs.Frame.Truncation
import EditorBridge.Proofs.Json.Decode
import EditorBridge.Proofs.Json.Rewriting
import EditorBridge.Proofs.Json.RoundTrip
import EditorBridge.Proofs.Json.Tokens
import EditorBridge.Proofs.Model
import EditorBridge.Proofs.Panel.Lifecycle
import EditorBridge.Proofs.Panel.Messages
import EditorBridge.Proofs.Panel.Moves
import EditorBridge.Proofs.Panel.Output
import EditorBridge.Proofs.Panel.Relay
import EditorBridge.Proofs.Protocol.NormalForm
import EditorBridge.Proofs.Rpc.Abort
import EditorBridge.Proofs.Rpc.Accounts
import EditorBridge.Proofs.Rpc.Acts
import EditorBridge.Proofs.Rpc.Answers
import EditorBridge.Proofs.Rpc.Arrivals
import EditorBridge.Proofs.Rpc.Closing
import EditorBridge.Proofs.Rpc.Conservation
import EditorBridge.Proofs.Rpc.Decoding
import EditorBridge.Proofs.Rpc.Delivery
import EditorBridge.Proofs.Rpc.History
import EditorBridge.Proofs.Rpc.Insertion
import EditorBridge.Proofs.Rpc.Outbox
import EditorBridge.Proofs.Rpc.Outcomes
import EditorBridge.Proofs.Rpc.Pieces
import EditorBridge.Proofs.Rpc.Reading
import EditorBridge.Proofs.Rpc.Reordering
import EditorBridge.Proofs.Rpc.Run
import EditorBridge.Proofs.Rpc.Transparency
import EditorBridge.Proofs.Server.Output
import EditorBridge.Proofs.Server.Supervision
import EditorBridge.Proofs.Session.Activation
import EditorBridge.Proofs.Session.Commands
import EditorBridge.Proofs.Session.Dispatch
import EditorBridge.Proofs.Session.Documents
import EditorBridge.Proofs.Session.Lenses
import EditorBridge.Proofs.Session.Notices
import EditorBridge.Proofs.Session.Readback
import EditorBridge.Proofs.Session.Run
import EditorBridge.Proofs.Session.UnderCursor
import EditorBridge.Proofs.Terminal.Cursor
import EditorBridge.Proofs.Terminal.Effects
import EditorBridge.Proofs.Terminal.Grammar
import EditorBridge.Proofs.Terminal.Leaving
import EditorBridge.Proofs.Terminal.LifeCycle
import EditorBridge.Proofs.Terminal.Panels
import EditorBridge.Proofs.Terminal.Picks
import EditorBridge.Proofs.Terminal.Routes
import EditorBridge.Proofs.Terminal.Spoken
import EditorBridge.Proofs.Terminal.Talk
import EditorBridge.Proofs.Text.Blank
import EditorBridge.Proofs.Text.Numeral
import EditorBridge.Proofs.Text.Utf8
import EditorBridge.Proofs.Text.Words
import EditorBridge.Protocol.Capabilities
import EditorBridge.Protocol.Execution
import EditorBridge.Protocol.Lens
import EditorBridge.Protocol.Lifecycle
import EditorBridge.Protocol.Synchronization
import EditorBridge.Rpc.Connection
import EditorBridge.Rpc.Interleaving
import EditorBridge.Rpc.Message
import EditorBridge.Rpc.Request
import EditorBridge.Server.Launch
import EditorBridge.Server.Port
import EditorBridge.Server.Process
import EditorBridge.Session.Activation
import EditorBridge.Session.Basic
import EditorBridge.Terminal.Host
import EditorBridge.Terminal.Interaction
import EditorBridge.Terminal.Line
import EditorBridge.Terminal.Style
import EditorBridge.Text.Blank
import EditorBridge.Text.Numeral
import EditorBridge.Text.Quoted
import EditorBridge.Text.Unprinted
import EditorBridge.Text.Utf8
import EditorBridge.Toml.Datetime
import EditorBridge.Toml.Document
import EditorBridge.Toml.Scalar
import EditorBridge.Toml.Table
import EditorBridge.Toml.Value
import EditorBridge.Url.Basic
import EditorBridge.Url.Host
import EditorBridge.Url.Parse
import EditorBridge.Url.Percent
