import Forgeant.Library.Loop
import Forgeant.Library.Fallible
import Forgeant.Library.Str
import Forgeant.Library.StringView
import Forgeant.Library.Heap
import Forgeant.Library.Offer
import Forgeant.Library.Assoc
import Forgeant.Library.Integral
import Forgeant.Library.Double
import Forgeant.Library.JsonNumber
import Forgeant.Library.JsonText
import Forgeant.Library.JsonReader
import Forgeant.Library.JsonSound
import Forgeant.Json.Value
import Forgeant.Json.Text
import Forgeant.Json.Path
import Forgeant.Json.Get
import Forgeant.Json.Reading
import Forgeant.Json.Reference
import Forgeant.Types
import Forgeant.Session
import Forgeant.Agent
import Forgeant.Structured
import Forgeant.RunChain
import Forgeant.Conversion
import Forgeant.Decoding
import Forgeant.Schema
import Forgeant.Provider.Http
import Forgeant.Provider.Anthropic
import Forgeant.Provider.OpenAi
import Forgeant.CurlClient
import Forgeant.Throwing
import Forgeant.Interchange
import Forgeant.Segment
import Forgeant.Retry
import Forgeant.Dialogue
import Forgeant.Curl
import Forgeant.CurlHttpClient
import Forgeant.Lifetimes
import Forgeant.Replay
import Forgeant.Create
import Forgeant.Checkpoint
import Forgeant.Writing
import Forgeant.Building
import Forgeant.Requests
import Forgeant.Growth
import Forgeant.Param
import Forgeant.Conformance
import Forgeant.Proofs.JsonLeaves
import Forgeant.Proofs.NumberConversion
import Forgeant.Proofs.JsonRoundTrip
import Forgeant.Proofs.DumpExact
import Forgeant.Proofs.TypedGet
import Forgeant.Proofs.SchemaClosing
import Forgeant.Proofs.ReactLoop
import Forgeant.Proofs.Transcript
import Forgeant.Proofs.RetryLoop
import Forgeant.Proofs.Accounting
import Forgeant.Proofs.FinalTurn
import Forgeant.Proofs.Agreement
import Forgeant.Proofs.Resume
import Forgeant.Proofs.OpenAiEncoding
import Forgeant.Proofs.Dialogue
import Forgeant.Proofs.WireForm
import Forgeant.Proofs.NullMembers
import Forgeant.Proofs.ConversationJson
import Forgeant.Proofs.OverrideScope
import Forgeant.Proofs.ErrorContract
import Forgeant.Proofs.Resending
import Forgeant.Proofs.Interchange
import Forgeant.Proofs.Overwriting
import Forgeant.Proofs.WrappedJson
import Forgeant.Proofs.FailureReports
import Forgeant.Proofs.HeaderLines
import Forgeant.Proofs.PerformPost
import Forgeant.Proofs.Lifetimes
import Forgeant.Proofs.Transfers
import Forgeant.Proofs.Registry
import Forgeant.Proofs.Calls
import Forgeant.Proofs.Tools
import Forgeant.Proofs.Replay
import Forgeant.Proofs.Recording
import Forgeant.Proofs.Create
import Forgeant.Proofs.Checkpoint
import Forgeant.Proofs.Writing
import Forgeant.Proofs.Building
import Forgeant.Proofs.Places
import Forgeant.Proofs.Requests
import Forgeant.Proofs.Growth
import Forgeant.Proofs.Conformance
import Forgeant.Proofs.TypedTools
import Forgeant.Proofs.Overflow
