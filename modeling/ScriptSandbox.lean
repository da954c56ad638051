import ScriptSandbox.Cache.CodeCache
import ScriptSandbox.Cache.Directory
import ScriptSandbox.Cache.Store
import ScriptSandbox.Clock
import ScriptSandbox.CommandLine
import ScriptSandbox.CommandLine.Help
import ScriptSandbox.CommandLine.Perform
import ScriptSandbox.Compile.Declare
import ScriptSandbox.Compile.Emit
import ScriptSandbox.Compile.Expression
import ScriptSandbox.Compile.Function
import ScriptSandbox.Compile.Program
import ScriptSandbox.Compile.Statement
import ScriptSandbox.Data.Assoc
import ScriptSandbox.Decimal.Shortest
import ScriptSandbox.Duration
import ScriptSandbox.Engine.Choice
import ScriptSandbox.Engine.Error
import ScriptSandbox.Engine.Interpreter
import ScriptSandbox.Engine.Kind
import ScriptSandbox.Engine.Realm
import ScriptSandbox.Engine.Surroundings
import ScriptSandbox.Guest.Failure
import ScriptSandbox.Guest.Heap
import ScriptSandbox.Guest.Marshal
import ScriptSandbox.Guest.Thrown
import ScriptSandbox.Json.Decoder
import ScriptSandbox.Json.Reader
import ScriptSandbox.Json.Value
import ScriptSandbox.Language.Lexer
import ScriptSandbox.Language.Module
import ScriptSandbox.Language.Names
import ScriptSandbox.Language.Parser
import ScriptSandbox.Language.Tree
import ScriptSandbox.Library.Array
import ScriptSandbox.Library.Buffer
import ScriptSandbox.Library.Collection
import ScriptSandbox.Library.Console
import ScriptSandbox.Library.DataView
import ScriptSandbox.Library.Date
import ScriptSandbox.Library.Function
import ScriptSandbox.Library.Globals
import ScriptSandbox.Library.Json
import ScriptSandbox.Library.Member
import ScriptSandbox.Library.Number
import ScriptSandbox.Library.Object
import ScriptSandbox.Library.Promise
import ScriptSandbox.Library.Reflect
import ScriptSandbox.Library.RegExp
import ScriptSandbox.Library.String
import ScriptSandbox.Machine.Arithmetic
import ScriptSandbox.Machine.Basics
import ScriptSandbox.Machine.Builtin
import ScriptSandbox.Machine.Call
import ScriptSandbox.Machine.Closure
import ScriptSandbox.Machine.Code
import ScriptSandbox.Machine.Collect
import ScriptSandbox.Machine.Collection
import ScriptSandbox.Machine.Convert
import ScriptSandbox.Machine.Coroutine
import ScriptSandbox.Machine.Equality
import ScriptSandbox.Machine.Evaluate
import ScriptSandbox.Machine.Get
import ScriptSandbox.Machine.Iterate
import ScriptSandbox.Machine.Link
import ScriptSandbox.Machine.Numeral
import ScriptSandbox.Machine.Operator
import ScriptSandbox.Machine.Promise
import ScriptSandbox.Machine.Property
import ScriptSandbox.Machine.PropertyObject
import ScriptSandbox.Machine.Proxy
import ScriptSandbox.Machine.Run
import ScriptSandbox.Machine.Set
import ScriptSandbox.Machine.State
import ScriptSandbox.Machine.Step
import ScriptSandbox.Machine.Str
import ScriptSandbox.Machine.Value
import ScriptSandbox.Machine.View
import ScriptSandbox.Main
import ScriptSandbox.Metrics.Counter
import ScriptSandbox.Metrics.Timer
import ScriptSandbox.Modules.Fetch
import ScriptSandbox.Modules.ImportMap
import ScriptSandbox.Modules.Inline
import ScriptSandbox.Modules.Specifier
import ScriptSandbox.Outcome.Basic
import ScriptSandbox.Outcome.Log
import ScriptSandbox.Pace
import ScriptSandbox.Proofs.Cache.Call
import ScriptSandbox.Proofs.Cache.Capacity
import ScriptSandbox.Proofs.Cache.Directory
import ScriptSandbox.Proofs.Cache.Faults
import ScriptSandbox.Proofs.Cache.Store
import ScriptSandbox.Proofs.Cache.Lru
import ScriptSandbox.Proofs.Cache.Recency
import ScriptSandbox.Proofs.Cache.Reopen
import ScriptSandbox.Proofs.Cache.Stamps
import ScriptSandbox.Proofs.Cache.Tenants
import ScriptSandbox.Proofs.Data.Assoc
import ScriptSandbox.Proofs.Engine.Answers
import ScriptSandbox.Proofs.Engine.Lifecycle
import ScriptSandbox.Proofs.Engine.LiveRealm
import ScriptSandbox.Proofs.Engine.RealmRun
import ScriptSandbox.Proofs.Json.Gives
import ScriptSandbox.Proofs.Machine.Loading
import ScriptSandbox.Proofs.Machine.Rejections
import ScriptSandbox.Proofs.Modules.Growth
import ScriptSandbox.Proofs.Modules.ImportMap
import ScriptSandbox.Proofs.Modules.Resolution
import ScriptSandbox.Proofs.Modules.Specifier
import ScriptSandbox.Proofs.Modules.Web
import ScriptSandbox.Proofs.Realm.Exhaustion
import ScriptSandbox.Proofs.Realm.Handle
import ScriptSandbox.Proofs.Realm.Independence
import ScriptSandbox.Proofs.Realm.Wire
import ScriptSandbox.Proofs.Sandbox.Draining
import ScriptSandbox.Proofs.Sandbox.Likeness
import ScriptSandbox.Proofs.Sandbox.Verdict
import ScriptSandbox.Proofs.Scan.Comments
import ScriptSandbox.Proofs.Scan.Composition
import ScriptSandbox.Proofs.Scan.Decision
import ScriptSandbox.Proofs.Scan.Declarations
import ScriptSandbox.Proofs.Scan.Forms
import ScriptSandbox.Proofs.Scan.Head
import ScriptSandbox.Proofs.Scan.Matches
import ScriptSandbox.Proofs.Scan.Offset
import ScriptSandbox.Proofs.Scan.Patterns
import ScriptSandbox.Proofs.Scan.Plain
import ScriptSandbox.Proofs.Scan.Recognisers
import ScriptSandbox.Proofs.Scan.Search
import ScriptSandbox.Proofs.Scan.Soundness
import ScriptSandbox.Proofs.Scan.Statement
import ScriptSandbox.Proofs.Scan.Tokens
import ScriptSandbox.Proofs.Scan.Walk
import ScriptSandbox.Proofs.Url.Web
import ScriptSandbox.Realm.Execution
import ScriptSandbox.Realm.Handle
import ScriptSandbox.Realm.Message
import ScriptSandbox.Realm.Thread
import ScriptSandbox.Regex.Match
import ScriptSandbox.Regex.Program
import ScriptSandbox.Regex.Property
import ScriptSandbox.Regex.Reader
import ScriptSandbox.Regex.Tree
import ScriptSandbox.Sandbox.Contexts
import ScriptSandbox.Sandbox.Evaluate
import ScriptSandbox.Sandbox.Limits
import ScriptSandbox.Sandbox.Vm
import ScriptSandbox.Scan.Blank
import ScriptSandbox.Scan.Imports
import ScriptSandbox.Scan.ModuleSyntax
import ScriptSandbox.Scan.Pattern
import ScriptSandbox.Settings
import ScriptSandbox.Text.Case
import ScriptSandbox.Text.Class
import ScriptSandbox.Text.Normal
import ScriptSandbox.Text.Parts
import ScriptSandbox.Text.Ranges
import ScriptSandbox.Url.Basic
import ScriptSandbox.Url.Encode
import ScriptSandbox.Url.Host
import ScriptSandbox.Url.Read
import ScriptSandbox.Proofs.Scan.Swap
import ScriptSandbox.Proofs.Scan.Literals
import ScriptSandbox.Proofs.Scan.Leads
import ScriptSandbox.Proofs.Scan.Outline
import ScriptSandbox.Proofs.Scan.TopLevel
import ScriptSandbox.Proofs.Modules.Lookup
import ScriptSandbox.Proofs.Realm.Turns
import ScriptSandbox.Proofs.Cache.FailedWrite
import ScriptSandbox.Proofs.Machine.Nesting
import ScriptSandbox.Proofs.Guest.Budget
import ScriptSandbox.Proofs.Cache.Confinement
import ScriptSandbox.Proofs.Cache.FileMap
import ScriptSandbox.Proofs.Modules.Inline
import ScriptSandbox.Proofs.Modules.Package
import ScriptSandbox.Proofs.Settings.Texts
import ScriptSandbox.Proofs.Machine.Fetching
import ScriptSandbox.Proofs.Sandbox.Refetching
import ScriptSandbox.Proofs.Metrics.Window
import ScriptSandbox.Proofs.Scan.Quotes
