import PocketBasic.Arithmetic
import PocketBasic.Attempt
import PocketBasic.BoundedStack
import PocketBasic.Builtin
import PocketBasic.Checksum
import PocketBasic.Error
import PocketBasic.Event.PinTable
import PocketBasic.Event.Timer
import PocketBasic.Host.Basic
import PocketBasic.Host.Files
import PocketBasic.Host.Signals
import PocketBasic.Host.Store
import PocketBasic.Host.Stream
import PocketBasic.Machine.Blocks
import PocketBasic.Machine.Channels
import PocketBasic.Machine.Data
import PocketBasic.Machine.Expression
import PocketBasic.Machine.Jumps
import PocketBasic.Machine.Printing
import PocketBasic.Machine.Reading
import PocketBasic.Machine.Run
import PocketBasic.Machine.State
import PocketBasic.Machine.Statement
import PocketBasic.Machine.Storage
import PocketBasic.Machine.Timing
import PocketBasic.Machine.Variables
import PocketBasic.Main
import PocketBasic.Memory.Address
import PocketBasic.Memory.Basic
import PocketBasic.Memory.Editor
import PocketBasic.Memory.Heap
import PocketBasic.Number.Decimal
import PocketBasic.Number.Elementary
import PocketBasic.Number.Notation
import PocketBasic.Number.Random
import PocketBasic.Number.Shortest
import PocketBasic.Number.Single
import PocketBasic.Program.Encoding
import PocketBasic.Program.Image
import PocketBasic.Program.Lines
import PocketBasic.Program.Text
import PocketBasic.Proofs.Attempt
import PocketBasic.Proofs.BoundedStack
import PocketBasic.Proofs.Checksum
import PocketBasic.Proofs.Conduct
import PocketBasic.Proofs.Event.PinTurns
import PocketBasic.Proofs.Expression.Completeness
import PocketBasic.Proofs.Expression.Grammar
import PocketBasic.Proofs.Expression.Soundness
import PocketBasic.Proofs.Expression.Stages
import PocketBasic.Proofs.Failures
import PocketBasic.Proofs.Host.Interrupts
import PocketBasic.Proofs.Machine.Accessing
import PocketBasic.Proofs.Machine.Ahead
import PocketBasic.Proofs.Machine.Along
import PocketBasic.Proofs.Machine.Aside
import PocketBasic.Proofs.Machine.Assigning
import PocketBasic.Proofs.Machine.AtRest
import PocketBasic.Proofs.Machine.Breaking
import PocketBasic.Proofs.Machine.Budgets
import PocketBasic.Proofs.Machine.Conditionals
import PocketBasic.Proofs.Machine.CountedLoops
import PocketBasic.Proofs.Machine.DataItems
import PocketBasic.Proofs.Machine.Disguises
import PocketBasic.Proofs.Machine.Elements
import PocketBasic.Proofs.Machine.Ending
import PocketBasic.Proofs.Machine.Evaluating
import PocketBasic.Proofs.Machine.Executing
import PocketBasic.Proofs.Machine.Guarding
import PocketBasic.Proofs.Machine.HeapIntegrity
import PocketBasic.Proofs.Machine.Heedless
import PocketBasic.Proofs.Machine.HeedlessRuns
import PocketBasic.Proofs.Machine.HeedlessStatements
import PocketBasic.Proofs.Machine.HeldPins
import PocketBasic.Proofs.Machine.InStep
import PocketBasic.Proofs.Machine.Interrupts
import PocketBasic.Proofs.Machine.Jumping
import PocketBasic.Proofs.Machine.KeptTexts
import PocketBasic.Proofs.Machine.Lenient
import PocketBasic.Proofs.Machine.Loading
import PocketBasic.Proofs.Machine.LoopExits
import PocketBasic.Proofs.Machine.LoopFrames
import PocketBasic.Proofs.Machine.LoopWords
import PocketBasic.Proofs.Machine.MadeObjects
import PocketBasic.Proofs.Machine.Matching
import PocketBasic.Proofs.Machine.Objects
import PocketBasic.Proofs.Machine.Operands
import PocketBasic.Proofs.Machine.OwnLoops
import PocketBasic.Proofs.Machine.Parameters
import PocketBasic.Proofs.Machine.PinDelivery
import PocketBasic.Proofs.Machine.PinDispatch
import PocketBasic.Proofs.Machine.PinNesting
import PocketBasic.Proofs.Machine.Places
import PocketBasic.Proofs.Machine.PokedHeap
import PocketBasic.Proofs.Machine.Progress
import PocketBasic.Proofs.Machine.Reporting
import PocketBasic.Proofs.Machine.Restarting
import PocketBasic.Proofs.Machine.Resuming
import PocketBasic.Proofs.Machine.Robustness
import PocketBasic.Proofs.Machine.RunAgain
import PocketBasic.Proofs.Machine.Running
import PocketBasic.Proofs.Machine.Scanning
import PocketBasic.Proofs.Machine.Slots
import PocketBasic.Proofs.Machine.Sparing
import PocketBasic.Proofs.Machine.Storing
import PocketBasic.Proofs.Machine.Subscripts
import PocketBasic.Proofs.Machine.Substrings
import PocketBasic.Proofs.Machine.Switching
import PocketBasic.Proofs.Machine.TimerSchedule
import PocketBasic.Proofs.Machine.TokenPlaces
import PocketBasic.Proofs.Machine.TypedLines
import PocketBasic.Proofs.Machine.Undisturbed
import PocketBasic.Proofs.Machine.Variables
import PocketBasic.Proofs.Machine.WithinProgram
import PocketBasic.Proofs.Memory.AnyBytes
import PocketBasic.Proofs.Memory.Bytes
import PocketBasic.Proofs.Memory.Editing
import PocketBasic.Proofs.Memory.Guarded
import PocketBasic.Proofs.Memory.HeapAccess
import PocketBasic.Proofs.Memory.HeapCalls
import PocketBasic.Proofs.Memory.HeapRecords
import PocketBasic.Proofs.Memory.Integrity
import PocketBasic.Proofs.Memory.LineLookup
import PocketBasic.Proofs.Memory.LineSlots
import PocketBasic.Proofs.Memory.LineTable
import PocketBasic.Proofs.Memory.Listing
import PocketBasic.Proofs.Memory.Payloads
import PocketBasic.Proofs.Memory.Session
import PocketBasic.Proofs.Number.Decimal
import PocketBasic.Proofs.Number.Numeral
import PocketBasic.Proofs.Number.Order
import PocketBasic.Proofs.Number.Reading
import PocketBasic.Proofs.Number.Remainder
import PocketBasic.Proofs.Number.Rounding
import PocketBasic.Proofs.Number.Shortest
import PocketBasic.Proofs.Number.WholeParts
import PocketBasic.Proofs.Number.Written
import PocketBasic.Proofs.Program.Alignment
import PocketBasic.Proofs.Program.Boundaries
import PocketBasic.Proofs.Program.DataLists
import PocketBasic.Proofs.Program.Decoding
import PocketBasic.Proofs.Program.Image
import PocketBasic.Proofs.Program.Listing
import PocketBasic.Proofs.Program.Records
import PocketBasic.Proofs.Program.Walking
import PocketBasic.Proofs.StackCalls
import PocketBasic.Proofs.Text.Classes
import PocketBasic.Proofs.Token.LetterCase
import PocketBasic.Proofs.Token.Readings
import PocketBasic.Proofs.Token.Relisting
import PocketBasic.Proofs.Token.Typed
import PocketBasic.Proofs.Token.UpperCase
import PocketBasic.Proofs.Token.Words
import PocketBasic.Proofs.Token.WrittenNumbers
import PocketBasic.Text.Bytes
import PocketBasic.Text.Unicode
import PocketBasic.Token.Basic
import PocketBasic.Token.Lexer
import PocketBasic.Token.Name
import PocketBasic.Token.Vocabulary
