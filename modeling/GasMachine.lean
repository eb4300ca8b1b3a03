import GasMachine.Assembly
import GasMachine.Bytes
import GasMachine.Bytes.Hex
import GasMachine.Bytes.TwosComplement
import GasMachine.Chain
import GasMachine.Config
import GasMachine.Decimal.Double
import GasMachine.Decimal.Shortest
import GasMachine.Digest
import GasMachine.Digest.Keccak
import GasMachine.Digest.Sha256
import GasMachine.Event
import GasMachine.Execution
import GasMachine.Execution.Termination
import GasMachine.Fault
import GasMachine.Fixture
import GasMachine.Fixture.Suite
import GasMachine.Frame
import GasMachine.Hash
import GasMachine.Instruction
import GasMachine.Instruction.Behaviour
import GasMachine.Instruction.Refine
import GasMachine.Instruction.Run
import GasMachine.Instruction.Table
import GasMachine.Integer.Bitwise
import GasMachine.Integer.Operation
import GasMachine.Invocation
import GasMachine.Item
import GasMachine.Item.Conversion
import GasMachine.Item.Keyed
import GasMachine.Item.OrderedMap
import GasMachine.Item.Slice
import GasMachine.Json
import GasMachine.Json.Document
import GasMachine.Json.Double
import GasMachine.Json.Reading
import GasMachine.Machine
import GasMachine.Machine.Charge
import GasMachine.Machine.Result
import GasMachine.Metrics
import GasMachine.Opcode
import GasMachine.Opcode.Price
import GasMachine.Parameter
import GasMachine.Service
import GasMachine.Service.Run
import GasMachine.Store.Contents
import GasMachine.Store.Layered
import GasMachine.Store.Snapshot
import GasMachine.Text.AttachedMark
import GasMachine.Text.DefaultIgnorable
import GasMachine.Text.Printable
import GasMachine.Text.Quoted
import GasMachine.Text.Utf8
import GasMachine.Proofs.Success
import GasMachine.Proofs.Effects
import GasMachine.Proofs.Step
import GasMachine.Proofs.Demand
import GasMachine.Proofs.History
import GasMachine.Proofs.Tick
import GasMachine.Proofs.Call
import GasMachine.Proofs.StackCeiling
import GasMachine.Proofs.GasAccount
import GasMachine.Proofs.StepBound
import GasMachine.Proofs.Settlement
import GasMachine.Proofs.Recursion
import GasMachine.Proofs.Buffering
import GasMachine.Proofs.MoreGas
import GasMachine.Proofs.EveryItem
import GasMachine.Proofs.Holdings
import GasMachine.Proofs.StorageIsolation
import GasMachine.Proofs.Journal
import GasMachine.Proofs.Events
import GasMachine.Proofs.ContentAddressing
import GasMachine.Proofs.Numbers
import GasMachine.Proofs.Assembling
import GasMachine.Proofs.Sound
import GasMachine.Proofs.Arity
import GasMachine.Proofs.Declared
import GasMachine.Proofs.NeverInternal
import GasMachine.Proofs.Shape
import GasMachine.Proofs.ItemSize
import GasMachine.Proofs.StraightLine
import GasMachine.Proofs.Concatenation
import GasMachine.Proofs.NestedCounter
import GasMachine.Proofs.ReadOnly
import GasMachine.Proofs.Stepping
import GasMachine.Proofs.Nesting
import GasMachine.Proofs.SizeCheck
import GasMachine.Proofs.ControlFlow
import GasMachine.Proofs.Decoding
import GasMachine.Proofs.Past
import GasMachine.Proofs.Routines
import GasMachine.Proofs.CleanFaults
import GasMachine.Proofs.RaisedFaults
import GasMachine.Proofs.Unwinding
import GasMachine.Proofs.InPlace
import GasMachine.Proofs.ShortestForm
import GasMachine.Proofs.SingleStep
import GasMachine.Proofs.StackMoves
import GasMachine.Proofs.ExactArithmetic
import GasMachine.Proofs.IntegerPush
import GasMachine.Proofs.Outcomes
import GasMachine.Proofs.Conversions
import GasMachine.Proofs.ByteSlices
import GasMachine.Proofs.Updates
import GasMachine.Proofs.KeyedAccess
import GasMachine.Proofs.Packing
import GasMachine.Proofs.CodePointers
import GasMachine.Proofs.InsertionOrder
import GasMachine.Proofs.ReceiptForm
import GasMachine.Proofs.HashText
import GasMachine.Proofs.JsonTokens
import GasMachine.Proofs.JsonText
import GasMachine.Proofs.Loading
import GasMachine.Proofs.MetricsAccount
