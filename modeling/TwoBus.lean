import TwoBus.Device.Rack
import TwoBus.Panel
import TwoBus.Proofs.Budget
import TwoBus.Proofs.BusCycle
import TwoBus.Proofs.ArithmeticUnit
import TwoBus.Proofs.Core
import TwoBus.Proofs.Microprograms
import TwoBus.Proofs.Execution
import TwoBus.Proofs.InstructionSet
import TwoBus.Proofs.FaultOrder
import TwoBus.Proofs.FaultFrame
import TwoBus.Proofs.Law
import TwoBus.Proofs.Session
import TwoBus.Proofs.StepLaw
import TwoBus.Proofs.MemoryLaw
import TwoBus.Proofs.Running
import TwoBus.Proofs.Gates
import TwoBus.Proofs.Spelling
import TwoBus.Proofs.Characters
import TwoBus.Proofs.InputText
import TwoBus.Proofs.FaultCauses
import TwoBus.Proofs.Representation
import TwoBus.Proofs.InputDelivery
import TwoBus.Proofs.OutputHistory
import TwoBus.Proofs.Steps
import TwoBus.Proofs.Echo
import TwoBus.Proofs.ControlState
import TwoBus.Proofs.AddressRegister
import TwoBus.Proofs.Oblivious
import TwoBus.Proofs.Logging
import TwoBus.Proofs.Accumulation
import TwoBus.Proofs.PlainMemory
import TwoBus.Proofs.Blindness
import TwoBus.Proofs.UnreachedCells
import TwoBus.Proofs.Masking
import TwoBus.Proofs.BusProtocol
import TwoBus.Proofs.Expressions
import TwoBus.Proofs.RefusedAccess
import TwoBus.Proofs.Contention
import TwoBus.Proofs.Decoding
import TwoBus.Proofs.Disassembly
import TwoBus.Proofs.Subtraction
import TwoBus.Proofs.Narrowing
import TwoBus.Proofs.Routing
import TwoBus.Proofs.Transfers
