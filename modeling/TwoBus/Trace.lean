import TwoBus.Architecture

/-!
# Traces

What the parts of a machine do is a list of events. A logger prints events while they happen, and
each part asks the switches of the logger whether to print; `Event.text` is the printed form. The
trace keeps the events in order, each with a note on whether it was printed, and the log is the text
of those that were. So the trace tells what was done also where nothing was printed.

Some events have no text of their own (`Event.present`); they make visible in the trace what the
log leaves out.
-/

namespace TwoBus

/-- The parts of the log that a switch turns on. -/
inductive Channel
  /-- The instruction about to be executed. -/
  | disassembly
  /-- All registers after each step. -/
  | registers
  /-- The traffic on the buses and at the memories and devices. -/
  | buses
  deriving DecidableEq, Repr

structure Switches where
  disassembly : Bool := false
  registers : Bool := false
  buses : Bool := false
  deriving DecidableEq, Repr

/-- Whether a channel is turned on. -/
def Switches.isOn (switches : Switches) : Channel → Bool
  | .disassembly => switches.disassembly
  | .registers => switches.registers
  | .buses => switches.buses

/-- The logger that everything is done under, and how its switches stand. -/
class Logger where
  switches : Switches

/-- The logger whose switches are all off. -/
abbrev Logger.silent : Logger := ⟨{}⟩

/-- Something that happened, or a line of a status report. -/
inductive Event
  | operate (signals : Signals)
  /-- A register with an open read gate turns to its bus. -/
  | drive (reg : Reg)
  | assign (bus : Bus) (value : Int)
  | sample (bus : Bus) (value : Int)
  /-- A register with an open write gate is offered a value. -/
  | latch (reg : Reg) (value : Int)
  /-- An address is presented to the data memory. -/
  | present (address : Int)
  | load (cell : Nat) (value : Int)
  /-- The data memory has accepted a value for a cell. -/
  | store (cell : Nat) (value : Int)
  | deviceRead (slot : Nat) (value : Int)
  /-- A device is offered a value. -/
  | deviceWrite (slot : Nat) (value : Int)
  /-- A step ended, or was refused, with the machine halted. -/
  | halted
  /-- A line between blocks of the log. -/
  | rule
  /-- The program cell about to be fetched. -/
  | listing (address : Nat) (cell : Option Instruction)
  /-- An instruction pointer that is no address. -/
  | unlisted (address : Int)
  /-- The phase, and whether the instruction pointer is held. -/
  | control (phase : Phase) (hold : Bool)
  | register (reg : Reg) (value : Int) (readOpen writeOpen : Bool)
  | result (value : Int)
  | wired (count : Nat)
  | pending (count : Nat)
  | blank
  | remark (text : String)
  deriving DecidableEq, Repr

/-- The printed form of an event. A register that drives prints the start of a line, which the value
it puts on its bus completes. -/
def Event.text : Event → String
  | operate signals =>
    "alu: " ++ (if signals.increment then " INC" else "")
      ++ (if signals.invertLeft then " INVL" else "")
      ++ (if signals.invertRight then " INVR" else "") ++ "\n"
  | drive reg => "  " ++ reg.name ++ " -> " ++ reg.bus.name ++ ":"
  | assign bus value => "  " ++ bus.name ++ " <- " ++ toString value ++ "\n"
  | sample bus value => "  " ++ bus.name ++ " -> " ++ toString value ++ "\n"
  | latch reg value => "  " ++ reg.name ++ " <- " ++ toString value ++ "\n"
  | present _ => ""
  | load cell value =>
    "  MEM -> " ++ toString value ++ "@" ++ Text.hexAddress cell ++ "\n"
  | store cell value =>
    "  MEM <- " ++ toString value ++ "@" ++ Text.hexAddress cell ++ "\n"
  | deviceRead slot value => "io read(" ++ toString slot ++ ") -> " ++ toString value ++ "\n"
  | deviceWrite slot value => "io write(" ++ toString slot ++ ") <- " ++ toString value ++ "\n"
  | halted => "CPU halted\n"
  | rule => "---------------------\n"
  | listing address cell =>
    "(0x" ++ Text.hexAddress address ++ ")  "
      ++ cell.elim "<empty>" (fun inst => Text.untilNul inst.text) ++ "\n"
  | unlisted address => "(" ++ toString address ++ ")  ????\n"
  | control phase hold => "CTL: " ++ phase.name ++ (if hold then " L\n" else " l\n")
  | register reg value readOpen writeOpen =>
    Text.alignLeft 3 reg.name ++ ": " ++ Text.alignRight 6 (toString value)
      ++ (if readOpen then " R" else " r") ++ (if writeOpen then "W\n" else "w\n")
  | result value => "ALU: " ++ toString value ++ "\n"
  | wired count => "IO: " ++ toString count ++ "/" ++ toString windowSize ++ " slots wired\n"
  | pending count => "IN: " ++ toString count ++ " pending\n"
  | blank => "\n"
  | remark text => Text.untilNul text

/-- An event, and whether it was printed when it happened. -/
structure Entry where
  event : Event
  printed : Bool
  deriving DecidableEq, Repr

/-- The entry of an event on a channel, or of one that is always printed. -/
def Entry.of [Logger] (channel : Option Channel) (event : Event) : Entry :=
  ⟨event, channel.all Logger.switches.isOn⟩

/-- What happened, in order. -/
abbrev Trace := List Entry

namespace Trace

variable {logger : Logger}

/-- The events of a trace, printed or not. -/
def events (trace : Trace) : List Event := trace.map Entry.event

/-- What was printed, one text after the other. -/
def log (trace : Trace) : String :=
  String.join ((trace.filter Entry.printed).map (·.event.text))

@[simp] theorem events_append (t u : Trace) : events (t ++ u) = events t ++ events u :=
  List.map_append

/-- A report is a trace of its events. -/
@[simp] theorem events_map_of (channel : Option Channel) (events : List Event) :
    Trace.events (events.map (Entry.of channel)) = events := by
  simp [Trace.events, Entry.of, Function.comp_def]

/-- The log of what happened first comes first. -/
@[simp] theorem log_append (t u : Trace) : log (t ++ u) = log t ++ log u := by
  simp [log, String.join_append]

end Trace

end TwoBus
