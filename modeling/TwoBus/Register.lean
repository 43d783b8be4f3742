import TwoBus.Architecture
import TwoBus.Word

/-!
# Registers

A register is a word behind two gates. With its read gate closed it shows zero, and with its write
gate closed it ignores what it is offered.
-/

namespace TwoBus

/-- A word with a read gate and a write gate. -/
structure Register (w : Nat) where
  word : Word w := 0
  readOpen : Bool := false
  writeOpen : Bool := false
  deriving DecidableEq, Repr

namespace Register

variable {w : Nat}

def isOpen (x : Register w) : Gate → Bool
  | .read => x.readOpen
  | .write => x.writeOpen

def setGate (gate : Gate) (isOpen : Bool) (x : Register w) : Register w :=
  match gate with
  | .read => { x with readOpen := isOpen }
  | .write => { x with writeOpen := isOpen }

/-- What the register shows to the outside. -/
def read (x : Register w) : Word w :=
  if x.readOpen then x.word else 0

/-- Offer a value, which an open write gate lets in. -/
def write (v : Int) (x : Register w) : Register w :=
  if x.writeOpen then { x with word := .ofInt w v } else x

/-- Store a value past the gates. -/
def poke (v : Int) (x : Register w) : Register w :=
  { x with word := .ofInt w v }

@[simp] theorem setGate_setGate (gate : Gate) (o o' : Bool) (x : Register w) :
    (x.setGate gate o).setGate gate o' = x.setGate gate o' := by
  cases gate <;> rfl

@[simp] theorem read_of_open {x : Register w} (h : x.readOpen = true) : x.read = x.word := by
  simp [read, h]

@[simp] theorem read_of_closed {x : Register w} (h : x.readOpen = false) : x.read = 0 := by
  simp [read, h]

@[simp] theorem write_of_open {x : Register w} (h : x.writeOpen = true) (v : Int) :
    x.write v = x.poke v := by
  simp [write, poke, h]

@[simp] theorem write_of_closed {x : Register w} (h : x.writeOpen = false) (v : Int) :
    x.write v = x := by
  simp [write, h]

/-- Writing leaves both gates as they are. -/
@[simp] theorem isOpen_write (v : Int) (x : Register w) (gate : Gate) :
    (x.write v).isOpen gate = x.isOpen gate := by
  unfold write
  split <;> cases gate <;> rfl

end Register

/-- The four registers, all of one width. -/
structure RegisterFile (w : Nat) where
  acc : Register w := {}
  ar : Register w := {}
  dr : Register w := {}
  ip : Register w := {}
  deriving DecidableEq, Repr

namespace RegisterFile

variable {w : Nat}

def get (file : RegisterFile w) : Reg → Register w
  | .acc => file.acc
  | .ar => file.ar
  | .dr => file.dr
  | .ip => file.ip

def set (r : Reg) (x : Register w) (file : RegisterFile w) : RegisterFile w :=
  match r with
  | .acc => { file with acc := x }
  | .ar => { file with ar := x }
  | .dr => { file with dr := x }
  | .ip => { file with ip := x }

def modify (r : Reg) (f : Register w → Register w) (file : RegisterFile w) : RegisterFile w :=
  file.set r (f (file.get r))

/-- Open or close the same gate of several registers. -/
def setGates (gate : Gate) (isOpen : Bool) (rs : List Reg) (file : RegisterFile w) :
    RegisterFile w :=
  rs.foldl (fun file r => file.modify r (·.setGate gate isOpen)) file

/-- Offer a value to all registers. -/
def latch (v : Int) (file : RegisterFile w) : RegisterFile w where
  acc := file.acc.write v
  ar := file.ar.write v
  dr := file.dr.write v
  ip := file.ip.write v

/-- The registers whose gate is open, in clock order. -/
def openRegs (file : RegisterFile w) (gate : Gate) : List Reg :=
  Reg.all.filter (fun r => (file.get r).isOpen gate)

/-- All gates are closed. -/
def IsQuiet (file : RegisterFile w) : Prop :=
  ∀ r gate, (file.get r).isOpen gate = false

@[ext] theorem ext {x y : RegisterFile w} (h : ∀ r, x.get r = y.get r) : x = y := by
  cases x
  cases y
  have hacc := h .acc
  have har := h .ar
  have hdr := h .dr
  have hip := h .ip
  simp only [get] at hacc har hdr hip
  subst hacc har hdr hip
  rfl

@[simp] theorem get_set_self (r : Reg) (x : Register w) (file : RegisterFile w) :
    (file.set r x).get r = x := by
  cases r <;> rfl

theorem get_set_of_ne {r r' : Reg} (h : r ≠ r') (x : Register w) (file : RegisterFile w) :
    (file.set r x).get r' = file.get r' := by
  cases r <;> cases r' <;> simp_all [get, set]

/-- Changing one register is seen at that register only. -/
theorem get_modify (r r' : Reg) (f : Register w → Register w) (file : RegisterFile w) :
    (file.modify r f).get r' = if r = r' then f (file.get r') else file.get r' := by
  by_cases h : r = r'
  · subst h
    simp [modify]
  · simp [modify, get_set_of_ne h, h]

/-- Setting a gate of several registers is seen at those registers only. -/
theorem get_setGates (gate : Gate) (o : Bool) (rs : List Reg) (file : RegisterFile w) (r : Reg) :
    (file.setGates gate o rs).get r
      = if r ∈ rs then (file.get r).setGate gate o else file.get r := by
  induction rs generalizing file with
  | nil => simp [setGates]
  | cons r' rs ih =>
    show ((file.modify r' (·.setGate gate o)).setGates gate o rs).get r = _
    rw [ih, get_modify]
    by_cases hr : r = r'
    · subst hr
      by_cases hm : r ∈ rs <;> simp [hm]
    · by_cases hm : r ∈ rs <;> simp [hm, hr, Ne.symm hr]

@[simp] theorem get_latch (v : Int) (file : RegisterFile w) (r : Reg) :
    (file.latch v).get r = (file.get r).write v := by
  cases r <;> rfl

end RegisterFile

end TwoBus
