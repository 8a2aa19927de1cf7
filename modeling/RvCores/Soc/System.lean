import RvCores.Pipe.Core
import RvCores.Soc.Session

/-!
# The core on its bus

The load unit, the page-table walker and the data cache share one master port.  A
plain selection decides whose request is on it, and everyone sees the answer.  Behind
the port an address decoder picks the data memory or a device.
-/

namespace RvCores
namespace Soc

open Isa Block Pipe

variable {w : Nat} {m : Mmu w} {P : RamPort w}

/-!
# Address map
-/

structure Region where
  base : Nat
  size : Nat

def Region.hit (r : Region) (addr : BitVec w) : Bool :=
  decide (r.base <= addr.toNat) && decide (addr.toNat < r.base + r.size)

def uartRegion : Region := { base := 0x10000000, size := 32 }
def timerRegion : Region := { base := 0x10100000, size := 0x00010000 }
def mailboxRegion : Region := { base := 0x10200000, size := 256 }
def ramRegion (size : Nat) : Region := { base := 0, size := size }

structure SlaveAnswer (w : Nat) where
  ack : Bool
  dataI : BitVec w

def SlaveAnswer.none : SlaveAnswer w := { ack := false, dataI := 0 }

structure Devices (w : Nat) where
  uart : SlaveAnswer w := .none
  timer : SlaveAnswer w := .none
  mailbox : SlaveAnswer w := .none

/--
The answer of the last slave whose region holds the address, asked or not.
-/
def wbDecode (size : Nat) (addr : BitVec w) (ram : SlaveAnswer w) (dev : Devices w) :
    SlaveAnswer w :=
  if mailboxRegion.hit addr then dev.mailbox
  else if timerRegion.hit addr then dev.timer
  else if uartRegion.hit addr then dev.uart
  else if (ramRegion size).hit addr then ram
  else .none

def inRam (size : Nat) (addr : BitVec w) : Bool :=
  (ramRegion size).hit addr && !uartRegion.hit addr && !timerRegion.hit addr &&
    !mailboxRegion.hit addr

theorem wbDecode_of_inRam {size : Nat} {addr : BitVec w} (h : inRam size addr = true)
    (ram : SlaveAnswer w) (dev : Devices w) :
    wbDecode size addr ram dev = ram := by
  simp only [inRam, Bool.and_eq_true, Bool.not_eq_true'] at h
  obtain ⟨⟨⟨hram, huart⟩, htimer⟩, hmailbox⟩ := h
  simp [wbDecode, hram, huart, htimer, hmailbox]

/-!
# The system
-/

structure System (m : Mmu w) (P : RamPort w) where
  core : Core m
  ram : P.State

/--
One cycle's inputs.  The cache takes part as a processor-side port and a master.
-/
structure SystemIn (w : Nat) where
  inst : Word
  icacheHit : Bool := true
  imemWaitActive : Bool := false
  dcache : DCachePort w := {}
  dcacheCyc : Bool := false
  dcacheBus : BusCycle w :=
    { stb := false, we := false, addr := 0, dataO := 0, funct3 := 0, cti := 0 }
  devices : Devices w := {}
  uartIrq : Bool := false
  msipPending : Bool := false
  timerPending : Bool := false
  prefersInterrupt : Bool := true

namespace System

variable (cfg : Config w) (size : Nat) (s : System m P) (i : SystemIn w)

/-!
# The three masters
-/

def lsuBus : BusCycle w :=
  if cfg.cached then
    { stb := false, we := false, addr := 0, dataO := 0, funct3 := 0, cti := ctiClassic }
  else
    { stb := s.core.lsuCyc
      we := s.core.effMemWrite
      addr := s.core.reg3.aluOut
      dataO := if s.core.amoActive then s.core.amoCombined else s.core.reg3.readData2
      funct3 := s.core.reg3.funct3
      cti := ctiClassic }

def ptwFunct3 (w : Nat) : BitVec 3 := if w = 64 then 0b011 else 0b010

def ptwBus : BusCycle w :=
  { stb := m.cyc s.core.ptw
    we := false
    addr := m.addr s.core.ptw
    dataO := 0
    funct3 := ptwFunct3 w
    cti := ctiClassic }

def dcacheCyc : Bool := cfg.cached && i.dcacheCyc

/--
The memory controller selects by the walker's busy flag, not by its request.
-/
def bus : BusCycle w :=
  if dcacheCyc cfg i then i.dcacheBus
  else if m.busy s.core.ptw then s.ptwBus
  else s.lsuBus cfg

def ramBus : BusCycle w :=
  { s.bus cfg i with
    stb := (s.bus cfg i).stb && (ramRegion size).hit (s.bus cfg i).addr }

def answer : SlaveAnswer w :=
  wbDecode size (s.bus cfg i).addr
    { ack := P.ack s.ram (s.ramBus cfg size i), dataI := P.dataI s.ram } i.devices

def coreIn : CoreIn w :=
  { inst := i.inst
    icacheHit := i.icacheHit
    imemWaitActive := i.imemWaitActive
    readData := (s.answer cfg size i).dataI
    lsuAck := (s.answer cfg size i).ack
    dcache := i.dcache
    uartIrq := i.uartIrq
    msipPending := i.msipPending
    timerPending := i.timerPending
    prefersInterrupt := i.prefersInterrupt }

def step : System m P :=
  { core := s.core.step cfg (s.coreIn cfg size i)
    ram := P.step s.ram (s.ramBus cfg size i) }

end System
end Soc
end RvCores
