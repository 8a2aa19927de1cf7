import RvCores.Pipe.CsrInterrupt
import RvCores.Pipe.Instr
import RvCores.Soc.System

/-!
# The sequential machine

One instruction at a time: fetch, execute and write back before the next one starts.
An interrupt comes between two instructions.  What a program can observe of time, the
counters and the interrupt lines, and what a device answers come with each step.
-/

namespace RvCores

/-!
# What memory makes of an executed instruction
-/

namespace Pipe
namespace Reg3

open Block Soc

variable {w : Nat} (size : Nat) (mem : Bytes) (dev : BitVec w) (r : Reg3 w)

def amoFunct5 : BitVec 5 := r.funct7.extractLsb' 2 5
def isLr : Bool := r.amoFunct5 == Core.amoF5Lr

def loaded : BitVec w :=
  if inRam size r.aluOut then loadValue size mem r.aluOut r.funct3 else dev

def stored : BitVec w :=
  if r.isAmo then Core.amoCombine r.amoFunct5 (r.loaded size mem dev) r.readData2
  else r.readData2

def writes : Bool := if r.isAmo then !r.isLr else r.memWrite

def write : MemRequest w :=
  { memWrite := true
    memRead := false
    address := r.aluOut
    writeData := r.stored size mem dev
    funct3 := r.funct3 }

def memAfter : Bytes :=
  if r.writes && inRam size r.aluOut then
    DataMemory.storeBytes size mem (r.write size mem dev)
  else mem

def value : BitVec w :=
  if r.isAmo then r.loaded size mem dev
  else if r.jump then r.pcPlus4
  else if r.memtoReg then r.loaded size mem dev
  else r.aluOut

end Reg3
end Pipe

/-!
# Control registers without time
-/

namespace Block

structure Counters (w : Nat) where
  mcycle : BitVec (w + w)
  minstret : BitVec (w + w)
  mhpmcounter : Nat -> BitVec (w + w)

def Counters.zero {w : Nat} : Counters w :=
  { mcycle := 0, minstret := 0, mhpmcounter := fun _ => 0 }

namespace Csr

variable {w : Nat}

def counters (csr : Csr w) : Counters w :=
  { mcycle := csr.mcycle, minstret := csr.minstret, mhpmcounter := csr.mhpmcounter }

def withCounters (csr : Csr w) (c : Counters w) : Csr w :=
  { csr with mcycle := c.mcycle, minstret := c.minstret, mhpmcounter := c.mhpmcounter }

def timeless (csr : Csr w) : Csr w := csr.withCounters .zero

end Csr

/-!
# Updates of the control registers
-/

inductive CsrUpdate (w : Nat) where
  | write (addr : BitVec 12) (value : BitVec w)
  | flags (new : BitVec 5)
  | trap (pc cause value : BitVec w) (isInterrupt : Bool)
  | mret
  | sret

def csrUpdates {w : Nat} (vlen : Nat) (csr : Csr w) (i : CsrIn w) : List (CsrUpdate w) :=
  (if i.writeEn then [.write i.addr (csr.newVal vlen i)] else []) ++
    (if i.fpFlagsWe && i.fpFlagsIn &&& ~~~csr.fflags != 0 then
      [.flags (i.fpFlagsIn &&& ~~~csr.fflags)] else []) ++
    (if i.trapTaken then
      [.trap i.trapPc i.trapCause i.trapValue i.trapIsInterrupt] else []) ++
    (if i.mretTaken then [.mret] else []) ++
    (if i.sretTaken then [.sret] else [])

end Block

namespace Soc

open Isa Block Pipe

variable {w : Nat}

/-!
# State and steps
-/

/--
What a machine is built from: its program, the size of its data memory and the fused
multiply-add unit.
-/
structure Platform (w : Nat) where
  fetch : BitVec w -> Word
  size : Nat
  fma : FmaddUnit

/--
What the surroundings contribute to one instruction.
-/
structure Moment (w : Nat) where
  counters : Counters w
  lines : Lines
  dev : BitVec w

structure Machine (w : Nat) where
  pc : BitVec w
  regs : RegFile w
  fregs : RegFile w
  mem : Bytes
  csr : Csr w

/--
What one step makes visible.
-/
structure Commit (w : Nat) where
  pc : BitVec w
  reg : Option (BitVec 5 × BitVec w)
  freg : Option (BitVec 5 × BitVec w)
  mem : Option (MemRequest w)
  csr : List (CsrUpdate w)

inductive Event (w : Nat) where
  | instr (t : Moment w)
  | interrupt (cause vector : BitVec w)

namespace Machine

variable (p : Platform w) (σ : Machine w)

def readReg (k : BitVec 5) : BitVec w := if k = 0 then 0 else σ.regs k

def writeReg (σ : Machine w) (dest : Option (BitVec 5 × BitVec w)) : RegFile w :=
  match dest with
  | some (k, v) => Lib.setAt σ.regs k v
  | none => σ.regs

def writeFreg (σ : Machine w) (dest : Option (BitVec 5 × BitVec w)) : RegFile w :=
  match dest with
  | some (k, v) => Lib.setAt σ.fregs k v
  | none => σ.fregs

def instr (t : Moment w) : Instr w :=
  let inst := instFinal (p.fetch σ.pc)
  { inst := inst
    pc := σ.pc
    isCompressed := isCompressed (p.fetch σ.pc)
    csr := σ.csr.withCounters t.counters
    rs1 := σ.readReg inst.rs1
    rs2 := σ.readReg inst.rs2
    frs1 := if readsFrs1 inst then σ.fregs inst.rs1 else 0
    frs2 := if readsFrs2 inst then σ.fregs inst.rs2 else 0
    frs3 := if readsFrs3 inst then σ.fregs inst.funct5 else 0 }

def commitOf (size : Nat) (mem : Bytes) (pc : BitVec w) (r : Reg3 w) (dev : BitVec w)
    (csr : List (CsrUpdate w)) : Commit w :=
  { pc := pc
    reg :=
      if r.regWrite && r.writeReg != 0 then some (r.writeReg, r.value size mem dev) else none
    freg := if r.fRegWrite then some (r.writeReg, r.value size mem dev) else none
    mem := if r.writes then some (r.write size mem dev) else none
    csr := csr }

def executed (t : Moment w) : Reg3 w := (σ.instr p t).executed p.fma t.lines

def commit (t : Moment w) : Commit w :=
  commitOf p.size σ.mem σ.pc (σ.executed p t) t.dev
    (csrUpdates vlen (σ.instr p t).csr ((σ.instr p t).csrIn p.fma t.lines))

def exec (t : Moment w) : Machine w :=
  { pc := (σ.instr p t).nextPc p.fma t.lines
    regs := σ.writeReg (σ.commit p t).reg
    fregs := σ.writeFreg (σ.commit p t).freg
    mem := (σ.executed p t).memAfter p.size σ.mem t.dev
    csr := ((σ.instr p t).csrNext p.fma t.lines).timeless }

def interruptIn (cause : BitVec w) : CsrIn w :=
  { writeEn := false
    addr := 0
    op := 0
    wdata := 0
    trapTaken := true
    trapPc := σ.pc
    trapCause := cause
    trapIsInterrupt := true
    trapValue := 0
    mretTaken := false
    sretTaken := false
    fpFlagsWe := false
    fpFlagsIn := 0
    msipPending := false
    timerPending := false
    extPending := false
    instretPulse := false
    hpmEventPulse := fun _ => false
    vecCfgWriteEn := false
    vecCfgNewVtype := 0
    vecCfgNewVill := false
    vecCfgNewVl := 0 }

def interrupt (cause vector : BitVec w) : Machine w :=
  { σ with pc := vector, csr := σ.csr.trapEntry (σ.interruptIn cause) }

def next (e : Event w) : Machine w :=
  match e with
  | .instr t => σ.exec p t
  | .interrupt cause vector => σ.interrupt cause vector

def observe (e : Event w) : Commit w :=
  match e with
  | .instr t => σ.commit p t
  | .interrupt cause _ =>
      { pc := σ.pc, reg := none, freg := none, mem := none
        csr := [.trap σ.pc cause 0 true] }

/-!
# Runs
-/

def after (p : Platform w) (σ : Machine w) (events : List (Event w)) : Machine w :=
  events.foldl (fun σ e => σ.next p e) σ

/--
What a run makes visible, oldest first.
-/
def commits (p : Platform w) : Machine w -> List (Event w) -> List (Commit w)
  | _, [] => []
  | σ, e :: events => σ.observe p e :: commits p (σ.next p e) events

theorem after_concat (p : Platform w) (σ : Machine w) (events : List (Event w)) (e : Event w) :
    σ.after p (events ++ [e]) = (σ.after p events).next p e := by
  rw [after, List.foldl_append]
  rfl

end Machine

end Soc
end RvCores
