import RvCores.Isa.Compressed
import RvCores.Lib.Table

/-!
# Pipeline registers

The registers between the stages, and the register files that decode reads and
write-back writes.  Every register keeps its contents while it is held; the
register behind fetch and the one behind decode can also be squashed.
-/

namespace RvCores
namespace Pipe

open Isa

variable {w : Nat}

/-!
# Fetch
-/

def nop : Word := 0x00000013

structure Reg1 (w : Nat) where
  inst : Word
  pc : BitVec w
  predictTaken : Bool
  predictTarget : BitVec w
  ifetchFault : Bool
  isCompressed : Bool
deriving DecidableEq

namespace Reg1

def squashed : Reg1 w :=
  { inst := nop, pc := 0, predictTaken := false, predictTarget := 0
    ifetchFault := false, isCompressed := false }

def step (r : Reg1 w) (jump stall : Bool) (fetched : Reg1 w) : Reg1 w :=
  if jump then squashed else if stall then r else fetched

end Reg1

/--
The relay register of the split-fetch profile.
-/
structure Reg1a (w : Nat) where
  pc : BitVec w
  predictTaken : Bool
  predictTarget : BitVec w
deriving DecidableEq

namespace Reg1a

def reset : Reg1a w := { pc := 0, predictTaken := false, predictTarget := 0 }

def step (r : Reg1a w) (stall : Bool) (fetched : Reg1a w) : Reg1a w :=
  if stall then r else fetched

end Reg1a

/-!
# Decode

The control fields are those of the decoder; the context is everything else that
decode passes on.  A bubble has no control fields but keeps its context.
-/

structure DecodeControl where
  valid : Bool
  ctrl : Ctrl
  writeReg : BitVec 5
deriving DecidableEq

def DecodeControl.zero : DecodeControl := { valid := false, ctrl := {}, writeReg := 0 }

structure DecodeContext (w : Nat) where
  pc : BitVec w
  readData1 : BitVec w
  readData2 : BitVec w
  freadData1 : BitVec w
  freadData2 : BitVec w
  freadData3 : BitVec w
  imm : BitVec w
  funct7 : BitVec 7
  funct3 : BitVec 3
  readReg1 : BitVec 5
  readReg2 : BitVec 5
  readReg3 : BitVec 5
  predictTaken : Bool
  predictTarget : BitVec w
  ifetchFault : Bool
  isCompressed : Bool
deriving DecidableEq

def DecodeContext.zero : DecodeContext w :=
  { pc := 0, readData1 := 0, readData2 := 0, freadData1 := 0, freadData2 := 0
    freadData3 := 0, imm := 0, funct7 := 0, funct3 := 0, readReg1 := 0, readReg2 := 0
    readReg3 := 0, predictTaken := false, predictTarget := 0, ifetchFault := false
    isCompressed := false }

structure Reg2 (w : Nat) extends DecodeControl, DecodeContext w where
  inst : Word
deriving DecidableEq

namespace Reg2

def mk' (control : DecodeControl) (context : DecodeContext w) (inst : Word) : Reg2 w :=
  { toDecodeControl := control, toDecodeContext := context, inst := inst }

def reset : Reg2 w := mk' .zero .zero 0

def squashed : Reg2 w := mk' .zero .zero nop

def bubble (decoded : Reg2 w) : Reg2 w :=
  mk' .zero decoded.toDecodeContext decoded.inst

def step (r : Reg2 w) (hold branchTaken flush : Bool) (decoded : Reg2 w) : Reg2 w :=
  if hold then r
  else if branchTaken then squashed
  else if flush then decoded.bubble
  else decoded

end Reg2

/-!
# Execute and memory
-/

structure Reg3 (w : Nat) where
  valid : Bool
  memtoReg : Bool
  regWrite : Bool
  fRegWrite : Bool
  memRead : Bool
  memWrite : Bool
  aluOut : BitVec w
  readData2 : BitVec w
  writeReg : BitVec 5
  jump : Bool
  pcPlus4 : BitVec w
  funct3 : BitVec 3
  isAmo : Bool
  funct7 : BitVec 7
deriving DecidableEq

namespace Reg3

def reset : Reg3 w :=
  { valid := false, memtoReg := false, regWrite := false, fRegWrite := false
    memRead := false, memWrite := false, aluOut := 0, readData2 := 0, writeReg := 0
    jump := false, pcPlus4 := 0, funct3 := 0, isAmo := false, funct7 := 0 }

def step (r : Reg3 w) (hold : Bool) (executed : Reg3 w) : Reg3 w :=
  if hold then r else executed

end Reg3

structure Reg4 (w : Nat) where
  memtoReg : Bool
  regWrite : Bool
  fRegWrite : Bool
  valid : Bool
  readData : BitVec w
  aluOut : BitVec w
  writeReg : BitVec 5
  jump : Bool
  pcPlus4 : BitVec w
  isAmo : Bool
deriving DecidableEq

namespace Reg4

def reset : Reg4 w :=
  { memtoReg := false, regWrite := false, fRegWrite := false, valid := false
    readData := 0, aluOut := 0, writeReg := 0, jump := false, pcPlus4 := 0
    isAmo := false }

def step (r : Reg4 w) (hold : Bool) (done : Reg4 w) : Reg4 w :=
  if hold then r else done

end Reg4

/-!
# Register files

A register read in the cycle it is written sees the value being written.  The
second write port belongs to loads that complete after they retired.
-/

structure RegWrite (w : Nat) where
  en : Bool
  dest : BitVec 5
  data : BitVec w

abbrev RegFile (w : Nat) := BitVec 5 -> BitVec w

namespace RegFile

def read (regs : RegFile w) (w1 w2 : RegWrite w) (src : BitVec 5) : BitVec w :=
  if src = 0 then 0
  else if w1.en && w1.dest == src then w1.data
  else if w2.en && w2.dest == src then w2.data
  else regs src

def write2 (regs : RegFile w) (w2 : RegWrite w) : RegFile w :=
  if w2.en && w2.dest != 0 then Lib.setAt regs w2.dest w2.data else regs

def write1 (regs : RegFile w) (w1 : RegWrite w) : RegFile w :=
  if w1.en then Lib.setAt regs w1.dest (if w1.dest = 0 then 0 else w1.data) else regs

def step (regs : RegFile w) (w1 w2 : RegWrite w) : RegFile w :=
  (regs.write2 w2).write1 w1

def reset (spInit : BitVec w) : RegFile w := fun k => if k = 2 then spInit else 0

def fread (regs : RegFile w) (w1 : RegWrite w) (src : BitVec 5) : BitVec w :=
  if w1.en && w1.dest == src then w1.data else regs src

def fstep (regs : RegFile w) (w1 : RegWrite w) : RegFile w :=
  if w1.en then Lib.setAt regs w1.dest w1.data else regs

end RegFile

/-!
# Forwarding and hazards

The source closest to execute wins.  The integer network ignores register zero.
-/

inductive FwdSel where
  | none
  | regwb
  | regem
deriving DecidableEq, Repr

namespace FwdSel

def pick (sel : FwdSel) (s0 regwb regem : BitVec w) : BitVec w :=
  match sel with
  | .none => s0
  | .regwb => regwb
  | .regem => regem

end FwdSel

structure FwdSource where
  valid : Bool
  dest : BitVec 5

def FwdSource.feeds (src : FwdSource) (readReg : BitVec 5) : Bool :=
  src.valid && src.dest == readReg

def forward (regem regwb : FwdSource) (readReg : BitVec 5) : FwdSel :=
  if regem.dest != 0 && regem.feeds readReg then .regem
  else if regwb.dest != 0 && regwb.feeds readReg then .regwb
  else .none

def fForward (regem regwb : FwdSource) (readReg : BitVec 5) : FwdSel :=
  if regem.feeds readReg then .regem
  else if regwb.feeds readReg then .regwb
  else .none

def hazard (readReg1 readReg2 : BitVec 5) (memRead : Bool) (dest : BitVec 5) : Bool :=
  memRead && (dest == readReg1 || dest == readReg2)

/--
The stall-only unit, before the gate that a redirect puts on it.
-/
def hazardNoForward (readReg1 readReg2 : BitVec 5) (regde regem : FwdSource) : Bool :=
  (regde.valid && regde.dest != 0 && (regde.dest == readReg1 || regde.dest == readReg2)) ||
    (regem.valid && regem.dest != 0 && (regem.dest == readReg1 || regem.dest == readReg2))

/-!
# Scoreboard of outstanding loads
-/

abbrev Scoreboard := BitVec 5 -> Bool

namespace Scoreboard

def reset : Scoreboard := fun _ => false

def step (pending : Scoreboard) (allocValid : Bool) (allocReg : BitVec 5)
    (completeValid : Bool) (completeReg : BitVec 5) : Scoreboard :=
  let completed :=
    if completeValid && !(allocValid && allocReg == completeReg) then
      Lib.setAt pending completeReg false
    else pending
  if allocValid && allocReg != 0 then Lib.setAt completed allocReg true else completed

end Scoreboard
end Pipe
end RvCores
