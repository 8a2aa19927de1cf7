import RvCores.Block.Units
import RvCores.Pipe.Signals

/-!
# The meaning of one instruction

What an instruction does when nothing else is in the pipeline: its operands, the
control registers and its own word give the next program counter, the update of the
control registers and what it hands to memory.  The decoder, the arithmetic and the
control registers are those of the core; an iterative unit contributes its result.
-/

namespace RvCores
namespace Pipe

open Isa Block
open Pipe.Core (isOpFp isFma rs1IsFloat f32 fpFlagBits instLength)

variable {w : Nat}

/-!
# Operands
-/

def readsFrs1 (inst : Word) : Bool := rs1IsFloat inst inst.funct5 || isFma inst
def isStoreFp (inst : Word) : Bool := inst.opcode == opcodeStoreFp
def readsFrs2 (inst : Word) : Bool := isOpFp inst || isStoreFp inst || isFma inst
def readsFrs3 (inst : Word) : Bool := isFma inst

/--
An instruction with what it reads.  A floating-point operand that the instruction does
not have is zero.
-/
structure Instr (w : Nat) where
  inst : Word
  pc : BitVec w
  isCompressed : Bool
  csr : Csr w
  rs1 : BitVec w
  rs2 : BitVec w
  frs1 : BitVec w
  frs2 : BitVec w
  frs3 : BitVec w

/--
The interrupt lines, which a program can read.
-/
structure Lines where
  msipPending : Bool
  timerPending : Bool
  extPending : Bool
deriving DecidableEq

abbrev FmaddUnit := BitVec 2 -> BitVec 3 -> F32 -> F32 -> F32 -> FpOut

namespace Instr

variable (x : Instr w)

def ctrl : Ctrl := control w x.inst
def imm : BitVec w := immGen w x.inst
def isWordOp : Bool :=
  x.inst.opcode == opcodeOp32 || x.inst.opcode == opcodeOpImm32

/-!
# Integer arithmetic
-/

def aluCtl : AluCtl := aluCtrl x.ctrl.aluOp x.inst.funct7 x.inst.funct3 x.inst.rs2

def aluA : BitVec w :=
  match x.ctrl.auipc, x.ctrl.lui with
  | false, true => 0
  | true, false => x.pc
  | _, _ => x.rs1

def aluB : BitVec w := if x.ctrl.aluSrc then x.imm else x.rs2

def aluOut : BitVec w := alu x.aluCtl x.aluA x.aluB x.isWordOp

def zero : Bool := branchZero x.aluCtl x.aluA x.aluB

def isDivRem : Bool := x.aluCtl.isDiv
def isDivSigned : Bool := x.aluCtl == .div || x.aluCtl == .rem

def divOperand (v : BitVec w) : BitVec w :=
  if x.isWordOp then
    if x.isDivSigned then (v.setWidth 32).signExtend w else (v.setWidth 32).setWidth w
  else v

def dividerIn : DividerIn w :=
  { start := x.isDivRem
    isSigned := x.isDivSigned
    dividend := x.divOperand x.aluA
    divisor := x.divOperand x.aluB }

def divResult : BitVec w :=
  let out := (Divider.sequencer w).result x.dividerIn
  let raw := if x.aluCtl == .div || x.aluCtl == .divu then out.1 else out.2
  if x.isWordOp then (raw.setWidth 32).signExtend w else raw

/-!
# Floating point
-/

def rm : BitVec 3 := if x.inst.funct3 = rmDyn then x.csr.frm else x.inst.funct3

def fpuOperandA : BitVec w := if readsFrs1 x.inst then x.frs1 else x.rs1

def isFpDiv : Bool := isOpFp x.inst && x.inst.funct5 == funct5Fdiv
def isFpSqrt : Bool := isOpFp x.inst && x.inst.funct5 == funct5Fsqrt

def fdividerIn : FDividerIn :=
  { start := x.isFpDiv, rm := x.rm, a := f32 x.fpuOperandA, b := f32 x.frs2 }

def fsqrtIn : FSqrtIn :=
  { start := x.isFpSqrt, rm := x.rm, a := f32 x.fpuOperandA }

def fpOut (fma : FmaddUnit) : FpOut :=
  if isFma x.inst then
    fma ((Word.opcode x.inst).extractLsb' 2 2) x.rm (f32 x.frs1) (f32 x.frs2)
      (f32 x.frs3)
  else if x.isFpDiv then FDivider.sequencer.result x.fdividerIn
  else if x.isFpSqrt then FSqrt.sequencer.result x.fsqrtIn
  else falu x.inst.funct5 x.rm x.inst.rs2 (f32 x.fpuOperandA) (f32 x.frs2)

/-!
# Traps
-/

def csrPrivViolation : Bool :=
  x.ctrl.isCsr && decide (x.csr.privMode.toNat < (x.imm.extractLsb' 8 2).toNat)

def mretReal : Bool := x.ctrl.isMret && !(x.csr.privMode != privM)
def sretReal : Bool := x.ctrl.isSret && !(x.csr.privMode == privU)

def illegalInst : Bool :=
  x.ctrl.illegalOpcode || x.aluCtl == .illegal || x.csrPrivViolation ||
    (x.ctrl.isMret && x.csr.privMode != privM) ||
    (x.ctrl.isSret && x.csr.privMode == privU) ||
    (x.ctrl.isSfenceVma && x.csr.privMode == privU)

def exceptionTaken : Bool := x.illegalInst || x.ctrl.isEcall || x.ctrl.isEbreak

def trapCause : BitVec w :=
  if x.illegalInst then 2
  else if x.ctrl.isEbreak then 3
  else if x.ctrl.isEcall then
    if x.csr.privMode = privM then 11 else if x.csr.privMode = privS then 9 else 8
  else 0

/-!
# Control registers
-/

def csrWdata : BitVec w :=
  if x.inst.funct3.getLsbD 2 then x.inst.rs1.setWidth w else x.rs1

def csrIn (fma : FmaddUnit) (lines : Lines) : CsrIn w :=
  { writeEn := x.ctrl.isCsr && !x.csrPrivViolation
    addr := x.imm.setWidth 12
    op := x.inst.funct3.extractLsb' 0 2
    wdata := x.csrWdata
    trapTaken := x.exceptionTaken
    trapPc := x.pc
    trapCause := x.trapCause
    trapIsInterrupt := false
    trapValue := 0
    mretTaken := x.mretReal
    sretTaken := x.sretReal
    fpFlagsWe := isOpFp x.inst || isFma x.inst
    fpFlagsIn := fpFlagBits (x.fpOut fma).flags
    msipPending := lines.msipPending
    timerPending := lines.timerPending
    extPending := lines.extPending
    instretPulse := false
    hpmEventPulse := fun _ => false
    vecCfgWriteEn := false
    vecCfgNewVtype := 0
    vecCfgNewVill := false
    vecCfgNewVl := 0 }

def csrNext (fma : FmaddUnit) (lines : Lines) : Csr w :=
  x.csr.step vlen (x.csrIn fma lines)

/-!
# Control flow
-/

def pcNext : BitVec w := x.pc + instLength x.isCompressed

def taken : Bool := (x.ctrl.branch && x.zero) || x.ctrl.jump

def target : BitVec w :=
  let raw := if x.ctrl.jalr then x.rs1 + x.imm else x.pc + (x.imm <<< 1)
  raw &&& ~~~1#w

def redirects : Bool := x.taken || x.exceptionTaken || x.mretReal || x.sretReal

def trapVector (fma : FmaddUnit) (lines : Lines) : BitVec w :=
  if x.csr.trapTargetIsS (x.csrIn fma lines) then x.csr.stvec else x.csr.mtvec

def nextPc (fma : FmaddUnit) (lines : Lines) : BitVec w :=
  if x.exceptionTaken then x.trapVector fma lines
  else if x.mretReal then x.csr.mepc
  else if x.sretReal then x.csr.sepc
  else if x.taken then x.target
  else x.pcNext

/-!
# What it hands to memory
-/

def exResult (fma : FmaddUnit) (lines : Lines) : BitVec w :=
  if isOpFp x.inst || isFma x.inst then (x.fpOut fma).result.setWidth w
  else if x.ctrl.isCsr then x.csr.rdata vlen (x.csrIn fma lines)
  else if x.isDivRem then x.divResult
  else x.aluOut

def storeOperand : BitVec w := if isStoreFp x.inst then x.frs2 else x.rs2

def executed (fma : FmaddUnit) (lines : Lines) : Reg3 w :=
  let live := !x.exceptionTaken
  { valid := live
    memtoReg := live && x.ctrl.memtoReg
    regWrite := live && x.ctrl.regWrite
    fRegWrite := live && x.ctrl.fRegWrite
    memRead := live && x.ctrl.memRead
    memWrite := live && x.ctrl.memWrite
    aluOut := x.exResult fma lines
    readData2 := x.storeOperand
    writeReg := if live then x.inst.rd else 0
    jump := live && x.ctrl.jump
    pcPlus4 := x.pcNext
    funct3 := x.inst.funct3
    isAmo := live && x.ctrl.isAmo
    funct7 := x.inst.funct7 }

end Instr
end Pipe
end RvCores
