import RvCores.Pipe.State

/-!
# Wires of the in-order core

Every wire is a function of the clocked registers and the ports.  The wires are in
an order in which each depends on earlier ones only, except for the network of
stalls and redirects: there an interrupt waits for fetch, and fetch stops waiting
when an interrupt is taken.
-/

namespace RvCores
namespace Pipe
namespace Core

open Isa Block

variable {w : Nat} {m : Mmu w} (cfg : Config w) (s : Core m) (i : CoreIn w)

/-!
# Write-back
-/

def writeDataRegwb : BitVec w :=
  if s.reg4.isAmo then s.amo.capturedReadR
  else if s.reg4.jump then s.reg4.pcPlus4
  else if s.reg4.memtoReg then s.reg4.readData
  else s.reg4.aluOut

def dcache : DCachePort w := if cfg.cached then i.dcache else DCachePort.none

def regWritePort1 : RegWrite w :=
  { en := s.reg4.regWrite && !s.mshrPendingRegwbR
    dest := s.reg4.writeReg
    data := s.writeDataRegwb }

def regWritePort2 : RegWrite w :=
  { en := (dcache cfg i).mshrComplete
    dest := (dcache cfg i).mshrCompleteReg
    data := (dcache cfg i).mshrCompleteData }

def fregWritePort : RegWrite w :=
  { en := s.reg4.fRegWrite, dest := s.reg4.writeReg, data := s.writeDataRegwb }

/-!
# Decode
-/

def ctrl : Ctrl := control w s.reg1.inst

def decoded : Reg2 w :=
  Reg2.mk'
    { valid := !s.idBubbleR, ctrl := s.ctrl, writeReg := s.reg1.inst.rd }
    { pc := s.reg1.pc
      readData1 := s.regs.read s.regWritePort1 (regWritePort2 cfg i) s.reg1.inst.rs1
      readData2 := s.regs.read s.regWritePort1 (regWritePort2 cfg i) s.reg1.inst.rs2
      freadData1 := s.fregs.fread s.fregWritePort s.reg1.inst.rs1
      freadData2 := s.fregs.fread s.fregWritePort s.reg1.inst.rs2
      freadData3 := s.fregs.fread s.fregWritePort s.reg1.inst.funct5
      imm := immGen w s.reg1.inst
      funct7 := s.reg1.inst.funct7
      funct3 := s.reg1.inst.funct3
      readReg1 := s.reg1.inst.rs1
      readReg2 := s.reg1.inst.rs2
      readReg3 := s.reg1.inst.funct5
      predictTaken := s.reg1.predictTaken
      predictTarget := s.reg1.predictTarget
      ifetchFault := s.reg1.ifetchFault
      isCompressed := s.reg1.isCompressed }
    s.reg1.inst

def isOpFp (inst : Word) : Bool := inst.opcode == opcodeFp
def isFma (inst : Word) : Bool :=
  inst.opcode == opcodeMadd || inst.opcode == opcodeMsub ||
    inst.opcode == opcodeNmsub || inst.opcode == opcodeNmadd

def rs1IsFloat (inst : Word) (funct5 : BitVec 5) : Bool :=
  isOpFp inst && !(funct5 == funct5FcvtSW || funct5 == funct5FmvWX)

def rs2IsFloatFd : Bool :=
  isOpFp s.reg1.inst || s.reg1.inst.opcode == opcodeStoreFp || isFma s.reg1.inst

def isLoadFpRegde : Bool := s.reg2.inst.opcode == opcodeLoadFp

def floatLoadUseHazard : Bool :=
  s.isLoadFpRegde &&
    ((rs1IsFloat s.reg1.inst s.reg1.inst.funct5 &&
        s.reg2.writeReg == s.reg1.inst.rs1) ||
      (s.rs2IsFloatFd && s.reg2.writeReg == s.reg1.inst.rs2) ||
      (isFma s.reg1.inst && s.reg2.writeReg == s.reg1.inst.funct5))

def hazardFd : Bool :=
  hazard s.reg1.inst.rs1 s.reg1.inst.rs2 (s.reg2.ctrl.memRead || s.reg2.ctrl.isAmo)
    s.reg2.writeReg

def hazardNoForwardFd : Bool :=
  hazardNoForward s.reg1.inst.rs1 s.reg1.inst.rs2
    { valid := s.reg2.ctrl.regWrite, dest := s.reg2.writeReg }
    { valid := s.reg3.regWrite, dest := s.reg3.writeReg }

/-!
# Operands
-/

def regemSource : FwdSource := { valid := s.reg3.regWrite, dest := s.reg3.writeReg }
def regwbSource : FwdSource := { valid := s.reg4.regWrite, dest := s.reg4.writeReg }
def fregemSource : FwdSource := { valid := s.reg3.fRegWrite, dest := s.reg3.writeReg }
def fregwbSource : FwdSource := { valid := s.reg4.fRegWrite, dest := s.reg4.writeReg }

def forwardSel (readReg : BitVec 5) : FwdSel :=
  if cfg.forwards then forward s.regemSource s.regwbSource readReg else .none

def exmemFwdVal : BitVec w := if s.reg3.jump then s.reg3.pcPlus4 else s.reg3.aluOut

def forwarded (readReg : BitVec 5) (s0 : BitVec w) : BitVec w :=
  (s.forwardSel cfg readReg).pick s0 s.writeDataRegwb s.exmemFwdVal

def fforwarded (readReg : BitVec 5) (s0 : BitVec w) : BitVec w :=
  (fForward s.fregemSource s.fregwbSource readReg).pick s0 s.writeDataRegwb s.exmemFwdVal

def readData1Final : BitVec w := s.forwarded cfg s.reg2.readReg1 s.reg2.readData1
def readData2Final : BitVec w := s.forwarded cfg s.reg2.readReg2 s.reg2.readData2
def freadData1Final : BitVec w := s.fforwarded s.reg2.readReg1 s.reg2.freadData1
def freadData2Final : BitVec w := s.fforwarded s.reg2.readReg2 s.reg2.freadData2
def freadData3Final : BitVec w := s.fforwarded s.reg2.readReg3 s.reg2.freadData3

/-!
# Arithmetic
-/

def immSum : BitVec w :=
  let raw :=
    if s.reg2.ctrl.jalr then s.readData1Final cfg + s.reg2.imm
    else s.reg2.pc + (s.reg2.imm <<< 1)
  raw &&& ~~~1#w

def instLength (isCompressed : Bool) : BitVec w := if isCompressed then 2 else 4

def pcPlus4Regde : BitVec w := s.reg2.pc + instLength s.reg2.isCompressed

def immRegVal : BitVec w :=
  if s.reg2.ctrl.aluSrc then s.reg2.imm else s.readData2Final cfg

def aluCtl : AluCtl :=
  Isa.aluCtrl s.reg2.ctrl.aluOp s.reg2.funct7 s.reg2.funct3 s.reg2.readReg2

def aluA : BitVec w :=
  match s.reg2.ctrl.auipc, s.reg2.ctrl.lui with
  | false, true => 0
  | true, false => s.reg2.pc
  | _, _ => s.readData1Final cfg

def wordOpRegde : Bool :=
  s.reg2.inst.opcode == opcodeOp32 || s.reg2.inst.opcode == opcodeOpImm32

def aluOut : BitVec w := alu s.aluCtl (s.aluA cfg) (s.immRegVal cfg) s.wordOpRegde

def zero : Bool := branchZero s.aluCtl (s.aluA cfg) (s.immRegVal cfg)

def isDivRem : Bool := s.aluCtl.isDiv
def isDivSigned : Bool := s.aluCtl == .div || s.aluCtl == .rem

def divOperand (x : BitVec w) : BitVec w :=
  if s.wordOpRegde then
    if s.isDivSigned then (x.setWidth 32).signExtend w else (x.setWidth 32).setWidth w
  else x

def dividerIn : DividerIn w :=
  { start := s.isDivRem
    isSigned := s.isDivSigned
    dividend := s.divOperand (s.aluA cfg)
    divisor := s.divOperand (s.immRegVal cfg) }

def divStall : Bool := s.isDivRem && !s.divider.done

def divResult : BitVec w :=
  let raw :=
    if s.aluCtl == .div || s.aluCtl == .divu then s.divider.quotient
    else s.divider.remainder
  if s.wordOpRegde then (raw.setWidth 32).signExtend w else raw

/-!
# Floating point
-/

def funct5Regde : BitVec 5 := s.reg2.funct7.extractLsb' 2 5
def isOpFpRegde : Bool := isOpFp s.reg2.inst
def isFmaRegde : Bool := isFma s.reg2.inst

def fpuRm : BitVec 3 := if s.reg2.funct3 = rmDyn then s.csr.frm else s.reg2.funct3

def fpuOperandA : BitVec w :=
  if rs1IsFloat s.reg2.inst s.funct5Regde || s.isFmaRegde then s.freadData1Final
  else s.readData1Final cfg

def f32 (x : BitVec w) : F32 := x.setWidth 32

def faluOut : FpOut :=
  falu s.funct5Regde s.fpuRm s.reg2.readReg2 (f32 (s.fpuOperandA cfg))
    (f32 s.freadData2Final)

def fmaddOut : FpOut :=
  cfg.fmaddUnit ((Word.opcode s.reg2.inst).extractLsb' 2 2) s.fpuRm
    (f32 s.freadData1Final) (f32 s.freadData2Final) (f32 s.freadData3Final)

def isFpDivRegde : Bool := s.isOpFpRegde && s.funct5Regde == funct5Fdiv
def isFpSqrtRegde : Bool := s.isOpFpRegde && s.funct5Regde == funct5Fsqrt

def fdividerIn : FDividerIn :=
  { start := s.isFpDivRegde
    rm := s.fpuRm
    a := f32 (s.fpuOperandA cfg)
    b := f32 s.freadData2Final }

def fsqrtIn : FSqrtIn :=
  { start := s.isFpSqrtRegde, rm := s.fpuRm, a := f32 (s.fpuOperandA cfg) }

def fpStall : Bool :=
  (s.isFpDivRegde && !s.fdivider.done) || (s.isFpSqrtRegde && !s.fsqrt.done)

def fpOut : FpOut :=
  if s.isFmaRegde then s.fmaddOut cfg
  else if s.isFpDivRegde then { result := s.fdivider.result, flags := s.fdivider.flags }
  else if s.isFpSqrtRegde then { result := s.fsqrt.result, flags := s.fsqrt.flags }
  else s.faluOut cfg

/-!
# The memory stage
-/

def fenceComplete : Bool :=
  if cfg.hasL2 then (dcache cfg i).l2FlushDone else (dcache cfg i).flushDone

def memAccessReady : Bool :=
  if cfg.cached then
    if s.fence.pendingR then fenceComplete cfg i else (dcache cfg i).respReady
  else i.lsuAck

def memTrigger : Bool :=
  if cfg.cached then
    s.reg3.memRead || (s.reg3.memWrite && !(dcache cfg i).respReady) || s.fence.pendingR
  else s.reg3.memRead || (s.reg3.memWrite && !i.lsuAck)

def memStall : Bool :=
  s.memTrigger cfg i && !s.memStallDoneR && !(dcache cfg i).mshrAccept

def amoF5Lr : BitVec 5 := 0b00010
def amoF5Sc : BitVec 5 := 0b00011

def amoActive : Bool := s.reg3.isAmo
def amoFunct5 : BitVec 5 := s.reg3.funct7.extractLsb' 2 5
def amoIsLr : Bool := s.amoFunct5 == amoF5Lr
def amoStall : Bool := s.amoActive && !s.amo.writeDoneR

/--
What an atomic operation writes back, from the old value and the register operand.
Swap and store-conditional write the operand.
-/
def amoCombine (funct5 : BitVec 5) (old rs2 : BitVec w) : BitVec w :=
  if funct5 = 0b00000 then old + rs2
  else if funct5 = 0b00100 then old ^^^ rs2
  else if funct5 = 0b01100 then old &&& rs2
  else if funct5 = 0b01000 then old ||| rs2
  else if funct5 = 0b10000 then if old.slt rs2 then old else rs2
  else if funct5 = 0b10100 then if rs2.slt old then old else rs2
  else if funct5 = 0b11000 then if old.ult rs2 then old else rs2
  else if funct5 = 0b11100 then if rs2.ult old then old else rs2
  else rs2

def amoCombined : BitVec w :=
  amoCombine s.amoFunct5 s.amo.capturedReadR s.reg3.readData2

def effMemRead : Bool :=
  if s.amoActive then !s.amo.writePhaseR && !s.amo.writeDoneR else s.reg3.memRead

def effMemWrite : Bool :=
  if s.amoActive then s.amo.writePhaseR && !s.amo.writeDoneR else s.reg3.memWrite

def lsuCyc : Bool := s.effMemRead || s.effMemWrite

/-!
# Translation of the data access
-/

def mieMeie : Bool := s.csr.mie.getLsbD 11
def mieMsie : Bool := s.csr.mie.getLsbD 3
def mieMtie : Bool := s.csr.mie.getLsbD 7

def translateEnable : Bool := s.csr.satpModeVal && s.csr.privMode != privM
def privIsU : Bool := s.csr.privMode == privU

def ptwDoneI : Bool := m.done s.ptw && !s.ptwServicingDR
def ptwDoneD : Bool := m.done s.ptw && s.ptwServicingDR

def isStoreFpRegde : Bool := s.reg2.inst.opcode == opcodeStoreFp

def dtlbNeeded : Bool :=
  s.translateEnable && (s.reg2.ctrl.memRead || s.reg2.ctrl.memWrite)

def dtlbVaddr : BitVec w := if s.dtlb.missR then s.dtlb.vaddrR else s.aluOut cfg

def storeOperand : BitVec w :=
  if s.isStoreFpRegde then s.freadData2Final else s.readData2Final cfg

def dtlbStoreData : BitVec w :=
  if s.dtlb.missR then s.dtlb.storeDataR else s.storeOperand cfg

def lsHit : Bool := m.hit s.tlb (s.dtlbVaddr cfg)
def lsPpn : BitVec w := m.ppn s.tlb (s.dtlbVaddr cfg)
def lsPerms : Perms := m.perms s.tlb (s.dtlbVaddr cfg)

def lsPermOk : Bool :=
  (if s.reg2.ctrl.memWrite then (s.lsPerms cfg).w else (s.lsPerms cfg).r) &&
    (if s.privIsU then (s.lsPerms cfg).u else !(s.lsPerms cfg).u)

def dtlbHitFault : Bool := s.dtlbNeeded && s.lsHit cfg && !s.lsPermOk cfg

def dtlbPageFault : Bool :=
  s.dtlbHitFault cfg || (s.ptwDoneD && m.fault s.ptw && !s.ptwAbandonedR)

/--
Twenty bits of page number and the twelve bits inside the page.
-/
def physAddr (ppn vaddr : BitVec w) : BitVec w :=
  ((ppn.setWidth 20 ++ vaddr.setWidth 12 : BitVec 32)).setWidth w

def memPaddr : BitVec w :=
  if s.translateEnable && s.lsHit cfg then physAddr (s.lsPpn cfg) (s.dtlbVaddr cfg)
  else s.dtlbVaddr cfg

/-!
# Fetch
-/

def imemReadAddr : BitVec w := if cfg.splitFetch then s.reg1a.pc else s.pc

def itlbHit : Bool := m.hit s.tlb (s.imemReadAddr cfg)
def itlbPerms : Perms := m.perms s.tlb (s.imemReadAddr cfg)

def itlbHitFault : Bool :=
  s.translateEnable && s.itlbHit cfg &&
    !((s.itlbPerms cfg).x &&
      (if s.privIsU then (s.itlbPerms cfg).u else !(s.itlbPerms cfg).u))

def ifetchFaultIf : Bool :=
  s.itlbHitFault cfg || (s.ptwDoneI && m.fault s.ptw && !s.ptwAbandonedR)

def imemPhysAddr : BitVec w :=
  if s.translateEnable && s.itlbHit cfg then
    physAddr (m.ppn s.tlb (s.imemReadAddr cfg)) (s.imemReadAddr cfg)
  else s.imemReadAddr cfg

def pcNew : BitVec w := s.pc + instLength (isCompressed i.inst)

def predictTakenIf : Bool :=
  s.predictor.predictTaken cfg.branchPredictor cfg.bhtBtbEntries s.pc

def predictTargetIf : BitVec w :=
  s.predictor.predictTarget cfg.branchPredictor cfg.bhtBtbEntries s.pc

def pcSpeculative : BitVec w :=
  if s.predictTakenIf cfg then s.predictTargetIf cfg else s.pcNew i

def fetched : Reg1 w :=
  { inst := instFinal i.inst
    pc := s.imemReadAddr cfg
    predictTaken :=
      if cfg.splitFetch then s.reg1a.predictTaken else s.predictTakenIf cfg
    predictTarget :=
      if cfg.splitFetch then s.reg1a.predictTarget else s.predictTargetIf cfg
    ifetchFault := s.ifetchFaultIf cfg
    isCompressed := isCompressed i.inst }

/-!
# Exceptions and redirects
-/

def csrPrivViolation : Bool :=
  s.reg2.ctrl.isCsr && decide (s.csr.privMode.toNat < (s.reg2.imm.extractLsb' 8 2).toNat)

def mretPrivViolation : Bool := s.reg2.ctrl.isMret && s.csr.privMode != privM
def sretPrivViolation : Bool := s.reg2.ctrl.isSret && s.csr.privMode == privU
def sfencePrivViolation : Bool := s.reg2.ctrl.isSfenceVma && s.csr.privMode == privU

def mretReal : Bool := s.reg2.ctrl.isMret && !s.mretPrivViolation
def sretReal : Bool := s.reg2.ctrl.isSret && !s.sretPrivViolation
def sfenceReal : Bool := s.reg2.ctrl.isSfenceVma && !s.sfencePrivViolation

def illegalInst : Bool :=
  s.reg2.ctrl.illegalOpcode || s.aluCtl == .illegal || s.csrPrivViolation ||
    s.mretPrivViolation || s.sretPrivViolation || s.sfencePrivViolation

def exceptionTaken : Bool :=
  s.illegalInst || s.reg2.ctrl.isEcall || s.reg2.ctrl.isEbreak ||
    s.reg2.ifetchFault || s.dtlbPageFault cfg

def trapCause : BitVec w :=
  if s.reg2.ifetchFault then 12
  else if s.dtlbPageFault cfg then if s.reg2.ctrl.memWrite then 15 else 13
  else if s.illegalInst then 2
  else if s.reg2.ctrl.isEbreak then 3
  else if s.reg2.ctrl.isEcall then
    if s.csr.privMode = privM then 11 else if s.csr.privMode = privS then 9 else 8
  else 0

def trapValue : BitVec w :=
  if s.reg2.ifetchFault then s.reg2.pc
  else if s.dtlbPageFault cfg then s.dtlbVaddr cfg
  else 0

def desiredTaken : Bool := (s.reg2.ctrl.branch && s.zero cfg) || s.reg2.ctrl.jump
def desiredTarget : BitVec w := s.immSum cfg

def mispredict : Bool :=
  (s.reg2.predictTaken != s.desiredTaken cfg) ||
    (s.desiredTaken cfg && s.reg2.predictTarget != s.desiredTarget cfg)

def branchOrJumpRedirect : Bool :=
  if cfg.dynamic then s.mispredict cfg else s.desiredTaken cfg

def branchOrJumpTarget : BitVec w :=
  if cfg.dynamic && !s.desiredTaken cfg then s.pcPlus4Regde else s.desiredTarget cfg

def otherRedirectTaken : Bool :=
  s.branchOrJumpRedirect cfg || s.exceptionTaken cfg || s.mretReal || s.sretReal

/-!
# Interrupts
-/

def meiPending : Bool := s.mieMeie && i.uartIrq
def msiPending : Bool := s.mieMsie && i.msipPending
def mtiPending : Bool := s.mieMtie && i.timerPending

def ssiPending : Bool :=
  s.csr.mstatus.getLsbD 1 && s.csr.mie.getLsbD 1 && s.csr.mipSw.getLsbD 1 &&
    s.csr.privMode == privS

def stiPending : Bool :=
  s.csr.mstatus.getLsbD 1 && s.csr.mie.getLsbD 5 && s.csr.mipSw.getLsbD 5 &&
    s.csr.privMode == privS

def interruptPending : Bool :=
  (s.csr.mstatusMie && (s.meiPending i || s.msiPending i || s.mtiPending i)) ||
    s.ssiPending || s.stiPending

def interruptCause : BitVec w :=
  if s.meiPending i then 11
  else if s.msiPending i then 3
  else if s.mtiPending i then 7
  else if s.ssiPending then 1
  else 5

def interruptMepc : BitVec w := if s.idBubbleR then s.pc else s.reg1.pc

/-!
# The network of stalls and redirects
-/

def scoreboardStall : Bool :=
  s.scoreboard s.reg1.inst.rs1 || s.scoreboard s.reg1.inst.rs2 ||
    (s.ctrl.regWrite && s.scoreboard s.reg1.inst.rd) ||
    ((dcache cfg i).mshrAccept && s.reg3.writeReg != 0 &&
      (s.reg3.writeReg == s.reg1.inst.rs1 || s.reg3.writeReg == s.reg1.inst.rs2 ||
        (s.ctrl.regWrite && s.reg3.writeReg == s.reg1.inst.rd)))

/--
The stalls that no redirect suppresses.
-/
def hardStall : Bool :=
  (cfg.forwards && s.hazardFd) || s.divStall || s.memStall cfg i || s.fpStall ||
    s.floatLoadUseHazard || s.amoStall || s.scoreboardStall cfg i

def itlbWaits : Bool :=
  s.translateEnable && !s.itlbHit cfg && !(s.ptwDoneI && m.fault s.ptw) &&
    !s.redirectSquashExtendR

def icacheWaits : Bool :=
  (!s.translateEnable || s.itlbHit cfg) && (cfg.cached && !i.icacheHit) &&
    !s.redirectSquashExtendR

def imemWaits : Bool := !cfg.cached && i.imemWaitActive && !s.redirectSquashExtendR

def dtlbWaits : Bool :=
  s.dtlbNeeded && !s.lsHit cfg && !(s.ptwDoneD && m.fault s.ptw)

/--
The stalls that a redirect suppresses, as they are without one.
-/
def softStall : Bool :=
  (!cfg.forwards && s.hazardNoForwardFd) || s.itlbWaits cfg || s.dtlbWaits cfg ||
    s.icacheWaits cfg i || s.imemWaits cfg i

structure Network where
  interruptTaken : Bool
  branchTaken : Bool
  stall : Bool
  itlbMiss : Bool
  dtlbMiss : Bool
  icacheMiss : Bool
  imemWait : Bool
  pcStall : Bool
deriving DecidableEq

/--
The equations of the source.
-/
structure Solves (n : Network) : Prop where
  interruptTaken :
    n.interruptTaken = (s.interruptPending i && !n.pcStall && !s.otherRedirectTaken cfg)
  branchTaken : n.branchTaken = (s.otherRedirectTaken cfg || n.interruptTaken)
  stall :
    n.stall = if cfg.forwards then s.hazardFd else s.hazardNoForwardFd && !n.branchTaken
  itlbMiss : n.itlbMiss = (s.itlbWaits cfg && !n.branchTaken)
  dtlbMiss : n.dtlbMiss = (s.dtlbWaits cfg && !n.branchTaken)
  icacheMiss : n.icacheMiss = (s.icacheWaits cfg i && !n.branchTaken)
  imemWait : n.imemWait = (s.imemWaits cfg i && !n.branchTaken)
  pcStall :
    n.pcStall =
      (n.stall || s.divStall || s.memStall cfg i || s.fpStall || s.floatLoadUseHazard ||
        n.itlbMiss || n.dtlbMiss || n.icacheMiss || n.imemWait || s.amoStall ||
        s.scoreboardStall cfg i)

def interruptTaken : Bool :=
  s.interruptPending i && !s.otherRedirectTaken cfg && !s.hardStall cfg i &&
    (!s.softStall cfg i || i.prefersInterrupt)

def branchTaken : Bool := s.otherRedirectTaken cfg || s.interruptTaken cfg i

def stall : Bool :=
  if cfg.forwards then s.hazardFd else s.hazardNoForwardFd && !s.branchTaken cfg i

def itlbMiss : Bool := s.itlbWaits cfg && !s.branchTaken cfg i
def dtlbMiss : Bool := s.dtlbWaits cfg && !s.branchTaken cfg i
def icacheMiss : Bool := s.icacheWaits cfg i && !s.branchTaken cfg i
def imemWait : Bool := s.imemWaits cfg i && !s.branchTaken cfg i

def pcStall : Bool :=
  s.stall cfg i || s.divStall || s.memStall cfg i || s.fpStall || s.floatLoadUseHazard ||
    s.itlbMiss cfg i || s.dtlbMiss cfg i || s.icacheMiss cfg i || s.imemWait cfg i ||
    s.amoStall || s.scoreboardStall cfg i

def network : Network :=
  { interruptTaken := s.interruptTaken cfg i
    branchTaken := s.branchTaken cfg i
    stall := s.stall cfg i
    itlbMiss := s.itlbMiss cfg i
    dtlbMiss := s.dtlbMiss cfg i
    icacheMiss := s.icacheMiss cfg i
    imemWait := s.imemWait cfg i
    pcStall := s.pcStall cfg i }

def reg2Hold : Bool :=
  s.divStall || s.memStall cfg i || s.fpStall || s.dtlbMiss cfg i || s.amoStall

def reg2Flush : Bool :=
  s.stall cfg i || s.floatLoadUseHazard || s.itlbMiss cfg i || s.icacheMiss cfg i ||
    s.imemWait cfg i || s.scoreboardStall cfg i

/-!
# Control and status registers
-/

def csrWdata : BitVec w :=
  if s.reg2.funct3.getLsbD 2 then s.reg2.inst.rs1.setWidth w else s.readData1Final cfg

def fpFlagBits (f : FpFlags) : BitVec 5 :=
  BitVec.ofBool f.nv ++ BitVec.ofBool f.dz ++ BitVec.ofBool f.of ++ BitVec.ofBool f.uf ++
    BitVec.ofBool f.nx

def bpUpdateValid : Bool :=
  (s.reg2.ctrl.branch || s.reg2.ctrl.jump) && !s.reg2Hold cfg i

def icacheAccessNew : Bool :=
  !s.pcStallR && (!s.translateEnable || s.itlbHit cfg) && !s.branchTaken cfg i &&
    !s.redirectSquashExtendR

def icacheHit : Bool := !cfg.cached || i.icacheHit

def hpmEventPulse (event : Nat) : Bool :=
  match event with
  | 1 => s.bpUpdateValid cfg i
  | 2 => s.mispredict cfg && !s.reg2Hold cfg i
  | 3 => s.icacheAccessNew cfg i && icacheHit cfg i
  | 4 => s.icacheAccessNew cfg i && !icacheHit cfg i
  | 5 => (dcache cfg i).accessHit
  | 6 => (dcache cfg i).accessMiss
  | 7 => s.pcStall cfg i
  | 8 => s.interruptTaken cfg i
  | 9 => s.exceptionTaken cfg && !s.reg2Hold cfg i
  | 10 => s.stall cfg i
  | 11 => s.divStall
  | 12 => s.memStall cfg i
  | 13 => s.fpStall
  | 14 => s.floatLoadUseHazard
  | 15 => s.itlbMiss cfg i
  | 16 => s.dtlbMiss cfg i
  | 17 => s.icacheMiss cfg i
  | 18 => s.imemWait cfg i
  | _ => false

def csrIn : CsrIn w :=
  { writeEn := s.reg2.ctrl.isCsr && !s.reg2Hold cfg i && !s.csrPrivViolation
    addr := s.reg2.imm.setWidth 12
    op := s.reg2.funct3.extractLsb' 0 2
    wdata := s.csrWdata cfg
    trapTaken := (s.exceptionTaken cfg && !s.reg2Hold cfg i) || s.interruptTaken cfg i
    trapPc := if s.interruptTaken cfg i then s.interruptMepc else s.reg2.pc
    trapCause := if s.interruptTaken cfg i then s.interruptCause i else s.trapCause cfg
    trapIsInterrupt := s.interruptTaken cfg i
    trapValue := s.trapValue cfg
    mretTaken := s.mretReal && !s.reg2Hold cfg i
    sretTaken := s.sretReal && !s.reg2Hold cfg i
    fpFlagsWe := (s.isOpFpRegde || s.isFmaRegde) && !s.reg2Hold cfg i
    fpFlagsIn := fpFlagBits (s.fpOut cfg).flags
    msipPending := i.msipPending
    timerPending := i.timerPending
    extPending := i.uartIrq
    instretPulse := s.reg3.valid && !s.memStall cfg i
    hpmEventPulse := s.hpmEventPulse cfg i
    vecCfgWriteEn := false
    vecCfgNewVtype := 0
    vecCfgNewVill := false
    vecCfgNewVl := 0 }

def csrOldVal : BitVec w := s.csr.rdata vlen (s.csrIn cfg i)

def redirectTarget : BitVec w :=
  if s.exceptionTaken cfg || s.interruptTaken cfg i then
    if s.csr.trapTargetIsS (s.csrIn cfg i) then s.csr.stvec else s.csr.mtvec
  else if s.mretReal then s.csr.mepc
  else if s.sretReal then s.csr.sepc
  else s.branchOrJumpTarget cfg

def pcFinal : BitVec w :=
  if s.branchTaken cfg i then s.redirectTarget cfg i else s.pcSpeculative cfg i

/-!
# What execute hands to memory
-/

def exResult : BitVec w :=
  if s.isOpFpRegde || s.isFmaRegde then (s.fpOut cfg).result.setWidth w
  else if s.reg2.ctrl.isCsr then s.csrOldVal cfg i
  else if s.isDivRem then s.divResult
  else if s.reg2.ctrl.memRead || s.reg2.ctrl.memWrite then s.memPaddr cfg
  else s.aluOut cfg

def reg3Bubble : Bool :=
  s.divStall || s.fpStall || s.dtlbMiss cfg i || s.exceptionTaken cfg

def executed : Reg3 w :=
  let live := !s.reg3Bubble cfg i
  { valid := live && s.reg2.valid
    memtoReg := live && s.reg2.ctrl.memtoReg
    regWrite := live && s.reg2.ctrl.regWrite
    fRegWrite := live && s.reg2.ctrl.fRegWrite
    memRead := live && s.reg2.ctrl.memRead
    memWrite := live && s.reg2.ctrl.memWrite
    aluOut := s.exResult cfg i
    readData2 := s.dtlbStoreData cfg
    writeReg := if live then s.reg2.writeReg else 0
    jump := live && s.reg2.ctrl.jump
    pcPlus4 := s.pcPlus4Regde
    funct3 := s.reg2.funct3
    isAmo := live && s.reg2.ctrl.isAmo
    funct7 := s.reg2.funct7 }

def loaded : Reg4 w :=
  { memtoReg := s.reg3.memtoReg
    regWrite := s.reg3.regWrite
    fRegWrite := s.reg3.fRegWrite
    valid := s.reg3.valid
    readData := if cfg.cached then s.dcacheRdataCapturedR else i.readData
    aluOut := s.reg3.aluOut
    writeReg := s.reg3.writeReg
    jump := s.reg3.jump
    pcPlus4 := s.reg3.pcPlus4
    isAmo := s.reg3.isAmo }

def backHold : Bool := s.memStall cfg i || s.amoStall

/-!
# The walker's port
-/

def ptwReqD : Bool := s.dtlbMiss cfg i
def ptwReqI : Bool := s.itlbMiss cfg i && !s.dtlbMiss cfg i

def ptwStart : Bool :=
  (s.ptwReqD cfg i || s.ptwReqI cfg i) && !s.lsuCyc && !(dcache cfg i).flushBusy

def walkIn : WalkIn w :=
  { start := s.ptwStart cfg i
    vaddr := if s.ptwReqD cfg i then s.dtlbVaddr cfg else s.imemReadAddr cfg
    satpPpn := s.csr.satpPpnVal
    isFetch := s.ptwReqI cfg i
    isStore := s.ptwReqD cfg i && s.reg2.ctrl.memWrite
    privIsU := s.privIsU
    dataIn := i.readData
    ack := i.lsuAck }

def ptwFill : PageFill w :=
  { valid := (s.ptwDoneI || s.ptwDoneD) && !m.fault s.ptw
    vaddr := if s.ptwServicingDR then s.dtlbVaddr cfg else s.imemReadAddr cfg
    ppn := m.resultPpn s.ptw
    perms := m.resultPerms s.ptw }

end Core
end Pipe
end RvCores
