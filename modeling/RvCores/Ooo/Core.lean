import RvCores.Ooo.Execute

/-!
# Dispatch and the clock edge

Renaming and dispatch of up to two instructions, the registers that follow the
in-flight branch, jump, trap, CSR and vector-configuration instruction, and the
next state of the whole core.
-/

namespace RvCores
namespace Ooo
namespace Core

open Isa Block

/-!
# Renamed sources and free registers
-/

def ratRpreg0 (P : Params) (s : Core) : Nat := s.rat.rpreg true (s.rs1Areg P)
def ratRpreg1 (P : Params) (s : Core) : Nat := s.rat.rpreg true (s.rs2Areg P)
def ratRpreg2 (P : Params) (s : Core) : Nat := s.rat.rpreg true (s.rs1Areg1 P)
def ratRpreg3 (P : Params) (s : Core) : Nat := s.rat.rpreg true (s.rs2Areg1 P)
def ratFRpreg0 (P : Params) (s : Core) : Nat := s.ratFloat.rpreg false (s.rs1Areg P)
def ratFRpreg1 (P : Params) (s : Core) : Nat := s.ratFloat.rpreg false (s.rs2Areg P)
def ratVRpreg0 (P : Params) (s : Core) : Nat := s.ratVec.rpreg false (s.vecVs2Areg P)
def ratVRpreg1 (P : Params) (s : Core) : Nat := s.ratVec.rpreg false (s.vecVs1Areg P)
def ratVRpregVs3 (P : Params) (s : Core) : Nat := s.ratVec.rpreg false (s.vecVdAreg P)

def flAllocOk0 (P : Params) (s : Core) : Bool := s.fl.allocOk0 (s.needsDest P)
def flAllocOk1 (P : Params) (s : Core) : Bool :=
  s.fl.allocOk1 (s.needsDest P) (s.needsDest1 P)
def flAllocPreg0 (s : Core) : Nat := s.fl.allocPreg0
def flAllocPreg1 (P : Params) (s : Core) : Nat :=
  s.fl.allocPreg1 P.intCap (s.needsDest P)
def flFAllocOk0 (P : Params) (s : Core) : Bool := s.flFloat.allocOk0 (s.isFpOp P)
def flFAllocPreg0 (s : Core) : Nat := s.flFloat.allocPreg0
def flVAllocOk0 (P : Params) (s : Core) : Bool := s.flVec.allocOk0 (s.isVecDest P)
def flVAllocPreg0 (s : Core) : Nat := s.flVec.allocPreg0

/-!
# Interrupts
-/

def meiPending (s : Core) (i : Input) : Bool := s.csr.mie.getLsbD 11 && i.extPending
def msiPending (s : Core) (i : Input) : Bool := s.csr.mie.getLsbD 3 && i.msipPending
def mtiPending (s : Core) (i : Input) : Bool := s.csr.mie.getLsbD 7 && i.timerPending

def interruptCause (s : Core) (i : Input) : BitVec 32 :=
  if s.meiPending i then 11 else if s.msiPending i then 3 else 7

def interruptPending (s : Core) (i : Input) : Bool :=
  s.csr.mstatusMie && (s.meiPending i || s.msiPending i || s.mtiPending i)

def interruptTake (s : Core) (i : Input) : Bool := s.interruptPending i && s.rob.empty

/-!
# Dispatch
-/

def stationFull (P : Params) (s : Core) : Bool :=
  if s.isMemOp P then s.lsq.full
  else if s.isDivOp P then s.rsDiv.full rsDivCfg
  else if s.isFpOp P then
    if s.isFpMulticycle P then s.rsFdiv.full rsFdivCfg else s.rsFalu.full P.rsFaluCfg
  else if s.isVecArith P then s.rsValu.full rsValuCfg
  else if s.isVecLs P then s.rsVlsu.full rsVlsuCfg
  else s.rsAlu.full P.rsAluCfg

def dispatchStall (P : Params) (s : Core) (i : Input) : Bool :=
  s.rob.full P.robEntries || s.stationFull P ||
    (s.needsDest P && !s.flAllocOk0 P) ||
    (s.isFpOp P && !s.flFAllocOk0 P) ||
    (s.isVecDest P && !s.flVAllocOk0 P) ||
    s.brInflight.valid || s.trapInflight.valid || s.jrInflight.valid ||
    s.csrInflight.valid || s.itlbMiss || s.dtlbStall P i || s.dsideFault.valid ||
    s.interruptPending i || s.vecCfgInflight.valid ||
    (s.vlsuInflightValid && !(s.isVecLs P && s.vecCrack.active))

def doDispatch (P : Params) (s : Core) (i : Input) : Bool := !s.dispatchStall P i

def dualDispatchRoom (P : Params) (s : Core) : Bool :=
  decide (s.rob.count <= P.robEntries - 2) &&
    decide (s.rsAlu.count P.rsAluCfg <= P.rsAluEntries - 2) &&
    (!s.needsDest1 P || s.flAllocOk1 P)

def doDispatchSlot1 (P : Params) (s : Core) (i : Input) : Bool :=
  s.doDispatch P i && s.tryDualIssue P && s.dualDispatchRoom P

def robAllocTag0 (s : Core) : Nat := s.rob.allocTag0
def robAllocTag1 (P : Params) (s : Core) (i : Input) : Nat :=
  s.rob.allocTag1 P.robEntries (s.doDispatch P i)

/-!
# Branches and jumps
-/

def brResolve (P : Params) (s : Core) : Bool :=
  s.issueValid P && s.brInflight.valid && decide ((s.issue P).robTag = s.brInflight.robTag)

def brActualTarget (s : Core) : BitVec 64 := s.brInflight.pc + s.brInflight.imm

def brCorrectTarget (P : Params) (s : Core) (i : Input) : BitVec 64 :=
  if s.aluBranchZero P i then s.brActualTarget else s.brInflight.pc + 4

def brMispredict (P : Params) (s : Core) (i : Input) : Bool :=
  s.brResolve P &&
    ((s.aluBranchZero P i ^^ s.brInflight.predictedTaken) ||
      (s.aluBranchZero P i && decide (s.brActualTarget ≠ s.brInflight.predictedTarget)))

def jrResolve (P : Params) (s : Core) : Bool :=
  s.issueValid P && s.jrInflight.valid && decide ((s.issue P).robTag = s.jrInflight.robTag)

def jrTarget (P : Params) (s : Core) (i : Input) : BitVec 64 :=
  (s.prfRdata2 P i + s.jrInflight.imm) &&& ~~~1#64

def jrMispredict (P : Params) (s : Core) (i : Input) : Bool :=
  s.jrResolve P && decide (s.jrTarget P i ≠ s.jrInflight.predictedTarget)

def btbHit (P : Params) (s : Core) : Bool := s.btb.hit P.bhtBtbEntries s.pc
def btbTarget (P : Params) (s : Core) : BitVec 64 := s.btb.target P.bhtBtbEntries s.pc

def predictedTaken (P : Params) (s : Core) : Bool :=
  s.isBranch P && s.bht.predictTaken P.bhtBtbEntries s.pc && s.btbHit P

def jrPredictedTarget (P : Params) (s : Core) : BitVec 64 :=
  if s.btbHit P then s.btbTarget P else s.pc + 4

/-!
# Retirement and traps
-/

def robRetireValid0 (s : Core) : Bool := s.rob.retireValid0
def robRetireValid1 (P : Params) (s : Core) : Bool := s.rob.retireValid1 P.robEntries

def dsideFaultPulse (P : Params) (s : Core) (i : Input) : Bool :=
  s.dtlbPageFault P i && !s.dsideFault.valid

def dsideTrapResolve (s : Core) : Bool :=
  s.robRetireValid0 && s.dsideFault.valid &&
    decide (s.rob.retireTag0 = s.dsideFault.robTag)

def trapResolveDispatch (s : Core) : Bool :=
  s.robRetireValid0 && s.trapInflight.valid &&
    decide (s.rob.retireTag0 = s.trapInflight.robTag)

def trapResolve (s : Core) : Bool := s.trapResolveDispatch || s.dsideTrapResolve

def csrTrapTaken (s : Core) (i : Input) : Bool :=
  (s.trapResolve && !(s.trapResolveDispatch && s.trapInflight.isMret)) || s.interruptTake i

def csrMretTaken (s : Core) : Bool := s.trapResolveDispatch && s.trapInflight.isMret

def csrWriteFire (P : Params) (s : Core) : Bool :=
  s.issueValid P && s.csrInflight.valid &&
    decide ((s.issue P).robTag = s.csrInflight.robTag)

def vecCfgWriteFire (P : Params) (s : Core) : Bool :=
  s.issueValid P && (s.issue P).data.isVecCfg && s.vecCfgInflight.valid &&
    decide ((s.issue P).robTag = s.vecCfgInflight.robTag)

def csrIn (P : Params) (s : Core) (i : Input) : CsrIn 64 :=
  { writeEn := s.csrWriteFire P
    addr := if s.csrWriteFire P then s.csrInflight.addr else (s.imm P).setWidth 12
    op := s.csrInflight.op
    wdata := if s.csrInflight.isImm then s.csrInflight.uimm else s.prfRdata2 P i
    trapTaken := s.csrTrapTaken i
    trapPc :=
      if s.interruptTake i then s.pc
      else if s.dsideTrapResolve then s.dsideFault.pc
      else s.trapInflight.pc
    trapCause :=
      (if s.interruptTake i then s.interruptCause i
        else if s.dsideTrapResolve then s.dsideFault.cause
        else s.trapInflight.cause).setWidth 64
    trapIsInterrupt := s.interruptTake i
    trapValue := 0
    mretTaken := s.csrMretTaken
    sretTaken := false
    fpFlagsWe := false
    fpFlagsIn := 0
    msipPending := i.msipPending
    timerPending := i.timerPending
    extPending := i.extPending
    instretPulse := false
    hpmEventPulse := fun _ => false
    vecCfgWriteEn := s.vecCfgWriteFire P
    vecCfgNewVtype := if s.vecCfgInflight.vill then 0 else s.vecCfgInflight.vtype
    vecCfgNewVill := s.vecCfgInflight.vill
    vecCfgNewVl := if s.vecCfgInflight.vill then 0 else s.vsetvlMinResult P i }

def csrOldValue (P : Params) (s : Core) (i : Input) : BitVec 64 :=
  s.csr.rdata vlen (s.csrIn P i)

/-!
# Inputs of the renaming structures
-/

def retireIntDest0 (s : Core) : Bool :=
  s.robRetireValid0 && s.rob.retire0.hasDest && !s.rob.retire0.isFpDest &&
    !s.rob.retire0.isVecDest && !s.dsideTrapResolve

def retireIntDest1 (P : Params) (s : Core) : Bool :=
  s.robRetireValid1 P && (s.rob.retire1 P.robEntries).hasDest &&
    !(s.rob.retire1 P.robEntries).isFpDest && !(s.rob.retire1 P.robEntries).isVecDest

def retireFpDest0 (s : Core) : Bool :=
  s.robRetireValid0 && s.rob.retire0.hasDest && s.rob.retire0.isFpDest

def retireFpDest1 (P : Params) (s : Core) : Bool :=
  s.robRetireValid1 P && (s.rob.retire1 P.robEntries).hasDest &&
    (s.rob.retire1 P.robEntries).isFpDest

def retireVecDest0 (s : Core) : Bool :=
  s.robRetireValid0 && s.rob.retire0.hasDest && s.rob.retire0.isVecDest

def retireVecDest1 (P : Params) (s : Core) : Bool :=
  s.robRetireValid1 P && (s.rob.retire1 P.robEntries).hasDest &&
    (s.rob.retire1 P.robEntries).isVecDest

def freeListIn (P : Params) (s : Core) (commit0 commit1 free0 free1 : Bool) :
    FreeListIn :=
  { commitEn0 := commit0
    commitEn1 := commit1
    freeEn0 := free0
    freePreg0 := s.rob.retire0.oldPreg
    freeEn1 := free1
    freePreg1 := (s.rob.retire1 P.robEntries).oldPreg }

def flIn (P : Params) (s : Core) (i : Input) : FreeListIn :=
  s.freeListIn P (s.doDispatch P i && s.needsDest P)
    (s.doDispatchSlot1 P i && s.needsDest1 P) s.retireIntDest0 (s.retireIntDest1 P)

def flFloatIn (P : Params) (s : Core) (i : Input) : FreeListIn :=
  s.freeListIn P (s.doDispatch P i && s.isFpOp P) false s.retireFpDest0
    (s.retireFpDest1 P)

def flVecIn (P : Params) (s : Core) (i : Input) : FreeListIn :=
  s.freeListIn P (s.doDispatch P i && s.isVecDest P) false s.retireVecDest0
    (s.retireVecDest1 P)

def noWrite : RatWrite := { en := false, areg := 0, preg := 0 }

def ratCommit0 (s : Core) (en : Bool) : RatWrite :=
  { en := en, areg := s.rob.retire0.areg, preg := s.rob.retire0.preg }

def ratCommit1 (P : Params) (s : Core) (en : Bool) : RatWrite :=
  { en := en
    areg := (s.rob.retire1 P.robEntries).areg
    preg := (s.rob.retire1 P.robEntries).preg }

def ratW0 (P : Params) (s : Core) (i : Input) : RatWrite :=
  { en := s.doDispatch P i && s.needsDest P
    areg := s.rdAreg P
    preg := s.flAllocPreg0 }

def ratW1 (P : Params) (s : Core) (i : Input) : RatWrite :=
  { en := s.doDispatchSlot1 P i && s.needsDest1 P
    areg := s.rdAreg1 P
    preg := s.flAllocPreg1 P }

def ratIn (P : Params) (s : Core) (i : Input) : RatIn :=
  { w0 := s.ratW0 P i
    w1 := s.ratW1 P i
    c0 := s.ratCommit0 s.retireIntDest0
    c1 := s.ratCommit1 P (s.retireIntDest1 P)
    restoreEn := false }

def ratFW0 (P : Params) (s : Core) (i : Input) : RatWrite :=
  { en := s.doDispatch P i && s.isFpOp P
    areg := s.rdAreg P
    preg := s.flFAllocPreg0 }

def ratFloatIn (P : Params) (s : Core) (i : Input) : RatIn :=
  { w0 := s.ratFW0 P i
    w1 := noWrite
    c0 := s.ratCommit0 s.retireFpDest0
    c1 := s.ratCommit1 P (s.retireFpDest1 P)
    restoreEn := false }

def ratVW0 (P : Params) (s : Core) (i : Input) : RatWrite :=
  { en := s.doDispatch P i && s.isVecDest P
    areg := s.vecVdAreg P
    preg := s.flVAllocPreg0 }

def ratVecIn (P : Params) (s : Core) (i : Input) : RatIn :=
  { w0 := s.ratVW0 P i
    w1 := noWrite
    c0 := s.ratCommit0 s.retireVecDest0
    c1 := s.ratCommit1 P (s.retireVecDest1 P)
    restoreEn := false }

def intDestPreg (P : Params) (s : Core) : Nat :=
  if s.needsDest P then s.flAllocPreg0 else 0

def intDestPreg1 (P : Params) (s : Core) : Nat :=
  if s.needsDest1 P then s.flAllocPreg1 P else 0

def robAlloc0 (P : Params) (s : Core) (i : Input) : RobInfo :=
  { hasDest := s.needsDest P || s.isFpOp P || s.isVecDest P
    isFpDest := s.isFpOp P
    isVecDest := s.isVecDest P
    areg := if s.isVecArith P || s.isVecLs P then s.vecVdAreg P else s.rdAreg P
    preg :=
      if s.isFpOp P then s.flFAllocPreg0
      else if s.isVecDest P then s.flVAllocPreg0
      else s.intDestPreg P
    oldPreg :=
      if s.isFpOp P then s.ratFloat.oldPreg0 (s.ratFW0 P i)
      else if s.isVecDest P then s.ratVec.oldPreg0 (s.ratVW0 P i)
      else s.rat.oldPreg0 (s.ratW0 P i) }

def robAlloc1 (P : Params) (s : Core) (i : Input) : RobInfo :=
  { hasDest := s.needsDest1 P
    isFpDest := false
    isVecDest := false
    areg := s.rdAreg1 P
    preg := s.intDestPreg1 P
    oldPreg := s.rat.oldPreg1 (s.ratW0 P i) (s.ratW1 P i) }

def lsqCompletion (P : Params) (s : Core) (i : Input) : Option Nat :=
  whenValid (s.lsq.completeValid || s.dsideFaultPulse P i) s.lsq.headEntry.robTag

def completions (P : Params) (s : Core) (i : Input) : List (Option Nat) :=
  [whenValid (s.issueValid P) (s.issue P).robTag,
    s.lsqCompletion P i,
    whenValid s.divider.done s.divInflight.robTag,
    whenValid (s.issueValidFalu P) (s.issueFalu P).robTag,
    whenValid s.fdivDone s.fdivInflight.robTag,
    whenValid s.valu.done s.valuInflight.robTag,
    whenValid s.vlsu.done s.vlsuInflight.robTag]

def robIn (P : Params) (s : Core) (i : Input) : RobIn :=
  { allocEn0 := s.doDispatch P i
    alloc0 := s.robAlloc0 P i
    allocEn1 := s.doDispatchSlot1 P i
    alloc1 := s.robAlloc1 P i
    complete := s.completions P i }

/-!
# Inputs of the reservation stations
-/

def useForcedA0 (P : Params) (s : Core) : Bool :=
  (s.ctrl P).lui || (s.ctrl P).auipc || s.isJal P || s.isJalr P || s.isCsr P ||
    (s.isVecCfg P && decide (s.rs1Areg P = 0))

def forcedAValue0 (P : Params) (s : Core) (i : Input) : BitVec 64 :=
  if (s.ctrl P).lui then 0
  else if s.isCsr P then s.csrOldValue P i
  else if s.isVecCfg P && decide (s.rs1Areg P = 0) then
    if s.rdAreg P = 0 then s.csr.vl else s.vecCfgVlmax P
  else s.pc

def aluPayload0 (P : Params) (s : Core) (i : Input) : AluPayload :=
  { isVecCfg := s.isVecCfg P
    useForcedA := s.useForcedA0 P
    useLinkB := s.isJal P || s.isJalr P
    forcedA := s.forcedAValue0 P i
    aluSrc := (s.ctrl P).aluSrc
    aluCtl := s.aluCtl P
    imm := if s.isVecCfg P then s.vecCfgVlmax P else s.imm P }

def aluPayload1 (P : Params) (s : Core) : AluPayload :=
  { isVecCfg := false
    useForcedA := false
    useLinkB := false
    forcedA := 0
    aluSrc := (s.ctrl1 P).aluSrc
    aluCtl := s.aluCtl1 P
    imm := s.imm1 P }

/--
Two-source dispatch from the integer file, shared by the ALU and the divider.
-/
def intDispatch {payload : Type} (P : Params) (s : Core) (i : Input) (en : Bool)
    (data : payload) : RsDispatch payload :=
  { en := en
    src1Preg := s.ratRpreg0 P
    src1Ready := s.prfRvalid P i (s.ratRpreg0 P)
    src2Preg := s.ratRpreg1 P
    src2Ready := s.prfRvalid P i (s.ratRpreg1 P)
    destPreg := s.intDestPreg P
    robTag := s.robAllocTag0
    data := data }

def rsAluDispEn0 (P : Params) (s : Core) (i : Input) : Bool :=
  s.doDispatch P i && !s.isMemOp P && !s.isDivOp P && !s.isFpOp P

def rsAluDisp1 (P : Params) (s : Core) (i : Input) : RsDispatch AluPayload :=
  { en := s.doDispatchSlot1 P i
    src1Preg := if s.slot1Src1FromSlot0 P then s.flAllocPreg0 else s.ratRpreg2 P
    src1Ready :=
      if s.slot1Src1FromSlot0 P then false else s.prfRvalid P i (s.ratRpreg2 P)
    src2Preg := if s.slot1Src2FromSlot0 P then s.flAllocPreg0 else s.ratRpreg3 P
    src2Ready :=
      if s.slot1Src2FromSlot0 P then false else s.prfRvalid P i (s.ratRpreg3 P)
    destPreg := s.intDestPreg1 P
    robTag := s.robAllocTag1 P i
    data := s.aluPayload1 P }

def rsAluIn (P : Params) (s : Core) (i : Input) : RsIn AluPayload :=
  { disp0 := s.intDispatch P i (s.rsAluDispEn0 P i) (s.aluPayload0 P i)
    disp1 := s.rsAluDisp1 P i
    cdb := [s.aluCdb P, s.lsqCdb, s.divCdb, none]
    issueAck := s.issueValid P }

def divPayload (P : Params) (s : Core) : DivPayload :=
  { selectRem := (s.instWord P).funct3.getLsbD 1
    isSigned := !(s.instWord P).funct3.getLsbD 0 }

def rsDivIn (P : Params) (s : Core) (i : Input) : RsIn DivPayload :=
  { disp0 := s.intDispatch P i (s.doDispatch P i && s.isDivOp P) (s.divPayload P)
    disp1 := RsDispatch.idle (s.divPayload P)
    cdb := [s.aluCdb P, s.lsqCdb, s.divCdb, none]
    issueAck := s.divStart }

def fdivPayload (P : Params) (s : Core) : FdivPayload :=
  { isSqrt := s.isFpSqrt P
    rm := if (s.instWord P).funct3 = rmDyn then s.csr.frm else (s.instWord P).funct3 }

def rsFdivIn (P : Params) (s : Core) (i : Input) : RsIn FdivPayload :=
  { disp0 :=
      { en := s.doDispatch P i && s.isFpMulticycle P
        src1Preg := s.ratFRpreg0 P
        src1Ready := s.prfFloatRvalid P i (s.ratFRpreg0 P)
        src2Preg := s.ratFRpreg1 P
        src2Ready := if s.isFpSqrt P then true else s.prfFloatRvalid P i (s.ratFRpreg1 P)
        destPreg := s.flFAllocPreg0
        robTag := s.robAllocTag0
        data := s.fdivPayload P }
    disp1 := RsDispatch.idle (s.fdivPayload P)
    cdb := [s.aluCdb P, s.faluCdb P, s.fdivCdb, none]
    issueAck := s.fdivStart }

def faluPayload (P : Params) (s : Core) : FaluPayload :=
  { isIntmove := s.isFpIntmove P
    funct5 := (s.instWord P).funct5
    funct3 := (s.instWord P).funct3
    rs2Sel := (s.instWord P).rs2 }

def rsFaluIn (P : Params) (s : Core) (i : Input) : RsIn FaluPayload :=
  { disp0 :=
      { en := s.doDispatch P i && s.isFpOp P && !s.isFpMulticycle P
        src1Preg := if s.isFpIntmove P then s.ratRpreg0 P else s.ratFRpreg0 P
        src1Ready :=
          if s.isFpIntmove P then s.prfRvalid P i (s.ratRpreg0 P)
          else s.prfFloatRvalid P i (s.ratFRpreg0 P)
        src2Preg := s.ratFRpreg1 P
        src2Ready :=
          if s.isFpIntmove P then true else s.prfFloatRvalid P i (s.ratFRpreg1 P)
        destPreg := s.flFAllocPreg0
        robTag := s.robAllocTag0
        data := s.faluPayload P }
    disp1 := RsDispatch.idle (s.faluPayload P)
    cdb := [s.faluCdb P, s.aluCdb P, s.divCdb, s.fdivCdb]
    issueAck := s.issueValidFalu P }

def valuPayload (P : Params) (s : Core) : ValuPayload :=
  { funct6 := s.vecArithFunct6 P
    vm := s.vecArithVm P
    useScalar := s.vecArithUseScalar P
    isVi := s.vecArithIsVi P
    vsew := s.csr.vsew
    vl := s.vecLocalVl.toNat % 128
    imm := s.vecArithImm P }

def rsValuIn (P : Params) (s : Core) (i : Input) : RsIn ValuPayload :=
  { disp0 :=
      { en := s.doDispatch P i && s.isVecArith P
        src1Preg := s.ratVRpreg0 P
        src1Ready := s.prfVecRvalid (s.ratVRpreg0 P)
        src2Preg := if s.vecArithUseScalar P then s.ratRpreg0 P else s.ratVRpreg1 P
        src2Ready :=
          if s.vecArithIsVi P then true
          else if s.vecArithIsVx P then s.prfRvalid P i (s.ratRpreg0 P)
          else s.prfVecRvalid (s.ratVRpreg1 P)
        destPreg := s.flVAllocPreg0
        robTag := s.robAllocTag0
        data := s.valuPayload P }
    disp1 := RsDispatch.idle (s.valuPayload P)
    cdb := [s.valuCdb, s.aluCdb P, s.lsqCdb, s.divCdb]
    issueAck := s.valuStart }

def vlsuPayload (P : Params) (s : Core) : VlsuPayload :=
  { isStore := s.isVecStore P, eew := (s.instWord P).funct3, vm := s.vecArithVm P }

def rsVlsuIn (P : Params) (s : Core) (i : Input) : RsIn VlsuPayload :=
  { disp0 :=
      { en := s.doDispatch P i && s.isVecLs P
        src1Preg := s.ratRpreg0 P
        src1Ready := s.prfRvalid P i (s.ratRpreg0 P)
        src2Preg := if s.isVecStore P then s.ratVRpregVs3 P else 0
        src2Ready := if s.isVecStore P then s.prfVecRvalid (s.ratVRpregVs3 P) else true
        destPreg := s.flVAllocPreg0
        robTag := s.robAllocTag0
        data := s.vlsuPayload P }
    disp1 := RsDispatch.idle (s.vlsuPayload P)
    cdb := [s.vlsuCdb, s.valuCdb, s.aluCdb P, s.lsqCdb]
    issueAck := s.vlsuStart }

def lsqDisp0 (P : Params) (s : Core) (i : Input) : LsqEntry :=
  { valid := true
    opType := s.lsqOpType P
    amoOp := (s.instWord P).funct5
    basePreg := s.ratRpreg0 P
    baseReady := s.prfRvalid P i (s.ratRpreg0 P)
    imm := s.imm P
    funct3 := (s.instWord P).funct3
    storeDataPreg := s.ratRpreg1 P
    storeDataReady := s.prfRvalid P i (s.ratRpreg1 P)
    destPreg := s.intDestPreg P
    robTag := s.robAllocTag0
    pc := s.pc }

def lsqIn (P : Params) (s : Core) (i : Input) : LsqIn :=
  { dispEn0 := s.doDispatch P i && s.isMemOp P
    disp0 := s.lsqDisp0 P i
    dispEn1 := false
    disp1 := s.lsqDisp0 P i
    cdb := [s.aluCdb P, s.lsqCdb, s.divCdb]
    memStallExt := s.memStallExt P i
    forceRetireExt := s.dsideFaultPulse P i
    memReadData := s.lsqMemReadData i }

/-!
# Next values of the tracking registers
-/

def nextBrInflight (P : Params) (s : Core) (i : Input) : BrInflight :=
  if s.doDispatch P i && s.isBranch P then
    { valid := true
      robTag := s.robAllocTag0
      pc := s.pc
      imm := s.imm P <<< 1
      predictedTaken := s.predictedTaken P
      predictedTarget := s.btbTarget P }
  else if s.brResolve P then { s.brInflight with valid := false }
  else s.brInflight

def nextJrInflight (P : Params) (s : Core) (i : Input) : JrInflight :=
  if s.doDispatch P i && s.isJalr P then
    { valid := true
      robTag := s.robAllocTag0
      imm := s.imm P
      pc := s.pc
      predictedTarget := s.jrPredictedTarget P }
  else if s.jrResolve P then { s.jrInflight with valid := false }
  else s.jrInflight

def nextTrapInflight (P : Params) (s : Core) (i : Input) : TrapInflight :=
  if s.doDispatch P i && s.isTrapRelated P then
    { valid := true
      isMret := (s.ctrl P).isMret
      pc := s.pc
      cause := if s.itlbFaultThisCycle then 12 else if (s.ctrl P).isEcall then 11 else 2
      robTag := s.robAllocTag0 }
  else if s.trapResolveDispatch then { s.trapInflight with valid := false }
  else s.trapInflight

def nextDsideFault (P : Params) (s : Core) (i : Input) : DsideFault :=
  if s.dsideFaultPulse P i then
    { valid := true
      pc := s.lsq.headEntry.pc
      cause := if s.lsq.headWantsWrite then 15 else 13
      robTag := s.lsq.headEntry.robTag }
  else if s.dsideTrapResolve then { s.dsideFault with valid := false }
  else s.dsideFault

def nextCsrInflight (P : Params) (s : Core) (i : Input) : CsrInflight :=
  if s.doDispatch P i && s.isCsr P then
    { valid := true
      robTag := s.robAllocTag0
      addr := (s.imm P).setWidth 12
      op := (s.instWord P).funct3.setWidth 2
      isImm := (s.instWord P).funct3.getLsbD 2
      uimm := (s.instWord P).rs1.setWidth 64 }
  else if s.csrWriteFire P then { s.csrInflight with valid := false }
  else s.csrInflight

def nextVecCfgInflight (P : Params) (s : Core) (i : Input) : VecCfgInflight :=
  if s.doDispatch P i && s.isVecCfg P then
    { valid := true
      robTag := s.robAllocTag0
      vtype := s.vecCfgVtype P
      vill := s.vecCfgReserved P }
  else if s.vecCfgWriteFire P then { s.vecCfgInflight with valid := false }
  else s.vecCfgInflight

def nextVecCrack (P : Params) (s : Core) (i : Input) : VecCrack :=
  if s.doDispatch P i && s.vecIsCrackedClass P && !s.vecCrack.active &&
      !s.vecUnaligned P && decide (s.vecGroupCountFresh > 1) then
    { active := true, groupCount := s.vecGroupCountFresh, idx := 1 }
  else if s.doDispatch P i && s.vecIsCrackedClass P && s.vecCrack.active then
    if s.vecCrack.idx + 1 = s.vecCrack.groupCount then
      { s.vecCrack with active := false }
    else { s.vecCrack with idx := s.vecCrack.idx + 1 }
  else s.vecCrack

def nextVlsuInflightValid (P : Params) (s : Core) (i : Input) : Bool :=
  if s.doDispatch P i && s.isVecLs P && !s.vlsuInflightValid then true
  else if s.vlsuInflightValid && decide (s.rsVlsu.count rsVlsuCfg = 0) && !s.vlsu.busy &&
      !(s.doDispatch P i && s.isVecLs P) then false
  else s.vlsuInflightValid

def sfenceReal (P : Params) (s : Core) (i : Input) : Bool :=
  s.doDispatch P i && (s.ctrl P).isSfenceVma && !s.sfencePrivViolation P

def dispatchPc (P : Params) (s : Core) (i : Input) : BitVec 64 :=
  if s.isJal P then s.pc + (s.imm P <<< 1)
  else if s.isJalr P then s.jrPredictedTarget P
  else if s.isBranch P && s.predictedTaken P then s.btbTarget P
  else if s.vecCrackHoldsPc P then s.pc
  else if s.doDispatchSlot1 P i then s.pc + 8
  else s.pc + 4

def nextPc (P : Params) (s : Core) (i : Input) : BitVec 64 :=
  if s.interruptTake i then s.csr.mtvec
  else if s.trapResolve then
    if s.csrTrapTaken i then s.csr.mtvec else s.csr.mepc
  else if s.brMispredict P i then s.brCorrectTarget P i
  else if s.jrMispredict P i then s.jrTarget P i
  else if s.doDispatch P i then s.dispatchPc P i
  else s.pc

/-!
# One clock edge
-/

def step (P : Params) (s : Core) (i : Input) : Core :=
  { pc := s.nextPc P i
    fl := s.fl.step P.intCap (s.flIn P i)
    rat := s.rat.step true (s.ratIn P i)
    prf :=
      s.prf.step true
        { writes := s.prfWrites P i
          allocEn0 := s.doDispatch P i && s.needsDest P
          allocPreg0 := s.flAllocPreg0
          allocEn1 := s.doDispatchSlot1 P i && s.needsDest1 P
          allocPreg1 := s.flAllocPreg1 P }
    flFloat := s.flFloat.step P.floatCap (s.flFloatIn P i)
    ratFloat := s.ratFloat.step false (s.ratFloatIn P i)
    prfFloat :=
      s.prfFloat.step false
        { writes := s.prfFloatWrites P i
          allocEn0 := s.doDispatch P i && s.isFpOp P
          allocPreg0 := s.flFAllocPreg0
          allocEn1 := false
          allocPreg1 := 0 }
    flVec := s.flVec.step P.vecCap (s.flVecIn P i)
    ratVec := s.ratVec.step false (s.ratVecIn P i)
    prfVec :=
      s.prfVec.step false
        { writes := s.prfVecWrites
          allocEn0 := s.doDispatch P i && s.isVecDest P
          allocPreg0 := s.flVAllocPreg0
          allocEn1 := false
          allocPreg1 := 0 }
    rob := s.rob.step P.robEntries (s.robIn P i)
    rsAlu := s.rsAlu.step P.rsAluCfg (s.rsAluIn P i)
    rsDiv := s.rsDiv.step rsDivCfg (s.rsDivIn P i)
    rsFdiv := s.rsFdiv.step rsFdivCfg (s.rsFdivIn P i)
    rsFalu := s.rsFalu.step P.rsFaluCfg (s.rsFaluIn P i)
    rsValu := s.rsValu.step rsValuCfg (s.rsValuIn P i)
    rsVlsu := s.rsVlsu.step rsVlsuCfg (s.rsVlsuIn P i)
    lsq := s.lsq.step (s.lsqIn P i)
    divider := s.divider.step (s.dividerIn P i)
    fdivider := s.fdivider.step (s.fdividerIn P i)
    fsqrt := s.fsqrt.step (s.fsqrtIn P i)
    valu := s.valu.step (s.valuIn P i)
    vlsu := s.vlsu.step (s.vlsuIn P i)
    csr := s.csr.step vlen (s.csrIn P i)
    tlb := s.tlb.step (s.ptwFill P i) (s.sfenceReal P i)
    ptw := s.ptw.step (s.ptwIn P i)
    dmem := s.dmem.step P.dmemSizeBytes (s.dmemArb P i)
    bht :=
      s.bht.step P.bhtBtbEntries (s.brResolve P) s.brInflight.pc (s.aluBranchZero P i)
    btb :=
      s.btb.step P.bhtBtbEntries
        ((s.brResolve P && s.aluBranchZero P i) || s.jrResolve P)
        (if s.jrResolve P then s.jrInflight.pc else s.brInflight.pc)
        (if s.jrResolve P then s.jrTarget P i else s.brActualTarget)
    brInflight := s.nextBrInflight P i
    jrInflight := s.nextJrInflight P i
    trapInflight := s.nextTrapInflight P i
    dsideFault := s.nextDsideFault P i
    csrInflight := s.nextCsrInflight P i
    vecCfgInflight := s.nextVecCfgInflight P i
    vecCrack := s.nextVecCrack P i
    divInflight :=
      if s.divStart then
        { robTag := s.issueDiv.robTag
          destPreg := s.issueDiv.destPreg
          selectRem := s.issueDiv.data.selectRem }
      else s.divInflight
    fdivInflight :=
      if s.fdivStart then
        { robTag := s.issueFdiv.robTag
          destPreg := s.issueFdiv.destPreg
          isSqrt := s.issueFdiv.data.isSqrt }
      else s.fdivInflight
    valuInflight :=
      if s.valuStart then
        { robTag := s.issueValu.robTag, destPreg := s.issueValu.destPreg }
      else s.valuInflight
    vlsuInflight :=
      if s.vlsuStart then
        { robTag := s.issueVlsu.robTag
          destPreg := s.issueVlsu.destPreg
          isStore := s.issueVlsu.data.isStore }
      else s.vlsuInflight
    vlsuInflightValid := s.nextVlsuInflightValid P i
    lsqBusBusy := s.lsqUsesBus P i
    ptwServicingD :=
      if s.ptwStart P i && !s.ptw.busy then s.ptwReqD P i else s.ptwServicingD
    ptwMAck := s.ptw.cyc
    mailboxHit :=
      if s.lsqMemRead P i || s.lsqMemWrite P i then s.mailboxHitNow P i
      else s.mailboxHit }

/-!
# Reset
-/

def reset (P : Params) (s : Core) : Core :=
  { s with
    pc := 0
    fl := s.fl.reset numAregs P.intCap
    rat := s.rat.reset numAregs
    prf := s.prf.reset P.numPregs numAregs P.spInit
    flFloat := s.flFloat.reset numAregs P.floatCap
    ratFloat := s.ratFloat.reset numAregs
    prfFloat := s.prfFloat.reset P.numFpregs numAregs 0
    flVec := s.flVec.reset numAregs P.vecCap
    ratVec := s.ratVec.reset numAregs
    prfVec := s.prfVec.reset P.numVpregs numAregs 0
    rob := s.rob.reset P.robEntries
    rsAlu := s.rsAlu.reset P.rsAluCfg
    rsDiv := s.rsDiv.reset rsDivCfg
    rsFdiv := s.rsFdiv.reset rsFdivCfg
    rsFalu := s.rsFalu.reset P.rsFaluCfg
    rsValu := s.rsValu.reset rsValuCfg
    rsVlsu := s.rsVlsu.reset rsVlsuCfg
    lsq := s.lsq.reset
    divider := s.divider.reset
    fdivider := s.fdivider.reset
    fsqrt := s.fsqrt.reset
    valu := s.valu.reset
    vlsu := s.vlsu.reset
    csr := s.csr.reset
    tlb := s.tlb.flush
    ptw := s.ptw.reset
    dmem := s.dmem.reset P.dmemSizeBytes
    bht := s.bht.reset P.bhtBtbEntries
    btb := s.btb.reset P.bhtBtbEntries
    brInflight := { s.brInflight with valid := false }
    jrInflight := { s.jrInflight with valid := false }
    trapInflight := { s.trapInflight with valid := false }
    dsideFault := { s.dsideFault with valid := false }
    csrInflight := { s.csrInflight with valid := false }
    vecCfgInflight := { s.vecCfgInflight with valid := false }
    vecCrack := { s.vecCrack with active := false }
    vlsuInflightValid := false
    lsqBusBusy := false
    ptwServicingD := false
    ptwMAck := false
    mailboxHit := false }

end Core
end Ooo
end RvCores
