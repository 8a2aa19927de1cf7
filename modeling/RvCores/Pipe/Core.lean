import RvCores.Pipe.Signals

/-!
# The clock edge of the in-order core

Every register's next value, and the record of all of them.
-/

namespace RvCores
namespace Pipe
namespace Core

open Isa Block

variable {w : Nat} {m : Mmu w} (cfg : Config w) (s : Core m) (i : CoreIn w)

/-!
# Front end
-/

def nextPc : BitVec w := if s.pcStall cfg i then s.pc else s.pcFinal cfg i

def nextReg1a : Reg1a w :=
  s.reg1a.step (s.pcStall cfg i)
    { pc := s.pc, predictTaken := s.predictTakenIf cfg
      predictTarget := s.predictTargetIf cfg }

def nextReg1 : Reg1 w :=
  s.reg1.step (s.branchTaken cfg i || s.redirectSquashExtendR) (s.pcStall cfg i)
    (s.fetched cfg i)

def nextReg2 : Reg2 w :=
  s.reg2.step (s.reg2Hold cfg i) (s.branchTaken cfg i) (s.reg2Flush cfg i)
    (s.decoded cfg i)

def nextIdBubbleR : Bool :=
  if s.branchTaken cfg i || s.redirectSquashExtendR then true
  else if s.pcStall cfg i then s.idBubbleR
  else false

def nextPredictor : Predictor w :=
  s.predictor.step cfg.bhtBtbEntries (s.bpUpdateValid cfg i) s.reg2.pc
    (s.desiredTaken cfg) (s.desiredTarget cfg)

/-!
# Back end
-/

def nextReg3 : Reg3 w := s.reg3.step (s.backHold cfg i) (s.executed cfg i)

def nextReg4 : Reg4 w := s.reg4.step (s.backHold cfg i) (s.loaded cfg i)

def nextMemStallDoneR : Bool := s.memStall cfg i && s.memAccessReady cfg i

/--
The flags start over only in a cycle without an atomic operation in the stage.
-/
def nextAmo : AmoRegs w :=
  if !s.amoActive then { s.amo with writePhaseR := false, writeDoneR := false }
  else if !s.amo.writePhaseR then
    if i.lsuAck then
      if s.amoIsLr then { s.amo with capturedReadR := i.readData, writeDoneR := true }
      else { s.amo with capturedReadR := i.readData, writePhaseR := true }
    else s.amo
  else if i.lsuAck then { s.amo with writeDoneR := true }
  else s.amo

def nextScoreboard : Scoreboard :=
  s.scoreboard.step (dcache cfg i).mshrAccept s.reg3.writeReg (dcache cfg i).mshrComplete
    (dcache cfg i).mshrCompleteReg

def nextFence : FenceRegs :=
  { pendingR :=
      if fenceComplete cfg i then false
      else if cfg.cached && s.reg2.ctrl.isFence && !s.reg2Hold cfg i then true
      else s.fence.pendingR
    flushStartedR :=
      if !s.fence.pendingR then false
      else if (dcache cfg i).flushBusy then true
      else s.fence.flushStartedR
    l2FlushPendingR :=
      if (dcache cfg i).l2FlushDone then false
      else if (dcache cfg i).flushDone then true
      else s.fence.l2FlushPendingR
    l2FlushStartedR :=
      if !s.fence.l2FlushPendingR then false
      else if (dcache cfg i).l2FlushBusy then true
      else s.fence.l2FlushStartedR }

/-!
# Translation
-/

def nextDtlb : DtlbRegs w :=
  { vaddrR := if s.dtlbNeeded && !s.dtlb.missR then s.aluOut cfg else s.dtlb.vaddrR
    storeDataR :=
      if s.dtlbNeeded && !s.dtlb.missR then s.storeOperand cfg else s.dtlb.storeDataR
    missR := s.dtlbMiss cfg i }

def nextTlb : m.Tlb :=
  m.tlbStep s.tlb (s.ptwFill cfg) (s.sfenceReal && !s.reg2Hold cfg i)

def nextPtwServicingDR : Bool :=
  if s.ptwStart cfg i && !m.busy s.ptw then s.ptwReqD cfg i else s.ptwServicingDR

def nextPtwAbandonedR : Bool :=
  if m.busy s.ptw && s.branchTaken cfg i then true
  else if m.done s.ptw then false
  else s.ptwAbandonedR

/-!
# All registers
-/

def step : Core m :=
  { pc := s.nextPc cfg i
    reg1a := s.nextReg1a cfg i
    redirectSquashExtendR := cfg.splitFetch && s.branchTaken cfg i
    reg1 := s.nextReg1 cfg i
    reg2 := s.nextReg2 cfg i
    reg3 := s.nextReg3 cfg i
    reg4 := s.nextReg4 cfg i
    regs := s.regs.step s.regWritePort1 (regWritePort2 cfg i)
    fregs := s.fregs.fstep s.fregWritePort
    predictor := s.nextPredictor cfg i
    divider := s.divider.step (s.dividerIn cfg)
    fdivider := s.fdivider.step (s.fdividerIn cfg)
    fsqrt := s.fsqrt.step (s.fsqrtIn cfg)
    memStallDoneR := s.nextMemStallDoneR cfg i
    amo := s.nextAmo i
    scoreboard := s.nextScoreboard cfg i
    idBubbleR := s.nextIdBubbleR cfg i
    csr := s.csr.step vlen (s.csrIn cfg i)
    pcStallR := s.pcStall cfg i
    dtlb := s.nextDtlb cfg i
    fence := s.nextFence cfg i
    tlb := s.nextTlb cfg i
    ptw := m.ptwStep s.ptw (s.walkIn cfg i)
    ptwServicingDR := s.nextPtwServicingDR cfg i
    ptwAbandonedR := s.nextPtwAbandonedR cfg i
    dcacheRdataCapturedR :=
      if (dcache cfg i).respReady then (dcache cfg i).respRdata else s.dcacheRdataCapturedR
    mshrPendingRegwbR :=
      if s.backHold cfg i then s.mshrPendingRegwbR else (dcache cfg i).mshrAccept }

end Core
end Pipe
end RvCores
