import RvCores.Isa.Alu
import RvCores.Block.Csr
import RvCores.Block.Divider
import RvCores.Block.Float
import RvCores.Block.Mmu
import RvCores.Block.Predictor
import RvCores.Pipe.Stages

/-!
# State of the in-order core

One record holds every clocked register of the core.  What is outside of it comes
in through ports: the fetched word, the answer of the data bus, the processor side
of the data cache and the interrupt lines.  Registers that the reset does not
touch keep their power-up value.
-/

namespace RvCores
namespace Pipe

open Isa Block

/-!
# Parameters
-/

inductive HazardStrategy where
  | forwarding
  | noForward
deriving DecidableEq, Repr

inductive PipelineProfile where
  | fiveStage
  | sixStageSplitFetch
deriving DecidableEq, Repr

inductive CacheMode where
  | none
  | writebackSetassoc
deriving DecidableEq, Repr

structure Config (w : Nat) where
  hazardStrategy : HazardStrategy
  pipelineProfile : PipelineProfile
  branchPredictor : PredictorKind
  bhtBtbEntries : Nat
  cacheMode : CacheMode
  /-- Whether a second-level cache sits behind the data cache. -/
  hasL2 : Bool
  spInit : BitVec w
  /-- The fused multiply-add unit: operation, rounding mode and three operands. -/
  fmaddUnit : BitVec 2 -> BitVec 3 -> F32 -> F32 -> F32 -> FpOut

def Config.dynamic {w : Nat} (cfg : Config w) : Bool :=
  decide (cfg.branchPredictor ≠ .static)

def Config.splitFetch {w : Nat} (cfg : Config w) : Bool :=
  decide (cfg.pipelineProfile = .sixStageSplitFetch)

def Config.forwards {w : Nat} (cfg : Config w) : Bool :=
  decide (cfg.hazardStrategy = .forwarding)

def Config.cached {w : Nat} (cfg : Config w) : Bool := decide (cfg.cacheMode ≠ .none)

def vlen : Nat := 512

/-!
# Registers
-/

structure AmoRegs (w : Nat) where
  writePhaseR : Bool
  writeDoneR : Bool
  capturedReadR : BitVec w

structure DtlbRegs (w : Nat) where
  vaddrR : BitVec w
  storeDataR : BitVec w
  missR : Bool

structure FenceRegs where
  pendingR : Bool
  flushStartedR : Bool
  l2FlushPendingR : Bool
  l2FlushStartedR : Bool

structure Core {w : Nat} (m : Mmu w) where
  pc : BitVec w
  reg1a : Reg1a w
  redirectSquashExtendR : Bool
  reg1 : Reg1 w
  reg2 : Reg2 w
  reg3 : Reg3 w
  reg4 : Reg4 w
  regs : RegFile w
  fregs : RegFile w
  predictor : Predictor w
  divider : Divider w
  fdivider : FDivider
  fsqrt : FSqrt
  memStallDoneR : Bool
  amo : AmoRegs w
  scoreboard : Scoreboard
  idBubbleR : Bool
  csr : Csr w
  pcStallR : Bool
  dtlb : DtlbRegs w
  fence : FenceRegs
  tlb : m.Tlb
  ptw : m.Ptw
  ptwServicingDR : Bool
  ptwAbandonedR : Bool
  dcacheRdataCapturedR : BitVec w
  mshrPendingRegwbR : Bool

/-!
# Ports
-/

/--
The processor side of the data cache and of the flush chain behind it.
-/
structure DCachePort (w : Nat) where
  respReady : Bool := false
  respRdata : BitVec w := 0
  mshrAccept : Bool := false
  mshrComplete : Bool := false
  mshrCompleteReg : BitVec 5 := 0
  mshrCompleteData : BitVec w := 0
  flushBusy : Bool := false
  flushDone : Bool := false
  l2FlushBusy : Bool := false
  l2FlushDone : Bool := false
  accessHit : Bool := false
  accessMiss : Bool := false

def DCachePort.none {w : Nat} : DCachePort w := {}

/--
One cycle's inputs.  `imemWaitActive` is the latency model of instruction fetch.
`prefersInterrupt` picks the state of the network of stalls and redirects where its
equations have two.
-/
structure CoreIn (w : Nat) where
  inst : Word
  icacheHit : Bool := true
  imemWaitActive : Bool := false
  readData : BitVec w
  lsuAck : Bool
  dcache : DCachePort w := {}
  uartIrq : Bool := false
  msipPending : Bool := false
  timerPending : Bool := false
  prefersInterrupt : Bool := true

namespace Core

variable {w : Nat} {m : Mmu w}

def reset (cfg : Config w) (s : Core m) : Core m :=
  { pc := 0
    reg1a := .reset
    redirectSquashExtendR := false
    reg1 := .squashed
    reg2 := .reset
    reg3 := .reset
    reg4 := .reset
    regs := RegFile.reset cfg.spInit
    fregs := fun _ => 0
    predictor := s.predictor.reset cfg.bhtBtbEntries
    divider := s.divider.reset
    fdivider := s.fdivider.reset
    fsqrt := s.fsqrt.reset
    memStallDoneR := false
    amo := { s.amo with writePhaseR := false, writeDoneR := false }
    scoreboard := .reset
    idBubbleR := true
    csr := s.csr.reset
    pcStallR := false
    dtlb := { vaddrR := 0, storeDataR := 0, missR := false }
    fence :=
      { pendingR := false, flushStartedR := false, l2FlushPendingR := false
        l2FlushStartedR := false }
    tlb := m.tlbReset s.tlb
    ptw := m.ptwReset s.ptw
    ptwServicingDR := false
    ptwAbandonedR := false
    dcacheRdataCapturedR := s.dcacheRdataCapturedR
    mshrPendingRegwbR := false }

end Core
end Pipe
end RvCores
