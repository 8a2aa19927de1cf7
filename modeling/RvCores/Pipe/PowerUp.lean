import RvCores.Pipe.Core
import RvCores.Block.Memory
import RvCores.Lib.Run

/-!
# A concrete core

The default parameters of the source and an all-zero power-up state, for the
concrete runs that accompany the general results.
-/

namespace RvCores
namespace Pipe

open Isa Block

def noFma : BitVec 2 -> BitVec 3 -> F32 -> F32 -> F32 -> FpOut :=
  fun _ _ _ _ _ => { result := 0 }

def defaultConfig (w : Nat) : Config w :=
  { hazardStrategy := .forwarding
    pipelineProfile := .fiveStage
    branchPredictor := .static
    bhtBtbEntries := 32
    cacheMode := .none
    hasL2 := false
    spInit := 128
    fmaddUnit := noFma }

def emptyTlb : (x : Xlen) -> x.mmu.Tlb
  | .rv32 => Tlb.powerUp
  | .rv64 => Tlb.powerUp

def idlePtw : (x : Xlen) -> x.mmu.Ptw
  | .rv32 => Ptw.powerUp
  | .rv64 => Ptw.powerUp

namespace Core

def powerUp (x : Xlen) : Core x.mmu :=
  { pc := 0
    reg1a := .reset
    redirectSquashExtendR := false
    reg1 := .squashed
    reg2 := .reset
    reg3 := .reset
    reg4 := .reset
    regs := fun _ => 0
    fregs := fun _ => 0
    predictor :=
      { btb := { valid := fun _ => false, targets := fun _ => 0 }
        bht := { counters := fun _ => 0 }
        gshare := { counters := fun _ => 0, ghr := 0 }
        chooser := { counters := fun _ => 0 } }
    divider :=
      { busy := false, done := false, quotient := 0, remainder := 0, r := 0, q := 0
        d := 0, count := 0, negQuotient := false, negRemainder := false }
    fdivider :=
      { busy := false, done := false, result := 0, flags := {}, resultSign := false
        expA := 0, expB := 0, r := 0, q := 0, d := 0, count := 0 }
    fsqrt :=
      { busy := false, done := false, result := 0, flags := {}, rad := 0, r := 0
        qRoot := 0, count := 0, resultExp := 0 }
    memStallDoneR := false
    amo := { writePhaseR := false, writeDoneR := false, capturedReadR := 0 }
    scoreboard := .reset
    idBubbleR := true
    csr := .powerUp x.bits
    pcStallR := false
    dtlb := { vaddrR := 0, storeDataR := 0, missR := false }
    fence :=
      { pendingR := false, flushStartedR := false, l2FlushPendingR := false
        l2FlushStartedR := false }
    tlb := emptyTlb x
    ptw := idlePtw x
    ptwServicingDR := false
    ptwAbandonedR := false
    dcacheRdataCapturedR := 0
    mshrPendingRegwbR := false }

/--
The input of a cycle in which nothing happens but the fetch of a word.
-/
def fetchOnly {w : Nat} (inst : Word) : CoreIn w :=
  { inst := inst, readData := 0, lsuAck := false }

end Core
end Pipe
end RvCores
