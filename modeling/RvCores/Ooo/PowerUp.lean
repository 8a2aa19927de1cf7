import RvCores.Ooo.Core

/-!
# A concrete core

The parameter values of the source and an all-zero power-up state, for the
concrete runs that accompany the general results.
-/

namespace RvCores
namespace Ooo

open Isa Block

def defaultParams (words : List Word) : Params :=
  { numPregs := 64
    numFpregs := 64
    numVpregs := 64
    robEntries := 16
    rsAluEntries := 8
    rsFaluEntries := 8
    bhtBtbEntries := 32
    imem := InstructionMemory.ofWords 4096 words
    dmemSizeBytes := 4096
    spInit := 128 }

theorem defaultParams_valid (words : List Word) : (defaultParams words).Valid := by
  constructor <;> simp [defaultParams, numAregs]

namespace Core

def emptyRob : RobEntry :=
  { valid := false
    done := false
    info :=
      { hasDest := false
        isFpDest := false
        isVecDest := false
        areg := 0
        preg := 0
        oldPreg := 0 } }

def emptyRs {payload : Type} (data : payload) : ReservationStation payload :=
  { entry := fun _ =>
      { valid := false
        src1Preg := 0
        src1Ready := false
        src2Preg := 0
        src2Ready := false
        destPreg := 0
        robTag := 0
        data := data } }

def emptyLsq : LsqEntry :=
  { valid := false
    opType := .load
    amoOp := 0
    basePreg := 0
    baseReady := false
    imm := 0
    funct3 := 0
    storeDataPreg := 0
    storeDataReady := false
    destPreg := 0
    robTag := 0
    pc := 0 }

def emptyFreeList : FreeList := { queue := fun _ => 0, count := 0, head := 0, tail := 0 }

def emptyRat : RegisterAliasTable := { specMap := fun _ => 0, archMap := fun _ => 0 }

def powerUp : Core :=
  { pc := 0
    fl := emptyFreeList
    rat := emptyRat
    prf := { regs := fun _ => 0, valid := fun _ => false }
    flFloat := emptyFreeList
    ratFloat := emptyRat
    prfFloat := { regs := fun _ => 0, valid := fun _ => false }
    flVec := emptyFreeList
    ratVec := emptyRat
    prfVec := { regs := fun _ => 0, valid := fun _ => false }
    rob := { entry := fun _ => emptyRob, count := 0, head := 0, tail := 0 }
    rsAlu :=
      emptyRs
        { isVecCfg := false
          useForcedA := false
          useLinkB := false
          forcedA := 0
          aluSrc := false
          aluCtl := .add
          imm := 0 }
    rsDiv := emptyRs { selectRem := false, isSigned := false }
    rsFdiv := emptyRs { isSqrt := false, rm := 0 }
    rsFalu := emptyRs { isIntmove := false, funct5 := 0, funct3 := 0, rs2Sel := 0 }
    rsValu :=
      emptyRs
        { funct6 := 0, vm := false, useScalar := false, isVi := false, vsew := 0
          vl := 0, imm := 0 }
    rsVlsu := emptyRs { isStore := false, eew := 0, vm := false }
    lsq :=
      { entry := fun _ => emptyLsq
        count := 0
        head := 0
        tail := 0
        memPending := false
        amoNeedWrite := false
        amoOldValue := 0 }
    divider :=
      { busy := false, done := false, quotient := 0, remainder := 0, r := 0, q := 0
        d := 0, count := 0, negQuotient := false, negRemainder := false }
    fdivider :=
      { busy := false, done := false, result := 0, flags := {}, r := 0, q := 0, d := 0
        count := 0, resultSign := false, expA := 0, expB := 0 }
    fsqrt :=
      { busy := false, done := false, result := 0, flags := {}, rad := 0, r := 0
        qRoot := 0, count := 0, resultExp := 0 }
    valu :=
      { busy := false, done := false, result := 0, elem := 0, shift := 0, vs2 := 0
        vs1 := 0, v0 := 0, scalar := 0, useScalar := false, vm := false, vsew := 0
        vl := 0, funct6 := 0 }
    vlsu :=
      { state := .idle, done := false, memRead := false, memWrite := false
        memAddress := 0, memWriteData := 0, memFunct3 := 0, result := 0, elem := 0
        shift := 0, storeData := 0, v0 := 0, baseAddr := 0, vm := false, eew := 0
        vl := 0, isStore := false }
    csr := .powerUp 64
    tlb := .powerUp
    ptw := .powerUp
    dmem := { bytes := fun _ => 0, rawWord := 0, funct3R := 0, memReadR := false }
    bht := { counters := fun _ => 0 }
    btb := { valid := fun _ => false, targets := fun _ => 0 }
    brInflight :=
      { valid := false, robTag := 0, pc := 0, imm := 0, predictedTaken := false
        predictedTarget := 0 }
    jrInflight := { valid := false, robTag := 0, imm := 0, pc := 0, predictedTarget := 0 }
    trapInflight := { valid := false, isMret := false, pc := 0, cause := 0, robTag := 0 }
    dsideFault := { valid := false, pc := 0, cause := 0, robTag := 0 }
    csrInflight :=
      { valid := false, robTag := 0, addr := 0, op := 0, isImm := false, uimm := 0 }
    vecCfgInflight := { valid := false, robTag := 0, vtype := 0, vill := false }
    vecCrack := { active := false, groupCount := 0, idx := 0 }
    divInflight := { robTag := 0, destPreg := 0, selectRem := false }
    fdivInflight := { robTag := 0, destPreg := 0, isSqrt := false }
    valuInflight := { robTag := 0, destPreg := 0 }
    vlsuInflight := { robTag := 0, destPreg := 0, isStore := false }
    vlsuInflightValid := false
    lsqBusBusy := false
    ptwServicingD := false
    ptwMAck := false
    mailboxHit := false }

end Core

def quietInput : Input :=
  { mailboxReadData := 0, msipPending := false, timerPending := false, extPending := false }

end Ooo
end RvCores
