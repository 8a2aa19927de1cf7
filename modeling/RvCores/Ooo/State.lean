import RvCores.Isa.Alu
import RvCores.Block.Memory
import RvCores.Block.Predictor
import RvCores.Block.Divider
import RvCores.Block.Float
import RvCores.Block.Vector
import RvCores.Block.Translation
import RvCores.Block.Csr
import RvCores.Ooo.FreeList
import RvCores.Ooo.RegisterAliasTable
import RvCores.Ooo.ReorderBuffer
import RvCores.Ooo.ReservationStation
import RvCores.Ooo.PhysicalRegisterFile
import RvCores.Ooo.LoadStoreQueue

/-!
# State of the out-of-order core

The core is one record: the renaming and scheduling structures, the functional
units, the memories, and the small groups of registers that track the one branch,
jump, trap or configuration instruction that may be in flight.  Clocked registers
that the reset does not touch keep whatever value they had at power-up.
-/

namespace RvCores
namespace Ooo

open Isa Block

/-!
# Parameters
-/

def xlen : Nat := 64
def numAregs : Nat := 32
def vlen : Nat := 512

structure Params where
  numPregs : Nat
  numFpregs : Nat
  numVpregs : Nat
  robEntries : Nat
  rsAluEntries : Nat
  rsFaluEntries : Nat
  bhtBtbEntries : Nat
  imem : InstructionMemory
  dmemSizeBytes : Nat
  spInit : BitVec 64

namespace Params

def intCap (P : Params) : Nat := P.numPregs - numAregs
def floatCap (P : Params) : Nat := P.numFpregs - numAregs
def vecCap (P : Params) : Nat := P.numVpregs - numAregs

def rsAluCfg (P : Params) : RsConfig := ⟨P.rsAluEntries, allPorts, allPorts⟩
def rsFaluCfg (P : Params) : RsConfig := ⟨P.rsFaluEntries, allPorts, allPorts⟩

/--
What the register widths of the source need: room to rename in each file, and
float and vector register numbers that fit an integer register number.
-/
structure Valid (P : Params) : Prop where
  intRoom : numAregs < P.numPregs
  floatRoom : numAregs < P.numFpregs
  vecRoom : numAregs < P.numVpregs
  floatFits : P.numFpregs <= P.numPregs
  vecFits : P.numVpregs <= P.numPregs
  robRoom : 2 <= P.robEntries
  rsAluRoom : 2 <= P.rsAluEntries
  rsFaluRoom : 1 <= P.rsFaluEntries

end Params

def rsDivCfg : RsConfig := ⟨8, allPorts, allPorts⟩
def rsFdivCfg : RsConfig := ⟨8, allPorts, allPorts⟩
def rsValuCfg : RsConfig := ⟨8, [true, false, false, false], allPorts⟩
def rsVlsuCfg : RsConfig :=
  ⟨8, [false, false, true, true], [true, true, false, false]⟩

/-!
# Payloads of the reservation stations
-/

structure AluPayload where
  isVecCfg : Bool
  useForcedA : Bool
  useLinkB : Bool
  forcedA : BitVec 64
  aluSrc : Bool
  aluCtl : AluCtl
  imm : BitVec 64

structure DivPayload where
  selectRem : Bool
  isSigned : Bool

structure FdivPayload where
  isSqrt : Bool
  rm : BitVec 3

structure FaluPayload where
  isIntmove : Bool
  funct5 : BitVec 5
  funct3 : BitVec 3
  rs2Sel : BitVec 5

structure ValuPayload where
  funct6 : BitVec 6
  vm : Bool
  useScalar : Bool
  isVi : Bool
  vsew : BitVec 3
  vl : Nat
  imm : BitVec 64

structure VlsuPayload where
  isStore : Bool
  eew : BitVec 3
  vm : Bool

/-!
# Registers that track one instruction in flight
-/

structure BrInflight where
  valid : Bool
  robTag : Nat
  pc : BitVec 64
  imm : BitVec 64
  predictedTaken : Bool
  predictedTarget : BitVec 64

structure JrInflight where
  valid : Bool
  robTag : Nat
  imm : BitVec 64
  pc : BitVec 64
  predictedTarget : BitVec 64

structure TrapInflight where
  valid : Bool
  isMret : Bool
  pc : BitVec 64
  cause : BitVec 32
  robTag : Nat

structure DsideFault where
  valid : Bool
  pc : BitVec 64
  cause : BitVec 32
  robTag : Nat

structure CsrInflight where
  valid : Bool
  robTag : Nat
  addr : BitVec 12
  op : BitVec 2
  isImm : Bool
  uimm : BitVec 64

structure VecCfgInflight where
  valid : Bool
  robTag : Nat
  vtype : BitVec 8
  vill : Bool

structure VecCrack where
  active : Bool
  groupCount : Nat
  idx : Nat

structure DivInflight where
  robTag : Nat
  destPreg : Nat
  selectRem : Bool

structure FdivInflight where
  robTag : Nat
  destPreg : Nat
  isSqrt : Bool

structure ValuInflight where
  robTag : Nat
  destPreg : Nat

structure VlsuInflight where
  robTag : Nat
  destPreg : Nat
  isStore : Bool

/-!
# The core
-/

structure Core where
  pc : BitVec 64
  fl : FreeList
  rat : RegisterAliasTable
  prf : PhysicalRegisterFile 64
  flFloat : FreeList
  ratFloat : RegisterAliasTable
  prfFloat : PhysicalRegisterFile 32
  flVec : FreeList
  ratVec : RegisterAliasTable
  prfVec : PhysicalRegisterFile 512
  rob : ReorderBuffer
  rsAlu : ReservationStation AluPayload
  rsDiv : ReservationStation DivPayload
  rsFdiv : ReservationStation FdivPayload
  rsFalu : ReservationStation FaluPayload
  rsValu : ReservationStation ValuPayload
  rsVlsu : ReservationStation VlsuPayload
  lsq : LoadStoreQueue
  divider : Divider 64
  fdivider : FDivider
  fsqrt : FSqrt
  valu : Valu 512
  vlsu : Vlsu 512
  csr : Csr 64
  tlb : Tlb39
  ptw : Ptw39
  dmem : DataMemory 64
  bht : Bht
  btb : Btb 64
  brInflight : BrInflight
  jrInflight : JrInflight
  trapInflight : TrapInflight
  dsideFault : DsideFault
  csrInflight : CsrInflight
  vecCfgInflight : VecCfgInflight
  vecCrack : VecCrack
  divInflight : DivInflight
  fdivInflight : FdivInflight
  valuInflight : ValuInflight
  vlsuInflight : VlsuInflight
  vlsuInflightValid : Bool
  lsqBusBusy : Bool
  ptwServicingD : Bool
  ptwMAck : Bool
  mailboxHit : Bool

structure Input where
  mailboxReadData : BitVec 64
  msipPending : Bool
  timerPending : Bool
  extPending : Bool

end Ooo
end RvCores
