import RvCores.Ooo.State

/-!
# Fetch and decode

Everything the front end derives from the program counter, the translation state
and the two instruction words of a bundle, up to the class of each slot.  Slot 1
only ever carries a plain ALU instruction.
-/

namespace RvCores
namespace Ooo
namespace Core

open Isa Block

/-!
# Instruction-side translation
-/

def translateEnable (s : Core) : Bool :=
  s.csr.satpModeVal && decide (s.csr.privMode ≠ privM)

def privIsU (s : Core) : Bool := decide (s.csr.privMode = privU)

def itlbHit (s : Core) : Bool := s.tlb.hit s.pc

def pageJoin (ppn vaddr : BitVec 64) : BitVec 64 :=
  ((ppn.setWidth 20 : BitVec 20) ++ (vaddr.setWidth 12 : BitVec 12)).setWidth 64

def imemPhysAddr (s : Core) : BitVec 64 :=
  if s.translateEnable && s.itlbHit then pageJoin (s.tlb.lookup s.pc).ppn s.pc else s.pc

def ptwDoneI (s : Core) : Bool := s.ptw.done && !s.ptwServicingD
def ptwDoneD (s : Core) : Bool := s.ptw.done && s.ptwServicingD

def userAllowed (s : Core) (permU : Bool) : Bool :=
  if s.privIsU then permU else !permU

def itlbHitFault (s : Core) : Bool :=
  s.translateEnable && s.itlbHit &&
    !((s.tlb.lookup s.pc).perms.x && s.userAllowed (s.tlb.lookup s.pc).perms.u)

def itlbMiss (s : Core) : Bool :=
  s.translateEnable && !s.itlbHit && !(s.ptwDoneI && s.ptw.result.fault)

def itlbFaultThisCycle (s : Core) : Bool :=
  s.itlbHitFault || (s.translateEnable && s.ptwDoneI && s.ptw.result.fault)

/-!
# Slot 0
-/

def instFull (P : Params) (s : Core) : Word := P.imem.inst s.imemPhysAddr

def instWord (P : Params) (s : Core) : Word :=
  if s.translateEnable && !s.itlbHit then 0 else s.instFull P

def ctrl (P : Params) (s : Core) : Ctrl := control xlen (s.instWord P)

def rs1Areg (P : Params) (s : Core) : Nat := (s.instWord P).rs1.toNat
def rs2Areg (P : Params) (s : Core) : Nat := (s.instWord P).rs2.toNat
def rdAreg (P : Params) (s : Core) : Nat := (s.instWord P).rd.toNat

def aluCtl (P : Params) (s : Core) : AluCtl :=
  aluCtrl (s.ctrl P).aluOp (s.instWord P).funct7 (s.instWord P).funct3 (s.instWord P).rs2

/--
The immediate is decoded from the fetched word, even when a translation miss
replaces the instruction word by zero.
-/
def imm (P : Params) (s : Core) : BitVec 64 := immGen 64 (s.instFull P)

def needsDest (P : Params) (s : Core) : Bool :=
  (s.ctrl P).regWrite && decide (s.rdAreg P ≠ 0)

def isAmoLr (P : Params) (s : Core) : Bool :=
  (s.ctrl P).isAmo && decide ((s.instWord P).funct5 = LoadStoreQueue.amoF5Lr)

def isAmoSc (P : Params) (s : Core) : Bool :=
  (s.ctrl P).isAmo && decide ((s.instWord P).funct5 = LoadStoreQueue.amoF5Sc)

def isMemOp (P : Params) (s : Core) : Bool :=
  (s.ctrl P).memRead || (s.ctrl P).memWrite || (s.ctrl P).isAmo

def lsqOpType (P : Params) (s : Core) : LsqOp :=
  if s.isAmoLr P then .load
  else if s.isAmoSc P then .sc
  else if (s.ctrl P).isAmo then .amoRmw
  else if (s.ctrl P).memWrite then .store
  else .load

def isDivOp (P : Params) (s : Core) : Bool := (s.aluCtl P).isDiv

def isBranch (P : Params) (s : Core) : Bool := (s.ctrl P).branch
def isJal (P : Params) (s : Core) : Bool := (s.ctrl P).jump && !(s.ctrl P).jalr
def isJalr (P : Params) (s : Core) : Bool := (s.ctrl P).jalr
def isCsr (P : Params) (s : Core) : Bool := (s.ctrl P).isCsr

def isLuiAuipcJalJalrCsr (P : Params) (s : Core) : Bool :=
  (s.ctrl P).lui || (s.ctrl P).auipc || s.isJal P || s.isJalr P || s.isCsr P

def isVecCfg (P : Params) (s : Core) : Bool := (s.ctrl P).isVecCfg
def isVecArith (P : Params) (s : Core) : Bool := (s.ctrl P).isVecArith
def isVecLoad (P : Params) (s : Core) : Bool := (s.ctrl P).isVecLoad
def isVecStore (P : Params) (s : Core) : Bool := (s.ctrl P).isVecStore
def isVecLs (P : Params) (s : Core) : Bool := s.isVecLoad P || s.isVecStore P
def isVecDest (P : Params) (s : Core) : Bool := s.isVecArith P || s.isVecLoad P

/-!
# Vector configuration
-/

def vecCfgVsew (P : Params) (s : Core) : BitVec 3 := (s.instWord P).extractLsb 25 23
def vecCfgVlmul (P : Params) (s : Core) : BitVec 3 := (s.instWord P).extractLsb 22 20

def vecCfgReserved (P : Params) (s : Core) : Bool :=
  decide (s.vecCfgVsew P > 0b011) || decide (s.vecCfgVlmul P = 0b100)

def vecCfgShift (P : Params) (s : Core) : Nat :=
  ((s.vecCfgVsew P).setWidth 5 + 3#5 - (s.vecCfgVlmul P).signExtend 5).toNat

def vecCfgVlmax (P : Params) (s : Core) : BitVec 64 :=
  if s.vecCfgReserved P then 0 else BitVec.ofNat 64 vlen >>> s.vecCfgShift P

def vecCfgVtype (P : Params) (s : Core) : BitVec 8 :=
  BitVec.ofBool ((s.instWord P).getLsbD 27) ++ BitVec.ofBool ((s.instWord P).getLsbD 26) ++
    s.vecCfgVsew P ++ s.vecCfgVlmul P

/-!
# Vector groups

A vector instruction on a register group is cracked into one micro-operation per
register; the program counter stays until the last one is dispatched.
-/

def vecArithFunct6 (P : Params) (s : Core) : BitVec 6 := (s.instWord P).extractLsb 31 26
def vecArithVm (P : Params) (s : Core) : Bool := (s.instWord P).getLsbD 25

def vecGroupCountFresh (s : Core) : Nat :=
  if s.csr.vlmul.getLsbD 2 then 1 else (s.csr.vlmul.setWidth 2).toNat + 1

def vecCrackOffset (s : Core) : Nat := if s.vecCrack.active then s.vecCrack.idx else 0

def vecVs2Areg (P : Params) (s : Core) : Nat :=
  ((s.instWord P).rs2 + BitVec.ofNat 5 s.vecCrackOffset).toNat

def vecVs1Areg (P : Params) (s : Core) : Nat :=
  ((s.instWord P).rs1 + BitVec.ofNat 5 s.vecCrackOffset).toNat

def vecVdAreg (P : Params) (s : Core) : Nat :=
  ((s.instWord P).rd + BitVec.ofNat 5 s.vecCrackOffset).toNat

def vecAlignMask (s : Core) : BitVec 5 := BitVec.ofNat 5 (s.vecGroupCountFresh - 1)

def vecArithIsVx (P : Params) (s : Core) : Bool :=
  s.isVecArith P && decide ((s.instWord P).funct3 = f3Opivx)

def vecArithIsVi (P : Params) (s : Core) : Bool :=
  s.isVecArith P && decide ((s.instWord P).funct3 = f3Opivi)

def vecArithUseScalar (P : Params) (s : Core) : Bool :=
  s.vecArithIsVx P || s.vecArithIsVi P

def vecIsCrackedClass (P : Params) (s : Core) : Bool := s.isVecArith P || s.isVecLs P

def misalignedGroup (s : Core) (areg : BitVec 5) : Bool :=
  decide (areg &&& s.vecAlignMask ≠ 0)

def vecUnaligned (P : Params) (s : Core) : Bool :=
  s.vecIsCrackedClass P && !s.vecCrack.active &&
    (s.misalignedGroup (s.instWord P).rd ||
      (s.isVecArith P && !s.vecArithUseScalar P && s.misalignedGroup (s.instWord P).rs1) ||
      (s.isVecArith P && s.misalignedGroup (s.instWord P).rs2))

def vecCrackLast (s : Core) : Bool :=
  if s.vecCrack.active then decide (s.vecCrack.idx + 1 = s.vecCrack.groupCount)
  else decide (s.vecGroupCountFresh = 1)

def vecCrackHoldsPc (P : Params) (s : Core) : Bool :=
  s.vecIsCrackedClass P && !s.vecUnaligned P && !s.vecCrackLast

def vecElemsPerReg (s : Core) : Nat := vlen >>> (s.csr.vsew.toNat + 3)

def vecLocalVl (s : Core) : BitVec 64 :=
  let base := BitVec.ofNat 64 (s.vecCrackOffset * s.vecElemsPerReg)
  let perReg := BitVec.ofNat 64 s.vecElemsPerReg
  if s.csr.vl <= base then 0
  else if s.csr.vl - base > perReg then perReg
  else s.csr.vl - base

def vecArithImm (P : Params) (s : Core) : BitVec 64 := (s.instWord P).rs1.signExtend 64

def isVecCmp (P : Params) (s : Core) : Bool :=
  s.isVecArith P && decide ((s.vecArithFunct6 P).extractLsb 5 3 = 0b011#3)

def vecCmpLegal (P : Params) (s : Core) : Bool :=
  let f6 := s.vecArithFunct6 P
  s.isVecCmp P &&
    !(s.vecArithIsVi P && (decide (f6 = vfunct6Msltu) || decide (f6 = vfunct6Mslt))) &&
    !(!s.vecArithUseScalar P &&
      (decide (f6 = vfunct6Msgtu) || decide (f6 = vfunct6Msgt))) &&
    !decide (s.vecGroupCountFresh > 1)

def vecArithFunct6Legal (P : Params) (s : Core) : Bool :=
  let f6 := s.vecArithFunct6 P
  decide (f6 = vfunct6Add) ||
    (decide (f6 = vfunct6Sub) && !s.vecArithIsVi P) ||
    (decide (f6 = vfunct6Rsub) && s.vecArithUseScalar P) ||
    decide (f6 = vfunct6Minu) || decide (f6 = vfunct6Min) ||
    decide (f6 = vfunct6Maxu) || decide (f6 = vfunct6Max) ||
    decide (f6 = vfunct6And) || decide (f6 = vfunct6Or) || decide (f6 = vfunct6Xor) ||
    s.vecCmpLegal P

def vecArithIllegal (P : Params) (s : Core) : Bool :=
  s.isVecArith P && !s.vecArithFunct6Legal P

/-!
# Float classes

The class of a float instruction is read off the funct5 field alone, also for a
float load, whose immediate occupies that field.
-/

def isFpPure (P : Params) (s : Core) : Bool :=
  (s.ctrl P).fRegWrite &&
    (decide ((s.instWord P).funct5 = funct5Fadd) ||
      decide ((s.instWord P).funct5 = funct5Fsub) ||
      decide ((s.instWord P).funct5 = funct5Fmul) ||
      decide ((s.instWord P).funct5 = funct5Fsgnj) ||
      decide ((s.instWord P).funct5 = funct5Fminmax))

def isFpIntmove (P : Params) (s : Core) : Bool :=
  (s.ctrl P).fRegWrite && decide ((s.instWord P).funct5 = funct5FmvWX)

def isFpDiv (P : Params) (s : Core) : Bool :=
  (s.ctrl P).fRegWrite && decide ((s.instWord P).funct5 = funct5Fdiv)

def isFpSqrt (P : Params) (s : Core) : Bool :=
  (s.ctrl P).fRegWrite && decide ((s.instWord P).funct5 = funct5Fsqrt)

def isFpMulticycle (P : Params) (s : Core) : Bool := s.isFpDiv P || s.isFpSqrt P

def isFpOp (P : Params) (s : Core) : Bool :=
  s.isFpPure P || s.isFpIntmove P || s.isFpMulticycle P

/-!
# Exceptions seen at decode
-/

def sfencePrivViolation (P : Params) (s : Core) : Bool :=
  (s.ctrl P).isSfenceVma && s.privIsU

def hasException (P : Params) (s : Core) : Bool :=
  (s.ctrl P).illegalOpcode || (s.ctrl P).isEcall || s.vecArithIllegal P || s.vecUnaligned P

def isTrapRelated (P : Params) (s : Core) : Bool :=
  s.hasException P || (s.ctrl P).isMret || s.itlbFaultThisCycle || s.sfencePrivViolation P

def slot0IsPlainAlu (P : Params) (s : Core) : Bool :=
  !s.isMemOp P && !s.isDivOp P && !s.isFpOp P && !s.isBranch P && !s.isTrapRelated P &&
    !s.isLuiAuipcJalJalrCsr P && !s.isVecCfg P && !s.isVecArith P && !s.isVecLs P

/-!
# Slot 1
-/

def instWord1 (P : Params) (s : Core) : Word := P.imem.inst (s.pc + 4)

def ctrl1 (P : Params) (s : Core) : Ctrl := control xlen (s.instWord1 P)

def rs1Areg1 (P : Params) (s : Core) : Nat := (s.instWord1 P).rs1.toNat
def rs2Areg1 (P : Params) (s : Core) : Nat := (s.instWord1 P).rs2.toNat
def rdAreg1 (P : Params) (s : Core) : Nat := (s.instWord1 P).rd.toNat

def aluCtl1 (P : Params) (s : Core) : AluCtl :=
  aluCtrl (s.ctrl1 P).aluOp (s.instWord1 P).funct7 (s.instWord1 P).funct3
    (s.instWord1 P).rs2

def imm1 (P : Params) (s : Core) : BitVec 64 := immGen 64 (s.instWord1 P)

def needsDest1 (P : Params) (s : Core) : Bool :=
  (s.ctrl1 P).regWrite && decide (s.rdAreg1 P ≠ 0)

def isMemOp1 (P : Params) (s : Core) : Bool :=
  (s.ctrl1 P).memRead || (s.ctrl1 P).memWrite || (s.ctrl1 P).isAmo

def isFpOp1 (P : Params) (s : Core) : Bool :=
  (s.ctrl1 P).fRegWrite &&
    (decide ((s.instWord1 P).funct5 = funct5Fadd) ||
      decide ((s.instWord1 P).funct5 = funct5Fsub) ||
      decide ((s.instWord1 P).funct5 = funct5Fmul) ||
      decide ((s.instWord1 P).funct5 = funct5Fsgnj) ||
      decide ((s.instWord1 P).funct5 = funct5Fminmax) ||
      decide ((s.instWord1 P).funct5 = funct5FmvWX) ||
      decide ((s.instWord1 P).funct5 = funct5Fdiv) ||
      decide ((s.instWord1 P).funct5 = funct5Fsqrt))

def isTrapRelated1 (P : Params) (s : Core) : Bool :=
  (s.ctrl1 P).illegalOpcode || (s.ctrl1 P).isEcall || (s.ctrl1 P).isMret

def slot1IsPlainAlu (P : Params) (s : Core) : Bool :=
  !s.isMemOp1 P && !(s.aluCtl1 P).isDiv && !s.isFpOp1 P && !(s.ctrl1 P).branch &&
    !s.isTrapRelated1 P &&
    !((s.ctrl1 P).lui || (s.ctrl1 P).auipc || (s.ctrl1 P).jump || (s.ctrl1 P).jalr ||
      (s.ctrl1 P).isCsr) &&
    !(s.ctrl1 P).isVecCfg && !(s.ctrl1 P).isVecArith && !(s.ctrl1 P).isVecLoad &&
    !(s.ctrl1 P).isVecStore

def tryDualIssue (P : Params) (s : Core) : Bool :=
  s.slot0IsPlainAlu P && s.slot1IsPlainAlu P && !s.translateEnable

def slot1Src1FromSlot0 (P : Params) (s : Core) : Bool :=
  s.tryDualIssue P && s.needsDest P && decide (s.rs1Areg1 P = s.rdAreg P) &&
    decide (s.rdAreg P ≠ 0)

def slot1Src2FromSlot0 (P : Params) (s : Core) : Bool :=
  s.tryDualIssue P && s.needsDest P && decide (s.rs2Areg1 P = s.rdAreg P) &&
    decide (s.rdAreg P ≠ 0)

end Core
end Ooo
end RvCores
