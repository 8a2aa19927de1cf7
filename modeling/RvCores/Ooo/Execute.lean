import RvCores.Ooo.Decode

/-!
# Issue, completion and the memory port

The combinational signals between the reservation stations, the functional units
and the memory: what each unit computes or completes in this cycle, which
physical registers are written, and who owns the data-memory port.
-/

namespace RvCores
namespace Ooo
namespace Core

open Isa Block

/-!
# Broadcast and write ports of the integer file
-/

def issueValid (P : Params) (s : Core) : Bool := s.rsAlu.issueValid P.rsAluCfg
def issue (P : Params) (s : Core) : RsEntry AluPayload := s.rsAlu.issue P.rsAluCfg

def dmemReadData (s : Core) : BitVec 64 := s.dmem.readData

def lsqMemReadData (s : Core) (i : Input) : BitVec 64 :=
  if s.mailboxHit then i.mailboxReadData else s.dmemReadData

def lsqCompleteWrites (s : Core) : Bool := s.lsq.completeValid && s.lsq.completeIsLoad

def lsqPort (s : Core) (i : Input) : PrfWrite 64 :=
  { en := s.lsqCompleteWrites
    addr := s.lsq.headEntry.destPreg
    data := s.lsq.completeData (s.lsqMemReadData i) }

def divPort (s : Core) : PrfWrite 64 :=
  { en := s.divider.done
    addr := s.divInflight.destPreg
    data :=
      if s.divInflight.selectRem then s.divider.remainder else s.divider.quotient }

/--
An operand whose register is the issuing operation's own destination would
close a combinational loop through the ALU; the stored word stands in for it.
-/
def aluOperand (s : Core) (i : Input) (preg : Nat) : BitVec 64 :=
  s.prf.rdata true [s.lsqPort i, s.divPort] preg

def prfRdata2 (P : Params) (s : Core) (i : Input) : BitVec 64 :=
  s.aluOperand i (s.issue P).src1Preg

def prfRdata3 (P : Params) (s : Core) (i : Input) : BitVec 64 :=
  s.aluOperand i (s.issue P).src2Preg

def aluA (P : Params) (s : Core) (i : Input) : BitVec 64 :=
  if (s.issue P).data.useForcedA then (s.issue P).data.forcedA else s.prfRdata2 P i

def aluB (P : Params) (s : Core) (i : Input) : BitVec 64 :=
  if (s.issue P).data.useLinkB then 4
  else if (s.issue P).data.aluSrc then (s.issue P).data.imm
  else s.prfRdata3 P i

def vsetvlMinResult (P : Params) (s : Core) (i : Input) : BitVec 64 :=
  if s.aluA P i < s.aluB P i then s.aluA P i else s.aluB P i

def aluOut (P : Params) (s : Core) (i : Input) : BitVec 64 :=
  if (s.issue P).data.isVecCfg then s.vsetvlMinResult P i
  else alu (s.issue P).data.aluCtl (s.aluA P i) (s.aluB P i) false

def aluBranchZero (P : Params) (s : Core) (i : Input) : Bool :=
  branchZero (s.issue P).data.aluCtl (s.aluA P i) (s.aluB P i)

def aluPort (P : Params) (s : Core) (i : Input) : PrfWrite 64 :=
  { en := s.issueValid P, addr := (s.issue P).destPreg, data := s.aluOut P i }

def prfWrites (P : Params) (s : Core) (i : Input) : List (PrfWrite 64) :=
  [s.aluPort P i, s.lsqPort i, s.divPort]

def prfRdata (P : Params) (s : Core) (i : Input) (preg : Nat) : BitVec 64 :=
  s.prf.rdata true (s.prfWrites P i) preg

def prfRvalid (P : Params) (s : Core) (i : Input) (preg : Nat) : Bool :=
  s.prf.rvalid true (s.prfWrites P i) preg

def whenValid (en : Bool) (preg : Nat) : Option Nat := if en then some preg else none

def aluCdb (P : Params) (s : Core) : Option Nat :=
  whenValid (s.issueValid P) (s.issue P).destPreg

def lsqCdb (s : Core) : Option Nat :=
  whenValid s.lsqCompleteWrites s.lsq.headEntry.destPreg

def divCdb (s : Core) : Option Nat :=
  whenValid s.divider.done s.divInflight.destPreg

/-!
# Integer divider
-/

def issueDiv (s : Core) : RsEntry DivPayload := s.rsDiv.issue rsDivCfg

def divStart (s : Core) : Bool :=
  s.rsDiv.issueValid rsDivCfg && !s.divider.busy && !s.divider.done

def dividerIn (P : Params) (s : Core) (i : Input) : DividerIn 64 :=
  { start := s.divStart
    isSigned := s.issueDiv.data.isSigned
    dividend := s.prfRdata P i s.issueDiv.src1Preg
    divisor := s.prfRdata P i s.issueDiv.src2Preg }

/-!
# Float units
-/

def issueFdiv (s : Core) : RsEntry FdivPayload := s.rsFdiv.issue rsFdivCfg
def issueFalu (P : Params) (s : Core) : RsEntry FaluPayload := s.rsFalu.issue P.rsFaluCfg
def issueValidFalu (P : Params) (s : Core) : Bool := s.rsFalu.issueValid P.rsFaluCfg

def fdivDone (s : Core) : Bool := s.fdivider.done || s.fsqrt.done

def fdivStart (s : Core) : Bool :=
  s.rsFdiv.issueValid rsFdivCfg && !s.fdivider.busy && !s.fdivider.done &&
    !s.fsqrt.busy && !s.fsqrt.done

def fdivPort (s : Core) : PrfWrite 32 :=
  { en := s.fdivDone
    addr := s.fdivInflight.destPreg
    data := if s.fdivInflight.isSqrt then s.fsqrt.result else s.fdivider.result }

def faluOperand (s : Core) (preg : Nat) : BitVec 32 :=
  s.prfFloat.rdata false [s.fdivPort] preg

def faluA (P : Params) (s : Core) (i : Input) : BitVec 32 :=
  if (s.issueFalu P).data.isIntmove then
    (s.prfRdata P i (s.issueFalu P).src1Preg).setWidth 32
  else s.faluOperand (s.issueFalu P).src1Preg

def faluB (P : Params) (s : Core) : BitVec 32 := s.faluOperand (s.issueFalu P).src2Preg

def faluResult (P : Params) (s : Core) (i : Input) : BitVec 32 :=
  let d := (s.issueFalu P).data
  (falu d.funct5 d.funct3 d.rs2Sel (s.faluA P i) (s.faluB P)).result

def faluPort (P : Params) (s : Core) (i : Input) : PrfWrite 32 :=
  { en := s.issueValidFalu P
    addr := (s.issueFalu P).destPreg
    data := s.faluResult P i }

def prfFloatWrites (P : Params) (s : Core) (i : Input) : List (PrfWrite 32) :=
  [s.faluPort P i, s.fdivPort]

def prfFloatRdata (P : Params) (s : Core) (i : Input) (preg : Nat) : BitVec 32 :=
  s.prfFloat.rdata false (s.prfFloatWrites P i) preg

def prfFloatRvalid (P : Params) (s : Core) (i : Input) (preg : Nat) : Bool :=
  s.prfFloat.rvalid false (s.prfFloatWrites P i) preg

def faluCdb (P : Params) (s : Core) : Option Nat :=
  whenValid (s.issueValidFalu P) (s.issueFalu P).destPreg

def fdivCdb (s : Core) : Option Nat := whenValid s.fdivDone s.fdivInflight.destPreg

def fdividerIn (P : Params) (s : Core) (i : Input) : FDividerIn :=
  { start := s.fdivStart && !s.issueFdiv.data.isSqrt
    rm := s.issueFdiv.data.rm
    a := s.prfFloatRdata P i s.issueFdiv.src1Preg
    b := s.prfFloatRdata P i s.issueFdiv.src2Preg }

def fsqrtIn (P : Params) (s : Core) (i : Input) : FSqrtIn :=
  { start := s.fdivStart && s.issueFdiv.data.isSqrt
    rm := s.issueFdiv.data.rm
    a := s.prfFloatRdata P i s.issueFdiv.src1Preg }

/-!
# Vector units
-/

def issueValu (s : Core) : RsEntry ValuPayload := s.rsValu.issue rsValuCfg
def issueVlsu (s : Core) : RsEntry VlsuPayload := s.rsVlsu.issue rsVlsuCfg

def valuStart (s : Core) : Bool := s.rsValu.issueValid rsValuCfg && !s.valu.busy
def vlsuStart (s : Core) : Bool := s.rsVlsu.issueValid rsVlsuCfg && !s.vlsu.busy

def vlsuCompleteValid (s : Core) : Bool := s.vlsu.done && !s.vlsuInflight.isStore

def prfVecWrites (s : Core) : List (PrfWrite 512) :=
  [{ en := s.valu.done, addr := s.valuInflight.destPreg, data := s.valu.result },
    { en := s.vlsuCompleteValid, addr := s.vlsuInflight.destPreg, data := s.vlsu.result }]

def prfVecRdata (s : Core) (preg : Nat) : BitVec 512 :=
  s.prfVec.rdata false s.prfVecWrites preg

def prfVecRvalid (s : Core) (preg : Nat) : Bool :=
  s.prfVec.rvalid false s.prfVecWrites preg

def valuCdb (s : Core) : Option Nat := whenValid s.valu.done s.valuInflight.destPreg

def vlsuCdb (s : Core) : Option Nat :=
  whenValid s.vlsuCompleteValid s.vlsuInflight.destPreg

/--
The mask register is the one architectural v0 maps to now, not the one it
mapped to when the operation was dispatched.
-/
def v0Data (s : Core) : BitVec 512 := s.prfVecRdata (s.ratVec.rpreg false 0)

def valuIn (P : Params) (s : Core) (i : Input) : ValuIn 512 :=
  let e := s.issueValu
  { start := s.valuStart
    vs2Data := s.prfVecRdata e.src1Preg
    vs1Data := s.prfVecRdata e.src2Preg
    scalarData :=
      if !e.data.useScalar then 0
      else if e.data.isVi then e.data.imm
      else s.prfRdata P i e.src2Preg
    useScalar := e.data.useScalar
    v0Data := s.v0Data
    vm := e.data.vm
    vsew := e.data.vsew
    vl := BitVec.ofNat _ e.data.vl
    funct6 := e.data.funct6 }

def vlsuIn (P : Params) (s : Core) (i : Input) : VlsuIn 512 :=
  let e := s.issueVlsu
  { start := s.vlsuStart
    isStore := e.data.isStore
    baseAddr := s.prfRdata P i e.src1Preg
    storeData := s.prfVecRdata e.src2Preg
    eew := e.data.eew
    v0Data := s.v0Data
    vm := e.data.vm
    vl := s.csr.vl.toNat % 128
    memReadData := s.dmemReadData }

/-!
# Data-side translation and the memory port
-/

def lsqMemAddress (P : Params) (s : Core) (i : Input) : BitVec 64 :=
  s.lsq.memAddress (s.prfRdata P i s.lsq.headEntry.basePreg)

def lsHit (P : Params) (s : Core) (i : Input) : Bool := s.tlb.hit (s.lsqMemAddress P i)

def lsEntry (P : Params) (s : Core) (i : Input) : TlbEntry 64 27 :=
  s.tlb.lookup (s.lsqMemAddress P i)

def dtlbNeeded (s : Core) : Bool := s.translateEnable && s.lsq.headWantAccess

def lsPermOk (P : Params) (s : Core) (i : Input) : Bool :=
  (if s.lsq.headWantsWrite then (s.lsEntry P i).perms.w else (s.lsEntry P i).perms.r) &&
    s.userAllowed (s.lsEntry P i).perms.u

def dtlbHitFault (P : Params) (s : Core) (i : Input) : Bool :=
  s.dtlbNeeded && s.lsHit P i && !s.lsPermOk P i

def dtlbPageFault (P : Params) (s : Core) (i : Input) : Bool :=
  s.dtlbHitFault P i || (s.dtlbNeeded && s.ptwDoneD && s.ptw.result.fault)

def dtlbStall (P : Params) (s : Core) (i : Input) : Bool := s.dtlbNeeded && !s.lsHit P i

def memStallExt (P : Params) (s : Core) (i : Input) : Bool :=
  s.ptw.busy || s.dtlbStall P i || s.vlsu.busy

def lsqMemRead (P : Params) (s : Core) (i : Input) : Bool :=
  s.lsq.memRead (s.memStallExt P i)

def lsqMemWrite (P : Params) (s : Core) (i : Input) : Bool :=
  s.lsq.memWrite (s.memStallExt P i)

def lsqMemWriteData (P : Params) (s : Core) (i : Input) : BitVec 64 :=
  s.lsq.memWriteData (s.prfRdata P i s.lsq.headEntry.storeDataPreg)

def mailboxBase : BitVec 64 := 0x10200000
def mailboxSize : BitVec 64 := 256

def mailboxHitNow (P : Params) (s : Core) (i : Input) : Bool :=
  decide (s.lsqMemAddress P i >= mailboxBase) &&
    decide (s.lsqMemAddress P i < mailboxBase + mailboxSize)

def lsqUsesBus (P : Params) (s : Core) (i : Input) : Bool :=
  (s.lsqMemRead P i || s.lsqMemWrite P i) && !s.mailboxHitNow P i

def ptwReqD (P : Params) (s : Core) (i : Input) : Bool := s.dtlbStall P i
def ptwReqI (P : Params) (s : Core) (i : Input) : Bool := s.itlbMiss && !s.dtlbStall P i

def ptwStart (P : Params) (s : Core) (i : Input) : Bool :=
  (s.ptwReqI P i || s.ptwReqD P i) && !s.lsqUsesBus P i && !s.lsqBusBusy

def ptwIn (P : Params) (s : Core) (i : Input) : PtwIn 64 44 :=
  { start := s.ptwStart P i
    vaddr := if s.ptwReqD P i then s.lsqMemAddress P i else s.pc
    satpPpn := s.csr.satpPpnVal
    isFetch := s.ptwReqI P i
    isStore := s.ptwReqD P i && s.lsq.headWantsWrite
    privIsU := s.privIsU
    dataIn := s.dmemReadData
    ack := s.ptwMAck }

def ptwFill (P : Params) (s : Core) (i : Input) : PageFill 64 :=
  { valid := (s.ptwDoneI || s.ptwDoneD) && !s.ptw.result.fault
    vaddr := if s.ptwServicingD then s.lsqMemAddress P i else s.pc
    ppn := s.ptw.result.ppn
    perms := s.ptw.result.perms }

def vlsuWantsBus (s : Core) : Bool := s.vlsu.memRead || s.vlsu.memWrite

def lsqPhysAddress (P : Params) (s : Core) (i : Input) : BitVec 64 :=
  if s.translateEnable && s.lsHit P i then
    pageJoin (s.lsEntry P i).ppn (s.lsqMemAddress P i)
  else s.lsqMemAddress P i

def ptwRequest (s : Core) : MemRequest 64 :=
  { memWrite := false
    memRead := s.ptw.cyc
    address := s.ptw.addr
    writeData := 0
    funct3 := 0b011 }

def vlsuRequest (s : Core) : MemRequest 64 :=
  { memWrite := s.vlsu.memWrite
    memRead := s.vlsu.memRead
    address := s.vlsu.memAddress
    writeData := s.vlsu.memWriteData
    funct3 := s.vlsu.memFunct3 }

def lsqRequest (P : Params) (s : Core) (i : Input) : MemRequest 64 :=
  { memWrite := s.lsqMemWrite P i && !s.mailboxHitNow P i
    memRead := s.lsqMemRead P i && !s.mailboxHitNow P i
    address := s.lsqPhysAddress P i
    writeData := s.lsqMemWriteData P i
    funct3 := s.lsq.headEntry.funct3 }

def dmemArb (P : Params) (s : Core) (i : Input) : MemRequest 64 :=
  if s.ptw.busy then s.ptwRequest
  else if s.vlsuWantsBus then s.vlsuRequest
  else s.lsqRequest P i

end Core
end Ooo
end RvCores
