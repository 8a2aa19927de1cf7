import Mathlib.Data.BitVec

/-!
# Control and status registers

The register file of both cores: trap entry and return, privilege mode, counters
and the vector configuration.  In one cycle a trap has priority over a return,
and a return over a CSR instruction, for each register on its own.
-/

namespace RvCores
namespace Block

variable {w : Nat}

def privU : BitVec 2 := 0b00
def privS : BitVec 2 := 0b01
def privM : BitVec 2 := 0b11

def numHpmCounters : Nat := 9

namespace CsrAddr

def mstatus : BitVec 12 := 0x300
def medeleg : BitVec 12 := 0x302
def mideleg : BitVec 12 := 0x303
def mie : BitVec 12 := 0x304
def mtvec : BitVec 12 := 0x305
def mcountinhibit : BitVec 12 := 0x320
def mscratch : BitVec 12 := 0x340
def mepc : BitVec 12 := 0x341
def mcause : BitVec 12 := 0x342
def mtval : BitVec 12 := 0x343
def mip : BitVec 12 := 0x344
def fflags : BitVec 12 := 0x001
def frm : BitVec 12 := 0x002
def fcsr : BitVec 12 := 0x003
def vstart : BitVec 12 := 0x008
def vxsat : BitVec 12 := 0x009
def vxrm : BitVec 12 := 0x00A
def vcsr : BitVec 12 := 0x00F
def sstatus : BitVec 12 := 0x100
def sie : BitVec 12 := 0x104
def stvec : BitVec 12 := 0x105
def sscratch : BitVec 12 := 0x140
def sepc : BitVec 12 := 0x141
def scause : BitVec 12 := 0x142
def stval : BitVec 12 := 0x143
def sip : BitVec 12 := 0x144
def satp : BitVec 12 := 0x180
def mcycle : BitVec 12 := 0xB00
def minstret : BitVec 12 := 0xB02
def mhpmcounter3Base : BitVec 12 := 0xB03
def mcycleh : BitVec 12 := 0xB80
def minstreth : BitVec 12 := 0xB82
def mhpmcounter3hBase : BitVec 12 := 0xB83
def mhpmevent3Base : BitVec 12 := 0x323
def vl : BitVec 12 := 0xC20
def vtype : BitVec 12 := 0xC21
def vlenb : BitVec 12 := 0xC22

/--
The index of a counter address in a bank of nine, if it is in the bank.
-/
def bankIndex (base addr : BitVec 12) : Option Nat :=
  if base.toNat <= addr.toNat ∧ addr.toNat < base.toNat + numHpmCounters then
    some (addr.toNat - base.toNat)
  else none

end CsrAddr

structure Csr (w : Nat) where
  mstatus : BitVec w
  mie : BitVec w
  mtvec : BitVec w
  mscratch : BitVec w
  mepc : BitVec w
  mcause : BitVec w
  mtval : BitVec w
  mipSw : BitVec w
  mideleg : BitVec w
  medeleg : BitVec w
  stvec : BitVec w
  sscratch : BitVec w
  sepc : BitVec w
  scause : BitVec w
  stval : BitVec w
  satp : BitVec w
  privMode : BitVec 2
  fflags : BitVec 5
  frm : BitVec 3
  vstart : BitVec 16
  vtypeFields : BitVec 8
  vill : Bool
  vl : BitVec w
  vxrm : BitVec 2
  vxsat : Bool
  mcycle : BitVec (w + w)
  minstret : BitVec (w + w)
  mcountinhibit : BitVec w
  mhpmcounter : Nat -> BitVec (w + w)
  mhpmevent : Nat -> BitVec 5

structure CsrIn (w : Nat) where
  writeEn : Bool
  addr : BitVec 12
  op : BitVec 2
  wdata : BitVec w
  trapTaken : Bool
  trapPc : BitVec w
  trapCause : BitVec w
  trapIsInterrupt : Bool
  trapValue : BitVec w
  mretTaken : Bool
  sretTaken : Bool
  fpFlagsWe : Bool
  fpFlagsIn : BitVec 5
  msipPending : Bool
  timerPending : Bool
  extPending : Bool
  instretPulse : Bool
  hpmEventPulse : Nat -> Bool
  vecCfgWriteEn : Bool
  vecCfgNewVtype : BitVec 8
  vecCfgNewVill : Bool
  vecCfgNewVl : BitVec w

namespace Csr

/-!
# Bit fields
-/

def bitAt (i : Nat) (b : Bool) : BitVec w := BitVec.ofNat w b.toNat <<< i

def keepBits (positions : List Nat) (x : BitVec w) : BitVec w :=
  positions.foldl (fun acc i => acc ||| bitAt i (x.getLsbD i)) 0#w

def setBit (x : BitVec w) (i : Nat) (b : Bool) : BitVec w :=
  (x &&& ~~~(1#w <<< i)) ||| bitAt i b

def setMpp (x : BitVec w) (mode : BitVec 2) : BitVec w :=
  setBit (setBit x 11 (mode.getLsbD 0)) 12 (mode.getLsbD 1)

def mpp (x : BitVec w) : BitVec 2 := x.extractLsb' 11 2

def sstatusBits : List Nat := [1, 5, 8]
def sieBits : List Nat := [1, 5, 9]
def mieBits : List Nat := [3, 7, 11, 1, 5, 9]
def mstatusBits : List Nat := [3, 7, 1, 5, 8, 11, 12]
def midelegBits : List Nat := [1, 5, 3, 7, 9, 11]
def medelegBits : List Nat := [2, 3, 8, 9, 11, 12, 13, 15]

def mip (csr : Csr w) (i : CsrIn w) : BitVec w :=
  csr.mipSw ||| bitAt 3 i.msipPending ||| bitAt 7 i.timerPending ||| bitAt 11 i.extPending

def mstatusMie (csr : Csr w) : Bool := csr.mstatus.getLsbD 3

def satpModeVal (csr : Csr w) : Bool :=
  if w = 32 then csr.satp.getLsbD 31 else decide (csr.satp.extractLsb' 60 4 = 0x8#4)

def satpPpnVal (csr : Csr w) : BitVec 44 :=
  if w = 32 then (csr.satp.setWidth 22).setWidth 44 else csr.satp.setWidth 44

def vsew (csr : Csr w) : BitVec 3 := csr.vtypeFields.extractLsb 5 3
def vlmul (csr : Csr w) : BitVec 3 := csr.vtypeFields.extractLsb 2 0

/-!
# Reads
-/

def readMstatus (csr : Csr w) : BitVec w :=
  if w = 64 then
    (csr.mstatus &&& ~~~((0b1111#4).setWidth w <<< 32)) |||
      ((0b1010#4).setWidth w <<< 32)
  else csr.mstatus

def lowHalf (x : BitVec (w + w)) : BitVec w := x.extractLsb' 0 w
def highHalf (x : BitVec (w + w)) : BitVec w := x.extractLsb' w w

def rdataBase (vlen : Nat) (csr : Csr w) (i : CsrIn w) : BitVec w :=
  if i.addr = CsrAddr.mstatus then csr.readMstatus
  else if i.addr = CsrAddr.mie then csr.mie
  else if i.addr = CsrAddr.mtvec then csr.mtvec
  else if i.addr = CsrAddr.mscratch then csr.mscratch
  else if i.addr = CsrAddr.mepc then csr.mepc
  else if i.addr = CsrAddr.mcause then csr.mcause
  else if i.addr = CsrAddr.mip then csr.mip i
  else if i.addr = CsrAddr.fflags then csr.fflags.setWidth w
  else if i.addr = CsrAddr.frm then csr.frm.setWidth w
  else if i.addr = CsrAddr.fcsr then (csr.frm ++ csr.fflags).setWidth w
  else if i.addr = CsrAddr.sstatus then keepBits sstatusBits csr.mstatus
  else if i.addr = CsrAddr.sie then keepBits sieBits csr.mie
  else if i.addr = CsrAddr.sip then keepBits sieBits (csr.mip i)
  else if i.addr = CsrAddr.stvec then csr.stvec
  else if i.addr = CsrAddr.sscratch then csr.sscratch
  else if i.addr = CsrAddr.sepc then csr.sepc
  else if i.addr = CsrAddr.scause then csr.scause
  else if i.addr = CsrAddr.stval then csr.stval
  else if i.addr = CsrAddr.satp then csr.satp
  else if i.addr = CsrAddr.mtval then csr.mtval
  else if i.addr = CsrAddr.mideleg then csr.mideleg
  else if i.addr = CsrAddr.medeleg then csr.medeleg
  else if i.addr = CsrAddr.vstart then csr.vstart.setWidth w
  else if i.addr = CsrAddr.vtype then
    bitAt (w - 1) csr.vill ||| csr.vtypeFields.setWidth w
  else if i.addr = CsrAddr.vl then csr.vl
  else if i.addr = CsrAddr.vlenb then BitVec.ofNat w (vlen / 8)
  else if i.addr = CsrAddr.vxrm then csr.vxrm.setWidth w
  else if i.addr = CsrAddr.vxsat then bitAt 0 csr.vxsat
  else if i.addr = CsrAddr.vcsr then (csr.vxrm ++ BitVec.ofBool csr.vxsat).setWidth w
  else 0

def rdata (vlen : Nat) (csr : Csr w) (i : CsrIn w) : BitVec w :=
  if i.addr = CsrAddr.mcountinhibit then csr.mcountinhibit
  else if i.addr = CsrAddr.mcycle then lowHalf csr.mcycle
  else if i.addr = CsrAddr.mcycleh then highHalf csr.mcycle
  else if i.addr = CsrAddr.minstret then lowHalf csr.minstret
  else if i.addr = CsrAddr.minstreth then highHalf csr.minstret
  else
    match CsrAddr.bankIndex CsrAddr.mhpmcounter3Base i.addr,
      CsrAddr.bankIndex CsrAddr.mhpmcounter3hBase i.addr,
      CsrAddr.bankIndex CsrAddr.mhpmevent3Base i.addr with
    | some k, _, _ => lowHalf (csr.mhpmcounter k)
    | none, some k, _ => highHalf (csr.mhpmcounter k)
    | none, none, some k => (csr.mhpmevent k).setWidth w
    | none, none, none => csr.rdataBase vlen i

def newVal (vlen : Nat) (csr : Csr w) (i : CsrIn w) : BitVec w :=
  if i.op = 0b10 then csr.rdata vlen i ||| i.wdata
  else if i.op = 0b11 then csr.rdata vlen i &&& ~~~i.wdata
  else i.wdata

/-!
# Traps
-/

def trapDelegated (csr : Csr w) (i : CsrIn w) : Bool :=
  (if i.trapIsInterrupt then csr.mideleg else csr.medeleg).getLsbD
    (i.trapCause.toNat % 32)

def trapTargetIsS (csr : Csr w) (i : CsrIn w) : Bool :=
  i.trapTaken && decide (csr.privMode ≠ privM) && csr.trapDelegated i

def causeWord (i : CsrIn w) : BitVec w :=
  (BitVec.ofBool i.trapIsInterrupt ++ (i.trapCause.setWidth 31 : BitVec 31)).setWidth w

def writes (i : CsrIn w) (addr : BitVec 12) : Bool :=
  i.writeEn && decide (i.addr = addr)

def nextMstatus (vlen : Nat) (csr : Csr w) (i : CsrIn w) : BitVec w :=
  let v := csr.newVal vlen i
  if i.trapTaken && !csr.trapTargetIsS i then
    setMpp (setBit (setBit csr.mstatus 7 (csr.mstatus.getLsbD 3)) 3 false) csr.privMode
  else if i.trapTaken && csr.trapTargetIsS i then
    setBit (setBit (setBit csr.mstatus 5 (csr.mstatus.getLsbD 1)) 1 false) 8
      (csr.privMode.getLsbD 0)
  else if i.mretTaken then
    setMpp (setBit (setBit csr.mstatus 3 (csr.mstatus.getLsbD 7)) 7 true) privU
  else if i.sretTaken then
    setBit (setBit (setBit csr.mstatus 1 (csr.mstatus.getLsbD 5)) 5 true) 8 false
  else if writes i CsrAddr.mstatus then keepBits mstatusBits v
  else if writes i CsrAddr.sstatus then
    (csr.mstatus &&& ~~~(keepBits sstatusBits (BitVec.allOnes w))) |||
      keepBits sstatusBits v
  else csr.mstatus

def nextPrivMode (csr : Csr w) (i : CsrIn w) : BitVec 2 :=
  if i.trapTaken then if csr.trapTargetIsS i then privS else privM
  else if i.mretTaken then mpp csr.mstatus
  else if i.sretTaken then 0#1 ++ BitVec.ofBool (csr.mstatus.getLsbD 8)
  else csr.privMode

def nextMie (vlen : Nat) (csr : Csr w) (i : CsrIn w) : BitVec w :=
  let v := csr.newVal vlen i
  if writes i CsrAddr.mie then keepBits mieBits v
  else if writes i CsrAddr.sie then
    (csr.mie &&& ~~~(keepBits sieBits (BitVec.allOnes w))) ||| keepBits sieBits v
  else csr.mie

/-!
# Counters
-/

def setLow (x : BitVec (w + w)) (v : BitVec w) : BitVec (w + w) := highHalf x ++ v
def setHigh (x : BitVec (w + w)) (v : BitVec w) : BitVec (w + w) := v ++ lowHalf x

def countStep (x : BitVec (w + w)) (writeLow writeHigh enable : Bool) (v : BitVec w) :
    BitVec (w + w) :=
  if writeLow then setLow x v
  else if writeHigh then setHigh x v
  else if enable then x + 1
  else x

def nextHpmCounter (vlen : Nat) (csr : Csr w) (i : CsrIn w) (k : Nat) :
    BitVec (w + w) :=
  let event := csr.mhpmevent k
  countStep (csr.mhpmcounter k)
    (i.writeEn && decide (CsrAddr.bankIndex CsrAddr.mhpmcounter3Base i.addr = some k))
    (i.writeEn && decide (CsrAddr.bankIndex CsrAddr.mhpmcounter3hBase i.addr = some k))
    (!csr.mcountinhibit.getLsbD (3 + k) && decide (event ≠ 0) &&
      i.hpmEventPulse event.toNat)
    (csr.newVal vlen i)

def powerUp (w : Nat) : Csr w :=
  { mstatus := 0, mie := 0, mtvec := 0, mscratch := 0, mepc := 0, mcause := 0
    mtval := 0, mipSw := 0, mideleg := 0, medeleg := 0, stvec := 0, sscratch := 0
    sepc := 0, scause := 0, stval := 0, satp := 0, privMode := privM
    fflags := 0, frm := 0, vstart := 0, vtypeFields := 0, vill := false, vl := 0
    vxrm := 0, vxsat := false, mcycle := 0, minstret := 0, mcountinhibit := 0
    mhpmcounter := fun _ => 0
    mhpmevent := fun _ => 0 }

def reset (csr : Csr w) : Csr w :=
  { mstatus := 0, mie := 0, mtvec := 0, mscratch := 0, mepc := 0, mcause := 0
    mtval := 0, mipSw := 0, mideleg := 0, medeleg := 0, stvec := 0, sscratch := 0
    sepc := 0, scause := 0, stval := 0, satp := 0, privMode := privM
    fflags := 0, frm := 0, vstart := 0, vtypeFields := 0, vill := false, vl := 0
    vxrm := 0, vxsat := false, mcycle := 0, minstret := 0, mcountinhibit := 0
    mhpmcounter := fun k => if k < numHpmCounters then 0 else csr.mhpmcounter k
    mhpmevent := fun k =>
      if k < numHpmCounters then BitVec.ofNat 5 (k + 1) else csr.mhpmevent k }

def step (vlen : Nat) (csr : Csr w) (i : CsrIn w) : Csr w :=
  let v := csr.newVal vlen i
  let toM := i.trapTaken && !csr.trapTargetIsS i
  let toS := i.trapTaken && csr.trapTargetIsS i
  { mstatus := csr.nextMstatus vlen i
    mie := csr.nextMie vlen i
    mtvec := if writes i CsrAddr.mtvec then v else csr.mtvec
    mscratch := if writes i CsrAddr.mscratch then v else csr.mscratch
    mepc := if toM then i.trapPc else if writes i CsrAddr.mepc then v else csr.mepc
    mcause :=
      if toM then causeWord i else if writes i CsrAddr.mcause then v else csr.mcause
    mtval :=
      if toM then i.trapValue else if writes i CsrAddr.mtval then v else csr.mtval
    mipSw :=
      if writes i CsrAddr.mip || writes i CsrAddr.sip then keepBits sieBits v
      else csr.mipSw
    mideleg := if writes i CsrAddr.mideleg then keepBits midelegBits v else csr.mideleg
    medeleg := if writes i CsrAddr.medeleg then keepBits medelegBits v else csr.medeleg
    stvec := if writes i CsrAddr.stvec then v else csr.stvec
    sscratch := if writes i CsrAddr.sscratch then v else csr.sscratch
    sepc := if toS then i.trapPc else if writes i CsrAddr.sepc then v else csr.sepc
    scause :=
      if toS then causeWord i else if writes i CsrAddr.scause then v else csr.scause
    stval :=
      if toS then i.trapValue else if writes i CsrAddr.stval then v else csr.stval
    satp := if writes i CsrAddr.satp then v else csr.satp
    privMode := csr.nextPrivMode i
    fflags :=
      if i.fpFlagsWe then csr.fflags ||| i.fpFlagsIn
      else if writes i CsrAddr.fflags || writes i CsrAddr.fcsr then v.setWidth 5
      else csr.fflags
    frm :=
      if writes i CsrAddr.frm then v.setWidth 3
      else if writes i CsrAddr.fcsr then v.extractLsb' 5 3
      else csr.frm
    vstart := if writes i CsrAddr.vstart then v.setWidth 16 else csr.vstart
    vtypeFields := if i.vecCfgWriteEn then i.vecCfgNewVtype else csr.vtypeFields
    vill := if i.vecCfgWriteEn then i.vecCfgNewVill else csr.vill
    vl := if i.vecCfgWriteEn then i.vecCfgNewVl else csr.vl
    vxrm :=
      if writes i CsrAddr.vxrm then v.setWidth 2
      else if writes i CsrAddr.vcsr then v.extractLsb' 1 2
      else csr.vxrm
    vxsat :=
      if writes i CsrAddr.vxsat || writes i CsrAddr.vcsr then v.getLsbD 0 else csr.vxsat
    mcycle :=
      countStep csr.mcycle (writes i CsrAddr.mcycle) (writes i CsrAddr.mcycleh)
        (!csr.mcountinhibit.getLsbD 0) v
    minstret :=
      countStep csr.minstret (writes i CsrAddr.minstret) (writes i CsrAddr.minstreth)
        (i.instretPulse && !csr.mcountinhibit.getLsbD 2) v
    mcountinhibit :=
      if writes i CsrAddr.mcountinhibit then v &&& BitVec.ofNat w 0xFFD
      else csr.mcountinhibit
    mhpmcounter := csr.nextHpmCounter vlen i
    mhpmevent := fun k =>
      if i.writeEn && decide (CsrAddr.bankIndex CsrAddr.mhpmevent3Base i.addr = some k) then
        v.setWidth 5
      else csr.mhpmevent k }

end Csr
end Block
end RvCores
