import Mathlib.Data.BitVec
import Mathlib.Data.Nat.Log

/-!
# Serial port

A register-compatible 16550 without its queues.  The transmitter and the receiver count
clock cycles on their own; all they share is the number of cycles in a bit.
-/

namespace RvCores
namespace Block

structure UartIn where
  rst : Bool
  sCyc : Bool
  sStb : Bool
  sWe : Bool
  sAddr : BitVec 32
  sDataO : BitVec 32
  rx : Bool
deriving DecidableEq, Repr

namespace UartIn

def busWrite (i : UartIn) : Bool := i.sCyc && i.sStb && i.sWe
def busRead (i : UartIn) : Bool := i.sCyc && i.sStb && !i.sWe
def sAck (i : UartIn) : Bool := i.sCyc && i.sStb
def regSel (i : UartIn) : BitVec 3 := i.sAddr.extractLsb' 2 3
def byteO (i : UartIn) : BitVec 8 := i.sDataO.setWidth 8

end UartIn

def regRbrThrDll : BitVec 3 := 0
def regIerDlm : BitVec 3 := 1
def regIirFcr : BitVec 3 := 2
def regLcr : BitVec 3 := 3
def regMcr : BitVec 3 := 4
def regLsr : BitVec 3 := 5
def regMsr : BitVec 3 := 6
def regScr : BitVec 3 := 7

/-!
# Storage
-/

structure UartRegs where
  ier : BitVec 8
  lcr : BitVec 8
  mcr : BitVec 8
  scr : BitVec 8
  dll : BitVec 8
  dlm : BitVec 8
deriving DecidableEq, Repr

namespace UartRegs

def dlab (r : UartRegs) : Bool := r.lcr.getLsbD 7

def reset : UartRegs := { ier := 0, lcr := 0, mcr := 0, scr := 0, dll := 0, dlm := 0 }

def step (r : UartRegs) (i : UartIn) : UartRegs :=
  if i.busWrite then
    if i.regSel = regRbrThrDll then if r.dlab then { r with dll := i.byteO } else r
    else if i.regSel = regIerDlm then
      if r.dlab then { r with dlm := i.byteO } else { r with ier := i.byteO }
    else if i.regSel = regLcr then { r with lcr := i.byteO }
    else if i.regSel = regMcr then { r with mcr := i.byteO }
    else if i.regSel = regScr then { r with scr := i.byteO }
    else r
  else r

/--
A write to the transmit holding register, and a read of the receive buffer register.
-/
def thrWrite? (r : UartRegs) (i : UartIn) : Option (BitVec 8) :=
  if i.busWrite && decide (i.regSel = regRbrThrDll) && !r.dlab then some i.byteO else none

def rbrRead (r : UartRegs) (i : UartIn) : Bool :=
  i.busRead && decide (i.regSel = regRbrThrDll) && !r.dlab

end UartRegs

/-!
# Cycle counters

Both machines compare their counter with a last value.  The comparison is stated with the
one moved to the other side, which is the same for every divisor and needs no borrow.
-/

def cntWidth (clksPerBit : Nat) : Nat := Nat.clog 2 (clksPerBit + 1)

def nextCount (clksPerBit count : Nat) : Nat := (count + 1) % 2 ^ cntWidth clksPerBit

theorem nextCount_eq {clksPerBit count : Nat} (h : count < clksPerBit) :
    nextCount clksPerBit count = count + 1 := by
  have hfits : clksPerBit + 1 <= 2 ^ cntWidth clksPerBit :=
    Nat.le_pow_clog (by decide) (clksPerBit + 1)
  exact Nat.mod_eq_of_lt (by omega)

/-!
# Transmitter
-/

inductive TxState where
  | idle
  | start
  | data
  | stop
deriving DecidableEq, Repr

structure UartTx where
  state : TxState
  tx : Bool
  clkCount : Nat
  bitIndex : BitVec 3
  shiftReg : BitVec 8
deriving DecidableEq, Repr

namespace UartTx

def busy (t : UartTx) : Bool := decide (t.state ≠ .idle)

/--
The shift register has no reset.
-/
def reset (t : UartTx) : UartTx :=
  { t with state := .idle, tx := true, clkCount := 0, bitIndex := 0 }

def step (clksPerBit : Nat) (t : UartTx) (thrWrite : Option (BitVec 8)) : UartTx :=
  match t.state with
  | .idle =>
      match thrWrite with
      | some byte => { t with tx := true, shiftReg := byte, state := .start, clkCount := 0 }
      | none => { t with tx := true }
  | .start =>
      if t.clkCount + 1 = clksPerBit then
        { t with tx := false, clkCount := 0, bitIndex := 0, state := .data }
      else { t with tx := false, clkCount := nextCount clksPerBit t.clkCount }
  | .data =>
      let out := t.shiftReg.getLsbD t.bitIndex.toNat
      if t.clkCount + 1 = clksPerBit then
        if t.bitIndex = 7 then { t with tx := out, clkCount := 0, state := .stop }
        else { t with tx := out, clkCount := 0, bitIndex := t.bitIndex + 1 }
      else { t with tx := out, clkCount := nextCount clksPerBit t.clkCount }
  | .stop =>
      if t.clkCount + 1 = clksPerBit then { t with tx := true, clkCount := 0, state := .idle }
      else { t with tx := true, clkCount := nextCount clksPerBit t.clkCount }

end UartTx

/-!
# Receiver
-/

inductive RxState where
  | idle
  | start
  | data
  | stop
deriving DecidableEq, Repr

structure UartRx where
  state : RxState
  clkCount : Nat
  bitIndex : BitVec 3
  shiftReg : BitVec 8
  dataReg : BitVec 8
  ready : Bool
  prev : Bool
deriving DecidableEq, Repr

def setBit (x : BitVec 8) (k : Nat) (bit : Bool) : BitVec 8 :=
  if bit then x ||| (1#8 <<< k) else x &&& ~~~(1#8 <<< k)

theorem getLsbD_setBit (x : BitVec 8) (k : Nat) (bit : Bool) {j : Nat} (hj : j < 8) :
    (setBit x k bit).getLsbD j = if j = k then bit else x.getLsbD j := by
  unfold setBit
  by_cases hjk : j = k
  · subst hjk
    cases bit with
    | false => simp [hj]
    | true => simp [hj]
  · have hother : (1#8 <<< k).getLsbD j = false := by
      rw [BitVec.getLsbD_shiftLeft, BitVec.getLsbD_one]
      simp only [Bool.and_eq_false_iff, Bool.not_eq_false', decide_eq_true_eq,
        decide_eq_false_iff_not]
      omega
    cases bit with
    | false =>
        rw [if_neg Bool.false_ne_true, if_neg hjk, BitVec.getLsbD_and, BitVec.getLsbD_not, hother]
        simp [hj]
    | true => rw [if_pos rfl, if_neg hjk, BitVec.getLsbD_or, hother, Bool.or_false]

namespace UartRx

def reset (r : UartRx) : UartRx :=
  { r with
    state := .idle, clkCount := 0, bitIndex := 0, dataReg := 0, ready := false, prev := true }

/--
The line is looked at half a bit after the falling edge, and then once in every bit.  A byte
that completes in the cycle of a read counts as unread.
-/
def step (clksPerBit : Nat) (r : UartRx) (rbrRead rx : Bool) : UartRx :=
  let ready := if rbrRead then false else r.ready
  match r.state with
  | .idle =>
      if r.prev && !rx then
        { r with prev := rx, ready := ready, clkCount := 0, state := .start }
      else { r with prev := rx, ready := ready, clkCount := 0 }
  | .start =>
      if r.clkCount + 1 = clksPerBit / 2 then
        if !rx then
          { r with prev := rx, ready := ready, clkCount := 0, bitIndex := 0, state := .data }
        else { r with prev := rx, ready := ready, state := .idle }
      else
        { r with prev := rx, ready := ready, clkCount := nextCount clksPerBit r.clkCount }
  | .data =>
      if r.clkCount + 1 = clksPerBit then
        let shiftReg := setBit r.shiftReg r.bitIndex.toNat rx
        if r.bitIndex = 7 then
          { r with
            prev := rx, ready := ready, clkCount := 0, shiftReg := shiftReg, state := .stop }
        else
          { r with
            prev := rx
            ready := ready
            clkCount := 0
            shiftReg := shiftReg
            bitIndex := r.bitIndex + 1 }
      else
        { r with prev := rx, ready := ready, clkCount := nextCount clksPerBit r.clkCount }
  | .stop =>
      if r.clkCount + 1 = clksPerBit then
        { r with
          prev := rx, dataReg := r.shiftReg, ready := true, state := .idle, clkCount := 0 }
      else
        { r with prev := rx, ready := ready, clkCount := nextCount clksPerBit r.clkCount }

/--
The byte that completes in this cycle.
-/
def completes? (clksPerBit : Nat) (r : UartRx) : Option (BitVec 8) :=
  if r.state = .stop ∧ r.clkCount + 1 = clksPerBit then some r.shiftReg else none

section Step

variable (clksPerBit : Nat) (r : UartRx) (rbrRead rx : Bool)

theorem completes_of_ne (h : r.state ≠ .stop) : r.completes? clksPerBit = none := by
  unfold completes?
  rw [if_neg fun hstop => h hstop.left]

theorem step_prev : (r.step clksPerBit rbrRead rx).prev = rx := by
  unfold step
  cases r.state <;> dsimp only <;> split_ifs <;> rfl

/--
What software sees of the receiver changes when a byte completes and when it is read.
-/
theorem step_dataReg :
    (r.step clksPerBit rbrRead rx).dataReg = (r.completes? clksPerBit).getD r.dataReg := by
  cases hstate : r.state with
  | stop =>
      unfold step completes?
      rw [hstate]
      by_cases hlast : r.clkCount + 1 = clksPerBit
      · simp [hlast]
      · simp [hlast]
  | _ =>
      rw [completes_of_ne clksPerBit r (by rw [hstate]; decide)]
      unfold step
      rw [hstate]
      dsimp only
      split_ifs <;> rfl

theorem step_ready :
    (r.step clksPerBit rbrRead rx).ready =
      ((r.completes? clksPerBit).isSome || (r.ready && !rbrRead)) := by
  have hread : (if rbrRead = true then false else r.ready) = (r.ready && !rbrRead) := by
    cases rbrRead <;> simp
  cases hstate : r.state with
  | stop =>
      unfold step completes?
      rw [hstate]
      by_cases hlast : r.clkCount + 1 = clksPerBit
      · simp [hlast]
      · simp [hlast, hread]
  | _ =>
      rw [completes_of_ne clksPerBit r (by rw [hstate]; decide)]
      unfold step
      rw [hstate, hread]
      dsimp only
      split_ifs <;> rfl

end Step

end UartRx

/-!
# The port
-/

structure Uart where
  regs : UartRegs
  tx : UartTx
  rx : UartRx
deriving DecidableEq, Repr

namespace Uart

def step (clksPerBit : Nat) (u : Uart) (i : UartIn) : Uart :=
  if i.rst then
    { regs := u.regs.step i
      tx := u.tx.step clksPerBit (u.regs.thrWrite? i)
      rx := u.rx.step clksPerBit (u.regs.rbrRead i) i.rx }
  else
    { regs := UartRegs.reset, tx := u.tx.reset, rx := u.rx.reset }

def lsr (u : Uart) : BitVec 8 :=
  BitVec.ofBool false ++ BitVec.ofBool (!u.tx.busy) ++ BitVec.ofBool (!u.tx.busy) ++ 0#4 ++
    BitVec.ofBool u.rx.ready

def pendingRx (u : Uart) : Bool := u.regs.ier.getLsbD 0 && u.rx.ready
def pendingThr (u : Uart) : Bool := u.regs.ier.getLsbD 1 && !u.tx.busy
def irq (u : Uart) : Bool := u.pendingRx || u.pendingThr

def iir4 (u : Uart) : BitVec 4 :=
  if u.pendingRx then 0b0100 else if u.pendingThr then 0b0010 else 0b0001

def sDataI (u : Uart) (i : UartIn) : BitVec 32 :=
  if i.regSel = regRbrThrDll then
    (if u.regs.dlab then u.regs.dll else u.rx.dataReg).setWidth 32
  else if i.regSel = regIerDlm then
    (if u.regs.dlab then u.regs.dlm else u.regs.ier).setWidth 32
  else if i.regSel = regIirFcr then u.iir4.setWidth 32
  else if i.regSel = regLcr then u.regs.lcr.setWidth 32
  else if i.regSel = regMcr then u.regs.mcr.setWidth 32
  else if i.regSel = regLsr then u.lsr.setWidth 32
  else if i.regSel = regMsr then 0
  else u.regs.scr.setWidth 32

end Uart
end Block
end RvCores
