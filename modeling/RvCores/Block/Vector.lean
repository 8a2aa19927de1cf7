import Mathlib.Data.BitVec
import Mathlib.Data.Nat.Log

/-!
# Vector arithmetic and vector memory units

Both units walk over the elements of one vector register, one element per step.
An element is active when it is below the vector length and not masked off; an
inactive element leaves zeros behind.
-/

namespace RvCores
namespace Block

variable {vlen : Nat}

def elemWidth (sew : BitVec 3) : Nat := (8 <<< sew.toNat) % 256

def elemCount (vlen : Nat) (sew : BitVec 3) : Nat := (vlen / 8) >>> sew.toNat

def elemMask (width : Nat) : BitVec 64 :=
  if width >= 64 then BitVec.allOnes 64
  else (BitVec.allOnes 64 <<< width) ^^^ BitVec.allOnes 64

def elemSlice (v : BitVec vlen) (shift width : Nat) : BitVec 64 :=
  (v >>> shift).setWidth 64 &&& elemMask width

def mergeSlice (old : BitVec vlen) (mask data : BitVec vlen) : BitVec vlen :=
  (old &&& ~~~mask) ||| (data &&& mask)

def elemActive (elem vl : Nat) (vm : Bool) (v0 : BitVec vlen) : Bool :=
  decide (elem < vl) && (vm || v0.getLsbD elem)

/-!
# Arithmetic
-/

def vfunct6Add : BitVec 6 := 0x00
def vfunct6Sub : BitVec 6 := 0x02
def vfunct6Rsub : BitVec 6 := 0x03
def vfunct6Minu : BitVec 6 := 0x04
def vfunct6Min : BitVec 6 := 0x05
def vfunct6Maxu : BitVec 6 := 0x06
def vfunct6Max : BitVec 6 := 0x07
def vfunct6And : BitVec 6 := 0x09
def vfunct6Or : BitVec 6 := 0x0a
def vfunct6Xor : BitVec 6 := 0x0b
def vfunct6Mseq : BitVec 6 := 0x18
def vfunct6Msne : BitVec 6 := 0x19
def vfunct6Msltu : BitVec 6 := 0x1a
def vfunct6Mslt : BitVec 6 := 0x1b
def vfunct6Msleu : BitVec 6 := 0x1c
def vfunct6Msle : BitVec 6 := 0x1d
def vfunct6Msgtu : BitVec 6 := 0x1e
def vfunct6Msgt : BitVec 6 := 0x1f

/-!
The number of a byte of the register, a count of bytes, a bit position, and the vector
length on the port.
-/

def eidxBits (vlen : Nat) : Nat := Nat.clog 2 (vlen / 8)

def cntBits (vlen : Nat) : Nat := eidxBits vlen + 1

def shiftBits (vlen : Nat) : Nat := Nat.clog 2 vlen

def vlBits (vlen : Nat) : Nat := Nat.clog 2 (vlen / 8 + 1)

structure Valu (vlen : Nat) where
  busy : Bool
  done : Bool
  result : BitVec vlen
  elem : BitVec (eidxBits vlen)
  shift : BitVec (shiftBits vlen)
  vs2 : BitVec vlen
  vs1 : BitVec vlen
  v0 : BitVec vlen
  scalar : BitVec 64
  useScalar : Bool
  vm : Bool
  vsew : BitVec 3
  vl : BitVec (cntBits vlen)
  funct6 : BitVec 6

structure ValuIn (vlen : Nat) where
  start : Bool
  vs2Data : BitVec vlen
  vs1Data : BitVec vlen
  scalarData : BitVec 64
  useScalar : Bool
  v0Data : BitVec vlen
  vm : Bool
  vsew : BitVec 3
  vl : BitVec (vlBits vlen)
  funct6 : BitVec 6

namespace Valu

def sextElem (v : BitVec 64) (width : Nat) : BitVec 64 :=
  if v.getLsbD (width - 1) then v ||| (BitVec.allOnes 64 <<< width) else v

def arith (funct6 : BitVec 6) (a b : BitVec 64) (width : Nat) : BitVec 64 :=
  let sa := sextElem a width
  let sb := sextElem b width
  if funct6 = vfunct6Add then a + b
  else if funct6 = vfunct6Sub then a - b
  else if funct6 = vfunct6Rsub then b - a
  else if funct6 = vfunct6And then a &&& b
  else if funct6 = vfunct6Or then a ||| b
  else if funct6 = vfunct6Xor then a ^^^ b
  else if funct6 = vfunct6Minu then if a.ult b then a else b
  else if funct6 = vfunct6Min then if sa.slt sb then a else b
  else if funct6 = vfunct6Maxu then if b.ult a then a else b
  else if funct6 = vfunct6Max then if sb.slt sa then a else b
  else 0

def isCmp (funct6 : BitVec 6) : Bool := decide (funct6.extractLsb 5 3 = 0b011#3)

def cmpBit (funct6 : BitVec 6) (a b : BitVec 64) (width : Nat) : Bool :=
  let sa := sextElem a width
  let sb := sextElem b width
  if funct6 = vfunct6Mseq then decide (a = b)
  else if funct6 = vfunct6Msne then decide (a ≠ b)
  else if funct6 = vfunct6Msltu then a.ult b
  else if funct6 = vfunct6Mslt then sa.slt sb
  else if funct6 = vfunct6Msleu then a.ule b
  else if funct6 = vfunct6Msle then sa.sle sb
  else if funct6 = vfunct6Msgtu then b.ult a
  else if funct6 = vfunct6Msgt then sb.slt sa
  else false

def reset (valu : Valu vlen) : Valu vlen :=
  { valu with busy := false, done := false }

def begin (valu : Valu vlen) (i : ValuIn vlen) : Valu vlen :=
  { valu with
    busy := true
    done := false
    elem := 0
    shift := 0
    vs2 := i.vs2Data
    vs1 := i.vs1Data
    v0 := i.v0Data
    scalar := i.scalarData
    useScalar := i.useScalar
    vm := i.vm
    vsew := i.vsew
    vl := i.vl.setWidth _
    funct6 := i.funct6
    result := 0 }

def iterate (valu : Valu vlen) : Valu vlen :=
  let width := elemWidth valu.vsew
  let a := elemSlice valu.vs2 valu.shift.toNat width
  let b :=
    if valu.useScalar then valu.scalar &&& elemMask width
    else elemSlice valu.vs1 valu.shift.toNat width
  let active := elemActive valu.elem.toNat valu.vl.toNat valu.vm valu.v0
  let bitPos : BitVec vlen := (1 : BitVec vlen) <<< valu.elem.toNat
  let mask :=
    if isCmp valu.funct6 then bitPos
    else (elemMask width).setWidth vlen <<< valu.shift.toNat
  let data : BitVec vlen :=
    if isCmp valu.funct6 then
      if active && cmpBit valu.funct6 a b width then bitPos else 0
    else if active then (arith valu.funct6 a b width).setWidth vlen <<< valu.shift.toNat
    else 0
  let last := decide (valu.elem.toNat + 1 = elemCount vlen valu.vsew)
  { valu with
    result := mergeSlice valu.result mask data
    busy := if last then false else valu.busy
    done := last
    elem := if last then valu.elem else valu.elem + 1
    shift := if last then valu.shift else valu.shift + BitVec.ofNat _ width }

def step (valu : Valu vlen) (i : ValuIn vlen) : Valu vlen :=
  if i.start && !valu.busy then valu.begin i
  else if valu.busy then valu.iterate
  else { valu with done := false }

/-!
The unit is occupied from the cycle after a start to the cycle of the done pulse.
-/

theorem step_occupied (valu : Valu vlen) (i : ValuIn vlen) :
    ((valu.step i).busy || (valu.step i).done) = ((i.start && !valu.busy) || valu.busy) := by
  cases hbusy : valu.busy with
  | true =>
      simp only [step, hbusy, Bool.not_true, Bool.and_false, Bool.false_eq_true,
        if_false, if_true]
      by_cases hlast : valu.elem.toNat + 1 = elemCount vlen valu.vsew <;>
        simp [iterate, hlast, hbusy]
  | false =>
      cases hstart : i.start <;> simp [step, begin, hstart, hbusy]

theorem step_exclusive (valu : Valu vlen) (i : ValuIn vlen) :
    ¬ ((valu.step i).busy = true ∧ (valu.step i).done = true) := by
  cases hbusy : valu.busy with
  | true =>
      simp only [step, hbusy, Bool.not_true, Bool.and_false, Bool.false_eq_true,
        if_false, if_true]
      by_cases hlast : valu.elem.toNat + 1 = elemCount vlen valu.vsew <;> simp [iterate, hlast]
  | false =>
      cases hstart : i.start <;> simp [step, begin, hstart, hbusy]

end Valu

/-!
# Unit-stride memory access

Requests to the data memory are registered, so they appear on the port in the
cycle after the state that issues them.
-/

inductive VlsuState where
  | idle
  | loadIssue
  | loadWait
  | loadCapture
  | storeIssue
deriving DecidableEq, Repr

structure Vlsu (vlen : Nat) where
  state : VlsuState
  done : Bool
  memRead : Bool
  memWrite : Bool
  memAddress : BitVec 64
  memWriteData : BitVec 64
  memFunct3 : BitVec 3
  result : BitVec vlen
  elem : Nat
  shift : Nat
  storeData : BitVec vlen
  v0 : BitVec vlen
  baseAddr : BitVec 64
  vm : Bool
  eew : BitVec 3
  vl : Nat
  isStore : Bool

structure VlsuIn (vlen : Nat) where
  start : Bool
  isStore : Bool
  baseAddr : BitVec 64
  storeData : BitVec vlen
  eew : BitVec 3
  v0Data : BitVec vlen
  vm : Bool
  vl : Nat
  memReadData : BitVec 64

namespace Vlsu

def busy (u : Vlsu vlen) : Bool := decide (u.state ≠ .idle)

def eewCode (u : Vlsu vlen) : BitVec 3 := (u.eew.setWidth 2).setWidth 3

def width (u : Vlsu vlen) : Nat := elemWidth u.eewCode

def active (u : Vlsu vlen) : Bool := elemActive u.elem u.vl u.vm u.v0

def last (u : Vlsu vlen) : Bool := decide (u.elem + 1 = elemCount vlen u.eewCode)

def elemAddress (u : Vlsu vlen) : BitVec 64 :=
  u.baseAddr + BitVec.ofNat 64 (u.width / 8) * BitVec.ofNat 64 u.elem

def loadFunct3 (u : Vlsu vlen) : BitVec 3 :=
  if u.eewCode = 0 then 0b100 else if u.eewCode = 1 then 0b101
  else if u.eewCode = 2 then 0b110 else 0b011

def storeFunct3 (u : Vlsu vlen) : BitVec 3 := u.eewCode

def reset (u : Vlsu vlen) : Vlsu vlen :=
  { u with state := .idle, done := false, memRead := false, memWrite := false }

def begin (u : Vlsu vlen) (i : VlsuIn vlen) : Vlsu vlen :=
  { u with
    elem := 0
    shift := 0
    storeData := i.storeData
    v0 := i.v0Data
    baseAddr := i.baseAddr
    vm := i.vm
    eew := i.eew
    vl := i.vl
    isStore := i.isStore
    result := 0
    state := if i.isStore then .storeIssue else .loadIssue }

/--
Move on to the next element in the given state, or finish after the last.
-/
def advance (u : Vlsu vlen) (next : VlsuState) : Vlsu vlen :=
  if u.last then { u with state := .idle, done := true }
  else
    { u with
      elem := (u.elem + 1) % (vlen / 8)
      shift := (u.shift + u.width) % vlen
      state := next }

def capture (u : Vlsu vlen) (readData : BitVec 64) : Vlsu vlen :=
  let mask : BitVec vlen := (elemMask u.width).setWidth vlen <<< u.shift
  let data : BitVec vlen := (readData &&& elemMask u.width).setWidth vlen <<< u.shift
  { u with result := mergeSlice u.result mask data }

def step (u : Vlsu vlen) (i : VlsuIn vlen) : Vlsu vlen :=
  let quiet := { u with done := false, memRead := false, memWrite := false }
  match u.state with
  | .idle => if i.start then quiet.begin i else quiet
  | .loadIssue =>
      if u.active then
        { quiet with
          memRead := true
          memAddress := u.elemAddress
          memFunct3 := u.loadFunct3
          state := .loadWait }
      else quiet.advance .loadIssue
  | .loadWait => { quiet with state := .loadCapture }
  | .loadCapture => (quiet.capture i.memReadData).advance .loadIssue
  | .storeIssue =>
      let issued :=
        if u.active then
          { quiet with
            memWrite := true
            memAddress := u.elemAddress
            memWriteData := elemSlice u.storeData u.shift u.width
            memFunct3 := u.storeFunct3 }
        else quiet
      issued.advance .storeIssue

theorem advance_occupied (u : Vlsu vlen) {next : VlsuState} (hnext : next ≠ .idle) :
    ((u.advance next).busy || (u.advance next).done) = true := by
  cases hlast : u.last <;> simp [advance, hlast, busy, hnext]

theorem advance_exclusive (u : Vlsu vlen) {next : VlsuState} (hdone : u.done = false) :
    ¬ ((u.advance next).busy = true ∧ (u.advance next).done = true) := by
  cases hlast : u.last <;> simp [advance, hlast, busy, hdone]

theorem step_occupied (u : Vlsu vlen) (i : VlsuIn vlen) :
    ((u.step i).busy || (u.step i).done) = ((i.start && !u.busy) || u.busy) := by
  cases hstate : u.state with
  | idle =>
      cases hstart : i.start <;> cases hstore : i.isStore <;>
        simp [step, begin, busy, hstate, hstart, hstore]
  | loadIssue =>
      have hbusy : u.busy = true := by simp [busy, hstate]
      cases hactive : u.active with
      | true => simp [step, hstate, hactive, busy]
      | false =>
          simpa [step, hstate, hactive, hbusy] using
            advance_occupied _  (by decide)
  | loadWait => simp [step, busy, hstate]
  | loadCapture =>
      have hbusy : u.busy = true := by simp [busy, hstate]
      simpa [step, hstate, hbusy] using advance_occupied _  (by decide)
  | storeIssue =>
      have hbusy : u.busy = true := by simp [busy, hstate]
      simpa [step, hstate, hbusy] using advance_occupied _  (by decide)

theorem step_exclusive (u : Vlsu vlen) (i : VlsuIn vlen) :
    ¬ ((u.step i).busy = true ∧ (u.step i).done = true) := by
  cases hstate : u.state with
  | idle => cases hstart : i.start <;> simp [step, begin, hstate, hstart]
  | loadIssue =>
      cases hactive : u.active with
      | true => simp [step, hstate, hactive]
      | false =>
          simp only [step, hstate, hactive, Bool.false_eq_true, if_false]
          exact advance_exclusive _ rfl
  | loadWait => simp [step, hstate]
  | loadCapture =>
      simp only [step, hstate]
      exact advance_exclusive _ rfl
  | storeIssue =>
      simp only [step, hstate]
      apply advance_exclusive
      cases u.active <;> rfl

end Vlsu
end Block
end RvCores
