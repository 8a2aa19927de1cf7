import Mathlib.Data.BitVec

/-!
# Supervisor calls

The firmware answers a call on the saved registers of the caller: the number of the call
is in `a7`, the function in `a6`, and the error and the value go to `a0` and `a1`.  A
machine timer interrupt is handed on as a supervisor timer interrupt.
-/

namespace RvCores
namespace Firmware

-- Named once, so that a register number carries the same proof in every module.
scoped instance reg_neZero : NeZero 32 := ⟨by decide⟩

/--
The saved registers, by register number.
-/
abbrev SavedRegs := Fin 32 -> BitVec 64

/--
What the calls change outside the saved registers.
-/
structure Devices where
  mip : BitVec 64
  mtimecmp : BitVec 64
  sent : List (BitVec 8)
deriving DecidableEq, Repr

/--
What the calls read: the word behind the mask pointer of the older call, and a byte
waiting at the port.
-/
structure Readings where
  mask : BitVec 64
  received : Option (BitVec 8)

def regA0 : Fin 32 := 10
def regA1 : Fin 32 := 11
def regA6 : Fin 32 := 16
def regA7 : Fin 32 := 17

def sbiSuccess : BitVec 64 := 0
def sbiErrNotSupp : BitVec 64 := -2

def eidSetTimer : BitVec 64 := 0x00
def eidConsolePutchar : BitVec 64 := 0x01
def eidConsoleGetchar : BitVec 64 := 0x02
def eidClearIpi : BitVec 64 := 0x03
def eidSendIpi : BitVec 64 := 0x04
def eidRemoteFenceI : BitVec 64 := 0x05
def eidRemoteSfenceVma : BitVec 64 := 0x06
def eidRemoteSfenceAsid : BitVec 64 := 0x07
def eidShutdown : BitVec 64 := 0x08
def eidBase : BitVec 64 := 0x10
def eidTime : BitVec 64 := 0x54494D45
def eidIpi : BitVec 64 := 0x00735049
def eidRfence : BitVec 64 := 0x52464E43

def mcauseEcallFromS : BitVec 64 := 9
def mcauseIntMachineTimer : BitVec 64 := 0x80000007

def mipSsip : BitVec 64 := 1#64 <<< 1
def mipStip : BitVec 64 := 1#64 <<< 5

def Devices.mipSet (dev : Devices) (mask : BitVec 64) : Devices :=
  { dev with mip := dev.mip ||| mask }

def Devices.mipClear (dev : Devices) (mask : BitVec 64) : Devices :=
  { dev with mip := dev.mip &&& ~~~mask }

def setTimer (dev : Devices) (target : BitVec 64) : Devices :=
  Devices.mipClear { dev with mtimecmp := target } mipStip

structure Answer where
  err : BitVec 64 := sbiSuccess
  val : BitVec 64 := 0
  dev : Devices

def notSupported (dev : Devices) : Answer := { err := sbiErrNotSupp, dev := dev }

def probe (eid : BitVec 64) : BitVec 64 :=
  if eid <= eidShutdown ∨ eid = eidBase ∨ eid = eidTime ∨ eid = eidIpi ∨ eid = eidRfence then 1
  else 0

def baseCall (version fid a0 : BitVec 64) (dev : Devices) : Answer :=
  if fid = 0 then { val := version, dev := dev }
  else if fid = 1 then { val := 0x5350355253, dev := dev }
  else if fid = 2 then { val := 1, dev := dev }
  else if fid = 3 then { val := probe a0, dev := dev }
  else if fid = 4 ∨ fid = 5 ∨ fid = 6 then { val := 0, dev := dev }
  else notSupported dev

def getchar : Option (BitVec 8) -> BitVec 64
  | some byte => byte.setWidth 64
  | none => -1

/--
A call to shut down does not return.
-/
def sbiSwitch (version : BitVec 64) (regs : SavedRegs) (seen : Readings) (dev : Devices) :
    Option Answer :=
  let eid := regs regA7
  let fid := regs regA6
  let a0 := regs regA0
  let a1 := regs regA1
  if eid = eidBase then some (baseCall version fid a0 dev)
  else if eid = eidSetTimer then some { dev := setTimer dev a0 }
  else if eid = eidTime then
    some (if fid = 0 then { dev := setTimer dev a0 } else notSupported dev)
  else if eid = eidConsolePutchar then
    some { dev := { dev with sent := a0.setWidth 8 :: dev.sent } }
  else if eid = eidConsoleGetchar then some { val := getchar seen.received, dev := dev }
  else if eid = eidClearIpi then some { dev := dev.mipClear mipSsip }
  else if eid = eidSendIpi then
    some { dev := if seen.mask.getLsbD 0 then dev.mipSet mipSsip else dev }
  else if eid = eidIpi then
    some
      (if fid = 0 then
        { dev := if a0.getLsbD 0 ∧ a1 = 0 then dev.mipSet mipSsip else dev }
      else notSupported dev)
  else if eid = eidRemoteFenceI ∨ eid = eidRemoteSfenceVma ∨ eid = eidRemoteSfenceAsid then
    some { dev := dev }
  else if eid = eidRfence then
    some (if fid = 0 ∨ fid = 1 ∨ fid = 2 then { dev := dev } else notSupported dev)
  else if eid = eidShutdown then none
  else some (notSupported dev)

def putAnswer (regs : SavedRegs) (answer : Answer) : SavedRegs :=
  fun r => if r = regA0 then answer.err else if r = regA1 then answer.val else regs r

def sbiDispatchEcall (version : BitVec 64) (regs : SavedRegs) (seen : Readings) (dev : Devices) :
    Option (SavedRegs × Devices) :=
  (sbiSwitch version regs seen dev).map (fun answer => (putAnswer regs answer, answer.dev))

def sbiDispatch (version mcause : BitVec 64) (regs : SavedRegs) (seen : Readings)
    (dev : Devices) : Option (SavedRegs × Devices) :=
  if mcause = mcauseEcallFromS then sbiDispatchEcall version regs seen dev
  else if mcause = mcauseIntMachineTimer then
    some (regs, Devices.mipSet { dev with mtimecmp := -1 } mipStip)
  else none

/-!
# What a caller keeps
-/

section

variable {version mcause : BitVec 64} {regs regs' : SavedRegs} {seen : Readings}
  {dev dev' : Devices}

/--
A call changes no saved register but those of the answer.
-/
theorem sbiDispatchEcall_frame
    (h : sbiDispatchEcall version regs seen dev = some (regs', dev')) {r : Fin 32}
    (ha0 : r ≠ regA0) (ha1 : r ≠ regA1) : regs' r = regs r := by
  unfold sbiDispatchEcall at h
  rw [Option.map_eq_some_iff] at h
  obtain ⟨answer, -, hanswer⟩ := h
  have hregs : putAnswer regs answer = regs' := congrArg Prod.fst hanswer
  rw [← hregs]
  unfold putAnswer
  rw [if_neg ha0, if_neg ha1]

theorem sbiDispatch_timer_frame
    (h : sbiDispatch version mcauseIntMachineTimer regs seen dev = some (regs', dev')) :
    regs' = regs := by
  unfold sbiDispatch at h
  rw [if_neg (by decide), if_pos rfl] at h
  exact (congrArg Prod.fst (Option.some.inj h)).symm

theorem isSome_ite_some {α : Type} {c : Prop} [Decidable c] {x : α} {o : Option α}
    (h : o.isSome = true) : (if c then some x else o).isSome = true := by
  split
  · rfl
  · exact h

theorem sbiDispatch_frame
    (h : sbiDispatch version mcause regs seen dev = some (regs', dev')) {r : Fin 32}
    (ha0 : r ≠ regA0) (ha1 : r ≠ regA1) : regs' r = regs r := by
  unfold sbiDispatch at h
  split at h
  · exact sbiDispatchEcall_frame h ha0 ha1
  · split at h
    · exact (congrFun (congrArg Prod.fst (Option.some.inj h)) r).symm
    · cases h

/--
Every call but the one to shut down is answered.
-/
theorem sbiSwitch_answers (hne : regs regA7 ≠ eidShutdown) :
    exists answer, sbiSwitch version regs seen dev = some answer := by
  rw [← Option.isSome_iff_exists]
  unfold sbiSwitch
  dsimp only
  iterate 10 apply isSome_ite_some
  rw [if_neg hne]
  rfl

theorem sbiDispatch_ecall_answers (hne : regs regA7 ≠ eidShutdown) :
    exists out, sbiDispatch version mcauseEcallFromS regs seen dev = some out := by
  obtain ⟨answer, hanswer⟩ := @sbiSwitch_answers version regs seen dev hne
  unfold sbiDispatch sbiDispatchEcall
  rw [if_pos rfl, hanswer]
  exact ⟨_, rfl⟩

theorem sbiDispatch_timer_answers :
    exists out, sbiDispatch version mcauseIntMachineTimer regs seen dev = some out := by
  unfold sbiDispatch
  rw [if_neg (by decide), if_pos rfl]
  exact ⟨_, rfl⟩

end

end Firmware
end RvCores
