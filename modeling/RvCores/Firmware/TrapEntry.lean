import RvCores.Firmware.Machine

/-!
# The trap vector of the firmware

A trap may come with every register in use.  The vector swaps one of them for the base of
the saved area, saves the others there, calls the dispatcher on a stack of its own and
loads everything back, the base register last.
-/

namespace RvCores
namespace Firmware

open Lib

/--
Where the image places the saved area and the stack of the trap vector: the area ends
below the frame of the vector.
-/
structure Image where
  trapScratch : BitVec 64
  trapStackTop : BitVec 64
  returnTo : BitVec 64
  below : trapScratch.toNat + 256 + 16 <= trapStackTop.toNat

namespace Image

def frame (img : Image) : BitVec 64 := img.trapStackTop + (-16)

theorem frame_apart (img : Image) (r : Reg) :
    ByteMemory.Apart img.frame (img.trapScratch + slot r) := by
  have hbelow := img.below
  have hr := r.isLt
  unfold ByteMemory.Apart frame slot
  constructor <;> bv_omega

end Image

/--
Every register but the base register, in the order of the vector.
-/
def saved : List Reg :=
  [1, 2, 3, 4, 6, 7, 8, 9, 10, 11, 12, 13, 14, 15, 16, 17, 18, 19, 20, 21, 22, 23, 24, 25, 26,
    27, 28, 29, 30, 31]

theorem mem_saved {r : Reg} (hzero : r ≠ 0) (hbase : r ≠ 5) : r ∈ saved := by
  revert r
  decide

/-!
# The code
-/

def saves : List Instr := saved.map (fun r => .sd r (slot r) 5)

def restores : List Instr := saved.map (fun r => .ld r (slot r) 5)

/--
The base register itself is saved last, when the swap can be undone.
-/
def setup (img : Image) : List Instr :=
  [.csrr 6 .mscratch,
    .sd 6 (slot 5) 5,
    .csrw .mscratch 5,
    .la 2 img.trapStackTop,
    .addi 2 2 (-16),
    .sd 5 0 2,
    .csrr 10 .mcause,
    .mv 11 5]

def prologue (img : Image) : List Instr := [.csrrw 5 .mscratch 5] ++ saves ++ setup img

def afterCall : List Instr :=
  [.ld 5 0 2,
    .addi 2 2 16,
    .csrr 6 .mcause,
    .li 7 9]

def advance : List Instr :=
  [.csrr 6 .mepc,
    .addi 6 6 4,
    .csrw .mepc 6]

def leave : List Instr := restores ++ [.ld 5 (slot 5) 5, .mret]

def trapEntry (img : Image) : List Instr :=
  prologue img ++ (.call img.returnTo :: (afterCall ++ (.bne 6 7 3 :: (advance ++ leave))))

theorem prologue_plain (img : Image) : forall i, i ∈ prologue img -> i.plain = true := by
  intro i hi
  unfold prologue saves setup at hi
  rw [List.mem_append, List.mem_append, List.mem_map] at hi
  rcases hi with (hswap | ⟨r, -, rfl⟩) | hsetup
  · rw [List.mem_singleton] at hswap
    rw [hswap]
    rfl
  · rfl
  · simp only [List.mem_cons, List.not_mem_nil, or_false] at hsetup
    rcases hsetup with rfl | rfl | rfl | rfl | rfl | rfl | rfl | rfl <;> rfl

theorem restores_plain : forall i, i ∈ restores -> i.plain = true := by
  intro i hi
  unfold restores at hi
  rw [List.mem_map] at hi
  obtain ⟨r, -, rfl⟩ := hi
  rfl

/-!
# Up to the call
-/

/--
What the dispatcher finds: every register in its slot, the base in the frame, the cause
and the area as arguments.
-/
structure Called (img : Image) (m c : Machine) : Prop where
  stack : c.reg 2 = img.frame
  cause : c.reg 10 = m.csr .mcause
  area : c.reg 11 = img.trapScratch
  slots : forall r, r ≠ 0 -> c.mem.load (img.trapScratch + slot r) = m.reg r
  frame : c.mem.load img.frame = img.trapScratch
  mscratch : c.csr .mscratch = img.trapScratch
  mepc : c.csr .mepc = m.csr .mepc
  mcause : c.csr .mcause = m.csr .mcause
  dev : c.dev = m.dev

variable {img : Image} {callee : Machine -> Option Machine} {m : Machine}

/--
After the saves the base is in its register, and that register's own value waits in the
scratch register.
-/
structure Saved (img : Image) (m s : Machine) : Prop where
  base : s.reg 5 = img.trapScratch
  slots : forall r, r ≠ 0 -> r ≠ 5 -> s.mem.load (img.trapScratch + slot r) = m.reg r
  mscratch : s.csr .mscratch = m.reg 5
  mepc : s.csr .mepc = m.csr .mepc
  mcause : s.csr .mcause = m.csr .mcause
  dev : s.dev = m.dev

theorem execAll_saving (hscratch : m.csr .mscratch = img.trapScratch) :
    exists s, execAll callee ([.csrrw 5 .mscratch 5] ++ saves) m = some s ∧ Saved img m s := by
  have hswap : execAll callee [.csrrw 5 .mscratch 5] m
      = some ((m.setCsr .mscratch (m.reg 5)).setReg 5 (m.csr .mscratch)) := rfl
  have hbase : ((m.setCsr .mscratch (m.reg 5)).setReg 5 (m.csr .mscratch)).reg 5
      = img.trapScratch := by
    rw [Machine.reg_setReg_self (by decide), hscratch]
  have hkept (r : Reg) (hr : r ≠ 5) :
      ((m.setCsr .mscratch (m.reg 5)).setReg 5 (m.csr .mscratch)).reg r = m.reg r :=
    Machine.reg_setReg_of_ne hr
  have hcsr : ((m.setCsr .mscratch (m.reg 5)).setReg 5 (m.csr .mscratch)).csr
      = setAt m.csr .mscratch (m.reg 5) := Machine.csr_setReg
  have hdev : ((m.setCsr .mscratch (m.reg 5)).setReg 5 (m.csr .mscratch)).dev = m.dev :=
    Machine.dev_setReg
  rw [execAll_append, hswap, Option.bind_some]
  generalize (m.setCsr .mscratch (m.reg 5)).setReg 5 (m.csr .mscratch) = swapped
    at hbase hkept hcsr hdev ⊢
  refine ⟨saveAll swapped saved, ?_, ?_, ?_, ?_, ?_, ?_, ?_⟩
  · unfold saves
    rw [execAll_saves]
  · rw [reg_saveAll, hbase]
  · intro r hzero hr
    rw [← hbase, load_saveAll (mem_saved hzero hr), hkept r hr]
  · rw [csr_saveAll, hcsr, setAt_self]
  · rw [csr_saveAll, hcsr, setAt_of_ne (by decide)]
  · rw [csr_saveAll, hcsr, setAt_of_ne (by decide)]
  · rw [dev_saveAll, hdev]

/--
The last slot, the new stack and the arguments.
-/
def beforeCall (img : Image) (s : Machine) : Machine :=
  let a := (s.setReg 6 (s.csr .mscratch)).store (img.trapScratch + slot 5) (s.csr .mscratch)
  let b := (a.setCsr .mscratch img.trapScratch).setReg 2 img.trapStackTop
  let c := (b.setReg 2 img.frame).store img.frame img.trapScratch
  (c.setReg 10 (s.csr .mcause)).setReg 11 img.trapScratch

section

variable {s : Machine}

theorem execAll_setup (hbase : s.reg 5 = img.trapScratch) :
    execAll callee (setup img) s = some (beforeCall img s) := by
  unfold setup beforeCall Image.frame
  simp [execAll, Instr.exec, Machine.reg_setReg_self, Machine.reg_setReg_of_ne, hbase,
    Machine.csr_setCsr_of_ne]

theorem called_beforeCall (h : Saved img m s) : Called img m (beforeCall img s) where
  stack := by
    unfold beforeCall
    rw [Machine.reg_setReg_of_ne (by decide), Machine.reg_setReg_of_ne (by decide),
      Machine.reg_store, Machine.reg_setReg_self (by decide)]
  cause := by
    unfold beforeCall
    rw [Machine.reg_setReg_of_ne (by decide), Machine.reg_setReg_self (by decide), h.mcause]
  area := Machine.reg_setReg_self (by decide)
  slots := by
    intro r hzero
    simp only [beforeCall, Machine.mem_setReg, Machine.mem_store, Machine.mem_setCsr]
    rw [ByteMemory.load_store_of_apart (img.frame_apart r)]
    by_cases hr : r = 5
    · rw [hr, ByteMemory.load_store, h.mscratch]
    · rw [ByteMemory.load_store_of_apart (slots_apart img.trapScratch (Ne.symm hr))]
      exact h.slots r hzero hr
  frame := by
    simp only [beforeCall, Machine.mem_setReg, Machine.mem_store]
    exact ByteMemory.load_store _ _ _
  mscratch := by simp [beforeCall]
  mepc := by simp [beforeCall, Machine.csr_setCsr_of_ne, h.mepc]
  mcause := by simp [beforeCall, Machine.csr_setCsr_of_ne, h.mcause]
  dev := by simp [beforeCall, h.dev]

end

theorem execAll_prologue (hscratch : m.csr .mscratch = img.trapScratch) :
    exists c, execAll callee (prologue img) m = some c ∧ Called img m c := by
  obtain ⟨s, hsaving, hsaved⟩ := @execAll_saving img callee m hscratch
  refine ⟨beforeCall img s, ?_, called_beforeCall hsaved⟩
  unfold prologue
  rw [execAll_append, hsaving, Option.bind_some, execAll_setup hsaved.base]

/-!
# From the call on
-/

/--
The registers come from the slots, and a call from supervisor mode is stepped over.
-/
structure Restored (img : Image) (d out : Machine) : Prop where
  regs : forall r, r ≠ 0 -> out.reg r = d.mem.load (img.trapScratch + slot r)
  mscratch : out.csr .mscratch = d.csr .mscratch
  mepc : out.csr .mepc
    = if d.csr .mcause = mcauseEcallFromS then d.csr .mepc + 4 else d.csr .mepc
  dev : out.dev = d.dev

theorem runCode_leave {d : Machine} (hbase : d.reg 5 = img.trapScratch) :
    exists out, runCode callee 0 leave d = some out ∧
      (forall r, r ≠ 0 -> out.reg r = d.mem.load (img.trapScratch + slot r)) ∧
      out.csr = d.csr ∧ out.dev = d.dev := by
  have hnotBase : (5 : Reg) ∉ saved := by decide
  have hkept : (restoreAll d saved).reg 5 = img.trapScratch :=
    (reg_restoreAll_of_notMem hnotBase).trans hbase
  have hrestores : execAll callee restores d = some (restoreAll d saved) := by
    unfold restores
    rw [execAll_restores]
  have hregs (r : Reg) (hzero : r ≠ 0) (hr : r ≠ 5) :
      (restoreAll d saved).reg r = d.mem.load (img.trapScratch + slot r) := by
    rw [reg_restoreAll (mem_saved hzero hr) hnotBase (by decide), hbase]
  have hmem : (restoreAll d saved).mem = d.mem := mem_restoreAll saved
  have hcsr : (restoreAll d saved).csr = d.csr := csr_restoreAll saved
  have hdev : (restoreAll d saved).dev = d.dev := dev_restoreAll saved
  unfold leave
  rw [runCode_append restores_plain, hrestores, Option.bind_some]
  generalize restoreAll d saved = e at hkept hregs hmem hcsr hdev ⊢
  refine ⟨e.setReg 5 (e.mem.load (e.reg 5 + slot 5)), rfl, ?_, ?_, ?_⟩
  · intro r hzero
    by_cases hr : r = 5
    · rw [hr, Machine.reg_setReg_self (by decide), hkept, hmem]
    · rw [Machine.reg_setReg_of_ne hr, hregs r hzero hr]
  · rw [Machine.csr_setReg, hcsr]
  · rw [Machine.dev_setReg, hdev]

/--
The base comes back from the frame, and the cause is compared with the call's.
-/
theorem execAll_afterCall {d : Machine} (hstack : d.reg 2 = img.frame)
    (hframe : d.mem.load img.frame = img.trapScratch) :
    execAll callee afterCall d
      = some ((((d.setReg 5 img.trapScratch).setReg 2 (img.frame + 16)).setReg 6
          (d.csr .mcause)).setReg 7 mcauseEcallFromS) := by
  unfold afterCall
  simp [execAll, Instr.exec, Machine.reg_setReg_of_ne, hstack, hframe]
  rfl

theorem execAll_advance {d : Machine} :
    execAll callee advance d
      = some (((d.setReg 6 (d.csr .mepc)).setReg 6 (d.csr .mepc + 4)).setCsr .mepc
          (d.csr .mepc + 4)) := by
  unfold advance
  simp [execAll, Instr.exec, Machine.reg_setReg_self]

/--
A call from supervisor mode is stepped over.
-/
theorem runCode_branch {s : Machine} (hbase : s.reg 5 = img.trapScratch)
    (ht1 : s.reg 6 = s.csr .mcause) (ht2 : s.reg 7 = mcauseEcallFromS) :
    exists out, runCode callee 0 (.bne 6 7 3 :: (advance ++ leave)) s = some out ∧
      Restored img s out := by
  have hadvance : forall i, i ∈ advance -> i.plain = true := by decide
  rw [runCode, ht1, ht2]
  by_cases hcause : s.csr .mcause = mcauseEcallFromS
  · rw [if_neg (not_not.mpr hcause), runCode_append hadvance, execAll_advance, Option.bind_some]
    have hstepped : ((((s.setReg 6 (s.csr .mepc)).setReg 6 (s.csr .mepc + 4)).setCsr .mepc
        (s.csr .mepc + 4))).reg 5 = img.trapScratch := by
      rw [Machine.reg_setCsr, Machine.reg_setReg_of_ne (by decide),
        Machine.reg_setReg_of_ne (by decide), hbase]
    obtain ⟨out, hrun, hregs, hout, houtDev⟩ := @runCode_leave img callee _ hstepped
    refine ⟨out, hrun, ?_, ?_, ?_, ?_⟩
    · intro r hzero
      rw [hregs r hzero, Machine.mem_setCsr, Machine.mem_setReg, Machine.mem_setReg]
    · rw [hout, Machine.csr_setCsr_of_ne (by decide), Machine.csr_setReg, Machine.csr_setReg]
    · rw [hout, Machine.csr_setCsr_self, if_pos hcause]
    · rw [houtDev, Machine.dev_setCsr, Machine.dev_setReg, Machine.dev_setReg]
  · have hlength : advance.length = 3 := rfl
    obtain ⟨out, hrun, hregs, hout, houtDev⟩ := @runCode_leave img callee s hbase
    refine ⟨out, ?_, hregs, ?_, ?_, houtDev⟩
    · rw [if_pos hcause, runCode_skip hlength]
      exact hrun
    · rw [hout]
    · rw [hout, if_neg hcause]

theorem runCode_afterCall {d : Machine} (hstack : d.reg 2 = img.frame)
    (hframe : d.mem.load img.frame = img.trapScratch) :
    exists out, runCode callee 0 (afterCall ++ (.bne 6 7 3 :: (advance ++ leave))) d = some out ∧
      Restored img d out := by
  have hplain : forall i, i ∈ afterCall -> i.plain = true := by decide
  rw [runCode_append hplain, execAll_afterCall hstack hframe, Option.bind_some]
  have hbase : ((((d.setReg 5 img.trapScratch).setReg 2 (img.frame + 16)).setReg 6
      (d.csr .mcause)).setReg 7 mcauseEcallFromS).reg 5 = img.trapScratch := by
    rw [Machine.reg_setReg_of_ne (by decide), Machine.reg_setReg_of_ne (by decide),
      Machine.reg_setReg_of_ne (by decide), Machine.reg_setReg_self (by decide)]
  have ht1 : ((((d.setReg 5 img.trapScratch).setReg 2 (img.frame + 16)).setReg 6
      (d.csr .mcause)).setReg 7 mcauseEcallFromS).reg 6 = d.csr .mcause := by
    rw [Machine.reg_setReg_of_ne (by decide), Machine.reg_setReg_self (by decide)]
  have ht2 : ((((d.setReg 5 img.trapScratch).setReg 2 (img.frame + 16)).setReg 6
      (d.csr .mcause)).setReg 7 mcauseEcallFromS).reg 7 = mcauseEcallFromS :=
    Machine.reg_setReg_self (by decide)
  have hmem : ((((d.setReg 5 img.trapScratch).setReg 2 (img.frame + 16)).setReg 6
      (d.csr .mcause)).setReg 7 mcauseEcallFromS).mem = d.mem := by
    simp only [Machine.mem_setReg]
  have hcsr : ((((d.setReg 5 img.trapScratch).setReg 2 (img.frame + 16)).setReg 6
      (d.csr .mcause)).setReg 7 mcauseEcallFromS).csr = d.csr := by
    simp only [Machine.csr_setReg]
  have hdev : ((((d.setReg 5 img.trapScratch).setReg 2 (img.frame + 16)).setReg 6
      (d.csr .mcause)).setReg 7 mcauseEcallFromS).dev = d.dev := by
    simp only [Machine.dev_setReg]
  generalize (((d.setReg 5 img.trapScratch).setReg 2 (img.frame + 16)).setReg 6
    (d.csr .mcause)).setReg 7 mcauseEcallFromS = s at hbase ht1 ht2 hmem hcsr hdev ⊢
  rw [← hcsr] at ht1
  obtain ⟨out, hrun, hregs, hmscratch, hmepc, hout⟩ := @runCode_branch img callee s hbase ht1 ht2
  refine ⟨out, hrun, ?_, ?_, ?_, ?_⟩
  · intro r hzero
    rw [hregs r hzero, hmem]
  · rw [hmscratch, hcsr]
  · rw [hmepc, hcsr]
  · rw [hout, hdev]

/-!
# The compiled dispatcher
-/

def calleeSaved : List Reg := [2, 3, 4, 8, 9, 18, 19, 20, 21, 22, 23, 24, 25, 26, 27]

/--
Called on the frame of the vector, the compiled dispatcher returns whenever the C
function does.  It has then kept the registers of its caller, the frame and the trap
registers, and has changed the saved area as the C function does.
-/
structure Compiled (version : BitVec 64) (img : Image) (dispatch : Machine -> Option Machine) :
    Prop where
  returns : forall {c}, c.reg 2 = img.frame -> c.reg 11 = img.trapScratch ->
    (forall seen, exists out,
      sbiDispatch version (c.reg 10) (fun r => c.mem.load (img.trapScratch + slot r)) seen c.dev
        = some out) ->
    exists d, dispatch c = some d
  regs : forall {c d}, c.reg 2 = img.frame -> c.reg 11 = img.trapScratch ->
    dispatch c = some d -> forall r, r ∈ calleeSaved -> d.reg r = c.reg r
  frame : forall {c d}, c.reg 2 = img.frame -> c.reg 11 = img.trapScratch ->
    dispatch c = some d -> d.mem.load img.frame = c.mem.load img.frame
  csr : forall {c d}, c.reg 2 = img.frame -> c.reg 11 = img.trapScratch ->
    dispatch c = some d -> d.csr = c.csr
  area : forall {c d}, c.reg 2 = img.frame -> c.reg 11 = img.trapScratch ->
    dispatch c = some d ->
    exists seen regs',
      sbiDispatch version (c.reg 10) (fun r => c.mem.load (img.trapScratch + slot r)) seen c.dev
        = some (regs', d.dev) ∧
      forall r, r ≠ 0 -> d.mem.load (img.trapScratch + slot r) = regs' r

/-!
# The round trip
-/

inductive Cause where
  | ecallFromS
  | machineTimer
deriving DecidableEq, Repr

def Cause.code : Cause -> BitVec 64
  | ecallFromS => mcauseEcallFromS
  | machineTimer => mcauseIntMachineTimer

/--
The trap itself: the cause and the program counter go to their registers.
-/
def enter (cause : Cause) (pc : BitVec 64) (m : Machine) : Machine :=
  (m.setCsr .mcause cause.code).setCsr .mepc pc

structure RoundTrip (img : Image) (cause : Cause) (pc : BitVec 64) (m out : Machine) : Prop where
  regs : forall r, r ≠ 0 -> (cause = .ecallFromS -> r ≠ regA0 ∧ r ≠ regA1) ->
    out.reg r = m.reg r
  mscratch : out.csr .mscratch = img.trapScratch
  mepc : out.csr .mepc = if cause = .ecallFromS then pc + 4 else pc

/--
The vector runs to its end when the dispatcher returns.
-/
theorem runCode_trapEntry {version : BitVec 64} {dispatch : Machine -> Option Machine}
    (hcompiled : Compiled version img dispatch) {cause : Cause} {pc : BitVec 64}
    (hscratch : m.csr .mscratch = img.trapScratch) :
    exists c, Called img (enter cause pc m) c ∧
      (dispatch (c.setReg 1 img.returnTo) = none ->
        runCode dispatch 0 (trapEntry img) (enter cause pc m) = none) ∧
      forall d, dispatch (c.setReg 1 img.returnTo) = some d ->
        exists out, runCode dispatch 0 (trapEntry img) (enter cause pc m) = some out ∧
          RoundTrip img cause pc m out := by
  have hplain := prologue_plain img
  have henter : (enter cause pc m).csr .mscratch = img.trapScratch := hscratch
  obtain ⟨c, hprologue, hcalled⟩ := @execAll_prologue img dispatch _ henter
  have hrun : runCode dispatch 0 (trapEntry img) (enter cause pc m)
      = (dispatch (c.setReg 1 img.returnTo)).bind
        (runCode dispatch 0 (afterCall ++ (.bne 6 7 3 :: (advance ++ leave)))) := by
    unfold trapEntry
    rw [runCode_append hplain, hprologue, Option.bind_some, runCode_plain rfl]
    rfl
  refine ⟨c, hcalled, ?_, ?_⟩
  · intro hnone
    rw [hrun, hnone]
    rfl
  · intro d hreturns
    have hsp : (c.setReg 1 img.returnTo).reg 2 = img.frame :=
      (Machine.reg_setReg_of_ne (by decide)).trans hcalled.stack
    have harea : (c.setReg 1 img.returnTo).reg 11 = img.trapScratch :=
      (Machine.reg_setReg_of_ne (by decide)).trans hcalled.area
    have hcause : (c.setReg 1 img.returnTo).reg 10 = cause.code :=
      (Machine.reg_setReg_of_ne (by decide)).trans hcalled.cause
    have hstack : d.reg 2 = img.frame :=
      (hcompiled.regs hsp harea hreturns 2 (by decide)).trans hsp
    have hframe : d.mem.load img.frame = img.trapScratch := by
      rw [hcompiled.frame hsp harea hreturns, Machine.mem_setReg]
      exact hcalled.frame
    have hcsr : d.csr = c.csr := by
      rw [hcompiled.csr hsp harea hreturns, Machine.csr_setReg]
    obtain ⟨seen, regs', hdispatch, hslots⟩ := hcompiled.area hsp harea hreturns
    rw [hcause] at hdispatch
    obtain ⟨out, hout, hrestored⟩ := @runCode_afterCall img dispatch d hstack hframe
    refine ⟨out, ?_, ?_, ?_, ?_⟩
    · rw [hrun, hreturns]
      exact hout
    · intro r hzero hnot
      have hkept : regs' r = c.mem.load (img.trapScratch + slot r) := by
        cases cause with
        | ecallFromS =>
            obtain ⟨ha0, ha1⟩ := hnot rfl
            rw [sbiDispatch_frame hdispatch ha0 ha1, Machine.mem_setReg]
        | machineTimer => rw [sbiDispatch_timer_frame hdispatch, Machine.mem_setReg]
      rw [hrestored.regs r hzero, hslots r hzero, hkept, hcalled.slots r hzero]
      rfl
    · rw [hrestored.mscratch, hcsr, hcalled.mscratch]
    · rw [hrestored.mepc, hcsr, hcalled.mcause, hcalled.mepc]
      cases cause <;> rfl

/-!
# Sessions
-/

/--
Between two traps the interrupted code may do anything but write the scratch register.
-/
inductive Session (img : Image) (dispatch : Machine -> Option Machine) : Machine -> Prop where
  | start {m : Machine} (h : m.csr .mscratch = img.trapScratch) : Session img dispatch m
  | supervisor {m n : Machine} (hm : Session img dispatch m)
      (h : n.csr .mscratch = m.csr .mscratch) : Session img dispatch n
  | trap {m n : Machine} (hm : Session img dispatch m) (cause : Cause) (pc : BitVec 64)
      (h : runCode dispatch 0 (trapEntry img) (enter cause pc m) = some n) :
      Session img dispatch n

section

variable {version : BitVec 64} {dispatch : Machine -> Option Machine} {n : Machine}

theorem roundTrip_of_run (hcompiled : Compiled version img dispatch)
    (hscratch : m.csr .mscratch = img.trapScratch) {cause : Cause} {pc : BitVec 64}
    (hrun : runCode dispatch 0 (trapEntry img) (enter cause pc m) = some n) :
    RoundTrip img cause pc m n := by
  obtain ⟨c, -, hnone, hsome⟩ :=
    @runCode_trapEntry img m version dispatch hcompiled cause pc hscratch
  cases hreturns : dispatch (c.setReg 1 img.returnTo) with
  | none =>
      rw [hnone hreturns] at hrun
      cases hrun
  | some d =>
      obtain ⟨out, hout, htrip⟩ := hsome d hreturns
      rw [hout] at hrun
      cases hrun
      exact htrip

theorem Session.mscratch (hcompiled : Compiled version img dispatch)
    (h : Session img dispatch m) : m.csr .mscratch = img.trapScratch := by
  induction h with
  | start h => exact h
  | supervisor _ h ih => exact h.trans ih
  | trap _ cause pc h ih => exact (roundTrip_of_run hcompiled ih h).mscratch

/--
The dispatcher returns from a timer interrupt and from every call but the one to shut
down.
-/
theorem dispatch_returns (hcompiled : Compiled version img dispatch) {cause : Cause}
    {pc : BitVec 64} {c : Machine} (hcalled : Called img (enter cause pc m) c)
    (hcall : cause = .ecallFromS -> m.reg regA7 ≠ eidShutdown) :
    exists d, dispatch (c.setReg 1 img.returnTo) = some d := by
  have hsp : (c.setReg 1 img.returnTo).reg 2 = img.frame :=
    (Machine.reg_setReg_of_ne (by decide)).trans hcalled.stack
  have harea : (c.setReg 1 img.returnTo).reg 11 = img.trapScratch :=
    (Machine.reg_setReg_of_ne (by decide)).trans hcalled.area
  have hcause : (c.setReg 1 img.returnTo).reg 10 = cause.code :=
    (Machine.reg_setReg_of_ne (by decide)).trans hcalled.cause
  apply hcompiled.returns hsp harea
  intro seen
  rw [hcause]
  cases cause with
  | ecallFromS =>
      apply sbiDispatch_ecall_answers
      rw [Machine.mem_setReg, hcalled.slots regA7 (by decide)]
      exact hcall rfl
  | machineTimer => exact sbiDispatch_timer_answers

end

/--
However many traps came before, a call from supervisor mode other than the one to shut
down, and a timer interrupt, runs to its end; it gives every register back, but for the
answer of a call, and leaves the scratch register armed.
-/
theorem trap_round_trip (version : BitVec 64) (img : Image)
    (dispatch : Machine -> Option Machine) (hcompiled : Compiled version img dispatch)
    (m : Machine) (hsession : Session img dispatch m) (cause : Cause) (pc : BitVec 64)
    (hcall : cause = .ecallFromS -> m.reg regA7 ≠ eidShutdown) :
    exists out, runCode dispatch 0 (trapEntry img) (enter cause pc m) = some out ∧
      RoundTrip img cause pc m out := by
  have hscratch := hsession.mscratch hcompiled
  obtain ⟨c, hcalled, -, hsome⟩ := @runCode_trapEntry img m version dispatch hcompiled cause pc
    hscratch
  obtain ⟨d, hreturns⟩ := dispatch_returns hcompiled hcalled hcall
  exact hsome d hreturns

/-!
# A dispatcher that fulfils the contract
-/

/--
The C function on the saved area, writing the answer alone.
-/
def referenceDispatch (version : BitVec 64) (seen : Readings) (c : Machine) : Option Machine :=
  (sbiDispatch version (c.reg 10) (fun r => c.mem.load (c.reg 11 + slot r)) seen c.dev).map
    (fun out =>
      (Machine.store { c with dev := out.2 } (c.reg 11 + slot regA0) (out.1 regA0)).store
        (c.reg 11 + slot regA1) (out.1 regA1))

theorem referenceDispatch_eq_some {seen : Readings} {version : BitVec 64} {c d : Machine}
    (h : referenceDispatch version seen c = some d) :
    exists regs' dev',
      sbiDispatch version (c.reg 10) (fun r => c.mem.load (c.reg 11 + slot r)) seen c.dev
        = some (regs', dev') ∧
      d.x = c.x ∧ d.csr = c.csr ∧ d.dev = dev' ∧
      d.mem = (c.mem.store (c.reg 11 + slot regA0) (regs' regA0)).store
        (c.reg 11 + slot regA1) (regs' regA1) := by
  unfold referenceDispatch at h
  rw [Option.map_eq_some_iff] at h
  obtain ⟨⟨regs', dev'⟩, hdispatch, hstore⟩ := h
  subst hstore
  exact ⟨regs', dev', hdispatch, rfl, rfl, rfl, rfl⟩

theorem compiled_referenceDispatch (version : BitVec 64) (img : Image) (seen : Readings) :
    Compiled version img (referenceDispatch version seen) where
  returns := by
    intro c _ harea hanswers
    obtain ⟨out, hout⟩ := hanswers seen
    unfold referenceDispatch
    rw [harea, hout]
    exact ⟨_, rfl⟩
  regs := by
    intro c d _ _ h r _
    obtain ⟨regs', dev', -, hx, -, -, -⟩ := referenceDispatch_eq_some h
    unfold Machine.reg
    rw [hx]
  frame := by
    intro c d _ harea h
    obtain ⟨regs', dev', -, -, -, -, hmem⟩ := referenceDispatch_eq_some h
    rw [hmem, harea, ByteMemory.load_store_of_apart (img.frame_apart regA1).symm,
      ByteMemory.load_store_of_apart (img.frame_apart regA0).symm]
  csr := by
    intro c d _ _ h
    obtain ⟨regs', dev', -, -, hcsr, -, -⟩ := referenceDispatch_eq_some h
    exact hcsr
  area := by
    intro c d _ harea h
    obtain ⟨regs', dev', hdispatch, -, -, hdev, hmem⟩ := referenceDispatch_eq_some h
    rw [harea] at hdispatch hmem
    refine ⟨seen, regs', ?_, ?_⟩
    · rw [hdev]
      exact hdispatch
    · intro r _
      rw [hmem]
      by_cases ha1 : r = regA1
      · rw [ha1, ByteMemory.load_store]
      · rw [ByteMemory.load_store_of_apart (slots_apart img.trapScratch (Ne.symm ha1))]
        by_cases ha0 : r = regA0
        · rw [ha0, ByteMemory.load_store]
        · rw [ByteMemory.load_store_of_apart (slots_apart img.trapScratch (Ne.symm ha0))]
          exact (sbiDispatch_frame hdispatch ha0 ha1).symm

def exampleImage : Image where
  trapScratch := 0x1000
  trapStackTop := 0x8000
  returnTo := 0x100
  below := by decide

/--
A caller that asks for the version, with its number in every register but `a7`.
-/
def exampleCaller : Machine where
  x := fun r => if r = regA7 then eidBase else BitVec.ofNat 64 r.val
  mem := fun _ => 0
  csr := fun c => if c = .mscratch then 0x1000 else 0
  dev := { mip := 0, mtimecmp := 0, sent := [] }

/--
A timer interrupt, and after it a call.
-/
theorem trap_round_trip_twice :
    let code := trapEntry exampleImage
    let dispatch := referenceDispatch 2 ⟨0, none⟩
    exists m out,
      runCode dispatch 0 code (enter .machineTimer 0x3000 exampleCaller) = some m ∧
      RoundTrip exampleImage .machineTimer 0x3000 exampleCaller m ∧
      runCode dispatch 0 code (enter .ecallFromS 0x2000 m) = some out ∧
      RoundTrip exampleImage .ecallFromS 0x2000 m out := by
  intro code dispatch
  have hcompiled := compiled_referenceDispatch 2 exampleImage ⟨0, none⟩
  have hstart : Session exampleImage dispatch exampleCaller := Session.start rfl
  obtain ⟨m, hm, hfirst⟩ := trap_round_trip 2 exampleImage dispatch hcompiled exampleCaller hstart
    .machineTimer 0x3000 (fun hcause => by cases hcause)
  have hcall : m.reg regA7 ≠ eidShutdown := by
    rw [hfirst.regs regA7 (by decide) (fun hcause => by cases hcause)]
    decide
  obtain ⟨out, hout, hsecond⟩ := trap_round_trip 2 exampleImage dispatch hcompiled m
    (hstart.trap .machineTimer 0x3000 hm) .ecallFromS 0x2000 (fun _ => hcall)
  exact ⟨m, out, hm, hfirst, hout, hsecond⟩

end Firmware
end RvCores
