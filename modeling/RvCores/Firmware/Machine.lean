import RvCores.Firmware.Sbi
import RvCores.Lib.ByteMemory
import RvCores.Lib.Table

/-!
# The machine under the firmware

Machine-mode code of the firmware is straight-line code with forward branches.  A call
into compiled code is a parameter: it returns with a machine, or not at all.
-/

namespace RvCores
namespace Firmware

open Lib

abbrev Reg := Fin 32

inductive CsrName where
  | mscratch
  | mepc
  | mcause
deriving DecidableEq, Repr

structure Machine where
  x : Reg -> BitVec 64
  mem : ByteMemory
  csr : CsrName -> BitVec 64
  dev : Devices

namespace Machine

def reg (m : Machine) (r : Reg) : BitVec 64 := if r = 0 then 0 else m.x r

def setReg (m : Machine) (r : Reg) (v : BitVec 64) : Machine :=
  if r = 0 then m else { m with x := setAt m.x r v }

def setCsr (m : Machine) (c : CsrName) (v : BitVec 64) : Machine :=
  { m with csr := setAt m.csr c v }

def store (m : Machine) (a v : BitVec 64) : Machine := { m with mem := m.mem.store a v }

/-!
# Reading back
-/

section

variable {m : Machine} {r s : Reg} {c d : CsrName} {a v : BitVec 64}

theorem reg_setReg_self (hr : r ≠ 0) : (m.setReg r v).reg r = v := by
  unfold setReg reg
  rw [if_neg hr, if_neg hr]
  exact setAt_self _ _ _

theorem reg_setReg_of_ne (hne : s ≠ r) : (m.setReg r v).reg s = m.reg s := by
  unfold setReg reg
  split
  · rfl
  · split
    · rfl
    · exact setAt_of_ne hne

@[simp] theorem mem_setReg : (m.setReg r v).mem = m.mem := by
  unfold setReg
  split <;> rfl

@[simp] theorem csr_setReg : (m.setReg r v).csr = m.csr := by
  unfold setReg
  split <;> rfl

@[simp] theorem dev_setReg : (m.setReg r v).dev = m.dev := by
  unfold setReg
  split <;> rfl

@[simp] theorem reg_setCsr : (m.setCsr c v).reg r = m.reg r := by
  cases m
  rfl

@[simp] theorem mem_setCsr : (m.setCsr c v).mem = m.mem := by
  cases m
  rfl

@[simp] theorem dev_setCsr : (m.setCsr c v).dev = m.dev := by
  cases m
  rfl

@[simp] theorem csr_setCsr_self : (m.setCsr c v).csr c = v := setAt_self _ _ _

theorem csr_setCsr_of_ne (hne : d ≠ c) : (m.setCsr c v).csr d = m.csr d := setAt_of_ne hne

@[simp] theorem reg_store : (m.store a v).reg r = m.reg r := by
  cases m
  rfl

@[simp] theorem mem_store : (m.store a v).mem = m.mem.store a v := by
  cases m
  rfl

@[simp] theorem csr_store : (m.store a v).csr = m.csr := by
  cases m
  rfl

@[simp] theorem dev_store : (m.store a v).dev = m.dev := by
  cases m
  rfl

end

end Machine

/-!
# Instructions
-/

/--
A taken branch skips some of the instructions that follow.
-/
inductive Instr where
  | csrrw (rd : Reg) (csr : CsrName) (rs : Reg)
  | csrr (rd : Reg) (csr : CsrName)
  | csrw (csr : CsrName) (rs : Reg)
  | sd (src : Reg) (off : BitVec 64) (base : Reg)
  | ld (rd : Reg) (off : BitVec 64) (base : Reg)
  | la (rd : Reg) (symbol : BitVec 64)
  | li (rd : Reg) (imm : BitVec 64)
  | addi (rd rs : Reg) (imm : BitVec 64)
  | mv (rd rs : Reg)
  | call (returnTo : BitVec 64)
  | bne (rs1 rs2 : Reg) (skip : Nat)
  | mret

namespace Instr

def plain : Instr -> Bool
  | bne _ _ _ => false
  | mret => false
  | _ => true

/--
The effect of an instruction that goes on to the next one.
-/
def exec (callee : Machine -> Option Machine) (m : Machine) : Instr -> Option Machine
  | csrrw rd c rs => some ((m.setCsr c (m.reg rs)).setReg rd (m.csr c))
  | csrr rd c => some (m.setReg rd (m.csr c))
  | csrw c rs => some (m.setCsr c (m.reg rs))
  | sd src off base => some (m.store (m.reg base + off) (m.reg src))
  | ld rd off base => some (m.setReg rd (m.mem.load (m.reg base + off)))
  | la rd symbol => some (m.setReg rd symbol)
  | li rd imm => some (m.setReg rd imm)
  | addi rd rs imm => some (m.setReg rd (m.reg rs + imm))
  | mv rd rs => some (m.setReg rd (m.reg rs))
  | call returnTo => callee (m.setReg 1 returnTo)
  | bne _ _ _ => some m
  | mret => some m

end Instr

/--
The code is run to its `mret`, with some instructions still to be skipped.
-/
def runCode (callee : Machine -> Option Machine) : Nat -> List Instr -> Machine -> Option Machine
  | _, [], _ => none
  | skip + 1, _ :: rest, m => runCode callee skip rest m
  | 0, .bne rs1 rs2 skip :: rest, m =>
      runCode callee (if m.reg rs1 ≠ m.reg rs2 then skip else 0) rest m
  | 0, .mret :: _, m => some m
  | 0, i :: rest, m => (i.exec callee m).bind (runCode callee 0 rest)

def execAll (callee : Machine -> Option Machine) : List Instr -> Machine -> Option Machine
  | [], m => some m
  | i :: rest, m => (i.exec callee m).bind (execAll callee rest)

section

variable {callee : Machine -> Option Machine} {m : Machine}

theorem runCode_plain {i : Instr} (h : i.plain = true) (rest : List Instr) :
    runCode callee 0 (i :: rest) m = (i.exec callee m).bind (runCode callee 0 rest) := by
  cases i <;> first | rfl | cases h

theorem runCode_append {block : List Instr} (h : forall i, i ∈ block -> i.plain = true)
    (rest : List Instr) :
    runCode callee 0 (block ++ rest) m = (execAll callee block m).bind (runCode callee 0 rest) := by
  induction block generalizing m with
  | nil => rfl
  | cons i block ih =>
      rw [List.cons_append, runCode_plain (h i List.mem_cons_self), execAll, Option.bind_assoc]
      congr 1
      funext next
      exact ih (fun j hj => h j (List.mem_cons_of_mem i hj))

theorem execAll_append (first second : List Instr) :
    execAll callee (first ++ second) m = (execAll callee first m).bind (execAll callee second) := by
  induction first generalizing m with
  | nil => rfl
  | cons i first ih =>
      rw [List.cons_append, execAll, execAll, Option.bind_assoc]
      congr 1
      funext next
      exact ih

theorem runCode_skip {skip : Nat} {skipped : List Instr} (h : skipped.length = skip)
    (rest : List Instr) :
    runCode callee skip (skipped ++ rest) m = runCode callee 0 rest m := by
  induction skipped generalizing skip with
  | nil =>
      subst h
      rfl
  | cons i skipped ih =>
      subst h
      exact ih rfl

end

/-!
# Saving and restoring registers
-/

/--
The slot of a register in the saved area.
-/
def slot (r : Reg) : BitVec 64 := BitVec.ofNat 64 (8 * r.val)

theorem slots_apart (base : BitVec 64) {r s : Reg} (h : r ≠ s) :
    ByteMemory.Apart (base + slot r) (base + slot s) := by
  have hr := r.isLt
  have hs := s.isLt
  have hne : r.val ≠ s.val := fun heq => h (Fin.ext heq)
  unfold ByteMemory.Apart slot
  constructor <;> bv_omega

section

variable {callee : Machine -> Option Machine} {m : Machine}

def saveAll (m : Machine) (rs : List Reg) : Machine :=
  rs.foldl (fun n r => n.store (n.reg 5 + slot r) (n.reg r)) m

theorem execAll_saves (rs : List Reg) :
    execAll callee (rs.map (fun r => Instr.sd r (slot r) 5)) m = some (saveAll m rs) := by
  induction rs generalizing m with
  | nil => rfl
  | cons r rs ih =>
      rw [List.map_cons, execAll]
      exact ih

@[simp] theorem reg_saveAll (rs : List Reg) (r : Reg) : (saveAll m rs).reg r = m.reg r := by
  induction rs generalizing m with
  | nil => rfl
  | cons s rs ih => exact ih

@[simp] theorem csr_saveAll (rs : List Reg) : (saveAll m rs).csr = m.csr := by
  induction rs generalizing m with
  | nil => rfl
  | cons s rs ih => exact ih

@[simp] theorem dev_saveAll (rs : List Reg) : (saveAll m rs).dev = m.dev := by
  induction rs generalizing m with
  | nil => rfl
  | cons s rs ih => exact ih

/--
A slot that is not written keeps its value.
-/
theorem load_saveAll_of_notMem {rs : List Reg} {r : Reg} (h : r ∉ rs) :
    (saveAll m rs).mem.load (m.reg 5 + slot r) = m.mem.load (m.reg 5 + slot r) := by
  induction rs generalizing m with
  | nil => rfl
  | cons s rs ih =>
      rw [List.mem_cons, not_or] at h
      have hrest := @ih (m.store (m.reg 5 + slot s) (m.reg s)) h.right
      exact hrest.trans
        (ByteMemory.load_store_of_apart (slots_apart (m.reg 5) (Ne.symm h.left)) _ _)

theorem load_saveAll {rs : List Reg} {r : Reg} (h : r ∈ rs) :
    (saveAll m rs).mem.load (m.reg 5 + slot r) = m.reg r := by
  induction rs generalizing m with
  | nil => cases h
  | cons s rs ih =>
      by_cases hlater : r ∈ rs
      · exact @ih (m.store (m.reg 5 + slot s) (m.reg s)) hlater
      · have hsame : r = s := by
          rcases List.mem_cons.mp h with heq | hmem
          · exact heq
          · exact absurd hmem hlater
        subst hsame
        exact (load_saveAll_of_notMem (m := m.store (m.reg 5 + slot r) (m.reg r)) hlater).trans
          (ByteMemory.load_store _ _ _)

def restoreAll (m : Machine) (rs : List Reg) : Machine :=
  rs.foldl (fun n r => n.setReg r (n.mem.load (n.reg 5 + slot r))) m

theorem execAll_restores (rs : List Reg) :
    execAll callee (rs.map (fun r => Instr.ld r (slot r) 5)) m = some (restoreAll m rs) := by
  induction rs generalizing m with
  | nil => rfl
  | cons r rs ih =>
      rw [List.map_cons, execAll]
      exact ih

theorem mem_restoreAll (rs : List Reg) : (restoreAll m rs).mem = m.mem := by
  induction rs generalizing m with
  | nil => rfl
  | cons s rs ih => exact ih.trans Machine.mem_setReg

theorem csr_restoreAll (rs : List Reg) : (restoreAll m rs).csr = m.csr := by
  induction rs generalizing m with
  | nil => rfl
  | cons s rs ih => exact ih.trans Machine.csr_setReg

theorem dev_restoreAll (rs : List Reg) : (restoreAll m rs).dev = m.dev := by
  induction rs generalizing m with
  | nil => rfl
  | cons s rs ih => exact ih.trans Machine.dev_setReg

theorem reg_restoreAll_of_notMem {rs : List Reg} {r : Reg} (h : r ∉ rs) :
    (restoreAll m rs).reg r = m.reg r := by
  induction rs generalizing m with
  | nil => rfl
  | cons s rs ih =>
      rw [List.mem_cons, not_or] at h
      exact (ih h.right).trans (Machine.reg_setReg_of_ne h.left)

/--
The base register is not among the registers that are loaded.
-/
theorem reg_restoreAll {rs : List Reg} {r : Reg} (h : r ∈ rs) (hbase : 5 ∉ rs) (hzero : 0 ∉ rs) :
    (restoreAll m rs).reg r = m.mem.load (m.reg 5 + slot r) := by
  induction rs generalizing m with
  | nil => cases h
  | cons s rs ih =>
      rw [List.mem_cons, not_or] at hbase hzero
      by_cases hlater : r ∈ rs
      · have hrest := @ih (m.setReg s (m.mem.load (m.reg 5 + slot s))) hlater hbase.right
          hzero.right
        rw [Machine.mem_setReg, Machine.reg_setReg_of_ne hbase.left] at hrest
        exact hrest
      · have hsame : r = s := by
          rcases List.mem_cons.mp h with heq | hmem
          · exact heq
          · exact absurd hmem hlater
        subst hsame
        exact (reg_restoreAll_of_notMem hlater).trans
          (Machine.reg_setReg_self (Ne.symm hzero.left))

end

end Firmware
end RvCores
