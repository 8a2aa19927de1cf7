import RvCores.Lib.Table

/-!
# Physical register files

A register file holds a word and a valid bit for each physical register.  Reads
see the writes of their own cycle, ports in priority order.  Allocating a
register clears its valid bit, unless the register is also written in that cycle.
-/

namespace RvCores
namespace Ooo

open Lib

structure PrfWrite (w : Nat) where
  en : Bool
  addr : Nat
  data : BitVec w

structure PhysicalRegisterFile (w : Nat) where
  regs : Nat -> BitVec w
  valid : Nat -> Bool

structure PrfIn (w : Nat) where
  writes : List (PrfWrite w)
  allocEn0 : Bool
  allocPreg0 : Nat
  allocEn1 : Bool
  allocPreg1 : Nat

namespace PhysicalRegisterFile

variable {w : Nat}

def hit (port : PrfWrite w) (raddr : Nat) : Bool :=
  port.en && decide (port.addr = raddr)

def rdata (hardwirePreg0 : Bool) (prf : PhysicalRegisterFile w)
    (writes : List (PrfWrite w)) (raddr : Nat) : BitVec w :=
  if hardwirePreg0 && decide (raddr = 0) then 0#w
  else
    match writes.find? (fun port => hit port raddr) with
    | some port => port.data
    | none => prf.regs raddr

def rvalid (hardwirePreg0 : Bool) (prf : PhysicalRegisterFile w)
    (writes : List (PrfWrite w)) (raddr : Nat) : Bool :=
  (hardwirePreg0 && decide (raddr = 0)) ||
    writes.any (fun port => hit port raddr) || prf.valid raddr

def reset (numPregs numAregs : Nat) (spInit : BitVec w)
    (prf : PhysicalRegisterFile w) : PhysicalRegisterFile w :=
  { regs := fun p =>
      if p = 2 then spInit else if p < numPregs then 0#w else prf.regs p
    valid := fun p => if p < numPregs then decide (p < numAregs) else prf.valid p }

def allocate (hardwirePreg0 en : Bool) (preg : Nat) (valid : Nat -> Bool) :
    Nat -> Bool :=
  if en && (!hardwirePreg0 || decide (preg ≠ 0)) then
    setAt valid preg false
  else valid

def write (hardwirePreg0 : Bool) (prf : PhysicalRegisterFile w)
    (port : PrfWrite w) : PhysicalRegisterFile w :=
  if port.en && (!hardwirePreg0 || decide (port.addr ≠ 0)) then
    { regs := setAt prf.regs port.addr port.data
      valid := setAt prf.valid port.addr true }
  else prf

def step (hardwirePreg0 : Bool) (prf : PhysicalRegisterFile w) (i : PrfIn w) :
    PhysicalRegisterFile w :=
  i.writes.foldl (write hardwirePreg0)
    { prf with
      valid :=
        allocate hardwirePreg0 i.allocEn1 i.allocPreg1
          (allocate hardwirePreg0 i.allocEn0 i.allocPreg0 prf.valid) }

/-!
# Valid bits after one clock edge
-/

/--
Register 0 of a hardwired file is neither written nor allocated.
-/
def Writable (hardwirePreg0 : Bool) (preg : Nat) : Prop :=
  hardwirePreg0 = true -> preg ≠ 0

theorem writable_iff {hardwirePreg0 : Bool} {preg : Nat} :
    (!hardwirePreg0 || decide (preg ≠ 0)) = true ↔ Writable hardwirePreg0 preg := by
  cases hardwirePreg0 <;> simp [Writable]

theorem write_valid (hardwirePreg0 : Bool) (prf : PhysicalRegisterFile w)
    (port : PrfWrite w) (p : Nat) :
    (write hardwirePreg0 prf port).valid p = true ↔
      (port.en = true ∧ port.addr = p ∧ Writable hardwirePreg0 p) ∨
        prf.valid p = true := by
  unfold write
  by_cases hen : (port.en && (!hardwirePreg0 || decide (port.addr ≠ 0))) = true
  · rw [if_pos hen]
    rw [Bool.and_eq_true, writable_iff] at hen
    by_cases hp : p = port.addr
    · simp [hp, hen.left, hen.right]
    · have hne : ¬ port.addr = p := fun h => hp h.symm
      simp [setAt_of_ne hp, hne]
  · rw [if_neg hen]
    rw [Bool.and_eq_true, writable_iff] at hen
    constructor
    · exact Or.inr
    · rintro (⟨hport, rfl, hwritable⟩ | hvalid)
      · exact absurd ⟨hport, hwritable⟩ hen
      · exact hvalid

theorem writes_valid (hardwirePreg0 : Bool) (writes : List (PrfWrite w))
    (prf : PhysicalRegisterFile w) (p : Nat) :
    (writes.foldl (write hardwirePreg0) prf).valid p = true ↔
      (exists port, port ∈ writes ∧ port.en = true ∧ port.addr = p ∧
          Writable hardwirePreg0 p) ∨
        prf.valid p = true := by
  induction writes generalizing prf with
  | nil => simp
  | cons port writes ih =>
      rw [List.foldl_cons, ih, write_valid]
      simp only [List.mem_cons, exists_eq_or_imp]
      rw [or_assoc]
      exact or_left_comm

theorem allocate_valid (hardwirePreg0 en : Bool) (preg : Nat) (valid : Nat -> Bool)
    (p : Nat) :
    allocate hardwirePreg0 en preg valid p = true ↔
      valid p = true ∧ ¬ (en = true ∧ preg = p ∧ Writable hardwirePreg0 p) := by
  unfold allocate
  by_cases hen : (en && (!hardwirePreg0 || decide (preg ≠ 0))) = true
  · rw [if_pos hen]
    rw [Bool.and_eq_true, writable_iff] at hen
    by_cases hp : p = preg
    · subst hp
      simp [hen.left, hen.right]
    · have hne : ¬ preg = p := fun h => hp h.symm
      simp [setAt_of_ne hp, hne]
  · rw [if_neg hen]
    rw [Bool.and_eq_true, writable_iff] at hen
    constructor
    · intro hvalid
      refine ⟨hvalid, ?_⟩
      rintro ⟨hgo, rfl, hwritable⟩
      exact hen ⟨hgo, hwritable⟩
    · exact And.left

theorem step_valid (hardwirePreg0 : Bool) (prf : PhysicalRegisterFile w) (i : PrfIn w)
    (p : Nat) :
    (prf.step hardwirePreg0 i).valid p = true ↔
      (exists port, port ∈ i.writes ∧ port.en = true ∧ port.addr = p ∧
          Writable hardwirePreg0 p) ∨
        (prf.valid p = true ∧
          ¬ (i.allocEn0 = true ∧ i.allocPreg0 = p ∧ Writable hardwirePreg0 p) ∧
          ¬ (i.allocEn1 = true ∧ i.allocPreg1 = p ∧ Writable hardwirePreg0 p)) := by
  unfold step
  rw [writes_valid]
  simp only [allocate_valid, and_assoc]

end PhysicalRegisterFile
end Ooo
end RvCores
