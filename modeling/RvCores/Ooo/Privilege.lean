import RvCores.Ooo.Illegal
import RvCores.Pipe.Privilege

/-!
# Privilege and the routing of traps

Below machine mode a CSR of a higher level and a return from machine mode should trap,
a trap should go to the vector of the mode that the control registers enter, and an
environment call should name the mode it was made in.  The out-of-order core checks no
privilege but that of the fence, jumps to the machine vector for every trap, and
records every environment call as one from machine mode.
-/

namespace RvCores
namespace Ooo
namespace Core

open Isa Block

section

variable (P : Params) (s : Core) (i : Input)

/-!
# What a trap should be
-/

def csrTooHigh : Bool :=
  s.isCsr P && decide (s.csr.privMode.toNat < Csr.level (s.instWord P).csrImm12)

def ecallCause (mode : BitVec 2) : BitVec 32 :=
  if mode = privM then 11 else if mode = privS then 9 else 8

/--
The trap of the instruction dispatched from slot 0, if it raises the given cause.  The
fault of its own fetch comes first.
-/
def trapOf (s : Core) (cause : BitVec 32) : TrapInflight :=
  { valid := true
    isMret := false
    pc := s.pc
    cause := if s.itlbFaultThisCycle then 12 else cause
    robTag := s.robAllocTag0 }

def trapVector : BitVec 64 :=
  if s.csr.trapTargetIsS (s.csrIn P i) then s.csr.stvec else s.csr.mtvec

structure TrapRouted : Prop where
  csr : s.doDispatch P i = true -> s.csrTooHigh P = true ->
    (s.step P i).trapInflight = s.trapOf 2 ∧ s.NoEffect P i
  mret : s.doDispatch P i = true -> (s.ctrl P).isMret = true -> s.csr.privMode ≠ privM ->
    (s.step P i).trapInflight = s.trapOf 2 ∧ s.NoEffect P i
  ecall : s.doDispatch P i = true -> (s.ctrl P).isEcall = true ->
    (s.step P i).trapInflight = s.trapOf (ecallCause s.csr.privMode)
  vector : s.csrTrapTaken i = true -> (s.step P i).pc = s.trapVector P i

/-!
# When the core does it
-/

structure PrivilegeUntried : Prop where
  csr : s.doDispatch P i = true -> s.csrTooHigh P = false
  mret : s.doDispatch P i = true -> (s.ctrl P).isMret = true -> s.csr.privMode = privM
  ecall : s.doDispatch P i = true -> (s.ctrl P).isEcall = true ->
    s.itlbFaultThisCycle = false -> s.csr.privMode = privM
  vector : s.csrTrapTaken i = true -> s.csr.trapTargetIsS (s.csrIn P i) = true ->
    s.csr.stvec = s.csr.mtvec

end

variable {P : Params} {s : Core} {i : Input}

/-!
# Dispatch
-/

theorem trapInflight_step (hd : s.doDispatch P i = true) (htrap : s.isTrapRelated P = true) :
    (s.step P i).trapInflight =
      { valid := true
        isMret := (s.ctrl P).isMret
        pc := s.pc
        cause := if s.itlbFaultThisCycle then 12 else if (s.ctrl P).isEcall then 11 else 2
        robTag := s.robAllocTag0 } := by
  show s.nextTrapInflight P i = _
  simp [nextTrapInflight, hd, htrap]

theorem not_noEffect_of_csr (hd : s.doDispatch P i = true) (hcsr : s.isCsr P = true) :
    ¬ s.NoEffect P i := by
  intro h
  have htouches := (noEffect_iff hd).mp h
  simp [touchesState, hcsr] at htouches

theorem csrTooHigh_isCsr (h : s.csrTooHigh P = true) : s.isCsr P = true := by
  simp only [csrTooHigh, Bool.and_eq_true] at h
  exact h.left

theorem mret_returns (hd : s.doDispatch P i = true) (hmret : (s.ctrl P).isMret = true) :
    (s.step P i).trapInflight ≠ s.trapOf 2 := by
  have htrap : s.isTrapRelated P = true := by simp [isTrapRelated, hmret]
  intro heq
  rw [trapInflight_step hd htrap, trapOf, hmret] at heq
  have hflag := congrArg TrapInflight.isMret heq
  exact absurd (show true = false from hflag) (by decide)

theorem control_ecall (inst : Word) :
    (control 64 inst).isEcall = true -> (control 64 inst).isMret = false :=
  control_shape 64 inst (p := fun c => c.isEcall = true -> c.isMret = false) (by decide)

theorem ecallCause_iff (mode : BitVec 2) : ecallCause mode = 11 ↔ mode = privM := by
  revert mode
  decide

theorem ecall_iff (hd : s.doDispatch P i = true) (hecall : (s.ctrl P).isEcall = true) :
    (s.step P i).trapInflight = s.trapOf (ecallCause s.csr.privMode) ↔
      (s.itlbFaultThisCycle = false -> s.csr.privMode = privM) := by
  have htrap : s.isTrapRelated P = true := by simp [isTrapRelated, hasException, hecall]
  have hmret : (s.ctrl P).isMret = false := control_ecall _ hecall
  rw [trapInflight_step hd htrap, trapOf, hmret, hecall]
  cases hfault : s.itlbFaultThisCycle with
  | true => simp
  | false =>
      simp only [Bool.false_eq_true, if_false, if_true, TrapInflight.mk.injEq, true_and,
        and_true, forall_const]
      rw [← ecallCause_iff]
      exact eq_comm

/-!
# The jump to the vector
-/

theorem pc_step_of_trap (h : s.csrTrapTaken i = true) : (s.step P i).pc = s.csr.mtvec := by
  show s.nextPc P i = _
  unfold nextPc
  cases hint : s.interruptTake i with
  | true => rfl
  | false =>
      have hresolve : s.trapResolve = true := by
        simp only [csrTrapTaken, hint, Bool.or_false, Bool.and_eq_true] at h
        exact h.left
      simp [hresolve, h]

theorem vector_iff (h : s.csrTrapTaken i = true) :
    (s.step P i).pc = s.trapVector P i ↔
      (s.csr.trapTargetIsS (s.csrIn P i) = true -> s.csr.stvec = s.csr.mtvec) := by
  rw [pc_step_of_trap h, trapVector]
  cases htarget : s.csr.trapTargetIsS (s.csrIn P i) with
  | true => simpa using eq_comm
  | false => simp

/-!
# Every cycle of every run
-/

theorem trap_routed_iff (P : Params) (s : Core) (i : Input) :
    s.TrapRouted P i ↔ s.PrivilegeUntried P i := by
  constructor
  · intro h
    constructor
    · intro hd
      cases hhigh : s.csrTooHigh P with
      | false => rfl
      | true =>
          have heffect := (h.csr hd hhigh).right
          exact absurd heffect (not_noEffect_of_csr hd (csrTooHigh_isCsr hhigh))
    · intro hd hmret
      by_contra hpriv
      exact mret_returns hd hmret (h.mret hd hmret hpriv).left
    · intro hd hecall
      exact (ecall_iff hd hecall).mp (h.ecall hd hecall)
    · intro htrap
      exact (vector_iff htrap).mp (h.vector htrap)
  · intro h
    constructor
    · intro hd hhigh
      rw [h.csr hd] at hhigh
      exact absurd hhigh Bool.false_ne_true
    · intro hd hmret hpriv
      exact absurd (h.mret hd hmret) hpriv
    · intro hd hecall
      exact (ecall_iff hd hecall).mpr (h.ecall hd hecall)
    · intro htrap
      exact (vector_iff htrap).mpr (h.vector htrap)

/-!
In user mode, after a return from machine mode: another return, a write to the scratch
register of machine mode, an environment call, and an illegal instruction whose trap is
delegated.
-/

def afterCycles (words : List Word) (n : Nat) : Core :=
  Lib.run (step (defaultParams words)) (powerUp.reset (defaultParams words))
    (List.replicate n quietInput)

def mretWords : List Word := [0x30200073]
def csrWords : List Word := [0x34145073, 0x30200073, 0x34005073]
def ecallWords : List Word := [0x34145073, 0x30200073, 0x00000073]
def delegateWords : List Word :=
  [0x30225073, 0x10525073, 0x34185073, 0x30200073, 0x00000000]

theorem traps_not_routed :
    ¬ (afterCycles mretWords 3).TrapRouted (defaultParams mretWords) quietInput ∧
      ¬ (afterCycles csrWords 5).TrapRouted (defaultParams csrWords) quietInput ∧
      ¬ (afterCycles ecallWords 5).TrapRouted (defaultParams ecallWords) quietInput ∧
      ¬ (afterCycles delegateWords 11).TrapRouted (defaultParams delegateWords)
          quietInput := by
  refine ⟨fun h => ?_, fun h => ?_, fun h => ?_, fun h => ?_⟩
  · have htrap := (h.mret (by decide +kernel) (by decide +kernel) (by decide +kernel)).left
    exact absurd (congrArg TrapInflight.isMret htrap) (by decide +kernel)
  · have htrap := (h.csr (by decide +kernel) (by decide +kernel)).left
    exact absurd (congrArg TrapInflight.valid htrap) (by decide +kernel)
  · have htrap := h.ecall (by decide +kernel) (by decide +kernel)
    exact absurd (congrArg TrapInflight.cause htrap) (by decide +kernel)
  · have hpc := h.vector (by decide +kernel)
    exact absurd hpc (by decide +kernel)

end Core
end Ooo
end RvCores
