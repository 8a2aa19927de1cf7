import RvCores.Block.CsrBits
import RvCores.Pipe.PowerUp

/-!
# Confinement of the privilege levels

A cycle below machine mode leaves the trap state of the machine alone unless it takes
a trap to machine mode, and a cycle in user mode leaves that of the supervisor alone
unless it takes a trap.  The level rises only by a trap.
-/

namespace RvCores
namespace Block
namespace Csr

variable {w : Nat} {csr : Csr w} {i : CsrIn w} {vlen : Nat}

/-!
# What belongs to a level
-/

structure MachineKept (old new : Csr w) : Prop where
  mtvec : new.mtvec = old.mtvec
  medeleg : new.medeleg = old.medeleg
  mideleg : new.mideleg = old.mideleg
  mscratch : new.mscratch = old.mscratch
  mepc : new.mepc = old.mepc
  mcause : new.mcause = old.mcause
  mtval : new.mtval = old.mtval
  mie : forall k, k ∉ sieBits -> new.mie.getLsbD k = old.mie.getLsbD k
  mstatus : forall k, k ∉ sstatusBits -> new.mstatus.getLsbD k = old.mstatus.getLsbD k

structure SupervisorKept (old new : Csr w) : Prop where
  stvec : new.stvec = old.stvec
  sscratch : new.sscratch = old.sscratch
  satp : new.satp = old.satp
  sepc : new.sepc = old.sepc
  scause : new.scause = old.scause
  stval : new.stval = old.stval
  mie : forall k, k ∈ sieBits -> new.mie.getLsbD k = old.mie.getLsbD k
  mstatus : forall k, k ∈ sstatusBits -> new.mstatus.getLsbD k = old.mstatus.getLsbD k

/--
The level an address asks for is in its bits nine and eight.
-/
def level (addr : BitVec 12) : Nat := (addr.extractLsb' 8 2).toNat

theorem writes_false (addr : BitVec 12)
    (h : i.writeEn = true -> level i.addr < level addr) : writes i addr = false := by
  cases hen : i.writeEn with
  | false => simp [writes, hen]
  | true =>
      have hlt := h hen
      have hne : i.addr ≠ addr := by
        intro heq
        rw [heq] at hlt
        exact Nat.lt_irrefl _ hlt
      simp [writes, hen, hne]

/-!
# The machine's state
-/

theorem nextMstatus_machine (hwrite : i.writeEn = true -> level i.addr < 3)
    (hmret : i.mretTaken = false)
    (htrap : (i.trapTaken && !csr.trapTargetIsS i) = false) {k : Nat}
    (hk : k ∉ sstatusBits) :
    (csr.nextMstatus vlen i).getLsbD k = csr.mstatus.getLsbD k := by
  have h1 : k ≠ 1 := fun h => hk (by simp [sstatusBits, h])
  have h5 : k ≠ 5 := fun h => hk (by simp [sstatusBits, h])
  have h8 : k ≠ 8 := fun h => hk (by simp [sstatusBits, h])
  unfold nextMstatus
  simp only [htrap, hmret, Bool.false_eq_true, if_false,
    writes_false CsrAddr.mstatus hwrite]
  split
  · simp [h1, h5, h8]
  · split
    · simp [h1, h5, h8]
    · split
      · exact getLsbD_merge _ _ _ hk
      · rfl

theorem nextMie_machine (hwrite : i.writeEn = true -> level i.addr < 3) {k : Nat}
    (hk : k ∉ sieBits) :
    (csr.nextMie vlen i).getLsbD k = csr.mie.getLsbD k := by
  unfold nextMie
  simp only [writes_false CsrAddr.mie hwrite, Bool.false_eq_true, if_false]
  split
  · exact getLsbD_merge _ _ _ hk
  · rfl

theorem machineKept_step (hwrite : i.writeEn = true -> level i.addr < 3)
    (hmret : i.mretTaken = false)
    (htrap : (i.trapTaken && !csr.trapTargetIsS i) = false) :
    MachineKept csr (csr.step vlen i) where
  mtvec := by simp [step, writes_false CsrAddr.mtvec hwrite]
  medeleg := by simp [step, writes_false CsrAddr.medeleg hwrite]
  mideleg := by simp [step, writes_false CsrAddr.mideleg hwrite]
  mscratch := by simp [step, writes_false CsrAddr.mscratch hwrite]
  mepc := by
    simp only [step, htrap, writes_false CsrAddr.mepc hwrite,
      Bool.false_eq_true, if_false]
  mcause := by
    simp only [step, htrap, writes_false CsrAddr.mcause hwrite,
      Bool.false_eq_true, if_false]
  mtval := by
    simp only [step, htrap, writes_false CsrAddr.mtval hwrite,
      Bool.false_eq_true, if_false]
  mie := fun _ hk => nextMie_machine hwrite hk
  mstatus := fun _ hk => nextMstatus_machine hwrite hmret htrap hk

/-!
# The supervisor's state
-/

theorem supervisorKept_step (hwrite : i.writeEn = true -> level i.addr < 1)
    (hmret : i.mretTaken = false) (hsret : i.sretTaken = false)
    (htrap : i.trapTaken = false) :
    SupervisorKept csr (csr.step vlen i) := by
  have hmachine : i.writeEn = true -> level i.addr < 3 := fun h =>
    Nat.lt_trans (hwrite h) (by decide)
  have hmie : csr.nextMie vlen i = csr.mie := by
    simp [nextMie, writes_false CsrAddr.mie hmachine,
      writes_false CsrAddr.sie hwrite]
  have hmstatus : csr.nextMstatus vlen i = csr.mstatus := by
    simp [nextMstatus, htrap, hmret, hsret,
      writes_false CsrAddr.mstatus hmachine,
      writes_false CsrAddr.sstatus hwrite]
  constructor
  · simp [step, writes_false CsrAddr.stvec hwrite]
  · simp [step, writes_false CsrAddr.sscratch hwrite]
  · simp [step, writes_false CsrAddr.satp hwrite]
  · simp [step, htrap, writes_false CsrAddr.sepc hwrite]
  · simp [step, htrap, writes_false CsrAddr.scause hwrite]
  · simp [step, htrap, writes_false CsrAddr.stval hwrite]
  · intro k _
    exact congrArg (fun x : BitVec w => x.getLsbD k) hmie
  · intro k _
    exact congrArg (fun x : BitVec w => x.getLsbD k) hmstatus

/-!
# The level
-/

theorem mpp_le (hpriv : csr.privMode = privM) (x : BitVec w) :
    (mpp x).toNat <= csr.privMode.toNat := by
  have hlt := (mpp x).isLt
  rw [hpriv]
  show (mpp x).toNat <= 3
  omega

theorem spp_le (hpriv : csr.privMode ≠ privU) (b : Bool) :
    (0#1 ++ BitVec.ofBool b : BitVec 2).toNat <= csr.privMode.toNat := by
  have hpos : 0 < csr.privMode.toNat := by
    rcases Nat.eq_zero_or_pos csr.privMode.toNat with hzero | hpos
    · exact absurd (BitVec.eq_of_toNat_eq hzero) hpriv
    · exact hpos
  have hle : (0#1 ++ BitVec.ofBool b : BitVec 2).toNat <= 1 := by
    cases b <;> decide
  exact Nat.le_trans hle hpos

/--
A higher level is entered by a trap only: to supervisor mode when the cause is
delegated, and to machine mode otherwise.
-/
theorem privMode_rises (hmret : i.mretTaken = true -> csr.privMode = privM)
    (hsret : i.sretTaken = true -> csr.privMode ≠ privU)
    (hrises : csr.privMode.toNat < (csr.nextPrivMode i).toNat) :
    i.trapTaken = true ∧
      csr.nextPrivMode i = if csr.trapDelegated i then privS else privM := by
  cases htrap : i.trapTaken with
  | true =>
      have hnotM : csr.privMode ≠ privM := by
        intro hpriv
        have hlt := (csr.nextPrivMode i).isLt
        rw [hpriv] at hrises
        change 3 < _ at hrises
        omega
      simp [nextPrivMode, htrap, trapTargetIsS, hnotM]
  | false =>
      exfalso
      cases hm : i.mretTaken with
      | true =>
          have hle := mpp_le (hmret hm) csr.mstatus
          simp only [nextPrivMode, htrap, hm, Bool.false_eq_true, if_false, if_true] at hrises
          omega
      | false =>
          cases hs : i.sretTaken with
          | true =>
              have hle := spp_le (hsret hs) (csr.mstatus.getLsbD 8)
              simp only [nextPrivMode, htrap, hm, hs, Bool.false_eq_true, if_false,
                if_true] at hrises
              omega
          | false =>
              simp only [nextPrivMode, htrap, hm, hs, Bool.false_eq_true, if_false] at hrises
              exact Nat.lt_irrefl _ hrises

end Csr
end Block

namespace Pipe
namespace Core

open Isa Block

variable {w : Nat} {m : Mmu w} {cfg : Config w} {s : Core m} {i : CoreIn w}

/-!
# The core
-/

theorem level_setWidth (imm : BitVec w) :
    Csr.level (imm.setWidth 12) = (imm.extractLsb' 8 2).toNat := by
  have heq : (imm.setWidth 12).extractLsb' 8 2 = imm.extractLsb' 8 2 := by
    apply BitVec.eq_of_getLsbD_eq
    intro k hk
    have hlt : 8 + k < 12 := by omega
    simp [hk, hlt]
  rw [Csr.level, heq]

/--
A CSR instruction that is not turned into a trap stays within its level.
-/
theorem csrIn_level (hwrite : (s.csrIn cfg i).writeEn = true) :
    Csr.level (s.csrIn cfg i).addr <= s.csr.privMode.toNat := by
  have hviolation : s.csrPrivViolation = false := by
    simp only [csrIn, Bool.and_eq_true, Bool.not_eq_true'] at hwrite
    exact hwrite.right
  have hcsr : s.reg2.ctrl.isCsr = true := by
    simp only [csrIn, Bool.and_eq_true, Bool.not_eq_true'] at hwrite
    exact hwrite.left.left
  simp only [csrPrivViolation, hcsr, Bool.true_and, decide_eq_false_iff_not,
    Nat.not_lt] at hviolation
  show Csr.level (s.reg2.imm.setWidth 12) <= _
  rw [level_setWidth]
  exact hviolation

theorem mretTaken_privM (h : (s.csrIn cfg i).mretTaken = true) :
    s.csr.privMode = privM := by
  have hreal : s.mretReal = true := by
    simp only [csrIn, Bool.and_eq_true] at h
    exact h.left
  by_contra hpriv
  have hne : (s.csr.privMode != privM) = true := by simp [hpriv]
  simp [mretReal, mretPrivViolation, hne] at hreal

theorem sretTaken_notU (h : (s.csrIn cfg i).sretTaken = true) :
    s.csr.privMode ≠ privU := by
  have hreal : s.sretReal = true := by
    simp only [csrIn, Bool.and_eq_true] at h
    exact h.left
  intro hpriv
  simp [sretReal, sretPrivViolation, hpriv] at hreal

/--
The cycle takes a trap to machine mode.
-/
def trapToMachine (cfg : Config w) (s : Core m) (i : CoreIn w) : Bool :=
  (s.csrIn cfg i).trapTaken && !s.csr.trapTargetIsS (s.csrIn cfg i)

theorem toNat_lt_three {mode : BitVec 2} (h : mode ≠ privM) : mode.toNat < 3 := by
  have hlt := mode.isLt
  have hne : mode.toNat ≠ 3 := fun heq => h (BitVec.eq_of_toNat_eq heq)
  omega

theorem machineKept (hpriv : s.csr.privMode ≠ privM) (htrap : trapToMachine cfg s i = false) :
    Csr.MachineKept s.csr (s.step cfg i).csr := by
  refine Csr.machineKept_step ?_ ?_ htrap
  · intro hwrite
    exact Nat.lt_of_le_of_lt (csrIn_level hwrite) (toNat_lt_three hpriv)
  · cases hm : (s.csrIn cfg i).mretTaken with
    | false => rfl
    | true => exact absurd (mretTaken_privM hm) hpriv

theorem supervisorKept (hpriv : s.csr.privMode = privU)
    (htrap : (s.csrIn cfg i).trapTaken = false) :
    Csr.SupervisorKept s.csr (s.step cfg i).csr := by
  refine Csr.supervisorKept_step ?_ ?_ ?_ htrap
  · intro hwrite
    have hle := csrIn_level hwrite
    rw [hpriv] at hle
    exact Nat.lt_succ_of_le hle
  · cases hm : (s.csrIn cfg i).mretTaken with
    | false => rfl
    | true =>
        have hM := mretTaken_privM hm
        rw [hpriv] at hM
        exact absurd hM (by decide)
  · cases hs : (s.csrIn cfg i).sretTaken with
    | false => rfl
    | true => exact absurd hpriv (sretTaken_notU hs)

structure Confined (cfg : Config w) (s : Core m) (i : CoreIn w) : Prop where
  belowMachine : s.csr.privMode ≠ privM -> trapToMachine cfg s i = false ->
    Csr.MachineKept s.csr (s.step cfg i).csr
  user : s.csr.privMode = privU -> (s.csrIn cfg i).trapTaken = false ->
    Csr.MachineKept s.csr (s.step cfg i).csr ∧ Csr.SupervisorKept s.csr (s.step cfg i).csr
  rises : s.csr.privMode.toNat < (s.step cfg i).csr.privMode.toNat ->
    (s.csrIn cfg i).trapTaken = true ∧
      (s.step cfg i).csr.privMode =
        if s.csr.trapDelegated (s.csrIn cfg i) then privS else privM

/--
Every cycle of every run is confined, at both register widths and in every
configuration.
-/
theorem privilege_confined (cfg : Config w) (s : Core m) (i : CoreIn w) :
    Confined cfg s i where
  belowMachine := machineKept
  user := by
    intro hpriv htrap
    refine ⟨machineKept ?_ ?_, supervisorKept hpriv htrap⟩
    · rw [hpriv]
      decide
    · simp [trapToMachine, htrap]
  rises := Csr.privMode_rises mretTaken_privM sretTaken_notU

end Core
end Pipe
end RvCores
