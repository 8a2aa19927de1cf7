import RvCores.Pipe.Privilege

/-!
# A CSR write in the cycle of an interrupt

The instruction in execute retires in the cycle in which an interrupt is taken.  If it
is a CSR instruction, its write and the trap entry meet in one clock edge.  In program
order the write comes first and the trap entry works on its result.
-/

namespace RvCores
namespace Block
namespace Csr

variable {w : Nat} (vlen : Nat) (csr : Csr w) (i : CsrIn w)

/-!
# One after the other
-/

/--
The clock edge with the trap left out.
-/
def written : Csr w := csr.step vlen { i with trapTaken := false }

def enterMachine (x : BitVec w) (mode : BitVec 2) : BitVec w :=
  setMpp (setBit (setBit x 7 (x.getLsbD 3)) 3 false) mode

def enterSupervisor (x : BitVec w) (mode : BitVec 2) : BitVec w :=
  setBit (setBit (setBit x 5 (x.getLsbD 1)) 1 false) 8 (mode.getLsbD 0)

def trapEntry : Csr w :=
  if csr.trapTargetIsS i then
    { csr with
      mstatus := enterSupervisor csr.mstatus csr.privMode
      sepc := i.trapPc
      scause := causeWord i
      stval := i.trapValue
      privMode := privS }
  else
    { csr with
      mstatus := enterMachine csr.mstatus csr.privMode
      mepc := i.trapPc
      mcause := causeWord i
      mtval := i.trapValue
      privMode := privM }

/-!
# When the write survives

Trap entry computes the new status from the old one, and picks its target by the old
delegation.
-/

/--
The bits of the status register that trap entry sets without looking at them.
-/
def overwritten (toS : Bool) : List Nat := if toS then [5, 8] else [7, 11, 12]

def statusWrite : BitVec w :=
  if i.addr = CsrAddr.mstatus then keepBits mstatusBits (csr.newVal vlen i)
  else
    (csr.mstatus &&& ~~~(keepBits sstatusBits (BitVec.allOnes w))) |||
      keepBits sstatusBits (csr.newVal vlen i)

def causeBit : Nat := i.trapCause.toNat % 32

structure WriteSurvives : Prop where
  status : i.addr = CsrAddr.mstatus ∨ i.addr = CsrAddr.sstatus ->
    forall k, k ∉ overwritten (csr.trapTargetIsS i) ->
      (csr.statusWrite vlen i).getLsbD k = csr.mstatus.getLsbD k
  delegation : i.addr = CsrAddr.mideleg -> csr.privMode ≠ privM ->
    (keepBits midelegBits (csr.newVal vlen i)).getLsbD (causeBit i) =
      csr.mideleg.getLsbD (causeBit i)

variable {vlen csr i}

theorem enterMachine_eq_iff {x y : BitVec w} {mode : BitVec 2} (hw : 12 < w) :
    enterMachine x mode = enterMachine y mode ↔
      forall k, k ∉ overwritten false -> x.getLsbD k = y.getLsbD k := by
  have hbit : forall (z : BitVec w) (k : Nat), k ∉ overwritten false ->
      (enterMachine z mode).getLsbD k = if k = 3 then false else z.getLsbD k := by
    intro z k hk
    simp only [overwritten, Bool.false_eq_true, if_false, List.mem_cons, List.not_mem_nil,
      or_false, not_or] at hk
    simp [enterMachine, getLsbD_setMpp, hk]
  have hseven : forall z : BitVec w, (enterMachine z mode).getLsbD 7 = z.getLsbD 3 := by
    intro z
    have hlt : 7 < w := by omega
    simp only [enterMachine, getLsbD_setMpp, getLsbD_setBit]
    simp [hlt]
  constructor
  · intro heq k hk
    by_cases hthree : k = 3
    · rw [hthree, ← hseven x, ← hseven y, heq]
    · have h := congrArg (fun z : BitVec w => z.getLsbD k) heq
      simpa [hbit _ _ hk, hthree] using h
  · intro hall
    apply BitVec.eq_of_getLsbD_eq
    intro k hk
    have h3 := hall 3 (by decide)
    simp only [enterMachine, getLsbD_setMpp, getLsbD_setBit, h3]
    by_cases hover : k ∈ overwritten false
    · simp only [overwritten, Bool.false_eq_true, if_false, List.mem_cons,
        List.not_mem_nil, or_false] at hover
      rcases hover with rfl | rfl | rfl <;> rfl
    · rw [hall k hover]

theorem enterSupervisor_eq_iff {x y : BitVec w} {mode : BitVec 2} (hw : 12 < w) :
    enterSupervisor x mode = enterSupervisor y mode ↔
      forall k, k ∉ overwritten true -> x.getLsbD k = y.getLsbD k := by
  have hbit : forall (z : BitVec w) (k : Nat), k ∉ overwritten true ->
      (enterSupervisor z mode).getLsbD k = if k = 1 then false else z.getLsbD k := by
    intro z k hk
    simp only [overwritten, if_true, List.mem_cons, List.not_mem_nil, or_false,
      not_or] at hk
    simp [enterSupervisor, hk]
  have hfive : forall z : BitVec w, (enterSupervisor z mode).getLsbD 5 = z.getLsbD 1 := by
    intro z
    have hlt : 5 < w := by omega
    simp only [enterSupervisor, getLsbD_setBit]
    simp [hlt]
  constructor
  · intro heq k hk
    by_cases hone : k = 1
    · rw [hone, ← hfive x, ← hfive y, heq]
    · have h := congrArg (fun z : BitVec w => z.getLsbD k) heq
      simpa [hbit _ _ hk, hone] using h
  · intro hall
    apply BitVec.eq_of_getLsbD_eq
    intro k hk
    have h1 := hall 1 (by decide)
    simp only [enterSupervisor, getLsbD_setBit, h1]
    by_cases hover : k ∈ overwritten true
    · simp only [overwritten, if_true, List.mem_cons, List.not_mem_nil, or_false] at hover
      rcases hover with rfl | rfl <;> rfl
    · rw [hall k hover]

/-!
# The clock edge with the trap
-/

theorem step_of_trap (htrap : i.trapTaken = true) :
    csr.step vlen i =
      if csr.trapTargetIsS i then
        { csr.written vlen i with
          mstatus := enterSupervisor csr.mstatus csr.privMode
          sepc := i.trapPc
          scause := causeWord i
          stval := i.trapValue
          privMode := privS }
      else
        { csr.written vlen i with
          mstatus := enterMachine csr.mstatus csr.privMode
          mepc := i.trapPc
          mcause := causeWord i
          mtval := i.trapValue
          privMode := privM } := by
  cases htarget : csr.trapTargetIsS i <;>
    simp [step, written, nextMstatus, nextPrivMode, htrap, htarget, enterSupervisor,
      enterMachine] <;> trivial

theorem written_privMode (hmret : i.mretTaken = false) (hsret : i.sretTaken = false) :
    (csr.written vlen i).privMode = csr.privMode := by
  simp [written, step, nextPrivMode, hmret, hsret]

theorem nextMstatus_of_quiet (htrap : i.trapTaken = false) (hmret : i.mretTaken = false)
    (hsret : i.sretTaken = false) :
    csr.nextMstatus vlen i =
      if writes i CsrAddr.mstatus then keepBits mstatusBits (csr.newVal vlen i)
      else if writes i CsrAddr.sstatus then
        (csr.mstatus &&& ~~~(keepBits sstatusBits (BitVec.allOnes w))) |||
          keepBits sstatusBits (csr.newVal vlen i)
      else csr.mstatus := by
  simp [nextMstatus, htrap, hmret, hsret]

theorem written_mstatus (hen : i.writeEn = true) (hmret : i.mretTaken = false)
    (hsret : i.sretTaken = false) :
    (csr.written vlen i).mstatus =
      if i.addr = CsrAddr.mstatus ∨ i.addr = CsrAddr.sstatus then csr.statusWrite vlen i
      else csr.mstatus := by
  have hquiet : (csr.written vlen i).mstatus =
      if writes i CsrAddr.mstatus then keepBits mstatusBits (csr.newVal vlen i)
      else if writes i CsrAddr.sstatus then
        (csr.mstatus &&& ~~~(keepBits sstatusBits (BitVec.allOnes w))) |||
          keepBits sstatusBits (csr.newVal vlen i)
      else csr.mstatus :=
    nextMstatus_of_quiet (i := { i with trapTaken := false }) rfl hmret hsret
  rw [hquiet]
  by_cases hm : i.addr = CsrAddr.mstatus
  · simp [writes, hen, hm, statusWrite]
  · simp [writes, hen, hm, statusWrite]

theorem written_mideleg (hen : i.writeEn = true) :
    (csr.written vlen i).mideleg =
      if i.addr = CsrAddr.mideleg then keepBits midelegBits (csr.newVal vlen i)
      else csr.mideleg := by
  have hstep : (csr.written vlen i).mideleg =
      if writes i CsrAddr.mideleg then keepBits midelegBits (csr.newVal vlen i)
      else csr.mideleg := rfl
  rw [hstep]
  simp [writes, hen]

/--
The target of the interrupt is the same before and after the write exactly when the
write leaves the cause's bit of the delegation register alone.
-/
theorem target_written_iff (hen : i.writeEn = true) (htrap : i.trapTaken = true)
    (hinterrupt : i.trapIsInterrupt = true) (hmret : i.mretTaken = false)
    (hsret : i.sretTaken = false) :
    (csr.written vlen i).trapTargetIsS i = csr.trapTargetIsS i ↔
      (i.addr = CsrAddr.mideleg -> csr.privMode ≠ privM ->
        (keepBits midelegBits (csr.newVal vlen i)).getLsbD (causeBit i) =
          csr.mideleg.getLsbD (causeBit i)) := by
  have hnew : (csr.written vlen i).trapTargetIsS i =
      (decide (csr.privMode ≠ privM) &&
        (if i.addr = CsrAddr.mideleg then keepBits midelegBits (csr.newVal vlen i)
          else csr.mideleg).getLsbD (causeBit i)) := by
    rw [trapTargetIsS, htrap, written_privMode hmret hsret, trapDelegated, hinterrupt,
      if_pos rfl, written_mideleg hen]
    rfl
  have hold : csr.trapTargetIsS i =
      (decide (csr.privMode ≠ privM) && csr.mideleg.getLsbD (causeBit i)) := by
    rw [trapTargetIsS, htrap, trapDelegated, hinterrupt, if_pos rfl]
    rfl
  rw [hnew, hold]
  by_cases hpriv : csr.privMode = privM
  · simp [hpriv]
  · by_cases haddr : i.addr = CsrAddr.mideleg
    · simp [hpriv, haddr]
    · simp [hpriv, haddr]

theorem status_kept_iff {bits : List Nat} (hen : i.writeEn = true)
    (hmret : i.mretTaken = false) (hsret : i.sretTaken = false) :
    (forall k, k ∉ bits -> csr.mstatus.getLsbD k =
        (csr.written vlen i).mstatus.getLsbD k) ↔
      (i.addr = CsrAddr.mstatus ∨ i.addr = CsrAddr.sstatus -> forall k, k ∉ bits ->
        (csr.statusWrite vlen i).getLsbD k = csr.mstatus.getLsbD k) := by
  rw [written_mstatus hen hmret hsret]
  constructor
  · intro h haddr k hk
    have hk' := h k hk
    rw [if_pos haddr] at hk'
    exact hk'.symm
  · intro h k hk
    by_cases haddr : i.addr = CsrAddr.mstatus ∨ i.addr = CsrAddr.sstatus
    · rw [if_pos haddr]
      exact (h haddr k hk).symm
    · rw [if_neg haddr]

theorem step_eq_trapEntry_iff (hw : 12 < w) (hen : i.writeEn = true)
    (htrap : i.trapTaken = true) (hinterrupt : i.trapIsInterrupt = true)
    (hmret : i.mretTaken = false) (hsret : i.sretTaken = false) :
    csr.step vlen i = (csr.written vlen i).trapEntry i ↔ csr.WriteSurvives vlen i := by
  have hpriv : (csr.written vlen i).privMode = csr.privMode := written_privMode hmret hsret
  have htarget : (csr.written vlen i).trapTargetIsS i = csr.trapTargetIsS i ↔ _ :=
    target_written_iff hen htrap hinterrupt hmret hsret
  have hkept : forall bits : List Nat, (forall k, k ∉ bits -> csr.mstatus.getLsbD k =
      (csr.written vlen i).mstatus.getLsbD k) ↔ _ :=
    fun _ => status_kept_iff hen hmret hsret
  rw [step_of_trap htrap]
  constructor
  · intro heq
    have hsame : (csr.written vlen i).trapTargetIsS i = csr.trapTargetIsS i := by
      have hmode := congrArg Csr.privMode heq
      cases hs : csr.trapTargetIsS i <;> cases hs' : (csr.written vlen i).trapTargetIsS i <;>
        simp [trapEntry, hs, hs', privS, privM] at hmode ⊢
    refine ⟨(hkept _).mp ?_, htarget.mp hsame⟩
    have hstatus := congrArg Csr.mstatus heq
    cases hs : csr.trapTargetIsS i with
    | false =>
        rw [hs] at hsame
        simp only [trapEntry, hs, hsame, hpriv, Bool.false_eq_true, if_false] at hstatus
        exact (enterMachine_eq_iff hw).mp hstatus
    | true =>
        rw [hs] at hsame
        simp only [trapEntry, hs, hsame, hpriv, if_true] at hstatus
        exact (enterSupervisor_eq_iff hw).mp hstatus
  · intro hsurvives
    have hsame := htarget.mpr hsurvives.delegation
    have hstatus := (hkept _).mpr hsurvives.status
    rw [trapEntry, hsame, hpriv]
    cases hs : csr.trapTargetIsS i with
    | false =>
        rw [hs] at hstatus
        simp only [Bool.false_eq_true, if_false, (enterMachine_eq_iff hw).mpr hstatus]
    | true =>
        rw [hs] at hstatus
        simp only [if_true, (enterSupervisor_eq_iff hw).mpr hstatus]

end Csr
end Block

namespace Pipe
namespace Core

open Isa Block

variable {w : Nat} {m : Mmu w} {cfg : Config w} {s : Core m} {i : CoreIn w}

/-!
# The core
-/

theorem interruptTaken_noRedirect (hint : s.interruptTaken cfg i = true) :
    s.otherRedirectTaken cfg = false := by
  simp only [interruptTaken, Bool.and_eq_true, Bool.not_eq_true'] at hint
  exact hint.left.left.right

theorem interruptTaken_noReturn (hint : s.interruptTaken cfg i = true) :
    (s.csrIn cfg i).mretTaken = false ∧ (s.csrIn cfg i).sretTaken = false := by
  have hredirect := interruptTaken_noRedirect hint
  simp only [otherRedirectTaken, Bool.or_eq_false_iff] at hredirect
  obtain ⟨⟨_, hmret⟩, hsret⟩ := hredirect
  simp [csrIn, hmret, hsret]

/--
The delegation registers are out of reach below machine mode.
-/
theorem mideleg_write_privM (hwrite : (s.csrIn cfg i).writeEn = true)
    (haddr : (s.csrIn cfg i).addr = CsrAddr.mideleg) :
    s.csr.privMode = privM := by
  have hlevel := csrIn_level hwrite
  have hthree : Csr.level CsrAddr.mideleg = 3 := by decide
  rw [haddr, hthree] at hlevel
  by_contra hpriv
  have hlt := toNat_lt_three hpriv
  omega

/--
The CSR instruction in execute changes no status bit that trap entry keeps or reads.
-/
def KeepsStatus (cfg : Config w) (s : Core m) (i : CoreIn w) : Prop :=
  (s.csrIn cfg i).addr = CsrAddr.mstatus ∨ (s.csrIn cfg i).addr = CsrAddr.sstatus ->
    forall k, k ∉ Csr.overwritten (s.csr.trapTargetIsS (s.csrIn cfg i)) ->
      (s.csr.statusWrite vlen (s.csrIn cfg i)).getLsbD k = s.csr.mstatus.getLsbD k

theorem writeSurvives_iff (hwrite : (s.csrIn cfg i).writeEn = true) :
    s.csr.WriteSurvives vlen (s.csrIn cfg i) ↔ KeepsStatus cfg s i := by
  constructor
  · intro h
    exact h.status
  · intro h
    refine ⟨h, ?_⟩
    intro haddr hpriv
    exact absurd (mideleg_write_privM hwrite haddr) hpriv

/--
In a cycle that takes an interrupt, a CSR instruction takes effect before the trap
entry if and only if it keeps the status register.
-/
theorem csr_write_before_trap_iff (x : Xlen) (cfg : Config x.bits) (s : Core x.mmu)
    (i : CoreIn x.bits) (hint : s.interruptTaken cfg i = true)
    (hwrite : (s.csrIn cfg i).writeEn = true) :
    (s.step cfg i).csr =
        (s.csr.written vlen (s.csrIn cfg i)).trapEntry (s.csrIn cfg i) ↔
      KeepsStatus cfg s i := by
  have hbits : 12 < x.bits := by cases x <;> decide
  have htrap : (s.csrIn cfg i).trapTaken = true := by simp [csrIn, hint]
  obtain ⟨hmret, hsret⟩ := interruptTaken_noReturn hint
  have hcsr : s.csr.step vlen (s.csrIn cfg i) = _ ↔ _ :=
    Csr.step_eq_trapEntry_iff hbits hwrite htrap hint hmret hsret
  exact hcsr.trans (writeSurvives_iff hwrite)

/-!
A program that has enabled software interrupts writes the scratch register, or sets
SIE, in the cycle in which one is taken.
-/

def afterEnable (inst : Word) : Core Xlen.rv32.mmu :=
  Lib.run (step (defaultConfig 32)) ((powerUp .rv32).reset (defaultConfig 32))
    ([0x30445073, 0x30046073, inst, nop].map fetchOnly)

def nopWithInterrupt : CoreIn 32 := { fetchOnly nop with msipPending := true }

theorem csr_write_before_trap_scratch :
    ((afterEnable 0x3402d073).step (defaultConfig 32) nopWithInterrupt).csr =
      ((afterEnable 0x3402d073).csr.written vlen
        ((afterEnable 0x3402d073).csrIn (defaultConfig 32) nopWithInterrupt)).trapEntry
          ((afterEnable 0x3402d073).csrIn (defaultConfig 32) nopWithInterrupt) := by
  refine (csr_write_before_trap_iff .rv32 (defaultConfig 32) (afterEnable 0x3402d073)
    nopWithInterrupt (by decide +kernel) (by decide +kernel)).mpr ?_
  intro haddr
  exact absurd haddr (by decide +kernel)

theorem status_write_lost :
    Lib.Reachable (step (defaultConfig 32)) ((powerUp .rv32).reset (defaultConfig 32))
        (afterEnable 0x30016073) ∧
      (afterEnable 0x30016073).interruptTaken (defaultConfig 32) nopWithInterrupt = true ∧
      ((afterEnable 0x30016073).csrIn (defaultConfig 32) nopWithInterrupt).writeEn = true ∧
      ((afterEnable 0x30016073).step (defaultConfig 32) nopWithInterrupt).csr ≠
        ((afterEnable 0x30016073).csr.written vlen
          ((afterEnable 0x30016073).csrIn (defaultConfig 32) nopWithInterrupt)).trapEntry
            ((afterEnable 0x30016073).csrIn (defaultConfig 32) nopWithInterrupt) := by
  refine ⟨Lib.reachable_run _ _, by decide +kernel, by decide +kernel, ?_⟩
  intro heq
  have hsie := congrArg (fun csr : Csr 32 => csr.mstatus.getLsbD 1) heq
  exact absurd hsie (by decide +kernel)

end Core
end Pipe
end RvCores
