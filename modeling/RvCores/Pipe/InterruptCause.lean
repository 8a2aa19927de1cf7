import RvCores.Block.TrapState
import RvCores.Pipe.CsrInterrupt
import RvCores.Pipe.Network

/-!
# Which interrupt is taken

An interrupt is enabled when it is pending, its bit of `mie` is set, and the mode it
is routed to lets it through: machine mode when it is not delegated, supervisor mode
when it is.  The core gates the three machine lines by `mstatus.MIE` alone, whatever
their delegation and the mode, and the two software bits by supervisor mode with
`mstatus.SIE`.  This module says when that comes to the same.
-/

namespace RvCores
namespace Pipe
namespace Core

open Isa Block

variable {w : Nat} {m : Mmu w}

/-!
# Enabled interrupts
-/

section

variable (s : Core m) (i : CoreIn w)

def pendingSource : Nat -> Bool
  | 11 => i.uartIrq
  | 3 => i.msipPending
  | 7 => i.timerPending
  | 1 => s.csr.mipSw.getLsbD 1
  | 5 => s.csr.mipSw.getLsbD 5
  | 9 => s.csr.mipSw.getLsbD 9
  | _ => false

def machineLines : List Nat := [11, 3, 7]

def raised (k : Nat) : Bool := s.csr.mie.getLsbD k && s.pendingSource i k

def delegated (k : Nat) : Bool := s.csr.mideleg.getLsbD k

def mstatusSie : Bool := s.csr.mstatus.getLsbD 1

/--
The mode the interrupt is routed to lets it through: machine mode from below or with
MIE, supervisor mode from user mode or from supervisor mode with SIE.
-/
def globallyEnabled (k : Nat) : Bool :=
  if s.delegated k then
    s.csr.privMode == privU || (s.csr.privMode == privS && s.mstatusSie)
  else s.csr.privMode != privM || s.csr.mstatusMie

def enabledInterrupt (k : Nat) : Bool := s.raised i k && s.globallyEnabled k

end

/--
The register of the mode that a trap enters in this cycle.
-/
def causeRegister (cfg : Config w) (s : Core m) (i : CoreIn w) : BitVec w :=
  if s.csr.trapTargetIsS (s.csrIn cfg i) then (s.step cfg i).csr.scause
  else (s.step cfg i).csr.mcause

def causeNumber (cfg : Config w) (s : Core m) (i : CoreIn w) : Nat :=
  ((causeRegister cfg s i).extractLsb' 0 31).toNat

structure InterruptExact (cfg : Config w) (s : Core m) (i : CoreIn w) : Prop where
  sound : s.interruptTaken cfg i = true ->
    (causeRegister cfg s i).getLsbD 31 = true ∧
      s.enabledInterrupt i (causeNumber cfg s i) = true
  complete : (exists k, s.enabledInterrupt i k = true) -> s.pcStall cfg i = false ->
    s.otherRedirectTaken cfg = false -> s.interruptTaken cfg i = true

/-!
# What the core listens to
-/

section

variable (s : Core m) (i : CoreIn w)

def machineLine : Option Nat := machineLines.find? (s.raised i)

def supervisorBit : Bool := s.raised i 1 || s.raised i 5

/--
A delegated machine line at the top is let through only where MIE is not needed.
-/
def MachineLineRouted : Prop :=
  forall k, s.machineLine i = some k -> s.csr.mstatusMie = true ->
    s.delegated k = true ->
      s.csr.privMode = privU ∨ (s.csr.privMode = privS ∧ s.mstatusSie = true)

/--
The core hears a machine line, or the mode leaves nothing else to hear.
-/
def NothingUnheard : Prop :=
  (s.csr.mstatusMie = true ∧ (s.machineLine i).isSome = true) ∨
    if s.csr.privMode = privU then forall k, s.raised i k = false
    else if s.csr.privMode = privS ∧ s.mstatusSie = true then
      s.supervisorBit i = true ∨ forall k, s.raised i k = false
    else if s.csr.privMode = privM ∧ s.csr.mstatusMie = false then True
    else forall k, s.raised i k = true -> s.delegated k = true

def unblocked (cfg : Config w) (s : Core m) (i : CoreIn w) : Bool :=
  !s.otherRedirectTaken cfg && !s.hardStall cfg i &&
    (!s.softStall cfg i || i.prefersInterrupt)

def quiet (cfg : Config w) (s : Core m) (i : CoreIn w) : Bool :=
  !s.otherRedirectTaken cfg && !s.hardStall cfg i && !s.softStall cfg i

end

variable {cfg : Config w} {s : Core m} {i : CoreIn w}

/-!
# The lines that are raised
-/

theorem machineLine_raised {k : Nat} (h : s.machineLine i = some k) :
    k ∈ machineLines ∧ s.raised i k = true :=
  ⟨List.mem_of_find?_eq_some h, List.find?_some h⟩

/-!
# The wires in these words
-/

theorem mLine_wire :
    (s.meiPending i || s.msiPending i || s.mtiPending i) = (s.machineLine i).isSome := by
  show (s.raised i 11 || s.raised i 3 || s.raised i 7) = _
  unfold machineLine machineLines
  cases h11 : s.raised i 11 <;> cases h3 : s.raised i 3 <;> cases h7 : s.raised i 7 <;>
    simp [List.find?, h11, h3, h7]

def supervisorGate (s : Core m) : Bool := s.csr.privMode == privS && s.mstatusSie

theorem ssi_wire : s.ssiPending = (s.supervisorGate && s.raised i 1) := by
  unfold ssiPending supervisorGate raised mstatusSie pendingSource
  cases s.csr.mstatus.getLsbD 1 <;> cases s.csr.mie.getLsbD 1 <;>
    cases s.csr.mipSw.getLsbD 1 <;> cases s.csr.privMode == privS <;> rfl

theorem sti_wire : s.stiPending = (s.supervisorGate && s.raised i 5) := by
  unfold stiPending supervisorGate raised mstatusSie pendingSource
  cases s.csr.mstatus.getLsbD 1 <;> cases s.csr.mie.getLsbD 5 <;>
    cases s.csr.mipSw.getLsbD 5 <;> cases s.csr.privMode == privS <;> rfl

theorem interruptPending_eq :
    s.interruptPending i =
      ((s.csr.mstatusMie && (s.machineLine i).isSome) ||
        (s.supervisorGate && s.supervisorBit i)) := by
  rw [interruptPending, mLine_wire, ssi_wire (i := i), sti_wire (i := i), supervisorBit,
    Bool.or_assoc,
    Bool.and_or_distrib_left]

theorem interruptCause_eq :
    s.interruptCause i =
      match s.machineLine i with
      | some k => BitVec.ofNat w k
      | none => if s.supervisorGate && s.raised i 1 then 1 else 5 := by
  rw [interruptCause, ssi_wire (i := i)]
  show (if s.raised i 11 = true then _ else if s.raised i 3 = true then _ else
    if s.raised i 7 = true then _ else _) = _
  unfold machineLine machineLines
  cases h11 : s.raised i 11 <;> cases h3 : s.raised i 3 <;> cases h7 : s.raised i 7 <;>
    simp [List.find?, h11, h3, h7]

/-!
# The register the trap writes
-/

theorem interruptCause_lt : (s.interruptCause i).toNat < 2 ^ 31 := by
  have hsmall : forall n, n < 16 -> (BitVec.ofNat w n).toNat < 2 ^ 31 := by
    intro n hn
    have hle : (BitVec.ofNat w n).toNat <= n := by
      rw [BitVec.toNat_ofNat]
      exact Nat.mod_le _ _
    omega
  unfold interruptCause
  repeat' split
  all_goals exact hsmall _ (by decide)

theorem causeRegister_eq (htaken : s.interruptTaken cfg i = true) :
    causeRegister cfg s i = Csr.causeWord (s.csrIn cfg i) := by
  have htrap : (s.csrIn cfg i).trapTaken = true := by simp [csrIn, htaken]
  show (if s.csr.trapTargetIsS (s.csrIn cfg i) then
      (s.csr.step vlen (s.csrIn cfg i)).scause
    else (s.csr.step vlen (s.csrIn cfg i)).mcause) = _
  cases hs : s.csr.trapTargetIsS (s.csrIn cfg i) with
  | true => simp [Csr.step, htrap, hs]
  | false => simp [Csr.step, htrap, hs]

theorem causeRegister_names (hw : 31 < w) (htaken : s.interruptTaken cfg i = true) :
    (causeRegister cfg s i).getLsbD 31 = true ∧
      causeNumber cfg s i = (s.interruptCause i).toNat := by
  have hflag : (s.csrIn cfg i).trapIsInterrupt = true := htaken
  have hcause : (s.csrIn cfg i).trapCause = s.interruptCause i := by simp [csrIn, htaken]
  rw [causeNumber, causeRegister_eq htaken, Csr.causeWord, hflag, hcause]
  constructor
  · rw [BitVec.getLsbD_setWidth, BitVec.getLsbD_append]
    simp [hw]
  · have hlow : BitVec.extractLsb' 0 31 ((BitVec.ofBool true ++
        (s.interruptCause i).setWidth 31 : BitVec (1 + 31)).setWidth w) =
          (s.interruptCause i).setWidth 31 := by
      apply BitVec.eq_of_getLsbD_eq
      intro k hk
      have hkw : k < w := by omega
      rw [BitVec.getLsbD_extractLsb', BitVec.getLsbD_setWidth, BitVec.getLsbD_append]
      simp [hk, hkw]
    rw [hlow, BitVec.toNat_setWidth]
    exact Nat.mod_eq_of_lt interruptCause_lt

/-!
# Soundness
-/

theorem toNat_ofNat_source (hw : 31 < w) {k : Nat} (hk : k < 2 ^ 31) :
    (BitVec.ofNat w k).toNat = k := by
  have hpow : 2 ^ 31 <= 2 ^ w := Nat.pow_le_pow_right (by decide) (by omega)
  rw [BitVec.toNat_ofNat]
  exact Nat.mod_eq_of_lt (Nat.lt_of_lt_of_le hk hpow)

theorem globallyEnabled_of_gate (hgate : s.supervisorGate = true) (k : Nat) :
    s.globallyEnabled k = true := by
  simp only [supervisorGate, Bool.and_eq_true, beq_iff_eq] at hgate
  obtain ⟨hpriv, hsie⟩ := hgate
  cases hdeleg : s.delegated k with
  | true => simp [globallyEnabled, hdeleg, hpriv, hsie]
  | false => simp [globallyEnabled, hdeleg, hpriv, privS, privM]

theorem sound_supervisor (hw : 31 < w) (hnone : s.machineLine i = none)
    (hpending : s.interruptPending i = true) :
    s.enabledInterrupt i (s.interruptCause i).toNat = true := by
  rw [interruptPending_eq, hnone] at hpending
  simp only [Option.isSome_none, Bool.and_false, Bool.false_or, Bool.and_eq_true] at hpending
  obtain ⟨hgate, hbit⟩ := hpending
  have hglobal := globallyEnabled_of_gate hgate
  rw [interruptCause_eq, hnone]
  cases hone : s.raised i 1 with
  | true =>
      have hcause : (1#w).toNat = 1 := toNat_ofNat_source hw (by decide)
      simp [hgate, hcause, enabledInterrupt, hone, hglobal]
  | false =>
      have hcause : (5#w).toNat = 5 := toNat_ofNat_source hw (by decide)
      have hfive : s.raised i 5 = true := by simpa [supervisorBit, hone] using hbit
      simp [hcause, enabledInterrupt, hfive, hglobal]

theorem sound_machine {k : Nat} (hline : s.machineLine i = some k) :
    (s.interruptPending i = true -> s.globallyEnabled k = true) ↔
      (s.csr.mstatusMie = true -> s.delegated k = true ->
        s.csr.privMode = privU ∨ (s.csr.privMode = privS ∧ s.mstatusSie = true)) := by
  rw [interruptPending_eq, hline]
  simp only [Option.isSome_some, Bool.and_true, Bool.or_eq_true]
  constructor
  · intro h hmie hdeleg
    have hglobal := h (Or.inl hmie)
    simpa [globallyEnabled, hdeleg] using hglobal
  · rintro hrouted (hmie | hgate)
    · cases hdeleg : s.delegated k with
      | true => simpa [globallyEnabled, hdeleg] using hrouted hmie hdeleg
      | false => simp [globallyEnabled, hdeleg, hmie]
    · simp only [Bool.and_eq_true] at hgate
      exact globallyEnabled_of_gate hgate.left k

theorem sound_iff (hw : 31 < w) :
    (s.interruptPending i = true ->
        s.enabledInterrupt i (s.interruptCause i).toNat = true) ↔
      s.MachineLineRouted i := by
  cases hline : s.machineLine i with
  | none =>
      constructor
      · intro _ k hk
        rw [hline] at hk
        exact absurd hk (by simp)
      · intro _
        exact sound_supervisor hw hline
  | some k =>
      obtain ⟨hmem, hraised⟩ := machineLine_raised hline
      have hsmall : forall n, n ∈ machineLines -> n < 2 ^ 31 := by decide
      have hcause : (s.interruptCause i).toNat = k := by
        rw [interruptCause_eq, hline]
        exact toNat_ofNat_source hw (hsmall k hmem)
      rw [hcause, enabledInterrupt, hraised, Bool.true_and, sound_machine hline]
      constructor
      · intro h n hn
        rw [hline, Option.some.injEq] at hn
        exact hn ▸ h
      · intro h
        exact h k hline

/-!
# Completeness
-/

theorem globallyEnabled_user (hpriv : s.csr.privMode = privU) (k : Nat) :
    s.globallyEnabled k = true := by
  cases hdeleg : s.delegated k with
  | true => simp [globallyEnabled, hdeleg, hpriv]
  | false => simp [globallyEnabled, hdeleg, hpriv, privU, privM]

/--
Where supervisor interrupts are masked, what is enabled is what is not delegated,
unless machine interrupts are masked as well.
-/
theorem globallyEnabled_masked (hu : s.csr.privMode ≠ privU)
    (hgate : ¬ (s.csr.privMode = privS ∧ s.mstatusSie = true)) (k : Nat) :
    s.globallyEnabled k = true ↔
      s.delegated k = false ∧ ¬ (s.csr.privMode = privM ∧ s.csr.mstatusMie = false) := by
  cases hdeleg : s.delegated k with
  | true => simpa [globallyEnabled, hdeleg, hu] using hgate
  | false =>
      simp [globallyEnabled, hdeleg]
      tauto

theorem supervisorGate_iff :
    s.supervisorGate = true ↔ s.csr.privMode = privS ∧ s.mstatusSie = true := by
  simp [supervisorGate]

theorem supervisorGate_user (hpriv : s.csr.privMode = privU) : s.supervisorGate = false := by
  simp [supervisorGate, hpriv, privU, privS]

theorem complete_user (hpriv : s.csr.privMode = privU) :
    (¬ exists k, s.enabledInterrupt i k = true) ↔ forall k, s.raised i k = false := by
  constructor
  · intro h k
    cases hraised : s.raised i k with
    | false => rfl
    | true =>
        exact absurd ⟨k, by simp [enabledInterrupt, hraised, globallyEnabled_user hpriv]⟩ h
  · rintro h ⟨k, hk⟩
    simp [enabledInterrupt, h k] at hk

theorem complete_supervisor (hgate : s.supervisorGate = true) :
    ((exists k, s.enabledInterrupt i k = true) -> s.supervisorBit i = true) ↔
      (s.supervisorBit i = true ∨ forall k, s.raised i k = false) := by
  have henabled : forall k, s.enabledInterrupt i k = s.raised i k := by
    intro k
    simp [enabledInterrupt, globallyEnabled_of_gate hgate]
  constructor
  · intro h
    cases hbit : s.supervisorBit i with
    | true => exact Or.inl rfl
    | false =>
        right
        intro k
        cases hraised : s.raised i k with
        | false => rfl
        | true =>
            have hheard := h ⟨k, (henabled k).trans hraised⟩
            rw [hbit] at hheard
            exact absurd hheard Bool.false_ne_true
  · rintro (hbit | hnone) ⟨k, hk⟩
    · exact hbit
    · rw [henabled, hnone] at hk
      exact absurd hk Bool.false_ne_true

theorem complete_masked (hu : s.csr.privMode ≠ privU)
    (hgate : ¬ (s.csr.privMode = privS ∧ s.mstatusSie = true)) :
    (¬ exists k, s.enabledInterrupt i k = true) ↔
      if s.csr.privMode = privM ∧ s.csr.mstatusMie = false then True
      else forall k, s.raised i k = true -> s.delegated k = true := by
  have henabled : forall k, s.enabledInterrupt i k = true ↔ s.raised i k = true ∧
      s.delegated k = false ∧ ¬ (s.csr.privMode = privM ∧ s.csr.mstatusMie = false) := by
    intro k
    rw [enabledInterrupt, Bool.and_eq_true, globallyEnabled_masked hu hgate]
  split
  · rename_i hmasked
    simp only [iff_true]
    rintro ⟨k, hk⟩
    exact ((henabled k).mp hk).right.right hmasked
  · rename_i hopen
    constructor
    · intro h k hraised
      cases hdeleg : s.delegated k with
      | true => rfl
      | false => exact absurd ⟨k, (henabled k).mpr ⟨hraised, hdeleg, hopen⟩⟩ h
    · rintro h ⟨k, hk⟩
      obtain ⟨hraised, hdeleg, _⟩ := (henabled k).mp hk
      rw [h k hraised] at hdeleg
      exact absurd hdeleg (by decide)

theorem complete_iff :
    ((exists k, s.enabledInterrupt i k = true) -> s.interruptPending i = true) ↔
      s.NothingUnheard i := by
  rw [interruptPending_eq, NothingUnheard]
  by_cases hheard : s.csr.mstatusMie = true ∧ (s.machineLine i).isSome = true
  · simp [hheard]
  · have hline : (s.csr.mstatusMie && (s.machineLine i).isSome) = false := by
      rw [Bool.and_eq_false_iff]
      by_contra h
      simp only [not_or, Bool.not_eq_false] at h
      exact hheard h
    rw [hline, Bool.false_or]
    simp only [hheard, false_or]
    by_cases hu : s.csr.privMode = privU
    · rw [if_pos hu, supervisorGate_user hu, Bool.false_and, ← complete_user hu]
      simp
    · rw [if_neg hu]
      by_cases hgate : s.csr.privMode = privS ∧ s.mstatusSie = true
      · have hopen := supervisorGate_iff.mpr hgate
        rw [if_pos hgate, hopen, Bool.true_and, ← complete_supervisor hopen]
      · have hclosed : s.supervisorGate = false := by
          rw [← Bool.not_eq_true, supervisorGate_iff]
          exact hgate
        rw [if_neg hgate, hclosed, Bool.false_and, ← complete_masked hu hgate]
        simp

/-!
# One cycle
-/

theorem interruptTaken_of_unblocked (h : unblocked cfg s i = true) :
    s.interruptTaken cfg i = s.interruptPending i := by
  simp only [unblocked, Bool.and_eq_true, Bool.not_eq_true'] at h
  obtain ⟨⟨hredirect, hhard⟩, hsoft⟩ := h
  simp [interruptTaken, hredirect, hhard, hsoft]

theorem unblocked_of_taken (h : s.interruptTaken cfg i = true) :
    unblocked cfg s i = true ∧ s.interruptPending i = true := by
  simp only [interruptTaken, Bool.and_eq_true] at h
  obtain ⟨⟨⟨hpending, hredirect⟩, hhard⟩, hsoft⟩ := h
  exact ⟨by simp [unblocked, hredirect, hhard, hsoft], hpending⟩

theorem unblocked_of_quiet (h : quiet cfg s i = true) : unblocked cfg s i = true := by
  simp only [quiet, Bool.and_eq_true] at h
  obtain ⟨⟨hredirect, hhard⟩, hsoft⟩ := h
  simp [unblocked, hredirect, hhard, hsoft]

theorem pcStall_eq : s.pcStall cfg i =
    (s.hardStall cfg i || (s.softStall cfg i && !s.branchTaken cfg i)) :=
  congrArg Network.pcStall network_eq

/--
Fetch moves without a redirect in the quiet cycles, and in those in which the
interrupt lifts the stall.
-/
theorem quiet_of_moving (hstall : s.pcStall cfg i = false)
    (hredirect : s.otherRedirectTaken cfg = false) (htaken : s.interruptTaken cfg i = false) :
    quiet cfg s i = true := by
  rw [pcStall_eq, branchTaken, hredirect, htaken] at hstall
  simp only [Bool.or_false, Bool.not_false, Bool.and_true, Bool.or_eq_false_iff] at hstall
  simp [quiet, hredirect, hstall]

theorem moving_of_quiet (h : quiet cfg s i = true) :
    s.pcStall cfg i = false ∧ s.otherRedirectTaken cfg = false := by
  simp only [quiet, Bool.and_eq_true, Bool.not_eq_true'] at h
  obtain ⟨⟨hredirect, hhard⟩, hsoft⟩ := h
  exact ⟨by simp [pcStall_eq, hhard, hsoft], hredirect⟩

theorem interrupt_exact_iff (x : Xlen) (cfg : Config x.bits) (s : Core x.mmu)
    (i : CoreIn x.bits) :
    InterruptExact cfg s i ↔
      (unblocked cfg s i = true -> s.MachineLineRouted i) ∧
        (quiet cfg s i = true -> s.NothingUnheard i) := by
  have hw : 31 < x.bits := by cases x <;> decide
  constructor
  · intro h
    refine ⟨fun hgo => (sound_iff hw).mp ?_, fun hquiet => complete_iff.mp ?_⟩
    · intro hpending
      have htaken := (interruptTaken_of_unblocked hgo).trans hpending
      rw [← (causeRegister_names hw htaken).right]
      exact (h.sound htaken).right
    · intro henabled
      obtain ⟨hstall, hredirect⟩ := moving_of_quiet hquiet
      rw [← interruptTaken_of_unblocked (unblocked_of_quiet hquiet)]
      exact h.complete henabled hstall hredirect
  · rintro ⟨hrouted, hheard⟩
    constructor
    · intro htaken
      obtain ⟨hgo, hpending⟩ := unblocked_of_taken htaken
      obtain ⟨hflag, hnumber⟩ := causeRegister_names hw htaken
      refine ⟨hflag, ?_⟩
      rw [hnumber]
      exact (sound_iff hw).mpr (hrouted hgo) hpending
    · intro henabled hstall hredirect
      cases htaken : s.interruptTaken cfg i with
      | true => rfl
      | false =>
          have hquiet := quiet_of_moving hstall hredirect htaken
          have hpending := complete_iff.mpr (hheard hquiet) henabled
          rw [← htaken, interruptTaken_of_unblocked (unblocked_of_quiet hquiet), hpending]

/-!
A delegated software interrupt is taken in machine mode, and one that is not delegated
is left pending in user mode.
-/

def afterSetup (program : List Word) : Core Xlen.rv32.mmu :=
  Lib.run (step (defaultConfig 32)) ((powerUp .rv32).reset (defaultConfig 32))
    ((program ++ [nop, nop, nop]).map fetchOnly)

def delegateAndEnable : List Word := [0x30345073, 0x30445073, 0x30046073]
def enableAndReturn : List Word := [0x30445073, 0x30200073]

theorem interrupt_not_exact :
    ¬ InterruptExact (defaultConfig 32) (afterSetup delegateAndEnable) nopWithInterrupt ∧
      ¬ InterruptExact (defaultConfig 32) (afterSetup enableAndReturn) nopWithInterrupt := by
  constructor
  · intro h
    have htaken : (afterSetup delegateAndEnable).interruptTaken (defaultConfig 32)
        nopWithInterrupt = true := by decide +kernel
    exact absurd (h.sound htaken).right (by decide +kernel)
  · intro h
    have henabled : (afterSetup enableAndReturn).enabledInterrupt nopWithInterrupt 3 =
        true := by decide +kernel
    have htaken := h.complete ⟨3, henabled⟩ (by decide +kernel) (by decide +kernel)
    exact absurd htaken (by decide +kernel)

end Core
end Pipe
end RvCores
