import RvCores.Pipe.PowerUp

/-!
# The network of stalls and redirects

An interrupt is taken only when nothing stalls fetch, and the stalls of fetch are
lifted by any redirect, an interrupt included.  The equations of the network always
have a solution.  It is the only one unless an interrupt could be taken in a cycle in
which fetch has no reason to stall but those that the interrupt itself would lift.
-/

namespace RvCores
namespace Pipe
namespace Core

open Isa Block

variable {w : Nat} {m : Mmu w} {cfg : Config w} {s : Core m} {i : CoreIn w}

/-!
# Solutions

Everything in the network follows from whether the interrupt is taken.
-/

def networkOf (cfg : Config w) (s : Core m) (i : CoreIn w) (taken : Bool) : Network :=
  let redirect := s.otherRedirectTaken cfg || taken
  { interruptTaken := taken
    branchTaken := redirect
    stall := if cfg.forwards then s.hazardFd else s.hazardNoForwardFd && !redirect
    itlbMiss := s.itlbWaits cfg && !redirect
    dtlbMiss := s.dtlbWaits cfg && !redirect
    icacheMiss := s.icacheWaits cfg i && !redirect
    imemWait := s.imemWaits cfg i && !redirect
    pcStall := s.hardStall cfg i || (s.softStall cfg i && !redirect) }

theorem pcStall_split (stall branchTaken : Bool)
    (hstall : stall = if cfg.forwards then s.hazardFd
      else s.hazardNoForwardFd && !branchTaken) :
    (stall || s.divStall || s.memStall cfg i || s.fpStall || s.floatLoadUseHazard ||
      (s.itlbWaits cfg && !branchTaken) || (s.dtlbWaits cfg && !branchTaken) ||
      (s.icacheWaits cfg i && !branchTaken) || (s.imemWaits cfg i && !branchTaken) ||
      s.amoStall || s.scoreboardStall cfg i) =
    (s.hardStall cfg i || (s.softStall cfg i && !branchTaken)) := by
  rw [hstall, hardStall, softStall]
  cases cfg.forwards <;> cases branchTaken <;> simp [Bool.or_assoc, Bool.or_comm,
    Bool.or_left_comm]

theorem solves_iff {n : Network} :
    s.Solves cfg i n ↔
      n = networkOf cfg s i n.interruptTaken ∧
        n.interruptTaken =
          (s.interruptPending i && !s.otherRedirectTaken cfg && !s.hardStall cfg i &&
            (!s.softStall cfg i || n.interruptTaken)) := by
  constructor
  · intro h
    have hstall := h.stall
    have hpc := h.pcStall
    rw [h.itlbMiss, h.dtlbMiss, h.icacheMiss, h.imemWait,
      pcStall_split n.stall n.branchTaken hstall] at hpc
    have htaken := h.interruptTaken
    rw [hpc, h.branchTaken] at htaken
    refine ⟨?_, ?_⟩
    · have hbranch := h.branchTaken
      have hitlb := h.itlbMiss
      have hdtlb := h.dtlbMiss
      have hicache := h.icacheMiss
      have himem := h.imemWait
      rw [hbranch] at hstall hitlb hdtlb hicache himem hpc
      cases n
      simp only [networkOf, Network.mk.injEq] at *
      exact ⟨trivial, hbranch, hstall, hitlb, hdtlb, hicache, himem, hpc⟩
    · rw [htaken]
      cases s.interruptPending i <;> cases s.otherRedirectTaken cfg <;>
        cases s.hardStall cfg i <;> cases s.softStall cfg i <;>
        cases n.interruptTaken <;> rfl
  · rintro ⟨hn, htaken⟩
    rw [hn]
    refine ⟨?_, rfl, rfl, rfl, rfl, rfl, rfl, (pcStall_split _ _ rfl).symm⟩
    show n.interruptTaken = _
    rw [show (networkOf cfg s i n.interruptTaken).pcStall =
      (s.hardStall cfg i || (s.softStall cfg i &&
        !(s.otherRedirectTaken cfg || n.interruptTaken))) from rfl]
    revert htaken
    cases s.interruptPending i <;> cases s.otherRedirectTaken cfg <;>
      cases s.hardStall cfg i <;> cases s.softStall cfg i <;>
      cases n.interruptTaken <;> decide

theorem network_eq : s.network cfg i = networkOf cfg s i (s.interruptTaken cfg i) := by
  have hpc : s.pcStall cfg i =
      (s.hardStall cfg i || (s.softStall cfg i && !s.branchTaken cfg i)) :=
    pcStall_split (s.stall cfg i) (s.branchTaken cfg i) rfl
  simp only [network, hpc]
  rfl

/--
The wires of the model solve the equations of the source.
-/
theorem network_solves : s.Solves cfg i (s.network cfg i) := by
  refine solves_iff.mpr ⟨network_eq, ?_⟩
  show s.interruptTaken cfg i = _
  rw [show (s.network cfg i).interruptTaken = s.interruptTaken cfg i from rfl]
  rw [interruptTaken]
  cases s.interruptPending i <;> cases s.otherRedirectTaken cfg <;>
    cases s.hardStall cfg i <;> cases s.softStall cfg i <;>
    cases i.prefersInterrupt <;> rfl

/-!
# Uniqueness
-/

/--
Nothing but the stalls that a redirect lifts keeps a pending interrupt from being taken.
-/
def Bistable (cfg : Config w) (s : Core m) (i : CoreIn w) : Prop :=
  s.interruptPending i = true ∧ s.otherRedirectTaken cfg = false ∧
    s.hardStall cfg i = false ∧ s.softStall cfg i = true

theorem networkOf_inj {a b : Bool} (h : networkOf cfg s i a = networkOf cfg s i b) : a = b :=
  congrArg Network.interruptTaken h

theorem bistable_solves (h : Bistable cfg s i) (taken : Bool) :
    s.Solves cfg i (networkOf cfg s i taken) := by
  obtain ⟨hpending, hother, hhard, hsoft⟩ := h
  refine solves_iff.mpr ⟨rfl, ?_⟩
  show taken = _
  rw [hpending, hother, hhard, hsoft]
  cases taken <;> rfl

theorem not_unique_of_bistable (h : Bistable cfg s i) :
    ¬ ∃! n, s.Solves cfg i n := by
  rintro ⟨n, _, hunique⟩
  have htrue := hunique _ (bistable_solves h true)
  have hfalse := hunique _ (bistable_solves h false)
  exact Bool.noConfusion (networkOf_inj (htrue.trans hfalse.symm))

theorem solution_taken {n : Network} (h : ¬ Bistable cfg s i) (hn : s.Solves cfg i n) :
    n.interruptTaken = s.interruptTaken cfg i := by
  have htaken := (solves_iff.mp hn).right
  rw [htaken, interruptTaken]
  revert h
  rw [Bistable]
  cases s.interruptPending i <;> cases s.otherRedirectTaken cfg <;>
    cases s.hardStall cfg i <;> cases s.softStall cfg i <;> simp

/--
The equations of the source have exactly one solution if and only if the cycle is not
one in which the interrupt and the stalls of fetch each wait for the other.
-/
theorem network_unique_iff (cfg : Config w) (s : Core m) (i : CoreIn w) :
    (∃! n, s.Solves cfg i n) ↔ ¬ Bistable cfg s i := by
  constructor
  · intro hunique hbistable
    exact not_unique_of_bistable hbistable hunique
  · intro h
    refine ⟨s.network cfg i, network_solves, ?_⟩
    intro n hn
    rw [(solves_iff.mp hn).left, solution_taken h hn, network_eq]

/-!
An instruction-cache miss in a cycle in which a software interrupt is pending, after
a program has enabled it.
-/

def cachedConfig : Config 32 := { defaultConfig 32 with cacheMode := .writebackSetassoc }

def enableSoftwareInterrupt : List (CoreIn 32) :=
  [0x30445073, 0x30046073, nop, nop].map fetchOnly

def interruptEnabled : Core Xlen.rv32.mmu :=
  Lib.run (step cachedConfig) ((powerUp .rv32).reset cachedConfig) enableSoftwareInterrupt

def missWithInterrupt : CoreIn 32 :=
  { fetchOnly nop with icacheHit := false, msipPending := true }

theorem network_two_solutions :
    Lib.Reachable (step cachedConfig) ((powerUp .rv32).reset cachedConfig) interruptEnabled ∧
      ¬ ∃! n, interruptEnabled.Solves cachedConfig missWithInterrupt n := by
  refine ⟨Lib.reachable_run _ _, not_unique_of_bistable ⟨?_, ?_, ?_, ?_⟩⟩ <;>
    decide +kernel

end Core
end Pipe
end RvCores
