import RvCores.Pipe.Network

/-!
# Redirects and the program counter

The program counter keeps its value under a stall even when execute redirects it.
Most stalls are suppressed by a redirect.  Those of an instruction in decode that
waits for an operand are not, although the redirect squashes that instruction.
-/

namespace RvCores
namespace Pipe
namespace Core

open Isa Block

variable {w : Nat} {m : Mmu w} {cfg : Config w} {s : Core m} {i : CoreIn w}

/--
The instruction in decode waits for a load in execute or for an outstanding one.
-/
def waitsForOperand (cfg : Config w) (s : Core m) (i : CoreIn w) : Bool :=
  (cfg.forwards && s.hazardFd) || s.floatLoadUseHazard || s.scoreboardStall cfg i

theorem pcStall_of_redirect (htaken : s.branchTaken cfg i = true)
    (hhold : s.reg2Hold cfg i = false) :
    s.pcStall cfg i = s.waitsForOperand cfg i := by
  simp only [reg2Hold, Bool.or_eq_false_iff] at hhold
  obtain ⟨⟨⟨⟨hdiv, hmem⟩, hfp⟩, hdtlb⟩, hamo⟩ := hhold
  have hitlb : s.itlbMiss cfg i = false := by simp [itlbMiss, htaken]
  have hicache : s.icacheMiss cfg i = false := by simp [icacheMiss, htaken]
  have himem : s.imemWait cfg i = false := by simp [imemWait, htaken]
  have hstall : s.stall cfg i = (cfg.forwards && s.hazardFd) := by
    cases hforwards : cfg.forwards with
    | true => simp [stall, hforwards]
    | false => simp [stall, hforwards, htaken]
  simp [pcStall, waitsForOperand, hdiv, hmem, hfp, hdtlb, hamo, hitlb, hicache, himem,
    hstall]

theorem pc_of_redirect (htaken : s.branchTaken cfg i = true)
    (hhold : s.reg2Hold cfg i = false) :
    (s.step cfg i).pc =
      if s.waitsForOperand cfg i then s.pc else s.redirectTarget cfg i := by
  show s.nextPc cfg i = _
  rw [nextPc, pcStall_of_redirect htaken hhold, pcFinal, htaken]
  rfl

/--
A redirect that commits reaches the program counter exactly when the instruction in
decode does not wait for an operand, or the program counter is at the target already.
-/
theorem redirect_reaches_pc_iff (cfg : Config w) (s : Core m) (i : CoreIn w)
    (htaken : s.branchTaken cfg i = true) (hhold : s.reg2Hold cfg i = false) :
    (s.step cfg i).pc = s.redirectTarget cfg i ↔
      s.waitsForOperand cfg i = false ∨ s.pc = s.redirectTarget cfg i := by
  rw [pc_of_redirect htaken hhold]
  cases hwaits : s.waitsForOperand cfg i with
  | true => simp
  | false => simp

/-!
Two jumps train an entry of the branch target table that a load shares.  The load is
predicted to jump to itself and is followed by its own copy, which waits for it.
-/

def aliasedConfig : Config 32 :=
  { defaultConfig 32 with branchPredictor := .dynamicBhtBtb, bhtBtbEntries := 2 }

def aliasedProgram : InstructionMemory :=
  InstructionMemory.ofWords 64 [0x0100006f, nop, 0x0000a083, nop, 0xff9ff06f, nop]

def aliasedIn (s : Core Xlen.rv32.mmu) : CoreIn 32 :=
  { fetchOnly (aliasedProgram.inst (s.imemReadAddr aliasedConfig)) with lsuAck := true }

def afterCycles : Nat -> Core Xlen.rv32.mmu
  | 0 => (powerUp .rv32).reset aliasedConfig
  | n + 1 => (afterCycles n).step aliasedConfig (aliasedIn (afterCycles n))

theorem afterCycles_reachable (n : Nat) :
    Lib.Reachable (step aliasedConfig) ((powerUp .rv32).reset aliasedConfig)
      (afterCycles n) := by
  induction n with
  | zero => exact Lib.reachableWhen_refl _
  | succ n ih => exact Lib.reachableWhen_tail ih trivial

theorem redirect_reaches_pc_jump :
    ((afterCycles 2).step aliasedConfig (aliasedIn (afterCycles 2))).pc = 16 :=
  (redirect_reaches_pc_iff aliasedConfig (afterCycles 2) (aliasedIn (afterCycles 2))
    (by decide +kernel) (by decide +kernel)).mpr (Or.inl (by decide +kernel))

theorem redirect_of_load_lost :
    Lib.Reachable (step aliasedConfig) ((powerUp .rv32).reset aliasedConfig)
        (afterCycles 8) ∧
      (afterCycles 8).branchTaken aliasedConfig (aliasedIn (afterCycles 8)) = true ∧
      (afterCycles 8).reg2Hold aliasedConfig (aliasedIn (afterCycles 8)) = false ∧
      (afterCycles 8).redirectTarget aliasedConfig (aliasedIn (afterCycles 8)) = 12 ∧
      ((afterCycles 8).step aliasedConfig (aliasedIn (afterCycles 8))).pc = 8 := by
  refine ⟨afterCycles_reachable 8, ?_, ?_, ?_, ?_⟩ <;> decide +kernel

end Core
end Pipe
end RvCores
