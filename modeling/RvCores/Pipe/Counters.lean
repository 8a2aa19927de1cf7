import RvCores.Pipe.ProgramOrder

/-!
# The counters

While no program inhibits or writes them, the cycle counter should count the cycles
and the retirement counter the instructions that complete in program order.  A CSR
instruction that only reads a counter suppresses its step, an atomic operation that is
held in the memory stage is counted in every cycle of the hold, and the split fetch has
the first word executed and counted twice.
-/

namespace RvCores
namespace Block
namespace Csr

variable {w : Nat}

/-!
# Writing back what was read
-/

theorem setLow_lowHalf (x : BitVec (w + w)) : setLow x (lowHalf x) = x := by
  apply BitVec.eq_of_getLsbD_eq
  intro k hk
  rw [setLow, BitVec.getLsbD_append]
  by_cases hlow : k < w
  · simp [lowHalf, hlow]
  · have hhigh : k - w < w := by omega
    have hsum : w + (k - w) = k := by omega
    simp [highHalf, hlow, hhigh, hsum]

theorem setHigh_highHalf (x : BitVec (w + w)) : setHigh x (highHalf x) = x := by
  apply BitVec.eq_of_getLsbD_eq
  intro k hk
  rw [setHigh, BitVec.getLsbD_append]
  by_cases hlow : k < w
  · simp [lowHalf, hlow]
  · have hhigh : k - w < w := by omega
    have hsum : w + (k - w) = k := by omega
    simp [highHalf, hlow, hhigh, hsum]

theorem newVal_of_zero {vlen : Nat} {csr : Csr w} {i : CsrIn w} (hdata : i.wdata = 0)
    (hop : i.op = 0b10 ∨ i.op = 0b11) : csr.newVal vlen i = csr.rdata vlen i := by
  rw [newVal, hdata]
  rcases hop with hop | hop
  · simp [hop]
  · simp [hop]

end Csr
end Block

namespace Pipe
namespace Core

open Isa Block

variable {w : Nat} {m : Mmu w}

/-!
# Programs that leave the counters alone
-/

section

variable (cfg : Config w) (s : Core m) (i : CoreIn w)

def counterAddrs : List (BitVec 12) :=
  [CsrAddr.mcycle, CsrAddr.mcycleh, CsrAddr.minstret, CsrAddr.minstreth]

/--
The forms of the set and clear instructions that only read.
-/
def csrReadOnly (s : Core m) : Prop :=
  s.reg2.inst.rs1 = 0 ∧
    (s.reg2.funct3.extractLsb' 0 2 = 0b10 ∨ s.reg2.funct3.extractLsb' 0 2 = 0b11)

instance (s : Core m) : Decidable s.csrReadOnly := inferInstanceAs (Decidable (_ ∧ _))

def CountersFree : Prop :=
  s.csr.mcountinhibit = 0 ∧
    ((s.csrIn cfg i).writeEn = true -> (s.csrIn cfg i).addr ∈ counterAddrs ->
      s.csrReadOnly)

instance : Decidable (CountersFree cfg s i) := inferInstanceAs (Decidable (_ ∧ _))

/-!
# When they count exactly
-/

def readsCounter (low high : BitVec 12) : Bool :=
  Csr.writes (s.csrIn cfg i) low || Csr.writes (s.csrIn cfg i) high

/--
No CSR instruction reads the cycle counter, and where the memory stage holds a real
instruction that does not wait for memory, it is no atomic operation at work, and the
retirement counter is not read.
-/
def Counts : Prop :=
  readsCounter cfg s i CsrAddr.mcycle CsrAddr.mcycleh = false ∧
    (s.reg3.valid = true -> s.memStall cfg i = false ->
      s.amoStall = false ∧
        readsCounter cfg s i CsrAddr.minstret CsrAddr.minstreth = false)

instance : Decidable (Counts cfg s i) :=
  inferInstanceAs (Decidable (_ ∧ (_ -> _ -> _ ∧ _)))

end

variable {cfg : Config w} {o : Observer w} {s : Core m} {i : CoreIn w}

/-!
# The operand of a reading form
-/

def ZeroOperand (r : Reg2 w) : Prop :=
  r.inst.rs1 = 0 -> r.readReg1 = 0 ∧ r.readData1 = 0

theorem zeroOperand_decoded : ZeroOperand (s.decoded cfg i) := by
  intro hzero
  have hrs1 : s.reg1.inst.rs1 = 0 := hzero
  refine ⟨hrs1, ?_⟩
  show s.regs.read _ _ s.reg1.inst.rs1 = 0
  simp [RegFile.read, hrs1]

theorem zeroOperand_step (h : ZeroOperand s.reg2) : ZeroOperand (s.step cfg i).reg2 := by
  show ZeroOperand (s.nextReg2 cfg i)
  unfold nextReg2 Reg2.step
  split
  · exact h
  · split
    · intro _
      exact ⟨rfl, rfl⟩
    · split
      · exact zeroOperand_decoded
      · exact zeroOperand_decoded

theorem forward_zero (regem regwb : FwdSource) : forward regem regwb 0 = .none := by
  have hnever : forall src : FwdSource, (src.dest != 0 && src.feeds 0) = false := by
    intro src
    by_cases hdest : src.dest = 0
    · simp [hdest]
    · have hfeeds : src.feeds 0 = false := by
        simpa [FwdSource.feeds] using fun _ => hdest
      rw [hfeeds, Bool.and_false]
  rw [forward, hnever, hnever]
  rfl

theorem csrWdata_readOnly (h : ZeroOperand s.reg2) (hread : s.csrReadOnly) :
    s.csrWdata cfg = 0 := by
  obtain ⟨hreg, hdata⟩ := h hread.left
  have hsel : s.forwardSel cfg s.reg2.readReg1 = .none := by
    rw [hreg, forwardSel, forward_zero]
    split <;> rfl
  unfold csrWdata
  split
  · simp [hread.left]
  · rw [readData1Final, forwarded, hsel]
    exact hdata

/-!
# One cycle
-/

theorem newVal_readOnly (hzero : ZeroOperand s.reg2) (hfree : CountersFree cfg s i)
    {addr : BitVec 12} (hwrites : Csr.writes (s.csrIn cfg i) addr = true)
    (haddr : addr ∈ counterAddrs) :
    (s.csrIn cfg i).addr = addr ∧
      s.csr.newVal vlen (s.csrIn cfg i) = s.csr.rdata vlen (s.csrIn cfg i) := by
  simp only [Csr.writes, Bool.and_eq_true, decide_eq_true_eq] at hwrites
  obtain ⟨hen, rfl⟩ := hwrites
  have hread := hfree.right hen haddr
  exact ⟨rfl, Csr.newVal_of_zero (csrWdata_readOnly hzero hread) hread.right⟩

/--
A counter whose halves are read back keeps its value.
-/
theorem countStep_read {x : BitVec (w + w)} {low high enable : Bool} {v : BitVec w}
    (hlow : low = true -> v = Csr.lowHalf x) (hhigh : high = true -> v = Csr.highHalf x) :
    Csr.countStep x low high enable v =
      if low || high then x else if enable then x + 1 else x := by
  unfold Csr.countStep
  cases low with
  | true => simp [hlow rfl, Csr.setLow_lowHalf]
  | false =>
      cases high with
      | true => simp [hhigh rfl, Csr.setHigh_highHalf]
      | false => simp

theorem mcycle_step (hzero : ZeroOperand s.reg2) (hfree : CountersFree cfg s i) :
    (s.step cfg i).csr.mcycle =
      if readsCounter cfg s i CsrAddr.mcycle CsrAddr.mcycleh then s.csr.mcycle
      else s.csr.mcycle + 1 := by
  show Csr.countStep s.csr.mcycle _ _ (!s.csr.mcountinhibit.getLsbD 0) _ = _
  rw [countStep_read, hfree.left]
  · simp [readsCounter]
  · intro hwrites
    obtain ⟨haddr, hval⟩ := newVal_readOnly hzero hfree hwrites (by decide)
    rw [hval, Csr.rdata, haddr]
    rfl
  · intro hwrites
    obtain ⟨haddr, hval⟩ := newVal_readOnly hzero hfree hwrites (by decide)
    rw [hval, Csr.rdata, haddr]
    rfl

theorem minstret_step (hzero : ZeroOperand s.reg2) (hfree : CountersFree cfg s i) :
    (s.step cfg i).csr.minstret =
      if readsCounter cfg s i CsrAddr.minstret CsrAddr.minstreth then s.csr.minstret
      else if s.reg3.valid && !s.memStall cfg i then s.csr.minstret + 1
      else s.csr.minstret := by
  show Csr.countStep s.csr.minstret _ _
    ((s.reg3.valid && !s.memStall cfg i) && !s.csr.mcountinhibit.getLsbD 2) _ = _
  rw [countStep_read, hfree.left]
  · simp [readsCounter]
  · intro hwrites
    obtain ⟨haddr, hval⟩ := newVal_readOnly hzero hfree hwrites (by decide)
    rw [hval, Csr.rdata, haddr]
    rfl
  · intro hwrites
    obtain ⟨haddr, hval⟩ := newVal_readOnly hzero hfree hwrites (by decide)
    rw [hval, Csr.rdata, haddr]
    rfl

theorem ne_add_one (hw : 0 < w) (x : BitVec (w + w)) : x ≠ x + 1 := by
  intro heq
  have hnat := congrArg BitVec.toNat heq
  have hlt := x.isLt
  have hpow : 1 < 2 ^ (w + w) := Nat.one_lt_two_pow (by omega)
  rw [BitVec.toNat_add, show (1 : BitVec (w + w)).toNat = 1 from
    Nat.mod_eq_of_lt hpow] at hnat
  rcases Nat.lt_or_ge (x.toNat + 1) (2 ^ (w + w)) with hfits | hwraps
  · rw [Nat.mod_eq_of_lt hfits] at hnat
    omega
  · have hlast : x.toNat + 1 = 2 ^ (w + w) := by omega
    rw [hlast, Nat.mod_self] at hnat
    omega

theorem readsCounter_of_held {low high : BitVec 12} (h : s.amoStall = true) :
    readsCounter cfg s i low high = false := by
  simp [readsCounter, Csr.writes, csrIn, reg2Hold, h]

theorem minstret_iff (hw : 0 < w) (hzero : ZeroOperand s.reg2)
    (hfree : CountersFree cfg s i) (hmemory : s.reg3.valid = o.inMemory) :
    (s.step cfg i).csr.minstret =
        s.csr.minstret + BitVec.ofNat (w + w) (o.completes cfg s i).toNat ↔
      (s.reg3.valid = true -> s.memStall cfg i = false ->
        s.amoStall = false ∧
          readsCounter cfg s i CsrAddr.minstret CsrAddr.minstreth = false) := by
  have hne := ne_add_one hw s.csr.minstret
  rw [minstret_step hzero hfree, Observer.completes, hmemory, backHold]
  cases o.inMemory with
  | false => simp
  | true =>
      cases hmem : s.memStall cfg i with
      | true => simp
      | false =>
          cases hamo : s.amoStall with
          | true => simpa [readsCounter_of_held hamo] using hne.symm
          | false =>
              cases hread : readsCounter cfg s i CsrAddr.minstret CsrAddr.minstreth with
              | true => simpa using hne
              | false => simp

theorem counts_iff (hw : 0 < w) (hzero : ZeroOperand s.reg2)
    (hfree : CountersFree cfg s i) (hmemory : s.reg3.valid = o.inMemory) :
    ((s.step cfg i).csr.mcycle = s.csr.mcycle + 1 ∧
        (s.step cfg i).csr.minstret =
          s.csr.minstret + BitVec.ofNat (w + w) (o.completes cfg s i).toNat) ↔
      Counts cfg s i := by
  have hne := ne_add_one hw s.csr.mcycle
  rw [minstret_iff hw hzero hfree hmemory, mcycle_step hzero hfree, Counts]
  cases hread : readsCounter cfg s i CsrAddr.mcycle CsrAddr.mcycleh with
  | true =>
      constructor
      · intro h
        exact absurd h.left hne
      · intro h
        exact absurd h.left (by decide)
  | false => simp

/-!
# Whole runs
-/

def completedIn (cfg : Config w) (x : Watched m) : List (CoreIn w) -> Nat
  | [] => 0
  | i :: is => (x.observer.completes cfg x.core i).toNat + completedIn cfg (x.step cfg i) is

/--
After every part of the run the counters have gone up by the cycles and by the
instructions that completed in program order.
-/
def CountedExactly (cfg : Config w) (x : Watched m) (is : List (CoreIn w)) : Prop :=
  forall pre, pre <+: is ->
    (Lib.run (Watched.step cfg) x pre).core.csr.mcycle =
        x.core.csr.mcycle + BitVec.ofNat (w + w) pre.length ∧
      (Lib.run (Watched.step cfg) x pre).core.csr.minstret =
        x.core.csr.minstret + BitVec.ofNat (w + w) (completedIn cfg x pre)

theorem countedExactly_cons {x : Watched m} {is : List (CoreIn w)}
    (hfirst : (x.step cfg i).core.csr.mcycle = x.core.csr.mcycle + 1 ∧
      (x.step cfg i).core.csr.minstret = x.core.csr.minstret +
        BitVec.ofNat (w + w) (x.observer.completes cfg x.core i).toNat) :
    CountedExactly cfg x (i :: is) ↔ CountedExactly cfg (x.step cfg i) is := by
  have hcycles : forall n, x.core.csr.mcycle + BitVec.ofNat (w + w) (n + 1) =
      (x.step cfg i).core.csr.mcycle + BitVec.ofNat (w + w) n := by
    intro n
    rw [hfirst.left, Nat.add_comm n 1, BitVec.ofNat_add, BitVec.add_assoc]
    rfl
  have hinstrs : forall n, x.core.csr.minstret +
      BitVec.ofNat (w + w) ((x.observer.completes cfg x.core i).toNat + n) =
        (x.step cfg i).core.csr.minstret + BitVec.ofNat (w + w) n := by
    intro n
    rw [hfirst.right, BitVec.ofNat_add, BitVec.add_assoc]
  constructor
  · intro h pre hpre
    obtain ⟨hc, hr⟩ := h (i :: pre) (List.cons_prefix_cons.mpr ⟨rfl, hpre⟩)
    exact ⟨hc.trans (hcycles _), hr.trans (hinstrs _)⟩
  · intro h pre hpre
    cases pre with
    | nil => simp [Lib.run, completedIn]
    | cons j pre =>
        obtain ⟨rfl, hrest⟩ := List.cons_prefix_cons.mp hpre
        obtain ⟨hc, hr⟩ := h pre hrest
        exact ⟨hc.trans (hcycles _).symm, hr.trans (hinstrs _).symm⟩

/--
A program that leaves the counters alone, in a run that keeps to program order.
-/
def CountersFreeInOrder (cfg : Config w) (x : Watched m) (i : CoreIn w) : Prop :=
  CountersFree cfg x.core i ∧ x.observer.KeepsOrder cfg x.core i

instance (cfg : Config w) (x : Watched m) (i : CoreIn w) :
    Decidable (CountersFreeInOrder cfg x i) := inferInstanceAs (Decidable (_ ∧ _))

theorem countedExactly_iff (hw : 0 < w) {x : Watched m} {is : List (CoreIn w)}
    (hzero : ZeroOperand x.core.reg2) (horder : InOrder cfg x)
    (hfree : Lib.Along (Watched.step cfg) (CountersFreeInOrder cfg) x is) :
    CountedExactly cfg x is ↔ Lib.Along (step cfg) (Counts cfg) x.core is := by
  induction is generalizing x with
  | nil =>
      constructor
      · intro _
        trivial
      · intro _ pre hpre
        rw [List.prefix_nil.mp hpre]
        simp [Lib.run, completedIn]
  | cons i is ih =>
      obtain ⟨⟨hnow, hkeeps⟩, hlater⟩ := hfree
      have hone := counts_iff hw hzero hnow horder.tracks.memory
      have hzero' : ZeroOperand (x.step cfg i).core.reg2 := zeroOperand_step hzero
      have hrest := ih hzero' (inOrder_step horder hkeeps) hlater
      constructor
      · intro h
        have hfirst := h [i] (List.cons_prefix_cons.mpr ⟨rfl, List.nil_prefix⟩)
        refine ⟨hone.mp ⟨hfirst.left, hfirst.right⟩, ?_⟩
        exact hrest.mp ((countedExactly_cons ⟨hfirst.left, hfirst.right⟩).mp h)
      · rintro ⟨hcounts, hcountsLater⟩
        exact (countedExactly_cons (hone.mpr hcounts)).mpr (hrest.mpr hcountsLater)

theorem counters_exact_iff (x : Xlen) (cfg : Config x.bits) (s : Core x.mmu)
    (is : List (CoreIn x.bits))
    (hfree : Lib.Along (Watched.step cfg) (CountersFreeInOrder cfg)
      (.start (s.reset cfg)) is) :
    CountedExactly cfg (.start (s.reset cfg)) is ↔
      Lib.Along (step cfg) (Counts cfg) (s.reset cfg) is := by
  have hw : 0 < x.bits := by cases x <;> decide
  have hzero : ZeroOperand (s.reset cfg).reg2 := fun _ => ⟨rfl, rfl⟩
  exact countedExactly_iff hw hzero (inOrder_start s) hfree

/-!
Two additions and a jump are counted.  A program that reads the cycle counter loses a
cycle, one with an atomic addition counts it three times, and with the split fetch an
addition at address zero is counted twice.
-/

def rv32Config : Config Xlen.rv32.bits := defaultConfig 32

def resetCore (cfg : Config Xlen.rv32.bits) : Watched Xlen.rv32.mmu :=
  .start ((powerUp .rv32).reset cfg)

def addRun : List (CoreIn Xlen.rv32.bits) :=
  [0x00500093, 0x00108133, 0x0100006f, nop, nop, nop, nop].map fetchOnly

theorem counters_exact_addRun :
    CountedExactly rv32Config (resetCore rv32Config) addRun ∧
      completedIn rv32Config (resetCore rv32Config) addRun = 3 := by
  refine ⟨?_, by decide +kernel⟩
  exact (counters_exact_iff .rv32 rv32Config (powerUp .rv32) addRun
    (by decide +kernel)).mpr (by decide +kernel)

def readCycleRun : List (CoreIn Xlen.rv32.bits) := [0xb00020f3, nop, nop, nop].map fetchOnly

def amoRun : List (CoreIn Xlen.rv32.bits) :=
  [0x0000202f, nop, nop, nop, nop, nop].map fun inst =>
    { fetchOnly inst with lsuAck := true }

def splitConfig : Config Xlen.rv32.bits :=
  { rv32Config with pipelineProfile := .sixStageSplitFetch }

/--
The first word comes out of the instruction memory in two cycles.
-/
def splitRun : List (CoreIn Xlen.rv32.bits) :=
  [0x00500093, 0x00500093, 0x00108133, nop, nop, nop].map fetchOnly

theorem counters_not_exact :
    (Lib.Along (step rv32Config) (CountersFree rv32Config) (resetCore rv32Config).core
          readCycleRun ∧
        ¬ CountedExactly rv32Config (resetCore rv32Config) readCycleRun) ∧
      (Lib.Along (step rv32Config) (CountersFree rv32Config) (resetCore rv32Config).core
          amoRun ∧
        ¬ CountedExactly rv32Config (resetCore rv32Config) amoRun) ∧
      Lib.Along (step splitConfig) (CountersFree splitConfig) (resetCore splitConfig).core
          splitRun ∧
        ¬ CountedExactly splitConfig (resetCore splitConfig) splitRun := by
  refine ⟨⟨by decide +kernel, ?_⟩, ⟨by decide +kernel, ?_⟩, by decide +kernel, ?_⟩
  · intro h
    exact absurd (h readCycleRun List.prefix_rfl).left (by decide +kernel)
  · intro h
    exact absurd (h amoRun List.prefix_rfl).right (by decide +kernel)
  · intro h
    exact absurd (h splitRun List.prefix_rfl).right (by decide +kernel)

end Core
end Pipe
end RvCores
