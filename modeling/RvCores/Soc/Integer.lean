import RvCores.Pipe.PowerUp
import RvCores.Soc.Ordinary
import RvCores.Soc.Trace

/-!
# Integer programs

The pipeline in its basic form runs integer programs in machine mode.  Whatever stalls,
forwards and redirects meet in a cycle, what it writes is the beginning of what the
sequential machine writes, and execute holds the sequential machine's next instruction
with its operands.
-/

namespace RvCores
namespace Soc

open Isa Block Pipe
open Pipe.Core (isOpFp isFma Words)

variable {w : Nat} {m : Mmu w}

/-!
# Programs
-/

def isFloat (inst : Word) : Bool :=
  isOpFp inst || isFma inst || inst.opcode == opcodeLoadFp || inst.opcode == opcodeStoreFp

/--
Nothing is atomic, works on floats or reads the counters.
-/
structure Platform.Integer (p : Platform w) : Prop where
  amo : p.NoAmo
  float : forall a, isFloat (instFinal (p.fetch a)) = false
  counters : p.NoCounters

/--
Forwarding, five stages, static prediction and no cache.
-/
structure Basic (p : Platform w) (cfg : Config w) : Prop where
  forwards : cfg.hazardStrategy = .forwarding
  profile : cfg.pipelineProfile = .fiveStage
  predictor : cfg.branchPredictor = .static
  cache : cfg.cacheMode = .none
  fma : cfg.fmaddUnit = p.fma

namespace Basic

variable {p : Platform w} {cfg : Config w} (h : Basic p cfg)

include h

theorem forwards_eq : cfg.forwards = true := decide_eq_true h.forwards
theorem splitFetch_eq : cfg.splitFetch = false := by
  rw [Config.splitFetch, h.profile]
  rfl
theorem dynamic_eq : cfg.dynamic = false := by
  rw [Config.dynamic, h.predictor]
  rfl
theorem cached_eq : cfg.cached = false := by
  rw [Config.cached, h.cache]
  rfl

end Basic

/-!
# Cycles
-/

abbrev Basically (m : Mmu w) (size : Nat) := Observed m (RamPort.direct w size)

/--
The program is fetched in machine mode, and the interrupt lines are silent.
-/
structure InMachineMode (p : Platform w) (cfg : Config w) (o : Basically m p.size)
    (i : SystemIn w) : Prop where
  inst : i.inst = p.fetch (o.sys.core.imemReadAddr cfg)
  privMode : o.sys.core.csr.privMode = privM
  msip : i.msipPending = false
  timer : i.timerPending = false
  external : i.uartIrq = false

section Run

variable {p : Platform w} {cfg : Config w} {σ : Machine w} {o : Basically m p.size}
  {i : SystemIn w}

theorem InMachineMode.noInterrupt (h : InMachineMode p cfg o i) :
    o.sys.core.interruptTaken cfg (o.sys.coreIn cfg p.size i) = false := by
  have hpending : o.sys.core.interruptPending (o.sys.coreIn cfg p.size i) = false := by
    simp [Core.interruptPending, Core.meiPending, Core.msiPending, Core.mtiPending,
      Core.ssiPending, Core.stiPending, System.coreIn, h.privMode, h.msip, h.timer,
      h.external, privM, privS]
  rw [Core.interruptTaken, hpending]
  rfl

/--
What is known along the run of an integer program.
-/
structure Along (p : Platform w) (cfg : Config w) (σ : Machine w) (o : Basically m p.size) :
    Prop where
  tracked : Observed.Tracked p (RamAdapter.discipline w p.size) cfg σ o
  noAmo : o.sys.core.reg3.isAmo = false
  words : Words (fun inst => isFloat inst = false) o.sys.core

theorem Along.ordinary (hcfg : Basic p cfg) (h : Along p cfg σ o)
    (hu : InMachineMode p cfg o i) : System.Ordinary p cfg o.sys i := by
  have hfloat := h.words.execute
  simp only [isFloat, Bool.or_eq_false_iff] at hfloat
  obtain ⟨⟨⟨hop, hfma⟩, hload⟩, _⟩ := hfloat
  refine ⟨hu.inst, ?_, hu.noInterrupt, ?_, ?_, ?_⟩
  · rw [Core.translateEnable, hu.privMode, bne_self_eq_false, Bool.and_false]
  · intro _ _
    rw [Core.floatLoadUseHazard, Core.isLoadFpRegde, hload]
    rfl
  · intro _ hwe
    have hnone : (o.sys.core.csrIn cfg (o.sys.coreIn cfg p.size i)).fpFlagsWe = false := by
      show ((isOpFp o.sys.core.reg2.inst || isFma o.sys.core.reg2.inst) && _) = false
      rw [hop, hfma]
      rfl
    rw [hnone] at hwe
    cases hwe
  · intro hforwards
    rw [hcfg.forwards_eq] at hforwards
    cases hforwards

theorem along_start (hm : m.PtwLawful) (hcfg : Basic p cfg) (c : Core m)
    (ram : RamAdapter w) :
    Along p cfg (sequentialReset cfg p.size c ram)
      (Observed.start (directReset cfg p.size c ram)) where
  tracked := tracked_reset hm hcfg.cached_eq hcfg.splitFetch_eq
  noAmo := rfl
  words := ⟨rfl, rfl⟩

theorem along_step (hm : m.PtwLawful) (hsize : p.size <= uartRegion.base)
    (hprogram : p.Integer) (hcfg : Basic p cfg) (h : Along p cfg σ o)
    (hu : InMachineMode p cfg o i) : Along p cfg σ (o.step cfg p.size i) := by
  have hrel := h.tracked.follows 0
  have hcalm := (h.ordinary hcfg hu).calm_of_noAmo hcfg.dynamic_eq hcfg.splitFetch_eq
    hprogram.amo hrel h.noAmo
  refine ⟨?_, ?_, ?_⟩
  · refine Observed.tracked_step hm hsize hcfg.fma hcalm ?_ h.tracked
    show Lines.mk i.msipPending i.timerPending i.uartIrq = .silent
    rw [hu.msip, hu.timer, hu.external]
    rfl
  · rw [Observed.sys_step]
    exact System.noAmo_step hprogram.amo hrel.occupied h.noAmo
  · rw [Observed.sys_step]
    refine h.words.step rfl ?_
    show isFloat (instFinal i.inst) = false
    rw [hu.inst]
    exact hprogram.float _

end Run

/-!
# The result
-/

/--
No device is read.
-/
def noDevices : Nat -> BitVec w := fun _ => 0

/--
In every cycle of every run, what the pipeline has written is the beginning of what the
sequential machine writes.
-/
theorem integer_refines_sequential (x : Xlen) (p : Platform x.bits) (cfg : Config x.bits)
    (hsize : p.size <= uartRegion.base) (hprogram : p.Integer) (hcfg : Basic p cfg)
    (c : Core x.mmu) (ram : RamAdapter x.bits)
    (hram : (sequentialReset cfg p.size c ram).ReadsRam p noDevices) (o : Basically x.mmu p.size)
    (hrun : Lib.ReachableWhen (Observed.step cfg p.size) (InMachineMode p cfg)
      (Observed.start (directReset cfg p.size c ram)) o) :
    Observed.Refines p noDevices cfg (sequentialReset cfg p.size c ram) o := by
  have hm := x.mmu_lawful.toPtwLawful
  have halong : Along p cfg (sequentialReset cfg p.size c ram) o :=
    Lib.invariant_of_reachableWhen (along_start hm hcfg c ram)
      (fun _ _ h hu => along_step hm hsize hprogram hcfg h hu) hrun
  exact halong.tracked.refines hprogram.counters (hram.answered _)

/-!
A program that stores a word, loads it and divides it.
-/

def storesLoads : Platform 32 :=
  { fetch := fun a =>
      if a = 0 then 0x00500093
      else if a = 4 then 0x00102423
      else if a = 8 then 0x00802103
      else if a = 12 then 0x02114233
      else 0x0000006f
    size := 128
    fma := noFma }

def storesLoadsWords : List Word :=
  [0x00500093, 0x00102423, 0x00802103, 0x02114233, 0x0000006f]

theorem storesLoads_fetch (a : BitVec 32) : storesLoads.fetch a ∈ storesLoadsWords := by
  simp only [storesLoads]
  repeat' first
    | apply Isa.ite_mem
    | decide

theorem storesLoads_integer : storesLoads.Integer := by
  have hall : storesLoadsWords.all (fun x =>
      !(Isa.control 32 (instFinal x)).isAmo && !isFloat (instFinal x) &&
        !(Isa.control 32 (instFinal x)).isCsr) = true := by
    decide +kernel
  have hkinds : forall a,
      (Isa.control 32 (instFinal (storesLoads.fetch a))).isAmo = false ∧
        isFloat (instFinal (storesLoads.fetch a)) = false ∧
          (Isa.control 32 (instFinal (storesLoads.fetch a))).isCsr = false := by
    intro a
    have hword := List.all_eq_true.mp hall _ (storesLoads_fetch a)
    simpa [and_assoc] using hword
  refine ⟨fun a => (hkinds a).left, fun a => (hkinds a).right.left, ?_⟩
  intro a hcsr
  rw [(hkinds a).right.right] at hcsr
  cases hcsr

theorem storesLoads_readsRam (σ : Machine 32) : σ.ReadsRam storesLoads noDevices := by
  apply Machine.readsRam_of_fixed
  have hall : storesLoadsWords.all (fun x => loadsFixed 32 128 (instFinal x)) = true := by
    decide +kernel
  exact fun a => List.all_eq_true.mp hall _ (storesLoads_fetch a)

def storesLoadsRun : Nat -> Basically Xlen.rv32.mmu 128 :=
  Lib.driven (Observed.step (defaultConfig 32) 128)
    (fun o => { inst := storesLoads.fetch (o.sys.core.imemReadAddr (defaultConfig 32)) })
    (Observed.start (directReset (defaultConfig 32) 128 (Core.powerUp .rv32)
      emptyPort.adapter))

theorem storesLoads_refines :
    Observed.Refines storesLoads noDevices (defaultConfig 32)
      (sequentialReset (defaultConfig 32) 128 (Core.powerUp .rv32) emptyPort.adapter)
      (storesLoadsRun 48) := by
  have hmode : forall k, k < 48 -> (storesLoadsRun k).sys.core.csr.privMode = privM := by
    decide +kernel
  exact integer_refines_sequential .rv32 storesLoads (defaultConfig 32) (by decide)
    storesLoads_integer ⟨rfl, rfl, rfl, rfl, rfl⟩ (Core.powerUp .rv32) emptyPort.adapter
    (storesLoads_readsRam _) (storesLoadsRun 48)
    (Lib.reachableWhen_driven 48 fun k hk => ⟨rfl, hmode k hk, rfl, rfl, rfl⟩)

end Soc
end RvCores
