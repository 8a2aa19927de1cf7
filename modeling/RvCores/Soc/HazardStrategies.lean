import RvCores.Block.FMadd
import RvCores.Soc.Accrual
import RvCores.Soc.Integer

/-!
# The two hazard strategies

With and without forwarding the pipeline should run a floating-point program alike, and
as the sequential machine does.  Without forwarding nothing makes a fused multiply-add
wait for the load of its first operand: the check on float loads leaves that operand to
the integer unit, which looks at integer registers only.  With both strategies a bubble
can raise flags, and a word that traps but looks like a float load can keep fetch from
following the trap.
-/

namespace RvCores
namespace Soc

open Isa Block Pipe

/-!
# Sequences that agree
-/

namespace Writes

variable {w : Nat} {a b c : Writes w}

/--
One of the two is the beginning of the other, for each kind of write.
-/
structure Agrees (a b : Writes w) : Prop where
  regs : a.regs <+: b.regs ∨ b.regs <+: a.regs
  fregs : a.fregs <+: b.fregs ∨ b.fregs <+: a.fregs
  mem : a.mem <+: b.mem ∨ b.mem <+: a.mem
  csr : a.csr <+: b.csr ∨ b.csr <+: a.csr

theorem Begins.trans (h : a.Begins b) (h' : b.Begins c) : a.Begins c :=
  ⟨h.regs.trans h'.regs, h.fregs.trans h'.fregs, h.mem.trans h'.mem, h.csr.trans h'.csr⟩

theorem Begins.agrees (h : a.Begins c) (h' : b.Begins c) : a.Agrees b :=
  ⟨List.prefix_or_prefix_of_prefix h.regs h'.regs,
    List.prefix_or_prefix_of_prefix h.fregs h'.fregs,
    List.prefix_or_prefix_of_prefix h.mem h'.mem,
    List.prefix_or_prefix_of_prefix h.csr h'.csr⟩

end Writes

theorem Machine.trace_begins {w : Nat} {p : Platform w} {dev : Nat -> BitVec w}
    {σ : Machine w} {n k : Nat} (h : n <= k) :
    (σ.trace p dev n).Begins (σ.trace p dev k) := by
  induction h with
  | refl => exact ⟨List.prefix_rfl, List.prefix_rfl, List.prefix_rfl, List.prefix_rfl⟩
  | step _ ih => exact ih.trans (Writes.begins_append _ _)

/--
Two pipelines that follow the same machine agree.
-/
theorem Observed.Refines.agrees {w : Nat} {m : Mmu w} {P : RamPort w} {p : Platform w}
    {dev : Nat -> BitVec w} {cfg cfg' : Config w} {σ : Machine w} {o o' : Observed m P}
    (h : Refines p dev cfg σ o) (h' : Refines p dev cfg' σ o') :
    o.writes.Agrees o'.writes := by
  obtain ⟨n, hn, _⟩ := h.writes
  obtain ⟨k, hk, _⟩ := h'.writes
  exact (hn.trans (Machine.trace_begins (Nat.le_max_left n k))).agrees
    (hk.trans (Machine.trace_begins (Nat.le_max_right n k)))

namespace Pipeline

variable (p : Platform 32) (strategy : HazardStrategy) (o : Pipeline p.size)
  (i : SystemIn 32)

def strategyConfig : Config 32 := { p.config with hazardStrategy := strategy }

abbrev strategyIn : CoreIn 32 := o.sys.coreIn (strategyConfig p strategy) p.size i

/-!
# Cycles
-/

/--
The program is fetched without translation, and nothing interrupts it.
-/
structure Unbroken : Prop where
  inst : i.inst = p.fetch (o.sys.core.imemReadAddr (strategyConfig p strategy))
  off : o.sys.core.translateEnable = false
  noInterrupt : o.sys.core.interruptTaken (strategyConfig p strategy)
    (strategyIn p strategy o i) = false
  msip : i.msipPending = false
  timer : i.timerPending = false
  external : i.uartIrq = false

/--
Neither a multiply-add overtakes the load of its first operand, nor does a bubble raise a
flag, nor does a redirect meet a float load that makes fetch wait.
-/
structure Safe : Prop where
  fma : strategy = .noForward ->
    o.sys.core.pcStall (strategyConfig p strategy) (strategyIn p strategy o i) = false ->
      o.sys.core.fmaTakesLoad = false
  flags : o.sys.core.reg2.valid = false ->
    (o.sys.core.csrIn (strategyConfig p strategy) (strategyIn p strategy o i)).fpFlagsWe = true ->
      (o.sys.core.csrIn (strategyConfig p strategy) (strategyIn p strategy o i)).fpFlagsIn &&&
        ~~~o.sys.core.csr.fflags = 0
  load : o.sys.core.otherRedirectTaken (strategyConfig p strategy) = true ->
    o.sys.core.reg2Hold (strategyConfig p strategy) (strategyIn p strategy o i) = false ->
      o.sys.core.floatLoadUseHazard = false

instance : Decidable (Unbroken p strategy o i) :=
  decidable_of_iff
    (i.inst = p.fetch (o.sys.core.imemReadAddr (strategyConfig p strategy)) ∧
      o.sys.core.translateEnable = false ∧
      o.sys.core.interruptTaken (strategyConfig p strategy) (strategyIn p strategy o i) = false ∧
      i.msipPending = false ∧ i.timerPending = false ∧ i.uartIrq = false)
    ⟨fun ⟨h1, h2, h3, h4, h5, h6⟩ => ⟨h1, h2, h3, h4, h5, h6⟩,
      fun ⟨h1, h2, h3, h4, h5, h6⟩ => ⟨h1, h2, h3, h4, h5, h6⟩⟩

instance : Decidable (Safe p strategy o i) :=
  decidable_of_iff
    ((strategy = .noForward ->
        o.sys.core.pcStall (strategyConfig p strategy) (strategyIn p strategy o i) = false ->
          o.sys.core.fmaTakesLoad = false) ∧
      (o.sys.core.reg2.valid = false ->
        (o.sys.core.csrIn (strategyConfig p strategy) (strategyIn p strategy o i)).fpFlagsWe =
            true ->
          (o.sys.core.csrIn (strategyConfig p strategy)
              (strategyIn p strategy o i)).fpFlagsIn &&& ~~~o.sys.core.csr.fflags = 0) ∧
      (o.sys.core.otherRedirectTaken (strategyConfig p strategy) = true ->
        o.sys.core.reg2Hold (strategyConfig p strategy) (strategyIn p strategy o i) = false ->
          o.sys.core.floatLoadUseHazard = false))
    ⟨fun ⟨h1, h2, h3⟩ => ⟨h1, h2, h3⟩, fun ⟨h1, h2, h3⟩ => ⟨h1, h2, h3⟩⟩

def strategyStart (c : Core Sv32.mmu) (ram : RamAdapter 32) : Pipeline p.size :=
  Observed.start (directReset (strategyConfig p strategy) p.size c ram)

section Run

variable {p} {strategy} {o} {i}

theorem ordinary_of_safe (hu : Unbroken p strategy o i) (hsafe : Safe p strategy o i) :
    System.Ordinary p (strategyConfig p strategy) o.sys i := by
  refine ⟨hu.inst, hu.off, hu.noInterrupt, hsafe.load, hsafe.flags, ?_⟩
  intro hforwards
  refine hsafe.fma ?_
  cases strategy with
  | forwarding => cases hforwards
  | noForward => rfl

structure Alike (p : Platform 32) (strategy : HazardStrategy) (σ : Machine 32)
    (o : Pipeline p.size) : Prop where
  tracked : Observed.Tracked p (RamAdapter.discipline 32 p.size) (strategyConfig p strategy) σ o
  noAmo : o.sys.core.reg3.isAmo = false

theorem alike_start (c : Core Sv32.mmu) (ram : RamAdapter 32) :
    Alike p strategy (bootMachine p c ram) (strategyStart p strategy c ram) where
  tracked := tracked_reset Sv32.mmu_lawful.toPtwLawful rfl rfl
  noAmo := rfl

theorem alike_step {σ : Machine 32} (hsize : p.size <= uartRegion.base) (hamo : p.NoAmo)
    (h : Alike p strategy σ o) (hu : Unbroken p strategy o i)
    (hsafe : Safe p strategy o i) :
    Alike p strategy σ (o.step (strategyConfig p strategy) p.size i) := by
  have hrel := h.tracked.follows 0
  have hcalm := (ordinary_of_safe hu hsafe).calm_of_noAmo rfl rfl hamo hrel h.noAmo
  constructor
  · refine Observed.tracked_step Sv32.mmu_lawful.toPtwLawful hsize rfl hcalm ?_ h.tracked
    show Lines.mk i.msipPending i.timerPending i.uartIrq = .silent
    rw [hu.msip, hu.timer, hu.external]
    rfl
  · rw [Observed.sys_step]
    exact System.noAmo_step hamo hrel.occupied h.noAmo

end Run

/-!
# The result
-/

/--
In runs whose cycles are all safe, both strategies do what the sequential machine does.
-/
theorem hazard_strategies_agree (p : Platform 32) (hsize : p.size <= uartRegion.base)
    (hamo : p.NoAmo) (hcounters : p.NoCounters) (dev : Nat -> BitVec 32)
    (c : Core Sv32.mmu) (ram : RamAdapter 32) (o : HazardStrategy -> Pipeline p.size)
    (hrun : forall strategy, Lib.ReachableWhen
      (Observed.step (strategyConfig p strategy) p.size)
      (fun o i => Unbroken p strategy o i ∧ Safe p strategy o i)
      (strategyStart p strategy c ram) (o strategy))
    (hdev : forall strategy,
      Machine.Answered p dev (bootMachine p c ram) (o strategy).settled) :
    (forall strategy, Observed.Refines p dev (strategyConfig p strategy)
      (bootMachine p c ram) (o strategy)) ∧
      (o .forwarding).writes.Agrees (o .noForward).writes := by
  have halike : forall strategy, Alike p strategy (bootMachine p c ram) (o strategy) :=
    fun strategy => Lib.invariant_of_reachableWhen (alike_start c ram)
      (fun _ _ h hcycle => alike_step hsize hamo h hcycle.left hcycle.right) (hrun strategy)
  have hrefines : forall strategy, Observed.Refines p dev (strategyConfig p strategy)
      (bootMachine p c ram) (o strategy) :=
    fun strategy => (halike strategy).tracked.refines hcounters (hdev strategy)
  exact ⟨hrefines, (hrefines .forwarding).agrees (hrefines .noForward)⟩

/-!
A multiply-add directly behind the load of its first operand.  Without forwarding it takes
the address of the load, which counts as zero.
-/

def multipliesLoaded : Platform 32 :=
  { fetch := fun a =>
      if a = 0 then 0x3f8000b7
      else if a = 4 then 0x00102423
      else if a = 8 then 0x00802107
      else if a = 12 then 0x00802087
      else if a = 16 then 0x002081c3
      else 0x0000006f
    size := 128
    fma := fmaddUnit }

def multipliesLoadedWords : List Word :=
  [0x3f8000b7, 0x00102423, 0x00802107, 0x00802087, 0x002081c3, 0x0000006f]

theorem multipliesLoaded_fetch (a : BitVec 32) :
    multipliesLoaded.fetch a ∈ multipliesLoadedWords := by
  simp only [multipliesLoaded]
  repeat' first
    | apply Isa.ite_mem
    | decide

theorem multipliesLoaded_words : multipliesLoadedWords.all (fun x =>
    !(Isa.control 32 (instFinal x)).isAmo && !(Isa.control 32 (instFinal x)).isCsr &&
      loadsFixed 32 128 (instFinal x)) = true := by
  decide +kernel

theorem multipliesLoaded_kinds (a : BitVec 32) :
    ((Isa.control 32 (instFinal (multipliesLoaded.fetch a))).isAmo = false ∧
      (Isa.control 32 (instFinal (multipliesLoaded.fetch a))).isCsr = false) ∧
        loadsFixed 32 128 (instFinal (multipliesLoaded.fetch a)) = true := by
  have hword := List.all_eq_true.mp multipliesLoaded_words _ (multipliesLoaded_fetch a)
  simpa only [Bool.and_eq_true, Bool.not_eq_true'] using hword

theorem multipliesLoaded_noAmo : multipliesLoaded.NoAmo :=
  fun a => (multipliesLoaded_kinds a).left.left

theorem multipliesLoaded_noCounters : multipliesLoaded.NoCounters := by
  intro a hcsr
  rw [(multipliesLoaded_kinds a).left.right] at hcsr
  cases hcsr

theorem multipliesLoaded_readsRam (σ : Machine 32) :
    σ.ReadsRam multipliesLoaded noDevices :=
  Machine.readsRam_of_fixed fun a => (multipliesLoaded_kinds a).right

def multiplying (strategy : HazardStrategy) (o : Pipeline multipliesLoaded.size) :
    SystemIn 32 :=
  { inst :=
      multipliesLoaded.fetch (o.sys.core.imemReadAddr (strategyConfig multipliesLoaded strategy)) }

def multipliesLoadedRun (strategy : HazardStrategy) : Nat -> Pipeline multipliesLoaded.size :=
  Lib.driven (Observed.step (strategyConfig multipliesLoaded strategy) multipliesLoaded.size)
    (multiplying strategy)
    (strategyStart multipliesLoaded strategy (Core.powerUp .rv32) emptyPort.adapter)

/--
The cycles before the multiply-add comes to execute too early.
-/
def safeUntil : HazardStrategy -> Nat
  | .forwarding => 14
  | .noForward => 9

theorem multipliesLoaded_cycles (strategy : HazardStrategy) : forall k, k < 14 ->
    Unbroken multipliesLoaded strategy (multipliesLoadedRun strategy k)
      (multiplying strategy (multipliesLoadedRun strategy k)) ∧
    (k < safeUntil strategy -> Safe multipliesLoaded strategy (multipliesLoadedRun strategy k)
      (multiplying strategy (multipliesLoadedRun strategy k))) := by
  cases strategy <;> decide +kernel

theorem multipliesLoaded_unbroken (strategy : HazardStrategy) : forall k, k < 14 ->
    Unbroken multipliesLoaded strategy (multipliesLoadedRun strategy k)
      (multiplying strategy (multipliesLoadedRun strategy k)) :=
  fun k hk => (multipliesLoaded_cycles strategy k hk).left

theorem multipliesLoaded_safe (strategy : HazardStrategy) : forall k, k < safeUntil strategy ->
    Safe multipliesLoaded strategy (multipliesLoadedRun strategy k)
      (multiplying strategy (multipliesLoadedRun strategy k)) := by
  intro k hk
  have hle : safeUntil strategy <= 14 := by cases strategy <;> decide
  exact (multipliesLoaded_cycles strategy k (Nat.lt_of_lt_of_le hk hle)).right hk

theorem hazard_strategies_agree_until :
    (forall strategy, Observed.Refines multipliesLoaded noDevices
      (strategyConfig multipliesLoaded strategy)
      (bootMachine multipliesLoaded (Core.powerUp .rv32) emptyPort.adapter)
      (multipliesLoadedRun strategy (safeUntil strategy))) ∧
      (multipliesLoadedRun .forwarding (safeUntil .forwarding)).writes.Agrees
        (multipliesLoadedRun .noForward (safeUntil .noForward)).writes := by
  refine hazard_strategies_agree multipliesLoaded (by decide) multipliesLoaded_noAmo
    multipliesLoaded_noCounters noDevices (Core.powerUp .rv32) emptyPort.adapter
    (fun strategy => multipliesLoadedRun strategy (safeUntil strategy)) ?_ ?_
  · intro strategy
    refine Lib.reachableWhen_driven _ fun k hk => ⟨multipliesLoaded_unbroken strategy k ?_,
      multipliesLoaded_safe strategy k hk⟩
    have hle : safeUntil strategy <= 14 := by cases strategy <;> decide
    exact Nat.lt_of_lt_of_le hk hle
  · exact fun strategy => (multipliesLoaded_readsRam _).answered _

/--
The two strategies write different values to the third float register.
-/
theorem hazard_strategies_differ :
    multipliesLoaded.NoAmo ∧ multipliesLoaded.NoCounters ∧
      (forall strategy, Lib.ReachableWhen
        (Observed.step (strategyConfig multipliesLoaded strategy) multipliesLoaded.size)
        (Unbroken multipliesLoaded strategy)
        (strategyStart multipliesLoaded strategy (Core.powerUp .rv32) emptyPort.adapter)
        (multipliesLoadedRun strategy 14)) ∧
      ¬ (multipliesLoadedRun .forwarding 14).writes.Agrees
          (multipliesLoadedRun .noForward 14).writes := by
  refine ⟨multipliesLoaded_noAmo, multipliesLoaded_noCounters, ?_, ?_⟩
  · exact fun strategy => Lib.reachableWhen_driven 14 (multipliesLoaded_unbroken strategy)
  · intro h
    have hnone : ¬ ((multipliesLoadedRun .forwarding 14).writes.fregs <+:
          (multipliesLoadedRun .noForward 14).writes.fregs ∨
        (multipliesLoadedRun .noForward 14).writes.fregs <+:
          (multipliesLoadedRun .forwarding 14).writes.fregs) := by
      decide +kernel
    exact hnone h.fregs

end Pipeline
end Soc
end RvCores
