import RvCores.Soc.Ordinary

/-!
# Accrued floating-point flags

The flags register collects what the floating-point instructions raise until a program
writes it.  In the pipeline a word can stand in execute without being executed: the
bubble behind a load keeps the word that waits, and with it the operands that are not
there yet.
-/

namespace RvCores

/-!
# What the flags should be
-/

namespace Pipe
namespace Instr

open Isa Block

variable {w : Nat} (x : Instr w) (fma : FmaddUnit) (lines : Lines)

def writesFlags : Bool :=
  Csr.writes (x.csrIn fma lines) CsrAddr.fflags || Csr.writes (x.csrIn fma lines) CsrAddr.fcsr

def flagsWritten : BitVec 5 := (x.csr.newVal vlen (x.csrIn fma lines)).setWidth 5

def flagsRaised : BitVec 5 := Core.fpFlagBits (x.fpOut fma).flags

def accrue (old : BitVec 5) : BitVec 5 :=
  if x.isFp then old ||| x.flagsRaised fma
  else if x.writesFlags fma lines then x.flagsWritten fma lines
  else old

end Instr
end Pipe

namespace Soc

open Isa Block Pipe

variable {w : Nat} {m : Mmu w}

namespace Machine

/--
The value written last, with the flags of the floating-point instructions since: each
instruction is evaluated on the registers that the sequential machine has.
-/
def accrued (p : Platform w) : Machine w -> List (Event w) -> BitVec 5 -> BitVec 5
  | _, [], flags => flags
  | σ, .instr t :: events, flags =>
      accrued p (σ.next p (.instr t)) events ((σ.instr p t).accrue p.fma t.lines flags)
  | σ, .interrupt cause vector :: events, flags =>
      accrued p (σ.next p (.interrupt cause vector)) events flags

variable {p : Platform w} {σ : Machine w}

theorem fflags_exec (t : Moment w) :
    (σ.exec p t).csr.fflags = (σ.instr p t).accrue p.fma t.lines σ.csr.fflags := rfl

theorem fflags_interrupt (cause vector : BitVec w) :
    (σ.interrupt cause vector).csr.fflags = σ.csr.fflags := by
  show (σ.csr.trapEntry (σ.interruptIn cause)).fflags = σ.csr.fflags
  unfold Csr.trapEntry
  split <;> rfl

theorem fflags_after (events : List (Event w)) :
    (σ.after p events).csr.fflags = accrued p σ events σ.csr.fflags := by
  induction events generalizing σ with
  | nil => rfl
  | cons e events ih =>
      show ((σ.next p e).after p events).csr.fflags = _
      rw [ih]
      cases e with
      | instr t => exact congrArg _ (fflags_exec t)
      | interrupt cause vector => exact congrArg _ (fflags_interrupt cause vector)

end Machine

/-!
# The default pipeline
-/

/--
Nothing in the program is atomic or returns from a trap.
-/
structure Platform.Rv32imf (p : Platform 32) : Prop where
  amo : p.NoAmo
  mret : forall a, (Isa.control 32 (instFinal (p.fetch a))).isMret = false
  sret : forall a, (Isa.control 32 (instFinal (p.fetch a))).isSret = false

def Platform.config (p : Platform 32) : Config 32 :=
  { defaultConfig 32 with fmaddUnit := p.fma }

abbrev Pipeline (size : Nat) := Observed Sv32.mmu (RamPort.direct 32 size)

namespace Pipeline

variable (p : Platform 32) (o : Pipeline p.size) (i : SystemIn 32)

abbrev coreIn : CoreIn 32 := o.sys.coreIn p.config p.size i

/--
The program is fetched, and neither a trap nor an interrupt is taken.
-/
structure Untrapped : Prop where
  inst : i.inst = p.fetch (o.sys.core.imemReadAddr p.config)
  noTrap : (o.sys.core.csrIn p.config (coreIn p o i)).trapTaken = false

/--
A bubble in execute raises no flag that is not set already.
-/
def BubbleRaisesNothing : Prop :=
  o.sys.core.reg2.valid = false ->
    (o.sys.core.csrIn p.config (coreIn p o i)).fpFlagsWe = true ->
      (o.sys.core.csrIn p.config (coreIn p o i)).fpFlagsIn &&& ~~~o.sys.core.csr.fflags = 0

def boot (c : Core Sv32.mmu) (ram : RamAdapter 32) : Pipeline p.size :=
  Observed.start (directReset p.config p.size c ram)

def bootMachine (c : Core Sv32.mmu) (ram : RamAdapter 32) : Machine 32 :=
  sequentialReset p.config p.size c ram

/--
The flags register, and what an instruction in execute reads there.
-/
structure FlagsExact (σ : Machine 32) : Prop where
  held : forall v, o.sys.core.csr.fflags = σ.accrued p (o.events v) 0
  read : forall j v, o.sys.core.reg2.valid = true -> o.sys.core.reg2.ctrl.isCsr = true ->
    o.sys.core.reg2.imm.setWidth 12 = CsrAddr.fflags ->
      o.sys.core.exResult p.config (coreIn p o j) = (σ.accrued p (o.events v) 0).setWidth 32

variable {p} {o} {i}

/-!
# A run without traps
-/

structure Machinelike (p : Platform 32) (σ : Machine 32) (o : Pipeline p.size) : Prop where
  steady : Steady p p.config σ o
  privMode : o.sys.core.csr.privMode = privM

theorem trapTaken_parts (h : Untrapped p o i) :
    o.sys.core.interruptTaken p.config (coreIn p o i) = false ∧
      (o.sys.core.reg2Hold p.config (coreIn p o i) = false ->
        o.sys.core.exceptionTaken p.config = false) := by
  have hnone := h.noTrap
  change (o.sys.core.exceptionTaken p.config && !o.sys.core.reg2Hold p.config (coreIn p o i) ||
    o.sys.core.interruptTaken p.config (coreIn p o i)) = false at hnone
  rw [Bool.or_eq_false_iff] at hnone
  refine ⟨hnone.right, ?_⟩
  intro hhold
  rw [hhold, Bool.not_false, Bool.and_true] at hnone
  exact hnone.left

/--
A cycle without traps has nothing left to ask of but its bubble.
-/
theorem ordinary_of_untrapped {σ : Machine 32} {bytes : Bytes} {τ : Machine 32} {v : BitVec 32}
    (hh : Machinelike p σ o)
    (hrel : System.Rel p (RamAdapter.discipline 32 p.size) p.config o.sys bytes τ v)
    (hu : Untrapped p o i) (hbubble : BubbleRaisesNothing p o i) :
    System.Ordinary p p.config o.sys i := by
  obtain ⟨hint, hexception⟩ := trapTaken_parts hu
  have hoff : o.sys.core.translateEnable = false := by
    rw [Core.translateEnable, hh.privMode, bne_self_eq_false, Bool.and_false]
  have hplain := hrel.settled.untranslated hoff
  refine ⟨hu.inst, hoff, hint, ?_, hbubble, fun h => Bool.noConfusion h⟩
  intro hredirect hhold
  cases hrel.occupied with
  | quiet hquiet =>
      rw [hquiet.otherRedirectTaken hplain] at hredirect
      cases hredirect
  | live hholds hissued =>
      have hshows := hrel.data.shows hplain hholds hissued
      rw [hshows.redirects_of_static rfl, Instr.redirects] at hredirect
      cases hload : o.sys.core.isLoadFpRegde with
      | false => simp [Core.floatLoadUseHazard, hload]
      | true =>
          rw [Core.isLoadFpRegde, hholds.inst, beq_iff_eq] at hload
          obtain ⟨hbranch, hjump, hmret, hsret⟩ := Instr.noJump_of_loadFp hload
          have hnone := hexception hhold
          rw [hshows.exceptionTaken] at hnone
          rw [hnone, Instr.taken, Instr.mretReal, Instr.sretReal, hbranch, hjump, hmret, hsret]
            at hredirect
          simp at hredirect

theorem returns_none {s : Core Sv32.mmu} {τ : Machine 32} (hprogram : p.Rv32imf)
    (h : System.Occupied p p.config s τ) :
    s.reg2.ctrl.isMret = false ∧ s.reg2.ctrl.isSret = false := by
  cases h with
  | live hholds =>
      rw [hholds.ctrl]
      exact ⟨hprogram.mret τ.pc, hprogram.sret τ.pc⟩
  | quiet hquiet =>
      rcases hquiet.ctrl with hctrl | hctrl <;> rw [hctrl] <;> exact ⟨rfl, rfl⟩

theorem machinelike_start (c : Core Sv32.mmu) (ram : RamAdapter 32) :
    Machinelike p (bootMachine p c ram) (boot p c ram) where
  steady := steady_start Sv32.mmu_lawful.toPtwLawful rfl rfl
  privMode := rfl

theorem machinelike_step {σ : Machine 32} (hsize : p.size <= uartRegion.base)
    (hprogram : p.Rv32imf) (h : Machinelike p σ o) (hu : Untrapped p o i)
    (hbubble : BubbleRaisesNothing p o i) :
    Machinelike p σ (o.step p.config p.size i) := by
  have hrel := h.steady.follows 0
  have ho := ordinary_of_untrapped h hrel hu hbubble
  constructor
  · exact steady_step Sv32.mmu_lawful.toPtwLawful hsize rfl rfl rfl hprogram.amo h.steady ho
  · rw [Observed.sys_step]
    obtain ⟨hmret, hsret⟩ := returns_none hprogram hrel.occupied
    show o.sys.core.csr.nextPrivMode
      (o.sys.core.csrIn p.config (coreIn p o i)) = privM
    have hnoMret : (o.sys.core.csrIn p.config (coreIn p o i)).mretTaken = false := by
      show (o.sys.core.mretReal && _) = false
      rw [Core.mretReal, hmret]
      rfl
    have hnoSret : (o.sys.core.csrIn p.config (coreIn p o i)).sretTaken = false := by
      show (o.sys.core.sretReal && _) = false
      rw [Core.sretReal, hsret]
      rfl
    rw [Csr.nextPrivMode, hu.noTrap, hnoMret, hnoSret]
    exact h.privMode

/-!
# Exact flags
-/

theorem flagsExact_of_follows {c : Core Sv32.mmu} {ram : RamAdapter 32}
    (h : Machinelike p (bootMachine p c ram) o) : FlagsExact p o (bootMachine p c ram) := by
  have hheld : forall v, o.sys.core.csr.fflags =
      (bootMachine p c ram).accrued p (o.events v) 0 := by
    intro v
    have hsame := congrArg Csr.fflags (h.steady.follows v).csr
    exact hsame.trans (Machine.fflags_after _)
  refine ⟨hheld, ?_⟩
  intro j v hvalid hcsr haddr
  have hplain : Core.isOpFp o.sys.core.reg2.inst = false ∧
      Core.isFma o.sys.core.reg2.inst = false := by
    cases (h.steady.follows v).occupied with
    | quiet hquiet =>
        rw [hquiet.valid] at hvalid
        cases hvalid
    | live hholds =>
        rw [<- Bool.or_eq_false_iff, hholds.inst]
        cases hfp : Core.isOpFp _ || Core.isFma _ with
        | false => rfl
        | true =>
            have hnone := (Core.control_isFp hfp).right.right.left
            rw [<- hholds.ctrl, hcsr] at hnone
            cases hnone
  rw [Core.exResult, Core.isOpFpRegde, Core.isFmaRegde, hplain.left, hplain.right, hcsr,
    Core.csrOldVal, <- hheld v]
  have haddr' : (o.sys.core.csrIn p.config (coreIn p o j)).addr = CsrAddr.fflags := haddr
  unfold Csr.rdata Csr.rdataBase
  rw [haddr']
  rfl

/--
Flags that are set already are not new.
-/
theorem noNew_of_or_eq {old new : BitVec 5} (h : old ||| new = old) : new &&& ~~~old = 0 := by
  apply BitVec.eq_of_getLsbD_eq
  intro k hk
  have hbit := congrArg (fun b : BitVec 5 => b.getLsbD k) h
  simp only [BitVec.getLsbD_or] at hbit
  rw [BitVec.getLsbD_and, BitVec.getLsbD_not]
  cases hold : old.getLsbD k with
  | true => simp
  | false =>
      rw [hold, Bool.false_or] at hbit
      simp [hbit]

/--
A flag that a bubble raises stays, and no instruction has raised it.
-/
theorem bubbleRaisesNothing_of_exact {c : Core Sv32.mmu} {ram : RamAdapter 32}
    (hexact : FlagsExact p o (bootMachine p c ram))
    (h : FlagsExact p (o.step p.config p.size i) (bootMachine p c ram)) :
    BubbleRaisesNothing p o i := by
  intro hvalid hflags
  have hhold : o.sys.core.reg2Hold p.config (coreIn p o i) = false := by
    have hboth : ((o.sys.core.isOpFpRegde || o.sys.core.isFmaRegde) &&
        !o.sys.core.reg2Hold p.config (coreIn p o i)) = true := hflags
    simpa using (Bool.and_eq_true_iff.mp hboth).right
  have hgo := System.backHold_of_noHold hhold
  have hafter := h.held 0
  rw [Observed.events_stay hgo (by rw [hvalid, Bool.and_false]), <- hexact.held,
    Observed.sys_step] at hafter
  have hstep : (o.sys.step p.config p.size i).core.csr.fflags =
      o.sys.core.csr.fflags ||| (o.sys.core.csrIn p.config (coreIn p o i)).fpFlagsIn :=
    if_pos hflags
  exact noNew_of_or_eq (hstep.symm.trans hafter)

/--
In a run whose bubbles raise nothing the flags are exactly those of the instructions
executed, and the first bubble that raises one makes them wrong.
-/
theorem fflags_exact_iff_quietBubbles (p : Platform 32) (hsize : p.size <= uartRegion.base)
    (hprogram : p.Rv32imf) (c : Core Sv32.mmu) (ram : RamAdapter 32) (o : Pipeline p.size)
    (hrun : Lib.ReachableWhen (Observed.step p.config p.size)
      (fun o i => Untrapped p o i ∧ BubbleRaisesNothing p o i) (boot p c ram) o) :
    FlagsExact p o (bootMachine p c ram) ∧
      forall i, Untrapped p o i ->
        (FlagsExact p (o.step p.config p.size i) (bootMachine p c ram) ↔
          BubbleRaisesNothing p o i) := by
  have hlike : Machinelike p (bootMachine p c ram) o :=
    Lib.invariant_of_reachableWhen (machinelike_start c ram)
      (fun _ _ h hcycle => machinelike_step hsize hprogram h hcycle.left hcycle.right) hrun
  refine ⟨flagsExact_of_follows hlike, ?_⟩
  intro i hu
  constructor
  · exact bubbleRaisesNothing_of_exact (flagsExact_of_follows hlike)
  · exact fun hbubble => flagsExact_of_follows (machinelike_step hsize hprogram hlike hu hbubble)

/-!
A division behind the load of its divisor.  The bubble between them divides zero by the
address of the load, which is too small to count.
-/

def dividesLoaded : Platform 32 :=
  { fetch := fun a =>
      if a = 0 then 0x3f8000b7
      else if a = 4 then 0x00102223
      else if a = 8 then 0x00402087
      else if a = 12 then 0x18100153
      else if a = 16 then 0x001021f3
      else nop
    size := 128
    fma := noFma }

def fetching (o : Pipeline 128) : SystemIn 32 :=
  { inst := dividesLoaded.fetch (o.sys.core.imemReadAddr dividesLoaded.config) }

def dividesLoadedAfter : Nat -> Pipeline 128
  | 0 => boot dividesLoaded (Core.powerUp .rv32) emptyPort.adapter
  | n + 1 =>
      (dividesLoadedAfter n).step dividesLoaded.config 128 (fetching (dividesLoadedAfter n))

def dividesLoadedWords : List Word :=
  [0x3f8000b7, 0x00102223, 0x00402087, 0x18100153, 0x001021f3, nop]

theorem dividesLoaded_fetch (a : BitVec 32) :
    dividesLoaded.fetch a ∈ dividesLoadedWords := by
  simp only [dividesLoaded]
  repeat' first
    | apply Isa.ite_mem
    | decide

theorem dividesLoaded_rv32imf : dividesLoaded.Rv32imf := by
  have hall : dividesLoadedWords.all (fun x =>
      !(Isa.control 32 (instFinal x)).isAmo && !(Isa.control 32 (instFinal x)).isMret &&
        !(Isa.control 32 (instFinal x)).isSret) = true := by
    decide +kernel
  have hkinds : forall a,
      (Isa.control 32 (instFinal (dividesLoaded.fetch a))).isAmo = false ∧
        (Isa.control 32 (instFinal (dividesLoaded.fetch a))).isMret = false ∧
          (Isa.control 32 (instFinal (dividesLoaded.fetch a))).isSret = false := by
    intro a
    have hword := List.all_eq_true.mp hall _ (dividesLoaded_fetch a)
    simpa [and_assoc] using hword
  exact ⟨fun a => (hkinds a).left, fun a => (hkinds a).right.left,
    fun a => (hkinds a).right.right⟩

theorem dividesLoadedAfter_run {cond : Pipeline 128 -> SystemIn 32 -> Prop} (n : Nat)
    (h : forall k, k < n -> cond (dividesLoadedAfter k) (fetching (dividesLoadedAfter k))) :
    Lib.ReachableWhen (Observed.step dividesLoaded.config 128) cond
      (boot dividesLoaded (Core.powerUp .rv32) emptyPort.adapter) (dividesLoadedAfter n) := by
  induction n with
  | zero => exact Lib.reachableWhen_refl _
  | succ n ih =>
      exact Lib.reachableWhen_tail (ih fun k hk => h k (Nat.lt_succ_of_lt hk))
        (h n (Nat.lt_succ_self n))

theorem dividesLoaded_untrapped {k : Nat} (hk : k < 11) :
    Untrapped dividesLoaded (dividesLoadedAfter k) (fetching (dividesLoadedAfter k)) := by
  have hnoTrap : forall k, k < 11 ->
      ((dividesLoadedAfter k).sys.core.csrIn dividesLoaded.config
        (coreIn dividesLoaded (dividesLoadedAfter k)
          (fetching (dividesLoadedAfter k)))).trapTaken = false := by
    decide +kernel
  exact ⟨rfl, hnoTrap k hk⟩

theorem fflags_exact_until_bubble :
    FlagsExact dividesLoaded (dividesLoadedAfter 8)
        (bootMachine dividesLoaded (Core.powerUp .rv32) emptyPort.adapter) ∧
      forall i, Untrapped dividesLoaded (dividesLoadedAfter 8) i ->
        (FlagsExact dividesLoaded ((dividesLoadedAfter 8).step dividesLoaded.config 128 i)
            (bootMachine dividesLoaded (Core.powerUp .rv32) emptyPort.adapter) ↔
          BubbleRaisesNothing dividesLoaded (dividesLoadedAfter 8) i) := by
  have hbubbles : forall k, k < 8 ->
      BubbleRaisesNothing dividesLoaded (dividesLoadedAfter k)
        (fetching (dividesLoadedAfter k)) := by
    unfold BubbleRaisesNothing
    decide +kernel
  exact fflags_exact_iff_quietBubbles dividesLoaded (by decide) dividesLoaded_rv32imf
    (Core.powerUp .rv32) emptyPort.adapter (dividesLoadedAfter 8)
    (dividesLoadedAfter_run 8 fun k hk =>
      ⟨dividesLoaded_untrapped (by omega), hbubbles k hk⟩)

/--
The division raises nothing, but the program reads that it was invalid.
-/
theorem fflags_of_bubble :
    Lib.ReachableWhen (Observed.step dividesLoaded.config 128) (Untrapped dividesLoaded)
        (boot dividesLoaded (Core.powerUp .rv32) emptyPort.adapter) (dividesLoadedAfter 11) ∧
      dividesLoaded.Rv32imf ∧
      ¬ FlagsExact dividesLoaded (dividesLoadedAfter 11)
        (bootMachine dividesLoaded (Core.powerUp .rv32) emptyPort.adapter) := by
  refine ⟨?_, dividesLoaded_rv32imf, ?_⟩
  · exact dividesLoadedAfter_run 11 fun k hk => dividesLoaded_untrapped hk
  · intro h
    have hread := h.read (fetching (dividesLoadedAfter 11)) 0 (by decide +kernel)
      (by decide +kernel) (by decide +kernel)
    revert hread
    decide +kernel

end Pipeline

end Soc
end RvCores
