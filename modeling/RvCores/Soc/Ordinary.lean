import RvCores.Pipe.Redirect
import RvCores.Soc.Latency
import RvCores.Soc.Trace

/-!
# Cycles that nothing disturbs

With the static predictor, one fetch stage and no atomic operations, a cycle can be
disturbed in few ways only: by a redirect that waits for an operand, by a bubble that
counts flags, and without forwarding by a fused multiply-add behind a load.
-/

namespace RvCores
namespace Pipe

open Isa Block

variable {w : Nat}

/-!
# What a redirect excludes
-/

/--
An instruction that leads elsewhere leaves memory alone.
-/
theorem Instr.noMemory_of_redirect {x : Instr w} (h : x.redirects = true) :
    x.ctrl.memRead = false ∧ x.ctrl.memWrite = false ∧ x.ctrl.isAmo = false := by
  have hshape : (x.ctrl.memRead = true ∨ x.ctrl.memWrite = true ∨ x.ctrl.isAmo = true) ->
      x.ctrl.branch = false ∧ x.ctrl.jump = false ∧ x.ctrl.isCsr = false ∧
        x.ctrl.illegalOpcode = false ∧ x.ctrl.isMret = false ∧ x.ctrl.isSret = false ∧
        x.ctrl.isSfenceVma = false ∧ x.ctrl.isEcall = false ∧ x.ctrl.isEbreak = false ∧
        x.ctrl.aluOp = .loadStore :=
    control_shape w x.inst
      (p := fun c => (c.memRead = true ∨ c.memWrite = true ∨ c.isAmo = true) ->
        c.branch = false ∧ c.jump = false ∧ c.isCsr = false ∧
        c.illegalOpcode = false ∧ c.isMret = false ∧ c.isSret = false ∧
        c.isSfenceVma = false ∧ c.isEcall = false ∧ c.isEbreak = false ∧
        c.aluOp = .loadStore)
      (by decide)
  have hnone : ¬ (x.ctrl.memRead = true ∨ x.ctrl.memWrite = true ∨ x.ctrl.isAmo = true) := by
    intro haccess
    obtain ⟨h1, h2, h3, h4, h5, h6, h7, h8, h9, h10⟩ := hshape haccess
    have halu : x.aluCtl = .add := by
      rw [Instr.aluCtl, h10]
      rfl
    rw [Instr.redirects, Instr.taken, Instr.exceptionTaken, Instr.illegalInst,
      Instr.csrPrivViolation, Instr.mretReal, Instr.sretReal, halu, h1, h2, h3, h4, h5, h6,
      h7, h8, h9] at h
    exact absurd h (by simp)
  rw [not_or, not_or, Bool.not_eq_true, Bool.not_eq_true, Bool.not_eq_true] at hnone
  exact hnone

/--
A word that seems to load a float does not jump.
-/
theorem Instr.noJump_of_loadFp {x : Instr w} (h : Word.opcode x.inst = opcodeLoadFp) :
    x.ctrl.branch = false ∧ x.ctrl.jump = false ∧ x.ctrl.isMret = false ∧
      x.ctrl.isSret = false := by
  have hcontrol : x.ctrl = controlLoadFp x.inst := by
    unfold Instr.ctrl Isa.control
    rw [h]
    rfl
  rw [hcontrol, controlLoadFp]
  split
  · decide
  · split <;> decide

namespace Core

variable {m : Mmu w} {cfg : Config w} {s : Core m} {i : CoreIn w} {x : Instr w}

theorem Shows.redirects_of_static (h : Shows cfg s x) (hstatic : cfg.dynamic = false) :
    s.otherRedirectTaken cfg = x.redirects := by
  rw [h.otherRedirectTaken, Instr.redirectsFrom, hstatic]
  rfl

/--
A redirect of the static pipeline waits only for a float that its own word seems to load.
-/
theorem Shows.lands (h : Shows cfg s x) (hs : Settled cfg s) (hstatic : cfg.dynamic = false)
    (hint : s.interruptTaken cfg i = false) (htaken : s.branchTaken cfg i = true)
    (hhold : s.reg2Hold cfg i = false) : s.pcStall cfg i = s.floatLoadUseHazard := by
  have hredirect : x.redirects = true := by
    rw [<- h.redirects_of_static hstatic, <- Bool.or_false (s.otherRedirectTaken cfg), <- hint]
    exact htaken
  obtain ⟨hread, _, hamo⟩ := x.noMemory_of_redirect hredirect
  have hhazard : s.hazardFd = false := by
    rw [hazardFd, hazard, h.holds.ctrl, hread, hamo]
    rfl
  rw [pcStall_of_redirect htaken hhold, waitsForOperand, hhazard, hs.scoreboardStall]
  simp

/-!
# The words in decode and in execute
-/

structure Words (q : Word -> Prop) (s : Core m) : Prop where
  decode : q s.reg1.inst
  execute : q s.reg2.inst

theorem Words.step {q : Word -> Prop} (hnop : q nop) (hinst : q (instFinal i.inst))
    (h : Words q s) : Words q (s.step cfg i) := by
  constructor
  · show q (s.nextReg1 cfg i).inst
    rw [nextReg1, Reg1.step]
    split
    · exact hnop
    · split
      · exact h.decode
      · exact hinst
  · show q (s.nextReg2 cfg i).inst
    rw [nextReg2, Reg2.step]
    split
    · exact h.execute
    · split
      · exact hnop
      · split
        · exact h.decode
        · exact h.decode

end Core
end Pipe

namespace Soc

open Isa Block Pipe
open Pipe.Core (Front)

variable {w : Nat} {m : Mmu w}

/-!
# Programs and cycles
-/

def Platform.NoAmo (p : Platform w) : Prop :=
  forall a, (Isa.control w (instFinal (p.fetch a))).isAmo = false

namespace System

section Static

variable {P : RamPort w} {p : Platform w} {D : Session.Discipline P p.size} {cfg : Config w}
  {s : System m P} {i : SystemIn w} {σ : Machine w} {v : BitVec w} {bytes : Bytes}

/--
What is left to ask of a cycle, apart from atomic operations and the split fetch.
-/
structure Ordinary (p : Platform w) (cfg : Config w) (s : System m P) (i : SystemIn w) :
    Prop where
  inst : i.inst = p.fetch (s.core.imemReadAddr cfg)
  off : s.core.translateEnable = false
  noInterrupt : s.core.interruptTaken cfg (s.coreIn cfg p.size i) = false
  load : s.core.otherRedirectTaken cfg = true ->
    s.core.reg2Hold cfg (s.coreIn cfg p.size i) = false -> s.core.floatLoadUseHazard = false
  flags : s.core.reg2.valid = false ->
    (s.core.csrIn cfg (s.coreIn cfg p.size i)).fpFlagsWe = true ->
      (s.core.csrIn cfg (s.coreIn cfg p.size i)).fpFlagsIn &&& ~~~s.core.csr.fflags = 0
  fma : cfg.forwards = false -> s.core.pcStall cfg (s.coreIn cfg p.size i) = false ->
    s.core.fmaTakesLoad = false

theorem Ordinary.calm (hstatic : cfg.dynamic = false) (h : Rel p D cfg s bytes σ v)
    (hserved : Served p D cfg s i)
    (hfetch : Core.FetchInStep cfg p.fetch s.core (s.coreIn cfg p.size i))
    (ho : Ordinary p cfg s i) : Calm p D cfg s i := by
  have hplain := h.settled.untranslated ho.off
  refine ⟨hserved, ho.inst, ho.off, ho.noInterrupt, ?_, ?_, ho.flags, ho.fma, hfetch⟩
  · intro hbranch hhold
    cases h.occupied with
    | live hholds hissued =>
        have hshows := h.data.shows hplain hholds hissued
        rw [hshows.lands h.settled hstatic ho.noInterrupt hbranch hhold]
        refine ho.load ?_ hhold
        rwa [Core.branchTaken, ho.noInterrupt, Bool.or_false] at hbranch
    | quiet hquiet =>
        rw [Core.branchTaken, hquiet.otherRedirectTaken hplain, ho.noInterrupt, hstatic] at hbranch
        cases hbranch
  · intro hvalid
    cases h.occupied with
    | live hholds =>
        rw [hholds.valid] at hvalid
        cases hvalid
    | quiet hquiet =>
        rw [hquiet.otherRedirectTaken hplain, hstatic]
        rfl

/-!
# One fetch stage
-/

theorem fetchInStep_of_unsplit (hsplit : cfg.splitFetch = false)
    (h : Occupied p cfg s.core σ) :
    Core.FetchInStep cfg p.fetch s.core (s.coreIn cfg p.size i) := by
  constructor
  · intro hsplit'
    rw [hsplit] at hsplit'
    cases hsplit'
  · intro hext hbranch
    have hnone : s.core.redirectSquashExtendR = false := by
      have hfetches : forall {a : BitVec w}, Front cfg p.fetch s.core a ->
          s.core.redirectSquashExtendR = false := by
        intro a hfront
        cases hfront with
        | filled _ hext' => exact hext'
        | empty _ _ hnext =>
            unfold Core.Fetches at hnext
            rw [hsplit] at hnext
            exact hnext.left
      cases h with
      | quiet _ _ hfront => exact hfetches hfront
      | live _ _ _ hfront =>
          rcases hfront with htaken | hfront
          · rw [Core.branchTaken, htaken] at hbranch
            cases hbranch
          · exact hfetches hfront
    rw [hnone] at hext
    cases hext

/-!
# No atomic operations
-/

theorem isAmo_of_occupied (hprogram : p.NoAmo) (h : Occupied p cfg s.core σ) :
    s.core.reg2.ctrl.isAmo = false := by
  cases h with
  | live hholds =>
      rw [hholds.ctrl]
      exact hprogram σ.pc
  | quiet hquiet =>
      rcases hquiet.ctrl with hctrl | hctrl <;> rw [hctrl]

theorem noAmo_step (hprogram : p.NoAmo) (h : Occupied p cfg s.core σ)
    (hamo : s.core.reg3.isAmo = false) :
    (s.step cfg p.size i).core.reg3.isAmo = false := by
  show (s.core.nextReg3 cfg (s.coreIn cfg p.size i)).isAmo = false
  rw [Core.nextReg3, Reg3.step]
  split
  · exact hamo
  · show (!s.core.reg3Bubble cfg (s.coreIn cfg p.size i) && s.core.reg2.ctrl.isAmo) = false
    rw [isAmo_of_occupied hprogram h, Bool.and_false]

end Static

/--
Without latency only an atomic operation minds what the load before it left at the port.
-/
theorem served_of_noAmo {p : Platform w} {cfg : Config w}
    {s : System m (RamPort.direct w p.size)} {i : SystemIn w}
    (hamo : s.core.reg3.isAmo = false)
    (hamo' : (s.step cfg p.size i).core.reg3.isAmo = false) :
    Served p (RamAdapter.discipline w p.size) cfg s i := by
  refine ⟨fun _ _ => hamo', ?_, ?_⟩
  · intro hatomic
    rw [hamo] at hatomic
    cases hatomic
  · intro _ _ _
    constructor
    intro _ _ hlate
    rw [access, Core.amoActive, hamo'] at hlate
    cases hlate

/--
What a program without atomic operations leaves to ask on one fetch stage.
-/
theorem Ordinary.calm_of_noAmo {p : Platform w} {cfg : Config w}
    {s : System m (RamPort.direct w p.size)} {i : SystemIn w} {σ : Machine w} {v : BitVec w}
    {bytes : Bytes} (hstatic : cfg.dynamic = false) (hsplit : cfg.splitFetch = false)
    (hprogram : p.NoAmo) (h : Rel p (RamAdapter.discipline w p.size) cfg s bytes σ v)
    (hamo : s.core.reg3.isAmo = false) (ho : Ordinary p cfg s i) :
    Calm p (RamAdapter.discipline w p.size) cfg s i :=
  ho.calm hstatic h (served_of_noAmo hamo (noAmo_step hprogram h.occupied hamo))
    (fetchInStep_of_unsplit hsplit h.occupied)

end System

/-!
# Runs from reset
-/

section Runs

variable {p : Platform w} {cfg : Config w} {c : Core m} {ram : RamAdapter w}
  {o : Observed m (RamPort.direct w p.size)}

def directReset (cfg : Config w) (size : Nat) (c : Core m) (ram : RamAdapter w) :
    System m (RamPort.direct w size) :=
  resetSystem cfg c (ram.reset size)

/--
The sequential machine that starts where the system does.
-/
def sequentialReset (cfg : Config w) (size : Nat) (c : Core m) (ram : RamAdapter w) :
    Machine w :=
  resetMachine cfg c (ram.reset size).ram.bytes

theorem tracked_reset (hm : m.PtwLawful) (huncached : cfg.cached = false)
    (hsplit : cfg.splitFetch = false) :
    Observed.Tracked p (RamAdapter.discipline w p.size) cfg
      (sequentialReset cfg p.size c ram)
      (Observed.start (directReset cfg p.size c ram)) := by
  show Observed.Tracked p _ cfg
    (resetMachine cfg c ((RamPort.direct w p.size).bytes (ram.reset p.size)))
    (Observed.start (resetSystem cfg c (ram.reset p.size) : System m (RamPort.direct w p.size)))
  exact Observed.tracked_start hm huncached hsplit (RamAdapter.idle_reset ram)

structure Steady (p : Platform w) (cfg : Config w) (σ : Machine w)
    (o : Observed m (RamPort.direct w p.size)) : Prop where
  follows : Observed.Follows p (RamAdapter.discipline w p.size) cfg σ o
  noAmo : o.sys.core.reg3.isAmo = false

theorem steady_start (hm : m.PtwLawful) (huncached : cfg.cached = false)
    (hsplit : cfg.splitFetch = false) :
    Steady p cfg (sequentialReset cfg p.size c ram)
      (Observed.start (directReset cfg p.size c ram)) where
  follows := fun v => rel_reset hm huncached hsplit (RamAdapter.idle_reset ram) v
  noAmo := rfl

theorem steady_step {σ : Machine w} {i : SystemIn w} (hm : m.PtwLawful)
    (hsize : p.size <= uartRegion.base) (hfma : cfg.fmaddUnit = p.fma)
    (hstatic : cfg.dynamic = false) (hsplit : cfg.splitFetch = false)
    (hprogram : p.NoAmo) (h : Steady p cfg σ o) (ho : System.Ordinary p cfg o.sys i) :
    Steady p cfg σ (o.step cfg p.size i) := by
  have hrel := h.follows 0
  constructor
  · exact Observed.follows_step hm hsize hfma h.follows
      (ho.calm_of_noAmo hstatic hsplit hprogram hrel h.noAmo)
  · rw [Observed.sys_step]
    exact System.noAmo_step hprogram hrel.occupied h.noAmo

end Runs

end Soc
end RvCores
