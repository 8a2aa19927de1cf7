import RvCores.Pipe.Issue
import RvCores.Soc.LoadUnit

/-!
# The pipeline follows the sequential machine

The sequential machine is ahead by what is in flight: it has executed the instructions
that left execute, and is about to execute the one in execute, in decode, or on its way
there.  What a device will answer to the load in memory is open until it moves on.
-/

namespace RvCores
namespace Soc

open Isa Block Pipe
open Pipe.Core (Settled Untranslated HoldsInstr Issued Quiet UnitsFollow UnitsIdle Front
  FetchInStep RegsAgree FloatReady Shows Executes linesOf)

variable {w : Nat} {m : Mmu w} {P : RamPort w}

def Moment.atTime (c : Counters w) : Moment w :=
  { counters := c, lines := { msipPending := false, timerPending := false, extPending := false }
    dev := 0 }

namespace System

/-!
# The relation
-/

/--
The address that fetch takes for the one after the word in execute.
-/
def afterReg2 (s : Core m) : BitVec w :=
  if s.reg2.predictTaken then s.reg2.predictTarget else s.pcPlus4Regde

/--
What execute holds, and what comes after it.
-/
inductive Occupied (p : Platform w) (cfg : Config w) (s : Core m) (σ : Machine w) : Prop where
  | live (hholds : HoldsInstr s (σ.instr p (.atTime s.csr.counters)))
      (hissued : Issued cfg s (σ.instr p (.atTime s.csr.counters)))
      (hstatic : cfg.dynamic = false -> s.reg2.predictTaken = false)
      (hfront : s.otherRedirectTaken cfg = true ∨ Front cfg p.fetch s (afterReg2 s))
  | quiet (hquiet : Quiet s) (hunits : UnitsFollow s) (hfront : Front cfg p.fetch s σ.pc)

/--
Memory and registers, with what the instruction in memory still has to do: `v` is what
a device will answer to it.
-/
structure DataAgree (p : Platform w) (D : Session.Discipline P p.size) (cfg : Config w)
    (s : System m P) (σ : Machine w) (v : BitVec w) (bytes : Bytes) : Prop where
  lsu : Lsu p.size D cfg s bytes
  mem : σ.mem = s.core.reg3.memAfter p.size bytes v
  regs : RegsAgree s.core (s.core.reg3.value p.size bytes v) σ.regs σ.fregs

/--
Everything from execute on, with the sequential machine after what left execute.
-/
structure Backend (p : Platform w) (D : Session.Discipline P p.size) (cfg : Config w)
    (s : System m P) (bytes : Bytes) (σ : Machine w) (v : BitVec w) : Prop where
  settled : Settled cfg s.core
  csr : s.core.csr.timeless = σ.csr
  one : s.core.reg3.OneAccess
  apart : s.core.reg4.isAmo = true -> s.core.reg3.isAmo = false
  data : DataAgree p D cfg s σ v bytes

structure Rel (p : Platform w) (D : Session.Discipline P p.size) (cfg : Config w)
    (s : System m P) (bytes : Bytes) (σ : Machine w) (v : BitVec w) : Prop
    extends Backend p D cfg s bytes σ v where
  occupied : Occupied p cfg s.core σ

/--
No atomic operation stands next to another one or finds an acknowledge that is not its
own, and the port is ready for what comes to it.
-/
structure Served (p : Platform w) (D : Session.Discipline P p.size) (cfg : Config w)
    (s : System m P) (i : SystemIn w) : Prop where
  apart : s.core.reg3.isAmo = true -> s.core.backHold cfg (s.coreIn cfg p.size i) = false ->
    (s.step cfg p.size i).core.reg3.isAmo = false
  stray : s.core.reg3.isAmo = true -> s.core.backHold cfg (s.coreIn cfg p.size i) = false ->
    s.acked cfg p.size i = false
  ready : s.core.backHold cfg (s.coreIn cfg p.size i) = false ∨
      (s.step cfg p.size i).core.amo.writePhaseR ≠ s.core.amo.writePhaseR ->
    (s.step cfg p.size i).core.lsuCyc = true ->
      inRam p.size (s.step cfg p.size i).core.reg3.aluOut = true ->
        D.Ready (s.step cfg p.size i).ram ((s.step cfg p.size i).access cfg p.size)

/--
What a cycle needs for the pipeline to follow.
-/
structure Calm (p : Platform w) (D : Session.Discipline P p.size) (cfg : Config w)
    (s : System m P) (i : SystemIn w) : Prop extends Served p D cfg s i where
  inst : i.inst = p.fetch (s.core.imemReadAddr cfg)
  off : s.core.translateEnable = false
  noInterrupt : s.core.interruptTaken cfg (s.coreIn cfg p.size i) = false
  lands : s.core.branchTaken cfg (s.coreIn cfg p.size i) = true ->
    s.core.reg2Hold cfg (s.coreIn cfg p.size i) = false ->
      s.core.pcStall cfg (s.coreIn cfg p.size i) = false
  bubble : s.core.reg2.valid = false -> s.core.otherRedirectTaken cfg = false
  flags : s.core.reg2.valid = false ->
    (s.core.csrIn cfg (s.coreIn cfg p.size i)).fpFlagsWe = true ->
      (s.core.csrIn cfg (s.coreIn cfg p.size i)).fpFlagsIn &&& ~~~s.core.csr.fflags = 0
  fma : cfg.forwards = false -> s.core.pcStall cfg (s.coreIn cfg p.size i) = false ->
    s.core.fmaTakesLoad = false
  fetch : FetchInStep cfg p.fetch s.core (s.coreIn cfg p.size i)

/-!
# The instruction in execute
-/

section Shown

variable {p : Platform w} {D : Session.Discipline P p.size} {cfg : Config w}
  {s : System m P} {i : SystemIn w} {σ : Machine w} {v : BitVec w} {bytes : Bytes}
  {c : CoreIn w} {t : Moment w}

theorem value_of_early {size : Nat} {r : Reg3 w} (hone : (!(r.memtoReg || r.isAmo)) = true) :
    (if r.jump then r.pcPlus4 else r.aluOut) = r.value size bytes v := by
  rw [Bool.not_eq_true', Bool.or_eq_false_iff] at hone
  rw [Reg3.value, hone.left, hone.right]
  rfl

theorem reads_instr (p : Platform w) (σ : Machine w) (t : Moment w) :
    (σ.instr p t).Reads σ.regs σ.fregs := by
  refine ⟨rfl, rfl, ?_, ?_, ?_⟩
  · exact fun h => if_pos h
  · exact fun h => if_pos h
  · exact fun h => if_pos h

theorem DataAgree.shows (h : DataAgree p D cfg s σ v bytes)
    (hplain : Untranslated s.core) (hholds : HoldsInstr s.core (σ.instr p t))
    (hissued : Issued cfg s.core (σ.instr p t)) :
    Shows cfg s.core (σ.instr p t) :=
  hissued.shows h.regs (fun hearly => value_of_early hearly) (reads_instr p σ t) hholds hplain

theorem DataAgree.executes (h : DataAgree p D cfg s σ v bytes)
    (hplain : Untranslated s.core) (hholds : HoldsInstr s.core (σ.instr p t))
    (hissued : Issued cfg s.core (σ.instr p t)) (hdiv : s.core.divStall = false)
    (hfp : s.core.fpStall = false) :
    Executes cfg s.core (σ.instr p t) :=
  hissued.executes h.regs (fun hearly => value_of_early hearly) (reads_instr p σ t) hholds
    hplain hdiv hfp

/--
The counters are no concern of what the instruction needs.
-/
theorem issued_atTime {s : Core m} {c c' : Counters w}
    (h : Issued cfg s (σ.instr p (.atTime c))) : Issued cfg s (σ.instr p (.atTime c')) := by
  cases h with
  | fresh hsources hunits => exact .fresh ⟨hsources.rs1, hsources.rs2, hsources.frs1,
      hsources.frs2, hsources.frs3⟩ ⟨hunits.div, hunits.fdiv, hunits.fsqrt⟩
  | drained hit hread hwrite hamo hunits =>
      exact .drained hit hread hwrite hamo ⟨hunits.div, hunits.fdiv, hunits.fsqrt⟩

theorem csr_atTime {csr : Csr w} (h : csr.timeless = σ.csr) :
    csr = (σ.instr p (.atTime csr.counters)).csr := by
  show csr = σ.csr.withCounters csr.counters
  rw [<- h]
  rfl

theorem holdsInstr_later {s t : Core m} (hreg2 : t.reg2 = s.reg2)
    (hcsr : t.csr.timeless = σ.csr)
    (h : HoldsInstr s (σ.instr p (.atTime s.csr.counters))) :
    HoldsInstr t (σ.instr p (.atTime t.csr.counters)) := by
  obtain ⟨h1, h2, h3, h4, h5, h6, h7, h8, h9, h10, h11, h12, h13, _⟩ := h
  rw [<- hreg2] at h1 h2 h3 h4 h5 h6 h7 h8 h9 h10 h11 h12 h13
  exact ⟨h1, h2, h3, h4, h5, h6, h7, h8, h9, h10, h11, h12, h13, csr_atTime hcsr⟩

theorem csr_hold (hint : s.core.interruptTaken cfg c = false)
    (hhold : s.core.reg2Hold cfg c = true) :
    (s.core.step cfg c).csr.timeless = s.core.csr.timeless := by
  have hforget : forall {b : Bool}, (b && !s.core.reg2Hold cfg c) = false := by
    intro b
    rw [hhold, Bool.not_true, Bool.and_false]
  refine Csr.timeless_step_quiet ?_ ?_ ?_ ?_ ?_ rfl
  · show (s.core.reg2.ctrl.isCsr && !s.core.reg2Hold cfg c && !s.core.csrPrivViolation) = false
    rw [hforget, Bool.false_and]
  · show (s.core.exceptionTaken cfg && !s.core.reg2Hold cfg c ||
      s.core.interruptTaken cfg c) = false
    rw [hforget, hint]
    rfl
  · exact hforget
  · exact hforget
  · intro hwe
    have hnone : (s.core.csrIn cfg c).fpFlagsWe = false := hforget
    rw [hnone] at hwe
    cases hwe

end Shown

/-!
# What execute hands to memory
-/

/--
What execute hands to memory is the next step of the sequential machine.
-/
structure Hands (p : Platform w) (e : Reg3 w) (σ σ' : Machine w) (v : BitVec w) : Prop where
  mem : σ'.mem = e.memAfter p.size σ.mem v
  int : forall k, k ≠ 0 -> σ'.regs k =
    if e.regWrite && e.writeReg == k then e.value p.size σ.mem v else σ.regs k
  float : forall k, σ'.fregs k =
    if e.fRegWrite && e.writeReg == k then e.value p.size σ.mem v else σ.fregs k

theorem waits_of_hold {s : Core m} {c : CoreIn w} (hplain : Untranslated s)
    (hgo : s.backHold cfg c = false) :
    s.reg2Hold cfg c = (s.divStall || s.fpStall) := by
  rw [Core.backHold, Bool.or_eq_false_iff] at hgo
  rw [Core.reg2Hold, hgo.left, hgo.right, Core.dtlbMiss_of_untranslated hplain]
  simp

/--
A stall of execute hands a bubble to memory.
-/
theorem hands_bubble {s : Core m} {c : CoreIn w} (p : Platform w) (σ : Machine w) (v : BitVec w)
    (hstall : (s.divStall || s.fpStall) = true) :
    Hands p (s.executed cfg c) σ σ v ∧ (s.executed cfg c).OneAccess := by
  have hbubble : s.reg3Bubble cfg c = true := by
    rw [Core.reg3Bubble, hstall]
    simp
  rw [Core.executed, hbubble]
  refine ⟨⟨rfl, fun _ _ => rfl, fun _ => rfl⟩, ?_⟩
  exact ⟨fun h => Bool.noConfusion h, fun h => Bool.noConfusion h, fun h => Bool.noConfusion h⟩

/-!
# A cycle in which execute is held
-/

section Cycle

variable {p : Platform w} {D : Session.Discipline P p.size} {cfg : Config w}
  {s : System m P} {i : SystemIn w} {σ : Machine w} {v v' : BitVec w} {bytes bytes' : Bytes}
  (hm : m.PtwLawful) (hsize : p.size <= uartRegion.base) (hfma : cfg.fmaddUnit = p.fma)

theorem pcStall_of_hold {s : Core m} {c : CoreIn w} (h : s.reg2Hold cfg c = true) :
    s.pcStall cfg c = true := by
  simp only [Core.reg2Hold, Bool.or_eq_true] at h
  simp only [Core.pcStall, Bool.or_eq_true]
  tauto

theorem translateEnable_of_timeless {s t : Core m} (h : t.csr.timeless = s.csr.timeless) :
    t.translateEnable = s.translateEnable := by
  show (t.csr.timeless.satpModeVal && t.csr.timeless.privMode != privM) =
    (s.csr.timeless.satpModeVal && s.csr.timeless.privMode != privM)
  rw [h]

/--
A redirect that has to wait stays, and otherwise fetch waits with execute.
-/
theorem occupied_hold (hu : Calm p D cfg s i) (hs : Settled cfg s.core)
    (hs' : Settled cfg (s.step cfg p.size i).core)
    (hcsr : s.core.csr.timeless = σ.csr)
    (hcsr' : (s.step cfg p.size i).core.csr.timeless = σ.csr)
    (hhold : s.core.reg2Hold cfg (s.coreIn cfg p.size i) = true)
    (hdata : DataAgree p D cfg s σ v bytes)
    (hdata' : DataAgree p D cfg (s.step cfg p.size i) σ v' bytes')
    (hkeep : forall t, HoldsInstr s.core (σ.instr p t) ->
      Issued cfg s.core (σ.instr p t) ->
        Issued cfg (s.step cfg p.size i).core (σ.instr p t))
    (h : Occupied p cfg s.core σ) : Occupied p cfg (s.step cfg p.size i).core σ := by
  have hreg2 : (s.step cfg p.size i).core.reg2 = s.core.reg2 := Core.reg2_of_hold hhold
  have hstall := pcStall_of_hold hhold
  have hplain := hs.untranslated hu.off
  have hoff' : (s.step cfg p.size i).core.translateEnable = false := by
    rw [translateEnable_of_timeless (hcsr'.trans hcsr.symm), hu.off]
  cases h with
  | live hholds hissued hstatic hfront =>
      have hholds' := holdsInstr_later hreg2 hcsr' hholds
      have hissued' : Issued cfg (s.step cfg p.size i).core
          (σ.instr p (.atTime (s.step cfg p.size i).core.csr.counters)) :=
        issued_atTime (hkeep _ hholds hissued)
      refine .live hholds' hissued' ?_ ?_
      · rw [hreg2]
        exact hstatic
      · have hshows := hdata.shows hplain hholds hissued
        have hshows' := hdata'.shows (hs'.untranslated hoff') hholds' hissued'
        have hsame : (s.step cfg p.size i).core.otherRedirectTaken cfg =
            s.core.otherRedirectTaken cfg := by
          rw [hshows'.otherRedirectTaken, hshows.otherRedirectTaken, hreg2]
          rfl
        cases htaken : s.core.otherRedirectTaken cfg with
        | true =>
            left
            rw [hsame, htaken]
        | false =>
            right
            rw [htaken] at hfront
            have hnone : s.core.branchTaken cfg (s.coreIn cfg p.size i) = false := by
              rw [Core.branchTaken, htaken, hu.noInterrupt]
              rfl
            have hafter : afterReg2 (s.step cfg p.size i).core = afterReg2 s.core := by
              rw [afterReg2, Core.pcPlus4Regde, hreg2]
              rfl
            rw [hafter]
            exact Core.front_hold hnone hu.fetch hstall (hfront.resolve_left (by simp))
  | quiet hquiet hunits hfront =>
      have hnone : s.core.branchTaken cfg (s.coreIn cfg p.size i) = false := by
        rw [Core.branchTaken, hu.bubble hquiet.valid, hu.noInterrupt]
        rfl
      exact .quiet (hquiet.of_reg2 hreg2) (Core.unitsFollow_hold hhold hunits)
        (Core.front_hold hnone hu.fetch hstall hfront)

/--
What waits for write-back keeps its value.
-/
theorem writeDataRegwb_hold
    (hapart : s.core.reg4.isAmo = true -> s.core.reg3.isAmo = false)
    (hhold : s.core.backHold cfg (s.coreIn cfg p.size i) = true) :
    (s.step cfg p.size i).core.writeDataRegwb = s.core.writeDataRegwb := by
  have hreg4 : (s.step cfg p.size i).core.reg4 = s.core.reg4 := Core.reg4_of_backHold hhold
  rw [Core.writeDataRegwb, Core.writeDataRegwb, hreg4]
  cases hamo : s.core.reg4.isAmo with
  | false => rfl
  | true =>
      have hnone := hapart hamo
      show (s.core.nextAmo (s.coreIn cfg p.size i)).capturedReadR = _
      rw [Core.nextAmo, Core.amoActive, hnone]
      rfl

include hm hsize

theorem backend_hold (hoff : s.core.translateEnable = false)
    (hint : s.core.interruptTaken cfg (s.coreIn cfg p.size i) = false)
    (hu : Served p D cfg s i) (h : Backend p D cfg s bytes σ v)
    (hhold : s.core.backHold cfg (s.coreIn cfg p.size i) = true) :
    Backend p D cfg (s.step cfg p.size i) bytes σ v := by
  have hreg3 : (s.step cfg p.size i).core.reg3 = s.core.reg3 := Core.reg3_of_backHold hhold
  have hreg4 : (s.step cfg p.size i).core.reg4 = s.core.reg4 := Core.reg4_of_backHold hhold
  have hwb := writeDataRegwb_hold h.apart hhold
  have halone : Alone cfg s := ⟨h.settled.uncached, h.settled.rests⟩
  refine ⟨h.settled.step hm hoff,
    (csr_hold hint (Core.reg2Hold_of_backHold hhold)).trans h.csr, ?_, ?_, ?_, ?_, ?_⟩
  · rw [hreg3]
    exact h.one
  · rw [hreg3, hreg4]
    exact h.apart
  · refine lsu_hold hsize halone ?_ h.data.lsu hhold
    intro hphase hcyc hram
    exact hu.ready (.inr hphase) hcyc (by rw [hreg3]; exact hram)
  · rw [hreg3]
    exact h.data.mem
  · rw [hreg3]
    exact h.data.regs.hold h.settled hhold hwb

theorem rel_hold (hu : Calm p D cfg s i) (h : Rel p D cfg s bytes σ v)
    (hhold : s.core.backHold cfg (s.coreIn cfg p.size i) = true) :
    Rel p D cfg (s.step cfg p.size i) bytes σ v := by
  have hback := backend_hold hm hsize hu.off hu.noInterrupt hu.toServed h.toBackend hhold
  refine ⟨hback, ?_⟩
  refine occupied_hold hu h.settled hback.settled h.csr hback.csr
    (Core.reg2Hold_of_backHold hhold) h.data hback.data ?_ h.occupied
  intro t hholds hissued
  exact hissued.hold h.data.regs (fun hearly => value_of_early hearly) (reads_instr p σ t)
    hholds h.settled hhold

/-!
# A cycle in which memory moves on
-/

omit hm in
theorem data_move {σ' : Machine w} (hu : Served p D cfg s i)
    (h : Backend p D cfg s bytes σ (s.devValue cfg p.size i))
    (hgo : s.core.backHold cfg (s.coreIn cfg p.size i) = false)
    (hone : (s.core.executed cfg (s.coreIn cfg p.size i)).OneAccess)
    (hhands : Hands p (s.core.executed cfg (s.coreIn cfg p.size i)) σ σ' v) :
    DataAgree p D cfg (s.step cfg p.size i) σ' v σ.mem := by
  have hreg3 : (s.step cfg p.size i).core.reg3 =
      s.core.executed cfg (s.coreIn cfg p.size i) := Core.reg3_of_moves hgo
  have halone : Alone cfg s := ⟨h.settled.uncached, h.settled.rests⟩
  have hdata := h.data
  have hhanded := lsu_leave hsize halone hgo (fun hamo => hu.stray hamo hgo) h.one.word
    hdata.lsu
  have hmem : σ.mem = s.core.reg3.memAfter p.size bytes 0 :=
    hdata.mem.trans (memAfter_dev _ _ _ _)
  refine ⟨?_, ?_, ?_⟩
  · rw [hmem]
    refine lsu_arrive hhanded (by rw [hreg3]; exact hone) (hu.ready (.inl hgo)) ?_
    intro hamo
    cases hold : s.core.reg3.isAmo with
    | false => rfl
    | true =>
        rw [hu.apart hold hgo] at hamo
        cases hamo
  · rw [hreg3]
    exact hhands.mem
  · rw [hreg3]
    exact hdata.regs.move h.settled hgo hhanded.value hhands.int hhands.float

theorem backend_move {σ' : Machine w} (hoff : s.core.translateEnable = false)
    (hu : Served p D cfg s i) (h : Backend p D cfg s bytes σ (s.devValue cfg p.size i))
    (hgo : s.core.backHold cfg (s.coreIn cfg p.size i) = false)
    (hone : (s.core.executed cfg (s.coreIn cfg p.size i)).OneAccess)
    (hhands : Hands p (s.core.executed cfg (s.coreIn cfg p.size i)) σ σ' v)
    (hcsr : (s.step cfg p.size i).core.csr.timeless = σ'.csr) :
    Backend p D cfg (s.step cfg p.size i) σ.mem σ' v := by
  refine ⟨h.settled.step hm hoff, hcsr, ?_, ?_, data_move hsize hu h hgo hone hhands⟩
  · show (s.step cfg p.size i).core.reg3.OneAccess
    rw [show (s.step cfg p.size i).core.reg3 = _ from Core.reg3_of_moves hgo]
    exact hone
  · intro hamo
    rw [show (s.step cfg p.size i).core.reg4 = _ from Core.reg4_of_moves hgo] at hamo
    exact hu.apart hamo hgo

theorem rel_wait (hu : Calm p D cfg s i)
    (h : Rel p D cfg s bytes σ (s.devValue cfg p.size i))
    (hgo : s.core.backHold cfg (s.coreIn cfg p.size i) = false)
    (hhold : s.core.reg2Hold cfg (s.coreIn cfg p.size i) = true) :
    Rel p D cfg (s.step cfg p.size i) σ.mem σ v := by
  have hplain := h.settled.untranslated hu.off
  have hstall : (s.core.divStall || s.core.fpStall) = true := by
    rw [<- waits_of_hold hplain hgo, hhold]
  obtain ⟨hhands, hone⟩ := hands_bubble (c := s.coreIn cfg p.size i) p σ v hstall
  have hcsr' : (s.step cfg p.size i).core.csr.timeless = σ.csr :=
    (csr_hold hu.noInterrupt hhold).trans h.csr
  have hback := backend_move hm hsize hu.off hu.toServed h.toBackend hgo hone hhands hcsr'
  refine ⟨hback, ?_⟩
  refine occupied_hold hu h.settled hback.settled h.csr hcsr' hhold h.data hback.data
    ?_ h.occupied
  intro t hholds hissued
  exact hissued.wait h.data.regs (fun hearly => value_of_early hearly) (reads_instr p σ t)
    hholds hgo hstall

/-!
# A cycle in which execute moves on
-/

omit hm hsize in
theorem pcStall_of_noHold {s : Core m} {c : CoreIn w} (h : s.reg2Hold cfg c = false) :
    s.pcStall cfg c = s.reg2Flush cfg c := by
  simp only [Core.reg2Hold, Bool.or_eq_false_iff] at h
  obtain ⟨⟨⟨⟨hdiv, hmem⟩, hfp⟩, hdtlb⟩, hamo⟩ := h
  simp [Core.pcStall, Core.reg2Flush, hdiv, hmem, hfp, hdtlb, hamo]

omit hm hsize in
theorem noHazard_of_go {s : Core m} {c : CoreIn w} (hgo : s.pcStall cfg c = false)
    (htaken : s.branchTaken cfg c = false) :
    (cfg.forwards = true -> s.hazardFd = false) ∧
      (cfg.forwards = false -> s.hazardNoForwardFd = false) ∧
        s.floatLoadUseHazard = false := by
  simp only [Core.pcStall, Bool.or_eq_false_iff] at hgo
  obtain ⟨⟨⟨⟨⟨⟨⟨⟨⟨⟨hstall, _⟩, _⟩, _⟩, hload⟩, _⟩, _⟩, _⟩, _⟩, _⟩, _⟩ := hgo
  refine ⟨?_, ?_, hload⟩
  · intro hforwards
    rw [Core.stall, hforwards] at hstall
    exact hstall
  · intro hforwards
    rw [Core.stall, hforwards, htaken] at hstall
    simpa using hstall

omit hm hsize in
theorem backHold_of_noHold {s : Core m} {c : CoreIn w} (h : s.reg2Hold cfg c = false) :
    s.backHold cfg c = false := by
  cases hback : s.backHold cfg c with
  | false => rfl
  | true =>
      rw [Core.reg2Hold_of_backHold hback] at h
      cases h

omit hm hsize in
theorem unstalled_of_noHold {s : Core m} {c : CoreIn w} (h : s.reg2Hold cfg c = false) :
    s.divStall = false ∧ s.fpStall = false := by
  simp only [Core.reg2Hold, Bool.or_eq_false_iff] at h
  exact ⟨h.left.left.left.left, h.left.left.right⟩

omit hm hsize in
/--
The word in decode comes to execute as the next instruction.
-/
theorem live_decoded {σ' : Machine w} (h : Backend p D cfg s bytes σ v')
    (hhold : s.core.reg2Hold cfg (s.coreIn cfg p.size i) = false)
    (hone : (s.core.executed cfg (s.coreIn cfg p.size i)).OneAccess)
    (hhands : Hands p (s.core.executed cfg (s.coreIn cfg p.size i)) σ σ' v)
    (hcsr' : (s.step cfg p.size i).core.csr.timeless = σ'.csr)
    (hready : FloatReady s.core) (hidle : UnitsIdle (s.step cfg p.size i).core)
    (htaken : s.core.branchTaken cfg (s.coreIn cfg p.size i) = false)
    (hstall : s.core.pcStall cfg (s.coreIn cfg p.size i) = false)
    (hreg2 : (s.step cfg p.size i).core.reg2 = s.core.decoded cfg (s.coreIn cfg p.size i))
    (hlive : s.core.idBubbleR = false) (hreg1 : s.core.reg1.Holds cfg p.fetch)
    (hpc : s.core.reg1.pc = σ'.pc) :
    HoldsInstr (s.step cfg p.size i).core
        (σ'.instr p (.atTime (s.step cfg p.size i).core.csr.counters)) ∧
      Issued cfg (s.step cfg p.size i).core
        (σ'.instr p (.atTime (s.step cfg p.size i).core.csr.counters)) := by
  have hgo := backHold_of_noHold hhold
  obtain ⟨hforward, hnoForward, _⟩ := noHazard_of_go hstall htaken
  have hinst : (σ'.instr p (.atTime (s.step cfg p.size i).core.csr.counters)).inst =
      s.core.reg1.inst := by
    rw [hreg1.inst, hpc]
    rfl
  constructor
  · refine Core.holdsInstr_decoded hreg2 hlive hreg1 hinst hpc.symm ?_ (csr_atTime hcsr')
    rw [hreg1.isCompressed, hpc]
    rfl
  · refine .fresh ?_ (hidle.serve _)
    exact Core.sources_decoded h.settled h.data.regs hgo hone hready hforward
      hnoForward hhands.int hhands.float hreg2 hinst (reads_instr p σ' _)

omit hm hsize in
/--
What decode has goes to execute, or a bubble does.
-/
theorem occupied_advance {σ' : Machine w} (hu : Calm p D cfg s i)
    (h : Backend p D cfg s bytes σ v')
    (hhold : s.core.reg2Hold cfg (s.coreIn cfg p.size i) = false)
    (hone : (s.core.executed cfg (s.coreIn cfg p.size i)).OneAccess)
    (hhands : Hands p (s.core.executed cfg (s.coreIn cfg p.size i)) σ σ' v)
    (hcsr' : (s.step cfg p.size i).core.csr.timeless = σ'.csr)
    (hready : s.core.pcStall cfg (s.coreIn cfg p.size i) = false -> FloatReady s.core)
    (hunits : UnitsFollow s.core)
    (htaken : s.core.branchTaken cfg (s.coreIn cfg p.size i) = false)
    (hfront : Front cfg p.fetch s.core σ'.pc) :
    Occupied p cfg (s.step cfg p.size i).core σ' := by
  obtain ⟨hdiv, hfp⟩ := unstalled_of_noHold hhold
  have hplain := h.settled.untranslated hu.off
  have hidle : UnitsIdle (s.step cfg p.size i).core := Core.unitsIdle_leave hdiv hfp hunits
  have hreg2 : (s.step cfg p.size i).core.reg2 =
      if s.core.reg2Flush cfg (s.coreIn cfg p.size i) then
        (s.core.decoded cfg (s.coreIn cfg p.size i)).bubble
      else s.core.decoded cfg (s.coreIn cfg p.size i) := by
    show s.core.nextReg2 cfg (s.coreIn cfg p.size i) = _
    rw [Core.nextReg2, Reg2.step, hhold, htaken]
    rfl
  have hflush := pcStall_of_noHold hhold
  cases hstall : s.core.pcStall cfg (s.coreIn cfg p.size i) with
  | true =>
      rw [<- hflush, hstall, if_pos rfl] at hreg2
      have hfault : s.core.reg1.ifetchFault = false := by
        cases hfront with
        | empty _ hreg1 =>
            rw [hreg1]
            rfl
        | filled _ _ hreg1 => exact hreg1.ifetchFault
      exact .quiet (Core.quiet_bubble hreg2 hfault) hidle.follow
        (Core.front_hold htaken hu.fetch hstall hfront)
  | false =>
      rw [<- hflush, hstall, if_neg Bool.false_ne_true] at hreg2
      have hadvance := Core.front_advance htaken hu.inst hplain hu.fetch hstall hfront
      cases hfront with
      | empty hbubble hreg1 =>
          rw [hbubble] at hadvance
          exact .quiet (Core.quiet_nop hreg2 hbubble hreg1) hidle.follow hadvance
      | filled hlive hext hreg1 hpc hnext =>
          rw [hlive] at hadvance
          obtain ⟨hholds, hissued⟩ := live_decoded h hhold hone hhands hcsr' (hready hstall)
            hidle htaken hstall hreg2 hlive hreg1 hpc
          refine .live hholds hissued ?_ (.inr ?_)
          · rw [hreg2]
            exact hreg1.unpredicted
          · have hafter : afterReg2 (s.step cfg p.size i).core = s.core.reg1.next := by
              rw [afterReg2, Core.pcPlus4Regde, hreg2]
              rfl
            rw [hafter]
            exact hadvance

omit hm hsize in
theorem hands_quiet {s : Core m} {c : CoreIn w} (hquiet : Quiet s) :
    Hands p (s.executed cfg c) σ σ v := by
  obtain ⟨_, hfloat, _, hwrite, hamo, hdest⟩ : (s.executed cfg c).valid = false ∧ _ :=
    hquiet.executed
  refine ⟨?_, ?_, ?_⟩
  · rw [Reg3.memAfter, Reg3.writes, hamo, hwrite]
    rfl
  · intro k hk
    rw [hdest, beq_eq_false_iff_ne.mpr (Ne.symm hk), Bool.and_false]
    rfl
  · intro k
    rw [hfloat]
    rfl

omit hm hsize in
theorem csr_quiet {s : Core m} {c : CoreIn w} (hquiet : Quiet s) (hplain : Untranslated s)
    (hint : s.interruptTaken cfg c = false)
    (hflags : (s.csrIn cfg c).fpFlagsWe = true ->
      (s.csrIn cfg c).fpFlagsIn &&& ~~~s.csr.fflags = 0) :
    (s.step cfg c).csr.timeless = s.csr.timeless := by
  obtain ⟨hwrite, htrap, hmret, hsret⟩ : (s.csrIn cfg c).writeEn = false ∧ _ :=
    hquiet.csrIn hplain
  exact Csr.timeless_step_quiet hwrite (htrap.trans hint) hmret hsret hflags rfl

/--
A bubble that moves on changes nothing.
-/
theorem rel_drop (hu : Calm p D cfg s i)
    (h : Rel p D cfg s bytes σ (s.devValue cfg p.size i))
    (hhold : s.core.reg2Hold cfg (s.coreIn cfg p.size i) = false)
    (hvalid : s.core.reg2.valid = false) :
    Rel p D cfg (s.step cfg p.size i) σ.mem σ v := by
  have hplain := h.settled.untranslated hu.off
  have hgo := backHold_of_noHold hhold
  cases h.occupied with
  | live hholds =>
      rw [hholds.valid] at hvalid
      cases hvalid
  | quiet hquiet hunits hfront =>
      have htaken : s.core.branchTaken cfg (s.coreIn cfg p.size i) = false := by
        rw [Core.branchTaken, hu.bubble hvalid, hu.noInterrupt]
        rfl
      have hcsr' : (s.step cfg p.size i).core.csr.timeless = σ.csr :=
        (csr_quiet hquiet hplain hu.noInterrupt (hu.flags hvalid)).trans h.csr
      have hone : (s.core.executed cfg (s.coreIn cfg p.size i)).OneAccess := hquiet.oneAccess
      have hhands : Hands p (s.core.executed cfg (s.coreIn cfg p.size i)) σ σ v :=
        hands_quiet hquiet
      refine ⟨backend_move hm hsize hu.off hu.toServed h.toBackend hgo hone hhands hcsr', ?_⟩
      exact occupied_advance hu h.toBackend hhold hone hhands hcsr' (fun _ => hquiet.floatReady)
        hunits htaken hfront

/-!
# The step of the sequential machine
-/

omit hm hsize in
theorem memAfter_readData2 {size : Nat} {r : Reg3 w} {d : BitVec w}
    (h : r.writes = true -> d = r.readData2) :
    Reg3.memAfter size bytes v { r with readData2 := d } = r.memAfter size bytes v := by
  have hwrites : Reg3.writes { r with readData2 := d } = r.writes := rfl
  unfold Reg3.memAfter
  rw [hwrites]
  cases hw : r.writes with
  | false => rfl
  | true => rw [h hw]

omit hm hsize in
/--
Only an instruction that writes memory needs its store operand.
-/
theorem storeData_of_writes {t : Moment w} (hexec : Executes cfg s.core (σ.instr p t))
    (hwrites : (σ.executed p t).writes = true) :
    s.core.dtlbStoreData cfg = (σ.executed p t).readData2 := by
  refine hexec.dtlbStoreData ?_
  have hkinds : ((!(σ.instr p t).exceptionTaken && (σ.instr p t).ctrl.isAmo) = true) ∨
      ((!(σ.instr p t).exceptionTaken && (σ.instr p t).ctrl.memWrite) = true) := by
    rw [Reg3.writes] at hwrites
    cases hamo : (σ.executed p t).isAmo with
    | true => exact .inl hamo
    | false =>
        rw [hamo] at hwrites
        exact .inr hwrites
  rcases hkinds with hkind | hkind
  · exact .inr (Bool.and_eq_true_iff.mp hkind).right
  · exact .inl (Bool.and_eq_true_iff.mp hkind).right

omit hm hsize in
theorem hands_exec {c : CoreIn w} {t : Moment w} (hfma : cfg.fmaddUnit = p.fma)
    (hlines : t.lines = linesOf c)
    (hexec : Executes cfg s.core (σ.instr p t)) (hdiv : s.core.divStall = false)
    (hfp : s.core.fpStall = false) :
    Hands p (s.core.executed cfg c) σ (σ.exec p t) t.dev := by
  have heq := hexec.executed (i := c) hdiv hfp
  rw [hfma, <- hlines] at heq
  have hself : s.core.executed cfg c =
      { σ.executed p t with readData2 := s.core.dtlbStoreData cfg } := heq
  have hvalue : (s.core.executed cfg c).value p.size σ.mem t.dev =
      (σ.executed p t).value p.size σ.mem t.dev := by
    rw [hself]
    rfl
  refine ⟨?_, ?_, ?_⟩
  · rw [hself, memAfter_readData2]
    · rfl
    · exact storeData_of_writes hexec
  · intro k hk
    rw [hvalue, hself]
    show σ.writeReg (if (σ.executed p t).regWrite && (σ.executed p t).writeReg != 0 then
      some ((σ.executed p t).writeReg, (σ.executed p t).value p.size σ.mem t.dev)
      else none) k = _
    by_cases hdest : (σ.executed p t).writeReg = k
    · rw [hdest, bne_iff_ne.mpr hk, Bool.and_true, beq_self_eq_true, Bool.and_true]
      cases (σ.executed p t).regWrite with
      | false => rfl
      | true => exact Lib.setAt_self _ _ _
    · rw [beq_eq_false_iff_ne.mpr hdest, Bool.and_false]
      cases (σ.executed p t).regWrite && (σ.executed p t).writeReg != 0 with
      | false => rfl
      | true => exact Lib.setAt_of_ne (Ne.symm hdest)
  · intro k
    rw [hvalue, hself]
    show σ.writeFreg (if (σ.executed p t).fRegWrite then
      some ((σ.executed p t).writeReg, (σ.executed p t).value p.size σ.mem t.dev)
      else none) k = _
    cases (σ.executed p t).fRegWrite with
    | false => rfl
    | true =>
        by_cases hdest : (σ.executed p t).writeReg = k
        · rw [hdest, beq_self_eq_true]
          exact Lib.setAt_self _ _ _
        · rw [beq_eq_false_iff_ne.mpr hdest]
          exact Lib.setAt_of_ne (Ne.symm hdest)

omit hm hsize in
theorem csr_exec {c : CoreIn w} {t : Moment w} (hfma : cfg.fmaddUnit = p.fma)
    (hlines : t.lines = linesOf c) (hexec : Executes cfg s.core (σ.instr p t))
    (hhold : s.core.reg2Hold cfg c = false) (hint : s.core.interruptTaken cfg c = false) :
    (s.core.step cfg c).csr.timeless = (σ.exec p t).csr := by
  have hin := hexec.csrIn hhold hint
  rw [hfma, <- hlines] at hin
  show (s.core.csr.step vlen (s.core.csrIn cfg c)).timeless =
    ((σ.instr p t).csr.step vlen ((σ.instr p t).csrIn p.fma t.lines)).timeless
  rw [hin, hexec.holds.csr]
  refine Csr.timeless_step_congr _ _ _ _ ?_ ?_
  · intro hwrite
    have hboth : ((σ.instr p t).ctrl.isCsr && !(σ.instr p t).csrPrivViolation) = true := hwrite
    exact hexec.csrWdata (Bool.and_eq_true_iff.mp hboth).left
  · intro hflags
    have hfp : (σ.instr p t).isFp = true := hflags
    rw [hexec.fpOut hfp, hfma]
    rfl

def moment (s : System m P) (i : SystemIn w) (v : BitVec w) : Moment w :=
  { counters := s.core.csr.counters
    lines :=
      { msipPending := i.msipPending, timerPending := i.timerPending, extPending := i.uartIrq }
    dev := v }

/--
An instruction that leaves execute is the next one of the sequential machine.
-/
theorem rel_leave (hfma : cfg.fmaddUnit = p.fma) (hu : Calm p D cfg s i)
    (h : Rel p D cfg s bytes σ (s.devValue cfg p.size i))
    (hhold : s.core.reg2Hold cfg (s.coreIn cfg p.size i) = false)
    (hvalid : s.core.reg2.valid = true) :
    Rel p D cfg (s.step cfg p.size i) σ.mem (σ.exec p (s.moment i v)) v := by
  have hplain := h.settled.untranslated hu.off
  have hgo := backHold_of_noHold hhold
  obtain ⟨hdiv, hfp⟩ := unstalled_of_noHold hhold
  cases h.occupied with
  | quiet hquiet =>
      rw [hquiet.valid] at hvalid
      cases hvalid
  | live hholds hissued hstatic hfront =>
      have hdata := h.data
      have hexec : Executes cfg s.core (σ.instr p (s.moment i v)) :=
        hdata.executes hplain hholds (issued_atTime hissued) hdiv hfp
      have hhands : Hands p (s.core.executed cfg (s.coreIn cfg p.size i)) σ
          (σ.exec p (s.moment i v)) v :=
        hands_exec hfma rfl hexec hdiv hfp
      have hcsr' : (s.step cfg p.size i).core.csr.timeless =
          (σ.exec p (s.moment i v)).csr :=
        csr_exec hfma rfl hexec hhold hu.noInterrupt
      have hone : (s.core.executed cfg (s.coreIn cfg p.size i)).OneAccess := hholds.oneAccess
      refine ⟨backend_move hm hsize hu.off hu.toServed h.toBackend hgo hone hhands hcsr', ?_⟩
      cases htaken : s.core.otherRedirectTaken cfg with
      | true =>
          have hbranch : s.core.branchTaken cfg (s.coreIn cfg p.size i) = true := by
            rw [Core.branchTaken, htaken, Bool.true_or]
          have htarget := hexec.redirectTarget hhold hu.noInterrupt htaken
          rw [hfma] at htarget
          have hgoes := hu.lands hbranch hhold
          have hfront' : Front cfg p.fetch (s.core.step cfg (s.coreIn cfg p.size i)) _ :=
            Core.front_redirect hbranch hgoes
          rw [htarget] at hfront'
          refine .quiet (Core.quiet_squashed ?_) ?_ hfront'
          · show s.core.nextReg2 cfg (s.coreIn cfg p.size i) = _
            rw [Core.nextReg2, Reg2.step, hhold, hbranch]
            rfl
          · have hidle : UnitsIdle (s.step cfg p.size i).core :=
              Core.unitsIdle_leave hdiv hfp (hissued.units.follow hholds)
            exact hidle.follow
      | false =>
          have hbranch : s.core.branchTaken cfg (s.coreIn cfg p.size i) = false := by
            rw [Core.branchTaken, htaken, hu.noInterrupt]
            rfl
          have hpc : (σ.exec p (s.moment i v)).pc = afterReg2 s.core :=
            hexec.nextPc_of_predicted hstatic htaken
          rw [htaken] at hfront
          refine occupied_advance hu h.toBackend hhold hone hhands hcsr' ?_
            (hissued.units.follow hholds) hbranch ?_
          · intro hstall
            obtain ⟨hforward, _, hload⟩ := noHazard_of_go hstall hbranch
            exact hholds.floatReady hload hforward (fun hforwards => hu.fma hforwards hstall)
          · rw [hpc]
            exact hfront.resolve_left (by simp)

end Cycle

end System
end Soc
end RvCores
