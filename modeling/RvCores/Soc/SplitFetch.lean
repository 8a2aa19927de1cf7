import RvCores.Soc.HazardStrategies

/-!
# The split fetch

With six stages a relay register lies between the program counter and the instruction
memory.  The program counter is still incremented by the length of the word that comes
out, which is the one before the word that stands at it.  And after reset both registers
point at the first word, which is fetched twice.
-/

namespace RvCores
namespace Soc

open Isa Block Pipe
open Pipe.Core (Settled Untranslated HoldsInstr Issued Quiet UnitsFollow UnitsIdle)

variable {w : Nat} {m : Mmu w} {P : RamPort w}

/-!
# After a redirect
-/

/--
A redirect has left execute, and nothing is in front of it.
-/
structure Flushed (s : Core m) : Prop where
  reg1 : s.reg1 = .squashed
  reg2 : s.reg2 = .squashed
  memRead : s.reg3.memRead = false
  memWrite : s.reg3.memWrite = false
  isAmo : s.reg3.isAmo = false

/--
In the cycle after a redirect it is either made again or let go.
-/
def Extends (cfg : Config w) (s : Core m) : Prop :=
  s.redirectSquashExtendR = true -> s.otherRedirectTaken cfg = true ∨ Flushed s

theorem Flushed.moves {cfg : Config w} {s : Core m} {c : CoreIn w} (h : Flushed s)
    (hs : Settled cfg s) (hplain : Untranslated s) (hext : s.redirectSquashExtendR = true) :
    s.pcStall cfg c = false := by
  have hquiet : Quiet s := Core.quiet_squashed h.reg2
  have hstall : s.stall cfg c = false := by
    have hforward : s.hazardFd = false := by
      rw [Core.hazardFd, hazard, h.reg2]
      rfl
    have hnoForward : s.hazardNoForwardFd = false := by
      have hnop : Word.rs1 nop = 0 ∧ Word.rs2 nop = 0 := by decide
      rw [Core.hazardNoForwardFd, hazardNoForward, h.reg1, h.reg2]
      show (_ || (s.reg3.regWrite && s.reg3.writeReg != 0 &&
        (s.reg3.writeReg == Word.rs1 nop || s.reg3.writeReg == Word.rs2 nop))) = false
      rw [hnop.left, hnop.right]
      by_cases hdest : s.reg3.writeReg = 0
      · simp [hdest, Reg2.squashed, Reg2.mk', DecodeControl.zero]
      · simp [Reg2.squashed, Reg2.mk', DecodeControl.zero]
    rw [Core.stall, hforward, hnoForward]
    simp
  have hmem : s.memStall cfg c = false := by
    simp [Core.memStall, Core.memTrigger, hs.uncached, h.memRead, h.memWrite]
  have hfp : s.fpStall = false := by
    rw [Core.fpStall, Core.isFpDivRegde, Core.isFpSqrtRegde, Core.isOpFpRegde, h.reg2]
    rfl
  have hload : s.floatLoadUseHazard = false := by
    rw [Core.floatLoadUseHazard, Core.isLoadFpRegde, h.reg2]
    rfl
  have hicache : s.icacheMiss cfg c = false := by
    simp [Core.icacheMiss, Core.icacheWaits, hs.uncached]
  have himem : s.imemWait cfg c = false := by
    simp [Core.imemWait, Core.imemWaits, hext]
  have hamo : s.amoStall = false := by
    rw [Core.amoStall, Core.amoActive, h.isAmo]
    rfl
  rw [Core.pcStall, hstall, hquiet.divStall, hmem, hfp, hload,
    Core.itlbMiss_of_untranslated hplain, Core.dtlbMiss_of_untranslated hplain, hicache, himem,
    hamo, hs.scoreboardStall]
  rfl

section Cycle

variable {p : Platform w} {D : Session.Discipline P p.size} {cfg : Config w}
  {s : System m P} {i : SystemIn w} {σ : Machine w} {v v' : BitVec w} {bytes bytes' : Bytes}

/--
A redirect that is held is made again.
-/
theorem redirect_hold (hoff : s.core.translateEnable = false)
    (h : System.Rel p D cfg s bytes σ v)
    (h' : System.Rel p D cfg (s.step cfg p.size i) bytes' σ v')
    (hreg2 : (s.step cfg p.size i).core.reg2 = s.core.reg2) :
    (s.step cfg p.size i).core.otherRedirectTaken cfg = s.core.otherRedirectTaken cfg := by
  have hplain := h.settled.untranslated hoff
  have hoff' : (s.step cfg p.size i).core.translateEnable = false := by
    rw [System.translateEnable_of_timeless (h'.csr.trans h.csr.symm), hoff]
  have hplain' := h'.settled.untranslated hoff'
  cases h.occupied with
  | quiet hquiet =>
      cases h'.occupied with
      | quiet hquiet' =>
          rw [hquiet'.otherRedirectTaken hplain', hquiet.otherRedirectTaken hplain, hreg2]
      | live hholds' =>
          have hvalid := hholds'.valid
          rw [hreg2, hquiet.valid] at hvalid
          cases hvalid
  | live hholds hissued =>
      cases h'.occupied with
      | quiet hquiet' =>
          have hvalid := hquiet'.valid
          rw [hreg2, hholds.valid] at hvalid
          cases hvalid
      | live hholds' hissued' =>
          have hshows := h.data.shows hplain hholds hissued
          have hshows' := h'.data.shows hplain' hholds' hissued'
          rw [hshows'.otherRedirectTaken, hshows.otherRedirectTaken, hreg2]
          rfl

theorem extends_step (hstatic : cfg.dynamic = false) (hu : System.Calm p D cfg s i)
    (h : System.Rel p D cfg s bytes σ v)
    (hheld : s.core.reg2Hold cfg (s.coreIn cfg p.size i) = true ->
      exists bytes' v', System.Rel p D cfg (s.step cfg p.size i) bytes' σ v') :
    Extends cfg (s.step cfg p.size i).core := by
  intro hext
  have hplain := h.settled.untranslated hu.off
  have htaken : s.core.branchTaken cfg (s.coreIn cfg p.size i) = true := by
    have hboth : (cfg.splitFetch && s.core.branchTaken cfg (s.coreIn cfg p.size i)) = true :=
      hext
    exact (Bool.and_eq_true_iff.mp hboth).right
  have hredirect : s.core.otherRedirectTaken cfg = true := by
    rwa [Core.branchTaken, hu.noInterrupt, Bool.or_false] at htaken
  cases hhold : s.core.reg2Hold cfg (s.coreIn cfg p.size i) with
  | true =>
      left
      obtain ⟨bytes', v', h'⟩ := hheld hhold
      rw [redirect_hold hu.off h h' (Core.reg2_of_hold hhold), hredirect]
  | false =>
      right
      have hgo := System.backHold_of_noHold hhold
      have hreg3 : (s.step cfg p.size i).core.reg3 =
          s.core.executed cfg (s.coreIn cfg p.size i) := Core.reg3_of_moves hgo
      have hnone : s.core.reg2.ctrl.memRead = false ∧ s.core.reg2.ctrl.memWrite = false ∧
          s.core.reg2.ctrl.isAmo = false := by
        cases h.occupied with
        | quiet hquiet => rcases hquiet.ctrl with hctrl | hctrl <;> rw [hctrl] <;> decide
        | live hholds hissued =>
            have hshows := h.data.shows hplain hholds hissued
            rw [hshows.redirects_of_static hstatic] at hredirect
            rw [hholds.ctrl]
            exact Instr.noMemory_of_redirect hredirect
      refine ⟨?_, ?_, ?_, ?_, ?_⟩
      · show s.core.nextReg1 cfg _ = _
        rw [Core.nextReg1, htaken]
        rfl
      · show s.core.nextReg2 cfg _ = _
        rw [Core.nextReg2, Reg2.step, hhold, htaken]
        rfl
      · rw [hreg3]
        show (_ && s.core.reg2.ctrl.memRead) = false
        rw [hnone.left, Bool.and_false]
      · rw [hreg3]
        show (_ && s.core.reg2.ctrl.memWrite) = false
        rw [hnone.right.left, Bool.and_false]
      · rw [hreg3]
        show (_ && s.core.reg2.ctrl.isAmo) = false
        rw [hnone.right.right, Bool.and_false]

end Cycle

/-!
# The first word

It comes to decode twice.  When it leads elsewhere, the second copy is dropped.
-/

/--
Nothing but the first word is in the pipeline.
-/
inductive FirstFetch (cfg : Config w) (fetch : BitVec w -> Word) (s : Core m) : Prop where
  | empty (hbubble : s.idBubbleR = true) (hext : s.redirectSquashExtendR = false)
      (hreg1 : s.reg1 = .squashed) (hpc : s.reg1a.pc = 0)
      (hpredict : s.reg1a.predictTaken = false)
  | filled (hlive : s.idBubbleR = false) (hext : s.redirectSquashExtendR = false)
      (hreg1 : s.reg1.Holds cfg fetch) (hpc : s.reg1.pc = 0)

theorem FirstFetch.ifetchFault {cfg : Config w} {fetch : BitVec w -> Word} {s : Core m}
    (h : FirstFetch cfg fetch s) : s.reg1.ifetchFault = false := by
  cases h with
  | empty _ _ hreg1 =>
      rw [hreg1]
      rfl
  | filled _ _ hreg1 => exact hreg1.ifetchFault

theorem FirstFetch.hold {cfg : Config w} {fetch : BitVec w -> Word} {s : Core m}
    {c : CoreIn w} (htaken : s.branchTaken cfg c = false) (hstall : s.pcStall cfg c = true)
    (h : FirstFetch cfg fetch s) : FirstFetch cfg fetch (s.step cfg c) := by
  have hext : s.redirectSquashExtendR = false := by
    cases h with
    | empty _ hext => exact hext
    | filled _ hext => exact hext
  have hbubble : (s.step cfg c).idBubbleR = s.idBubbleR := by
    show s.nextIdBubbleR cfg c = _
    simp [Core.nextIdBubbleR, htaken, hext, hstall]
  have hreg1 : (s.step cfg c).reg1 = s.reg1 := by
    show s.nextReg1 cfg c = _
    simp [Core.nextReg1, Reg1.step, htaken, hext, hstall]
  have hreg1a : (s.step cfg c).reg1a = s.reg1a := by
    show s.nextReg1a cfg c = _
    rw [Core.nextReg1a, Reg1a.step, hstall]
    rfl
  cases h with
  | empty hempty _ hsquashed hpc hpredict =>
      refine .empty (hbubble.trans hempty) (Core.ext_step htaken) (hreg1.trans hsquashed) ?_ ?_
      · rw [hreg1a, hpc]
      · rw [hreg1a, hpredict]
  | filled hlive _ hholds hpc =>
      refine .filled (hbubble.trans hlive) (Core.ext_step htaken) ?_ ?_
      · rw [hreg1]
        exact hholds
      · rw [hreg1, hpc]

/--
The first copy goes to decode.
-/
theorem firstFetch_fetched {cfg : Config w} {fetch : BitVec w -> Word} {s : Core m}
    {c : CoreIn w} (hsplit : cfg.splitFetch = true)
    (hinst : c.inst = fetch (s.imemReadAddr cfg)) (hplain : Untranslated s)
    (htaken : s.branchTaken cfg c = false) (hgo : s.pcStall cfg c = false)
    (hext : s.redirectSquashExtendR = false) (hpc : s.reg1a.pc = 0)
    (hpredict : s.reg1a.predictTaken = false) : FirstFetch cfg fetch (s.step cfg c) := by
  have hreg1 : (s.step cfg c).reg1 = s.fetched cfg c := by
    show s.nextReg1 cfg c = _
    simp [Core.nextReg1, Reg1.step, htaken, hext, hgo]
  have hread : s.imemReadAddr cfg = s.reg1a.pc := by
    rw [Core.imemReadAddr, hsplit]
    rfl
  refine .filled ?_ (Core.ext_step htaken) ?_ ?_
  · show s.nextIdBubbleR cfg c = false
    simp [Core.nextIdBubbleR, htaken, hext, hgo]
  · rw [hreg1]
    refine ⟨?_, ?_, Core.ifetchFaultIf_of_untranslated hplain, ?_⟩
    · show instFinal c.inst = instFinal (fetch (s.imemReadAddr cfg))
      rw [hinst]
    · show isCompressed c.inst = isCompressed (fetch (s.imemReadAddr cfg))
      rw [hinst]
    · intro _
      show (if cfg.splitFetch then s.reg1a.predictTaken else s.predictTakenIf cfg) = false
      rw [hsplit, hpredict]
      rfl
  · rw [hreg1]
    show s.imemReadAddr cfg = 0
    rw [hread, hpc]

namespace Observed

variable {p : Platform w} {D : Session.Discipline P p.size} {cfg : Config w} {σ : Machine w}
  {o : Observed m P} {i : SystemIn w}

/--
No instruction has left execute yet.
-/
structure Boot (p : Platform w) (D : Session.Discipline P p.size) (cfg : Config w)
    (σ : Machine w) (o : Observed m P) : Prop where
  settled : o.settled = []
  pending : o.pending = []
  back : forall v, System.Backend p D cfg o.sys σ.mem σ v
  quiet : Quiet o.sys.core
  units : UnitsFollow o.sys.core
  front : FirstFetch cfg p.fetch o.sys.core
  accounts : Accounts p σ o
  replays : Replays (RegFile.reset cfg.spInit) o

theorem Boot.events (h : Boot p D cfg σ o) (v : BitVec w) : o.events v = [] := by
  rw [Observed.events, h.settled, h.pending]
  rfl

/--
The history of a cycle in which nothing has left execute.
-/
theorem Boot.history (h : Boot p D cfg σ o) :
    (o.step cfg p.size i).settled = [] ∧ (o.step cfg p.size i).pending = [] := by
  cases hback : o.sys.core.backHold cfg (o.sys.coreIn cfg p.size i) with
  | true =>
      rw [step_hold hback]
      exact ⟨h.settled, h.pending⟩
  | false =>
      rw [settled_step hback, pending_step hback, h.events, h.quiet.valid, Bool.and_false]
      exact ⟨rfl, rfl⟩

variable (hm : m.PtwLawful) (hsize : p.size <= uartRegion.base)

include hm hsize

theorem Boot.backend_step (ho : System.Ordinary p cfg o.sys i)
    (hu : System.Served p D cfg o.sys i) (h : Boot p D cfg σ o) :
    (forall v, System.Backend p D cfg (o.step cfg p.size i).sys σ.mem σ v) ∧
      Accounts p σ (o.step cfg p.size i) := by
  have hplain := (h.back 0).settled.untranslated ho.off
  have hflags := ho.flags h.quiet.valid
  rw [sys_step]
  cases hback : o.sys.core.backHold cfg (o.sys.coreIn cfg p.size i) with
  | true =>
      exact ⟨fun v => System.backend_hold hm hsize ho.off ho.noInterrupt hu (h.back v) hback,
        accounts_hold ho.noInterrupt hback (h.back 0).apart h.accounts⟩
  | false =>
      obtain ⟨hnone, hcsr⟩ := writes_quiet h.quiet hplain ho.noInterrupt hflags
      constructor
      · intro v
        exact System.backend_move hm hsize ho.off hu (h.back _) hback h.quiet.oneAccess
          (System.hands_quiet h.quiet)
          ((System.csr_quiet h.quiet hplain ho.noInterrupt hflags).trans (h.back 0).csr)
      · refine accounts_stay hsize hu ?_ hback (by rw [h.quiet.valid, Bool.and_false]) hnone
          hcsr h.accounts
        rw [h.settled, h.events]
        exact h.back _

/--
The first word goes through decode, and is then in execute as any other.
-/
theorem Boot.step (hstatic : cfg.dynamic = false) (hsplit : cfg.splitFetch = true)
    (hpc : σ.pc = 0) (hfirst : forall t, (σ.instr p t).redirects = true)
    (ho : System.Ordinary p cfg o.sys i) (hu : System.Served p D cfg o.sys i)
    (h : Boot p D cfg σ o) :
    Boot p D cfg σ (o.step cfg p.size i) ∨ Tracked p D cfg σ (o.step cfg p.size i) := by
  have hplain := (h.back 0).settled.untranslated ho.off
  obtain ⟨hback', haccounts'⟩ := h.backend_step hm hsize ho hu
  obtain ⟨hsettled', hpending'⟩ : (o.step cfg p.size i).settled = [] ∧ _ := h.history
  have hreplays' : Replays (RegFile.reset cfg.spInit) (o.step cfg p.size i) :=
    replays_step (h.back 0).settled ((h.back 0).settled.step hm ho.off) (h.back 0).apart
      h.replays
  have htaken : o.sys.core.branchTaken cfg (o.sys.coreIn cfg p.size i) = false := by
    rw [Core.branchTaken, h.quiet.otherRedirectTaken hplain, ho.noInterrupt, hstatic]
    rfl
  have hstays : Quiet (o.sys.step cfg p.size i).core ->
      UnitsFollow (o.sys.step cfg p.size i).core ->
        FirstFetch cfg p.fetch (o.sys.step cfg p.size i).core ->
          Boot p D cfg σ (o.step cfg p.size i) := by
    intro hquiet hunits hfront
    refine ⟨hsettled', hpending', hback', ?_, ?_, ?_, haccounts', hreplays'⟩
    all_goals
      rw [sys_step]
      assumption
  cases hhold : o.sys.core.reg2Hold cfg (o.sys.coreIn cfg p.size i) with
  | true =>
      left
      exact hstays (h.quiet.of_reg2 (Core.reg2_of_hold hhold))
        (Core.unitsFollow_hold hhold h.units)
        (h.front.hold htaken (System.pcStall_of_hold hhold))
  | false =>
      obtain ⟨hdiv, hfp⟩ := System.unstalled_of_noHold hhold
      have hidle : UnitsIdle (o.sys.step cfg p.size i).core :=
        Core.unitsIdle_leave hdiv hfp h.units
      have hreg2 : (o.sys.step cfg p.size i).core.reg2 =
          if o.sys.core.reg2Flush cfg (o.sys.coreIn cfg p.size i) then
            (o.sys.core.decoded cfg (o.sys.coreIn cfg p.size i)).bubble
          else o.sys.core.decoded cfg (o.sys.coreIn cfg p.size i) := by
        show o.sys.core.nextReg2 cfg (o.sys.coreIn cfg p.size i) = _
        rw [Core.nextReg2, Reg2.step, hhold, htaken]
        rfl
      rw [<- System.pcStall_of_noHold hhold] at hreg2
      cases hstall : o.sys.core.pcStall cfg (o.sys.coreIn cfg p.size i) with
      | true =>
          left
          rw [hstall, if_pos rfl] at hreg2
          exact hstays (Core.quiet_bubble hreg2 h.front.ifetchFault) hidle.follow
            (h.front.hold htaken hstall)
      | false =>
          rw [hstall, if_neg Bool.false_ne_true] at hreg2
          cases h.front with
          | empty hbubble hext hreg1 hpc1 hpredict =>
              left
              exact hstays (Core.quiet_nop hreg2 hbubble hreg1) hidle.follow
                (firstFetch_fetched hsplit ho.inst hplain htaken hstall hext hpc1 hpredict)
          | filled hlive hext hreg1 hpc1 =>
              right
              have hcsr' : (o.sys.step cfg p.size i).core.csr.timeless = σ.csr :=
                (System.csr_quiet h.quiet hplain ho.noInterrupt (ho.flags h.quiet.valid)).trans
                  (h.back 0).csr
              obtain ⟨hholds, hissued⟩ := System.live_decoded (h.back 0) hhold
                h.quiet.oneAccess (System.hands_quiet (v := 0) h.quiet) hcsr' h.quiet.floatReady
                hidle htaken hstall hreg2 hlive hreg1 (hpc1.trans hpc.symm)
              refine ⟨?_, haccounts', ?_, hreplays'⟩
              · intro v
                rw [hsettled', Observed.events, hsettled', hpending']
                refine ⟨hback' v, ?_⟩
                rw [sys_step]
                refine .live hholds hissued ?_ (.inl ?_)
                · rw [hreg2]
                  exact hreg1.unpredicted
                · have hback := hback' 0
                  rw [sys_step] at hback
                  have hshows := hback.data.shows (hback.settled.untranslated ?_) hholds hissued
                  · rw [hshows.redirects_of_static hstatic]
                    exact hfirst _
                  · rw [System.translateEnable_of_timeless (hcsr'.trans (h.back 0).csr.symm)]
                    exact ho.off
              · constructor
                · intro e he
                  rw [hsettled', hpending'] at he
                  cases he
                · rw [hpending']
                  exact Nat.zero_le 1

/-!
# Along a run
-/

/--
While execute is held, the system is at the same event.
-/
theorem follows_held (hfma : cfg.fmaddUnit = p.fma) (hu : System.Calm p D cfg o.sys i)
    (h : Follows p D cfg σ o)
    (hhold : o.sys.core.reg2Hold cfg (o.sys.coreIn cfg p.size i) = true) :
    exists bytes v, System.Rel p D cfg (o.sys.step cfg p.size i) bytes
      (σ.after p (o.events (o.sys.devValue cfg p.size i))) v := by
  have hnext := follows_step hm hsize hfma h hu
  cases hback : o.sys.core.backHold cfg (o.sys.coreIn cfg p.size i) with
  | true =>
      have hsame := hnext (o.sys.devValue cfg p.size i)
      rw [step_hold hback] at hsame
      exact ⟨_, _, hsame⟩
  | false =>
      have hstay := hnext 0
      rw [events_stay hback (by rw [hhold]; rfl), sys_step] at hstay
      exact ⟨_, _, hstay⟩

end Observed

/--
What is asked of a cycle, apart from what every instruction asks: where fetch moves on in
order, the word that comes out is as long as the word at the program counter.
-/
structure LengthInStep (p : Platform w) (D : Session.Discipline P p.size) (cfg : Config w)
    (s : System m P) (i : SystemIn w) : Prop where
  ordinary : System.Ordinary p cfg s i
  served : System.Served p D cfg s i
  length : cfg.splitFetch = true -> s.core.branchTaken cfg (s.coreIn cfg p.size i) = false ->
    s.core.pcStall cfg (s.coreIn cfg p.size i) = false ->
      isCompressed (p.fetch s.core.reg1a.pc) = isCompressed (p.fetch s.core.pc)

theorem LengthInStep.calm {p : Platform w} {D : Session.Discipline P p.size} {cfg : Config w}
    {s : System m P} {i : SystemIn w} {σ : Machine w} {v : BitVec w} {bytes : Bytes}
    (hstatic : cfg.dynamic = false) (h : System.Rel p D cfg s bytes σ v)
    (hextends : Extends cfg s.core) (hu : LengthInStep p D cfg s i) :
    System.Calm p D cfg s i := by
  refine hu.ordinary.calm hstatic h hu.served ⟨?_, ?_⟩
  · exact fun hsplit htaken hgo _ => hu.length hsplit htaken hgo
  · intro hext hbranch
    rcases hextends hext with hredirect | hflushed
    · rw [Core.branchTaken, hredirect] at hbranch
      cases hbranch
    · exact hflushed.moves h.settled (h.settled.untranslated hu.ordinary.off) hext

/--
What is known along a run with either number of stages.
-/
inductive OnTrack (p : Platform w) (D : Session.Discipline P p.size) (cfg : Config w)
    (σ : Machine w) (o : Observed m P) : Prop where
  | boot (hsplit : cfg.splitFetch = true) (h : Observed.Boot p D cfg σ o)
  | running (h : Observed.Tracked p D cfg σ o) (hext : Extends cfg o.sys.core)

section Along

variable {p : Platform w} {D : Session.Discipline P p.size} {cfg : Config w} {σ : Machine w}
  {o : Observed m P} {i : SystemIn w}

theorem onTrack_step (hm : m.PtwLawful) (hsize : p.size <= uartRegion.base)
    (hfma : cfg.fmaddUnit = p.fma) (hstatic : cfg.dynamic = false) (hpc : σ.pc = 0)
    (hfirst : cfg.splitFetch = true -> forall t, (σ.instr p t).redirects = true)
    (hlines : (o.sys.moment i 0).lines = .silent) (hu : LengthInStep p D cfg o.sys i)
    (h : OnTrack p D cfg σ o) : OnTrack p D cfg σ (o.step cfg p.size i) := by
  cases h with
  | boot hsplit hboot =>
      have htaken : o.sys.core.branchTaken cfg (o.sys.coreIn cfg p.size i) = false := by
        rw [Core.branchTaken, hboot.quiet.otherRedirectTaken
          ((hboot.back 0).settled.untranslated hu.ordinary.off), hu.ordinary.noInterrupt, hstatic]
        rfl
      rcases hboot.step hm hsize hstatic hsplit hpc (hfirst hsplit) hu.ordinary hu.served with
        hagain | htracked
      · exact .boot hsplit hagain
      · refine .running htracked ?_
        intro hext
        rw [Observed.sys_step] at hext
        have hnone : (o.sys.step cfg p.size i).core.redirectSquashExtendR = false :=
          Core.ext_step htaken
        rw [hnone] at hext
        cases hext
  | running htracked hext =>
      have hrel := htracked.follows (o.sys.devValue cfg p.size i)
      have hcalm := hu.calm hstatic hrel hext
      refine .running (Observed.tracked_step hm hsize hfma hcalm hlines htracked) ?_
      rw [Observed.sys_step]
      exact extends_step hstatic hcalm hrel
        (Observed.follows_held hm hsize hfma hcalm htracked.follows)

theorem OnTrack.refines {dev : Nat -> BitVec w} (hprogram : p.NoCounters)
    (h : OnTrack p D cfg σ o) (hdev : Machine.Answered p dev σ o.settled) :
    Observed.Refines p dev cfg σ o := by
  cases h with
  | running htracked _ => exact htracked.refines hprogram hdev
  | boot _ hboot =>
      refine ⟨⟨0, ?_, ?_⟩, hboot.replays⟩
      · have hbegins := hboot.accounts.begins 0
        rw [hboot.events] at hbegins
        exact hbegins
      · intro hvalid
        rw [hboot.quiet.valid] at hvalid
        cases hvalid

end Along

/-!
# Both profiles
-/

namespace Depth

/--
What both profiles have in common: no cache, and the static predictor.
-/
structure Plain (p : Platform w) (cfg : Config w) : Prop where
  predictor : cfg.branchPredictor = .static
  cache : cfg.cacheMode = .none
  fma : cfg.fmaddUnit = p.fma

def withProfile (cfg : Config w) (profile : PipelineProfile) : Config w :=
  { cfg with pipelineProfile := profile }

/--
The program is fetched without translation, and nothing interrupts it.
-/
structure Unbroken (p : Platform w) (cfg : Config w) (o : Basically m p.size)
    (i : SystemIn w) : Prop where
  inst : i.inst = p.fetch (o.sys.core.imemReadAddr cfg)
  off : o.sys.core.translateEnable = false
  noInterrupt : o.sys.core.interruptTaken cfg (o.sys.coreIn cfg p.size i) = false
  msip : i.msipPending = false
  timer : i.timerPending = false
  external : i.uartIrq = false

/--
Fetch moves on by the right length, atomic operations find the port as they left it, and
neither floats nor flags disturb the cycle.
-/
structure Safe (p : Platform w) (cfg : Config w) (o : Basically m p.size)
    (i : SystemIn w) : Prop where
  length : cfg.splitFetch = true ->
    o.sys.core.branchTaken cfg (o.sys.coreIn cfg p.size i) = false ->
      o.sys.core.pcStall cfg (o.sys.coreIn cfg p.size i) = false ->
        isCompressed (p.fetch o.sys.core.reg1a.pc) = isCompressed (p.fetch o.sys.core.pc)
  served : System.Served p (RamAdapter.discipline w p.size) cfg o.sys i
  load : o.sys.core.otherRedirectTaken cfg = true ->
    o.sys.core.reg2Hold cfg (o.sys.coreIn cfg p.size i) = false ->
      o.sys.core.floatLoadUseHazard = false
  flags : o.sys.core.reg2.valid = false ->
    (o.sys.core.csrIn cfg (o.sys.coreIn cfg p.size i)).fpFlagsWe = true ->
      (o.sys.core.csrIn cfg (o.sys.coreIn cfg p.size i)).fpFlagsIn &&&
        ~~~o.sys.core.csr.fflags = 0
  fma : cfg.forwards = false ->
    o.sys.core.pcStall cfg (o.sys.coreIn cfg p.size i) = false ->
      o.sys.core.fmaTakesLoad = false

section Run

variable {p : Platform w} {cfg : Config w} {o : Basically m p.size} {i : SystemIn w}

theorem Safe.lengthInStep (hu : Unbroken p cfg o i) (h : Safe p cfg o i) :
    LengthInStep p (RamAdapter.discipline w p.size) cfg o.sys i where
  ordinary := ⟨hu.inst, hu.off, hu.noInterrupt, h.load, h.flags, h.fma⟩
  served := h.served
  length := h.length

def start (p : Platform w) (cfg : Config w) (c : Core m) (ram : RamAdapter w) :
    Basically m p.size :=
  Observed.start (directReset cfg p.size c ram)

theorem onTrack_start (hm : m.PtwLawful) (huncached : cfg.cached = false) (c : Core m)
    (ram : RamAdapter w) :
    OnTrack p (RamAdapter.discipline w p.size) cfg (sequentialReset cfg p.size c ram)
      (start p cfg c ram) := by
  cases hsplit : cfg.splitFetch with
  | false =>
      refine .running (tracked_reset hm huncached hsplit) ?_
      intro hext
      cases hext
  | true =>
      refine .boot hsplit ⟨rfl, rfl, ?_, ?_, ?_, ?_, ?_, ?_⟩
      · exact backend_reset hm huncached (RamAdapter.idle_reset ram)
      · exact ⟨rfl, .inl rfl, rfl, rfl, rfl⟩
      · have hidle : UnitsIdle (c.reset cfg) := ⟨⟨rfl, rfl⟩, ⟨rfl, rfl⟩, ⟨rfl, rfl⟩⟩
        exact hidle.follow
      · exact .empty rfl rfl rfl rfl rfl
      · exact Observed.accounts_start rfl rfl
      · exact Observed.replays_start rfl rfl

end Run

/--
In runs whose cycles are all safe, both profiles do what the sequential machine does, if
the first word leads elsewhere.
-/
theorem profiles_agree (x : Xlen) (p : Platform x.bits) (cfg : Config x.bits)
    (hsize : p.size <= uartRegion.base) (hplain : Plain p cfg) (hcounters : p.NoCounters)
    (dev : Nat -> BitVec x.bits) (c : Core x.mmu) (ram : RamAdapter x.bits)
    (hfirst : forall t, ((sequentialReset cfg p.size c ram).instr p t).redirects = true)
    (o : PipelineProfile -> Basically x.mmu p.size)
    (hrun : forall profile, Lib.ReachableWhen
      (Observed.step (withProfile cfg profile) p.size)
      (fun o i => Unbroken p (withProfile cfg profile) o i ∧
        Safe p (withProfile cfg profile) o i)
      (start p (withProfile cfg profile) c ram) (o profile))
    (hdev : forall profile,
      Machine.Answered p dev (sequentialReset cfg p.size c ram) (o profile).settled) :
    (forall profile, Observed.Refines p dev (withProfile cfg profile)
      (sequentialReset cfg p.size c ram) (o profile)) ∧
      (o .fiveStage).writes.Agrees (o .sixStageSplitFetch).writes := by
  have hm := x.mmu_lawful.toPtwLawful
  have hstatic : cfg.dynamic = false := by
    rw [Config.dynamic, hplain.predictor]
    rfl
  have huncached : cfg.cached = false := by
    rw [Config.cached, hplain.cache]
    rfl
  have htrack : forall profile, OnTrack p (RamAdapter.discipline x.bits p.size)
      (withProfile cfg profile) (sequentialReset cfg p.size c ram) (o profile) := by
    intro profile
    have hsame : (withProfile cfg profile).cached = false ∧
        (withProfile cfg profile).dynamic = false := ⟨huncached, hstatic⟩
    refine Lib.invariant_of_reachableWhen (onTrack_start hm hsame.left c ram) ?_ (hrun profile)
    intro o i h hcycle
    refine onTrack_step hm hsize hplain.fma hsame.right rfl (fun _ => hfirst) ?_
      (hcycle.right.lengthInStep hcycle.left) h
    show Lines.mk i.msipPending i.timerPending i.uartIrq = .silent
    rw [hcycle.left.msip, hcycle.left.timer, hcycle.left.external]
    rfl
  have hrefines : forall profile, Observed.Refines p dev (withProfile cfg profile)
      (sequentialReset cfg p.size c ram) (o profile) :=
    fun profile => (htrack profile).refines hcounters (hdev profile)
  exact ⟨hrefines, (hrefines .fiveStage).agrees (hrefines .sixStageSplitFetch)⟩

/-!
# Programs in halfwords
-/

def wordAt (halves : List (BitVec 16)) (a : BitVec 32) : Word :=
  halves.getD (a.toNat / 2 + 1) 0 ++ halves.getD (a.toNat / 2) 0

/--
All words that are fetched from the halfwords.
-/
def wordsOf (halves : List (BitVec 16)) : List Word :=
  (List.range (halves.length + 1)).map fun k => wordAt halves (BitVec.ofNat 32 (2 * k))

theorem wordAt_mem {halves : List (BitVec 16)} (hsize : 2 * halves.length < 2 ^ 32)
    (a : BitVec 32) : wordAt halves a ∈ wordsOf halves := by
  have hword : forall k, k <= halves.length -> wordAt halves (BitVec.ofNat 32 (2 * k)) =
      halves.getD (k + 1) 0 ++ halves.getD k 0 := by
    intro k hk
    have hindex : (BitVec.ofNat 32 (2 * k)).toNat / 2 = k := by
      rw [BitVec.toNat_ofNat, Nat.mod_eq_of_lt (by omega)]
      omega
    rw [wordAt, hindex]
  rw [wordsOf, List.mem_map]
  by_cases hin : a.toNat / 2 < halves.length
  · refine ⟨a.toNat / 2, List.mem_range.mpr (by omega), ?_⟩
    rw [hword _ (by omega)]
    rfl
  · refine ⟨halves.length, List.mem_range.mpr (by omega), ?_⟩
    rw [hword _ (Nat.le_refl _), wordAt]
    simp [List.getD_eq_getElem?_getD, Nat.le_of_not_lt hin,
      Nat.le_succ_of_le (Nat.le_of_not_lt hin)]

/-!
A program that jumps over to 32-bit words, to 16-bit words and back.  Then it goes on from
a 32-bit word to 16-bit words, and with six stages the second of them is left out.
-/

def mixedHalves : List (BitVec 16) :=
  [0x006f, 0x0080, 0x0013, 0x0000, 0x0093, 0x0050, 0x006f, 0x00c0, 0x0013, 0x0000,
    0x0013, 0x0000, 0x0085, 0xa029, 0x0001, 0x0001, 0x0013, 0x0000, 0x8113, 0x0010,
    0x0113, 0x0011, 0x0085, 0x0085, 0x8193, 0x0000, 0x006f, 0x0000]

def mixed : Platform 32 :=
  { fetch := wordAt mixedHalves, size := 128, fma := noFma }

theorem mixed_words : (wordsOf mixedHalves).all (fun x =>
    !(Isa.control 32 (instFinal x)).isCsr && loadsFixed 32 128 (instFinal x)) = true := by
  decide +kernel

theorem mixed_fetch (a : BitVec 32) :
    (Isa.control 32 (instFinal (mixed.fetch a))).isCsr = false ∧
      loadsFixed 32 128 (instFinal (mixed.fetch a)) = true := by
  have hword := List.all_eq_true.mp mixed_words _ (wordAt_mem (by decide) a)
  rw [Bool.and_eq_true, Bool.not_eq_true'] at hword
  exact hword

theorem mixed_noCounters : mixed.NoCounters := by
  intro a hcsr
  rw [(mixed_fetch a).left] at hcsr
  cases hcsr

theorem mixed_readsRam (σ : Machine 32) : σ.ReadsRam mixed noDevices :=
  Machine.readsRam_of_fixed fun a => (mixed_fetch a).right

def fetching (p : Platform 32) (profile : PipelineProfile) (o : Basically Xlen.rv32.mmu p.size) :
    SystemIn 32 :=
  { inst := p.fetch (o.sys.core.imemReadAddr (withProfile (defaultConfig 32) profile)) }

/--
The program in silence, from reset.
-/
def runOf (p : Platform 32) (profile : PipelineProfile) : Nat -> Basically Xlen.rv32.mmu p.size :=
  Lib.driven (Observed.step (withProfile (defaultConfig 32) profile) p.size)
    (fetching p profile)
    (start p (withProfile (defaultConfig 32) profile) (Core.powerUp .rv32) emptyPort.adapter)

abbrev mixing := fetching mixed

abbrev mixedRun := runOf mixed

/--
The cycles before a 16-bit word stands behind a 32-bit word with six stages.
-/
def safeUntil : PipelineProfile -> Nat
  | .fiveStage => 21
  | .sixStageSplitFetch => 15

/--
The part of a safe cycle that is not about atomic operations.
-/
def safeCycle (profile : PipelineProfile) (o : Basically Xlen.rv32.mmu mixed.size) : Bool :=
  let cfg := withProfile (defaultConfig 32) profile
  let c := o.sys.coreIn cfg mixed.size (mixing profile o)
  (!cfg.splitFetch || o.sys.core.branchTaken cfg c || o.sys.core.pcStall cfg c ||
      isCompressed (mixed.fetch o.sys.core.reg1a.pc) ==
        isCompressed (mixed.fetch o.sys.core.pc)) &&
    !o.sys.core.floatLoadUseHazard && !(o.sys.core.csrIn cfg c).fpFlagsWe

theorem mixed_cycles (profile : PipelineProfile) : forall k, k < 22 ->
    ((mixedRun profile k).sys.core.translateEnable = false ∧
      (mixedRun profile k).sys.core.interruptTaken (withProfile (defaultConfig 32) profile)
        ((mixedRun profile k).sys.coreIn (withProfile (defaultConfig 32) profile) mixed.size
          (mixing profile (mixedRun profile k))) = false) ∧
    (k < safeUntil profile -> safeCycle profile (mixedRun profile k) = true ∧
      (mixedRun profile k).sys.core.reg3.isAmo = false ∧
        ((mixedRun profile k).sys.step (withProfile (defaultConfig 32) profile) mixed.size
          (mixing profile (mixedRun profile k))).core.reg3.isAmo = false) := by
  cases profile <;> decide +kernel

theorem safeUntil_le (profile : PipelineProfile) : safeUntil profile <= 22 := by
  cases profile <;> decide

theorem mixed_unbroken (profile : PipelineProfile) : forall k, k < 22 ->
    Unbroken mixed (withProfile (defaultConfig 32) profile) (mixedRun profile k)
      (mixing profile (mixedRun profile k)) := by
  intro k hk
  obtain ⟨hoff, hquiet⟩ := (mixed_cycles profile k hk).left
  exact ⟨rfl, hoff, hquiet, rfl, rfl, rfl⟩

theorem mixed_safe (profile : PipelineProfile) : forall k, k < safeUntil profile ->
    Safe mixed (withProfile (defaultConfig 32) profile) (mixedRun profile k)
      (mixing profile (mixedRun profile k)) := by
  intro k hk
  obtain ⟨hcycle, hamo, hamo'⟩ :=
    (mixed_cycles profile k (Nat.lt_of_lt_of_le hk (safeUntil_le profile))).right hk
  simp only [safeCycle, Bool.and_eq_true, Bool.or_eq_true, Bool.not_eq_true', beq_iff_eq]
    at hcycle
  obtain ⟨⟨hlength, hload⟩, hflags⟩ := hcycle
  refine ⟨?_, System.served_of_noAmo hamo hamo', fun _ _ => hload, ?_, ?_⟩
  · intro hsplit htaken hgo
    rcases hlength with ((hunsplit | hbranch) | hstall) | hsame
    · exact Bool.noConfusion (hsplit.symm.trans hunsplit)
    · exact Bool.noConfusion (htaken.symm.trans hbranch)
    · exact Bool.noConfusion (hgo.symm.trans hstall)
    · exact hsame
  · exact fun _ hwe => Bool.noConfusion (hflags.symm.trans hwe)
  · intro hforwards
    cases hforwards

theorem redirects_of_jump {x : Instr w} (h : x.ctrl.jump = true) : x.redirects = true := by
  rw [Instr.redirects, Instr.taken, h]
  simp

theorem mixed_first (σ : Machine 32) (hpc : σ.pc = 0) (t : Moment 32) :
    (σ.instr mixed t).redirects = true := by
  have hjump : (Isa.control 32 (instFinal (mixed.fetch 0))).jump = true := rfl
  rw [<- hpc] at hjump
  exact redirects_of_jump hjump

theorem profiles_agree_until :
    (forall profile, Observed.Refines mixed noDevices
      (withProfile (defaultConfig 32) profile)
      (sequentialReset (defaultConfig 32) mixed.size (Core.powerUp .rv32) emptyPort.adapter)
      (mixedRun profile (safeUntil profile))) ∧
      (mixedRun .fiveStage (safeUntil .fiveStage)).writes.Agrees
        (mixedRun .sixStageSplitFetch (safeUntil .sixStageSplitFetch)).writes := by
  refine profiles_agree .rv32 mixed (defaultConfig 32) (by decide) ⟨rfl, rfl, rfl⟩
    mixed_noCounters noDevices (Core.powerUp .rv32) emptyPort.adapter (mixed_first _ rfl)
    (fun profile => mixedRun profile (safeUntil profile)) ?_ ?_
  · intro profile
    refine Lib.reachableWhen_driven _ fun k hk => ⟨mixed_unbroken profile k ?_,
      mixed_safe profile k hk⟩
    have hle : safeUntil profile <= 22 := by cases profile <;> decide
    exact Nat.lt_of_lt_of_le hk hle
  · exact fun profile => (mixed_readsRam _).answered _

/--
With six stages the second 16-bit word is left out.
-/
theorem profiles_differ :
    Plain mixed (defaultConfig 32) ∧ mixed.NoCounters ∧
      (forall profile, Lib.ReachableWhen
        (Observed.step (withProfile (defaultConfig 32) profile) mixed.size)
        (Unbroken mixed (withProfile (defaultConfig 32) profile))
        (start mixed (withProfile (defaultConfig 32) profile) (Core.powerUp .rv32)
          emptyPort.adapter)
        (mixedRun profile 22)) ∧
      ¬ (mixedRun .fiveStage 22).writes.Agrees (mixedRun .sixStageSplitFetch 22).writes := by
  refine ⟨⟨rfl, rfl, rfl⟩, mixed_noCounters, ?_, ?_⟩
  · exact fun profile => Lib.reachableWhen_driven 22 (mixed_unbroken profile)
  · intro h
    have hnone : ¬ ((mixedRun .fiveStage 22).writes.regs <+:
          (mixedRun .sixStageSplitFetch 22).writes.regs ∨
        (mixedRun .sixStageSplitFetch 22).writes.regs <+:
          (mixedRun .fiveStage 22).writes.regs) := by
      decide +kernel
    exact hnone h.regs

/-!
A program that counts.  With six stages it counts its first word twice.
-/

def counting : Platform 32 :=
  { fetch := wordAt [0x8093, 0x0010, 0x006f, 0x0000], size := 128, fma := noFma }

example :
    (runOf counting .fiveStage 8).writes.regs = [(1, 1)] ∧
      (runOf counting .sixStageSplitFetch 8).writes.regs = [(1, 1), (1, 2)] := by
  decide +kernel

end Depth
end Soc
end RvCores
