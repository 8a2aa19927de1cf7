import RvCores.Pipe.FetchPath

/-!
# The path of the operands

A register is in the register file, in the write-back register, or in the memory
register.  Decode reads the file and the write-back register; what is still in execute
or in memory at that time comes through forwarding, or makes decode wait.
-/

namespace RvCores
namespace Pipe
namespace Core

open Isa Block

variable {w : Nat} {m : Mmu w} {cfg : Config w} {s : Core m} {i : CoreIn w}

/-!
# A core without cache and translation
-/

structure Settled (cfg : Config w) (s : Core m) : Prop where
  uncached : cfg.cached = false
  scoreboard : forall k, s.scoreboard k = false
  pending : s.mshrPendingRegwbR = false
  missR : s.dtlb.missR = false
  coherent : m.Coherent s.ptw
  rests : m.busy s.ptw = false
  notDone : m.done s.ptw = false

namespace Settled

theorem untranslated (h : Settled cfg s) (hoff : s.translateEnable = false) : Untranslated s :=
  ⟨hoff, h.missR, h.notDone⟩

theorem dcache (h : Settled cfg s) : Core.dcache cfg i = DCachePort.none := by
  rw [Core.dcache, h.uncached]
  rfl

theorem scoreboardStall (h : Settled cfg s) : s.scoreboardStall cfg i = false := by
  simp [Core.scoreboardStall, h.scoreboard, h.dcache, DCachePort.none]

theorem walker_step (hm : m.PtwLawful) (h : Settled cfg s) {j : WalkIn w}
    (hstart : j.start = false) :
    m.busy (m.ptwStep s.ptw j) = false ∧ m.done (m.ptwStep s.ptw j) = false := by
  have hcyc : m.cyc s.ptw = false := by
    cases hcyc : m.cyc s.ptw with
    | false => rfl
    | true =>
        have hbusy := hm.busy_of_cyc _ h.coherent hcyc
        rw [h.rests] at hbusy
        cases hbusy
  have hrests := h.rests
  cases hm.cases s.ptw j h.coherent with
  | idle _ hbusy' hdone => exact ⟨hbusy', hdone⟩
  | start _ hstarts => simp [hstart] at hstarts
  | wait hcyc' => simp [hcyc] at hcyc'
  | answer hcyc' => simp [hcyc] at hcyc'
  | descend hbusy => simp [hrests] at hbusy
  | finish hbusy => simp [hrests] at hbusy

theorem step (hm : m.PtwLawful) (h : Settled cfg s) (hoff : s.translateEnable = false) :
    Settled cfg (s.step cfg i) := by
  have hplain := h.untranslated hoff
  have hstart : (s.walkIn cfg i).start = false := by
    show s.ptwStart cfg i = false
    simp [ptwStart, ptwReqD, ptwReqI, dtlbMiss_of_untranslated hplain,
      itlbMiss_of_untranslated hplain]
  obtain ⟨hrests, hnotDone⟩ := walker_step hm h hstart
  refine ⟨h.uncached, ?_, ?_, ?_, hm.step _ _ h.coherent, hrests, hnotDone⟩
  · intro k
    show s.nextScoreboard cfg i k = false
    simp [nextScoreboard, h.dcache, DCachePort.none, Scoreboard.step, h.scoreboard]
  · show (if s.backHold cfg i then s.mshrPendingRegwbR else (Core.dcache cfg i).mshrAccept) =
      false
    rw [h.dcache, h.pending]
    cases s.backHold cfg i <;> rfl
  · exact dtlbMiss_of_untranslated hplain

end Settled

/-!
# Writes on their way
-/

def emWrites (s : Core m) (k : BitVec 5) : Bool := s.reg3.regWrite && s.reg3.writeReg == k
def wbWrites (s : Core m) (k : BitVec 5) : Bool := s.reg4.regWrite && s.reg4.writeReg == k
def emFwrites (s : Core m) (k : BitVec 5) : Bool := s.reg3.fRegWrite && s.reg3.writeReg == k
def wbFwrites (s : Core m) (k : BitVec 5) : Bool := s.reg4.fRegWrite && s.reg4.writeReg == k

/--
The value in the memory register is there before memory answers.
-/
def early (s : Core m) : Bool := !(s.reg3.memtoReg || s.reg3.isAmo)

/--
The registers once everything in flight is written: `val` is what the instruction in
memory will write.
-/
structure RegsAgree (s : Core m) (val : BitVec w) (regs fregs : RegFile w) : Prop where
  int : forall k, k ≠ 0 -> regs k =
    if s.emWrites k then val else if s.wbWrites k then s.writeDataRegwb else s.regs k
  float : forall k, fregs k =
    if s.emFwrites k then val else if s.wbFwrites k then s.writeDataRegwb else s.fregs k

/--
The instruction in execute read `d` for register `k`, whose latest value is `v`.
-/
structure SourceOk (cfg : Config w) (s : Core m) (k : BitVec 5) (d v : BitVec w) : Prop where
  zero : k = 0 -> d = v
  latest : s.emWrites k = false -> s.wbWrites k = false -> d = v
  ready : cfg.forwards = true -> k ≠ 0 -> s.emWrites k = true -> s.early = true
  still : cfg.forwards = false -> k ≠ 0 -> s.emWrites k = false ∧ s.wbWrites k = false

structure FsourceOk (s : Core m) (k : BitVec 5) (d v : BitVec w) : Prop where
  latest : s.emFwrites k = false -> s.wbFwrites k = false -> d = v
  ready : s.emFwrites k = true -> s.early = true

/-!
# Forwarding
-/

section Forwarding

variable {val : BitVec w} {regs fregs : RegFile w} {k : BitVec 5} {d : BitVec w}

theorem feeds_nonzero (src : FwdSource) (k : BitVec 5) :
    (src.dest != 0 && src.feeds k) = (k != 0 && src.feeds k) := by
  unfold FwdSource.feeds
  cases hdest : src.dest == k with
  | false => simp
  | true => rw [beq_iff_eq.mp hdest]

theorem forwarded_eq (hregs : RegsAgree s val regs fregs)
    (hval : s.early = true -> s.exmemFwdVal = val)
    (h : SourceOk cfg s k d (if k = 0 then 0 else regs k)) :
    s.forwarded cfg k d = if k = 0 then 0 else regs k := by
  rw [forwarded, forwardSel]
  cases hforwards : cfg.forwards with
  | false =>
      show d = _
      by_cases hk : k = 0
      · exact h.zero hk
      · obtain ⟨hem, hwb⟩ := h.still hforwards hk
        exact h.latest hem hwb
  | true =>
      rw [if_pos rfl, forward]
      rw [feeds_nonzero, feeds_nonzero]
      by_cases hk : k = 0
      · rw [show (k != 0) = false by rw [hk]; rfl]
        exact h.zero hk
      · have hem : s.regemSource.feeds k = s.emWrites k := rfl
        have hwb : s.regwbSource.feeds k = s.wbWrites k := rfl
        rw [bne_iff_ne.mpr hk, Bool.true_and, Bool.true_and]
        rw [hem, hwb]
        have hlatest := h.latest
        rw [if_neg hk] at hlatest ⊢
        rw [hregs.int k hk] at hlatest ⊢
        cases hemw : s.emWrites k with
        | true => exact hval (h.ready hforwards hk hemw)
        | false =>
            cases hwbw : s.wbWrites k with
            | true => rfl
            | false =>
                rw [hemw, hwbw] at hlatest
                exact hlatest rfl rfl

theorem fforwarded_eq (hregs : RegsAgree s val regs fregs)
    (hval : s.early = true -> s.exmemFwdVal = val)
    (h : FsourceOk s k d (fregs k)) :
    s.fforwarded k d = fregs k := by
  have hem : s.fregemSource.feeds k = s.emFwrites k := rfl
  have hwb : s.fregwbSource.feeds k = s.wbFwrites k := rfl
  have hlatest := h.latest
  rw [fforwarded, fForward, hem, hwb]
  rw [hregs.float k] at hlatest ⊢
  cases hemw : s.emFwrites k with
  | true => exact hval (h.ready hemw)
  | false =>
      cases hwbw : s.wbFwrites k with
      | true => rfl
      | false =>
          rw [hemw, hwbw] at hlatest
          exact hlatest rfl rfl

end Forwarding

/-!
# The register files in one cycle
-/

section Files

variable (hs : Settled cfg s) {k : BitVec 5}

include hs

theorem regWritePort1_of_settled : s.regWritePort1 =
    { en := s.reg4.regWrite, dest := s.reg4.writeReg, data := s.writeDataRegwb } := by
  rw [regWritePort1, hs.pending, Bool.not_false, Bool.and_true]

theorem regWritePort2_of_settled : (regWritePort2 cfg i).en = false := by
  rw [regWritePort2, hs.dcache]
  rfl

theorem regs_step (hk : k ≠ 0) :
    (s.step cfg i).regs k = if s.wbWrites k then s.writeDataRegwb else s.regs k := by
  show s.regs.step s.regWritePort1 (regWritePort2 cfg i) k = _
  rw [RegFile.step, RegFile.write2, regWritePort2_of_settled hs, RegFile.write1,
    regWritePort1_of_settled hs, wbWrites]
  cases s.reg4.regWrite with
  | false => rfl
  | true =>
      rw [if_pos rfl, Lib.setAt_apply, Bool.true_and]
      by_cases hdest : k = s.reg4.writeReg
      · rw [if_pos hdest, beq_iff_eq.mpr hdest.symm, if_neg (hdest ▸ hk)]
        rfl
      · rw [if_neg hdest, beq_eq_false_iff_ne.mpr (Ne.symm hdest)]
        rfl

omit hs in
theorem fregs_step :
    (s.step cfg i).fregs k = if s.wbFwrites k then s.writeDataRegwb else s.fregs k := by
  show s.fregs.fstep s.fregWritePort k = _
  rw [RegFile.fstep, fregWritePort, wbFwrites]
  cases s.reg4.fRegWrite with
  | false => rfl
  | true =>
      rw [if_pos rfl, Lib.setAt_apply, Bool.true_and]
      by_cases hdest : k = s.reg4.writeReg
      · rw [if_pos hdest, beq_iff_eq.mpr hdest.symm]
        rfl
      · rw [if_neg hdest, beq_eq_false_iff_ne.mpr (Ne.symm hdest)]
        rfl

theorem regs_read (hk : k ≠ 0) :
    s.regs.read s.regWritePort1 (regWritePort2 cfg i) k =
      if s.wbWrites k then s.writeDataRegwb else s.regs k := by
  rw [RegFile.read, if_neg hk, regWritePort1_of_settled hs, regWritePort2_of_settled hs,
    wbWrites]
  rfl

omit hs in
theorem fregs_read :
    s.fregs.fread s.fregWritePort k =
      if s.wbFwrites k then s.writeDataRegwb else s.fregs k := rfl

end Files

/-!
# Agreement in one cycle
-/

section Agreement

variable {val val' : BitVec w} {regs fregs regs' fregs' : RegFile w}

theorem reg3_of_backHold (h : s.backHold cfg i = true) : (s.step cfg i).reg3 = s.reg3 := by
  show s.nextReg3 cfg i = _
  rw [nextReg3, Reg3.step, h]
  rfl

theorem reg4_of_backHold (h : s.backHold cfg i = true) : (s.step cfg i).reg4 = s.reg4 := by
  show s.nextReg4 cfg i = _
  rw [nextReg4, Reg4.step, h]
  rfl

theorem reg3_of_moves (h : s.backHold cfg i = false) :
    (s.step cfg i).reg3 = s.executed cfg i := by
  show s.nextReg3 cfg i = _
  rw [nextReg3, Reg3.step, h]
  rfl

theorem reg4_of_moves (h : s.backHold cfg i = false) :
    (s.step cfg i).reg4 = s.loaded cfg i := by
  show s.nextReg4 cfg i = _
  rw [nextReg4, Reg4.step, h]
  rfl

theorem RegsAgree.hold (hs : Settled cfg s) (h : RegsAgree s val regs fregs)
    (hhold : s.backHold cfg i = true)
    (hdata : (s.step cfg i).writeDataRegwb = s.writeDataRegwb) :
    RegsAgree (s.step cfg i) val regs fregs := by
  have hreg3 := reg3_of_backHold hhold
  have hreg4 := reg4_of_backHold hhold
  constructor
  · intro k hk
    have hem : (s.step cfg i).emWrites k = s.emWrites k := by
      rw [emWrites, hreg3, emWrites]
    have hwb : (s.step cfg i).wbWrites k = s.wbWrites k := by
      rw [wbWrites, hreg4, wbWrites]
    rw [h.int k hk, hem, hwb, hdata, regs_step hs hk]
    cases s.wbWrites k <;> rfl
  · intro k
    have hem : (s.step cfg i).emFwrites k = s.emFwrites k := by
      rw [emFwrites, hreg3, emFwrites]
    have hwb : (s.step cfg i).wbFwrites k = s.wbFwrites k := by
      rw [wbFwrites, hreg4, wbFwrites]
    rw [h.float k, hem, hwb, hdata, fregs_step]
    cases s.wbFwrites k <;> rfl

/--
The instruction in memory hands its value to write-back, and the one in execute is the
latest to write.
-/
theorem RegsAgree.move (hs : Settled cfg s) (h : RegsAgree s val regs fregs)
    (hgo : s.backHold cfg i = false) (hdata : (s.step cfg i).writeDataRegwb = val)
    (hint : forall k, k ≠ 0 -> regs' k =
      if (s.executed cfg i).regWrite && (s.executed cfg i).writeReg == k then val'
      else regs k)
    (hfloat : forall k, fregs' k =
      if (s.executed cfg i).fRegWrite && (s.executed cfg i).writeReg == k then val'
      else fregs k) :
    RegsAgree (s.step cfg i) val' regs' fregs' := by
  constructor
  · intro k hk
    have hem : (s.step cfg i).emWrites k =
        ((s.executed cfg i).regWrite && (s.executed cfg i).writeReg == k) := by
      rw [emWrites, reg3_of_moves hgo]
    have hwb : (s.step cfg i).wbWrites k = s.emWrites k := by
      rw [wbWrites, reg4_of_moves hgo]
      rfl
    rw [hint k hk, h.int k hk, hem, hwb, hdata, regs_step hs hk]
  · intro k
    have hem : (s.step cfg i).emFwrites k =
        ((s.executed cfg i).fRegWrite && (s.executed cfg i).writeReg == k) := by
      rw [emFwrites, reg3_of_moves hgo]
    have hwb : (s.step cfg i).wbFwrites k = s.emFwrites k := by
      rw [wbFwrites, reg4_of_moves hgo]
      rfl
    rw [hfloat k, h.float k, hem, hwb, hdata, fregs_step]

end Agreement

/-!
# Sources in one cycle
-/

section Sources

variable {k : BitVec 5} {d v val val' : BitVec w} {regs fregs regs' fregs' : RegFile w}

theorem SourceOk.hold (hhold : s.backHold cfg i = true) (h : SourceOk cfg s k d v) :
    SourceOk cfg (s.step cfg i) k d v := by
  have hem : (s.step cfg i).emWrites k = s.emWrites k := by
    rw [emWrites, reg3_of_backHold hhold, emWrites]
  have hwb : (s.step cfg i).wbWrites k = s.wbWrites k := by
    rw [wbWrites, reg4_of_backHold hhold, wbWrites]
  have hearly : (s.step cfg i).early = s.early := by
    rw [early, reg3_of_backHold hhold, early]
  obtain ⟨hzero, hlatest, hready, hstill⟩ := h
  exact ⟨hzero, by rwa [hem, hwb], by rwa [hem, hearly], by rwa [hem, hwb]⟩

theorem FsourceOk.hold (hhold : s.backHold cfg i = true) (h : FsourceOk s k d v) :
    FsourceOk (s.step cfg i) k d v := by
  have hem : (s.step cfg i).emFwrites k = s.emFwrites k := by
    rw [emFwrites, reg3_of_backHold hhold, emFwrites]
  have hwb : (s.step cfg i).wbFwrites k = s.wbFwrites k := by
    rw [wbFwrites, reg4_of_backHold hhold, wbFwrites]
  have hearly : (s.step cfg i).early = s.early := by
    rw [early, reg3_of_backHold hhold, early]
  obtain ⟨hlatest, hready⟩ := h
  exact ⟨by rwa [hem, hwb], by rwa [hem, hearly]⟩

theorem writes_of_executed
    (h : ((s.executed cfg i).regWrite && (s.executed cfg i).writeReg == k) = true) :
    s.reg2.ctrl.regWrite = true ∧ s.reg2.writeReg = k := by
  rw [executed] at h
  cases hbubble : s.reg3Bubble cfg i with
  | true => simp [hbubble] at h
  | false => simpa [hbubble] using h

theorem fwrites_of_executed
    (h : ((s.executed cfg i).fRegWrite && (s.executed cfg i).writeReg == k) = true) :
    s.reg2.ctrl.fRegWrite = true ∧ s.reg2.writeReg = k := by
  rw [executed] at h
  cases hbubble : s.reg3Bubble cfg i with
  | true => simp [hbubble] at h
  | false => simpa [hbubble] using h

/--
A value that memory still has to deliver comes from a load or an atomic operation.
-/
theorem early_of_executed (hgo : s.backHold cfg i = false)
    (hone : (s.executed cfg i).OneAccess) (hread : s.reg2.ctrl.memRead = false)
    (hamo : s.reg2.ctrl.isAmo = false) : (s.step cfg i).early = true := by
  rw [early, reg3_of_moves hgo]
  have hamo' : (s.executed cfg i).isAmo = false := by simp [executed, hamo]
  have hword : (s.executed cfg i).memtoReg = false := by
    cases hword : (s.executed cfg i).memtoReg with
    | false => rfl
    | true =>
        have hload := hone.word hword
        simp [executed, hread] at hload
  rw [hword, hamo']
  rfl

theorem sourceOk_decoded (hs : Settled cfg s) (h : RegsAgree s val regs fregs)
    (hgo : s.backHold cfg i = false) (hone : (s.executed cfg i).OneAccess)
    (hraw : k = s.reg1.inst.rs1 ∨ k = s.reg1.inst.rs2)
    (hforward : cfg.forwards = true -> s.hazardFd = false)
    (hstall : cfg.forwards = false -> s.hazardNoForwardFd = false)
    (hint : k ≠ 0 -> regs' k =
      if (s.executed cfg i).regWrite && (s.executed cfg i).writeReg == k then val'
      else regs k) :
    SourceOk cfg (s.step cfg i) k (s.regs.read s.regWritePort1 (regWritePort2 cfg i) k)
      (if k = 0 then 0 else regs' k) := by
  have hem : (s.step cfg i).emWrites k =
      ((s.executed cfg i).regWrite && (s.executed cfg i).writeReg == k) := by
    rw [emWrites, reg3_of_moves hgo]
  have hwb : (s.step cfg i).wbWrites k = s.emWrites k := by
    rw [wbWrites, reg4_of_moves hgo]
    rfl
  constructor
  · intro hk
    rw [RegFile.read, if_pos hk, if_pos hk]
  · intro hemw hwbw
    by_cases hk : k = 0
    · rw [RegFile.read, if_pos hk, if_pos hk]
    · rw [hem] at hemw
      rw [hwb] at hwbw
      rw [if_neg hk, hint hk, hemw, h.int k hk, hwbw, regs_read hs hk]
      rfl
  · intro hforwards hk hemw
    rw [hem] at hemw
    obtain ⟨_, hdest⟩ := writes_of_executed hemw
    have hhazard := hforward hforwards
    rw [hazardFd, hazard, hdest] at hhazard
    have hmatch : (k == s.reg1.inst.rs1 || k == s.reg1.inst.rs2) = true := by
      rcases hraw with hraw | hraw
      · rw [beq_iff_eq.mpr hraw, Bool.true_or]
      · rw [beq_iff_eq.mpr hraw, Bool.or_true]
    rw [hmatch, Bool.and_true, Bool.or_eq_false_iff] at hhazard
    exact early_of_executed hgo hone hhazard.left hhazard.right
  · intro hforwards hk
    have hhazard := hstall hforwards
    have hmatch : forall dest : BitVec 5, dest = k ->
        (dest != 0 && (dest == s.reg1.inst.rs1 || dest == s.reg1.inst.rs2)) = true := by
      intro dest hdest
      rw [hdest, bne_iff_ne.mpr hk]
      rcases hraw with hraw | hraw
      · rw [beq_iff_eq.mpr hraw, Bool.true_or]
        rfl
      · rw [beq_iff_eq.mpr hraw, Bool.or_true]
        rfl
    rw [hazardNoForwardFd, hazardNoForward, Bool.or_eq_false_iff] at hhazard
    obtain ⟨hde, hmem⟩ := hhazard
    rw [hem, hwb]
    constructor
    · cases hemw : (s.executed cfg i).regWrite && (s.executed cfg i).writeReg == k with
      | false => rfl
      | true =>
          obtain ⟨hwrites, hdest⟩ := writes_of_executed hemw
          rw [hwrites, Bool.true_and, hmatch _ hdest] at hde
          cases hde
    · cases hemw : s.emWrites k with
      | false => rfl
      | true =>
          rw [emWrites, Bool.and_eq_true, beq_iff_eq] at hemw
          rw [hemw.left, Bool.true_and, hmatch _ hemw.right] at hmem
          cases hmem

theorem fsourceOk_decoded (h : RegsAgree s val regs fregs)
    (hgo : s.backHold cfg i = false) (hone : (s.executed cfg i).OneAccess)
    (hamo : s.reg2.ctrl.fRegWrite = true -> s.reg2.ctrl.isAmo = false)
    (hload : s.reg2.ctrl.fRegWrite = true -> s.reg2.ctrl.memRead = true ->
      s.reg2.writeReg ≠ k)
    (hfloat : fregs' k =
      if (s.executed cfg i).fRegWrite && (s.executed cfg i).writeReg == k then val'
      else fregs k) :
    FsourceOk (s.step cfg i) k (s.fregs.fread s.fregWritePort k) (fregs' k) := by
  have hem : (s.step cfg i).emFwrites k =
      ((s.executed cfg i).fRegWrite && (s.executed cfg i).writeReg == k) := by
    rw [emFwrites, reg3_of_moves hgo]
  have hwb : (s.step cfg i).wbFwrites k = s.emFwrites k := by
    rw [wbFwrites, reg4_of_moves hgo]
    rfl
  constructor
  · intro hemw hwbw
    rw [hem] at hemw
    rw [hwb] at hwbw
    rw [hfloat, hemw, h.float k, hwbw, fregs_read]
    rfl
  · intro hemw
    rw [hem] at hemw
    obtain ⟨hwrites, hdest⟩ := fwrites_of_executed hemw
    have hread : s.reg2.ctrl.memRead = false := by
      cases hread : s.reg2.ctrl.memRead with
      | false => rfl
      | true => exact absurd hdest (hload hwrites hread)
    exact early_of_executed hgo hone hread (hamo hwrites)

end Sources

end Core
end Pipe
end RvCores
