import RvCores.Pipe.OperandPath

/-!
# The stay in execute

An instruction comes to execute with what decode has read, and keeps it there while
execute is held.  When memory moves on below a divide, the operands are gone, and the
unit that has taken them stands for them.
-/

namespace RvCores
namespace Pipe

open Isa Block

variable {w : Nat}

/-!
# Operands from the registers
-/

/--
The operands are what the registers hold.
-/
structure Instr.Reads (x : Instr w) (regs fregs : RegFile w) : Prop where
  rs1 : x.rs1 = if x.inst.rs1 = 0 then 0 else regs x.inst.rs1
  rs2 : x.rs2 = if x.inst.rs2 = 0 then 0 else regs x.inst.rs2
  frs1 : readsFrs1 x.inst = true -> x.frs1 = fregs x.inst.rs1
  frs2 : readsFrs2 x.inst = true -> x.frs2 = fregs x.inst.rs2
  frs3 : readsFrs3 x.inst = true -> x.frs3 = fregs x.inst.funct5

namespace Core

variable {m : Mmu w} {cfg : Config w} {s : Core m} {i : CoreIn w} {x : Instr w}
  {val : BitVec w} {regs fregs : RegFile w}

structure Sources (cfg : Config w) (s : Core m) (x : Instr w) : Prop where
  rs1 : SourceOk cfg s x.inst.rs1 s.reg2.readData1 x.rs1
  rs2 : SourceOk cfg s x.inst.rs2 s.reg2.readData2 x.rs2
  frs1 : readsFrs1 x.inst = true -> FsourceOk s x.inst.rs1 s.reg2.freadData1 x.frs1
  frs2 : readsFrs2 x.inst = true -> FsourceOk s x.inst.rs2 s.reg2.freadData2 x.frs2
  frs3 : readsFrs3 x.inst = true -> FsourceOk s x.inst.funct5 s.reg2.freadData3 x.frs3

theorem Sources.operands (hregs : RegsAgree s val regs fregs)
    (hval : s.early = true -> s.exmemFwdVal = val) (hreads : x.Reads regs fregs)
    (hholds : HoldsInstr s x) (h : Sources cfg s x) : HasOperands cfg s x := by
  constructor
  · have hsource := h.rs1
    rw [hreads.rs1] at hsource ⊢
    rw [readData1Final, hholds.readReg1]
    exact forwarded_eq hregs hval hsource
  · have hsource := h.rs2
    rw [hreads.rs2] at hsource ⊢
    rw [readData2Final, hholds.readReg2]
    exact forwarded_eq hregs hval hsource
  · intro hfloat
    have hsource := h.frs1 hfloat
    rw [hreads.frs1 hfloat] at hsource ⊢
    rw [freadData1Final, hholds.readReg1]
    exact fforwarded_eq hregs hval hsource
  · intro hfloat
    have hsource := h.frs2 hfloat
    rw [hreads.frs2 hfloat] at hsource ⊢
    rw [freadData2Final, hholds.readReg2]
    exact fforwarded_eq hregs hval hsource
  · intro hfloat
    have hsource := h.frs3 hfloat
    rw [hreads.frs3 hfloat] at hsource ⊢
    rw [freadData3Final, hholds.readReg3]
    exact fforwarded_eq hregs hval hsource

theorem reg2_of_hold (h : s.reg2Hold cfg i = true) : (s.step cfg i).reg2 = s.reg2 := by
  show s.nextReg2 cfg i = _
  rw [nextReg2, Reg2.step, h]
  rfl

theorem reg2Hold_of_backHold (h : s.backHold cfg i = true) : s.reg2Hold cfg i = true := by
  rw [backHold, Bool.or_eq_true] at h
  rw [reg2Hold]
  rcases h with h | h <;> simp [h]

theorem Sources.hold (hhold : s.backHold cfg i = true) (h : Sources cfg s x) :
    Sources cfg (s.step cfg i) x := by
  have hreg2 := reg2_of_hold (reg2Hold_of_backHold hhold)
  constructor
  · rw [hreg2]
    exact h.rs1.hold hhold
  · rw [hreg2]
    exact h.rs2.hold hhold
  · rw [hreg2]
    exact fun hfloat => (h.frs1 hfloat).hold hhold
  · rw [hreg2]
    exact fun hfloat => (h.frs2 hfloat).hold hhold
  · rw [hreg2]
    exact fun hfloat => (h.frs3 hfloat).hold hhold

/-!
# The iterative units
-/

structure UnitsServe (s : Core m) (x : Instr w) : Prop where
  div : (Divider.sequencer w).Serves x.dividerIn s.divider
  fdiv : FDivider.sequencer.Serves x.fdividerIn s.fdivider
  fsqrt : FSqrt.sequencer.Serves x.fsqrtIn s.fsqrt

structure UnitsWork (s : Core m) (x : Instr w) : Prop where
  div : (Divider.sequencer w).Working x.dividerIn s.divider
  fdiv : FDivider.sequencer.Working x.fdividerIn s.fdivider
  fsqrt : FSqrt.sequencer.Working x.fsqrtIn s.fsqrt

/--
A unit that execute does not use rests.
-/
structure UnitsFollow (s : Core m) : Prop where
  divOrderly : (Divider.sequencer w).Orderly s.divider
  divRests : s.isDivRem = false -> (Divider.sequencer w).Idle s.divider
  fdivOrderly : FDivider.sequencer.Orderly s.fdivider
  fdivRests : s.isFpDivRegde = false -> FDivider.sequencer.Idle s.fdivider
  fsqrtOrderly : FSqrt.sequencer.Orderly s.fsqrt
  fsqrtRests : s.isFpSqrtRegde = false -> FSqrt.sequencer.Idle s.fsqrt

structure UnitsIdle (s : Core m) : Prop where
  div : (Divider.sequencer w).Idle s.divider
  fdiv : FDivider.sequencer.Idle s.fdivider
  fsqrt : FSqrt.sequencer.Idle s.fsqrt

theorem UnitsWork.serve (h : UnitsWork s x) : UnitsServe s x :=
  ⟨h.div.serves, h.fdiv.serves, h.fsqrt.serves⟩

theorem UnitsServe.follow (hholds : HoldsInstr s x) (h : UnitsServe s x) :
    UnitsFollow s where
  divOrderly := h.div.orderly
  divRests := fun hrests => h.div.idle (hholds.isDivRem.symm.trans hrests)
  fdivOrderly := h.fdiv.orderly
  fdivRests := fun hrests => h.fdiv.idle (hholds.isFpDiv.symm.trans hrests)
  fsqrtOrderly := h.fsqrt.orderly
  fsqrtRests := fun hrests => h.fsqrt.idle (hholds.isFpSqrt.symm.trans hrests)

theorem UnitsIdle.serve (h : UnitsIdle s) (x : Instr w) : UnitsServe s x := by
  constructor
  · unfold Lib.Sequencer.Serves
    split
    · exact .inl h.div
    · exact h.div
  · unfold Lib.Sequencer.Serves
    split
    · exact .inl h.fdiv
    · exact h.fdiv
  · unfold Lib.Sequencer.Serves
    split
    · exact .inl h.fsqrt
    · exact h.fsqrt

theorem UnitsIdle.follow (h : UnitsIdle s) : UnitsFollow s where
  divOrderly := h.div.orderly
  divRests := fun _ => h.div
  fdivOrderly := h.fdiv.orderly
  fdivRests := fun _ => h.fdiv
  fsqrtOrderly := h.fsqrt.orderly
  fsqrtRests := fun _ => h.fsqrt

theorem divider_step : (s.step cfg i).divider =
    (Divider.sequencer w).step s.divider (s.dividerIn cfg) := rfl

theorem fdivider_step : (s.step cfg i).fdivider =
    FDivider.sequencer.step s.fdivider (s.fdividerIn cfg) := rfl

theorem fsqrt_step : (s.step cfg i).fsqrt =
    FSqrt.sequencer.step s.fsqrt (s.fsqrtIn cfg) := rfl

theorem unitsFollow_hold (hhold : s.reg2Hold cfg i = true) (h : UnitsFollow s) :
    UnitsFollow (s.step cfg i) := by
  have hreg2 := reg2_of_hold hhold
  have hdiv : (s.step cfg i).isDivRem = s.isDivRem := by
    rw [isDivRem, aluCtl, hreg2]
    rfl
  have hfdiv : (s.step cfg i).isFpDivRegde = s.isFpDivRegde := by
    rw [isFpDivRegde, isOpFpRegde, funct5Regde, hreg2]
    rfl
  have hfsqrt : (s.step cfg i).isFpSqrtRegde = s.isFpSqrtRegde := by
    rw [isFpSqrtRegde, isOpFpRegde, funct5Regde, hreg2]
    rfl
  constructor
  · rw [divider_step]
    exact Lib.Sequencer.orderly_step (Divider.sequencer_lawful w)
  · intro hrests
    rw [hdiv] at hrests
    rw [divider_step]
    exact Lib.Sequencer.idle_step_of_noStart (Divider.sequencer_lawful w)
      (h.divRests hrests).left hrests
  · rw [fdivider_step]
    exact Lib.Sequencer.orderly_step FDivider.sequencer_lawful
  · intro hrests
    rw [hfdiv] at hrests
    rw [fdivider_step]
    exact Lib.Sequencer.idle_step_of_noStart FDivider.sequencer_lawful
      (h.fdivRests hrests).left hrests
  · rw [fsqrt_step]
    exact Lib.Sequencer.orderly_step FSqrt.sequencer_lawful
  · intro hrests
    rw [hfsqrt] at hrests
    rw [fsqrt_step]
    exact Lib.Sequencer.idle_step_of_noStart FSqrt.sequencer_lawful
      (h.fsqrtRests hrests).left hrests

/--
What leaves execute leaves the units idle.
-/
theorem unitsIdle_leave (hdiv : s.divStall = false) (hfp : s.fpStall = false)
    (h : UnitsFollow s) : UnitsIdle (s.step cfg i) := by
  have hdone : s.isDivRem = true -> s.divider.done = true := by
    intro hstart
    rw [divStall, hstart] at hdiv
    simpa using hdiv
  rw [fpStall, Bool.or_eq_false_iff] at hfp
  have hfdone : s.isFpDivRegde = true -> s.fdivider.done = true := by
    intro hstart
    have hstall := hfp.left
    rw [hstart] at hstall
    simpa using hstall
  have hsdone : s.isFpSqrtRegde = true -> s.fsqrt.done = true := by
    intro hstart
    have hstall := hfp.right
    rw [hstart] at hstall
    simpa using hstall
  constructor
  · rw [divider_step]
    exact Lib.Sequencer.idle_of_leave (Divider.sequencer_lawful w) h.divOrderly hdone
      h.divRests
  · rw [fdivider_step]
    exact Lib.Sequencer.idle_of_leave FDivider.sequencer_lawful h.fdivOrderly hfdone
      h.fdivRests
  · rw [fsqrt_step]
    exact Lib.Sequencer.idle_of_leave FSqrt.sequencer_lawful h.fsqrtOrderly hsdone
      h.fsqrtRests

/--
The unit that the instruction uses has not shown its result.
-/
structure Unfinished (s : Core m) (x : Instr w) : Prop where
  div : x.isDivRem = true -> s.divider.done = false
  fdiv : x.isFpDiv = true -> s.fdivider.done = false
  fsqrt : x.isFpSqrt = true -> s.fsqrt.done = false

theorem not_isFpSqrt_of_isFpDiv (h : x.isFpDiv = true) : x.isFpSqrt = false := by
  simp only [Instr.isFpDiv, Bool.and_eq_true, beq_iff_eq] at h
  rw [Instr.isFpSqrt, h.right, Bool.and_eq_false_iff]
  right
  rfl

/--
A stall for a unit is one for the unit that the instruction uses.
-/
theorem unfinished_of_stall (hholds : HoldsInstr s x)
    (hstall : (s.divStall || s.fpStall) = true) : x.iterative = true ∧ Unfinished s x := by
  rw [divStall, fpStall, hholds.isDivRem, hholds.isFpDiv, hholds.isFpSqrt] at hstall
  have hint : x.isFpDiv = true ∨ x.isFpSqrt = true -> x.isDivRem = false := by
    intro hfp
    apply not_isDivRem_of_isFp
    rcases hfp with hfp | hfp
    · rw [Instr.isFp, isFp_of_isFpDiv hfp, Bool.true_or]
    · rw [Instr.isFp, isFp_of_isFpSqrt hfp, Bool.true_or]
  cases hdiv : x.isFpDiv with
  | true =>
      have hnone := hint (.inl hdiv)
      have hsqrt := not_isFpSqrt_of_isFpDiv hdiv
      rw [hnone, hdiv, hsqrt] at hstall
      refine ⟨by simp [Instr.iterative, hdiv], ?_, fun _ => ?_, ?_⟩
      · simp [hnone]
      · simpa using hstall
      · simp [hsqrt]
  | false =>
      cases hsqrt : x.isFpSqrt with
      | true =>
          have hnone := hint (.inr hsqrt)
          rw [hnone, hdiv, hsqrt] at hstall
          refine ⟨by simp [Instr.iterative, hsqrt], ?_, ?_, fun _ => ?_⟩
          · simp [hnone]
          · simp [hdiv]
          · simpa using hstall
      | false =>
          rw [hdiv, hsqrt] at hstall
          simp only [Bool.false_and, Bool.or_false, Bool.and_eq_true,
            Bool.not_eq_true'] at hstall
          refine ⟨by simp [Instr.iterative, hstall.left], fun _ => hstall.right, ?_, ?_⟩
          · simp [hdiv]
          · simp [hsqrt]

section Held

variable (hholds : HoldsInstr s x)

include hholds

theorem UnitsServe.step (hops : HasOperands cfg s x) (h : UnitsServe s x) :
    UnitsServe (s.step cfg i) x := by
  constructor
  · rw [divider_step]
    refine Lib.Sequencer.serves_step (Divider.sequencer_lawful w) ?_ ?_ h.div
    · exact hholds.isDivRem
    · exact fun _ => hops.dividerIn hholds
  · rw [fdivider_step]
    refine Lib.Sequencer.serves_step FDivider.sequencer_lawful ?_ ?_ h.fdiv
    · exact hholds.isFpDiv
    · exact fun hstart => hops.fdividerIn_of_start hholds hstart
  · rw [fsqrt_step]
    refine Lib.Sequencer.serves_step FSqrt.sequencer_lawful ?_ ?_ h.fsqrt
    · exact hholds.isFpSqrt
    · exact fun _ => hops.fsqrtIn hholds

theorem UnitsServe.work (hops : HasOperands cfg s x) (hun : Unfinished s x)
    (h : UnitsServe s x) : UnitsWork (s.step cfg i) x := by
  constructor
  · rw [divider_step]
    refine Lib.Sequencer.working_of_serves (Divider.sequencer_lawful w) ?_ ?_ hun.div h.div
    · exact hholds.isDivRem
    · exact fun _ => hops.dividerIn hholds
  · rw [fdivider_step]
    refine Lib.Sequencer.working_of_serves FDivider.sequencer_lawful ?_ ?_ hun.fdiv h.fdiv
    · exact hholds.isFpDiv
    · exact fun hstart => hops.fdividerIn_of_start hholds hstart
  · rw [fsqrt_step]
    refine Lib.Sequencer.working_of_serves FSqrt.sequencer_lawful ?_ ?_ hun.fsqrt h.fsqrt
    · exact hholds.isFpSqrt
    · exact fun _ => hops.fsqrtIn hholds

/--
A unit that works does not look at its operands again.
-/
theorem UnitsWork.step (hun : Unfinished s x) (h : UnitsWork s x) :
    UnitsWork (s.step cfg i) x := by
  constructor
  · rw [divider_step]
    exact Lib.Sequencer.working_step (Divider.sequencer_lawful w) hholds.isDivRem rfl
      hun.div h.div
  · rw [fdivider_step]
    exact Lib.Sequencer.working_step FDivider.sequencer_lawful hholds.isFpDiv hholds.rm
      hun.fdiv h.fdiv
  · rw [fsqrt_step]
    exact Lib.Sequencer.working_step FSqrt.sequencer_lawful hholds.isFpSqrt hholds.rm
      hun.fsqrt h.fsqrt

theorem UnitsServe.results (hdiv : s.divStall = false) (hfp : s.fpStall = false)
    (h : UnitsServe s x) : HasResults s x := by
  rw [divStall, hholds.isDivRem] at hdiv
  rw [fpStall, hholds.isFpDiv, hholds.isFpSqrt, Bool.or_eq_false_iff] at hfp
  constructor
  · intro hstart
    rw [hstart] at hdiv
    have hshown : s.divider.done = true := by simpa using hdiv
    exact h.div.output hstart hshown
  · intro hstart
    have hdone := hfp.left
    rw [hstart] at hdone
    have hshown : s.fdivider.done = true := by simpa using hdone
    exact h.fdiv.output hstart hshown
  · intro hstart
    have hdone := hfp.right
    rw [hstart] at hdone
    have hshown : s.fsqrt.done = true := by simpa using hdone
    exact h.fsqrt.output hstart hshown

end Held

/-!
# An instruction in execute
-/

/--
The instruction has its operands, or its unit has taken them and memory is empty.
-/
inductive Issued (cfg : Config w) (s : Core m) (x : Instr w) : Prop where
  | fresh (hsources : Sources cfg s x) (hunits : UnitsServe s x)
  | drained (hit : x.iterative = true) (hread : s.reg3.memRead = false)
      (hwrite : s.reg3.memWrite = false) (hamo : s.reg3.isAmo = false)
      (hunits : UnitsWork s x)

theorem Issued.units (h : Issued cfg s x) : UnitsServe s x := by
  cases h with
  | fresh _ hunits => exact hunits
  | drained _ _ _ _ hunits => exact hunits.serve

section Stay

variable (hregs : RegsAgree s val regs fregs)
  (hval : s.early = true -> s.exmemFwdVal = val) (hreads : x.Reads regs fregs)
  (hholds : HoldsInstr s x) (h : Issued cfg s x)

include hregs hval hreads hholds h

theorem Issued.shows (hplain : Untranslated s) : Shows cfg s x := by
  refine ⟨hholds, hplain, ?_⟩
  intro hnot
  cases h with
  | fresh hsources _ => exact hsources.operands hregs hval hreads hholds
  | drained hit => exact absurd hit (by simp [hnot])

theorem Issued.executes (hplain : Untranslated s) (hdiv : s.divStall = false)
    (hfp : s.fpStall = false) : Executes cfg s x :=
  ⟨h.shows hregs hval hreads hholds hplain, h.units.results hholds hdiv hfp⟩

theorem Issued.hold (hs : Settled cfg s) (hhold : s.backHold cfg i = true) :
    Issued cfg (s.step cfg i) x := by
  cases h with
  | fresh hsources hunits =>
      have hops := hsources.operands hregs hval hreads hholds
      exact .fresh (hsources.hold hhold) (hunits.step hholds hops)
  | drained _ hread hwrite hamo _ =>
      have hnone : s.backHold cfg i = false := by
        simp [backHold, memStall, memTrigger, hs.uncached, hread, hwrite, amoStall, amoActive,
          hamo]
      rw [hnone] at hhold
      cases hhold

/--
Memory moves on below an instruction that waits for its unit.
-/
theorem Issued.wait (hgo : s.backHold cfg i = false)
    (hstall : (s.divStall || s.fpStall) = true) : Issued cfg (s.step cfg i) x := by
  obtain ⟨hit, hun⟩ := unfinished_of_stall hholds hstall
  have hbubble : s.reg3Bubble cfg i = true := by
    rw [reg3Bubble, hstall]
    simp
  have hreg3 := reg3_of_moves hgo
  refine .drained hit ?_ ?_ ?_ ?_
  · rw [hreg3, executed, hbubble]
    rfl
  · rw [hreg3, executed, hbubble]
    rfl
  · rw [hreg3, executed, hbubble]
    rfl
  · cases h with
    | fresh hsources hunits =>
        exact hunits.work hholds (hsources.operands hregs hval hreads hholds) hun
    | drained _ _ _ _ hunits => exact hunits.step hholds hun

end Stay

/-!
# From decode to execute
-/

theorem holdsInstr_decoded {t : Core m} {fetch : BitVec w -> Word}
    (hreg2 : t.reg2 = s.decoded cfg i) (hlive : s.idBubbleR = false)
    (hfetched : s.reg1.Holds cfg fetch) (hinst : x.inst = s.reg1.inst)
    (hpc : x.pc = s.reg1.pc) (hlength : x.isCompressed = s.reg1.isCompressed)
    (hcsr : t.csr = x.csr) : HoldsInstr t x := by
  constructor
  · rw [hreg2, hinst]
    rfl
  · rw [hreg2, hpc]
    rfl
  · rw [hreg2, hlength]
    rfl
  · rw [hreg2, Instr.ctrl, hinst]
    rfl
  · rw [hreg2, hinst]
    rfl
  · rw [hreg2, Instr.imm, hinst]
    rfl
  · rw [hreg2, hinst]
    rfl
  · rw [hreg2, hinst]
    rfl
  · rw [hreg2, hinst]
    rfl
  · rw [hreg2, hinst]
    rfl
  · rw [hreg2, hinst]
    rfl
  · rw [hreg2]
    exact hfetched.ifetchFault
  · rw [hreg2]
    show (!s.idBubbleR) = true
    rw [hlive]
    rfl
  · exact hcsr

/--
A load of a float that execute holds is of no concern for decode.
-/
structure FloatReady (s : Core m) : Prop where
  amo : s.reg2.ctrl.fRegWrite = true -> s.reg2.ctrl.isAmo = false
  frs1 : readsFrs1 s.reg1.inst = true -> s.reg2.ctrl.fRegWrite = true ->
    s.reg2.ctrl.memRead = true -> s.reg2.writeReg ≠ s.reg1.inst.rs1
  frs2 : readsFrs2 s.reg1.inst = true -> s.reg2.ctrl.fRegWrite = true ->
    s.reg2.ctrl.memRead = true -> s.reg2.writeReg ≠ s.reg1.inst.rs2
  frs3 : readsFrs3 s.reg1.inst = true -> s.reg2.ctrl.fRegWrite = true ->
    s.reg2.ctrl.memRead = true -> s.reg2.writeReg ≠ s.reg1.inst.funct5

theorem sources_decoded {regs' fregs' : RegFile w} {val' : BitVec w} (hs : Settled cfg s)
    (h : RegsAgree s val regs fregs) (hgo : s.backHold cfg i = false)
    (hone : (s.executed cfg i).OneAccess) (hready : FloatReady s)
    (hforward : cfg.forwards = true -> s.hazardFd = false)
    (hstall : cfg.forwards = false -> s.hazardNoForwardFd = false)
    (hint : forall k, k ≠ 0 -> regs' k =
      if (s.executed cfg i).regWrite && (s.executed cfg i).writeReg == k then val'
      else regs k)
    (hfloat : forall k, fregs' k =
      if (s.executed cfg i).fRegWrite && (s.executed cfg i).writeReg == k then val'
      else fregs k)
    (hreg2 : (s.step cfg i).reg2 = s.decoded cfg i) (hinst : x.inst = s.reg1.inst)
    (hreads : x.Reads regs' fregs') : Sources cfg (s.step cfg i) x := by
  constructor
  · rw [hreads.rs1, hreg2, hinst]
    exact sourceOk_decoded hs h hgo hone (.inl rfl) hforward hstall (hint _)
  · rw [hreads.rs2, hreg2, hinst]
    exact sourceOk_decoded hs h hgo hone (.inr rfl) hforward hstall (hint _)
  · intro hreadsFloat
    rw [hreads.frs1 hreadsFloat, hreg2, hinst]
    rw [hinst] at hreadsFloat
    exact fsourceOk_decoded h hgo hone hready.amo (hready.frs1 hreadsFloat) (hfloat _)
  · intro hreadsFloat
    rw [hreads.frs2 hreadsFloat, hreg2, hinst]
    rw [hinst] at hreadsFloat
    exact fsourceOk_decoded h hgo hone hready.amo (hready.frs2 hreadsFloat) (hfloat _)
  · intro hreadsFloat
    rw [hreads.frs3 hreadsFloat, hreg2, hinst]
    rw [hinst] at hreadsFloat
    exact fsourceOk_decoded h hgo hone hready.amo (hready.frs3 hreadsFloat) (hfloat _)

/--
Only the instruction that loads a float loads one.
-/
theorem opcode_of_loadsFloat (w : Nat) {inst : Word}
    (hwrite : (Isa.control w inst).fRegWrite = true)
    (hread : (Isa.control w inst).memRead = true) : Word.opcode inst = opcodeLoadFp := by
  by_cases hop : Word.opcode inst = opcodeLoadFp
  · exact hop
  · have hmem : Isa.control w inst
        ∈ controlShapes.filter (fun c => !(c.fRegWrite && c.memRead)) := by
      unfold Isa.control controlSystem controlFp controlStoreFp controlV
      rw [if_neg (c := Word.opcode inst = opcodeLoadFp) hop]
      repeat' first
        | apply Isa.ite_mem
        | decide
    rw [List.mem_filter, hwrite, hread] at hmem
    simp at hmem

/--
The word in decode is a fused multiply-add whose first operand a load in execute is
to deliver.
-/
def fmaTakesLoad (s : Core m) : Bool :=
  isFma s.reg1.inst && s.isLoadFpRegde && s.reg2.writeReg == s.reg1.inst.rs1

theorem HoldsInstr.floatReady (hholds : HoldsInstr s x) (hload : s.floatLoadUseHazard = false)
    (hforward : cfg.forwards = true -> s.hazardFd = false)
    (hfma : cfg.forwards = false -> s.fmaTakesLoad = false) : FloatReady s := by
  have hop : s.reg2.ctrl.fRegWrite = true -> s.reg2.ctrl.memRead = true ->
      s.isLoadFpRegde = true := by
    intro hwrite hread
    rw [hholds.ctrl] at hwrite hread
    rw [isLoadFpRegde, hholds.inst, opcode_of_loadsFloat w hwrite hread]
    rfl
  have hamo : s.reg2.ctrl.fRegWrite = true -> s.reg2.ctrl.isAmo = false := by
    rw [hholds.ctrl]
    exact control_shape w x.inst (p := fun c => c.fRegWrite = true -> c.isAmo = false)
      (by decide)
  constructor
  · exact hamo
  · intro hreads hwrite hread hdest
    have hflw := hop hwrite hread
    rw [readsFrs1, Bool.or_eq_true] at hreads
    rcases hreads with hreads | hreads
    · rw [floatLoadUseHazard, hflw, hreads, hdest] at hload
      simp at hload
    · cases hforwards : cfg.forwards with
      | true =>
          have hhazard := hforward hforwards
          rw [hazardFd, hazard, hread, hdest] at hhazard
          simp at hhazard
      | false =>
          have hnone := hfma hforwards
          rw [fmaTakesLoad, hreads, hflw, hdest] at hnone
          simp at hnone
  · intro hreads hwrite hread hdest
    have hflw := hop hwrite hread
    have hfloat : s.rs2IsFloatFd = true := hreads
    rw [floatLoadUseHazard, hflw, hfloat, hdest] at hload
    simp at hload
  · intro hreads hwrite hread hdest
    have hflw := hop hwrite hread
    have hfma' : Core.isFma s.reg1.inst = true := hreads
    rw [floatLoadUseHazard, hflw, hfma', hdest] at hload
    simp at hload

theorem Quiet.floatReady (h : Quiet s) : FloatReady s := by
  have hnone : s.reg2.ctrl.fRegWrite = false := by
    rcases h.ctrl with hctrl | hctrl <;> rw [hctrl]
  constructor
  · simp [hnone]
  · simp [hnone]
  · simp [hnone]
  · simp [hnone]

theorem quiet_squashed {t : Core m} (hreg2 : t.reg2 = .squashed) : Quiet t := by
  refine ⟨?_, ?_, ?_, ?_, ?_⟩
  · rw [hreg2]
    rfl
  · rw [hreg2]
    exact .inl rfl
  · rw [hreg2]
    rfl
  · rw [aluCtl, hreg2]
    rfl
  · rw [hreg2]
    rfl

theorem quiet_bubble {t : Core m} (hreg2 : t.reg2 = (s.decoded cfg i).bubble)
    (hfault : s.reg1.ifetchFault = false) : Quiet t := by
  refine ⟨?_, ?_, ?_, ?_, ?_⟩
  · rw [hreg2]
    rfl
  · rw [hreg2]
    exact .inl rfl
  · rw [hreg2]
    rfl
  · rw [aluCtl, hreg2]
    rfl
  · rw [hreg2]
    exact hfault

/--
Decode makes an instruction without effect of a squashed fetch.
-/
theorem quiet_nop {t : Core m} (hreg2 : t.reg2 = s.decoded cfg i)
    (hbubble : s.idBubbleR = true) (hreg1 : s.reg1 = .squashed) : Quiet t := by
  have hctrl : Isa.control w nop = { aluOp := .itype, aluSrc := true, regWrite := true } := by
    unfold Isa.control
    rfl
  refine ⟨?_, ?_, ?_, ?_, ?_⟩
  · rw [hreg2]
    show (!s.idBubbleR) = false
    rw [hbubble]
    rfl
  · right
    rw [hreg2]
    show Isa.control w s.reg1.inst = _
    rw [hreg1]
    exact hctrl
  · rw [hreg2]
    show Word.rd s.reg1.inst = 0
    rw [hreg1]
    show Word.rd nop = 0
    decide
  · rw [aluCtl, hreg2]
    show aluCtrl (Isa.control w s.reg1.inst).aluOp (Word.funct7 s.reg1.inst)
      (Word.funct3 s.reg1.inst) (Word.rs2 s.reg1.inst) = .add
    rw [hreg1]
    show aluCtrl (Isa.control w nop).aluOp (Word.funct7 nop) (Word.funct3 nop)
      (Word.rs2 nop) = .add
    rw [hctrl]
    rfl
  · rw [hreg2]
    show s.reg1.ifetchFault = false
    rw [hreg1]
    rfl

end Core
end Pipe
end RvCores
