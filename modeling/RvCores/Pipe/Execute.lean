import RvCores.Pipe.Core
import RvCores.Pipe.Instr

/-!
# The instruction in execute

When the register behind decode holds an instruction and the operands that reach
execute are those of the instruction, the wires of execute compute its meaning.  An
iterative unit may have taken its operands earlier; then its result stands for them.
-/

namespace RvCores
namespace Pipe

open Isa Block

namespace Instr

variable {w : Nat} (x : Instr w)

/--
An iterative unit computes the result.
-/
def iterative : Bool := x.isDivRem || x.isFpDiv || x.isFpSqrt

def isFp : Bool := Core.isOpFp x.inst || Core.isFma x.inst

/--
The instruction leads elsewhere than fetch, which went on with this prediction.
-/
def redirectsFrom (cfg : Config w) (predicted : Bool) (target : BitVec w) : Bool :=
  (if cfg.dynamic then (predicted != x.taken) || (x.taken && target != x.target)
    else x.taken) || x.exceptionTaken || x.mretReal || x.sretReal

end Instr

/--
An instruction loads, stores, or is atomic.
-/
structure Reg3.OneAccess {w : Nat} (r : Reg3 w) : Prop where
  load : r.memRead = true -> r.memWrite = false ∧ r.isAmo = false
  store : r.memWrite = true -> r.isAmo = false
  word : r.memtoReg = true -> r.memRead = true

namespace Core

variable {w : Nat} {m : Mmu w} {cfg : Config w} {s : Core m} {i : CoreIn w} {x : Instr w}

def linesOf (i : CoreIn w) : Lines :=
  { msipPending := i.msipPending, timerPending := i.timerPending, extPending := i.uartIrq }

/-!
# What execute holds
-/

/--
Addresses are physical, and the walker is at rest.
-/
structure Untranslated (s : Core m) : Prop where
  off : s.translateEnable = false
  missR : s.dtlb.missR = false
  notDone : m.done s.ptw = false

/--
The register behind decode holds the instruction, and the control registers are those
that it finds.
-/
structure HoldsInstr (s : Core m) (x : Instr w) : Prop where
  inst : s.reg2.inst = x.inst
  pc : s.reg2.pc = x.pc
  isCompressed : s.reg2.isCompressed = x.isCompressed
  ctrl : s.reg2.ctrl = x.ctrl
  writeReg : s.reg2.writeReg = x.inst.rd
  imm : s.reg2.imm = x.imm
  funct7 : s.reg2.funct7 = x.inst.funct7
  funct3 : s.reg2.funct3 = x.inst.funct3
  readReg1 : s.reg2.readReg1 = x.inst.rs1
  readReg2 : s.reg2.readReg2 = x.inst.rs2
  readReg3 : s.reg2.readReg3 = x.inst.funct5
  ifetchFault : s.reg2.ifetchFault = false
  valid : s.reg2.valid = true
  csr : s.csr = x.csr

/--
The operands after forwarding.
-/
structure HasOperands (cfg : Config w) (s : Core m) (x : Instr w) : Prop where
  rs1 : s.readData1Final cfg = x.rs1
  rs2 : s.readData2Final cfg = x.rs2
  frs1 : readsFrs1 x.inst = true -> s.freadData1Final = x.frs1
  frs2 : readsFrs2 x.inst = true -> s.freadData2Final = x.frs2
  frs3 : readsFrs3 x.inst = true -> s.freadData3Final = x.frs3

/-!
# Wires that do not depend on the operands
-/

namespace HoldsInstr

theorem aluCtl (h : HoldsInstr s x) : s.aluCtl = x.aluCtl := by
  rw [Core.aluCtl, h.ctrl, h.funct7, h.funct3, h.readReg2]
  rfl

theorem isWordOp (h : HoldsInstr s x) : s.wordOpRegde = x.isWordOp := by
  rw [wordOpRegde, h.inst]
  rfl

theorem isDivRem (h : HoldsInstr s x) : s.isDivRem = x.isDivRem := by
  rw [Core.isDivRem, h.aluCtl]
  rfl

theorem funct5 (h : HoldsInstr s x) : s.funct5Regde = x.inst.funct5 := by
  rw [funct5Regde, h.funct7]
  apply BitVec.eq_of_getLsbD_eq
  intro k hk
  simp only [Word.funct7, Word.funct5, BitVec.getLsbD_extractLsb', BitVec.extractLsb,
    hk, decide_true, Bool.true_and]
  have hlt : 2 + k < 31 - 25 + 1 := by omega
  simp [hlt, <- Nat.add_assoc 25 2 k]

theorem isOpFp (h : HoldsInstr s x) : s.isOpFpRegde = Core.isOpFp x.inst := by
  rw [isOpFpRegde, h.inst]

theorem isFma (h : HoldsInstr s x) : s.isFmaRegde = Core.isFma x.inst := by
  rw [isFmaRegde, h.inst]

theorem rm (h : HoldsInstr s x) : s.fpuRm = x.rm := by
  rw [fpuRm, h.funct3, h.csr]
  rfl

theorem isFpDiv (h : HoldsInstr s x) : s.isFpDivRegde = x.isFpDiv := by
  rw [isFpDivRegde, h.isOpFp, h.funct5]
  rfl

theorem isFpSqrt (h : HoldsInstr s x) : s.isFpSqrtRegde = x.isFpSqrt := by
  rw [isFpSqrtRegde, h.isOpFp, h.funct5]
  rfl

theorem csrPrivViolation (h : HoldsInstr s x) :
    s.csrPrivViolation = x.csrPrivViolation := by
  rw [Core.csrPrivViolation, h.ctrl, h.csr, h.imm]
  rfl

theorem mretReal (h : HoldsInstr s x) : s.mretReal = x.mretReal := by
  rw [Core.mretReal, mretPrivViolation, h.ctrl, h.csr, Instr.mretReal]
  cases x.ctrl.isMret <;> rfl

theorem sretReal (h : HoldsInstr s x) : s.sretReal = x.sretReal := by
  rw [Core.sretReal, sretPrivViolation, h.ctrl, h.csr, Instr.sretReal]
  cases x.ctrl.isSret <;> rfl

theorem illegalInst (h : HoldsInstr s x) : s.illegalInst = x.illegalInst := by
  rw [Core.illegalInst, mretPrivViolation, sretPrivViolation, sfencePrivViolation,
    h.ctrl, h.csr, h.aluCtl, h.csrPrivViolation]
  rfl

theorem pcPlus4 (h : HoldsInstr s x) : s.pcPlus4Regde = x.pcNext := by
  rw [pcPlus4Regde, h.pc, h.isCompressed]
  rfl

end HoldsInstr

theorem dtlbPageFault_of_untranslated (h : Untranslated s) : s.dtlbPageFault cfg = false := by
  simp [dtlbPageFault, dtlbHitFault, dtlbNeeded, ptwDoneD, h.off, h.notDone]

theorem dtlbMiss_of_untranslated (h : Untranslated s) : s.dtlbMiss cfg i = false := by
  simp [dtlbMiss, dtlbWaits, dtlbNeeded, h.off]

theorem itlbMiss_of_untranslated (h : Untranslated s) : s.itlbMiss cfg i = false := by
  simp [itlbMiss, itlbWaits, h.off]

theorem ifetchFaultIf_of_untranslated (h : Untranslated s) : s.ifetchFaultIf cfg = false := by
  simp [ifetchFaultIf, itlbHitFault, ptwDoneI, h.off, h.notDone]

theorem memPaddr_of_untranslated (h : Untranslated s) : s.memPaddr cfg = s.aluOut cfg := by
  simp [memPaddr, dtlbVaddr, h.off, h.missR]

theorem HoldsInstr.exceptionTaken (hu : Untranslated s) (h : HoldsInstr s x) :
    s.exceptionTaken cfg = x.exceptionTaken := by
  rw [Core.exceptionTaken, h.illegalInst, h.ctrl, h.ifetchFault,
    dtlbPageFault_of_untranslated hu]
  simp [Instr.exceptionTaken]

theorem HoldsInstr.trapCause (hu : Untranslated s) (h : HoldsInstr s x) :
    s.trapCause cfg = x.trapCause := by
  rw [Core.trapCause, h.illegalInst, h.ctrl, h.ifetchFault, h.csr,
    dtlbPageFault_of_untranslated hu]
  simp [Instr.trapCause]

theorem HoldsInstr.trapValue (hu : Untranslated s) (h : HoldsInstr s x) :
    s.trapValue cfg = 0 := by
  rw [Core.trapValue, h.ifetchFault, dtlbPageFault_of_untranslated hu]
  rfl

/-!
# Wires that depend on the operands
-/

section Operands

variable (h : HoldsInstr s x) (hops : HasOperands cfg s x)

include h hops

theorem HasOperands.aluA : s.aluA cfg = x.aluA := by
  rw [Core.aluA, h.ctrl, h.pc, hops.rs1]
  rfl

theorem HasOperands.aluB : s.immRegVal cfg = x.aluB := by
  rw [immRegVal, h.ctrl, h.imm, hops.rs2]
  rfl

theorem HasOperands.aluOut : s.aluOut cfg = x.aluOut := by
  rw [Core.aluOut, h.aluCtl, h.isWordOp, hops.aluA h, hops.aluB h]
  rfl

theorem HasOperands.taken : s.desiredTaken cfg = x.taken := by
  rw [desiredTaken, Core.zero, h.aluCtl, h.ctrl, hops.aluA h, hops.aluB h]
  rfl

theorem HasOperands.target : s.desiredTarget cfg = x.target := by
  rw [desiredTarget, immSum, h.ctrl, h.imm, h.pc, hops.rs1]
  rfl

omit hops in
theorem HoldsInstr.divOperand (v : BitVec w) : s.divOperand v = x.divOperand v := by
  rw [Core.divOperand, h.isWordOp, isDivSigned, h.aluCtl]
  rfl

theorem HasOperands.dividerIn : s.dividerIn cfg = x.dividerIn := by
  rw [Core.dividerIn, isDivSigned, h.isDivRem, h.aluCtl, hops.aluA h, hops.aluB h,
    h.divOperand, h.divOperand]
  rfl

theorem HasOperands.fpuOperandA : s.fpuOperandA cfg = x.fpuOperandA := by
  have hreads : (rs1IsFloat s.reg2.inst s.funct5Regde || s.isFmaRegde) =
      readsFrs1 x.inst := by
    rw [h.inst, h.funct5, h.isFma]
    rfl
  rw [Core.fpuOperandA, hreads, Instr.fpuOperandA]
  cases hfloat : readsFrs1 x.inst with
  | true => exact hops.frs1 hfloat
  | false => exact hops.rs1

theorem HasOperands.storeOperand : s.storeOperand cfg = x.storeOperand := by
  rw [Core.storeOperand, isStoreFpRegde, h.inst, Instr.storeOperand, isStoreFp]
  cases hstore : Word.opcode x.inst == opcodeStoreFp with
  | true =>
      apply hops.frs2
      simp [readsFrs2, isStoreFp, hstore]
  | false => exact hops.rs2

theorem HasOperands.fdividerIn : s.fdividerIn cfg =
    { x.fdividerIn with b := f32 s.freadData2Final } := by
  rw [Core.fdividerIn, h.isFpDiv, h.rm, hops.fpuOperandA h]
  rfl

theorem HasOperands.fdividerIn_of_start (hdiv : x.isFpDiv = true) :
    s.fdividerIn cfg = x.fdividerIn := by
  have hfp : Core.isOpFp x.inst = true := by
    simp only [Instr.isFpDiv, Bool.and_eq_true] at hdiv
    exact hdiv.left
  rw [hops.fdividerIn h, hops.frs2 (by simp [readsFrs2, hfp])]
  rfl

theorem HasOperands.fsqrtIn : s.fsqrtIn cfg = x.fsqrtIn := by
  rw [Core.fsqrtIn, h.isFpSqrt, h.rm, hops.fpuOperandA h]
  rfl

end Operands

/-!
# Results
-/

/--
The units that the instruction uses show its results.
-/
structure HasResults (s : Core m) (x : Instr w) : Prop where
  div : x.isDivRem = true ->
    (s.divider.quotient, s.divider.remainder) = (Divider.sequencer w).result x.dividerIn
  fdiv : x.isFpDiv = true ->
    FpOut.mk s.fdivider.result s.fdivider.flags = FDivider.sequencer.result x.fdividerIn
  fsqrt : x.isFpSqrt = true ->
    FpOut.mk s.fsqrt.result s.fsqrt.flags = FSqrt.sequencer.result x.fsqrtIn

/--
Everything about the instruction is there but the result of an iterative unit.
-/
structure Shows (cfg : Config w) (s : Core m) (x : Instr w) : Prop where
  holds : HoldsInstr s x
  plain : Untranslated s
  operands : x.iterative = false -> HasOperands cfg s x

/--
Execute is done with the instruction as soon as nothing stalls it.
-/
structure Executes (cfg : Config w) (s : Core m) (x : Instr w) : Prop
    extends Shows cfg s x where
  results : HasResults s x

/-!
# Shapes of instructions
-/

theorem rtype_of_isDivRem (h : x.isDivRem = true) : x.ctrl.aluOp = .rtype :=
  rtype_of_isDiv h

theorem opcode_of_isOpFp (h : isOpFp x.inst = true) : Word.opcode x.inst = opcodeFp :=
  beq_iff_eq.mp h

theorem control_opcodeFp {inst : Word} (h : Word.opcode inst = opcodeFp) :
    Isa.control w inst = controlFp inst := by
  unfold Isa.control
  rw [h]
  rfl

/--
An instruction with an iterative unit only writes a register.
-/
theorem control_iterative (h : x.iterative = true) :
    x.ctrl.branch = false ∧ x.ctrl.jump = false ∧ x.ctrl.isCsr = false ∧
      x.ctrl.memRead = false ∧ x.ctrl.memWrite = false ∧ x.ctrl.isAmo = false := by
  have hfp : isOpFp x.inst = true -> x.ctrl.branch = false ∧ x.ctrl.jump = false ∧
      x.ctrl.isCsr = false ∧ x.ctrl.memRead = false ∧ x.ctrl.memWrite = false ∧
      x.ctrl.isAmo = false := by
    intro hop
    rw [Instr.ctrl, control_opcodeFp (opcode_of_isOpFp hop), controlFp]
    split <;> decide
  simp only [Instr.iterative, Bool.or_eq_true] at h
  rcases h with (hdiv | hdiv) | hsqrt
  · exact control_shape w x.inst
      (p := fun c => c.aluOp = .rtype -> c.branch = false ∧ c.jump = false ∧
        c.isCsr = false ∧ c.memRead = false ∧ c.memWrite = false ∧ c.isAmo = false)
      (by decide) (rtype_of_isDivRem hdiv)
  · simp only [Instr.isFpDiv, Bool.and_eq_true] at hdiv
    exact hfp hdiv.left
  · simp only [Instr.isFpSqrt, Bool.and_eq_true] at hsqrt
    exact hfp hsqrt.left

theorem isFp_of_isFpDiv (h : x.isFpDiv = true) : isOpFp x.inst = true := by
  simp only [Instr.isFpDiv, Bool.and_eq_true] at h
  exact h.left

theorem isFp_of_isFpSqrt (h : x.isFpSqrt = true) : isOpFp x.inst = true := by
  simp only [Instr.isFpSqrt, Bool.and_eq_true] at h
  exact h.left

theorem not_isFma_of_isOpFp (h : isOpFp x.inst = true) : isFma x.inst = false := by
  unfold isFma
  rw [opcode_of_isOpFp h]
  rfl

/--
Floating-point instructions have no integer meaning.
-/
theorem control_isFp (h : x.isFp = true) :
    x.ctrl.branch = false ∧ x.ctrl.jump = false ∧ x.ctrl.isCsr = false ∧
      x.ctrl.memRead = false ∧ x.ctrl.memWrite = false ∧ x.ctrl.isAmo = false ∧
      x.ctrl.aluOp = .loadStore := by
  simp only [Instr.isFp, Bool.or_eq_true] at h
  rcases h with hop | hfma
  · rw [Instr.ctrl, control_opcodeFp (opcode_of_isOpFp hop), controlFp]
    split <;> decide
  · have hcontrol : x.ctrl = { fRegWrite := true } := by
      simp only [isFma, Bool.or_eq_true, beq_iff_eq] at hfma
      unfold Instr.ctrl Isa.control
      rcases hfma with ((hop | hop) | hop) | hop <;> rw [hop] <;> rfl
    rw [hcontrol]
    decide

theorem not_isDivRem_of_isFp (h : x.isFp = true) : x.isDivRem = false := by
  cases hdiv : x.isDivRem with
  | false => rfl
  | true =>
      have hrtype := rtype_of_isDivRem hdiv
      rw [(control_isFp h).right.right.right.right.right.right] at hrtype
      cases hrtype

namespace Shows

variable (h : Shows cfg s x)

include h

theorem taken : s.desiredTaken cfg = x.taken := by
  cases hit : x.iterative with
  | false => exact (h.operands hit).taken h.holds
  | true =>
      obtain ⟨hbranch, hjump, _⟩ := control_iterative hit
      rw [desiredTaken, h.holds.ctrl, Instr.taken, hbranch, hjump]
      rfl

theorem target (htaken : x.taken = true) : s.desiredTarget cfg = x.target := by
  cases hit : x.iterative with
  | false => exact (h.operands hit).target h.holds
  | true =>
      obtain ⟨hbranch, hjump, _⟩ := control_iterative hit
      rw [Instr.taken, hbranch, hjump] at htaken
      exact Bool.noConfusion htaken

theorem exceptionTaken : s.exceptionTaken cfg = x.exceptionTaken :=
  h.holds.exceptionTaken h.plain

theorem otherRedirectTaken : s.otherRedirectTaken cfg =
    x.redirectsFrom cfg s.reg2.predictTaken s.reg2.predictTarget := by
  rw [Core.otherRedirectTaken, branchOrJumpRedirect, h.taken, h.exceptionTaken,
    h.holds.mretReal, h.holds.sretReal, Instr.redirectsFrom]
  cases cfg.dynamic with
  | false => rfl
  | true =>
      rw [mispredict, h.taken]
      cases htaken : x.taken with
      | false => simp
      | true => rw [h.target htaken]

/--
Where fetch goes on when execute does not redirect it.
-/
theorem nextPc_of_predicted {fma : FmaddUnit} {lines : Lines}
    (hstatic : cfg.dynamic = false -> s.reg2.predictTaken = false)
    (hnone : s.otherRedirectTaken cfg = false) :
    x.nextPc fma lines =
      if s.reg2.predictTaken then s.reg2.predictTarget else s.pcPlus4Regde := by
  simp only [Core.otherRedirectTaken, Bool.or_eq_false_iff] at hnone
  obtain ⟨⟨⟨hredirect, hexception⟩, hmret⟩, hsret⟩ := hnone
  rw [h.exceptionTaken] at hexception
  rw [h.holds.mretReal] at hmret
  rw [h.holds.sretReal] at hsret
  rw [Instr.nextPc, hexception, hmret, hsret, h.holds.pcPlus4]
  rw [branchOrJumpRedirect] at hredirect
  cases hdynamic : cfg.dynamic with
  | false =>
      rw [hdynamic, h.taken] at hredirect
      rw [hstatic hdynamic, show x.taken = false from hredirect]
      rfl
  | true =>
      rw [hdynamic, if_pos rfl, mispredict, h.taken, Bool.or_eq_false_iff] at hredirect
      rw [bne_eq_false_iff_eq.mp hredirect.left]
      cases htaken : x.taken with
      | false => rfl
      | true =>
          have htarget : s.reg2.predictTarget = s.desiredTarget cfg := by
            simpa [htaken] using hredirect.right
          rw [htarget, h.target htaken]
          rfl

theorem branchOrJumpTarget (hredirect : s.branchOrJumpRedirect cfg = true) :
    s.branchOrJumpTarget cfg = if x.taken then x.target else x.pcNext := by
  rw [Core.branchOrJumpTarget, h.taken, h.holds.pcPlus4]
  cases htaken : x.taken with
  | true => simp [h.target htaken]
  | false =>
      rw [branchOrJumpRedirect, h.taken, htaken] at hredirect
      cases hdynamic : cfg.dynamic with
      | true => rfl
      | false =>
          rw [hdynamic] at hredirect
          exact Bool.noConfusion hredirect

/--
A redirect that leaves execute goes to where the instruction leads.
-/
theorem redirectTarget (hhold : s.reg2Hold cfg i = false)
    (hint : s.interruptTaken cfg i = false) (hredirect : s.otherRedirectTaken cfg = true) :
    s.redirectTarget cfg i = x.nextPc cfg.fmaddUnit (linesOf i) := by
  have htrap : s.csr.trapTargetIsS (s.csrIn cfg i) =
      x.csr.trapTargetIsS (x.csrIn cfg.fmaddUnit (linesOf i)) := by
    simp only [Csr.trapTargetIsS, Csr.trapDelegated, Core.csrIn, Instr.csrIn, hhold, hint,
      h.exceptionTaken, h.holds.csr, h.holds.trapCause h.plain, Bool.not_false, Bool.and_true,
      Bool.or_false, Bool.false_eq_true, if_false]
  rw [Core.redirectTarget, hint, htrap, h.exceptionTaken, h.holds.mretReal,
    h.holds.sretReal, h.holds.csr, Instr.nextPc, Instr.trapVector, Bool.or_false]
  cases hexception : x.exceptionTaken with
  | true => rfl
  | false =>
      cases hmret : x.mretReal with
      | true => rfl
      | false =>
          cases hsret : x.sretReal with
          | true => rfl
          | false =>
              have hjump : s.branchOrJumpRedirect cfg = true := by
                rw [Core.otherRedirectTaken, h.exceptionTaken, h.holds.mretReal,
                  h.holds.sretReal, hexception, hmret, hsret] at hredirect
                simpa using hredirect
              exact h.branchOrJumpTarget hjump

end Shows

namespace Executes

variable (h : Executes cfg s x)

include h

theorem divResult (hdiv : x.isDivRem = true) : s.divResult = x.divResult := by
  have hresult := h.results.div hdiv
  rw [Core.divResult, Instr.divResult, <- hresult, h.holds.aluCtl, h.holds.isWordOp]

theorem fpOut (hfp : x.isFp = true) : s.fpOut cfg = x.fpOut cfg.fmaddUnit := by
  rw [Core.fpOut, Instr.fpOut, h.holds.isFma, h.holds.isFpDiv, h.holds.isFpSqrt]
  cases hfma : isFma x.inst with
  | true =>
      have hop : isOpFp x.inst = false := by
        cases hop : isOpFp x.inst with
        | false => rfl
        | true => exact absurd hfma (by simp [not_isFma_of_isOpFp hop])
      have hit : x.iterative = false := by
        simp [Instr.iterative, Instr.isFpDiv, Instr.isFpSqrt, hop, not_isDivRem_of_isFp hfp]
      have hops := h.operands hit
      rw [fmaddOut, h.holds.inst, h.holds.rm, hops.frs1 (by simp [readsFrs1, hfma]),
        hops.frs2 (by simp [readsFrs2, hfma]), hops.frs3 hfma]
      rfl
  | false =>
      have hop : isOpFp x.inst = true := by
        simpa [Instr.isFp, hfma] using hfp
      cases hdiv : x.isFpDiv with
      | true => exact h.results.fdiv hdiv
      | false =>
          cases hsqrt : x.isFpSqrt with
          | true => exact h.results.fsqrt hsqrt
          | false =>
              have hit : x.iterative = false := by
                simp [Instr.iterative, not_isDivRem_of_isFp hfp, hdiv, hsqrt]
              have hops := h.operands hit
              show s.faluOut cfg = _
              rw [faluOut, h.holds.funct5, h.holds.rm, h.holds.readReg2,
                hops.fpuOperandA h.holds, hops.frs2 (by simp [readsFrs2, hop])]
              rfl

end Executes

/-!
# The ports of the control registers
-/

/--
An instruction that leaves execute without an interrupt puts its own request to the
control registers.
-/
theorem Executes.csrIn (h : Executes cfg s x) (hhold : s.reg2Hold cfg i = false)
    (hint : s.interruptTaken cfg i = false) :
    s.csrIn cfg i =
      { x.csrIn cfg.fmaddUnit (linesOf i) with
        wdata := s.csrWdata cfg
        fpFlagsIn := fpFlagBits (s.fpOut cfg).flags
        instretPulse := s.reg3.valid && !s.memStall cfg i
        hpmEventPulse := s.hpmEventPulse cfg i } := by
  rw [Core.csrIn, hhold, hint, h.holds.ctrl, h.holds.csrPrivViolation, h.exceptionTaken,
    h.holds.imm, h.holds.funct3, h.holds.pc, h.holds.trapCause h.plain,
    h.holds.trapValue h.plain, h.holds.mretReal, h.holds.sretReal, h.holds.isOpFp,
    h.holds.isFma, Instr.csrIn, linesOf]
  simp

theorem Executes.csrWdata (h : Executes cfg s x) (hcsr : x.ctrl.isCsr = true) :
    s.csrWdata cfg = x.csrWdata := by
  have hit : x.iterative = false := by
    cases hit : x.iterative with
    | false => rfl
    | true =>
        rw [(control_iterative hit).right.right.left] at hcsr
        cases hcsr
  rw [Core.csrWdata, h.holds.funct3, h.holds.inst, (h.operands hit).rs1]
  rfl

/-!
# What execute hands to memory
-/

/--
A read of the control registers depends on the address and the interrupt lines only.
-/
theorem Executes.csrOldVal (h : Executes cfg s x) :
    s.csrOldVal cfg i =
      x.csr.rdata vlen (x.csrIn cfg.fmaddUnit (linesOf i)) := by
  have haddr : (s.csrIn cfg i).addr = (x.csrIn cfg.fmaddUnit (linesOf i)).addr := by
    show s.reg2.imm.setWidth 12 = x.imm.setWidth 12
    rw [h.holds.imm]
  rw [Core.csrOldVal, h.holds.csr]
  unfold Csr.rdata Csr.rdataBase
  rw [haddr]
  rfl

theorem Executes.exResult (h : Executes cfg s x) :
    s.exResult cfg i = x.exResult cfg.fmaddUnit (linesOf i) := by
  rw [Core.exResult, Instr.exResult, h.holds.isOpFp, h.holds.isFma, h.holds.ctrl,
    h.holds.isDivRem, memPaddr_of_untranslated h.plain]
  cases hfp : isOpFp x.inst || isFma x.inst with
  | true =>
      rw [if_pos rfl, if_pos rfl, h.fpOut hfp]
  | false =>
      rw [if_neg Bool.false_ne_true, if_neg Bool.false_ne_true]
      cases hcsr : x.ctrl.isCsr with
      | true =>
          rw [if_pos rfl, if_pos rfl, h.csrOldVal]
      | false =>
          rw [if_neg Bool.false_ne_true, if_neg Bool.false_ne_true]
          cases hdiv : x.isDivRem with
          | true => rw [if_pos rfl, if_pos rfl, h.divResult hdiv]
          | false =>
              have hit : x.iterative = false := by
                rw [Bool.or_eq_false_iff] at hfp
                simp [Instr.iterative, hdiv, Instr.isFpDiv, Instr.isFpSqrt, hfp.left]
              rw [(h.operands hit).aluOut h.holds]
              simp

theorem Executes.reg3Bubble (h : Executes cfg s x) (hdiv : s.divStall = false)
    (hfp : s.fpStall = false) :
    s.reg3Bubble cfg i = x.exceptionTaken := by
  rw [Core.reg3Bubble, hdiv, hfp, dtlbMiss_of_untranslated h.plain, h.exceptionTaken]
  rfl

/--
Only an instruction that writes memory is sure to have its store operand still.
-/
theorem Executes.executed (h : Executes cfg s x) (hdiv : s.divStall = false)
    (hfp : s.fpStall = false) :
    s.executed cfg i =
      { x.executed cfg.fmaddUnit (linesOf i) with readData2 := s.dtlbStoreData cfg } := by
  rw [Core.executed, h.reg3Bubble hdiv hfp, h.exResult, h.holds.ctrl, h.holds.pcPlus4,
    h.holds.writeReg, h.holds.funct3, h.holds.funct7, h.holds.valid, Instr.executed]
  simp

theorem Executes.dtlbStoreData (h : Executes cfg s x)
    (hwrites : x.ctrl.memWrite = true ∨ x.ctrl.isAmo = true) :
    s.dtlbStoreData cfg = x.storeOperand := by
  have hit : x.iterative = false := by
    cases hit : x.iterative with
    | false => rfl
    | true =>
        obtain ⟨_, _, _, _, hwrite, hamo⟩ := control_iterative hit
        rw [hwrite, hamo] at hwrites
        simp at hwrites
  rw [Core.dtlbStoreData, h.plain.missR]
  exact (h.operands hit).storeOperand h.holds

theorem oneAccess_of_ctrl
    (hload : s.reg2.ctrl.memRead = true ->
      s.reg2.ctrl.memWrite = false ∧ s.reg2.ctrl.isAmo = false)
    (hstore : s.reg2.ctrl.memWrite = true -> s.reg2.ctrl.isAmo = false)
    (hword : s.reg2.ctrl.memtoReg = true -> s.reg2.ctrl.memRead = true) :
    (s.executed cfg i).OneAccess := by
  rw [Core.executed]
  cases s.reg3Bubble cfg i with
  | true => exact ⟨fun h => Bool.noConfusion h, fun h => Bool.noConfusion h,
      fun h => Bool.noConfusion h⟩
  | false => exact ⟨hload, hstore, hword⟩

theorem HoldsInstr.oneAccess (h : HoldsInstr s x) : (s.executed cfg i).OneAccess := by
  have hshape : (x.ctrl.memRead = true -> x.ctrl.memWrite = false ∧ x.ctrl.isAmo = false) ∧
      (x.ctrl.memWrite = true -> x.ctrl.isAmo = false) ∧
      (x.ctrl.memtoReg = true -> x.ctrl.memRead = true) :=
    control_shape w x.inst
      (p := fun c => (c.memRead = true -> c.memWrite = false ∧ c.isAmo = false) ∧
        (c.memWrite = true -> c.isAmo = false) ∧ (c.memtoReg = true -> c.memRead = true))
      (by decide)
  rw [<- h.ctrl] at hshape
  exact oneAccess_of_ctrl hshape.left hshape.right.left hshape.right.right

/-!
# Bubbles
-/

/--
What execute holds is no instruction.  It is a bubble, or the instruction without
effect that a squashed fetch leaves.
-/
structure Quiet (s : Core m) : Prop where
  valid : s.reg2.valid = false
  ctrl : s.reg2.ctrl = {} ∨
    s.reg2.ctrl = { aluOp := .itype, aluSrc := true, regWrite := true }
  writeReg : s.reg2.writeReg = 0
  aluCtl : s.aluCtl = .add
  ifetchFault : s.reg2.ifetchFault = false

namespace Quiet

theorem of_reg2 {t : Core m} (hreg2 : t.reg2 = s.reg2) (h : Quiet s) : Quiet t := by
  obtain ⟨hvalid, hctrl, hdest, halu, hfault⟩ := h
  rw [<- hreg2] at hvalid hctrl hdest hfault
  refine ⟨hvalid, hctrl, hdest, ?_, hfault⟩
  rw [Core.aluCtl, hreg2]
  exact halu

variable (h : Quiet s)

include h

theorem isDivRem : s.isDivRem = false := by
  rw [Core.isDivRem, h.aluCtl]
  rfl

theorem divStall : s.divStall = false := by
  rw [Core.divStall, h.isDivRem]
  rfl

theorem exceptionTaken (hplain : Untranslated s) : s.exceptionTaken cfg = false := by
  rw [Core.exceptionTaken, illegalInst, csrPrivViolation, mretPrivViolation,
    sretPrivViolation, sfencePrivViolation, h.aluCtl, h.ifetchFault,
    dtlbPageFault_of_untranslated hplain]
  rcases h.ctrl with hctrl | hctrl <;> rw [hctrl] <;> rfl

theorem desiredTaken : s.desiredTaken cfg = false := by
  rw [Core.desiredTaken]
  rcases h.ctrl with hctrl | hctrl <;> rw [hctrl] <;> rfl

theorem mretReal : s.mretReal = false := by
  rw [Core.mretReal]
  rcases h.ctrl with hctrl | hctrl <;> rw [hctrl] <;> rfl

theorem sretReal : s.sretReal = false := by
  rw [Core.sretReal]
  rcases h.ctrl with hctrl | hctrl <;> rw [hctrl] <;> rfl

/--
Only a prediction that came with the word can make a bubble redirect.
-/
theorem otherRedirectTaken (hplain : Untranslated s) :
    s.otherRedirectTaken cfg = (cfg.dynamic && s.reg2.predictTaken) := by
  rw [Core.otherRedirectTaken, branchOrJumpRedirect, mispredict, h.desiredTaken,
    h.exceptionTaken hplain, h.mretReal, h.sretReal]
  cases cfg.dynamic <;> simp

/--
A bubble requests nothing of the control registers but to count flags.
-/
theorem csrIn (hplain : Untranslated s) :
    (s.csrIn cfg i).writeEn = false ∧
      (s.csrIn cfg i).trapTaken = s.interruptTaken cfg i ∧
      (s.csrIn cfg i).mretTaken = false ∧ (s.csrIn cfg i).sretTaken = false := by
  have hcsr : s.reg2.ctrl.isCsr = false := by
    rcases h.ctrl with hctrl | hctrl <;> rw [hctrl]
  refine ⟨?_, ?_, ?_, ?_⟩
  · simp [Core.csrIn, hcsr]
  · simp [Core.csrIn, h.exceptionTaken hplain]
  · simp [Core.csrIn, h.mretReal]
  · simp [Core.csrIn, h.sretReal]

/--
What a bubble hands to memory is a bubble.
-/
theorem executed :
    (s.executed cfg i).valid = false ∧ (s.executed cfg i).fRegWrite = false ∧
      (s.executed cfg i).memRead = false ∧ (s.executed cfg i).memWrite = false ∧
      (s.executed cfg i).isAmo = false ∧ (s.executed cfg i).writeReg = 0 := by
  rw [Core.executed, h.valid, h.writeReg]
  rcases h.ctrl with hctrl | hctrl <;> rw [hctrl] <;> simp

theorem oneAccess : (s.executed cfg i).OneAccess := by
  apply oneAccess_of_ctrl
  all_goals rcases h.ctrl with hctrl | hctrl <;> rw [hctrl] <;> decide

end Quiet

end Core
end Pipe
end RvCores
