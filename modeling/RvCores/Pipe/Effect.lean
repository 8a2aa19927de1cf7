import RvCores.Isa.Expansion
import RvCores.Pipe.Instr

/-!
# Effects of the integer instructions

What one instruction does to the program counter, the registers and memory, read off its
result register.  Atomic accesses and the other register files are left out.
-/

namespace RvCores
namespace Pipe

open Isa Block
open Pipe.Core (isOpFp isFma instLength)

namespace Instr

variable {x : Instr 64} {fma : FmaddUnit} {lines : Lines}

def written (r : Reg3 64) : Written :=
  if r.jump then .value r.pcPlus4
  else if r.memtoReg then .loaded r.aluOut r.funct3
  else .value r.aluOut

def effect (x : Instr 64) (fma : FmaddUnit) (lines : Lines) : Effect :=
  let r := x.executed fma lines
  if x.exceptionTaken then .trap x.trapCause
  else
    .retire (x.nextPc fma lines)
      (if r.regWrite then destination r.writeReg (written r) else none)
      (if r.memWrite then some { addr := r.aluOut, funct3 := r.funct3, data := r.readData2 }
        else none)

/-!
# Decoder outputs
-/

def integerShapes : List (BitVec 7 × Ctrl) :=
  [(opcodeI, { aluOp := .itype, aluSrc := true, regWrite := true }),
    (opcodeOpImm32, { aluOp := .itype, aluSrc := true, regWrite := true }),
    (opcodeR, { aluOp := .rtype, regWrite := true }),
    (opcodeOp32, { aluOp := .rtype, regWrite := true }),
    (opcodeLui, { aluSrc := true, regWrite := true, lui := true }),
    (opcodeLoad, { memRead := true, memtoReg := true, aluSrc := true, regWrite := true }),
    (opcodeStore, { memWrite := true, aluSrc := true }),
    (opcodeBranch, { branch := true, aluOp := .branch }),
    (opcodeJal, { regWrite := true, jump := true }),
    (opcodeJalr, { regWrite := true, jump := true, jalr := true })]

theorem control_integerShapes {inst : Word} {p : BitVec 7 × Ctrl} (hp : p ∈ integerShapes)
    (hop : inst.opcode = p.1) : Isa.control 64 inst = p.2 := by
  unfold Isa.control
  rw [hop]
  simp only [integerShapes, List.mem_cons, List.not_mem_nil, or_false] at hp
  rcases hp with rfl | rfl | rfl | rfl | rfl | rfl | rfl | rfl | rfl | rfl <;> rfl

def ctrlSystem (c : Ctrl) : Bool :=
  c.illegalOpcode || c.isCsr || c.isEcall || c.isEbreak || c.isMret || c.isSret || c.isSfenceVma

/--
Neither a trap nor a control register nor the floating-point unit is in play.
-/
structure Plain (x : Instr 64) : Prop where
  exception : x.exceptionTaken = false
  mret : x.mretReal = false
  sret : x.sretReal = false
  csr : x.ctrl.isCsr = false
  float : (isOpFp x.inst || isFma x.inst) = false

theorem plain_of_shape {op : BitVec 7} {c : Ctrl} (hshape : (op, c) ∈ integerShapes)
    (hop : x.inst.opcode = op) (hctl : x.aluCtl ≠ .illegal) : x.ctrl = c ∧ x.Plain := by
  have hctrl : x.ctrl = c := control_integerShapes hshape hop
  have hsystem : ctrlSystem c = false :=
    (by decide : forall p, p ∈ integerShapes -> ctrlSystem p.2 = false) _ hshape
  have hfloat : (op == opcodeFp || (op == opcodeMadd || op == opcodeMsub || op == opcodeNmsub ||
      op == opcodeNmadd)) = false :=
    (by decide : forall p, p ∈ integerShapes ->
      (p.1 == opcodeFp || (p.1 == opcodeMadd || p.1 == opcodeMsub || p.1 == opcodeNmsub ||
        p.1 == opcodeNmadd)) = false) _ hshape
  simp only [ctrlSystem, Bool.or_eq_false_iff] at hsystem
  obtain ⟨⟨⟨⟨⟨⟨hillegal, hcsr⟩, hecall⟩, hebreak⟩, hmret⟩, hsret⟩, hsfence⟩ := hsystem
  rw [← hop] at hfloat
  refine ⟨hctrl, ?_⟩
  exact
    { exception := by
        simp [exceptionTaken, illegalInst, csrPrivViolation, hctrl, hillegal, hcsr, hecall, hebreak,
          hmret, hsret, hsfence, hctl]
      mret := by simp [mretReal, hctrl, hmret]
      sret := by simp [sretReal, hctrl, hsret]
      csr := by rw [hctrl, hcsr]
      float := hfloat }

/-!
# Effects
-/

theorem nextPc_plain (h : x.Plain) :
    x.nextPc fma lines = if x.taken then x.target else x.pcNext := by
  simp [nextPc, h.exception, h.mret, h.sret]

theorem exResult_plain (h : x.Plain) (hdiv : x.aluCtl.isDiv = false) :
    x.exResult fma lines = x.aluOut := by
  simp [exResult, isDivRem, h.float, h.csr, hdiv]

/--
The result register of an instruction that does not trap.
-/
theorem effect_plain {c : Ctrl} (h : x.Plain) (hctrl : x.ctrl = c)
    (hdiv : x.aluCtl.isDiv = false) :
    x.effect fma lines =
      .retire (if x.taken then x.target else x.pcNext)
        (if c.regWrite then
          destination x.inst.rd
            (if c.jump then .value x.pcNext
              else if c.memtoReg then .loaded x.aluOut x.inst.funct3
              else .value x.aluOut)
          else none)
        (if c.memWrite then
          some { addr := x.aluOut, funct3 := x.inst.funct3, data := x.storeOperand }
          else none) := by
  simp only [effect, executed, written, h.exception, nextPc_plain h, exResult_plain h hdiv, hctrl,
    Bool.not_false, Bool.true_and, Bool.false_eq_true, if_false, if_true]

theorem isWordOp_of_opcode {op : BitVec 7} (hop : x.inst.opcode = op) :
    x.isWordOp = (op == opcodeOp32 || op == opcodeOpImm32) := by
  rw [isWordOp, hop]

section

variable {op : BitVec 7} {c : Ctrl} {ctl : AluCtl}

/--
Operations on registers and immediates.
-/
theorem effect_alu (hshape : (op, c) ∈ integerShapes.take 4) (hop : x.inst.opcode = op)
    (hctl : x.aluCtl = ctl) (hok : (ctl == .illegal || ctl.isDiv) = false) :
    x.effect fma lines =
      .retire x.pcNext
        (destination x.inst.rd
          (.value (alu ctl x.rs1 (if c.aluSrc then x.imm else x.rs2)
            (op == opcodeOp32 || op == opcodeOpImm32)))) none := by
  rw [Bool.or_eq_false_iff, beq_eq_false_iff_ne] at hok
  obtain ⟨hctrl, hplain⟩ :=
    plain_of_shape (List.mem_of_mem_take hshape) hop (by rw [hctl]; exact hok.left)
  have hflags : (c.regWrite && !c.memtoReg && !c.memWrite && !c.jump && !c.branch && !c.lui &&
      !c.auipc) = true :=
    (by decide : forall p, p ∈ integerShapes.take 4 ->
      (p.2.regWrite && !p.2.memtoReg && !p.2.memWrite && !p.2.jump && !p.2.branch && !p.2.lui &&
        !p.2.auipc) = true) _ hshape
  simp only [Bool.and_eq_true, Bool.not_eq_true'] at hflags
  obtain ⟨⟨⟨⟨⟨⟨hreg, hload⟩, hstore⟩, hjump⟩, hbranch⟩, hlui⟩, hauipc⟩ := hflags
  rw [effect_plain hplain hctrl (by rw [hctl]; exact hok.right)]
  simp [taken, aluOut, aluA, aluB, isWordOp_of_opcode hop, hctrl, hreg, hload, hstore, hjump,
    hbranch, hlui, hauipc, hctl]

end

theorem aluCtl_loadStore (hctrl : x.ctrl.aluOp = .loadStore) : x.aluCtl = .add := by
  rw [aluCtl, hctrl]
  rfl

theorem effect_lui (hop : x.inst.opcode = opcodeLui) :
    x.effect fma lines = .retire x.pcNext (destination x.inst.rd (.value x.imm)) none := by
  have hshape : (opcodeLui, ({ aluSrc := true, regWrite := true, lui := true } : Ctrl)) ∈
      integerShapes := by decide
  have hctrl := control_integerShapes hshape hop
  have hctl : x.aluCtl = .add := aluCtl_loadStore (congrArg Ctrl.aluOp hctrl)
  obtain ⟨hctrl, hplain⟩ := plain_of_shape hshape hop (by rw [hctl]; decide)
  have hword : x.isWordOp = false := isWordOp_of_opcode hop
  rw [effect_plain hplain hctrl (by rw [hctl]; rfl)]
  simp [taken, aluOut, aluA, aluB, hword, hctrl, hctl, alu]

theorem effect_load (hop : x.inst.opcode = opcodeLoad) :
    x.effect fma lines =
      .retire x.pcNext (destination x.inst.rd (.loaded (x.rs1 + x.imm) x.inst.funct3)) none := by
  have hshape : (opcodeLoad,
      ({ memRead := true, memtoReg := true, aluSrc := true, regWrite := true } : Ctrl)) ∈
      integerShapes := by decide
  have hctrl := control_integerShapes hshape hop
  have hctl : x.aluCtl = .add := aluCtl_loadStore (congrArg Ctrl.aluOp hctrl)
  obtain ⟨hctrl, hplain⟩ := plain_of_shape hshape hop (by rw [hctl]; decide)
  have hword : x.isWordOp = false := isWordOp_of_opcode hop
  rw [effect_plain hplain hctrl (by rw [hctl]; rfl)]
  simp [taken, aluOut, aluA, aluB, hword, hctrl, hctl, alu]

theorem effect_store (hop : x.inst.opcode = opcodeStore) :
    x.effect fma lines =
      .retire x.pcNext none
        (some { addr := x.rs1 + x.imm, funct3 := x.inst.funct3, data := x.rs2 }) := by
  have hshape : (opcodeStore, ({ memWrite := true, aluSrc := true } : Ctrl)) ∈
      integerShapes := by decide
  have hctrl := control_integerShapes hshape hop
  have hctl : x.aluCtl = .add := aluCtl_loadStore (congrArg Ctrl.aluOp hctrl)
  obtain ⟨hctrl, hplain⟩ := plain_of_shape hshape hop (by rw [hctl]; decide)
  have hword : x.isWordOp = false := isWordOp_of_opcode hop
  have hinteger : isStoreFp x.inst = false := by rw [isStoreFp, hop]; rfl
  rw [effect_plain hplain hctrl (by rw [hctl]; rfl)]
  simp [taken, aluOut, aluA, aluB, hword, hctrl, hctl, alu, storeOperand, hinteger]

theorem effect_branch (hop : x.inst.opcode = opcodeBranch) :
    x.effect fma lines =
      .retire
        (if branchZero x.aluCtl x.rs1 x.rs2 then evenAddress (x.pc + x.imm <<< 1) else x.pcNext)
        none none := by
  have hshape : (opcodeBranch, ({ branch := true, aluOp := .branch } : Ctrl)) ∈
      integerShapes := by decide
  have hctrl : x.ctrl = _ := control_integerShapes hshape hop
  have hctl : x.aluCtl ≠ .illegal ∧ x.aluCtl.isDiv = false := by
    rw [aluCtl, hctrl]
    exact (by decide : forall f : BitVec 3,
      (branchTable.lookup f).getD .illegal ≠ .illegal ∧
        ((branchTable.lookup f).getD .illegal).isDiv = false) x.inst.funct3
  obtain ⟨hctrl, hplain⟩ := plain_of_shape hshape hop hctl.left
  rw [effect_plain hplain hctrl hctl.right]
  simp [taken, zero, target, evenAddress, aluA, aluB, hctrl]

theorem effect_jal (hop : x.inst.opcode = opcodeJal) :
    x.effect fma lines =
      .retire (evenAddress (x.pc + x.imm <<< 1)) (destination x.inst.rd (.value x.pcNext))
        none := by
  have hshape : (opcodeJal, ({ regWrite := true, jump := true } : Ctrl)) ∈
      integerShapes := by decide
  have hctrl := control_integerShapes hshape hop
  have hctl : x.aluCtl = .add := aluCtl_loadStore (congrArg Ctrl.aluOp hctrl)
  obtain ⟨hctrl, hplain⟩ := plain_of_shape hshape hop (by rw [hctl]; decide)
  rw [effect_plain hplain hctrl (by rw [hctl]; rfl)]
  simp [taken, target, evenAddress, hctrl]

theorem effect_jalr (hop : x.inst.opcode = opcodeJalr) :
    x.effect fma lines =
      .retire (evenAddress (x.rs1 + x.imm)) (destination x.inst.rd (.value x.pcNext)) none := by
  have hshape : (opcodeJalr, ({ regWrite := true, jump := true, jalr := true } : Ctrl)) ∈
      integerShapes := by decide
  have hctrl := control_integerShapes hshape hop
  have hctl : x.aluCtl = .add := aluCtl_loadStore (congrArg Ctrl.aluOp hctrl)
  obtain ⟨hctrl, hplain⟩ := plain_of_shape hshape hop (by rw [hctl]; decide)
  rw [effect_plain hplain hctrl (by rw [hctl]; rfl)]
  simp [taken, target, evenAddress, hctrl]

theorem effect_zero (hinst : x.inst = 0) : x.effect fma lines = .trap 2 := by
  have hctrl : x.ctrl = Ctrl.illegal := by
    rw [ctrl, hinst]
    rfl
  have hillegal : x.illegalInst = true := by simp [illegalInst, hctrl, Ctrl.illegal]
  simp [effect, exceptionTaken, trapCause, hillegal]

theorem effect_ebreak (hinst : x.inst = Compressed.expEbreak) :
    x.effect fma lines = .trap 3 := by
  have hctrl : x.ctrl = { isEbreak := true } := by
    rw [ctrl, hinst]
    rfl
  have hctl : x.aluCtl = .add := aluCtl_loadStore (congrArg Ctrl.aluOp hctrl)
  simp [effect, exceptionTaken, trapCause, illegalInst, csrPrivViolation, hctrl, hctl]

end Instr
end Pipe
end RvCores
