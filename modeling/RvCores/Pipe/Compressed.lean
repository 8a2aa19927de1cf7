import RvCores.Pipe.Effect

/-!
# Execution of compressed instructions

Each form that the expander uses has its effect in terms of the registers, and each
compressed instruction is one of these forms.
-/

namespace RvCores
namespace Isa

/-!
# Arithmetic of the forms
-/

theorem imm_iType (imm : BitVec 12) (rs1 : BitVec 5) (f3 : BitVec 3) (rd : BitVec 5)
    (opcode : BitVec 7) : (iType imm rs1 f3 rd opcode).extractLsb 31 20 = imm := by
  simp (disch := omega) only [iType, BitVec.extractLsb, BitVec.extractLsb'_append_eq_of_le]
  exact BitVec.extractLsb'_eq_self

theorem shamt_iType (hi lo : BitVec 6) (rs1 : BitVec 5) (f3 : BitVec 3) (rd : BitVec 5)
    (opcode : BitVec 7) : (iType (hi ++ lo) rs1 f3 rd opcode).extractLsb 25 20 = lo := by
  simp (disch := omega) only [iType, BitVec.extractLsb, BitVec.extractLsb'_append_eq_of_le,
    BitVec.extractLsb'_append_eq_of_add_le]
  exact BitVec.extractLsb'_eq_self

theorem funct6_append (hi lo : BitVec 6) :
    ((hi ++ lo).extractLsb' 5 7).extractLsb 6 1 = hi := by
  apply BitVec.eq_of_getLsbD_eq
  intro i hlt
  have hi6 : i < 6 := hlt
  have hi7 : 1 + i < 7 := by omega
  have hhigh : ¬ 5 + (1 + i) < 6 := by omega
  have hbit : 5 + (1 + i) - 6 = i := by omega
  simp only [BitVec.extractLsb, BitVec.getLsbD_extractLsb', BitVec.getLsbD_append, hi7,
    hhigh, hbit, decide_true, Bool.true_and, if_false]
  simp [hi6]

theorem shamt_setWidth (k : BitVec 6) : shamt (k.setWidth 64) = k.toNat := by
  have hlog : Nat.log2 64 = 6 := by decide
  rw [shamt, hlog, BitVec.toNat_setWidth_of_le (by decide), Nat.mod_eq_of_lt k.isLt]

theorem signExtend_append_zero {n m k : Nat} (hpos : 0 < n) (x : BitVec n) :
    x.signExtend m ++ 0#k = (x ++ 0#k).signExtend (m + k) := by
  apply BitVec.eq_of_getLsbD_eq
  intro i hi
  have hn0 : n ≠ 0 := Nat.ne_of_gt hpos
  simp only [BitVec.getLsbD_append, BitVec.getLsbD_signExtend, BitVec.msb_append, hi, hn0,
    decide_true, Bool.true_and, if_false]
  by_cases hlow : i < k
  · have hin : i < n + k := by omega
    simp [hlow, hin]
  · have hm : i - k < m := by omega
    have hiff : i - k < n <-> i < n + k := by omega
    simp [hlow, hm, hiff]

theorem padded_signExtend {n m k : Nat} (hnm : n < m) (x : BitVec n) :
    (x.setWidth m).signExtend k = x.setWidth k := by
  have hlt : x.toNat < 2 ^ m :=
    Nat.lt_of_lt_of_le x.isLt (Nat.pow_le_pow_right (by decide) (Nat.le_of_lt hnm))
  have hmsb : (x.setWidth m).msb = false := by
    rw [BitVec.msb_eq_getLsbD_last, BitVec.getLsbD_setWidth,
      BitVec.getLsbD_of_ge x (m - 1) (by omega), Bool.and_false]
  rw [BitVec.signExtend_eq_setWidth_of_msb_false hmsb]
  apply BitVec.eq_of_toNat_eq
  rw [BitVec.toNat_setWidth, BitVec.toNat_setWidth, BitVec.toNat_setWidth, Nat.mod_eq_of_lt hlt]

theorem evenAddress_eq (a : BitVec 64) : evenAddress a = (a >>> 1) <<< 1 := by
  apply BitVec.eq_of_getLsbD_eq
  intro i hi
  cases i with
  | zero => simp [evenAddress]
  | succ i =>
      simp only [evenAddress, BitVec.getLsbD_and, BitVec.getLsbD_not, BitVec.getLsbD_shiftLeft,
        BitVec.getLsbD_ushiftRight, hi, decide_true, Bool.true_and]
      simp [BitVec.getLsbD_one, Nat.add_comm 1 i]

theorem toNat_evenAddress (a : BitVec 64) : (evenAddress a).toNat = 2 * (a.toNat / 2) := by
  have hlt := a.isLt
  rw [evenAddress_eq, BitVec.toNat_shiftLeft, BitVec.toNat_ushiftRight, Nat.shiftRight_eq_div_pow,
    Nat.shiftLeft_eq]
  omega

theorem even_of_getLsbD {a : BitVec 64} (ha : a.getLsbD 0 = false) : a.toNat % 2 = 0 := by
  have hbit : a.toNat.testBit 0 = false := ha
  rw [Nat.testBit_zero, decide_eq_false_iff_not] at hbit
  omega

/--
Targets from even offsets are equal only for equal offsets.
-/
theorem evenAddress_add_inj (pc : BitVec 64) {a b : BitVec 64} (ha : a.getLsbD 0 = false)
    (hb : b.getLsbD 0 = false) : evenAddress (pc + a) = evenAddress (pc + b) <-> a = b := by
  constructor
  · intro heq
    have hnat := congrArg BitVec.toNat heq
    have ha2 := even_of_getLsbD ha
    have hb2 := even_of_getLsbD hb
    have hpc := pc.isLt
    have halt := a.isLt
    have hblt := b.isLt
    rw [toNat_evenAddress, toNat_evenAddress, BitVec.toNat_add, BitVec.toNat_add] at hnat
    apply BitVec.eq_of_toNat_eq
    omega
  · rintro rfl
    rfl

end Isa

namespace Pipe

open Isa Block
open Pipe.Core (instLength)

/--
An instruction that the expander has made of a compressed word, with its operands from
the register file.
-/
structure Expands (c : BitVec 16) (regs : BitVec 5 -> BitVec 64) (x : Instr 64) : Prop where
  inst : x.inst = compressedExpander c
  compressed : x.isCompressed = true
  rs1 : x.rs1 = regs x.inst.rs1
  rs2 : x.rs2 = regs x.inst.rs2
  zero : regs 0 = 0

namespace Expands

variable {c : BitVec 16} {regs : BitVec 5 -> BitVec 64} {x : Instr 64} {fma : FmaddUnit}
  {lines : Lines}

theorem pcNext (h : Expands c regs x) : x.pcNext = x.pc + 2 := by
  rw [Instr.pcNext, h.compressed]
  rfl

/-!
# Forms
-/

section

variable {f7 : BitVec 7} {rs2 rs1 : BitVec 5} {f3 : BitVec 3} {rd : BitVec 5} {op : BitVec 7}

theorem fields (h : Expands c regs x)
    (hform : compressedExpander c = rType f7 rs2 rs1 f3 rd op) :
    x.inst.opcode = op ∧ x.inst.rd = rd ∧ x.inst.funct3 = f3 ∧ x.inst.funct7 = f7 ∧
      x.inst.rs2 = rs2 ∧ x.rs1 = regs rs1 ∧ x.rs2 = regs rs2 := by
  have hinst := h.inst.trans hform
  rw [h.rs1, h.rs2, hinst, opcode_rType, rd_rType, funct3_rType, funct7_rType, rs1_rType, rs2_rType]
  exact ⟨rfl, rfl, rfl, rfl, rfl, rfl, rfl⟩

/--
Register forms.
-/
theorem op_rType (h : Expands c regs x)
    (hform : compressedExpander c = rType f7 rs2 rs1 f3 rd op)
    (hop : (op, ({ aluOp := .rtype, regWrite := true } : Ctrl)) ∈ Instr.integerShapes.take 4)
    (ctl : AluCtl) (hctl : aluCtrl .rtype f7 f3 rs2 = ctl)
    (hok : (ctl == .illegal || ctl.isDiv) = false) :
    x.effect fma lines =
      Rvc.write x.pc rd
        (.value (alu ctl (regs rs1) (regs rs2) (op == opcodeOp32 || op == opcodeOpImm32))) := by
  obtain ⟨hopcode, hrd, hf3, hf7, hr2, hrs1, hrs2⟩ := h.fields hform
  have hctrl : x.ctrl = _ :=
    Instr.control_integerShapes (List.mem_of_mem_take hop) hopcode
  have haluCtl : x.aluCtl = ctl := by rw [Instr.aluCtl, hctrl, hf7, hf3, hr2, hctl]
  rw [Instr.effect_alu hop hopcode haluCtl hok, h.pcNext, hrd, hrs1, hrs2]
  rfl

end

section

variable {imm : BitVec 12} {rs2 rs1 : BitVec 5} {f3 : BitVec 3} {rd : BitVec 5} {op : BitVec 7}

theorem fields_iType (h : Expands c regs x)
    (hform : compressedExpander c = iType imm rs1 f3 rd op) :
    x.inst.opcode = op ∧ x.inst.rd = rd ∧ x.inst.funct3 = f3 ∧
      x.inst.funct7 = imm.extractLsb' 5 7 ∧ x.inst.rs2 = imm.extractLsb' 0 5 ∧
      x.rs1 = regs rs1 := by
  obtain ⟨hopcode, hrd, hf3, hf7, hr2, hrs1, -⟩ := h.fields (hform.trans (iType_eq ..))
  exact ⟨hopcode, hrd, hf3, hf7, hr2, hrs1⟩

/--
Immediate forms.
-/
theorem op_iType (h : Expands c regs x)
    (hform : compressedExpander c = iType imm rs1 f3 rd op)
    (hop : (op, ({ aluOp := .itype, aluSrc := true, regWrite := true } : Ctrl)) ∈
      Instr.integerShapes.take 4)
    (ctl : AluCtl) (hctl : itypeCtrl (imm.extractLsb' 5 7) f3 (imm.extractLsb' 0 5) = ctl)
    (hok : (ctl == .illegal || ctl.isDiv) = false) :
    x.effect fma lines =
      Rvc.write x.pc rd
        (.value (alu ctl (regs rs1) (immGen 64 (iType imm rs1 f3 rd op))
          (op == opcodeOp32 || op == opcodeOpImm32))) := by
  obtain ⟨hopcode, hrd, hf3, hf7, hr2, hrs1⟩ := h.fields_iType hform
  have hctrl : x.ctrl = _ :=
    Instr.control_integerShapes (List.mem_of_mem_take hop) hopcode
  have haluCtl : x.aluCtl = ctl := by
    rw [Instr.aluCtl, hctrl, hf7, hf3, hr2]
    exact hctl
  rw [Instr.effect_alu hop hopcode haluCtl hok, h.pcNext, hrd, hrs1, Instr.imm, h.inst, hform]
  rfl

theorem opcode_iType : (iType imm rs1 f3 rd op).opcode = op := by
  rw [iType_eq, opcode_rType]

theorem funct3_iType : (iType imm rs1 f3 rd op).funct3 = f3 := by
  rw [iType_eq, funct3_rType]

theorem addi (h : Expands c regs x)
    (hform : compressedExpander c = iType imm rs1 0b000 rd opcodeI) :
    x.effect fma lines = Rvc.write x.pc rd (.value (regs rs1 + imm.signExtend 64)) := by
  have hop : (iType imm rs1 0b000 rd opcodeI).opcode = opcodeI := opcode_iType
  have himm := immGen_opcodeI hop
    (by rw [funct3_iType]; decide) (by rw [funct3_iType]; decide)
  rw [h.op_iType hform (by decide) .add rfl (by decide), himm, imm_iType]
  rfl

theorem andi (h : Expands c regs x)
    (hform : compressedExpander c = iType imm rs1 0b111 rd opcodeI) :
    x.effect fma lines = Rvc.write x.pc rd (.value (regs rs1 &&& imm.signExtend 64)) := by
  have hop : (iType imm rs1 0b111 rd opcodeI).opcode = opcodeI := opcode_iType
  have himm := immGen_opcodeI hop
    (by rw [funct3_iType]; decide) (by rw [funct3_iType]; decide)
  rw [h.op_iType hform (by decide) .and rfl (by decide), himm, imm_iType]
  rfl

theorem addiw (h : Expands c regs x)
    (hform : compressedExpander c = iType imm rs1 0b000 rd opcodeOpImm32) :
    x.effect fma lines =
      Rvc.write x.pc rd
        (.value (((regs rs1).setWidth 32 + (imm.signExtend 64).setWidth 32).signExtend 64)) := by
  have hop : (iType imm rs1 0b000 rd opcodeOpImm32).opcode = opcodeOpImm32 := opcode_iType
  have himm := immGen_opImm32 hop funct3_iType
  rw [h.op_iType hform (by decide) .add rfl (by decide), himm, imm_iType]
  rfl

theorem load (h : Expands c regs x)
    (hform : compressedExpander c = iType imm rs1 f3 rd opcodeLoad) :
    x.effect fma lines = Rvc.write x.pc rd (.loaded (regs rs1 + imm.signExtend 64) f3) := by
  obtain ⟨hopcode, hrd, hf3, -, -, hrs1⟩ := h.fields_iType hform
  rw [Instr.effect_load hopcode, h.pcNext, hrd, hrs1, hf3, Instr.imm, immGen_load hopcode, h.inst,
    hform, imm_iType]
  rfl

theorem store (h : Expands c regs x)
    (hform : compressedExpander c = sType imm rs2 rs1 f3 opcodeStore) :
    x.effect fma lines =
      Rvc.store x.pc f3 (regs rs1 + imm.signExtend 64) (regs rs2) := by
  obtain ⟨hopcode, hrd, hf3, hf7, -, hrs1, hrs2⟩ := h.fields (hform.trans (sType_eq ..))
  have himm : imm.extractLsb' 5 7 ++ imm.extractLsb' 0 5 = imm :=
    @BitVec.extractLsb'_append_extractLsb' 7 5 imm
  rw [Instr.effect_store hopcode, h.pcNext, hrs1, hrs2, hf3, Instr.imm, immGen_store hopcode, hf7,
    hrd, himm]
  rfl

theorem jalr (h : Expands c regs x)
    (hform : compressedExpander c = iType 0 rs1 0b000 rd opcodeJalr) :
    x.effect fma lines =
      Rvc.jump (regs rs1) (destination rd (.value (x.pc + 2))) := by
  obtain ⟨hopcode, hrd, -, -, -, hrs1⟩ := h.fields_iType hform
  rw [Instr.effect_jalr hopcode, h.pcNext, hrd, hrs1, Instr.imm, immGen_jalr hopcode, h.inst,
    hform, imm_iType]
  simp [Rvc.jump]

end

section

variable {rs1 rd : BitVec 5} {f3 : BitVec 3} {k : BitVec 6}

/--
Shifts by an immediate.
-/
theorem shift (h : Expands c regs x) {hi : BitVec 6}
    (hform : compressedExpander c = iType (hi ++ k) rs1 f3 rd opcodeI)
    (hf3 : f3 = 0b001 ∨ f3 = 0b101)
    {ctl : AluCtl} (hctl : forall rs2, itypeCtrl ((hi ++ k).extractLsb' 5 7) f3 rs2 = ctl)
    (hok : (ctl == .illegal || ctl.isDiv) = false) :
    x.effect fma lines =
      Rvc.write x.pc rd (.value (alu ctl (regs rs1) (k.setWidth 64) false)) := by
  have hop : (iType (hi ++ k) rs1 f3 rd opcodeI).opcode = opcodeI := opcode_iType
  have himm := immGen_shift hop
    (by rw [funct3_iType]; exact hf3)
  rw [h.op_iType hform (by decide) ctl (hctl _) hok, himm, shamt_iType]
  rfl

theorem slli (h : Expands c regs x)
    (hform : compressedExpander c = iType (0b000000#6 ++ k) rs1 0b001 rd opcodeI) :
    x.effect fma lines = Rvc.write x.pc rd (.value (regs rs1 <<< k.toNat)) := by
  have hctl (rs2 : BitVec 5) :
      itypeCtrl ((0b000000#6 ++ k).extractLsb' 5 7) 0b001 rs2 = .sll := by
    simp only [itypeCtrl, funct6_append]
    rfl
  rw [h.shift hform (Or.inl rfl) hctl (by decide)]
  simp only [alu, shamt_setWidth, Bool.false_eq_true, if_false]

theorem srli (h : Expands c regs x)
    (hform : compressedExpander c = iType (0b000000#6 ++ k) rs1 0b101 rd opcodeI) :
    x.effect fma lines = Rvc.write x.pc rd (.value (regs rs1 >>> k.toNat)) := by
  have hctl (rs2 : BitVec 5) :
      itypeCtrl ((0b000000#6 ++ k).extractLsb' 5 7) 0b101 rs2 = .srl := by
    simp only [itypeCtrl, funct6_append]
    rfl
  rw [h.shift hform (Or.inr rfl) hctl (by decide)]
  simp only [alu, shamt_setWidth, Bool.false_eq_true, if_false]

theorem srai (h : Expands c regs x)
    (hform : compressedExpander c = iType (0b010000#6 ++ k) rs1 0b101 rd opcodeI) :
    x.effect fma lines = Rvc.write x.pc rd (.value ((regs rs1).sshiftRight k.toNat)) := by
  have hctl (rs2 : BitVec 5) :
      itypeCtrl ((0b010000#6 ++ k).extractLsb' 5 7) 0b101 rs2 = .sra := by
    simp only [itypeCtrl, funct6_append]
    rfl
  rw [h.shift hform (Or.inr rfl) hctl (by decide)]
  simp only [alu, shamt_setWidth, Bool.false_eq_true, if_false]

end

section

variable {n : Nat} {imm : BitVec n}

theorem lui (h : Expands c regs x) (hn : 0 < n) (hle : n <= 20) {rd : BitVec 5}
    (hform : compressedExpander c = uType (imm.signExtend 20) rd opcodeLui) :
    x.effect fma lines =
      Rvc.write x.pc rd (.value ((imm ++ 0#12).signExtend 64)) := by
  have hinst := h.inst.trans hform
  have hopcode : x.inst.opcode = opcodeLui := by rw [hinst, opcode_uType]
  have hrd : x.inst.rd = rd := by rw [hinst, rd_uType]
  rw [Instr.effect_lui hopcode, h.pcNext, hrd, Instr.imm, immGen_lui hopcode, hinst, uImm_uType,
    signExtend_append_zero hn, signExtend_signExtend (by omega) (by decide)]
  rfl

theorem jal (h : Expands c regs x) (hn : 0 < n) (hle : n <= 20) {rd : BitVec 5}
    (hform : compressedExpander c = jType (imm.signExtend 20) rd opcodeJal) :
    x.effect fma lines =
      Rvc.jump (x.pc + (imm ++ 0#1).signExtend 64) (destination rd (.value (x.pc + 2))) := by
  have hinst := h.inst.trans hform
  have hopcode : x.inst.opcode = opcodeJal := by
    rw [hinst]
    exact opcode_uType ..
  have hrd : x.inst.rd = rd := by
    rw [hinst]
    exact rd_uType ..
  rw [Instr.effect_jal hopcode, h.pcNext, hrd, Instr.imm, hinst, immGen_jType,
    signExtend_signExtend hle (by decide), shifted_offset hn]
  rfl

theorem branch (h : Expands c regs x) (hn : 0 < n) (hle : n <= 12) {rs1 : BitVec 5} {f3 : BitVec 3}
    (hform : compressedExpander c = bType (imm.signExtend 12) 0 rs1 f3 opcodeBranch) :
    x.effect fma lines =
      Rvc.branch x.pc
        (branchZero ((branchTable.lookup f3).getD .illegal) (regs rs1) 0)
        ((imm ++ 0#1).signExtend 64) := by
  obtain ⟨hopcode, -, hf3, -, -, hrs1, hrs2⟩ := h.fields hform
  have hctrl : x.ctrl = { branch := true, aluOp := .branch } :=
    Instr.control_integerShapes (p := (opcodeBranch, { branch := true, aluOp := .branch }))
      (by decide) hopcode
  have hctl : x.aluCtl = (branchTable.lookup f3).getD .illegal := by
    rw [Instr.aluCtl, hctrl, hf3]
    rfl
  rw [Instr.effect_branch hopcode, h.pcNext, hctl, hrs1, hrs2, h.zero, Instr.imm, h.inst, hform,
    immGen_bType, signExtend_signExtend hle (by decide), shifted_offset hn]
  rfl

end

theorem trap (h : Expands c regs x) (hform : compressedExpander c = 0) :
    x.effect fma lines = .trap 2 :=
  Instr.effect_zero (h.inst.trans hform)

/-!
# Offsets with their sign
-/

theorem shortReg_ne_zero (c : BitVec 16) (lo : Nat) : Rvc.shortReg c lo ≠ 0 := by
  intro heq
  have hbit : (Rvc.shortReg c lo).getLsbD 3 = (0 : BitVec 5).getLsbD 3 := by rw [heq]
  rw [Rvc.shortReg, BitVec.getLsbD_append] at hbit
  simp at hbit

section

variable {rs1 rs2 rd : BitVec 5} {f3 : BitVec 3} {n top : Nat} {table : List (Nat × Nat)}

theorem load_iff (h : Expands c regs x) (hn : n <= 12) (hrd : rd ≠ 0)
    (hform : compressedExpander c =
      iType ((Rvc.immBits c n table).signExtend 12) rs1 f3 rd opcodeLoad)
    (htop : (Rvc.immBits c n table).msb = c.getLsbD top) :
    x.effect fma lines =
        Rvc.write x.pc rd (.loaded (regs rs1 + Rvc.unsigned c n table) f3) <->
      c.getLsbD top = false := by
  have hwritten : ¬ rd = 0#5 := hrd
  rw [h.load hform, ← Compressed.offset_eq_iff c hn htop]
  simp [Rvc.write, destination, hwritten]

theorem store_iff (h : Expands c regs x) (hn : n <= 12)
    (hform : compressedExpander c =
      sType ((Rvc.immBits c n table).signExtend 12) rs2 rs1 f3 opcodeStore)
    (htop : (Rvc.immBits c n table).msb = c.getLsbD top) :
    x.effect fma lines =
        Rvc.store x.pc f3 (regs rs1 + Rvc.unsigned c n table) (regs rs2) <->
      c.getLsbD top = false := by
  rw [h.store hform, ← Compressed.offset_eq_iff c hn htop]
  simp [Rvc.store]

end

/-!
# Quadrants
-/

open Compressed (op f3 bit)

theorem f3_cases : forall f : BitVec 3,
    f = 0b000 ∨ f = 0b001 ∨ f = 0b010 ∨ f = 0b011 ∨ f = 0b100 ∨ f = 0b101 ∨ f = 0b110 ∨
      f = 0b111 := by
  decide

theorem quadrant0 (h : Expands c regs x) (hop : op c = 0b00)
    (hinteger : Rvc.decode c ≠ .float) :
    x.effect fma lines = (Rvc.decode c).effect x.pc regs <-> ¬ Rvc.misexpanded c := by
  have hexp : compressedExpander c = Compressed.q0 c := by rw [compressedExpander, if_pos hop]
  have hdec : Rvc.decode c = Rvc.quadrant0 c := by rw [Rvc.decode, if_pos hop]
  rw [hdec] at hinteger ⊢
  rcases f3_cases (f3 c) with hf | hf | hf | hf | hf | hf | hf | hf
  · have hgood : ¬ Rvc.misexpanded c := by simp [Rvc.misexpanded, hop, hf]
    have hform : compressedExpander c = Compressed.expAddi4spn c := by
      simp [hexp, Compressed.q0, hf]
    rw [Compressed.expAddi4spn, Compressed.ciwImm_eq] at hform
    simp only [Rvc.quadrant0, hf, if_true, hgood, not_false_eq_true, iff_true]
    by_cases hzero : Rvc.immBits c 10 Rvc.addi4spnTable = 0
    · rw [if_pos hzero] at hform ⊢
      exact h.trap hform
    · rw [if_neg hzero] at hform ⊢
      rw [h.addi hform, padded_signExtend (by decide)]
      rfl
  · exact absurd (by simp [Rvc.quadrant0, hf]) hinteger
  · have hbad : Rvc.misexpanded c <-> c.getLsbD 5 = true := by simp [Rvc.misexpanded, hop, hf]
    have hform : compressedExpander c = iType ((Compressed.clLwImm c).signExtend 12)
        (Rvc.shortReg c 7) 0b010 (Rvc.shortReg c 2) opcodeLoad := by
      simp only [hexp, Compressed.q0, hf]
      rfl
    rw [Compressed.clLwImm_eq] at hform
    rw [hbad, Bool.not_eq_true, ← h.load_iff (by decide) (shortReg_ne_zero c 2) hform
      (Compressed.msb_wordTable c)]
    simp only [Rvc.quadrant0, hf]
    rfl
  · have hbad : Rvc.misexpanded c <-> c.getLsbD 6 = true := by simp [Rvc.misexpanded, hop, hf]
    have hform : compressedExpander c = iType ((Compressed.clLdImm c).signExtend 12)
        (Rvc.shortReg c 7) 0b011 (Rvc.shortReg c 2) opcodeLoad := by
      simp only [hexp, Compressed.q0, hf]
      rfl
    rw [Compressed.clLdImm_eq] at hform
    rw [hbad, Bool.not_eq_true, ← h.load_iff (by decide) (shortReg_ne_zero c 2) hform
      (Compressed.msb_doubleTable c)]
    simp only [Rvc.quadrant0, hf]
    rfl
  · have hgood : ¬ Rvc.misexpanded c := by simp [Rvc.misexpanded, hop, hf]
    have hform : compressedExpander c = 0 := by
      simp only [hexp, Compressed.q0, hf]
      rfl
    simp only [Rvc.quadrant0, hf, hgood, not_false_eq_true, iff_true]
    exact h.trap hform
  · exact absurd (by simp [Rvc.quadrant0, hf]) hinteger
  · have hbad : Rvc.misexpanded c <-> c.getLsbD 5 = true := by simp [Rvc.misexpanded, hop, hf]
    have hform : compressedExpander c = sType ((Compressed.clLwImm c).signExtend 12)
        (Rvc.shortReg c 2) (Rvc.shortReg c 7) 0b010 opcodeStore := by
      simp only [hexp, Compressed.q0, hf]
      rfl
    rw [Compressed.clLwImm_eq] at hform
    rw [hbad, Bool.not_eq_true, ← h.store_iff (by decide) hform (Compressed.msb_wordTable c)]
    simp only [Rvc.quadrant0, hf]
    rfl
  · have hbad : Rvc.misexpanded c <-> c.getLsbD 6 = true := by simp [Rvc.misexpanded, hop, hf]
    have hform : compressedExpander c = sType ((Compressed.clLdImm c).signExtend 12)
        (Rvc.shortReg c 2) (Rvc.shortReg c 7) 0b011 opcodeStore := by
      simp only [hexp, Compressed.q0, hf]
      rfl
    rw [Compressed.clLdImm_eq] at hform
    rw [hbad, Bool.not_eq_true, ← h.store_iff (by decide) hform (Compressed.msb_doubleTable c)]
    simp only [Rvc.quadrant0, hf]
    rfl

theorem pair_cases : forall f : BitVec 2, f = 0b00#2 ∨ f = 0b01#2 ∨ f = 0b10#2 ∨ f = 0b11#2 := by
  decide

/--
The operations on the short registers.
-/
theorem arith (h : Expands c regs x) (hexp : compressedExpander c = Compressed.expArith c) :
    x.effect fma lines = (Rvc.arith c).effect x.pc regs := by
  rw [Compressed.expArith, Compressed.imm6_eq] at hexp
  unfold Rvc.arith
  rcases pair_cases (c.extractLsb' 10 2) with hk | hk | hk | hk
  · rw [if_pos hk] at hexp ⊢
    exact h.srli hexp
  · rw [if_neg (by rw [hk]; decide), if_pos hk] at hexp ⊢
    exact h.srai hexp
  · rw [if_neg (by rw [hk]; decide), if_neg (by rw [hk]; decide), if_pos hk] at hexp ⊢
    rw [h.andi hexp, signExtend_signExtend (by decide) (by decide)]
    rfl
  · rw [if_neg (by rw [hk]; decide), if_neg (by rw [hk]; decide), if_neg (by rw [hk]; decide)]
      at hexp ⊢
    by_cases hword : bit c 12 = 0
    · rw [if_pos hword] at hexp ⊢
      rcases pair_cases (c.extractLsb' 5 2) with hj | hj | hj | hj
      · rw [if_pos hj] at hexp ⊢
        exact h.op_rType hexp (by decide) .sub rfl (by decide)
      · rw [if_neg (by rw [hj]; decide), if_pos hj] at hexp ⊢
        exact h.op_rType hexp (by decide) .xor rfl (by decide)
      · rw [if_neg (by rw [hj]; decide), if_neg (by rw [hj]; decide), if_pos hj] at hexp ⊢
        exact h.op_rType hexp (by decide) .or rfl (by decide)
      · rw [if_neg (by rw [hj]; decide), if_neg (by rw [hj]; decide), if_neg (by rw [hj]; decide)]
          at hexp ⊢
        exact h.op_rType hexp (by decide) .and rfl (by decide)
    · rw [if_neg hword] at hexp ⊢
      rcases pair_cases (c.extractLsb' 5 2) with hj | hj | hj | hj
      · rw [if_pos hj] at hexp ⊢
        exact h.op_rType hexp (by decide) .sub rfl (by decide)
      · rw [if_neg (by rw [hj]; decide), if_pos hj] at hexp ⊢
        exact h.op_rType hexp (by decide) .add rfl (by decide)
      · rw [if_neg (by rw [hj]; decide), if_neg (by rw [hj]; decide)] at hexp ⊢
        exact h.trap hexp
      · rw [if_neg (by rw [hj]; decide), if_neg (by rw [hj]; decide)] at hexp ⊢
        exact h.trap hexp

/--
Register jumps, moves, additions and the breakpoint.
-/
theorem jumpOrMove (h : Expands c regs x) (hexp : compressedExpander c = Compressed.expQ2100 c) :
    x.effect fma lines = (Rvc.jumpOrMove c).effect x.pc regs := by
  have hrd : Compressed.rdFull c = Rvc.reg c 7 := rfl
  have hrs2 : Compressed.crRs2 c = Rvc.reg c 2 := rfl
  rw [Compressed.expQ2100, hrd, hrs2] at hexp
  unfold Rvc.jumpOrMove
  by_cases hbit : bit c 12 = 0
  · rw [if_pos hbit] at hexp ⊢
    by_cases hzero2 : Rvc.reg c 2 = 0
    · rw [if_pos hzero2] at hexp ⊢
      by_cases hzero1 : Rvc.reg c 7 = 0
      · rw [if_pos hzero1] at hexp ⊢
        exact h.trap hexp
      · rw [if_neg hzero1] at hexp ⊢
        exact h.jalr hexp
    · have hx0 : regs Compressed.x0 = 0 := h.zero
      rw [if_neg hzero2] at hexp ⊢
      rw [h.op_rType hexp (by decide) .add rfl (by decide), hx0]
      exact congrArg (fun v => Rvc.write x.pc (Rvc.reg c 7) (.value v)) (BitVec.zero_add _)
  · rw [if_neg hbit] at hexp ⊢
    by_cases hzero2 : Rvc.reg c 2 = 0
    · by_cases hzero1 : Rvc.reg c 7 = 0
      · rw [if_pos ⟨hzero1, hzero2⟩] at hexp
        rw [if_pos hzero2, if_pos hzero1]
        exact Instr.effect_ebreak (h.inst.trans hexp)
      · rw [if_neg fun hboth => hzero1 hboth.left, if_pos hzero2] at hexp
        rw [if_pos hzero2, if_neg hzero1]
        exact h.jalr hexp
    · rw [if_neg fun hboth => hzero2 hboth.right, if_neg hzero2] at hexp
      rw [if_neg hzero2]
      exact h.op_rType hexp (by decide) .add rfl (by decide)

theorem signed_immTable : (((Rvc.immBits c 6 Rvc.immTable).signExtend 12).signExtend 64) =
    Rvc.signed c 6 Rvc.immTable :=
  signExtend_signExtend (by decide) (by decide) _

theorem luiTable_eq_zero_iff :
    Compressed.imm6 c = 0 <-> Rvc.immBits c 18 Rvc.luiTable = 0 := by
  rw [← Compressed.luiImm_eq]
  constructor
  · intro hzero
    rw [hzero]
    rfl
  · intro hzero
    have hhigh := congrArg (BitVec.extractLsb' 12 6) hzero
    rw [BitVec.extractLsb'_append_eq_left] at hhigh
    exact hhigh

/--
Loads of upper immediates and the adjustment of the stack pointer.
-/
theorem upper (h : Expands c regs x) (hop : op c = 0b01) (hf : f3 c = 0b011)
    (hexp : compressedExpander c = Compressed.expQ1High c)
    (hdec : Rvc.decode c =
      if Rvc.reg c 7 = 2 then
        if Rvc.immBits c 10 Rvc.addi16spTable = 0 then .reserved
        else .addi16sp (Rvc.signed c 10 Rvc.addi16spTable)
      else if Rvc.immBits c 18 Rvc.luiTable = 0 then .reserved
      else .lui (Rvc.reg c 7) (Rvc.signed c 18 Rvc.luiTable)) :
    x.effect fma lines = (Rvc.decode c).effect x.pc regs <-> ¬ Rvc.misexpanded c := by
  have hrd : Compressed.rdFull c = Rvc.reg c 7 := rfl
  have hbad : Rvc.misexpanded c <-> Rvc.reg c 7 = 0 ∧ Rvc.immBits c 18 Rvc.luiTable ≠ 0 := by
    simp [Rvc.misexpanded, hop, hf]
  rw [Compressed.expQ1High, hrd] at hexp
  rw [hdec, hbad]
  by_cases hsp : Rvc.reg c 7 = 2
  · have hgood : ¬ (Rvc.reg c 7 = 0 ∧ Rvc.immBits c 18 Rvc.luiTable ≠ 0) := by simp [hsp]
    rw [if_pos hsp] at hexp ⊢
    rw [Compressed.expAddi16sp, Compressed.c16spImm_eq] at hexp
    refine iff_of_true ?_ hgood
    by_cases hzero : Rvc.immBits c 10 Rvc.addi16spTable = 0
    · rw [if_pos hzero] at hexp ⊢
      exact h.trap hexp
    · rw [if_neg hzero] at hexp ⊢
      rw [h.addi hexp, signExtend_signExtend (by decide) (by decide)]
      rfl
  · rw [if_neg hsp] at hexp ⊢
    rw [Compressed.expLui, hrd] at hexp
    by_cases hzero : Rvc.immBits c 18 Rvc.luiTable = 0
    · rw [if_pos (Or.inr (Or.inr (luiTable_eq_zero_iff.mpr hzero)))] at hexp
      rw [if_pos hzero]
      exact iff_of_true (h.trap hexp) fun hboth => hboth.right hzero
    · rw [if_neg hzero]
      by_cases hx0 : Rvc.reg c 7 = 0
      · rw [if_pos (Or.inl hx0)] at hexp
        rw [h.trap hexp]
        exact iff_of_false Effect.noConfusion fun hneither => hneither ⟨hx0, hzero⟩
      · have hreal : ¬ (Rvc.reg c 7 = 0 ∨ Rvc.reg c 7 = 2 ∨ Compressed.imm6 c = 0) := by
          rintro (h0 | h2 | himm)
          · exact hx0 h0
          · exact hsp h2
          · exact hzero (luiTable_eq_zero_iff.mp himm)
        rw [if_neg hreal] at hexp
        rw [h.lui (by decide) (by decide) hexp, Compressed.luiImm_eq]
        exact iff_of_true rfl fun hboth => hx0 hboth.left

/--
The jump has its offset only when bits nine and ten are equal.
-/
theorem jump (h : Expands c regs x) (hexp : compressedExpander c = Compressed.expJ c) :
    x.effect fma lines = (Rvc.j (Rvc.signed c 12 Rvc.jumpTable)).effect x.pc regs <->
      c.getLsbD 9 = c.getLsbD 10 := by
  have heven (y : BitVec 11) : ((y ++ 0#1).signExtend 64).getLsbD 0 = false := by
    simp only [BitVec.getLsbD_signExtend, BitVec.getLsbD_append]
    rfl
  have hspec : (Rvc.signed c 12 Rvc.jumpTable).getLsbD 0 = false := by
    rw [Rvc.signed, BitVec.getLsbD_signExtend,
      Compressed.getLsbD_immBits c 12 Rvc.jumpTable (by decide : 0 < 12)]
    rfl
  have hoffset : (Compressed.cjOff c ++ 0#1).signExtend 64 = Rvc.signed c 12 Rvc.jumpTable <->
      c.getLsbD 9 = c.getLsbD 10 :=
    (signExtend_injective (by decide)).trans (Compressed.cjOff_eq_iff c)
  rw [h.jal (by decide) (by decide) (hexp.trans (expJ_eq c)), ← hoffset,
    ← evenAddress_add_inj x.pc (heven _) hspec]
  simp [Rvc.jump, Rvc.effect, destination, Compressed.x0]

theorem quadrant1 (h : Expands c regs x) (hop : op c = 0b01) :
    x.effect fma lines = (Rvc.decode c).effect x.pc regs <-> ¬ Rvc.misexpanded c := by
  have hexp : compressedExpander c = Compressed.q1 c := by
    rw [compressedExpander, if_neg (by rw [hop]; decide), if_pos hop]
  have hdec : Rvc.decode c = Rvc.quadrant1 c := by
    rw [Rvc.decode, if_neg (by rw [hop]; decide), if_pos hop]
  rcases f3_cases (f3 c) with hf | hf | hf | hf | hf | hf | hf | hf
  · have hgood : ¬ Rvc.misexpanded c := by simp [Rvc.misexpanded, hop, hf]
    have hform : compressedExpander c = iType ((Compressed.imm6 c).signExtend 12) (Rvc.reg c 7)
        0b000 (Rvc.reg c 7) opcodeI := by
      simp only [hexp, Compressed.q1, hf]
      rfl
    rw [Compressed.imm6_eq] at hform
    refine iff_of_true ?_ hgood
    rw [h.addi hform, signed_immTable, hdec, Rvc.quadrant1, if_pos hf]
    rfl
  · have hgood : ¬ Rvc.misexpanded c := by simp [Rvc.misexpanded, hop, hf]
    have hform : compressedExpander c = Compressed.expAddiw c := by
      simp only [hexp, Compressed.q1, hf]
      rfl
    have hspec : Rvc.decode c =
        if Rvc.reg c 7 = 0 then .reserved
        else .addiw (Rvc.reg c 7) (Rvc.signed c 6 Rvc.immTable) := by
      simp only [hdec, Rvc.quadrant1, hf]
      rfl
    have hrd : Compressed.rdFull c = Rvc.reg c 7 := rfl
    rw [Compressed.expAddiw, Compressed.imm6_eq, hrd] at hform
    refine iff_of_true ?_ hgood
    rw [hspec]
    by_cases hx0 : Rvc.reg c 7 = 0
    · rw [if_pos hx0] at hform ⊢
      exact h.trap hform
    · rw [if_neg hx0] at hform ⊢
      rw [h.addiw hform, signed_immTable]
      rfl
  · have hgood : ¬ Rvc.misexpanded c := by simp [Rvc.misexpanded, hop, hf]
    have hform : compressedExpander c = iType ((Compressed.imm6 c).signExtend 12) Compressed.x0
        0b000 (Rvc.reg c 7) opcodeI := by
      simp only [hexp, Compressed.q1, hf]
      rfl
    have hspec : Rvc.decode c = .li (Rvc.reg c 7) (Rvc.signed c 6 Rvc.immTable) := by
      simp only [hdec, Rvc.quadrant1, hf]
      rfl
    have hx0 : regs Compressed.x0 = 0 := h.zero
    rw [Compressed.imm6_eq] at hform
    refine iff_of_true ?_ hgood
    rw [h.addi hform, signed_immTable, hspec, hx0]
    exact congrArg (fun v => Rvc.write x.pc (Rvc.reg c 7) (.value v)) (BitVec.zero_add _)
  · have hform : compressedExpander c = Compressed.expQ1High c := by
      simp only [hexp, Compressed.q1, hf]
      rfl
    refine h.upper hop hf hform ?_
    simp only [hdec, Rvc.quadrant1, hf]
    rfl
  · have hgood : ¬ Rvc.misexpanded c := by simp [Rvc.misexpanded, hop, hf]
    have hform : compressedExpander c = Compressed.expArith c := by
      simp only [hexp, Compressed.q1, hf]
      rfl
    have hspec : Rvc.decode c = Rvc.arith c := by
      simp only [hdec, Rvc.quadrant1, hf]
      rfl
    rw [hspec]
    exact iff_of_true (h.arith hform) hgood
  · have hbad : Rvc.misexpanded c <-> c.getLsbD 9 ≠ c.getLsbD 10 := by
      simp [Rvc.misexpanded, hop, hf]
    have hform : compressedExpander c = Compressed.expJ c := by
      simp only [hexp, Compressed.q1, hf]
      rfl
    have hspec : Rvc.decode c = .j (Rvc.signed c 12 Rvc.jumpTable) := by
      simp only [hdec, Rvc.quadrant1, hf]
      rfl
    rw [hspec, hbad, not_not]
    exact h.jump hform
  · have hgood : ¬ Rvc.misexpanded c := by simp [Rvc.misexpanded, hop, hf]
    have hform : compressedExpander c = Compressed.expBranch c 0b000 := by
      simp only [hexp, Compressed.q1, hf]
      rfl
    have hspec : Rvc.decode c = .beqz (Rvc.shortReg c 7) (Rvc.signed c 9 Rvc.branchTable) := by
      simp only [hdec, Rvc.quadrant1, hf]
      rfl
    refine iff_of_true ?_ hgood
    rw [h.branch (by decide) (by decide) (hform.trans (expBranch_eq c _)), Compressed.cbOff_eq,
      hspec]
    rfl
  · have hgood : ¬ Rvc.misexpanded c := by simp [Rvc.misexpanded, hop, hf]
    have hform : compressedExpander c = Compressed.expBranch c 0b001 := by
      simp only [hexp, Compressed.q1, hf]
      rfl
    have hspec : Rvc.decode c = .bnez (Rvc.shortReg c 7) (Rvc.signed c 9 Rvc.branchTable) := by
      simp only [hdec, Rvc.quadrant1, hf]
      rfl
    have hne (a : BitVec 64) : decide (a ≠ 0) = (a != 0) := by
      rw [Bool.eq_iff_iff]
      simp
    refine iff_of_true ?_ hgood
    rw [h.branch (by decide) (by decide) (hform.trans (expBranch_eq c _)), Compressed.cbOff_eq,
      hspec]
    exact congrArg (fun taken => Rvc.branch x.pc taken _) (hne _)

theorem quadrant2 (h : Expands c regs x) (hop : op c = 0b10)
    (hinteger : Rvc.decode c ≠ .float) :
    x.effect fma lines = (Rvc.decode c).effect x.pc regs <-> ¬ Rvc.misexpanded c := by
  have hexp : compressedExpander c = Compressed.q2 c := by
    rw [compressedExpander, if_neg (by rw [hop]; decide), if_neg (by rw [hop]; decide), if_pos hop]
  have hdec : Rvc.decode c = Rvc.quadrant2 c := by
    rw [Rvc.decode, if_neg (by rw [hop]; decide), if_neg (by rw [hop]; decide)]
  have hrd : Compressed.rdFull c = Rvc.reg c 7 := rfl
  rcases f3_cases (f3 c) with hf | hf | hf | hf | hf | hf | hf | hf
  · have hbad : Rvc.misexpanded c <-> Rvc.reg c 7 = 0 := by simp [Rvc.misexpanded, hop, hf]
    have hform : compressedExpander c = Compressed.expSlli c := by
      simp only [hexp, Compressed.q2, hf]
      rfl
    have hspec : Rvc.decode c = .slli (Rvc.reg c 7) (Rvc.immBits c 6 Rvc.immTable) := by
      simp only [hdec, Rvc.quadrant2, hf]
      rfl
    rw [Compressed.expSlli, Compressed.imm6_eq, hrd] at hform
    rw [hspec, hbad]
    by_cases hx0 : Rvc.reg c 7 = 0
    · rw [if_pos hx0] at hform
      rw [h.trap hform]
      exact iff_of_false Effect.noConfusion fun hreal => hreal hx0
    · rw [if_neg hx0] at hform
      rw [h.slli hform]
      exact iff_of_true rfl hx0
  · exact absurd (by simp [hdec, Rvc.quadrant2, hf]) hinteger
  · have hbad : Rvc.misexpanded c <-> Rvc.reg c 7 ≠ 0 ∧ c.getLsbD 3 = true := by
      simp [Rvc.misexpanded, hop, hf]
    have hform : compressedExpander c = Compressed.expLwsp c := by
      simp only [hexp, Compressed.q2, hf]
      rfl
    have hspec : Rvc.decode c =
        if Rvc.reg c 7 = 0 then .reserved
        else .lwsp (Rvc.reg c 7) (Rvc.unsigned c 8 Rvc.lwspTable) := by
      simp only [hdec, Rvc.quadrant2, hf]
      rfl
    rw [Compressed.expLwsp, Compressed.clwspImm_eq, hrd] at hform
    rw [hspec, hbad, not_and, Bool.not_eq_true]
    by_cases hx0 : Rvc.reg c 7 = 0
    · rw [if_pos hx0] at hform ⊢
      exact iff_of_true (h.trap hform) fun hreal => absurd hx0 hreal
    · rw [if_neg hx0] at hform ⊢
      have hiff : x.effect fma lines = _ <-> _ := h.load_iff (by decide) hx0 hform
        (Compressed.msb_lwspTable c)
      exact hiff.trans ⟨fun hbit _ => hbit, fun hbit => hbit hx0⟩
  · have hbad : Rvc.misexpanded c <-> Rvc.reg c 7 ≠ 0 ∧ c.getLsbD 4 = true := by
      simp [Rvc.misexpanded, hop, hf]
    have hform : compressedExpander c = Compressed.expLdsp c := by
      simp only [hexp, Compressed.q2, hf]
      rfl
    have hspec : Rvc.decode c =
        if Rvc.reg c 7 = 0 then .reserved
        else .ldsp (Rvc.reg c 7) (Rvc.unsigned c 9 Rvc.ldspTable) := by
      simp only [hdec, Rvc.quadrant2, hf]
      rfl
    rw [Compressed.expLdsp, Compressed.cldspImm_eq, hrd] at hform
    rw [hspec, hbad, not_and, Bool.not_eq_true]
    by_cases hx0 : Rvc.reg c 7 = 0
    · rw [if_pos hx0] at hform ⊢
      exact iff_of_true (h.trap hform) fun hreal => absurd hx0 hreal
    · rw [if_neg hx0] at hform ⊢
      have hiff : x.effect fma lines = _ <-> _ := h.load_iff (by decide) hx0 hform
        (Compressed.msb_ldspTable c)
      exact hiff.trans ⟨fun hbit _ => hbit, fun hbit => hbit hx0⟩
  · have hgood : ¬ Rvc.misexpanded c := by simp [Rvc.misexpanded, hop, hf]
    have hform : compressedExpander c = Compressed.expQ2100 c := by
      simp only [hexp, Compressed.q2, hf]
      rfl
    have hspec : Rvc.decode c = Rvc.jumpOrMove c := by
      simp only [hdec, Rvc.quadrant2, hf]
      rfl
    rw [hspec]
    exact iff_of_true (h.jumpOrMove hform) hgood
  · exact absurd (by simp [hdec, Rvc.quadrant2, hf]) hinteger
  · have hbad : Rvc.misexpanded c <-> c.getLsbD 8 = true := by simp [Rvc.misexpanded, hop, hf]
    have hform : compressedExpander c = sType ((Compressed.cswspImm c).signExtend 12)
        (Rvc.reg c 2) Compressed.sp 0b010 opcodeStore := by
      simp only [hexp, Compressed.q2, hf]
      rfl
    have hspec : Rvc.decode c = .swsp (Rvc.reg c 2) (Rvc.unsigned c 8 Rvc.swspTable) := by
      simp only [hdec, Rvc.quadrant2, hf]
      rfl
    rw [Compressed.cswspImm_eq] at hform
    rw [hspec, hbad, Bool.not_eq_true]
    exact h.store_iff (by decide) hform (Compressed.msb_swspTable c)
  · have hbad : Rvc.misexpanded c <-> c.getLsbD 9 = true := by simp [Rvc.misexpanded, hop, hf]
    have hform : compressedExpander c = sType ((Compressed.csdspImm c).signExtend 12)
        (Rvc.reg c 2) Compressed.sp 0b011 opcodeStore := by
      simp only [hexp, Compressed.q2, hf]
      rfl
    have hspec : Rvc.decode c = .sdsp (Rvc.reg c 2) (Rvc.unsigned c 9 Rvc.sdspTable) := by
      simp only [hdec, Rvc.quadrant2, hf]
      rfl
    rw [Compressed.csdspImm_eq] at hform
    rw [hspec, hbad, Bool.not_eq_true]
    exact h.store_iff (by decide) hform (Compressed.msb_sdspTable c)

/--
A word of the first three quadrants has the effect of the manual unless its expansion
departs.
-/
theorem effect_iff (h : Expands c regs x) (hop : op c ≠ 0b11) (hinteger : Rvc.decode c ≠ .float) :
    x.effect fma lines = (Rvc.decode c).effect x.pc regs <-> ¬ Rvc.misexpanded c := by
  rcases pair_cases (op c) with hq | hq | hq | hq
  · exact h.quadrant0 hq hinteger
  · exact h.quadrant1 hq
  · exact h.quadrant2 hq hinteger
  · exact absurd hq hop

end Expands
end Pipe
end RvCores
