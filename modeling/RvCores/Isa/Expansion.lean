import Mathlib.Tactic.IntervalCases
import RvCores.Isa.Rvc

/-!
# Immediates through the expander

The expander puts the bits of a compressed immediate into a standard format, and the
immediate generator takes them out again.
-/

namespace RvCores
namespace Isa

/-!
# Fields of a format
-/

section

variable (f7 : BitVec 7) (rs2 rs1 : BitVec 5) (f3 : BitVec 3) (rd : BitVec 5)
  (opcode : BitVec 7)

theorem opcode_rType : (rType f7 rs2 rs1 f3 rd opcode).opcode = opcode := by
  simp (disch := omega) only [Word.opcode, rType, BitVec.extractLsb,
    BitVec.extractLsb'_append_eq_of_add_le]
  exact BitVec.extractLsb'_eq_self

theorem rd_rType : (rType f7 rs2 rs1 f3 rd opcode).rd = rd := by
  simp (disch := omega) only [Word.rd, rType, BitVec.extractLsb,
    BitVec.extractLsb'_append_eq_of_add_le, BitVec.extractLsb'_append_eq_of_le]
  exact BitVec.extractLsb'_eq_self

theorem funct3_rType : (rType f7 rs2 rs1 f3 rd opcode).funct3 = f3 := by
  simp (disch := omega) only [Word.funct3, rType, BitVec.extractLsb,
    BitVec.extractLsb'_append_eq_of_add_le, BitVec.extractLsb'_append_eq_of_le]
  exact BitVec.extractLsb'_eq_self

theorem rs1_rType : (rType f7 rs2 rs1 f3 rd opcode).rs1 = rs1 := by
  simp (disch := omega) only [Word.rs1, rType, BitVec.extractLsb,
    BitVec.extractLsb'_append_eq_of_add_le, BitVec.extractLsb'_append_eq_of_le]
  exact BitVec.extractLsb'_eq_self

theorem rs2_rType : (rType f7 rs2 rs1 f3 rd opcode).rs2 = rs2 := by
  simp (disch := omega) only [Word.rs2, rType, BitVec.extractLsb,
    BitVec.extractLsb'_append_eq_of_add_le, BitVec.extractLsb'_append_eq_of_le]
  exact BitVec.extractLsb'_eq_self

theorem funct7_rType : (rType f7 rs2 rs1 f3 rd opcode).funct7 = f7 := by
  simp (disch := omega) only [Word.funct7, rType, BitVec.extractLsb,
    BitVec.extractLsb'_append_eq_of_le]
  exact BitVec.extractLsb'_eq_self

end

section

variable (imm : BitVec 12) (rs2 rs1 : BitVec 5) (f3 : BitVec 3) (rd : BitVec 5)
  (opcode : BitVec 7)

theorem iType_eq :
    iType imm rs1 f3 rd opcode =
      rType (imm.extractLsb' 5 7) (imm.extractLsb' 0 5) rs1 f3 rd opcode := by
  have himm : imm.extractLsb' 5 7 ++ imm.extractLsb' 0 5 = imm :=
    @BitVec.extractLsb'_append_extractLsb' 7 5 imm
  unfold iType rType
  rw [himm]

theorem sType_eq :
    sType imm rs2 rs1 f3 opcode =
      rType (imm.extractLsb' 5 7) rs2 rs1 f3 (imm.extractLsb' 0 5) opcode := rfl

end

def uType (imm : BitVec 20) (rd : BitVec 5) (opcode : BitVec 7) : Word := imm ++ rd ++ opcode

section

variable (imm : BitVec 20) (rd : BitVec 5) (opcode : BitVec 7)

theorem opcode_uType : (uType imm rd opcode).opcode = opcode := by
  simp (disch := omega) only [Word.opcode, uType, BitVec.extractLsb,
    BitVec.extractLsb'_append_eq_of_add_le]
  exact BitVec.extractLsb'_eq_self

theorem rd_uType : (uType imm rd opcode).rd = rd := by
  simp (disch := omega) only [Word.rd, uType, BitVec.extractLsb,
    BitVec.extractLsb'_append_eq_of_add_le, BitVec.extractLsb'_append_eq_of_le]
  exact BitVec.extractLsb'_eq_self

theorem uImm_uType : (uType imm rd opcode).extractLsb 31 12 = imm := by
  simp (disch := omega) only [uType, BitVec.extractLsb, BitVec.extractLsb'_append_eq_of_le]
  exact BitVec.extractLsb'_eq_self

end

/-!
# Branches and jumps
-/

def bType (imm : BitVec 12) (rs2 rs1 : BitVec 5) (f3 : BitVec 3) (opcode : BitVec 7) : Word :=
  rType (imm.extractLsb' 11 1 ++ imm.extractLsb' 4 6) rs2 rs1 f3
    (imm.extractLsb' 0 4 ++ imm.extractLsb' 10 1) opcode

def jType (imm : BitVec 20) (rd : BitVec 5) (opcode : BitVec 7) : Word :=
  uType (imm.extractLsb' 19 1 ++ imm.extractLsb' 0 10 ++ imm.extractLsb' 10 1 ++
    imm.extractLsb' 11 8) rd opcode

theorem expJ_eq (c : BitVec 16) :
    Compressed.expJ c =
      jType ((Compressed.cjOff c).signExtend 20) Compressed.x0 opcodeJal := rfl

theorem extractLsb'_signExtend {n v v' lo len : Nat} (x : BitVec n) (hv : lo + len <= v)
    (hv' : lo + len <= v') :
    (x.signExtend v).extractLsb' lo len = (x.signExtend v').extractLsb' lo len := by
  apply BitVec.eq_of_getLsbD_eq
  intro i hi
  have hlt : lo + i < v := by omega
  have hlt' : lo + i < v' := by omega
  simp only [BitVec.getLsbD_extractLsb', BitVec.getLsbD_signExtend, hlt, hlt']

theorem expBranch_eq (c : BitVec 16) (f3 : BitVec 3) :
    Compressed.expBranch c f3 =
      bType ((Compressed.cbOff c).signExtend 12) Compressed.x0 (Compressed.rdCRs1C c) f3
        opcodeBranch := by
  have hslice (lo len : Nat) (h : lo + len <= 12) :=
    extractLsb'_signExtend (Compressed.cbOff c) (by omega : lo + len <= 20) h
  simp only [Compressed.expBranch, bType, rType]
  rw [hslice 11 1 (by decide), hslice 4 6 (by decide), hslice 0 4 (by decide),
    hslice 10 1 (by decide)]
  exact congrArg (· ++ opcodeBranch) BitVec.append_assoc

/-!
# The immediate generator at 64 bits
-/

variable {inst : Word}

theorem immGen_opcodeI (hop : inst.opcode = opcodeI) (hleft : inst.funct3 ≠ 0b001)
    (hright : inst.funct3 ≠ 0b101) :
    immGen 64 inst = (inst.extractLsb 31 20 : BitVec 12).signExtend 64 := by
  simp only [immGen, hop, decide_eq_false hleft, decide_eq_false hright]
  rfl

theorem immGen_shift (hop : inst.opcode = opcodeI)
    (hshift : inst.funct3 = 0b001 ∨ inst.funct3 = 0b101) :
    immGen 64 inst = (inst.extractLsb 25 20 : BitVec 6).setWidth 64 := by
  rcases hshift with h | h <;> simp only [immGen, hop, h] <;> rfl

theorem immGen_opImm32 (hop : inst.opcode = opcodeOpImm32) (hadd : inst.funct3 = 0b000) :
    immGen 64 inst = (inst.extractLsb 31 20 : BitVec 12).signExtend 64 := by
  simp only [immGen, hop, hadd]
  rfl

theorem immGen_load (hop : inst.opcode = opcodeLoad) :
    immGen 64 inst = (inst.extractLsb 31 20 : BitVec 12).signExtend 64 := by
  simp only [immGen, hop]
  rfl

theorem immGen_store (hop : inst.opcode = opcodeStore) :
    immGen 64 inst = (inst.funct7 ++ inst.rd).signExtend 64 := by
  simp only [immGen, hop]
  rfl

theorem immGen_jalr (hop : inst.opcode = opcodeJalr) :
    immGen 64 inst = (inst.extractLsb 31 20 : BitVec 12).signExtend 64 := by
  simp only [immGen, hop]
  rfl

theorem immGen_lui (hop : inst.opcode = opcodeLui) :
    immGen 64 inst = ((inst.extractLsb 31 12 : BitVec 20) ++ 0#12).signExtend 64 := by
  simp only [immGen, hop]
  rfl

theorem immGen_branch (hop : inst.opcode = opcodeBranch) :
    immGen 64 inst =
      (((inst.extractLsb 31 31 : BitVec 1) ++ (inst.extractLsb 7 7 : BitVec 1) ++
        (inst.extractLsb 30 25 : BitVec 6) ++
        (inst.extractLsb 11 8 : BitVec 4)).signExtend 63).setWidth 64 := by
  simp only [immGen, hop]
  rfl

theorem immGen_jal (hop : inst.opcode = opcodeJal) :
    immGen 64 inst =
      (((inst.extractLsb 31 31 : BitVec 1) ++ (inst.extractLsb 19 12 : BitVec 8) ++
        (inst.extractLsb 20 20 : BitVec 1) ++
        (inst.extractLsb 30 21 : BitVec 10)).signExtend 63).setWidth 64 := by
  simp only [immGen, hop]
  rfl

theorem immGen_bType (imm : BitVec 12) (rs2 rs1 : BitVec 5) (f3 : BitVec 3) :
    immGen 64 (bType imm rs2 rs1 f3 opcodeBranch) = (imm.signExtend 63).setWidth 64 := by
  have himm :
      imm.extractLsb' 11 1 ++ imm.extractLsb' 10 1 ++ imm.extractLsb' 4 6 ++ imm.extractLsb' 0 4 =
        imm := by
    simp only [BitVec.extractLsb'_append_extractLsb'_eq_extractLsb']
    exact BitVec.extractLsb'_eq_self
  have hop : (bType imm rs2 rs1 f3 opcodeBranch).opcode = opcodeBranch := opcode_rType ..
  rw [immGen_branch hop]
  simp (disch := omega) only [bType, rType, BitVec.extractLsb,
    BitVec.extractLsb'_append_eq_of_add_le, BitVec.extractLsb'_append_eq_of_le]
  simp only [Nat.reduceAdd, Nat.reduceSub, BitVec.extractLsb'_eq_self]
  rw [himm]

theorem immGen_jType (imm : BitVec 20) (rd : BitVec 5) :
    immGen 64 (jType imm rd opcodeJal) = (imm.signExtend 63).setWidth 64 := by
  have himm :
      imm.extractLsb' 19 1 ++ imm.extractLsb' 11 8 ++ imm.extractLsb' 10 1 ++
        imm.extractLsb' 0 10 = imm := by
    simp only [BitVec.extractLsb'_append_extractLsb'_eq_extractLsb']
    exact BitVec.extractLsb'_eq_self
  have hop : (jType imm rd opcodeJal).opcode = opcodeJal := opcode_uType ..
  rw [immGen_jal hop]
  simp (disch := omega) only [jType, uType, BitVec.extractLsb,
    BitVec.extractLsb'_append_eq_of_add_le, BitVec.extractLsb'_append_eq_of_le]
  simp only [Nat.reduceAdd, Nat.reduceSub, BitVec.extractLsb'_eq_self]
  rw [himm]

/--
The halved immediate shifted back.
-/
theorem shifted_offset {n : Nat} (hpos : 0 < n) (x : BitVec n) :
    ((x.signExtend 63).setWidth 64) <<< 1 = (x ++ 0#1).signExtend 64 := by
  apply BitVec.eq_of_getLsbD_eq
  intro i hi
  have hn0 : n ≠ 0 := Nat.ne_of_gt hpos
  simp only [BitVec.getLsbD_shiftLeft, BitVec.getLsbD_setWidth, BitVec.getLsbD_signExtend,
    BitVec.getLsbD_append, BitVec.msb_append, hi, hn0, decide_true, Bool.true_and, if_false]
  cases i with
  | zero =>
      simp
  | succ i =>
      have hlt : i < 63 := by omega
      have hlt' : i < 64 := by omega
      simp [hlt, hlt']

/-!
# Extensions
-/

theorem signExtend_signExtend {n m k : Nat} (hnm : n <= m) (hmk : m <= k) (x : BitVec n) :
    (x.signExtend m).signExtend k = x.signExtend k := by
  apply BitVec.eq_of_toInt_eq
  rw [BitVec.toInt_signExtend_of_le hmk, BitVec.toInt_signExtend_of_le hnm,
    BitVec.toInt_signExtend_of_le (hnm.trans hmk)]

theorem signExtend_injective {n m : Nat} (hnm : n <= m) {x y : BitVec n} :
    x.signExtend m = y.signExtend m <-> x = y := by
  constructor
  · intro heq
    have hint := congrArg BitVec.toInt heq
    rw [BitVec.toInt_signExtend_of_le hnm, BitVec.toInt_signExtend_of_le hnm] at hint
    exact BitVec.eq_of_toInt_eq hint
  · exact congrArg _

/--
The two extensions agree on the values without a sign.
-/
theorem signExtend_eq_setWidth_iff {n m : Nat} (hnm : n < m) (x : BitVec n) :
    x.signExtend m = x.setWidth m <-> x.msb = false := by
  constructor
  · intro heq
    have hbit : (x.signExtend m).getLsbD n = (x.setWidth m).getLsbD n := by rw [heq]
    rwa [BitVec.getLsbD_signExtend, BitVec.getLsbD_setWidth, if_neg (Nat.lt_irrefl n),
      BitVec.getLsbD_of_ge x n (Nat.le_refl n), decide_eq_true hnm, Bool.true_and,
      Bool.and_false] at hbit
  · exact BitVec.signExtend_eq_setWidth_of_msb_false

/-!
# The tables of the manual

Each immediate of the expander has the bits of its table, the jump excepted.
-/

namespace Compressed

open Rvc

variable (c : BitVec 16)

theorem getLsbD_immBits (n : Nat) (table : List (Nat × Nat)) {i : Nat} (hi : i < n) :
    (immBits c n table).getLsbD i =
      table.any fun e => decide (e.2 = i) && c.getLsbD e.1 := by
  induction table with
  | nil => simp [immBits]
  | cons e table ih =>
      have htail : (immBits c n (e :: table)).getLsbD i =
          (((c.extractLsb' e.1 1).setWidth n <<< e.2).getLsbD i || (immBits c n table).getLsbD i) :=
        BitVec.getLsbD_or
      rw [htail, ih, List.any_cons, BitVec.getLsbD_shiftLeft, BitVec.getLsbD_setWidth,
        BitVec.getLsbD_extractLsb']
      congr 1
      by_cases heq : e.2 = i
      · simp [heq, hi]
        omega
      · by_cases hlt : i < e.2
        · simp [heq, hlt]
        · have hfar : ¬ i - e.2 < 1 := by omega
          simp [heq, hfar]

theorem ciwImm_eq : ciwImm c = immBits c 10 addi4spnTable := by
  apply BitVec.eq_of_getLsbD_eq
  intro i hi
  rw [getLsbD_immBits c 10 addi4spnTable hi]
  simp only [ciwImm, bit, addi4spnTable, BitVec.getLsbD_append, BitVec.getLsbD_extractLsb',
    BitVec.getLsbD_zero, List.any_cons, List.any_nil]
  interval_cases i <;> simp

theorem clLwImm_eq : clLwImm c = immBits c 7 wordTable := by
  apply BitVec.eq_of_getLsbD_eq
  intro i hi
  rw [getLsbD_immBits c 7 wordTable hi]
  simp only [clLwImm, bit, wordTable, BitVec.getLsbD_append, BitVec.getLsbD_extractLsb',
    BitVec.getLsbD_zero, List.any_cons, List.any_nil]
  interval_cases i <;> simp

theorem clLdImm_eq : clLdImm c = immBits c 8 doubleTable := by
  apply BitVec.eq_of_getLsbD_eq
  intro i hi
  rw [getLsbD_immBits c 8 doubleTable hi]
  simp only [clLdImm, doubleTable, BitVec.getLsbD_append, BitVec.getLsbD_extractLsb',
    BitVec.getLsbD_zero, List.any_cons, List.any_nil]
  interval_cases i <;> simp

theorem imm6_eq : imm6 c = immBits c 6 immTable := by
  apply BitVec.eq_of_getLsbD_eq
  intro i hi
  rw [getLsbD_immBits c 6 immTable hi]
  simp only [imm6, bit, immTable, BitVec.getLsbD_append, BitVec.getLsbD_extractLsb',
    List.any_cons, List.any_nil]
  interval_cases i <;> simp

theorem c16spImm_eq : c16spImm c = immBits c 10 addi16spTable := by
  apply BitVec.eq_of_getLsbD_eq
  intro i hi
  rw [getLsbD_immBits c 10 addi16spTable hi]
  simp only [c16spImm, bit, addi16spTable, BitVec.getLsbD_append, BitVec.getLsbD_extractLsb',
    BitVec.getLsbD_zero, List.any_cons, List.any_nil]
  interval_cases i <;> simp

theorem luiImm_eq : imm6 c ++ 0#12 = immBits c 18 luiTable := by
  apply BitVec.eq_of_getLsbD_eq
  intro i hi
  rw [getLsbD_immBits c 18 luiTable hi]
  simp only [imm6, bit, luiTable, BitVec.getLsbD_append, BitVec.getLsbD_extractLsb',
    BitVec.getLsbD_zero, List.any_cons, List.any_nil]
  interval_cases i <;> simp

theorem cbOff_eq : cbOff c ++ 0#1 = immBits c 9 Rvc.branchTable := by
  apply BitVec.eq_of_getLsbD_eq
  intro i hi
  rw [getLsbD_immBits c 9 Rvc.branchTable hi]
  simp only [cbOff, bit, Rvc.branchTable, BitVec.getLsbD_append, BitVec.getLsbD_extractLsb',
    BitVec.getLsbD_zero, List.any_cons, List.any_nil]
  interval_cases i <;> simp

theorem clwspImm_eq : clwspImm c = immBits c 8 lwspTable := by
  apply BitVec.eq_of_getLsbD_eq
  intro i hi
  rw [getLsbD_immBits c 8 lwspTable hi]
  simp only [clwspImm, bit, lwspTable, BitVec.getLsbD_append, BitVec.getLsbD_extractLsb',
    BitVec.getLsbD_zero, List.any_cons, List.any_nil]
  interval_cases i <;> simp

theorem cldspImm_eq : cldspImm c = immBits c 9 ldspTable := by
  apply BitVec.eq_of_getLsbD_eq
  intro i hi
  rw [getLsbD_immBits c 9 ldspTable hi]
  simp only [cldspImm, bit, ldspTable, BitVec.getLsbD_append, BitVec.getLsbD_extractLsb',
    BitVec.getLsbD_zero, List.any_cons, List.any_nil]
  interval_cases i <;> simp

theorem cswspImm_eq : cswspImm c = immBits c 8 swspTable := by
  apply BitVec.eq_of_getLsbD_eq
  intro i hi
  rw [getLsbD_immBits c 8 swspTable hi]
  simp only [cswspImm, swspTable, BitVec.getLsbD_append, BitVec.getLsbD_extractLsb',
    BitVec.getLsbD_zero, List.any_cons, List.any_nil]
  interval_cases i <;> simp

theorem csdspImm_eq : csdspImm c = immBits c 9 sdspTable := by
  apply BitVec.eq_of_getLsbD_eq
  intro i hi
  rw [getLsbD_immBits c 9 sdspTable hi]
  simp only [csdspImm, sdspTable, BitVec.getLsbD_append, BitVec.getLsbD_extractLsb',
    BitVec.getLsbD_zero, List.any_cons, List.any_nil]
  interval_cases i <;> simp

/--
The jump has bits eight and nine the other way round.
-/
theorem cjOff_eq_iff :
    cjOff c ++ 0#1 = immBits c 12 jumpTable <-> c.getLsbD 9 = c.getLsbD 10 := by
  constructor
  · intro heq
    have hbit : (cjOff c ++ 0#1).getLsbD 9 = (immBits c 12 jumpTable).getLsbD 9 := by rw [heq]
    rw [getLsbD_immBits c 12 jumpTable (by decide)] at hbit
    simp only [cjOff, bit, jumpTable, BitVec.getLsbD_append, BitVec.getLsbD_extractLsb',
      List.any_cons, List.any_nil] at hbit
    simpa using hbit
  · intro hsame
    apply BitVec.eq_of_getLsbD_eq
    intro i hi
    rw [getLsbD_immBits c 12 jumpTable hi]
    simp only [cjOff, bit, jumpTable, BitVec.getLsbD_append, BitVec.getLsbD_extractLsb',
      BitVec.getLsbD_zero, List.any_cons, List.any_nil]
    interval_cases i <;> simp_all

/-!
# Offsets of loads and stores
-/

/--
The offset of a load or store as the immediate generator gives it, against the offset of
the manual.
-/
theorem offset_eq_iff {n top : Nat} (hn : n <= 12) {table : List (Nat × Nat)}
    (htop : (immBits c n table).msb = c.getLsbD top) :
    ((immBits c n table).signExtend 12).signExtend 64 = unsigned c n table <->
      c.getLsbD top = false := by
  rw [signExtend_signExtend hn (by decide), unsigned, signExtend_eq_setWidth_iff (by omega), htop]

theorem msb_wordTable : (immBits c 7 wordTable).msb = c.getLsbD 5 := by
  rw [BitVec.msb_eq_getLsbD_last, getLsbD_immBits c 7 wordTable (by decide)]
  simp [wordTable]

theorem msb_doubleTable : (immBits c 8 doubleTable).msb = c.getLsbD 6 := by
  rw [BitVec.msb_eq_getLsbD_last, getLsbD_immBits c 8 doubleTable (by decide)]
  simp [doubleTable]

theorem msb_lwspTable : (immBits c 8 lwspTable).msb = c.getLsbD 3 := by
  rw [BitVec.msb_eq_getLsbD_last, getLsbD_immBits c 8 lwspTable (by decide)]
  simp [lwspTable]

theorem msb_ldspTable : (immBits c 9 ldspTable).msb = c.getLsbD 4 := by
  rw [BitVec.msb_eq_getLsbD_last, getLsbD_immBits c 9 ldspTable (by decide)]
  simp [ldspTable]

theorem msb_swspTable : (immBits c 8 swspTable).msb = c.getLsbD 8 := by
  rw [BitVec.msb_eq_getLsbD_last, getLsbD_immBits c 8 swspTable (by decide)]
  simp [swspTable]

theorem msb_sdspTable : (immBits c 9 sdspTable).msb = c.getLsbD 9 := by
  rw [BitVec.msb_eq_getLsbD_last, getLsbD_immBits c 9 sdspTable (by decide)]
  simp [sdspTable]

end Compressed
end Isa
end RvCores
