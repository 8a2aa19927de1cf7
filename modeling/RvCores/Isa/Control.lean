import Mathlib.Data.List.Basic

/-!
# Instruction fields and the main decoder

Both cores share one decoder.  Its outputs are one record of control signals;
every signal is off unless the opcode turns it on.
-/

namespace RvCores
namespace Isa

abbrev Word := BitVec 32

namespace Word

def opcode (inst : Word) : BitVec 7 := inst.extractLsb 6 0
def rd (inst : Word) : BitVec 5 := inst.extractLsb 11 7
def funct3 (inst : Word) : BitVec 3 := inst.extractLsb 14 12
def rs1 (inst : Word) : BitVec 5 := inst.extractLsb 19 15
def rs2 (inst : Word) : BitVec 5 := inst.extractLsb 24 20
def funct7 (inst : Word) : BitVec 7 := inst.extractLsb 31 25
def funct5 (inst : Word) : BitVec 5 := inst.extractLsb 31 27
def csrImm12 (inst : Word) : BitVec 12 := inst.extractLsb 31 20

end Word

/-!
# Opcodes
-/

def opcodeR : BitVec 7 := 0b0110011
def opcodeI : BitVec 7 := 0b0010011
def opcodeLoad : BitVec 7 := 0b0000011
def opcodeStore : BitVec 7 := 0b0100011
def opcodeBranch : BitVec 7 := 0b1100011
def opcodeJal : BitVec 7 := 0b1101111
def opcodeJalr : BitVec 7 := 0b1100111
def opcodeLui : BitVec 7 := 0b0110111
def opcodeAuipc : BitVec 7 := 0b0010111
def opcodeSystem : BitVec 7 := 0b1110011
def opcodeMiscMem : BitVec 7 := 0b0001111
def opcodeAmo : BitVec 7 := 0b0101111
def opcodeOp32 : BitVec 7 := 0b0111011
def opcodeOpImm32 : BitVec 7 := 0b0011011
def opcodeFp : BitVec 7 := 0b1010011
def opcodeLoadFp : BitVec 7 := 0b0000111
def opcodeStoreFp : BitVec 7 := 0b0100111
def opcodeMadd : BitVec 7 := 0b1000011
def opcodeMsub : BitVec 7 := 0b1000111
def opcodeNmsub : BitVec 7 := 0b1001011
def opcodeNmadd : BitVec 7 := 0b1001111
def opcodeV : BitVec 7 := 0b1010111

def csrF3None : BitVec 3 := 0b000
def funct7SfenceVma : BitVec 7 := 0b0001001
def csrImm12Ecall : BitVec 12 := 0x000
def csrImm12Ebreak : BitVec 12 := 0x001
def csrImm12Mret : BitVec 12 := 0x302
def csrImm12Sret : BitVec 12 := 0x102
def funct5Fcmp : BitVec 5 := 0b10100
def funct5FcvtWS : BitVec 5 := 0b11000
def funct5FmvXWFclass : BitVec 5 := 0b11100
def f3Vopcfg : BitVec 3 := 0b111
def f3Opivv : BitVec 3 := 0b000
def f3Opivx : BitVec 3 := 0b100
def f3Opivi : BitVec 3 := 0b011

/-!
# Control signals
-/

inductive AluOp where
  | loadStore
  | branch
  | rtype
  | itype
deriving DecidableEq, Repr

structure Ctrl where
  branch : Bool := false
  memRead : Bool := false
  memtoReg : Bool := false
  aluOp : AluOp := .loadStore
  memWrite : Bool := false
  aluSrc : Bool := false
  regWrite : Bool := false
  jump : Bool := false
  jalr : Bool := false
  lui : Bool := false
  auipc : Bool := false
  isCsr : Bool := false
  isEcall : Bool := false
  isEbreak : Bool := false
  isMret : Bool := false
  isSret : Bool := false
  isSfenceVma : Bool := false
  isFence : Bool := false
  isAmo : Bool := false
  isVecCfg : Bool := false
  isVecArith : Bool := false
  isVecLoad : Bool := false
  isVecStore : Bool := false
  illegalOpcode : Bool := false
  fRegWrite : Bool := false
deriving DecidableEq, Repr

def Ctrl.illegal : Ctrl := { illegalOpcode := true }

def vecWidthFunct3 (f3 : BitVec 3) : Bool :=
  decide (f3 = 0b000) || decide (f3 = 0b101) || decide (f3 = 0b110) ||
    decide (f3 = 0b111)

def controlSystem (inst : Word) : Ctrl :=
  if inst.funct3 = csrF3None then
    if inst.funct7 = funct7SfenceVma then { isSfenceVma := true }
    else if inst.csrImm12 = csrImm12Ecall then { isEcall := true }
    else if inst.csrImm12 = csrImm12Ebreak then { isEbreak := true }
    else if inst.csrImm12 = csrImm12Mret then { isMret := true }
    else if inst.csrImm12 = csrImm12Sret then { isSret := true }
    else Ctrl.illegal
  else { isCsr := true, regWrite := true }

def controlFp (inst : Word) : Ctrl :=
  if inst.funct5 = funct5Fcmp ∨ inst.funct5 = funct5FcvtWS ∨
      inst.funct5 = funct5FmvXWFclass then { regWrite := true }
  else { fRegWrite := true }

def controlLoadFp (inst : Word) : Ctrl :=
  if inst.funct3 = 0b010 then
    { memRead := true, memtoReg := true, aluSrc := true, fRegWrite := true }
  else if vecWidthFunct3 inst.funct3 then { isVecLoad := true }
  else Ctrl.illegal

def controlStoreFp (inst : Word) : Ctrl :=
  if inst.funct3 = 0b010 then { memWrite := true, aluSrc := true }
  else if vecWidthFunct3 inst.funct3 then { isVecStore := true }
  else Ctrl.illegal

def controlV (inst : Word) : Ctrl :=
  if inst.funct3 = f3Vopcfg ∧ inst.funct7 ≠ 0b1000000 then
    { regWrite := true, aluOp := .itype, aluSrc := true, isVecCfg := true }
  else if inst.funct3 = f3Opivv ∨ inst.funct3 = f3Opivx ∨ inst.funct3 = f3Opivi then
    { isVecArith := true }
  else Ctrl.illegal

def control (xlen : Nat) (inst : Word) : Ctrl :=
  if inst.opcode = opcodeLoad then
    { memRead := true, memtoReg := true, aluSrc := true, regWrite := true }
  else if inst.opcode = opcodeStore then { memWrite := true, aluSrc := true }
  else if inst.opcode = opcodeAmo then
    { aluSrc := true, regWrite := true, isAmo := true }
  else if inst.opcode = opcodeI then
    { aluOp := .itype, aluSrc := true, regWrite := true }
  else if inst.opcode = opcodeR then { aluOp := .rtype, regWrite := true }
  else if inst.opcode = opcodeOp32 then
    if xlen >= 64 then { aluOp := .rtype, regWrite := true } else Ctrl.illegal
  else if inst.opcode = opcodeOpImm32 then
    if xlen >= 64 then { aluOp := .itype, aluSrc := true, regWrite := true }
    else Ctrl.illegal
  else if inst.opcode = opcodeBranch then { branch := true, aluOp := .branch }
  else if inst.opcode = opcodeJal then { regWrite := true, jump := true }
  else if inst.opcode = opcodeJalr then
    { regWrite := true, jump := true, jalr := true }
  else if inst.opcode = opcodeLui then
    { aluSrc := true, regWrite := true, lui := true }
  else if inst.opcode = opcodeAuipc then
    { aluSrc := true, regWrite := true, auipc := true }
  else if inst.opcode = opcodeSystem then controlSystem inst
  else if inst.opcode = opcodeFp then controlFp inst
  else if inst.opcode = opcodeLoadFp then controlLoadFp inst
  else if inst.opcode = opcodeStoreFp then controlStoreFp inst
  else if inst.opcode = opcodeMadd ∨ inst.opcode = opcodeMsub ∨
      inst.opcode = opcodeNmsub ∨ inst.opcode = opcodeNmadd then
    { fRegWrite := true }
  else if inst.opcode = opcodeMiscMem then
    if inst.funct3 = 0b000 then { isFence := true } else Ctrl.illegal
  else if inst.opcode = opcodeV then controlV inst
  else Ctrl.illegal

/-!
# Shapes of the decoder output

Whatever the instruction, the decoder produces one of finitely many records.  A
fact about all of them is a fact about every instruction.
-/

def controlShapes : List Ctrl :=
  [{ memRead := true, memtoReg := true, aluSrc := true, regWrite := true },
    { memWrite := true, aluSrc := true },
    { aluSrc := true, regWrite := true, isAmo := true },
    { aluOp := .itype, aluSrc := true, regWrite := true },
    { aluOp := .rtype, regWrite := true },
    { branch := true, aluOp := .branch },
    { regWrite := true, jump := true },
    { regWrite := true, jump := true, jalr := true },
    { aluSrc := true, regWrite := true, lui := true },
    { aluSrc := true, regWrite := true, auipc := true },
    { isSfenceVma := true }, { isEcall := true }, { isEbreak := true },
    { isMret := true }, { isSret := true }, { isCsr := true, regWrite := true },
    { regWrite := true }, { fRegWrite := true },
    { memRead := true, memtoReg := true, aluSrc := true, fRegWrite := true },
    { isVecLoad := true }, { isVecStore := true }, { isFence := true },
    { regWrite := true, aluOp := .itype, aluSrc := true, isVecCfg := true },
    { isVecArith := true }, Ctrl.illegal]

theorem ite_mem {alpha : Type} {c : Prop} [Decidable c] {x y : alpha} {l : List alpha}
    (hx : x ∈ l) (hy : y ∈ l) :
    (if c then x else y) ∈ l := by
  split
  · exact hx
  · exact hy

theorem control_mem (xlen : Nat) (inst : Word) :
    control xlen inst ∈ controlShapes := by
  unfold control controlSystem controlFp controlLoadFp controlStoreFp controlV
  repeat' first
    | apply ite_mem
    | decide

theorem control_shape (xlen : Nat) (inst : Word) {p : Ctrl -> Prop}
    (h : forall c, c ∈ controlShapes -> p c) :
    p (control xlen inst) :=
  h _ (control_mem xlen inst)

/--
An instruction writes at most one of the three register files.
-/
theorem control_regWrite (xlen : Nat) (inst : Word) :
    let c := control xlen inst
    c.regWrite = true ->
      c.fRegWrite = false ∧ c.isVecArith = false ∧ c.isVecLoad = false ∧
        c.isVecStore = false :=
  control_shape xlen inst
    (p := fun c => c.regWrite = true -> c.fRegWrite = false ∧ c.isVecArith = false ∧
      c.isVecLoad = false ∧ c.isVecStore = false) (by decide)

theorem control_fRegWrite (xlen : Nat) (inst : Word) :
    let c := control xlen inst
    c.fRegWrite = true ->
      c.regWrite = false ∧ c.isVecArith = false ∧ c.isVecLoad = false ∧
        c.isVecStore = false :=
  control_shape xlen inst
    (p := fun c => c.fRegWrite = true -> c.regWrite = false ∧ c.isVecArith = false ∧
      c.isVecLoad = false ∧ c.isVecStore = false) (by decide)

theorem control_rtype (xlen : Nat) (inst : Word) :
    let c := control xlen inst
    c.aluOp = .rtype ->
      c.memRead = false ∧ c.memWrite = false ∧ c.isAmo = false ∧ c.fRegWrite = false :=
  control_shape xlen inst
    (p := fun c => c.aluOp = .rtype -> c.memRead = false ∧ c.memWrite = false ∧
      c.isAmo = false ∧ c.fRegWrite = false) (by decide)

/-!
# Immediates

Branch and jump immediates leave the decoder shifted right by one, with a zero
in the top bit; their users shift them back.
-/

def immGen (w : Nat) (inst : Word) : BitVec w :=
  let iImm : BitVec 12 := inst.extractLsb 31 20
  let sImm : BitVec 12 := inst.funct7 ++ inst.rd
  let bImm : BitVec 12 :=
    (inst.extractLsb 31 31 : BitVec 1) ++ (inst.extractLsb 7 7 : BitVec 1) ++
      (inst.extractLsb 30 25 : BitVec 6) ++ (inst.extractLsb 11 8 : BitVec 4)
  let jImm : BitVec 20 :=
    (inst.extractLsb 31 31 : BitVec 1) ++ (inst.extractLsb 19 12 : BitVec 8) ++
      (inst.extractLsb 20 20 : BitVec 1) ++ (inst.extractLsb 30 21 : BitVec 10)
  let uImm : BitVec 32 := (inst.extractLsb 31 12 : BitVec 20) ++ (0#12 : BitVec 12)
  let isShift : Bool := decide (inst.funct3 = 0b101) || decide (inst.funct3 = 0b001)
  if inst.opcode = opcodeI then
    if isShift then
      if w >= 64 then (inst.extractLsb 25 20 : BitVec 6).setWidth w
      else (inst.extractLsb 24 20 : BitVec 5).setWidth w
    else iImm.signExtend w
  else if inst.opcode = opcodeOpImm32 then
    if inst.funct3 = 0b001 ∧ (inst.extractLsb 31 26 : BitVec 6) = 0b000010 then
      (inst.extractLsb 25 20 : BitVec 6).setWidth w
    else if isShift then (inst.extractLsb 24 20 : BitVec 5).setWidth w
    else iImm.signExtend w
  else if inst.opcode = opcodeBranch then (bImm.signExtend (w - 1)).setWidth w
  else if inst.opcode = opcodeLoad ∨ inst.opcode = opcodeLoadFp then
    iImm.signExtend w
  else if inst.opcode = opcodeStore ∨ inst.opcode = opcodeStoreFp then
    sImm.signExtend w
  else if inst.opcode = opcodeJal then (jImm.signExtend (w - 1)).setWidth w
  else if inst.opcode = opcodeJalr then iImm.signExtend w
  else if inst.opcode = opcodeLui ∨ inst.opcode = opcodeAuipc then uImm.signExtend w
  else if inst.opcode = opcodeSystem then iImm.setWidth w
  else 0#w

end Isa
end RvCores
