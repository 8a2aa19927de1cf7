import RvCores.Isa.Control

/-!
# Compressed instructions

Fetch expands a 16-bit instruction to a 32-bit one before anything else looks at
it.  A reserved encoding expands to zero, which the decoder rejects.
-/

namespace RvCores
namespace Isa

/-!
# Instruction formats
-/

def iType (imm : BitVec 12) (rs1 : BitVec 5) (f3 : BitVec 3) (rd : BitVec 5)
    (opcode : BitVec 7) : Word :=
  imm ++ rs1 ++ f3 ++ rd ++ opcode

def sType (imm : BitVec 12) (rs2 rs1 : BitVec 5) (f3 : BitVec 3) (opcode : BitVec 7) :
    Word :=
  (imm.extractLsb' 5 7) ++ rs2 ++ rs1 ++ f3 ++ (imm.extractLsb' 0 5) ++ opcode

def rType (f7 : BitVec 7) (rs2 rs1 : BitVec 5) (f3 : BitVec 3) (rd : BitVec 5)
    (opcode : BitVec 7) : Word :=
  f7 ++ rs2 ++ rs1 ++ f3 ++ rd ++ opcode

namespace Compressed

variable (c : BitVec 16)

def bit (i : Nat) : BitVec 1 := c.extractLsb' i 1
def op : BitVec 2 := c.extractLsb' 0 2
def f3 : BitVec 3 := c.extractLsb' 13 3
def rdCRs1C : BitVec 5 := 0b01#2 ++ c.extractLsb' 7 3
def rs2C : BitVec 5 := 0b01#2 ++ c.extractLsb' 2 3
def rdFull : BitVec 5 := c.extractLsb' 7 5
def crRs2 : BitVec 5 := c.extractLsb' 2 5
def imm6 : BitVec 6 := bit c 12 ++ c.extractLsb' 2 5

def x0 : BitVec 5 := 0
def ra : BitVec 5 := 1
def sp : BitVec 5 := 2

/-!
# Quadrant 0
-/

def ciwImm : BitVec 10 :=
  c.extractLsb' 7 4 ++ c.extractLsb' 11 2 ++ bit c 5 ++ bit c 6 ++ 0b00#2

def clLdImm : BitVec 8 := c.extractLsb' 5 2 ++ c.extractLsb' 10 3 ++ 0b000#3
def clLwImm : BitVec 7 := bit c 5 ++ c.extractLsb' 10 3 ++ bit c 6 ++ 0b00#2

def expAddi4spn : Word :=
  if ciwImm c = 0 then 0 else iType ((ciwImm c).setWidth 12) sp 0b000 (rs2C c) opcodeI

def q0 : Word :=
  if f3 c = 0b000 then expAddi4spn c
  else if f3 c = 0b001 then
    iType ((clLdImm c).signExtend 12) (rdCRs1C c) 0b011 (rs2C c) opcodeLoadFp
  else if f3 c = 0b010 then
    iType ((clLwImm c).signExtend 12) (rdCRs1C c) 0b010 (rs2C c) opcodeLoad
  else if f3 c = 0b011 then
    iType ((clLdImm c).signExtend 12) (rdCRs1C c) 0b011 (rs2C c) opcodeLoad
  else if f3 c = 0b101 then
    sType ((clLdImm c).signExtend 12) (rs2C c) (rdCRs1C c) 0b011 opcodeStoreFp
  else if f3 c = 0b110 then
    sType ((clLwImm c).signExtend 12) (rs2C c) (rdCRs1C c) 0b010 opcodeStore
  else if f3 c = 0b111 then
    sType ((clLdImm c).signExtend 12) (rs2C c) (rdCRs1C c) 0b011 opcodeStore
  else 0

/-!
# Quadrant 1
-/

def c16spImm : BitVec 10 :=
  bit c 12 ++ c.extractLsb' 3 2 ++ bit c 5 ++ bit c 2 ++ bit c 6 ++ 0b0000#4

def expAddiw : Word :=
  if rdFull c = 0 then 0
  else iType ((imm6 c).signExtend 12) (rdFull c) 0b000 (rdFull c) opcodeOpImm32

def expAddi16sp : Word :=
  if c16spImm c = 0 then 0
  else iType ((c16spImm c).signExtend 12) sp 0b000 sp opcodeI

def expLui : Word :=
  if rdFull c = 0 ∨ rdFull c = 2 ∨ imm6 c = 0 then 0
  else (imm6 c).signExtend 20 ++ rdFull c ++ opcodeLui

def expQ1High : Word := if rdFull c = 2 then expAddi16sp c else expLui c

def arithReg (f7 : BitVec 7) (f3 : BitVec 3) (opcode : BitVec 7) : Word :=
  rType f7 (rs2C c) (rdCRs1C c) f3 (rdCRs1C c) opcode

def expArith : Word :=
  if c.extractLsb' 10 2 = 0b00#2 then
    iType (0b000000#6 ++ imm6 c) (rdCRs1C c) 0b101 (rdCRs1C c) opcodeI
  else if c.extractLsb' 10 2 = 0b01#2 then
    iType (0b010000#6 ++ imm6 c) (rdCRs1C c) 0b101 (rdCRs1C c) opcodeI
  else if c.extractLsb' 10 2 = 0b10#2 then
    iType ((imm6 c).signExtend 12) (rdCRs1C c) 0b111 (rdCRs1C c) opcodeI
  else if bit c 12 = 0 then
    if c.extractLsb' 5 2 = 0b00#2 then arithReg c 0b0100000 0b000 opcodeR
    else if c.extractLsb' 5 2 = 0b01#2 then arithReg c 0b0000000 0b100 opcodeR
    else if c.extractLsb' 5 2 = 0b10#2 then arithReg c 0b0000000 0b110 opcodeR
    else arithReg c 0b0000000 0b111 opcodeR
  else
    if c.extractLsb' 5 2 = 0b00#2 then arithReg c 0b0100000 0b000 opcodeOp32
    else if c.extractLsb' 5 2 = 0b01#2 then arithReg c 0b0000000 0b000 opcodeOp32
    else 0

/--
The pre-shift offset of a jump, in the bit order of the source.
-/
def cjOff : BitVec 11 :=
  bit c 12 ++ bit c 8 ++ bit c 9 ++ bit c 10 ++ bit c 6 ++ bit c 7 ++ bit c 2 ++
    bit c 11 ++ c.extractLsb' 3 3

def expJ : Word :=
  let imm : BitVec 20 := (cjOff c).signExtend 20
  (imm.extractLsb' 19 1) ++ (imm.extractLsb' 0 10) ++ (imm.extractLsb' 10 1) ++
    (imm.extractLsb' 11 8) ++ x0 ++ opcodeJal

def cbOff : BitVec 8 :=
  bit c 12 ++ c.extractLsb' 5 2 ++ bit c 2 ++ c.extractLsb' 10 2 ++ c.extractLsb' 3 2

def expBranch (f3 : BitVec 3) : Word :=
  let imm : BitVec 20 := (cbOff c).signExtend 20
  (imm.extractLsb' 11 1) ++ (imm.extractLsb' 4 6) ++ x0 ++ rdCRs1C c ++ f3 ++
    (imm.extractLsb' 0 4) ++ (imm.extractLsb' 10 1) ++ opcodeBranch

def q1 : Word :=
  if f3 c = 0b000 then
    iType ((imm6 c).signExtend 12) (rdFull c) 0b000 (rdFull c) opcodeI
  else if f3 c = 0b001 then expAddiw c
  else if f3 c = 0b010 then
    iType ((imm6 c).signExtend 12) x0 0b000 (rdFull c) opcodeI
  else if f3 c = 0b011 then expQ1High c
  else if f3 c = 0b100 then expArith c
  else if f3 c = 0b101 then expJ c
  else if f3 c = 0b110 then expBranch c 0b000
  else expBranch c 0b001

/-!
# Quadrant 2
-/

def cldspImm : BitVec 9 :=
  c.extractLsb' 2 3 ++ bit c 12 ++ c.extractLsb' 5 2 ++ 0b000#3

def clwspImm : BitVec 8 :=
  c.extractLsb' 2 2 ++ bit c 12 ++ c.extractLsb' 4 3 ++ 0b00#2

def csdspImm : BitVec 9 := c.extractLsb' 7 3 ++ c.extractLsb' 10 3 ++ 0b000#3
def cswspImm : BitVec 8 := c.extractLsb' 7 2 ++ c.extractLsb' 9 4 ++ 0b00#2

def expSlli : Word :=
  if rdFull c = 0 then 0
  else iType (0b000000#6 ++ imm6 c) (rdFull c) 0b001 (rdFull c) opcodeI

def expLwsp : Word :=
  if rdFull c = 0 then 0
  else iType ((clwspImm c).signExtend 12) sp 0b010 (rdFull c) opcodeLoad

def expLdsp : Word :=
  if rdFull c = 0 then 0
  else iType ((cldspImm c).signExtend 12) sp 0b011 (rdFull c) opcodeLoad

def expEbreak : Word := 0x00100073

def expQ2100 : Word :=
  if bit c 12 = 0 then
    if crRs2 c = 0 then
      if rdFull c = 0 then 0 else iType 0 (rdFull c) 0b000 x0 opcodeJalr
    else rType 0b0000000 (crRs2 c) x0 0b000 (rdFull c) opcodeR
  else if rdFull c = 0 ∧ crRs2 c = 0 then expEbreak
  else if crRs2 c = 0 then iType 0 (rdFull c) 0b000 ra opcodeJalr
  else rType 0b0000000 (crRs2 c) (rdFull c) 0b000 (rdFull c) opcodeR

def q2 : Word :=
  if f3 c = 0b000 then expSlli c
  else if f3 c = 0b001 then
    iType ((cldspImm c).signExtend 12) sp 0b011 (rdFull c) opcodeLoadFp
  else if f3 c = 0b010 then expLwsp c
  else if f3 c = 0b011 then expLdsp c
  else if f3 c = 0b100 then expQ2100 c
  else if f3 c = 0b101 then
    sType ((csdspImm c).signExtend 12) (crRs2 c) sp 0b011 opcodeStoreFp
  else if f3 c = 0b110 then
    sType ((cswspImm c).signExtend 12) (crRs2 c) sp 0b010 opcodeStore
  else sType ((csdspImm c).signExtend 12) (crRs2 c) sp 0b011 opcodeStore

end Compressed

open Compressed in
def compressedExpander (c : BitVec 16) : Word :=
  if op c = 0b00 then q0 c
  else if op c = 0b01 then q1 c
  else if op c = 0b10 then q2 c
  else 0

/-!
# What fetch makes of a word
-/

def isCompressed (inst : Word) : Bool := decide (inst.extractLsb' 0 2 ≠ 0b11#2)

def instFinal (inst : Word) : Word :=
  if isCompressed inst then compressedExpander (inst.extractLsb' 0 16) else inst

/-- `c.li a0, 5` and `c.add a0, a1`. -/
example : compressedExpander 0x4515 = 0x00500513 ∧ compressedExpander 0x952E = 0x00B50533 := by
  decide

end Isa
end RvCores
