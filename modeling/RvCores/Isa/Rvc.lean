import Mathlib.Data.BitVec
import RvCores.Isa.Compressed

/-!
# The compressed instructions of the manual

The integer instructions of the extension at 64 bits, with the immediate bits where its
tables place them, and what each does to the program counter, the registers and memory.
-/

namespace RvCores
namespace Isa

/-!
# Effects
-/

/--
What goes into the destination register.  The third field of a load gives its length and
extension.
-/
inductive Written where
  | value (v : BitVec 64)
  | loaded (addr : BitVec 64) (funct3 : BitVec 3)
deriving DecidableEq

structure Stored where
  addr : BitVec 64
  funct3 : BitVec 3
  data : BitVec 64
deriving DecidableEq

inductive Effect where
  | trap (cause : BitVec 64)
  | retire (pc : BitVec 64) (reg : Option (BitVec 5 × Written)) (store : Option Stored)
deriving DecidableEq

/--
The zero register is not written.
-/
def destination (rd : BitVec 5) (v : Written) : Option (BitVec 5 × Written) :=
  if rd = 0 then none else some (rd, v)

/--
Instructions lie at even addresses.
-/
def evenAddress (a : BitVec 64) : BitVec 64 := a &&& ~~~1#64

/-!
# Syntax
-/

inductive Rvc where
  | reserved
  | float
  | addi4spn (rd : BitVec 5) (imm : BitVec 64)
  | lw (rd rs1 : BitVec 5) (offset : BitVec 64)
  | ld (rd rs1 : BitVec 5) (offset : BitVec 64)
  | sw (rs2 rs1 : BitVec 5) (offset : BitVec 64)
  | sd (rs2 rs1 : BitVec 5) (offset : BitVec 64)
  | addi (rd : BitVec 5) (imm : BitVec 64)
  | addiw (rd : BitVec 5) (imm : BitVec 64)
  | li (rd : BitVec 5) (imm : BitVec 64)
  | addi16sp (imm : BitVec 64)
  | lui (rd : BitVec 5) (imm : BitVec 64)
  | srli (rd : BitVec 5) (shamt : BitVec 6)
  | srai (rd : BitVec 5) (shamt : BitVec 6)
  | andi (rd : BitVec 5) (imm : BitVec 64)
  | sub (rd rs2 : BitVec 5)
  | xor (rd rs2 : BitVec 5)
  | or (rd rs2 : BitVec 5)
  | and (rd rs2 : BitVec 5)
  | subw (rd rs2 : BitVec 5)
  | addw (rd rs2 : BitVec 5)
  | j (offset : BitVec 64)
  | beqz (rs1 : BitVec 5) (offset : BitVec 64)
  | bnez (rs1 : BitVec 5) (offset : BitVec 64)
  | slli (rd : BitVec 5) (shamt : BitVec 6)
  | lwsp (rd : BitVec 5) (offset : BitVec 64)
  | ldsp (rd : BitVec 5) (offset : BitVec 64)
  | jr (rs1 : BitVec 5)
  | mv (rd rs2 : BitVec 5)
  | ebreak
  | jalr (rs1 : BitVec 5)
  | add (rd rs2 : BitVec 5)
  | swsp (rs2 : BitVec 5) (offset : BitVec 64)
  | sdsp (rs2 : BitVec 5) (offset : BitVec 64)
deriving DecidableEq

namespace Rvc

open Compressed (op f3 bit x0 ra sp)

/-!
# Decoding

An immediate is a table of pairs: a bit of the instruction and the bit of the immediate
that it is.
-/

def immBits (c : BitVec 16) (n : Nat) (table : List (Nat × Nat)) : BitVec n :=
  table.foldr (fun e imm => (c.extractLsb' e.1 1).setWidth n <<< e.2 ||| imm) 0

def unsigned (c : BitVec 16) (n : Nat) (table : List (Nat × Nat)) : BitVec 64 :=
  (immBits c n table).setWidth 64

def signed (c : BitVec 16) (n : Nat) (table : List (Nat × Nat)) : BitVec 64 :=
  (immBits c n table).signExtend 64

def addi4spnTable : List (Nat × Nat) :=
  [(12, 5), (11, 4), (10, 9), (9, 8), (8, 7), (7, 6), (6, 2), (5, 3)]

def wordTable : List (Nat × Nat) := [(12, 5), (11, 4), (10, 3), (6, 2), (5, 6)]
def doubleTable : List (Nat × Nat) := [(12, 5), (11, 4), (10, 3), (6, 7), (5, 6)]
def immTable : List (Nat × Nat) := [(12, 5), (6, 4), (5, 3), (4, 2), (3, 1), (2, 0)]
def addi16spTable : List (Nat × Nat) := [(12, 9), (6, 4), (5, 6), (4, 8), (3, 7), (2, 5)]
def luiTable : List (Nat × Nat) := [(12, 17), (6, 16), (5, 15), (4, 14), (3, 13), (2, 12)]

def jumpTable : List (Nat × Nat) :=
  [(12, 11), (11, 4), (10, 9), (9, 8), (8, 10), (7, 6), (6, 7), (5, 3), (4, 2), (3, 1), (2, 5)]

def branchTable : List (Nat × Nat) :=
  [(12, 8), (11, 4), (10, 3), (6, 7), (5, 6), (4, 2), (3, 1), (2, 5)]

def lwspTable : List (Nat × Nat) := [(12, 5), (6, 4), (5, 3), (4, 2), (3, 7), (2, 6)]
def ldspTable : List (Nat × Nat) := [(12, 5), (6, 4), (5, 3), (4, 8), (3, 7), (2, 6)]
def swspTable : List (Nat × Nat) := [(12, 5), (11, 4), (10, 3), (9, 2), (8, 7), (7, 6)]
def sdspTable : List (Nat × Nat) := [(12, 5), (11, 4), (10, 3), (9, 8), (8, 7), (7, 6)]

variable (c : BitVec 16)

/--
The eight registers that a short field names.
-/
def shortReg (lo : Nat) : BitVec 5 := 0b01#2 ++ c.extractLsb' lo 3

def reg (lo : Nat) : BitVec 5 := c.extractLsb' lo 5

def quadrant0 : Rvc :=
  if f3 c = 0b000 then
    if immBits c 10 addi4spnTable = 0 then reserved
    else addi4spn (shortReg c 2) (unsigned c 10 addi4spnTable)
  else if f3 c = 0b001 then float
  else if f3 c = 0b010 then lw (shortReg c 2) (shortReg c 7) (unsigned c 7 wordTable)
  else if f3 c = 0b011 then ld (shortReg c 2) (shortReg c 7) (unsigned c 8 doubleTable)
  else if f3 c = 0b100 then reserved
  else if f3 c = 0b101 then float
  else if f3 c = 0b110 then sw (shortReg c 2) (shortReg c 7) (unsigned c 7 wordTable)
  else sd (shortReg c 2) (shortReg c 7) (unsigned c 8 doubleTable)

def arith : Rvc :=
  if c.extractLsb' 10 2 = 0b00#2 then srli (shortReg c 7) (immBits c 6 immTable)
  else if c.extractLsb' 10 2 = 0b01#2 then srai (shortReg c 7) (immBits c 6 immTable)
  else if c.extractLsb' 10 2 = 0b10#2 then andi (shortReg c 7) (signed c 6 immTable)
  else if bit c 12 = 0 then
    if c.extractLsb' 5 2 = 0b00#2 then sub (shortReg c 7) (shortReg c 2)
    else if c.extractLsb' 5 2 = 0b01#2 then xor (shortReg c 7) (shortReg c 2)
    else if c.extractLsb' 5 2 = 0b10#2 then or (shortReg c 7) (shortReg c 2)
    else and (shortReg c 7) (shortReg c 2)
  else
    if c.extractLsb' 5 2 = 0b00#2 then subw (shortReg c 7) (shortReg c 2)
    else if c.extractLsb' 5 2 = 0b01#2 then addw (shortReg c 7) (shortReg c 2)
    else reserved

def quadrant1 : Rvc :=
  if f3 c = 0b000 then addi (reg c 7) (signed c 6 immTable)
  else if f3 c = 0b001 then
    if reg c 7 = 0 then reserved else addiw (reg c 7) (signed c 6 immTable)
  else if f3 c = 0b010 then li (reg c 7) (signed c 6 immTable)
  else if f3 c = 0b011 then
    if reg c 7 = 2 then
      if immBits c 10 addi16spTable = 0 then reserved
      else addi16sp (signed c 10 addi16spTable)
    else
      if immBits c 18 luiTable = 0 then reserved else lui (reg c 7) (signed c 18 luiTable)
  else if f3 c = 0b100 then arith c
  else if f3 c = 0b101 then j (signed c 12 jumpTable)
  else if f3 c = 0b110 then beqz (shortReg c 7) (signed c 9 branchTable)
  else bnez (shortReg c 7) (signed c 9 branchTable)

def jumpOrMove : Rvc :=
  if bit c 12 = 0 then
    if reg c 2 = 0 then if reg c 7 = 0 then reserved else jr (reg c 7)
    else mv (reg c 7) (reg c 2)
  else if reg c 2 = 0 then if reg c 7 = 0 then ebreak else jalr (reg c 7)
  else add (reg c 7) (reg c 2)

def quadrant2 : Rvc :=
  if f3 c = 0b000 then slli (reg c 7) (immBits c 6 immTable)
  else if f3 c = 0b001 then float
  else if f3 c = 0b010 then
    if reg c 7 = 0 then reserved else lwsp (reg c 7) (unsigned c 8 lwspTable)
  else if f3 c = 0b011 then
    if reg c 7 = 0 then reserved else ldsp (reg c 7) (unsigned c 9 ldspTable)
  else if f3 c = 0b100 then jumpOrMove c
  else if f3 c = 0b101 then float
  else if f3 c = 0b110 then swsp (reg c 2) (unsigned c 8 swspTable)
  else sdsp (reg c 2) (unsigned c 9 sdspTable)

/--
The last quadrant is that of the full-length instructions.
-/
def decode : Rvc :=
  if op c = 0b00 then quadrant0 c
  else if op c = 0b01 then quadrant1 c
  else quadrant2 c

/-!
# Meaning
-/

section

variable (pc : BitVec 64) (regs : BitVec 5 -> BitVec 64)

def write (rd : BitVec 5) (v : Written) : Effect := .retire (pc + 2) (destination rd v) none

def store (funct3 : BitVec 3) (addr data : BitVec 64) : Effect :=
  .retire (pc + 2) none (some { addr := addr, funct3 := funct3, data := data })

def jump (target : BitVec 64) (link : Option (BitVec 5 × Written)) : Effect :=
  .retire (evenAddress target) link none

def branch (taken : Bool) (offset : BitVec 64) : Effect :=
  .retire (if taken then evenAddress (pc + offset) else pc + 2) none none

def effect : Rvc -> Effect
  | reserved | float => .trap 2
  | addi4spn rd imm => write pc rd (.value (regs sp + imm))
  | lw rd rs1 offset => write pc rd (.loaded (regs rs1 + offset) 0b010)
  | ld rd rs1 offset => write pc rd (.loaded (regs rs1 + offset) 0b011)
  | sw rs2 rs1 offset => store pc 0b010 (regs rs1 + offset) (regs rs2)
  | sd rs2 rs1 offset => store pc 0b011 (regs rs1 + offset) (regs rs2)
  | addi rd imm => write pc rd (.value (regs rd + imm))
  | addiw rd imm =>
      write pc rd (.value (((regs rd).setWidth 32 + imm.setWidth 32).signExtend 64))
  | li rd imm => write pc rd (.value imm)
  | addi16sp imm => write pc sp (.value (regs sp + imm))
  | lui rd imm => write pc rd (.value imm)
  | srli rd shamt => write pc rd (.value (regs rd >>> shamt.toNat))
  | srai rd shamt => write pc rd (.value ((regs rd).sshiftRight shamt.toNat))
  | andi rd imm => write pc rd (.value (regs rd &&& imm))
  | sub rd rs2 => write pc rd (.value (regs rd - regs rs2))
  | xor rd rs2 => write pc rd (.value (regs rd ^^^ regs rs2))
  | or rd rs2 => write pc rd (.value (regs rd ||| regs rs2))
  | and rd rs2 => write pc rd (.value (regs rd &&& regs rs2))
  | subw rd rs2 =>
      write pc rd (.value (((regs rd).setWidth 32 - (regs rs2).setWidth 32).signExtend 64))
  | addw rd rs2 =>
      write pc rd (.value (((regs rd).setWidth 32 + (regs rs2).setWidth 32).signExtend 64))
  | j offset => jump (pc + offset) none
  | beqz rs1 offset => branch pc (regs rs1 == 0) offset
  | bnez rs1 offset => branch pc (regs rs1 != 0) offset
  | slli rd shamt => write pc rd (.value (regs rd <<< shamt.toNat))
  | lwsp rd offset => write pc rd (.loaded (regs sp + offset) 0b010)
  | ldsp rd offset => write pc rd (.loaded (regs sp + offset) 0b011)
  | jr rs1 => jump (regs rs1) none
  | mv rd rs2 => write pc rd (.value (regs rs2))
  | ebreak => .trap 3
  | jalr rs1 => jump (regs rs1) (some (ra, .value (pc + 2)))
  | add rd rs2 => write pc rd (.value (regs rd + regs rs2))
  | swsp rs2 offset => store pc 0b010 (regs sp + offset) (regs rs2)
  | sdsp rs2 offset => store pc 0b011 (regs sp + offset) (regs rs2)

end

/-!
# Where the expander departs

Offsets of loads and stores with their top bit set, jumps with different bits eight and
nine, and hints without a destination that the expander takes for reserved.
-/

def misexpanded : Prop :=
  (op c = 0b00 ∧ (f3 c = 0b010 ∨ f3 c = 0b110) ∧ c.getLsbD 5 = true) ∨
  (op c = 0b00 ∧ (f3 c = 0b011 ∨ f3 c = 0b111) ∧ c.getLsbD 6 = true) ∨
  (op c = 0b01 ∧ f3 c = 0b011 ∧ reg c 7 = 0 ∧ immBits c 18 luiTable ≠ 0) ∨
  (op c = 0b01 ∧ f3 c = 0b101 ∧ c.getLsbD 9 ≠ c.getLsbD 10) ∨
  (op c = 0b10 ∧ f3 c = 0b000 ∧ reg c 7 = 0) ∨
  (op c = 0b10 ∧ f3 c = 0b010 ∧ reg c 7 ≠ 0 ∧ c.getLsbD 3 = true) ∨
  (op c = 0b10 ∧ f3 c = 0b011 ∧ reg c 7 ≠ 0 ∧ c.getLsbD 4 = true) ∨
  (op c = 0b10 ∧ f3 c = 0b110 ∧ c.getLsbD 8 = true) ∨
  (op c = 0b10 ∧ f3 c = 0b111 ∧ c.getLsbD 9 = true)

theorem not_misexpanded_of_reserved {c : BitVec 16} (hreserved : decode c = reserved) :
    ¬ misexpanded c := by
  unfold decode quadrant0 quadrant1 quadrant2 at hreserved
  rintro (⟨hop, hf, -⟩ | ⟨hop, hf, -⟩ | ⟨hop, hf, hrd, himm⟩ | ⟨hop, hf, -⟩ | ⟨hop, hf, -⟩ |
    ⟨hop, hf, hrd, -⟩ | ⟨hop, hf, hrd, -⟩ | ⟨hop, hf, -⟩ | ⟨hop, hf, -⟩)
  · rcases hf with hf | hf <;> simp [hop, hf] at hreserved
  · rcases hf with hf | hf <;> simp [hop, hf] at hreserved
  · have hnonzero : ¬ immBits c 18 luiTable = 0#18 := himm
    simp [hop, hf, hrd, hnonzero] at hreserved
  · simp [hop, hf] at hreserved
  · simp [hop, hf] at hreserved
  · have hnonzero : ¬ reg c 7 = 0#5 := hrd
    simp [hop, hf, hnonzero] at hreserved
  · have hnonzero : ¬ reg c 7 = 0#5 := hrd
    simp [hop, hf, hnonzero] at hreserved
  · simp [hop, hf] at hreserved
  · simp [hop, hf] at hreserved

end Rvc
end Isa
end RvCores
