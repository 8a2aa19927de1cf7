import RvCores.Isa.Control
import RvCores.Lib.Table

/-!
# Instruction and data memories

Both memories are byte arrays of a fixed size.  Instruction fetch is
combinational.  The data memory is a block RAM: a write lands at the clock edge,
and the word read at an edge is aligned and extended in the following cycle.
-/

namespace RvCores
namespace Block

open Isa

/-!
# Byte arrays

Bytes past the end of an array cannot be written and read as zero.
-/

abbrev Bytes := Nat -> BitVec 8

def readByte (size : Nat) (mem : Bytes) (addr : Nat) : BitVec 8 :=
  if addr < size then mem addr else 0

def writeByte (size : Nat) (mem : Bytes) (addr : Nat) (byte : BitVec 8) : Bytes :=
  if addr < size then Lib.setAt mem addr byte else mem

def byteAddr {w : Nat} (addr : BitVec w) (k : Nat) : Nat :=
  (addr + BitVec.ofNat w k).toNat

def readWord {w : Nat} (size : Nat) (mem : Bytes) (addr : BitVec w) (base : Nat) :
    BitVec 32 :=
  readByte size mem (byteAddr addr (base + 3)) ++
    readByte size mem (byteAddr addr (base + 2)) ++
    readByte size mem (byteAddr addr (base + 1)) ++
    readByte size mem (byteAddr addr base)

/-!
# Instruction memory
-/

structure InstructionMemory where
  sizeBytes : Nat
  insts : Bytes

def InstructionMemory.inst {w : Nat} (imem : InstructionMemory) (readAddr : BitVec w) :
    Word :=
  if readAddr.toNat >= imem.sizeBytes then 0
  else readWord imem.sizeBytes imem.insts readAddr 0

/--
A program given as consecutive words from address zero, padded with zeros.
-/
def InstructionMemory.ofWords (sizeBytes : Nat) (words : List Word) :
    InstructionMemory :=
  { sizeBytes := sizeBytes
    insts := fun a => (words.getD (a / 4) 0).extractLsb' (8 * (a % 4)) 8 }

/-!
# Data memory
-/

structure DataMemory (w : Nat) where
  bytes : Bytes
  rawWord : BitVec w
  funct3R : BitVec 3
  memReadR : Bool

structure MemRequest (w : Nat) where
  memWrite : Bool
  memRead : Bool
  address : BitVec w
  writeData : BitVec w
  funct3 : BitVec 3

namespace MemRequest

variable {w : Nat}

def writeLength (req : MemRequest w) : Nat :=
  if req.funct3.extractLsb 1 0 = 0b00#2 then 1
  else if req.funct3.extractLsb 1 0 = 0b01#2 then 2
  else if w >= 64 ∧ req.funct3 = 0b011 then 8
  else 4

end MemRequest

namespace DataMemory

variable {w : Nat}

def storeBytes (size : Nat) (mem : Bytes) (req : MemRequest w) : Bytes :=
  (List.range req.writeLength).foldl
    (fun mem k =>
      writeByte size mem (byteAddr req.address k) (req.writeData.extractLsb' (8 * k) 8))
    mem

def fetchRaw (size : Nat) (mem : Bytes) (address : BitVec w) : BitVec w :=
  if w >= 64 then (readWord size mem address 4 ++ readWord size mem address 0).setWidth w
  else (readWord size mem address 0).setWidth w

def reset (size : Nat) (dmem : DataMemory w) : DataMemory w :=
  { bytes := fun a => if a < min size 65536 then 0 else dmem.bytes a
    rawWord := 0
    funct3R := 0
    memReadR := false }

def step (size : Nat) (dmem : DataMemory w) (req : MemRequest w) : DataMemory w :=
  { bytes := if req.memWrite then storeBytes size dmem.bytes req else dmem.bytes
    rawWord := fetchRaw size dmem.bytes req.address
    funct3R := req.funct3
    memReadR := req.memRead }

/-!
Storing the same bytes twice stores them once.
-/

theorem foldl_writeByte_congr {size : Nat} {f : Nat -> Nat} {g : Nat -> BitVec 8} :
    forall (ks : List Nat) {mem mem' : Bytes},
      (forall x, mem x = mem' x ∨ exists k, k ∈ ks ∧ f k = x ∧ f k < size) ->
      ks.foldl (fun mem k => writeByte size mem (f k) (g k)) mem =
        ks.foldl (fun mem k => writeByte size mem (f k) (g k)) mem'
  | [], mem, mem', h => funext fun x => by simpa using h x
  | k :: ks, mem, mem', h => by
      refine foldl_writeByte_congr ks ?_
      intro x
      by_cases hx : f k = x ∧ f k < size
      · left
        simp [writeByte, hx.left ▸ hx.right, hx.left]
      · rcases h x with heq | ⟨k', hk', hfx, hlt⟩
        · left
          by_cases hlt : f k < size
          · have hne : x ≠ f k := fun he => hx ⟨he.symm, hlt⟩
            simp [writeByte, hlt, Lib.setAt_of_ne hne, heq]
          · simp [writeByte, hlt, heq]
        · rcases List.mem_cons.mp hk' with rfl | hk'
          · exact absurd ⟨hfx, hlt⟩ hx
          · exact Or.inr ⟨k', hk', hfx, hlt⟩

theorem foldl_writeByte_frame {size : Nat} {f : Nat -> Nat} {g : Nat -> BitVec 8} {x : Nat} :
    forall (ks : List Nat) (mem : Bytes), (forall k, k ∈ ks -> f k < size -> f k ≠ x) ->
      ks.foldl (fun mem k => writeByte size mem (f k) (g k)) mem x = mem x
  | [], _, _ => rfl
  | k :: ks, mem, h => by
      rw [List.foldl_cons, foldl_writeByte_frame ks _ fun k' hk' =>
        h k' (List.mem_cons_of_mem k hk')]
      by_cases hlt : f k < size
      · have hne : x ≠ f k := fun he => h k List.mem_cons_self hlt he.symm
        simp [writeByte, hlt, Lib.setAt_of_ne hne]
      · simp [writeByte, hlt]

theorem storeBytes_twice (size : Nat) (mem : Bytes) (req : MemRequest w) :
    storeBytes size (storeBytes size mem req) req = storeBytes size mem req := by
  refine foldl_writeByte_congr _ ?_
  intro x
  by_cases h : exists k, k ∈ List.range req.writeLength ∧ byteAddr req.address k = x ∧
      byteAddr req.address k < size
  · exact Or.inr h
  · left
    refine foldl_writeByte_frame _ _ ?_
    intro k hk hlt heq
    exact h ⟨k, hk, heq, hlt⟩

/--
Signed bytes and halves are extended to 32 bits only and then padded with
zeros, as the read multiplexer does at every width.
-/
def readData (dmem : DataMemory w) : BitVec w :=
  if dmem.memReadR then
    if dmem.funct3R = 0b000 then ((dmem.rawWord.setWidth 8).signExtend 32).setWidth w
    else if dmem.funct3R = 0b100 then (dmem.rawWord.setWidth 8).setWidth w
    else if dmem.funct3R = 0b001 then
      ((dmem.rawWord.setWidth 16).signExtend 32).setWidth w
    else if dmem.funct3R = 0b101 then (dmem.rawWord.setWidth 16).setWidth w
    else if dmem.funct3R = 0b110 then (dmem.rawWord.setWidth 32).setWidth w
    else if dmem.funct3R = 0b011 then dmem.rawWord
    else (dmem.rawWord.setWidth 32).signExtend w
  else 0

end DataMemory
end Block
end RvCores
