import RvCores.Block.Mailbox
import RvCores.Lib.Run

/-!
# Handing work to the other core

Two cores with memories of their own share a mailbox.  The in-order core puts some
numbers into it and raises a flag, the out-of-order core adds them up and raises another
flag, and the in-order core picks up the sum.  Each core makes its accesses to the
mailbox in program order, one at a time, and may pause for any number of cycles.
-/

namespace RvCores
namespace Soc
namespace Handoff

open Block Lib

/-!
# The instructions of the two programs

A label is the place of its instruction in the program.
-/

inductive Instr where
  | lui (rd : Nat) (imm : BitVec 20)
  | addi (rd rs1 : Nat) (imm : BitVec 12)
  | slli (rd rs1 shamt : Nat)
  | add (rd rs1 rs2 : Nat)
  | lw (rd : Nat) (off : BitVec 12) (rs1 : Nat)
  | sw (rs2 : Nat) (off : BitVec 12) (rs1 : Nat)
  | beq (rs1 rs2 label : Nat)
  | jal (label : Nat)
  | fence
deriving DecidableEq, Repr

/--
A core between two instructions, or waiting for the data of a load.
-/
structure Hart where
  pc : Nat
  regs : Nat -> BitVec 64
  waiting : Bool

namespace Hart

def reset : Hart := { pc := 0, regs := fun _ => 0, waiting := false }

def reg (h : Hart) (r : Nat) : BitVec 64 := if r = 0 then 0 else h.regs r

def setReg (h : Hart) (r : Nat) (x : BitVec 64) : Hart := { h with regs := setAt h.regs r x }

def next (h : Hart) : Hart := { h with pc := h.pc + 1 }

def address (h : Hart) (off : BitVec 12) (rs1 : Nat) : BitVec 64 :=
  h.reg rs1 + off.signExtend 64

end Hart

def mailboxBase : BitVec 64 := 0x10200000
def mailboxSize : BitVec 64 := 256
def mailboxWords : Nat := 64

def mailboxHit (addr : BitVec 64) : Bool :=
  decide (mailboxBase <= addr) && decide (addr < mailboxBase + mailboxSize)

/--
The instructions that do not use the memory port.
-/
def Instr.exec (h : Hart) : Instr -> Hart
  | lui rd imm => (h.setReg rd ((imm ++ 0#12).signExtend 64)).next
  | addi rd rs1 imm => (h.setReg rd (h.reg rs1 + imm.signExtend 64)).next
  | slli rd rs1 shamt => (h.setReg rd (h.reg rs1 <<< shamt)).next
  | add rd rs1 rs2 => (h.setReg rd (h.reg rs1 + h.reg rs2)).next
  | beq rs1 rs2 label => if h.reg rs1 = h.reg rs2 then { h with pc := label } else h.next
  | jal label => { h with pc := label }
  | fence => h.next
  | lw _ _ _ => h
  | sw _ _ _ => h

/-!
# The two ports

The memories of the cores themselves are left out: an access outside the mailbox does not
come to an end here.
-/

namespace Hart

def loadAddress (prog : List Instr) (h : Hart) : Option (BitVec 64) :=
  match prog[h.pc]? with
  | some (.lw _ off rs1) =>
      if mailboxHit (h.address off rs1) then some (h.address off rs1) else none
  | _ => none

def store (prog : List Instr) (h : Hart) : Option (BitVec 64 × BitVec 64) :=
  match prog[h.pc]? with
  | some (.sw rs2 off rs1) =>
      if mailboxHit (h.address off rs1) then some (h.address off rs1, h.reg rs2) else none
  | _ => none

/--
The in-order core has the data of a load within the cycle.
-/
def movePipelined (prog : List Instr) (h : Hart) (aDataI : BitVec 64) : Hart :=
  match prog[h.pc]? with
  | none => h
  | some (.lw rd off rs1) =>
      if mailboxHit (h.address off rs1) then (h.setReg rd aDataI).next else h
  | some (.sw _ off rs1) => if mailboxHit (h.address off rs1) then h.next else h
  | some instr => instr.exec h

/--
The out-of-order core asks in one cycle and takes the data in a later one.
-/
def moveOoo (prog : List Instr) (h : Hart) (bReadData : BitVec 64) : Hart :=
  match prog[h.pc]? with
  | none => h
  | some (.lw rd off rs1) =>
      if mailboxHit (h.address off rs1) then
        if h.waiting then { (h.setReg rd bReadData).next with waiting := false }
        else { h with waiting := true }
      else h
  | some (.sw _ off rs1) => if mailboxHit (h.address off rs1) then h.next else h
  | some instr => instr.exec h

end Hart

structure HeteroSoC where
  mailbox : Mailbox 64
  pipelined : Hart
  ooo : Hart

/--
Which of the cores go on in a cycle.
-/
structure Moves where
  pipelined : Bool
  ooo : Bool

namespace HeteroSoC

def reset : HeteroSoC :=
  { mailbox := { mem := fun _ => 0, bReadData := 0 }
    pipelined := Hart.reset
    ooo := Hart.reset }

/--
The requests of the two cores as their ports show them.
-/
def portsOf (moves : Moves) (load : Option (BitVec 64)) (store : Option (BitVec 64 × BitVec 64))
    (bLoad : Option (BitVec 64)) (bStore : Option (BitVec 64 × BitVec 64)) (bWaiting : Bool) :
    MailboxIn 64 :=
  { aCyc := moves.pipelined && (load.isSome || store.isSome)
    aStb := moves.pipelined && (load.isSome || store.isSome)
    aWe := store.isSome
    aAddr := (store.map Prod.fst).getD (load.getD 0)
    aDataO := (store.map Prod.snd).getD 0
    bMemWrite := moves.ooo && bStore.isSome
    bMemRead := moves.ooo && bLoad.isSome && !bWaiting
    bAddress := (bStore.map Prod.fst).getD (bLoad.getD 0)
    bWriteData := (bStore.map Prod.snd).getD 0 }

def ports (progA progB : List Instr) (s : HeteroSoC) (moves : Moves) : MailboxIn 64 :=
  portsOf moves (s.pipelined.loadAddress progA) (s.pipelined.store progA)
    (s.ooo.loadAddress progB) (s.ooo.store progB) s.ooo.waiting

def step (progA progB : List Instr) (s : HeteroSoC) (moves : Moves) : HeteroSoC :=
  let i := s.ports progA progB moves
  { mailbox := s.mailbox.step mailboxWords true i
    pipelined :=
      if moves.pipelined then
        s.pipelined.movePipelined progA (s.mailbox.aDataI mailboxWords i)
      else s.pipelined
    ooo := if moves.ooo then s.ooo.moveOoo progB s.mailbox.bReadData else s.ooo }

end HeteroSoC

/-!
# The programs

The words of the mailbox are the flag of the in-order core, the number of items, the flag
of the out-of-order core, the sum, and the items.
-/

def storeItems : Nat -> List (BitVec 12) -> List Instr
  | _, [] => []
  | k, item :: items =>
      .addi 1 0 item :: .sw 1 (BitVec.ofNat 12 (16 + 4 * k)) 31 :: storeItems (k + 1) items

/--
The program of the in-order core, for any items in place of the six numbers.
-/
def heteroPipelined (items : List (BitVec 12)) : List Instr :=
  let pollDone := 5 + 2 * items.length
  let halt := 9 + 2 * items.length
  [.lui 31 0x10200, .addi 1 0 (BitVec.ofNat 12 items.length), .sw 1 4 31] ++
    storeItems 0 items ++
    [.addi 1 0 1, .sw 1 0 31, .lw 2 8 31, .beq 2 0 pollDone, .lw 10 12 31, .fence, .jal halt]

def heteroPipelinedN1 : List Instr :=
  [.lui 31 0x10200,
    .addi 1 0 6, .sw 1 4 31,
    .addi 1 0 1, .sw 1 16 31, .addi 1 0 2, .sw 1 20 31, .addi 1 0 3, .sw 1 24 31,
    .addi 1 0 4, .sw 1 28 31, .addi 1 0 5, .sw 1 32 31, .addi 1 0 6, .sw 1 36 31,
    .addi 1 0 1, .sw 1 0 31,
    .lw 2 8 31, .beq 2 0 17,
    .lw 10 12 31,
    .fence, .jal 21]

theorem heteroPipelinedN1_eq : heteroPipelinedN1 = heteroPipelined [1, 2, 3, 4, 5, 6] := by
  decide

def heteroOooN1 : List Instr :=
  [.addi 31 0 64, .slli 31 31 11, .addi 31 31 1024, .slli 31 31 11,
    .lw 1 0 31, .beq 1 0 4,
    .lw 2 4 31, .addi 3 0 0, .addi 4 0 0, .addi 9 31 16,
    .beq 4 2 16, .lw 5 0 9, .add 3 3 5, .addi 9 9 4, .addi 4 4 1, .beq 0 0 10,
    .sw 3 12 31, .addi 6 0 1, .sw 6 8 31, .beq 0 0 19]

end Handoff
end Soc
end RvCores
