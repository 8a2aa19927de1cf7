import RvCores.Lib.Table
import Mathlib.Data.BitVec

/-!
# Mailbox

A small memory of words with two ports of its own for two cores.  The first port reads
within the cycle; the second has its data in the cycle after the request.
-/

namespace RvCores
namespace Block

variable {w : Nat}

structure MailboxIn (w : Nat) where
  aCyc : Bool
  aStb : Bool
  aWe : Bool
  aAddr : BitVec w
  aDataO : BitVec w
  bMemWrite : Bool
  bMemRead : Bool
  bAddress : BitVec w
  bWriteData : BitVec w

structure Mailbox (w : Nat) where
  mem : Nat -> BitVec w
  bReadData : BitVec w

namespace Mailbox

def wordIndex (numWords : Nat) (addr : BitVec w) : Nat := addr.toNat / 4 % numWords

/--
A word stored through both ports in one cycle keeps what the second port stores.
-/
def step (numWords : Nat) (m : Mailbox w) (rst : Bool) (i : MailboxIn w) : Mailbox w :=
  if !rst then
    { mem := fun k => if k < numWords then 0 else m.mem k
      bReadData := 0 }
  else
    let memA :=
      if i.aCyc && i.aStb && i.aWe then
        Lib.setAt m.mem (wordIndex numWords i.aAddr) i.aDataO
      else m.mem
    { mem :=
        if i.bMemWrite then Lib.setAt memA (wordIndex numWords i.bAddress) i.bWriteData
        else memA
      bReadData :=
        if i.bMemRead then m.mem (wordIndex numWords i.bAddress) else m.bReadData }

def aAck (i : MailboxIn w) : Bool := i.aCyc && i.aStb

def aDataI (numWords : Nat) (m : Mailbox w) (i : MailboxIn w) : BitVec w :=
  m.mem (wordIndex numWords i.aAddr)

/-!
# The stores of a cycle
-/

def aStore (numWords : Nat) (i : MailboxIn w) : Option (Nat × BitVec w) :=
  if i.aCyc && i.aStb && i.aWe then some (wordIndex numWords i.aAddr, i.aDataO) else none

def bStore (numWords : Nat) (i : MailboxIn w) : Option (Nat × BitVec w) :=
  if i.bMemWrite then some (wordIndex numWords i.bAddress, i.bWriteData) else none

def applyStore (mem : Nat -> BitVec w) : Option (Nat × BitVec w) -> Nat -> BitVec w
  | none => mem
  | some st => Lib.setAt mem st.1 st.2

theorem mem_step (numWords : Nat) (m : Mailbox w) (i : MailboxIn w) :
    (m.step numWords true i).mem =
      applyStore (applyStore m.mem (aStore numWords i)) (bStore numWords i) := by
  unfold aStore bStore step
  cases (i.aCyc && i.aStb && i.aWe) <;> cases i.bMemWrite <;> rfl

theorem bReadData_step (numWords : Nat) (m : Mailbox w) (i : MailboxIn w) :
    (m.step numWords true i).bReadData =
      if i.bMemRead then m.mem (wordIndex numWords i.bAddress) else m.bReadData := rfl

end Mailbox
end Block
end RvCores
