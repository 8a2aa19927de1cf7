import RvCores.Lib.Table

/-!
# Branch predictor tables

The direction table holds two-bit saturating counters and the target table the
last taken target.  Both are indexed by low program-counter bits and have no
tags, so two instructions whose indices agree share an entry.
-/

namespace RvCores
namespace Block

variable {w : Nat}

def predictorIndex (entries : Nat) (pc : BitVec w) : Nat :=
  pc.toNat / 4 % entries

/-!
# Direction counters
-/

structure Bht where
  counters : Nat -> BitVec 2

namespace Bht

def saturatingUpdate (counter : BitVec 2) (taken : Bool) : BitVec 2 :=
  if taken then if counter = 0b11 then 0b11 else counter + 1
  else if counter = 0b00 then 0b00 else counter - 1

def predictTaken (entries : Nat) (bht : Bht) (pc : BitVec w) : Bool :=
  (bht.counters (predictorIndex entries pc)).getLsbD 1

def reset (entries : Nat) (bht : Bht) : Bht :=
  { counters := fun k => if k < entries then 0 else bht.counters k }

def step (entries : Nat) (bht : Bht) (updateValid : Bool) (updatePc : BitVec w)
    (updateTaken : Bool) : Bht :=
  if updateValid then
    let k := predictorIndex entries updatePc
    { counters :=
        Lib.modifyAt bht.counters k (saturatingUpdate · updateTaken) }
  else bht

end Bht

/-!
# Branch targets
-/

structure Btb (w : Nat) where
  valid : Nat -> Bool
  targets : Nat -> BitVec w

namespace Btb

def hit (entries : Nat) (btb : Btb w) (pc : BitVec w) : Bool :=
  btb.valid (predictorIndex entries pc)

def target (entries : Nat) (btb : Btb w) (pc : BitVec w) : BitVec w :=
  btb.targets (predictorIndex entries pc)

def reset (entries : Nat) (btb : Btb w) : Btb w :=
  { valid := fun k => if k < entries then false else btb.valid k
    targets := fun k => if k < entries then 0 else btb.targets k }

def step (entries : Nat) (btb : Btb w) (updateValid : Bool)
    (updatePc updateTarget : BitVec w) : Btb w :=
  if updateValid then
    let k := predictorIndex entries updatePc
    { valid := Lib.setAt btb.valid k true
      targets := Lib.setAt btb.targets k updateTarget }
  else btb

end Btb

/-!
# Global history

The counters of the second direction table are picked by the program counter mixed
with the outcomes of the last branches.
-/

structure Gshare where
  counters : Nat -> BitVec 2
  ghr : Nat

namespace Gshare

def index (entries : Nat) (g : Gshare) (pc : BitVec w) : Nat :=
  predictorIndex entries pc ^^^ g.ghr

def predictTaken (entries : Nat) (g : Gshare) (pc : BitVec w) : Bool :=
  (g.counters (g.index entries pc)).getLsbD 1

def reset (entries : Nat) (g : Gshare) : Gshare :=
  { counters := fun k => if k < entries then 0 else g.counters k, ghr := 0 }

def step (entries : Nat) (g : Gshare) (updateValid : Bool) (updatePc : BitVec w)
    (updateTaken : Bool) : Gshare :=
  if updateValid then
    { counters :=
        Lib.modifyAt g.counters (g.index entries updatePc)
          (Bht.saturatingUpdate · updateTaken)
      ghr := (2 * g.ghr + updateTaken.toNat) % entries }
  else g

end Gshare

/-!
# Choice between the two direction tables
-/

structure Chooser where
  counters : Nat -> BitVec 2

namespace Chooser

def preferB (entries : Nat) (c : Chooser) (pc : BitVec w) : Bool :=
  (c.counters (predictorIndex entries pc)).getLsbD 1

def reset (entries : Nat) (c : Chooser) : Chooser :=
  { counters := fun k => if k < entries then 0 else c.counters k }

def step (entries : Nat) (c : Chooser) (updateValid : Bool) (updatePc : BitVec w)
    (aCorrect bCorrect : Bool) : Chooser :=
  if updateValid && aCorrect != bCorrect then
    { counters :=
        Lib.modifyAt c.counters (predictorIndex entries updatePc)
          (Bht.saturatingUpdate · bCorrect) }
  else c

end Chooser

/-!
# The predictor of the in-order core
-/

inductive PredictorKind where
  | static
  | dynamicBhtBtb
  | gshare
  | tournament
deriving DecidableEq, Repr

structure Predictor (w : Nat) where
  btb : Btb w
  bht : Bht
  gshare : Gshare
  chooser : Chooser

namespace Predictor

def direction (kind : PredictorKind) (entries : Nat) (p : Predictor w) (pc : BitVec w) :
    Bool :=
  match kind with
  | .static => false
  | .dynamicBhtBtb => p.bht.predictTaken entries pc
  | .gshare => p.gshare.predictTaken entries pc
  | .tournament =>
      if p.chooser.preferB entries pc then p.gshare.predictTaken entries pc
      else p.bht.predictTaken entries pc

def predictTaken (kind : PredictorKind) (entries : Nat) (p : Predictor w)
    (pc : BitVec w) : Bool :=
  p.direction kind entries pc && p.btb.hit entries pc

def predictTarget (kind : PredictorKind) (entries : Nat) (p : Predictor w)
    (pc : BitVec w) : BitVec w :=
  match kind with
  | .static => 0
  | _ => p.btb.target entries pc

def reset (entries : Nat) (p : Predictor w) : Predictor w :=
  { btb := p.btb.reset entries
    bht := p.bht.reset entries
    gshare := p.gshare.reset entries
    chooser := p.chooser.reset entries }

/--
The chooser is trained by what each table would say of the branch now.
-/
def step (entries : Nat) (p : Predictor w) (updateValid : Bool) (updatePc : BitVec w)
    (updateTaken : Bool) (updateTarget : BitVec w) : Predictor w :=
  { btb := p.btb.step entries (updateValid && updateTaken) updatePc updateTarget
    bht := p.bht.step entries updateValid updatePc updateTaken
    gshare := p.gshare.step entries updateValid updatePc updateTaken
    chooser :=
      p.chooser.step entries updateValid updatePc
        (p.bht.predictTaken entries updatePc == updateTaken)
        (p.gshare.predictTaken entries updatePc == updateTaken) }

end Predictor
end Block
end RvCores
