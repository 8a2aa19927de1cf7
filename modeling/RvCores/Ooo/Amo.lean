import RvCores.Ooo.LoadStoreQueue

/-!
# Values of the atomic operations

The queue computes every operation on 64 bits.  For a word the old value comes
sign-extended from memory and the operand with whatever its register has above the word,
which only the comparisons notice.
-/

namespace RvCores
namespace Ooo

inductive AmoOp where
  | add
  | swap
  | xor
  | or
  | and
  | min
  | max
  | minu
  | maxu
deriving DecidableEq, Repr

namespace AmoOp

def funct5 : AmoOp -> BitVec 5
  | add => 0b00000
  | swap => 0b00001
  | xor => 0b00100
  | or => 0b01000
  | and => 0b01100
  | min => 0b10000
  | max => 0b10100
  | minu => 0b11000
  | maxu => 0b11100

/--
The operation of the manual, at the width of the access.
-/
def result {n : Nat} (op : AmoOp) (old rs2 : BitVec n) : BitVec n :=
  match op with
  | add => old + rs2
  | swap => rs2
  | xor => old ^^^ rs2
  | or => old ||| rs2
  | and => old &&& rs2
  | min => if old.slt rs2 then old else rs2
  | max => if rs2.slt old then old else rs2
  | minu => if old.ult rs2 then old else rs2
  | maxu => if rs2.ult old then old else rs2

theorem amoNewValue_eq (op : AmoOp) (old rs2 : BitVec 64) :
    LoadStoreQueue.amoNewValue op.funct5 old rs2 = op.result old rs2 := by
  cases op <;> rfl

/-!
# Words

An operand that is no sign-extended word lies on one side of all the words, and the
comparison is right only if its low word happens to lie there too.
-/

def extended (rs2 : BitVec 64) : Prop := (rs2.setWidth 32).signExtend 64 = rs2

def comparesWords (op : AmoOp) (old : BitVec 32) (rs2 : BitVec 64) : Prop :=
  match op with
  | min | max =>
      extended rs2 ∨
        if rs2.msb then (rs2.setWidth 32).sle old = true else old.sle (rs2.setWidth 32) = true
  | minu | maxu =>
      extended rs2 ∨
        if old.msb then (rs2.setWidth 32).ule old = true else old.ule (rs2.setWidth 32) = true
  | _ => True

theorem setWidth_extended (x : BitVec 32) : (x.signExtend 64).setWidth 32 = x := by
  apply BitVec.eq_of_getLsbD_eq
  intro i hi
  have hlt : i < 64 := by omega
  simp only [BitVec.getLsbD_setWidth, BitVec.getLsbD_signExtend, hi, hlt, decide_true,
    Bool.true_and, if_true]

/--
A choice between two words by two tests is the same word when the tests agree or the words
do.
-/
theorem ite_eq_ite_iff {alpha : Type} {b c : Bool} {x y : alpha} :
    (if b then x else y) = (if c then x else y) <-> b = c ∨ x = y := by
  cases b <;> cases c <;> simp [eq_comm]

theorem setWidth_ite (b : Bool) (x y : BitVec 64) :
    (if b then x else y).setWidth 32 = if b then x.setWidth 32 else y.setWidth 32 := by
  cases b <;> rfl

section

variable (old : BitVec 32) (rs2 : BitVec 64)

theorem toNat_extended :
    (old.signExtend 64).toNat =
      if old.toNat < 2 ^ 31 then old.toNat else old.toNat + (2 ^ 64 - 2 ^ 32) := by
  have hlt := old.isLt
  rw [BitVec.toNat_signExtend, BitVec.toNat_setWidth_of_le (by decide), BitVec.msb_eq_decide]
  by_cases hsmall : old.toNat < 2 ^ 31
  · have hmsb : ¬ 2 ^ (32 - 1) <= old.toNat := by omega
    rw [decide_eq_false hmsb, if_pos hsmall]
    rfl
  · have hmsb : 2 ^ (32 - 1) <= old.toNat := by omega
    rw [decide_eq_true hmsb, if_neg hsmall]
    rfl

theorem toNat_word : (rs2.setWidth 32).toNat = rs2.toNat % 2 ^ 32 := BitVec.toNat_setWidth ..

theorem extended_iff : extended rs2 <-> rs2.toNat < 2 ^ 31 ∨ 2 ^ 64 - 2 ^ 31 <= rs2.toNat := by
  have hlt := rs2.isLt
  rw [extended, ← BitVec.toNat_inj, toNat_extended, toNat_word]
  split <;> omega

theorem min_iff :
    (((old.signExtend 64).slt rs2 = old.slt (rs2.setWidth 32)) ∨ old = rs2.setWidth 32) <->
      comparesWords min old rs2 := by
  have hold := old.isLt
  have hrs2 := rs2.isLt
  rw [comparesWords, Bool.eq_iff_iff, BitVec.slt_iff_toInt_lt, BitVec.slt_iff_toInt_lt,
    extended_iff, ← BitVec.toNat_inj, toNat_word, BitVec.sle_iff_toInt_le, BitVec.sle_iff_toInt_le,
    BitVec.toInt_signExtend_of_le (by decide), BitVec.toInt_eq_toNat_cond,
    BitVec.toInt_eq_toNat_cond, BitVec.toInt_eq_toNat_cond, toNat_word, BitVec.msb_eq_decide]
  simp only [decide_eq_true_eq]
  split <;> split <;> split <;> split <;> omega

theorem max_iff :
    ((rs2.slt (old.signExtend 64) = (rs2.setWidth 32).slt old) ∨ old = rs2.setWidth 32) <->
      comparesWords max old rs2 := by
  have hold := old.isLt
  have hrs2 := rs2.isLt
  rw [comparesWords, Bool.eq_iff_iff, BitVec.slt_iff_toInt_lt, BitVec.slt_iff_toInt_lt,
    extended_iff, ← BitVec.toNat_inj, toNat_word, BitVec.sle_iff_toInt_le, BitVec.sle_iff_toInt_le,
    BitVec.toInt_signExtend_of_le (by decide), BitVec.toInt_eq_toNat_cond,
    BitVec.toInt_eq_toNat_cond, BitVec.toInt_eq_toNat_cond, toNat_word, BitVec.msb_eq_decide]
  simp only [decide_eq_true_eq]
  split <;> split <;> split <;> split <;> omega

theorem minu_iff :
    (((old.signExtend 64).ult rs2 = old.ult (rs2.setWidth 32)) ∨ old = rs2.setWidth 32) <->
      comparesWords minu old rs2 := by
  have hold := old.isLt
  have hrs2 := rs2.isLt
  rw [comparesWords, Bool.eq_iff_iff, BitVec.ult_iff_toNat_lt, BitVec.ult_iff_toNat_lt,
    extended_iff, ← BitVec.toNat_inj, toNat_word, BitVec.ule_iff_toNat_le, BitVec.ule_iff_toNat_le,
    toNat_extended, toNat_word, BitVec.msb_eq_decide]
  simp only [decide_eq_true_eq]
  split <;> split <;> omega

theorem maxu_iff :
    ((rs2.ult (old.signExtend 64) = (rs2.setWidth 32).ult old) ∨ old = rs2.setWidth 32) <->
      comparesWords maxu old rs2 := by
  have hold := old.isLt
  have hrs2 := rs2.isLt
  rw [comparesWords, Bool.eq_iff_iff, BitVec.ult_iff_toNat_lt, BitVec.ult_iff_toNat_lt,
    extended_iff, ← BitVec.toNat_inj, toNat_word, BitVec.ule_iff_toNat_le, BitVec.ule_iff_toNat_le,
    toNat_extended, toNat_word, BitVec.msb_eq_decide]
  simp only [decide_eq_true_eq]
  split <;> split <;> omega

/--
The low word of the 64-bit result is the result on words exactly when the comparison, if
there is one, is that of the words.
-/
theorem result_word_iff (op : AmoOp) :
    (op.result (old.signExtend 64) rs2).setWidth 32 = op.result old (rs2.setWidth 32) <->
      op.comparesWords old rs2 := by
  cases op with
  | add =>
      have hsum : (old.signExtend 64 + rs2).setWidth 32 = old + rs2.setWidth 32 := by
        rw [BitVec.setWidth_add _ _ (by decide), setWidth_extended]
      exact iff_of_true hsum trivial
  | swap => exact iff_of_true rfl trivial
  | xor =>
      have hxor : (old.signExtend 64 ^^^ rs2).setWidth 32 = old ^^^ rs2.setWidth 32 := by
        rw [BitVec.setWidth_xor, setWidth_extended]
      exact iff_of_true hxor trivial
  | or =>
      have hor : (old.signExtend 64 ||| rs2).setWidth 32 = old ||| rs2.setWidth 32 := by
        rw [BitVec.setWidth_or, setWidth_extended]
      exact iff_of_true hor trivial
  | and =>
      have hand : (old.signExtend 64 &&& rs2).setWidth 32 = old &&& rs2.setWidth 32 := by
        rw [BitVec.setWidth_and, setWidth_extended]
      exact iff_of_true hand trivial
  | min =>
      rw [← min_iff, result, result, setWidth_ite, setWidth_extended, ite_eq_ite_iff]
  | max =>
      rw [← max_iff, result, result, setWidth_ite, setWidth_extended, ite_eq_ite_iff]
  | minu =>
      rw [← minu_iff, result, result, setWidth_ite, setWidth_extended, ite_eq_ite_iff]
  | maxu =>
      rw [← maxu_iff, result, result, setWidth_ite, setWidth_extended, ite_eq_ite_iff]

end

end AmoOp
end Ooo
end RvCores
