import Mathlib.Algebra.CharP.Two
import Mathlib.Algebra.Field.ZMod
import Mathlib.Algebra.Polynomial.Coeff
import Mathlib.Data.ZMod.Basic

/-!
# Carry-less products

The product of two words without carries is the product of the polynomials over the
two-element field whose coefficients their bits are.
-/

namespace RvCores
namespace Lib

open Polynomial

variable {w : Nat}

/--
The first terms of the product: a shifted copy of one factor for each bit set in the other.
-/
def carrylessTerms (a b : BitVec w) (n : Nat) : BitVec (2 * w) :=
  (List.range n).foldl
    (fun acc i => if b.getLsbD i then acc ^^^ (a.setWidth (2 * w) <<< i) else acc) 0#(2 * w)

def carryless (a b : BitVec w) : BitVec (2 * w) := carrylessTerms a b w

theorem carrylessTerms_succ (a b : BitVec w) (n : Nat) :
    carrylessTerms a b (n + 1) =
      if b.getLsbD n then carrylessTerms a b n ^^^ (a.setWidth (2 * w) <<< n)
      else carrylessTerms a b n := by
  unfold carrylessTerms
  rw [List.range_succ, List.foldl_append]
  rfl

/-!
## Polynomials
-/

noncomputable def bitPoly (x : BitVec w) : (ZMod 2)[X] :=
  ∑ i ∈ Finset.range w, if x.getLsbD i then X ^ i else 0

theorem coeff_bitPoly (x : BitVec w) (n : Nat) :
    (bitPoly x).coeff n = if x.getLsbD n then 1 else 0 := by
  have hterm : forall i, (if x.getLsbD i then (X : (ZMod 2)[X]) ^ i else 0).coeff n =
      if n = i then (if x.getLsbD i then 1 else 0) else 0 := by
    intro i
    cases x.getLsbD i with
    | false => simp
    | true => simp [coeff_X_pow]
  unfold bitPoly
  rw [finsetSum_coeff, Finset.sum_congr rfl fun i _ => hterm i, Finset.sum_ite_eq]
  by_cases hn : n < w
  · simp [hn]
  · simp [hn, BitVec.getLsbD_of_ge x n (Nat.le_of_not_lt hn)]

theorem bitPoly_xor (x y : BitVec w) : bitPoly (x ^^^ y) = bitPoly x + bitPoly y := by
  ext n
  rw [coeff_add, coeff_bitPoly, coeff_bitPoly, coeff_bitPoly, BitVec.getLsbD_xor]
  cases x.getLsbD n with
  | false => simp
  | true =>
      cases y.getLsbD n with
      | false => simp
      | true => simp [CharTwo.add_self_eq_zero]

theorem bitPoly_shift (x : BitVec w) {i : Nat} (hi : i <= w) :
    bitPoly (x.setWidth (2 * w) <<< i) = bitPoly x * X ^ i := by
  ext n
  rw [coeff_mul_X_pow', coeff_bitPoly, BitVec.getLsbD_shiftLeft, BitVec.getLsbD_setWidth]
  by_cases hshift : i <= n
  · rw [if_pos hshift, coeff_bitPoly]
    by_cases hn : n - i < w
    · simp [show n < 2 * w by omega, show ¬ n < i by omega, show n - i < 2 * w by omega]
    · simp [BitVec.getLsbD_of_ge x (n - i) (Nat.le_of_not_lt hn)]
  · simp [hshift]

theorem bitPoly_carrylessTerms (a b : BitVec w) {n : Nat} (hn : n <= w) :
    bitPoly (carrylessTerms a b n) =
      bitPoly a * ∑ i ∈ Finset.range n, if b.getLsbD i then X ^ i else 0 := by
  induction n with
  | zero => simp [carrylessTerms, bitPoly]
  | succ n ih =>
      rw [carrylessTerms_succ, Finset.sum_range_succ, mul_add, ← ih (by omega)]
      cases b.getLsbD n with
      | false => simp
      | true => simp [bitPoly_xor, bitPoly_shift a (show n <= w by omega)]

theorem bitPoly_carryless (a b : BitVec w) :
    bitPoly (carryless a b) = bitPoly a * bitPoly b :=
  bitPoly_carrylessTerms a b (Nat.le_refl w)

end Lib
end RvCores
