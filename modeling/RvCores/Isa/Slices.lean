import Mathlib.Tactic.Common
import RvCores.Isa.Alu

/-!
# Slices of a word

What the loops over bytes and nibbles leave in each slice of their result.
-/

namespace RvCores
namespace Isa

section Assemble

variable {w len n : Nat} {slice : Nat -> BitVec len}

theorem assemble_succ :
    assemble w len (n + 1) slice =
      assemble w len n slice ||| ((slice n).setWidth w <<< (len * n)) := by
  unfold assemble
  rw [List.range_succ, List.foldl_append]
  rfl

theorem getLsbD_assemble (hlen : 0 < len) (j : Nat) :
    (assemble w len n slice).getLsbD j =
      (decide (j < w) && decide (j < len * n) && (slice (j / len)).getLsbD (j % len)) := by
  induction n with
  | zero => simp [assemble]
  | succ n ih =>
      rw [assemble_succ, BitVec.getLsbD_or, ih, BitVec.getLsbD_shiftLeft, BitVec.getLsbD_setWidth]
      have hsucc : len * (n + 1) = len * n + len := Nat.mul_succ len n
      by_cases hbelow : j < len * n
      · simp [hbelow, show j < len * (n + 1) by omega]
      · by_cases hslice : j < len * (n + 1)
        · have hj : j = len * n + (j - len * n) := by omega
          have hoff : j - len * n < len := by omega
          have hdiv : j / len = n := by
            rw [hj, Nat.mul_add_div hlen, Nat.div_eq_of_lt hoff, Nat.add_zero]
          have hmod : j % len = j - len * n := by
            rw [hj, Nat.mul_add_mod, Nat.mod_eq_of_lt hoff]
            omega
          rw [hdiv, hmod]
          by_cases hw : j < w
          · simp [hbelow, hslice, hw, show j - len * n < w by omega]
          · simp [hw]
        · have hgone : (slice n).getLsbD (j - len * n) = false :=
            BitVec.getLsbD_of_ge _ _ (by omega)
          simp [hbelow, hslice, hgone]

theorem extract_assemble (hlen : 0 < len) (hn : len * n <= w) {i : Nat} (hi : i < n) :
    (assemble w len n slice).extractLsb' (len * i) len = slice i := by
  apply BitVec.eq_of_getLsbD_eq
  intro j hj
  have hend : len * i + len <= len * n := by
    rw [← Nat.mul_succ]
    exact Nat.mul_le_mul_left len hi
  have hdiv : (len * i + j) / len = i := by
    rw [Nat.mul_add_div hlen, Nat.div_eq_of_lt hj, Nat.add_zero]
  have hmod : (len * i + j) % len = j := by
    rw [Nat.mul_add_mod, Nat.mod_eq_of_lt hj]
  rw [BitVec.getLsbD_extractLsb', getLsbD_assemble hlen, hdiv, hmod]
  simp [hj, show len * i + j < w by omega, show len * i + j < len * n by omega]

/--
A word that its slices cover is known by them.
-/
theorem eq_of_slices (hlen : 0 < len) {x y : BitVec w} (hcover : w <= len * n)
    (h : forall i, i < n -> x.extractLsb' (len * i) len = y.extractLsb' (len * i) len) :
    x = y := by
  apply BitVec.eq_of_getLsbD_eq
  intro j hj
  have hi : j / len < n := Nat.div_lt_of_lt_mul (by omega)
  have hbit := congrArg (fun s => s.getLsbD (j % len)) (h (j / len) hi)
  simp only [BitVec.getLsbD_extractLsb', Nat.mod_lt j hlen, decide_true, Bool.true_and,
    Nat.div_add_mod] at hbit
  exact hbit

end Assemble

/-!
## Bytes
-/

section Bytes

variable {w n i : Nat} {slice : Nat -> BitVec 8}

theorem byteAt_assemble (hn : 8 * n <= w) (hi : i < n) :
    byteAt (assemble w 8 n slice) i = slice i :=
  extract_assemble (by decide) hn hi

theorem eq_of_byteAt {x y : BitVec w} (hcover : w <= 8 * n)
    (h : forall i, i < n -> byteAt x i = byteAt y i) : x = y :=
  eq_of_slices (by decide) hcover h

@[simp]
theorem byteAt_concat_zero {m : Nat} (x : BitVec m) (b : BitVec 8) : byteAt (x ++ b) 0 = b :=
  BitVec.extractLsb'_append_eq_right

@[simp]
theorem byteAt_concat_succ {m : Nat} (x : BitVec m) (b : BitVec 8) (i : Nat) :
    byteAt (x ++ b) (i + 1) = byteAt x i := by
  unfold byteAt
  apply BitVec.eq_of_getLsbD_eq
  intro j hj
  rw [BitVec.getLsbD_extractLsb', BitVec.getLsbD_extractLsb', BitVec.getLsbD_append]
  have habove : ¬ 8 * (i + 1) + j < 8 := by omega
  have hoff : 8 * (i + 1) + j - 8 = 8 * i + j := by omega
  rw [if_neg habove, hoff]

@[simp]
theorem byteAt_byte (b : BitVec 8) : byteAt b 0 = b := by
  simp [byteAt]

end Bytes

end Isa
end RvCores
