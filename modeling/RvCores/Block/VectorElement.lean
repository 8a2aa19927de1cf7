import RvCores.Block.Vector
import Mathlib.Tactic.Ring

/-!
# Elements of a vector register

The vector units cut elements out of a register, and put them back, with shifts and
masks.  This is what those do to an element as a word of its own width.
-/

namespace RvCores
namespace Block

variable {vlen n : Nat}

def element (v : BitVec vlen) (n e : Nat) : BitVec n := v.extractLsb' (e * n) n

/-!
# Widths and counts
-/

theorem elemWidth_eq {sew : BitVec 3} (hsew : sew.toNat <= 3) :
    elemWidth sew = 8 * 2 ^ sew.toNat := by
  have hcases : sew.toNat = 0 ∨ sew.toNat = 1 ∨ sew.toNat = 2 ∨ sew.toNat = 3 := by omega
  unfold elemWidth
  rcases hcases with h | h | h | h <;> rw [h] <;> rfl

theorem elemWidth_pos {sew : BitVec 3} (hsew : sew.toNat <= 3) : 0 < elemWidth sew := by
  rw [elemWidth_eq hsew]
  exact Nat.mul_pos (by decide) (Nat.two_pow_pos _)

theorem elemWidth_le {sew : BitVec 3} (hsew : sew.toNat <= 3) : elemWidth sew <= 64 := by
  have hpow : 2 ^ sew.toNat <= 2 ^ 3 := Nat.pow_le_pow_right two_pos hsew
  rw [elemWidth_eq hsew]
  omega

/--
The elements fill the register.
-/
theorem elemCount_mul_elemWidth (hvlen : 64 ∣ vlen) {sew : BitVec 3} (hsew : sew.toNat <= 3) :
    elemCount vlen sew * elemWidth sew = vlen := by
  obtain ⟨q, rfl⟩ := hvlen
  have hbytes : 64 * q / 8 = 2 ^ sew.toNat * (2 ^ (3 - sew.toNat) * q) := by
    rw [← Nat.mul_assoc, ← Nat.pow_add, Nat.add_sub_cancel' hsew]
    omega
  unfold elemCount
  rw [elemWidth_eq hsew, Nat.shiftRight_eq_div_pow, hbytes,
    Nat.mul_div_cancel_left _ (Nat.two_pow_pos _)]
  calc 2 ^ (3 - sew.toNat) * q * (8 * 2 ^ sew.toNat)
      = 8 * (2 ^ (3 - sew.toNat) * 2 ^ sew.toNat) * q := by ring
    _ = 64 * q := by rw [← Nat.pow_add, Nat.sub_add_cancel hsew]

theorem elemCount_le (vlen : Nat) (sew : BitVec 3) : elemCount vlen sew <= vlen / 8 := by
  unfold elemCount
  rw [Nat.shiftRight_eq_div_pow]
  exact Nat.div_le_self _ _

theorem elemCount_pos (hvlen : 64 ∣ vlen) (hpos : 0 < vlen) {sew : BitVec 3}
    (hsew : sew.toNat <= 3) : 0 < elemCount vlen sew := by
  have hfill := elemCount_mul_elemWidth hvlen hsew
  rcases Nat.eq_zero_or_pos (elemCount vlen sew) with hzero | hcount
  · rw [hzero, Nat.zero_mul] at hfill
    omega
  · exact hcount

theorem elemCount_le_pow (vlen : Nat) (sew : BitVec 3) : elemCount vlen sew <= 2 ^ eidxBits vlen :=
  Nat.le_trans (elemCount_le vlen sew) (Nat.le_pow_clog (by decide) _)

theorem vlBits_le (vlen : Nat) : vlBits vlen <= cntBits vlen := by
  have hbytes : vlen / 8 <= 2 ^ eidxBits vlen := Nat.le_pow_clog (by decide) _
  have hpos : 0 < 2 ^ eidxBits vlen := Nat.two_pow_pos _
  apply Nat.clog_le_of_le_pow
  unfold cntBits
  rw [Nat.pow_succ]
  omega

/-!
# Cutting an element out
-/

theorem getLsbD_elemMask (hn : n <= 64) (k : Nat) :
    (elemMask n).getLsbD k = decide (k < n) := by
  unfold elemMask
  by_cases hwide : n >= 64
  · have hsame : n = 64 := by omega
    subst hsame
    rw [if_pos hwide, BitVec.getLsbD_allOnes]
  · rw [if_neg hwide, BitVec.getLsbD_xor, BitVec.getLsbD_shiftLeft, BitVec.getLsbD_allOnes,
      BitVec.getLsbD_allOnes]
    by_cases hk : k < n
    · have hk64 : k < 64 := by omega
      simp [hk, hk64]
    · by_cases hk64 : k < 64
      · have hsub : k - n < 64 := by omega
        simp [hk, hk64, hsub]
      · simp [hk, hk64]

theorem and_elemMask (hn : n <= 64) (x : BitVec 64) :
    x &&& elemMask n = (x.setWidth n).setWidth 64 := by
  apply BitVec.eq_of_getLsbD_eq
  intro k hk
  rw [BitVec.getLsbD_and, getLsbD_elemMask hn, BitVec.getLsbD_setWidth, BitVec.getLsbD_setWidth,
    decide_eq_true hk, Bool.true_and, Bool.and_comm]

theorem elemSlice_eq (hn : n <= 64) (v : BitVec vlen) (e : Nat) :
    elemSlice v (e * n) n = (element v n e).setWidth 64 := by
  unfold elemSlice element
  rw [and_elemMask hn]
  apply BitVec.eq_of_getLsbD_eq
  intro k hk
  rw [BitVec.getLsbD_setWidth, BitVec.getLsbD_setWidth, BitVec.getLsbD_setWidth,
    BitVec.getLsbD_ushiftRight, BitVec.getLsbD_setWidth, BitVec.getLsbD_extractLsb',
    decide_eq_true hk]
  simp

/-!
# Putting an element back
-/

theorem getLsbD_mergeSlice (old mask data : BitVec vlen) (b : Nat) :
    (mergeSlice old mask data).getLsbD b
      = if mask.getLsbD b then data.getLsbD b else old.getLsbD b := by
  unfold mergeSlice
  rw [BitVec.getLsbD_or, BitVec.getLsbD_and, BitVec.getLsbD_and, BitVec.getLsbD_not]
  by_cases hb : b < vlen
  · cases mask.getLsbD b <;> simp [hb]
  · simp [BitVec.getLsbD_of_ge _ b (Nat.le_of_not_lt hb)]

/--
The mask of an element covers its bits.
-/
theorem getLsbD_shiftedMask (hn : n <= 64) (e b : Nat) :
    ((elemMask n).setWidth vlen <<< (e * n)).getLsbD b
      = (decide (b < vlen) && decide (e * n <= b ∧ b < (e + 1) * n)) := by
  rw [BitVec.getLsbD_shiftLeft, BitVec.getLsbD_setWidth, getLsbD_elemMask hn, Nat.succ_mul]
  by_cases hb : b < vlen
  · by_cases hlow : b < e * n
    · have hnot : ¬ (e * n <= b ∧ b < e * n + n) := by omega
      simp [hb, hlow, hnot]
    · have hsub : b - e * n < vlen := by omega
      have hiff : b - e * n < n <-> e * n <= b ∧ b < e * n + n := by omega
      simp [hb, hlow, hsub, hiff]
  · simp [hb]

/--
Merging one element changes that element alone.
-/
theorem getLsbD_mergeElement (hn : n <= 64) (old : BitVec vlen) (x : BitVec 64) (e b : Nat) :
    (mergeSlice old ((elemMask n).setWidth vlen <<< (e * n))
        (x.setWidth vlen <<< (e * n))).getLsbD b
      = if e * n <= b ∧ b < (e + 1) * n then decide (b < vlen) && x.getLsbD (b - e * n)
        else old.getLsbD b := by
  rw [getLsbD_mergeSlice, getLsbD_shiftedMask hn]
  by_cases hb : b < vlen
  · by_cases hin : e * n <= b ∧ b < (e + 1) * n
    · have hnot : ¬ b < e * n := by omega
      simp [hb, hin, hnot]
    · simp [hb, hin]
  · simp [hb, BitVec.getLsbD_of_ge _ b (Nat.le_of_not_lt hb)]

end Block
end RvCores
