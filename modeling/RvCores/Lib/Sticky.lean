import RvCores.Lib.Rounding

/-!
# Sticky bits

Hardware cuts values off and remembers in one bit that it did.  Such a bit survives
further cuts, and addition to operands that end before it.
-/

namespace RvCores
namespace Lib

variable {K : Type} [Field K] [LinearOrder K] [IsStrictOrderedRing K]

/-!
# Cutting bits off
-/

section

variable {n : Nat} {rest : Bool} {y : K}

/--
The bits that are cut off join the rest.
-/
theorem Truncates.shift (h : Truncates n rest y) (k : Nat) :
    Truncates (n / 2 ^ k) (rest || decide (n % 2 ^ k ≠ 0)) (y / 2 ^ k) := by
  have hpos : (0 : K) < 2 ^ k := by positivity
  have hsplit : ((n / 2 ^ k : Nat) : K) * 2 ^ k + ((n % 2 ^ k : Nat) : K) = n := by
    have hnat := Nat.div_add_mod' n (2 ^ k)
    exact_mod_cast hnat
  have hmod : ((n % 2 ^ k : Nat) : K) + 1 <= 2 ^ k := by
    have hnat : n % 2 ^ k + 1 <= 2 ^ k := Nat.mod_lt n (Nat.two_pow_pos k)
    exact_mod_cast hnat
  have hmod0 : (0 : K) <= ((n % 2 ^ k : Nat) : K) := Nat.cast_nonneg _
  have hle := h.le
  have hlt := h.lt
  push_cast at hlt
  refine ⟨?_, ?_, ?_⟩
  · rw [le_div_iff₀ hpos]
    linarith
  · rw [div_lt_iff₀ hpos]
    push_cast
    linarith
  · rw [Bool.or_eq_true, decide_eq_true_eq, h.rest, ← not_and_or, ne_eq, not_iff_not,
      div_eq_iff hpos.ne']
    constructor
    · rintro ⟨hy, hzero⟩
      rw [hzero, Nat.cast_zero, add_zero] at hsplit
      rw [hy, hsplit]
    · intro hy
      have hzero : ((n % 2 ^ k : Nat) : K) = 0 := by linarith
      refine ⟨?_, Nat.cast_eq_zero.mp hzero⟩
      rw [hy]
      linarith

theorem truncates_nat (n : Nat) : Truncates n false (n : K) := by
  refine ⟨le_rfl, Nat.cast_lt.mpr (Nat.lt_succ_self n), ?_⟩
  simp

theorem truncates_div (n : Nat) {d : Nat} (hd : 0 < d) :
    Truncates (n / d) (decide (n % d ≠ 0)) ((n : K) / d) := by
  have hpos : (0 : K) < d := Nat.cast_pos.mpr hd
  have hsplit : ((n / d : Nat) : K) * d + ((n % d : Nat) : K) = n := by
    have hnat := Nat.div_add_mod' n d
    exact_mod_cast hnat
  have hmod : ((n % d : Nat) : K) < d := Nat.cast_lt.mpr (Nat.mod_lt n hd)
  have hmod0 : (0 : K) <= ((n % d : Nat) : K) := Nat.cast_nonneg _
  refine ⟨?_, ?_, ?_⟩
  · rw [le_div_iff₀ hpos]
    linarith
  · rw [div_lt_iff₀ hpos]
    push_cast
    linarith
  · rw [decide_eq_true_eq, ne_eq, ne_eq, not_iff_not, div_eq_iff hpos.ne']
    constructor
    · intro hzero
      rw [hzero, Nat.cast_zero, add_zero] at hsplit
      exact hsplit.symm
    · intro hy
      have hzero : ((n % d : Nat) : K) = 0 := by linarith
      exact Nat.cast_eq_zero.mp hzero

/--
An integer square root cuts the exact one off where it leaves a remainder.
-/
theorem truncates_sqrt {n q r : Nat} {y : K} (hy : 0 <= y) (hsquare : y * y = n)
    (hsplit : q * q + r = n) (hr : r <= 2 * q) : Truncates q (decide (r ≠ 0)) y := by
  have hq : (0 : K) <= q := Nat.cast_nonneg q
  have hrest : (q : K) * q + r = y * y := by
    rw [hsquare]
    exact_mod_cast hsplit
  have hr0 : (0 : K) <= r := Nat.cast_nonneg r
  have hr2 : (r : K) <= 2 * q := by exact_mod_cast hr
  refine ⟨?_, ?_, ?_⟩
  · rw [mul_self_le_mul_self_iff hq hy]
    linarith
  · push_cast
    rw [mul_self_lt_mul_self_iff hy (by linarith)]
    nlinarith
  · rw [decide_eq_true_eq, ne_eq, ne_eq, not_iff_not, ← mul_self_inj hy hq]
    constructor
    · intro hzero
      rw [← hrest, hzero, Nat.cast_zero, add_zero]
    · intro heq
      have hzero : (r : K) = 0 := by linarith
      exact Nat.cast_eq_zero.mp hzero

/--
The half-way bit and the significand above it, cut out of an integer.
-/
theorem two_mul_div_add_bit (n k : Nat) :
    2 * (n / 2 ^ (k + 1)) + (n.testBit k).toNat = n / 2 ^ k := by
  have hdiv : n / 2 ^ (k + 1) = n / 2 ^ k / 2 := by
    rw [Nat.div_div_eq_div_mul, pow_succ]
  rw [Nat.testBit_eq_decide_div_mod_eq, hdiv]
  rcases Nat.mod_two_eq_zero_or_one (n / 2 ^ k) with hmod | hmod
  · rw [hmod, decide_eq_false (by omega), Bool.toNat_false]
    omega
  · rw [hmod, decide_eq_true rfl, Bool.toNat_true]
    omega

/--
A bit and the bits below it together.
-/
theorem bit_or_rest (n k : Nat) :
    (n.testBit k || decide (n % 2 ^ k ≠ 0)) = decide (n % 2 ^ (k + 1) ≠ 0) := by
  have hmod : n % 2 ^ (k + 1) = n % 2 ^ k + 2 ^ k * (n / 2 ^ k % 2) := by
    rw [pow_succ, Nat.mod_mul]
  have hpos := Nat.two_pow_pos k
  rw [Nat.testBit_eq_decide_div_mod_eq, ← Bool.decide_or, hmod]
  congr 1
  apply propext
  rcases Nat.mod_two_eq_zero_or_one (n / 2 ^ k) with hbit | hbit
  · rw [hbit]
    omega
  · rw [hbit]
    omega

end

/-!
# Sticky integers

A value that is not an integer is kept as the odd one of its two neighbours.
-/

def Sticky (t : Nat) (y : K) : Prop :=
  y = t ∨ (t % 2 = 1 ∧ (t : K) - 1 < y ∧ y < t + 1)

section

variable {t b : Nat} {y : K}

theorem Sticky.truncates (h : Sticky t y) {k : Nat} (hk : 0 < k) :
    Truncates (t / 2 ^ k) (decide (t % 2 ^ k ≠ 0)) (y / 2 ^ k) := by
  obtain ⟨k, rfl⟩ := Nat.exists_eq_add_of_lt hk
  rw [Nat.zero_add]
  -- cut off the last bit, then the others
  have hfirst : Truncates (t / 2) (decide (t % 2 = 1)) (y / 2) := by
    have hsplit : ((t / 2 : Nat) : K) * 2 + ((t % 2 : Nat) : K) = t := by
      have hnat := Nat.div_add_mod' t 2
      exact_mod_cast hnat
    rcases h with rfl | ⟨hodd, hlow, hhigh⟩
    · rcases Nat.mod_two_eq_zero_or_one t with hmod | hmod
      · rw [hmod, Nat.cast_zero] at hsplit
        refine ⟨?_, ?_, ?_⟩
        · linarith
        · push_cast
          linarith
        · simp only [hmod, Nat.zero_ne_one, decide_false, Bool.false_eq_true, ne_eq, false_iff,
            not_not]
          linarith
      · rw [hmod, Nat.cast_one] at hsplit
        refine ⟨?_, ?_, ?_⟩
        · linarith
        · push_cast
          linarith
        · simp only [hmod, decide_true, ne_eq, true_iff]
          intro heq
          linarith
    · rw [hodd, Nat.cast_one] at hsplit
      refine ⟨?_, ?_, ?_⟩
      · linarith
      · push_cast
        linarith
      · simp only [hodd, decide_true, ne_eq, true_iff]
        intro heq
        linarith
  have hnext := hfirst.shift k
  have hdiv : t / 2 / 2 ^ k = t / 2 ^ (k + 1) := by
    rw [Nat.div_div_eq_div_mul, pow_succ, Nat.mul_comm]
  have hrest : (decide (t % 2 = 1) || decide (t / 2 % 2 ^ k ≠ 0))
      = decide (t % 2 ^ (k + 1) ≠ 0) := by
    have hmod : t % 2 ^ (k + 1) = t % 2 + 2 * (t / 2 % 2 ^ k) := by
      rw [pow_succ, Nat.mul_comm, Nat.mod_mul]
    rw [hmod, ← Bool.decide_or]
    congr 1
    apply propext
    omega
  rw [hdiv, hrest, div_div, ← pow_succ'] at hnext
  exact hnext

/--
After a shift to the left the last bit still tells what was cut off, as long as it stays
below the cut.
-/
theorem Sticky.truncates_shiftLeft (h : Sticky t y) {k j : Nat} (hk : y = t ∨ k < j) :
    Truncates (t * 2 ^ k / 2 ^ j) (decide (t * 2 ^ k % 2 ^ j ≠ 0)) (y * 2 ^ k / 2 ^ j) := by
  rcases hk with rfl | hlt
  · have hcut := (truncates_nat (K := K) (t * 2 ^ k)).shift j
    push_cast at hcut
    exact hcut
  · obtain ⟨d, rfl⟩ := Nat.exists_eq_add_of_lt hlt
    have hpow : 2 ^ (k + d + 1) = 2 ^ k * 2 ^ (d + 1) := by rw [← pow_add, Nat.add_assoc]
    have hcut := h.truncates (k := d + 1) (Nat.succ_pos d)
    have hpos := Nat.two_pow_pos k
    have hdiv : t * 2 ^ k / 2 ^ (k + d + 1) = t / 2 ^ (d + 1) := by
      rw [hpow, Nat.mul_comm t, Nat.mul_div_mul_left _ _ hpos]
    have hmod : decide (t * 2 ^ k % 2 ^ (k + d + 1) ≠ 0) = decide (t % 2 ^ (d + 1) ≠ 0) := by
      rw [hpow, Nat.mul_comm t, Nat.mul_mod_mul_left]
      congr 1
      apply propext
      simp
    have hreal : y * 2 ^ k / 2 ^ (k + d + 1) = y / 2 ^ (d + 1) := by
      rw [add_assoc, pow_add (2 : K) k]
      field_simp
    rw [hdiv, hmod, hreal]
    exact hcut

theorem Sticky.add (h : Sticky t y) (hb : b % 2 = 0) : Sticky (b + t) ((b : K) + y) := by
  rcases h with rfl | ⟨hodd, hlow, hhigh⟩
  · left
    push_cast
    rfl
  · right
    refine ⟨by omega, ?_, ?_⟩
    · push_cast
      linarith
    · push_cast
      linarith

theorem Sticky.sub (h : Sticky t y) (hb : b % 2 = 0) (hle : t <= b) :
    Sticky (b - t) ((b : K) - y) := by
  rcases h with rfl | ⟨hodd, hlow, hhigh⟩
  · left
    rw [Nat.cast_sub hle]
  · right
    refine ⟨by omega, ?_, ?_⟩
    · rw [Nat.cast_sub hle]
      linarith
    · rw [Nat.cast_sub hle]
      linarith

theorem or_one (n : Nat) : n ||| 1 = n / 2 * 2 + 1 := by
  have heven : n / 2 * 2 + 1 = n / 2 * 2 ||| 1 := by
    rw [Nat.mul_comm]
    exact Nat.two_pow_add_eq_or_of_lt (i := 1) (by decide) (n / 2)
  rcases Nat.mod_two_eq_zero_or_one n with hmod | hmod
  · rw [heven]
    congr 1
    omega
  · have hn : n = n / 2 * 2 ||| 1 := by omega
    rw [heven]
    conv_lhs => rw [hn, Nat.or_assoc, Nat.or_self]

/--
Shifting right and keeping the bits that fall out in the last place.
-/
def stickyShift (t k : Nat) : Nat := t / 2 ^ k ||| (decide (t % 2 ^ k ≠ 0)).toNat

theorem stickyShift_le (t k : Nat) : stickyShift t k <= t / 2 ^ k + 1 := by
  unfold stickyShift
  cases decide (t % 2 ^ k ≠ 0) with
  | false => simp
  | true =>
      rw [Bool.toNat_true, or_one]
      omega

theorem stickyShift_exact {t k : Nat} (h : t % 2 ^ k = 0) : stickyShift t k = t / 2 ^ k := by
  unfold stickyShift
  rw [decide_eq_false (not_not.mpr h), Bool.toNat_false, Nat.or_zero]

theorem sticky_stickyShift (t k : Nat) : Sticky (stickyShift t k) ((t : K) / 2 ^ k) := by
  unfold stickyShift
  have hpos : (0 : K) < 2 ^ k := by positivity
  have hsplit : ((t / 2 ^ k : Nat) : K) * 2 ^ k + ((t % 2 ^ k : Nat) : K) = t := by
    have hnat := Nat.div_add_mod' t (2 ^ k)
    exact_mod_cast hnat
  by_cases hzero : t % 2 ^ k = 0
  · left
    rw [hzero, Nat.cast_zero, add_zero] at hsplit
    rw [decide_eq_false (not_not.mpr hzero), Bool.toNat_false, Nat.or_zero, div_eq_iff hpos.ne',
      hsplit]
  · right
    rw [decide_eq_true hzero, Bool.toNat_true]
    have hmodPos : (0 : K) < ((t % 2 ^ k : Nat) : K) := Nat.cast_pos.mpr (Nat.pos_of_ne_zero hzero)
    have hmodLt : ((t % 2 ^ k : Nat) : K) < 2 ^ k := by
      have hnat := Nat.mod_lt t (Nat.two_pow_pos k)
      exact_mod_cast hnat
    have hdiv : (t : K) / 2 ^ k = (t / 2 ^ k : Nat) + ((t % 2 ^ k : Nat) : K) / 2 ^ k := by
      rw [← hsplit]
      field_simp
    have hfracPos : 0 < ((t % 2 ^ k : Nat) : K) / 2 ^ k := div_pos hmodPos hpos
    have hfracLt : ((t % 2 ^ k : Nat) : K) / 2 ^ k < 1 := (div_lt_one hpos).mpr hmodLt
    rcases Nat.mod_two_eq_zero_or_one (t / 2 ^ k) with hmod | hmod
    · have hor : t / 2 ^ k ||| 1 = t / 2 ^ k + 1 := by
        rw [or_one]
        omega
      rw [hor, hdiv]
      refine ⟨by omega, ?_, ?_⟩
      · push_cast
        linarith
      · push_cast
        linarith
    · have hor : t / 2 ^ k ||| 1 = t / 2 ^ k := by
        rw [or_one]
        omega
      rw [hor, hdiv]
      refine ⟨hmod, ?_, ?_⟩
      · linarith
      · linarith

end

/-!
# Aligned addition

Two operands in a frame of some width: the larger one has its leading bit in place, the
other one is shifted to the right and keeps what falls out in its last place.
-/

def alignedBits (sub : Bool) (b t k : Nat) : Nat :=
  if sub then b - stickyShift t k else b + stickyShift t k

def alignedValue (K : Type) [Field K] (sub : Bool) (b t k : Nat) : K :=
  if sub then (b : K) - (t : K) / 2 ^ k else (b : K) + (t : K) / 2 ^ k

/--
Two bits of padding are enough for nothing to be lost in a deep cancellation.
-/
structure Aligned (w b t k : Nat) : Prop where
  wide : 3 <= w
  even : b % 2 = 0
  low : 2 ^ (w - 1) <= b
  high : b < 2 ^ w
  small : t < 2 ^ w
  padded : t % 4 = 0
  order : k = 0 -> t <= b

namespace Aligned

variable {w b t k : Nat} {sub : Bool} (h : Aligned w b t k)

include h

theorem pow_pred : 2 ^ w = 2 ^ (w - 2) * 4 ∧ 2 ^ (w - 1) = 2 ^ (w - 2) * 2 ∧ 2 <= 2 ^ (w - 2) := by
  obtain ⟨d, rfl⟩ := Nat.exists_eq_add_of_le h.wide
  refine ⟨?_, ?_, ?_⟩
  · have hsub : 3 + d - 2 = d + 1 := by omega
    rw [hsub, Nat.add_comm 3 d]
    ring
  · have hsub : 3 + d - 2 = d + 1 := by omega
    have hpred : 3 + d - 1 = d + 2 := by omega
    rw [hsub, hpred]
    ring
  · have hsub : 3 + d - 2 = d + 1 := by omega
    rw [hsub, pow_succ]
    have hpos := Nat.two_pow_pos d
    omega

/--
A short shift loses nothing, and a long one leaves a small operand.
-/
theorem exact_or_small :
    (t % 2 ^ k = 0 ∧ t / 2 ^ k <= b) ∨ stickyShift t k + 2 ^ (w - 2) <= b := by
  obtain ⟨hw, hpred, htwo⟩ := h.pow_pred
  have hsmall := h.small
  have hlow := h.low
  rcases Nat.lt_or_ge 2 k with hfar | hnear
  · right
    have hle := stickyShift_le t k
    have hdiv : t / 2 ^ k <= t / 2 ^ 3 :=
      Nat.div_le_div_left (Nat.pow_le_pow_right (by decide) hfar) (by decide)
    omega
  · left
    have hdvd : 2 ^ k ∣ t := by
      have hfour : 2 ^ k ∣ 2 ^ 2 := Nat.pow_dvd_pow 2 hnear
      exact dvd_trans hfour (Nat.dvd_of_mod_eq_zero h.padded)
    refine ⟨Nat.mod_eq_zero_of_dvd hdvd, ?_⟩
    rcases Nat.eq_zero_or_pos k with hzero | hpos
    · rw [hzero, pow_zero, Nat.div_one]
      exact h.order hzero
    · have hdiv : t / 2 ^ k <= t / 2 ^ 1 :=
        Nat.div_le_div_left (Nat.pow_le_pow_right (by decide) hpos) (by decide)
      omega

theorem small_le : stickyShift t k <= b := by
  rcases h.exact_or_small with ⟨hexact, hle⟩ | hfar
  · rw [stickyShift_exact hexact]
    exact hle
  · exact le_trans (Nat.le_add_right _ _) hfar

theorem sticky : Sticky (alignedBits sub b t k) (alignedValue K sub b t k) := by
  unfold alignedBits alignedValue
  cases sub with
  | false => exact (sticky_stickyShift t k).add h.even
  | true => exact (sticky_stickyShift t k).sub h.even h.small_le

theorem exact_or_large :
    alignedValue K sub b t k = alignedBits sub b t k ∨ 2 ^ (w - 2) <= alignedBits sub b t k := by
  have hle := h.small_le
  unfold alignedBits alignedValue
  rcases h.exact_or_small with ⟨hexact, _⟩ | hfar
  · left
    have hdiv : (t : K) / 2 ^ k = stickyShift t k := by
      rw [stickyShift_exact hexact, div_eq_iff (by positivity)]
      have hcancel := Nat.div_mul_cancel (Nat.dvd_of_mod_eq_zero hexact)
      exact_mod_cast hcancel.symm
    rw [hdiv]
    cases sub with
    | false =>
        simp only [Bool.false_eq_true, if_false]
        push_cast
        rfl
    | true =>
        simp only [if_true]
        rw [Nat.cast_sub hle]
  · right
    cases sub with
    | false =>
        simp only [Bool.false_eq_true, if_false]
        omega
    | true =>
        simp only [if_true]
        omega

theorem eq_zero_iff : alignedBits sub b t k = 0 <-> alignedValue K sub b t k = 0 := by
  have hsticky : Sticky (alignedBits sub b t k) (alignedValue K sub b t k) := h.sticky
  constructor
  · intro hzero
    rw [hzero] at hsticky
    rcases hsticky with heq | ⟨hodd, _⟩
    · rw [heq]
      exact Nat.cast_zero
    · exact absurd hodd (by decide)
  · intro hzero
    rw [hzero] at hsticky
    rcases hsticky with heq | ⟨hodd, hlt, _⟩
    · exact Nat.cast_eq_zero.mp heq.symm
    · have hcast : ((alignedBits sub b t k : Nat) : K) < 1 := by linarith
      have hnat : alignedBits sub b t k < 1 := by exact_mod_cast hcast
      omega

end Aligned
end Lib
end RvCores
