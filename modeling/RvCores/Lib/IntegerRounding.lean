import RvCores.Lib.Rounding
import Mathlib.Algebra.Order.Group.Int
import Mathlib.Data.Int.Cast.Lemmas

/-!
# Rounding to an integer

The five modes choose among the integers as they choose among the representable values.
The integer part of a value, its half-way bit and the bit for what lies below tell the
integer that is chosen.
-/

namespace RvCores
namespace Lib

variable {K : Type} [Field K] [LinearOrder K] [IsStrictOrderedRing K]

def IntBelow (x : K) (n : Int) : Prop := IsGreatest {m : Int | (m : K) <= x} n

def IntAbove (x : K) (n : Int) : Prop := IsLeast {m : Int | x <= (m : K)} n

def IntNearest (x : K) (n : Int) : Prop := forall m : Int, |x - n| <= |x - m|

def RoundsToInt : RoundingMode -> K -> Int -> Prop
  | .down, x, n => IntBelow x n
  | .up, x, n => IntAbove x n
  | .towardZero, x, n => (0 <= x -> IntBelow x n) ∧ (x <= 0 -> IntAbove x n)
  | .nearestEven, x, n => IntNearest x n ∧ forall m, IntNearest x m -> m ≠ n -> n % 2 = 0
  | .nearestAway, x, n => IntNearest x n ∧ forall m, IntNearest x m -> |m| <= |n|

/-!
# Signs
-/

section

variable {x : K} {n : Int}

theorem IntBelow.neg (h : IntBelow x n) : IntAbove (-x) (-n) := by
  constructor
  · show -x <= ((-n : Int) : K)
    rw [Int.cast_neg]
    exact neg_le_neg h.left
  · intro m hm
    have hle : ((-m : Int) : K) <= x := by
      rw [Int.cast_neg]
      exact neg_le.mp hm
    have hbound := h.right hle
    omega

theorem IntAbove.neg (h : IntAbove x n) : IntBelow (-x) (-n) := by
  constructor
  · show ((-n : Int) : K) <= -x
    rw [Int.cast_neg]
    exact neg_le_neg h.left
  · intro m hm
    have hle : x <= ((-m : Int) : K) := by
      rw [Int.cast_neg]
      exact le_neg.mp hm
    have hbound := h.right hle
    omega

omit [IsStrictOrderedRing K] in
theorem IntNearest.neg (h : IntNearest x n) : IntNearest (-x) (-n) := by
  intro m
  have hle := h (-m)
  have hleft : |-x - ((-n : Int) : K)| = |x - n| := by
    rw [← abs_neg]
    congr 1
    push_cast
    ring
  have hright : |-x - (m : K)| = |x - ((-m : Int) : K)| := by
    rw [← abs_neg]
    congr 1
    push_cast
    ring
  rwa [hleft, hright]

theorem RoundsToInt.neg {mode : RoundingMode} (h : RoundsToInt mode x n) :
    RoundsToInt mode.mirror (-x) (-n) := by
  cases mode with
  | down => exact IntBelow.neg h
  | up => exact IntAbove.neg h
  | towardZero =>
      constructor
      · intro hx
        exact (h.right (neg_nonneg.mp hx)).neg
      · intro hx
        exact (h.left (neg_nonpos.mp hx)).neg
  | nearestEven =>
      refine ⟨h.left.neg, ?_⟩
      intro m hm hne
      have hmirror := hm.neg
      rw [neg_neg] at hmirror
      have heven := h.right (-m) hmirror (by omega)
      omega
  | nearestAway =>
      refine ⟨h.left.neg, ?_⟩
      intro m hm
      have hmirror := hm.neg
      rw [neg_neg] at hmirror
      have hle := h.right (-m) hmirror
      rwa [abs_neg] at hle ⊢

theorem roundsToInt_neg_iff {mode : RoundingMode} :
    RoundsToInt mode (-x) (-n) <-> RoundsToInt mode.mirror x n := by
  constructor
  · intro h
    have hneg := h.neg
    rwa [neg_neg, neg_neg] at hneg
  · intro h
    have hneg := h.neg
    cases mode <;> exact hneg

end

def signedInt (neg : Bool) (m : Nat) : Int := if neg then -(m : Int) else m

omit [LinearOrder K] [IsStrictOrderedRing K] in
theorem cast_signedInt (neg : Bool) (m : Nat) :
    ((signedInt neg m : Int) : K) = applySign neg (m : K) := by
  cases neg <;> simp [signedInt, applySign]

omit [LinearOrder K] [IsStrictOrderedRing K] in
theorem applySign_inj {neg : Bool} {x y : K} : applySign neg x = applySign neg y <-> x = y := by
  cases neg <;> simp [applySign]

/-!
# The choice between two neighbours
-/

section

variable {n : Nat} {guard rest : Bool} {x : K} (h : Truncates (2 * n + guard.toNat) rest (2 * x))

include h

theorem Truncates.int_le : ((n : Int) : K) <= x := by
  have hle := h.le
  have hguard : (0 : K) <= (guard.toNat : K) := Nat.cast_nonneg _
  push_cast at hle ⊢
  linarith

theorem Truncates.int_lt : x < (((n : Int) + 1 : Int) : K) := by
  have hlt := h.lt
  have hguard : (guard.toNat : K) <= 1 := by exact_mod_cast Bool.toNat_le guard
  push_cast at hlt ⊢
  linarith

theorem Truncates.int_exact : x = ((n : Int) : K) <-> (guard || rest) = false := by
  have hscaled := h.exact_iff 0
  rw [zpow_zero, mul_one, zero_add, zpow_one] at hscaled
  rw [← hscaled]
  push_cast
  constructor
  · intro heq
    rw [heq, mul_comm]
  · intro heq
    linarith

/--
An integer below the value is no nearer than the integer part, one above it no nearer than
the next.
-/
theorem Truncates.int_distance (m : Int) :
    (m <= n ∧ |x - m| = x - m) ∨ ((n : Int) + 1 <= m ∧ |x - m| = m - x) := by
  have hle := h.int_le
  have hlt := h.int_lt
  rcases lt_or_ge (n : Int) m with hgt | hge
  · right
    have hcast : (((n : Int) + 1 : Int) : K) <= m := Int.cast_le.mpr hgt
    refine ⟨hgt, ?_⟩
    rw [abs_sub_comm]
    exact abs_of_nonneg (by linarith)
  · left
    have hcast : (m : K) <= ((n : Int) : K) := Int.cast_le.mpr hge
    exact ⟨hge, abs_of_nonneg (by linarith)⟩

/--
Which of the neighbours is nearer.
-/
theorem Truncates.int_halves :
    (x - n <= n + 1 - x <-> (guard && rest) = false) ∧ (n + 1 - x <= x - n <-> guard = true) := by
  cases guard with
  | false =>
      have hnear := h.low_nearer (-1)
      rw [neg_add_cancel, zpow_zero, mul_one, mul_one] at hnear
      have hhalf : 2 * x * 2 ^ (-1 : Int) = x := by
        rw [zpow_neg_one]
        ring
      rw [hhalf] at hnear
      push_cast at hnear
      exact ⟨iff_of_true hnear.le rfl, iff_of_false (not_le.mpr hnear) Bool.false_ne_true⟩
  | true =>
      have hnear := h.high_nearer (-1)
      have htie := h.tie_iff (-1)
      rw [neg_add_cancel, zpow_zero, mul_one, mul_one] at hnear htie
      have hhalf : 2 * x * 2 ^ (-1 : Int) = x := by
        rw [zpow_neg_one]
        ring
      rw [hhalf] at hnear htie
      push_cast at hnear htie
      exact ⟨htie, iff_of_true hnear rfl⟩

theorem Truncates.intNearest_iff {v : Int} :
    IntNearest x v <->
      (v = n ∧ (guard && rest) = false) ∨ (v = n + 1 ∧ guard = true) := by
  obtain ⟨hlowIff, hhighIff⟩ := h.int_halves
  have hlow : |x - ((n : Int) : K)| = x - n := by
    rcases h.int_distance n with ⟨_, heq⟩ | ⟨hlt, _⟩
    · exact heq.trans (by push_cast; rfl)
    · omega
  have hhigh : |x - (((n : Int) + 1 : Int) : K)| = n + 1 - x := by
    rcases h.int_distance ((n : Int) + 1) with ⟨hlt, _⟩ | ⟨_, heq⟩
    · omega
    · exact heq.trans (by push_cast; rfl)
  rw [← hlowIff, ← hhighIff]
  constructor
  · intro hnear
    have htoLow := hnear n
    have htoHigh := hnear ((n : Int) + 1)
    rw [hlow] at htoLow
    rw [hhigh] at htoHigh
    rcases h.int_distance v with ⟨hle, hdist⟩ | ⟨hge, hdist⟩
    · left
      rw [hdist] at htoLow htoHigh
      have hcast : ((n : Int) : K) <= v := by
        push_cast
        linarith
      have heq : v = n := le_antisymm hle (Int.cast_le.mp hcast)
      rw [heq] at htoHigh
      push_cast at htoHigh
      exact ⟨heq, htoHigh⟩
    · right
      rw [hdist] at htoLow htoHigh
      have hcast : (v : K) <= (((n : Int) + 1 : Int) : K) := by
        push_cast
        linarith
      have heq : v = n + 1 := le_antisymm (Int.cast_le.mp hcast) hge
      rw [heq] at htoLow
      push_cast at htoLow
      exact ⟨heq, htoLow⟩
  · have hother : forall m : Int, x - n <= |x - m| ∨ n + 1 - x <= |x - m| := by
      intro m
      rcases h.int_distance m with ⟨hle, hdist⟩ | ⟨hge, hdist⟩
      · left
        have hcast : (m : K) <= ((n : Int) : K) := Int.cast_le.mpr hle
        push_cast at hcast
        rw [hdist]
        linarith
      · right
        have hcast : (((n : Int) + 1 : Int) : K) <= m := Int.cast_le.mpr hge
        push_cast at hcast
        rw [hdist]
        linarith
    rintro (⟨rfl, hle⟩ | ⟨rfl, hle⟩)
    · intro m
      rw [hlow]
      rcases hother m with hfirst | hsecond
      · exact hfirst
      · exact le_trans hle hsecond
    · intro m
      rw [hhigh]
      rcases hother m with hfirst | hsecond
      · exact le_trans hle hfirst
      · exact hsecond

theorem Truncates.intBelow_iff {v : Int} : IntBelow x v <-> v = n := by
  have hle := h.int_le
  have hlt := h.int_lt
  have hchosen : IntBelow x n := by
    refine ⟨hle, ?_⟩
    intro m hm
    have hcast : (m : K) < (((n : Int) + 1 : Int) : K) := lt_of_le_of_lt hm hlt
    exact Int.lt_add_one_iff.mp (Int.cast_lt.mp hcast)
  exact ⟨fun hv => IsGreatest.unique hv hchosen, fun hv => hv ▸ hchosen⟩

theorem Truncates.intAbove_iff {v : Int} :
    IntAbove x v <-> v = n + (guard || rest).toNat := by
  have hle := h.int_le
  have hlt := h.int_lt
  have hexact := h.int_exact
  have hchosen : IntAbove x (n + (guard || rest).toNat) := by
    cases hbits : guard || rest with
    | false =>
        have heq := hexact.mpr hbits
        rw [Bool.toNat_false, Nat.cast_zero, add_zero]
        refine ⟨heq.le, ?_⟩
        intro m hm
        have hcast : ((n : Int) : K) <= m := le_trans hle hm
        exact Int.cast_le.mp hcast
    | true =>
        rw [Bool.toNat_true, Nat.cast_one]
        refine ⟨hlt.le, ?_⟩
        intro m hm
        have hne : x ≠ ((n : Int) : K) := by
          intro heq
          rw [hexact.mp heq] at hbits
          cases hbits
        have hcast : ((n : Int) : K) < m :=
          lt_of_lt_of_le (lt_of_le_of_ne hle hne.symm) hm
        exact Int.add_one_le_iff.mpr (Int.cast_lt.mp hcast)
  exact ⟨fun hv => IsLeast.unique hv hchosen, fun hv => hv ▸ hchosen⟩

/--
The integer that a value which is not negative is rounded to.
-/
theorem Truncates.roundsToInt_iff {v : Int} (mode : RoundingMode) :
    RoundsToInt mode x v <->
      v = n + (roundsAway mode false guard rest (decide (n % 2 = 1))).toNat := by
  have hnear := fun m => h.intNearest_iff (v := m)
  have hpos : 0 <= x := le_trans (by push_cast; exact Nat.cast_nonneg n) h.int_le
  cases mode with
  | down =>
      show IntBelow x v <-> _
      rw [h.intBelow_iff]
      simp [roundsAway]
  | up =>
      show IntAbove x v <-> _
      rw [h.intAbove_iff]
      rfl
  | towardZero =>
      show (_ -> _) ∧ (_ -> _) <-> _
      rw [h.intBelow_iff, h.intAbove_iff]
      constructor
      · intro hv
        simpa [roundsAway] using hv.left hpos
      · intro hv
        have hvn : v = n := by simpa [roundsAway] using hv
        refine ⟨fun _ => hvn, fun hneg => ?_⟩
        have hzero : x = 0 := le_antisymm hneg hpos
        have hle := h.int_le
        rw [hzero] at hle
        have hn : n = 0 := by
          have hcast : (n : Int) <= 0 := by exact_mod_cast hle
          omega
        have hexact : x = ((n : Int) : K) := by
          rw [hzero, hn]
          simp
        rw [h.int_exact.mp hexact, hvn]
        simp
  | nearestEven =>
      show IntNearest x v ∧ (forall m, IntNearest x m -> m ≠ v -> v % 2 = 0) <-> _
      simp only [hnear]
      cases guard with
      | false =>
          simp only [Bool.false_and, and_true, Bool.false_eq_true, and_false, or_false,
            roundsAway, Bool.toNat_false, Nat.cast_zero, add_zero]
          exact ⟨And.left, fun hv => ⟨hv, fun m hm hne => absurd (hm.trans hv.symm) hne⟩⟩
      | true =>
          cases rest with
          | true =>
              simp only [Bool.true_and, Bool.true_eq_false, and_false, false_or, and_true,
                roundsAway, Bool.true_or, Bool.toNat_true, Nat.cast_one]
              exact ⟨And.left, fun hv => ⟨hv, fun m hm hne => absurd (hm.trans hv.symm) hne⟩⟩
          | false =>
              simp only [Bool.and_false, and_true, roundsAway, Bool.true_and, Bool.false_or]
              rcases Nat.mod_two_eq_zero_or_one n with hmod | hmod
              · -- a tie that goes to the lower neighbour
                simp only [hmod, Nat.zero_ne_one, decide_false, Bool.toNat_false, Nat.cast_zero,
                  add_zero]
                constructor
                · rintro ⟨hv | hv, hties⟩
                  · exact hv
                  · have heven := hties n (Or.inl rfl) (by omega)
                    omega
                · intro hv
                  exact ⟨Or.inl hv, fun _ _ _ => by omega⟩
              · simp only [hmod, decide_true, Bool.toNat_true, Nat.cast_one]
                constructor
                · rintro ⟨hv | hv, hties⟩
                  · have heven := hties (n + 1) (Or.inr rfl) (by omega)
                    omega
                  · exact hv
                · intro hv
                  exact ⟨Or.inr hv, fun _ _ _ => by omega⟩
  | nearestAway =>
      show IntNearest x v ∧ (forall m, IntNearest x m -> |m| <= |v|) <-> _
      simp only [hnear]
      cases guard with
      | false =>
          simp only [Bool.false_and, and_true, Bool.false_eq_true, and_false, or_false,
            roundsAway, Bool.toNat_false, Nat.cast_zero, add_zero]
          exact ⟨And.left, fun hv => ⟨hv, fun m hm => by rw [hm, hv]⟩⟩
      | true =>
          simp only [Bool.true_and, and_true, roundsAway, Bool.toNat_true, Nat.cast_one]
          constructor
          · rintro ⟨⟨hv, _⟩ | hv, hfarthest⟩
            · have hle := hfarthest (n + 1) (Or.inr rfl)
              rw [hv, abs_of_nonneg (by omega), abs_of_nonneg (by omega)] at hle
              omega
            · exact hv
          · intro hv
            refine ⟨Or.inr hv, ?_⟩
            rintro m (⟨hm, _⟩ | hm)
            · rw [hm, hv, abs_of_nonneg (by omega), abs_of_nonneg (by omega)]
              omega
            · rw [hm, hv]

/--
The same for either sign, from the bits of the magnitude.
-/
theorem Truncates.roundsToInt_signed_iff {v : Int} (mode : RoundingMode) (neg : Bool) :
    RoundsToInt mode (applySign neg x) v <->
      v = signedInt neg (n + (roundsAway mode neg guard rest (decide (n % 2 = 1))).toNat) := by
  cases neg with
  | false =>
      rw [signedInt, if_neg Bool.false_ne_true, Nat.cast_add]
      exact h.roundsToInt_iff mode
  | true =>
      show RoundsToInt mode (-x) v <-> v = -_
      rw [← roundsAway_mirror, ← neg_eq_iff_eq_neg, Nat.cast_add, ← h.roundsToInt_iff mode.mirror,
        ← roundsToInt_neg_iff, neg_neg]

/--
The rounding is exact if nothing is cut off.
-/
theorem Truncates.signedInt_exact_iff (mode : RoundingMode) (neg : Bool) :
    applySign neg x =
        (signedInt neg (n + (roundsAway mode neg guard rest (decide (n % 2 = 1))).toNat) : K) <->
      (guard || rest) = false := by
  rw [cast_signedInt, applySign_inj]
  constructor
  · intro heq
    have hlt := h.int_lt
    rw [heq] at hlt
    have hless : n + (roundsAway mode neg guard rest (decide (n % 2 = 1))).toNat < n + 1 := by
      exact_mod_cast hlt
    have hnone : (roundsAway mode neg guard rest (decide (n % 2 = 1))).toNat = 0 := by omega
    rw [← h.int_exact, heq, hnone]
    push_cast
    ring
  · intro hbits
    have hnone : roundsAway mode neg guard rest (decide (n % 2 = 1)) = false := by
      rw [Bool.or_eq_false_iff] at hbits
      rw [hbits.left, hbits.right]
      cases mode <;> cases neg <;> rfl
    rw [h.int_exact.mpr hbits, hnone]
    push_cast
    simp

end

/--
An integer is its own rounding.
-/
theorem roundsToInt_cast_iff {mode : RoundingMode} {n v : Int} :
    RoundsToInt mode (n : K) v <-> v = n := by
  have hcut : forall k : Nat, Truncates (2 * k + false.toNat) false (2 * ((k : Int) : K)) := by
    intro k
    refine ⟨?_, ?_, ?_⟩
    · push_cast
      simp
    · push_cast
      simp
    · simp
  rcases Int.eq_nat_or_neg n with ⟨k, rfl | rfl⟩
  · rw [(hcut k).roundsToInt_iff mode]
    cases mode <;> simp [roundsAway]
  · have hsigned := (hcut k).roundsToInt_signed_iff (v := v) mode true
    rw [applySign, if_pos rfl, ← Int.cast_neg] at hsigned
    rw [hsigned]
    cases mode <;> simp [roundsAway, signedInt]

end Lib
end RvCores
