import Mathlib.Algebra.Order.Field.Basic
import Mathlib.Algebra.Order.Field.Power
import Mathlib.Order.Bounds.Basic
import Mathlib.Tactic.FieldSimp
import Mathlib.Tactic.Linarith
import Mathlib.Tactic.Ring

/-!
# Rounding to a number of significant bits

A value with a bounded significand and any exponent is representable.  The five
rounding modes are said by what they choose among the representable values.  Between
two neighbours the choice is a matter of the half-way bit, of whether anything lies
below it, and of the parity of the lower neighbour.
-/

namespace RvCores
namespace Lib

variable {K : Type} [Field K] [LinearOrder K] [IsStrictOrderedRing K]

/-!
# Representable values and the modes
-/

-- Named once, so that the literal two carries the same proof in every module.
scoped instance two_atLeastTwo : Nat.AtLeastTwo 2 := ⟨le_rfl⟩

def Representable (p : Nat) (x : K) : Prop :=
  exists m e : Int, |m| < 2 ^ p ∧ x = (m : K) * 2 ^ e

inductive RoundingMode where
  | nearestEven
  | towardZero
  | down
  | up
  | nearestAway
deriving DecidableEq, Repr

namespace RoundingMode

/--
The mode that rounds the mirror image of a value to the mirror image of its rounding.
-/
def mirror : RoundingMode -> RoundingMode
  | down => up
  | up => down
  | mode => mode

end RoundingMode

def RoundsDown (p : Nat) (x y : K) : Prop :=
  IsGreatest {z | Representable p z ∧ z <= x} y

def RoundsUp (p : Nat) (x y : K) : Prop :=
  IsLeast {z | Representable p z ∧ x <= z} y

structure Nearest (p : Nat) (x y : K) : Prop where
  rep : Representable p y
  least : forall z, Representable p z -> |x - y| <= |x - z|

/--
Of two nearest values the even one is representable with one bit less.
-/
def RoundsTo (p : Nat) : RoundingMode -> K -> K -> Prop
  | .down, x, y => RoundsDown p x y
  | .up, x, y => RoundsUp p x y
  | .towardZero, x, y => (0 <= x -> RoundsDown p x y) ∧ (x <= 0 -> RoundsUp p x y)
  | .nearestEven, x, y =>
      Nearest p x y ∧
        forall z, Nearest p x z -> z ≠ y -> Representable (p - 1) y
  | .nearestAway, x, y => Nearest p x y ∧ forall z, Nearest p x z -> |z| <= |y|

section

variable {p : Nat} {x y z : K}

omit [LinearOrder K] [IsStrictOrderedRing K] in
theorem Representable.neg (h : Representable p x) : Representable p (-x) := by
  rcases h with ⟨m, e, hm, rfl⟩
  refine ⟨-m, e, ?_, ?_⟩
  · rw [abs_neg]
    exact hm
  · push_cast
    ring

theorem roundsUp_neg (h : RoundsDown p x y) : RoundsUp p (-x) (-y) := by
  constructor
  · exact ⟨h.left.left.neg, neg_le_neg h.left.right⟩
  · rintro z ⟨hrep, hle⟩
    have hbound := h.right ⟨hrep.neg, neg_le.mp hle⟩
    exact neg_le.mp hbound

theorem roundsDown_neg (h : RoundsUp p x y) : RoundsDown p (-x) (-y) := by
  constructor
  · exact ⟨h.left.left.neg, neg_le_neg h.left.right⟩
  · rintro z ⟨hrep, hle⟩
    have hbound := h.right ⟨hrep.neg, le_neg.mp hle⟩
    exact le_neg.mp hbound

omit [IsStrictOrderedRing K] in
theorem Nearest.neg (h : Nearest p x y) : Nearest p (-x) (-y) := by
  constructor
  · exact h.rep.neg
  · intro z hz
    have hle := h.least (-z) hz.neg
    have hleft : |-x - -y| = |x - y| := by
      rw [← abs_neg]
      congr 1
      ring
    have hright : |-x - z| = |x - -z| := by
      rw [← abs_neg]
      congr 1
      ring
    rwa [hleft, hright]

theorem RoundsTo.neg {mode : RoundingMode} (h : RoundsTo p mode x y) :
    RoundsTo p mode.mirror (-x) (-y) := by
  cases mode with
  | down => exact roundsUp_neg h
  | up => exact roundsDown_neg h
  | towardZero =>
      constructor
      · intro hx
        exact roundsDown_neg (h.right (neg_nonneg.mp hx))
      · intro hx
        exact roundsUp_neg (h.left (neg_nonpos.mp hx))
  | nearestEven =>
      refine ⟨h.left.neg, ?_⟩
      intro z hz hne
      have hmirror := hz.neg
      rw [neg_neg] at hmirror
      have heven := h.right (-z) hmirror (fun heq => hne (neg_eq_iff_eq_neg.mp heq))
      exact heven.neg
  | nearestAway =>
      refine ⟨h.left.neg, ?_⟩
      intro z hz
      have hmirror := hz.neg
      rw [neg_neg] at hmirror
      have hle := h.right (-z) hmirror
      rwa [abs_neg] at hle ⊢

/--
No mode passes a representable value.
-/
theorem RoundsTo.le_of_representable {mode : RoundingMode} (h : RoundsTo p mode x y)
    (hz : Representable p z) (hle : z <= x) : z <= y := by
  have hnearest (hy : Nearest p x y) : z <= y := by
    by_contra hgt
    have hcloser := hy.least z hz
    rw [abs_of_nonneg (by linarith), abs_of_nonneg (by linarith)] at hcloser
    linarith
  cases mode with
  | down => exact h.right ⟨hz, hle⟩
  | up => exact le_trans hle h.left.right
  | towardZero =>
      rcases le_total 0 x with hpos | hneg
      · exact (h.left hpos).right ⟨hz, hle⟩
      · exact le_trans hle (h.right hneg).left.right
  | nearestEven => exact hnearest h.left
  | nearestAway => exact hnearest h.left

theorem RoundsTo.ge_of_representable {mode : RoundingMode} (h : RoundsTo p mode x y)
    (hz : Representable p z) (hle : x <= z) : y <= z :=
  neg_le_neg_iff.mp (h.neg.le_of_representable hz.neg (neg_le_neg hle))

theorem roundsTo_neg_iff {mode : RoundingMode} :
    RoundsTo p mode (-x) (-y) <-> RoundsTo p mode.mirror x y := by
  constructor
  · intro h
    have hneg := h.neg
    rwa [neg_neg, neg_neg] at hneg
  · intro h
    have hneg := h.neg
    cases mode <;> exact hneg

end

/-!
# Neighbours

A positive value lies between two representable neighbours.
-/

/--
The neighbours are the integers `n` and `n + 1` in units of a power of two.
-/
structure Bracket (p : Nat) (x : K) (n : Nat) (e : Int) : Prop where
  low : 2 ^ (p - 1) <= n
  high : n < 2 ^ p
  le : (n : K) * 2 ^ e <= x
  lt : x < ((n + 1 : Nat) : K) * 2 ^ e

section

variable {p n : Nat} {e : Int} {x z : K}

omit [LinearOrder K] [IsStrictOrderedRing K] in
theorem representable_nat (h : n < 2 ^ p) (e : Int) :
    Representable p ((n : K) * 2 ^ e) := by
  refine ⟨n, e, ?_, by push_cast; rfl⟩
  rw [Nat.abs_cast]
  exact_mod_cast h

omit [LinearOrder K] [IsStrictOrderedRing K] in
theorem representable_pow (h : 0 < p) (e : Int) : Representable p ((2 : K) ^ e) := by
  have hone := representable_nat (K := K) (n := 1) (p := p) (Nat.one_lt_two_pow (by omega)) e
  rwa [Nat.cast_one, one_mul] at hone

omit [IsStrictOrderedRing K] in
theorem Bracket.representable_low (h : Bracket p x n e) :
    Representable p ((n : K) * 2 ^ e) :=
  representable_nat h.high e

/--
The upper neighbour may be a power of two.
-/
theorem Bracket.representable_high (h : Bracket p x n e) (hp : 0 < p) :
    Representable p (((n + 1 : Nat) : K) * 2 ^ e) := by
  rcases Nat.lt_or_ge (n + 1) (2 ^ p) with hlt | hge
  · exact representable_nat hlt e
  · have heq : n + 1 = 2 ^ p := by
      have hhigh := h.high
      omega
    rw [heq]
    have hpow := representable_pow (K := K) hp ((p : Int) + e)
    rw [zpow_add₀ two_ne_zero, zpow_natCast] at hpow
    push_cast
    exact hpow

/--
Nothing representable lies between the neighbours.
-/
theorem Bracket.gap (h : Bracket p x n e) (hrep : Representable p z)
    (hlt : (n : K) * 2 ^ e < z) : ((n + 1 : Nat) : K) * 2 ^ e <= z := by
  rcases hrep with ⟨m, k, hm, rfl⟩
  have hpos : (0 : K) < 2 ^ e := zpow_pos two_pos e
  rcases le_or_gt e k with hle | hgt
  · -- a multiple of the unit
    obtain ⟨d, rfl⟩ := Int.le.dest hle
    rw [zpow_add₀ two_ne_zero, zpow_natCast, mul_comm ((2 : K) ^ e), ← mul_assoc] at hlt ⊢
    have hint : ((n : Int) : K) < ((m * 2 ^ d : Int) : K) := by
      have hdiv := lt_of_mul_lt_mul_right hlt hpos.le
      push_cast
      exact hdiv
    have hsucc : (n : Int) + 1 <= m * 2 ^ d := Int.add_one_le_iff.mpr (Int.cast_lt.mp hint)
    have hcast : (((n : Int) + 1 : Int) : K) <= ((m * 2 ^ d : Int) : K) := Int.cast_le.mpr hsucc
    push_cast at hcast ⊢
    exact mul_le_mul_of_nonneg_right hcast hpos.le
  · -- too small for its exponent
    exfalso
    have hmle : (m : K) <= 2 ^ p := by
      have hint : m <= 2 ^ p := le_trans (le_abs_self m) hm.le
      exact_mod_cast hint
    have hkpos : (0 : K) < 2 ^ k := zpow_pos two_pos k
    have hstep : (2 : K) ^ p * 2 ^ k <= 2 ^ (p - 1) * 2 ^ e := by
      have hmono : (2 : K) ^ (k + 1) <= 2 ^ e := zpow_le_zpow_right₀ one_le_two (by omega)
      have hsplit : (2 : K) ^ p <= 2 ^ (p - 1) * 2 := by
        rw [← pow_succ]
        exact pow_le_pow_right₀ one_le_two (by omega)
      calc (2 : K) ^ p * 2 ^ k <= 2 ^ (p - 1) * 2 * 2 ^ k :=
            mul_le_mul_of_nonneg_right hsplit hkpos.le
        _ = 2 ^ (p - 1) * 2 ^ (k + 1) := by
            rw [zpow_add_one₀ two_ne_zero]
            ring
        _ <= 2 ^ (p - 1) * 2 ^ e := mul_le_mul_of_nonneg_left hmono (by positivity)
    have hlow : (2 : K) ^ (p - 1) * 2 ^ e <= n * 2 ^ e := by
      apply mul_le_mul_of_nonneg_right _ hpos.le
      exact_mod_cast h.low
    have hz : (m : K) * 2 ^ k <= 2 ^ p * 2 ^ k := mul_le_mul_of_nonneg_right hmle hkpos.le
    linarith

/-!
# Parity
-/

theorem representable_even (hhigh : n < 2 ^ (p - 1) * 2) (heven : n % 2 = 0) (e : Int) :
    Representable (p - 1) ((n : K) * 2 ^ e) := by
  obtain ⟨k, rfl⟩ := Nat.dvd_of_mod_eq_zero heven
  have hk := representable_nat (K := K) (n := k) (p := p - 1) (by omega) (e + 1)
  have heq : ((2 * k : Nat) : K) * 2 ^ e = (k : K) * 2 ^ (e + 1) := by
    rw [zpow_add_one₀ two_ne_zero]
    push_cast
    ring
  rwa [heq]

theorem even_of_representable (hlow : 2 ^ (p - 1) <= n)
    (hrep : Representable (p - 1) ((n : K) * 2 ^ e)) : n % 2 = 0 := by
  rcases hrep with ⟨m, k, hm, heq⟩
  rcases lt_or_ge e k with hlt | hge
  · obtain ⟨d, rfl⟩ := Int.le.dest (Int.add_one_le_iff.mpr hlt)
    rw [zpow_add₀ two_ne_zero, zpow_add_one₀ two_ne_zero, zpow_natCast] at heq
    have hdiv : (n : K) = ((m * 2 ^ d * 2 : Int) : K) := by
      have hpos : (2 : K) ^ e ≠ 0 := (zpow_pos two_pos e).ne'
      apply mul_right_cancel₀ hpos
      rw [heq]
      push_cast
      ring
    have hint : (n : Int) = m * 2 ^ d * 2 := by exact_mod_cast hdiv
    omega
  · exfalso
    obtain ⟨d, rfl⟩ := Int.le.dest hge
    rw [zpow_add₀ two_ne_zero, zpow_natCast] at heq
    have hdiv : (m : K) = ((n * 2 ^ d : Int) : K) := by
      have hpos : (2 : K) ^ k ≠ 0 := (zpow_pos two_pos k).ne'
      apply mul_right_cancel₀ hpos
      rw [← heq]
      push_cast
      ring
    have hint : m = (n : Int) * 2 ^ d := by exact_mod_cast hdiv
    have hone : (1 : Int) <= 2 ^ d := one_le_pow₀ (by omega)
    have hge' : (2 : Int) ^ (p - 1) <= n := by exact_mod_cast hlow
    have hm' := lt_of_abs_lt hm
    nlinarith

/-!
# The choice between the neighbours
-/

section

variable (h : Bracket p x n e)

include h

omit [IsStrictOrderedRing K] in
theorem Bracket.low_lt_high : (n : K) * 2 ^ e < ((n + 1 : Nat) : K) * 2 ^ e :=
  lt_of_le_of_lt h.le h.lt

theorem Bracket.roundsDown : RoundsDown p x ((n : K) * 2 ^ e) := by
  constructor
  · exact ⟨h.representable_low, h.le⟩
  · rintro z ⟨hrep, hle⟩
    by_contra hgt
    have hgap := h.gap hrep (not_le.mp hgt)
    exact absurd (lt_of_lt_of_le h.lt hgap) (not_lt.mpr hle)

theorem Bracket.roundsUp (hp : 0 < p) (hne : x ≠ (n : K) * 2 ^ e) :
    RoundsUp p x (((n + 1 : Nat) : K) * 2 ^ e) := by
  constructor
  · exact ⟨h.representable_high hp, h.lt.le⟩
  · rintro z ⟨hrep, hle⟩
    exact h.gap hrep (lt_of_lt_of_le (lt_of_le_of_ne h.le hne.symm) hle)

omit [IsStrictOrderedRing K] in
theorem Bracket.roundsUp_exact (heq : x = (n : K) * 2 ^ e) :
    RoundsUp p x ((n : K) * 2 ^ e) := by
  constructor
  · exact ⟨h.representable_low, heq.le⟩
  · rintro z ⟨_, hle⟩
    exact heq ▸ hle

theorem Bracket.distance_low : |x - (n : K) * 2 ^ e| = x - (n : K) * 2 ^ e :=
  abs_of_nonneg (sub_nonneg.mpr h.le)

theorem Bracket.distance_high :
    |x - ((n + 1 : Nat) : K) * 2 ^ e| = ((n + 1 : Nat) : K) * 2 ^ e - x := by
  rw [abs_sub_comm]
  exact abs_of_pos (sub_pos.mpr h.lt)

/--
Only the neighbours can be nearest, and each is if it is not farther than the other.
-/
theorem Bracket.nearest_iff (hp : 0 < p) :
    Nearest p x z <->
      (z = (n : K) * 2 ^ e ∧ x - (n : K) * 2 ^ e <= ((n + 1 : Nat) : K) * 2 ^ e - x) ∨
      (z = ((n + 1 : Nat) : K) * 2 ^ e ∧
        ((n + 1 : Nat) : K) * 2 ^ e - x <= x - (n : K) * 2 ^ e) := by
  have hlow := h.distance_low
  have hhigh := h.distance_high
  constructor
  · intro hnear
    have htoLow := hnear.least _ h.representable_low
    have htoHigh := hnear.least _ (h.representable_high hp)
    rw [hlow] at htoLow
    rw [hhigh] at htoHigh
    rcases lt_trichotomy z ((n : K) * 2 ^ e) with hlt | heq | hgt
    · have hdist : |x - z| = x - z := abs_of_pos (sub_pos.mpr (lt_of_lt_of_le hlt h.le))
      rw [hdist] at htoLow
      linarith
    · left
      rw [heq, hlow] at htoHigh
      exact ⟨heq, htoHigh⟩
    · right
      have hgap := h.gap hnear.rep hgt
      have hdist : |x - z| = z - x := by
        rw [abs_sub_comm]
        exact abs_of_pos (sub_pos.mpr (lt_of_lt_of_le h.lt hgap))
      rw [hdist] at htoLow htoHigh
      have heq : z = ((n + 1 : Nat) : K) * 2 ^ e := le_antisymm (by linarith) hgap
      rw [heq] at htoLow
      exact ⟨heq, htoLow⟩
  · have hother : forall u, Representable p u ->
        x - (n : K) * 2 ^ e <= |x - u| ∨ ((n + 1 : Nat) : K) * 2 ^ e - x <= |x - u| := by
      intro u hu
      rcases le_or_gt u ((n : K) * 2 ^ e) with hle | hgt
      · left
        have habs := le_abs_self (x - u)
        linarith
      · right
        have hgap := h.gap hu hgt
        have habs := neg_le_abs (x - u)
        linarith
    rintro (⟨rfl, hle⟩ | ⟨rfl, hle⟩)
    · refine ⟨h.representable_low, ?_⟩
      intro u hu
      rw [hlow]
      rcases hother u hu with hfirst | hsecond
      · exact hfirst
      · exact le_trans hle hsecond
    · refine ⟨h.representable_high hp, ?_⟩
      intro u hu
      rw [hhigh]
      rcases hother u hu with hfirst | hsecond
      · exact le_trans hle hfirst
      · exact hsecond

theorem Bracket.pos (hn : 0 < n) : 0 < x := by
  have hcast : (0 : K) < n := Nat.cast_pos.mpr hn
  exact lt_of_lt_of_le (mul_pos hcast (zpow_pos two_pos e)) h.le

end

end

/-!
# Integer part and rest

What hardware keeps of a value is its integer part and one bit that says whether
anything was cut off.
-/

structure Truncates (n : Nat) (rest : Bool) (y : K) : Prop where
  le : (n : K) <= y
  lt : y < ((n + 1 : Nat) : K)
  rest : rest = true <-> y ≠ n

/--
Whether a significand is rounded up in magnitude, from the half-way bit, the bit for
what lies below, and the parity.
-/
def roundsAway : RoundingMode -> (neg guard rest odd : Bool) -> Bool
  | .nearestEven, _, guard, rest, odd => guard && (rest || odd)
  | .towardZero, _, _, _, _ => false
  | .down, neg, guard, rest, _ => neg && (guard || rest)
  | .up, neg, guard, rest, _ => !neg && (guard || rest)
  | .nearestAway, _, guard, _, _ => guard

theorem roundsAway_mirror (mode : RoundingMode) (guard rest odd : Bool) :
    roundsAway mode.mirror false guard rest odd = roundsAway mode true guard rest odd := by
  cases mode <;> rfl

section

variable {p n : Nat} {guard rest : Bool} {y v : K} {e : Int}

theorem Truncates.bracket (h : Truncates (2 * n + guard.toNat) rest y)
    (hlow : 2 ^ (p - 1) <= n) (hhigh : n < 2 ^ p) (e : Int) :
    Bracket p (y * 2 ^ e) n (e + 1) := by
  have hpos : (0 : K) < 2 ^ e := zpow_pos two_pos e
  have hguard : guard.toNat <= 1 := Bool.toNat_le guard
  refine ⟨hlow, hhigh, ?_, ?_⟩
  · have hle : ((2 * n : Nat) : K) <= y :=
      le_trans (Nat.cast_le.mpr (Nat.le_add_right _ _)) h.le
    push_cast at hle
    rw [zpow_add_one₀ two_ne_zero]
    nlinarith
  · have hlt : y < ((2 * n + 2 : Nat) : K) :=
      lt_of_lt_of_le h.lt (Nat.cast_le.mpr (by omega))
    push_cast at hlt ⊢
    rw [zpow_add_one₀ two_ne_zero]
    nlinarith

/--
Without the half-way bit the lower neighbour is nearer.
-/
theorem Truncates.low_nearer (h : Truncates (2 * n) rest y) (e : Int) :
    y * 2 ^ e - (n : K) * 2 ^ (e + 1) < ((n + 1 : Nat) : K) * 2 ^ (e + 1) - y * 2 ^ e := by
  have hpos : (0 : K) < 2 ^ e := zpow_pos two_pos e
  have hlt := h.lt
  push_cast at hlt ⊢
  rw [zpow_add_one₀ two_ne_zero]
  nlinarith

theorem Truncates.high_nearer (h : Truncates (2 * n + 1) rest y) (e : Int) :
    ((n + 1 : Nat) : K) * 2 ^ (e + 1) - y * 2 ^ e <= y * 2 ^ e - (n : K) * 2 ^ (e + 1) := by
  have hpos : (0 : K) < 2 ^ e := zpow_pos two_pos e
  have hle := h.le
  push_cast at hle ⊢
  rw [zpow_add_one₀ two_ne_zero]
  nlinarith

/--
The neighbours are equally near only if nothing lies below the half-way bit.
-/
theorem Truncates.tie_iff (h : Truncates (2 * n + 1) rest y) (e : Int) :
    y * 2 ^ e - (n : K) * 2 ^ (e + 1) <= ((n + 1 : Nat) : K) * 2 ^ (e + 1) - y * 2 ^ e <->
      rest = false := by
  have hpos : (0 : K) < 2 ^ e := zpow_pos two_pos e
  have hle := h.le
  have hrest := h.rest
  constructor
  · intro htie
    have hy : y = ((2 * n + 1 : Nat) : K) := by
      push_cast at hle htie ⊢
      rw [zpow_add_one₀ two_ne_zero] at htie
      apply le_antisymm _ hle
      by_contra hgt
      rw [not_le] at hgt
      nlinarith
    cases rest with
    | false => rfl
    | true => exact absurd hy (hrest.mp rfl)
  · rintro rfl
    have hy : y = ((2 * n + 1 : Nat) : K) := by
      by_contra hne
      exact Bool.false_ne_true (hrest.mpr hne)
    rw [hy, zpow_add_one₀ two_ne_zero]
    push_cast
    apply le_of_eq
    ring

theorem Truncates.exact_iff (h : Truncates (2 * n + guard.toNat) rest y) (e : Int) :
    y * 2 ^ e = (n : K) * 2 ^ (e + 1) <-> (guard || rest) = false := by
  have hne : (2 : K) ^ e ≠ 0 := (zpow_pos two_pos e).ne'
  have hunit : (n : K) * 2 ^ (e + 1) = ((2 * n : Nat) : K) * 2 ^ e := by
    rw [zpow_add_one₀ two_ne_zero]
    push_cast
    ring
  rw [hunit]
  have hrest := h.rest
  constructor
  · intro heq
    have hy : y = ((2 * n : Nat) : K) := mul_right_cancel₀ hne heq
    have hle := h.le
    rw [hy, Nat.cast_le] at hle
    cases guard with
    | true => simp at hle
    | false =>
        cases rest with
        | false => rfl
        | true => exact absurd hy (hrest.mp rfl)
  · intro hnone
    rw [Bool.or_eq_false_iff] at hnone
    obtain ⟨rfl, rfl⟩ := hnone
    congr 1
    by_contra hy
    exact Bool.false_ne_true (hrest.mpr hy)

/--
Which neighbours are nearest.
-/
theorem Truncates.nearest_iff (h : Truncates (2 * n + guard.toNat) rest y) (hp : 0 < p)
    (hlow : 2 ^ (p - 1) <= n) (hhigh : n < 2 ^ p) :
    Nearest p (y * 2 ^ e) v <->
      (v = (n : K) * 2 ^ (e + 1) ∧ (guard && rest) = false) ∨
      (v = ((n + 1 : Nat) : K) * 2 ^ (e + 1) ∧ guard = true) := by
  rw [(h.bracket hlow hhigh e).nearest_iff hp]
  cases guard with
  | false =>
      have hnear := h.low_nearer e
      constructor
      · rintro (⟨hv, _⟩ | ⟨_, hle⟩)
        · exact Or.inl ⟨hv, rfl⟩
        · exact absurd hnear (not_lt.mpr hle)
      · rintro (⟨hv, _⟩ | ⟨_, hfalse⟩)
        · exact Or.inl ⟨hv, hnear.le⟩
        · cases hfalse
  | true =>
      have hnear := h.high_nearer e
      have htie := h.tie_iff e
      rw [htie, Bool.true_and]
      constructor
      · rintro (hfirst | ⟨hv, _⟩)
        · exact Or.inl hfirst
        · exact Or.inr ⟨hv, rfl⟩
      · rintro (hfirst | ⟨hv, _⟩)
        · exact Or.inl hfirst
        · exact Or.inr ⟨hv, hnear⟩

/--
The even one of two neighbours is the one that is representable with one bit less.
-/
theorem Bracket.even_iff {x : K} (h : Bracket p x n e) (hp : 1 < p) :
    (Representable (p - 1) ((n : K) * 2 ^ e) <-> n % 2 = 0) ∧
      (Representable (p - 1) (((n + 1 : Nat) : K) * 2 ^ e) <-> n % 2 = 1) := by
  have hhigh := h.high
  have hlow := h.low
  have hpow : 2 ^ p = 2 ^ (p - 1) * 2 := by
    rw [← pow_succ]
    congr 1
    omega
  constructor
  · constructor
    · exact even_of_representable hlow
    · intro heven
      exact representable_even (by omega) heven e
  · constructor
    · intro hrep
      have heven := even_of_representable (by omega) hrep
      omega
    · intro hodd
      rcases Nat.lt_or_ge (n + 1) (2 ^ p) with hlt | hge
      · exact representable_even (by omega) (by omega) e
      · have heq : n + 1 = 2 ^ (p - 1) * 2 := by omega
        have hrep := representable_pow (K := K) (p := p - 1) (by omega) ((p : Int) + e)
        rw [zpow_add₀ two_ne_zero, zpow_natCast] at hrep
        rw [heq, ← hpow]
        push_cast
        exact hrep

theorem Truncates.roundsNearestEven_iff (h : Truncates (2 * n + guard.toNat) rest y)
    (hp : 1 < p) (hlow : 2 ^ (p - 1) <= n) (hhigh : n < 2 ^ p) :
    RoundsTo p .nearestEven (y * 2 ^ e) v <->
      v = ((n + (guard && (rest || decide (n % 2 = 1))).toNat : Nat) : K) * 2 ^ (e + 1) := by
  have hnear := fun u => h.nearest_iff (p := p) (v := u) (e := e) (by omega) hlow hhigh
  have hbracket := h.bracket hlow hhigh e
  have heven := hbracket.even_iff hp
  have hdiffer := hbracket.low_lt_high.ne
  show Nearest p (y * 2 ^ e) v ∧ _ <-> _
  simp only [hnear]
  cases guard with
  | false =>
      simp only [Bool.false_and, and_true, Bool.false_eq_true, and_false, or_false,
        Bool.toNat_false, Nat.add_zero]
      constructor
      · exact And.left
      · intro hv
        exact ⟨hv, fun z hz hne => absurd (hz.trans hv.symm) hne⟩
  | true =>
      cases rest with
      | true =>
          simp only [Bool.true_and, Bool.true_eq_false, and_false, false_or, and_true,
            Bool.true_or, Bool.toNat_true]
          constructor
          · exact And.left
          · intro hv
            exact ⟨hv, fun z hz hne => absurd (hz.trans hv.symm) hne⟩
      | false =>
          simp only [Bool.and_false, Bool.true_and, Bool.false_or, and_true]
          rcases Nat.mod_two_eq_zero_or_one n with hmod | hmod
          · -- a tie that goes to the lower neighbour
            simp only [hmod, decide_false, Nat.zero_ne_one, Bool.toNat_false, Nat.add_zero]
            constructor
            · rintro ⟨hv | hv, hties⟩
              · exact hv
              · exfalso
                have hrep := hties _ (Or.inl rfl) (hv ▸ hdiffer)
                rw [hv, heven.right, hmod] at hrep
                cases hrep
            · rintro rfl
              exact ⟨Or.inl rfl, fun _ _ _ => heven.left.mpr hmod⟩
          · simp only [hmod, decide_true, Bool.toNat_true]
            constructor
            · rintro ⟨hv | hv, hties⟩
              · exfalso
                have hrep := hties _ (Or.inr rfl) (hv ▸ hdiffer.symm)
                rw [hv, heven.left, hmod] at hrep
                cases hrep
              · exact hv
            · rintro rfl
              exact ⟨Or.inr rfl, fun _ _ _ => heven.right.mpr hmod⟩

theorem Truncates.roundsNearestAway_iff (h : Truncates (2 * n + guard.toNat) rest y)
    (hp : 0 < p) (hlow : 2 ^ (p - 1) <= n) (hhigh : n < 2 ^ p) :
    RoundsTo p .nearestAway (y * 2 ^ e) v <->
      v = ((n + guard.toNat : Nat) : K) * 2 ^ (e + 1) := by
  have hnear := fun u => h.nearest_iff (p := p) (v := u) (e := e) hp hlow hhigh
  have hless := (h.bracket hlow hhigh e).low_lt_high
  have hlowPos : 0 <= (n : K) * 2 ^ (e + 1) := by positivity
  show Nearest p (y * 2 ^ e) v ∧ (forall z, Nearest p (y * 2 ^ e) z -> |z| <= |v|) <-> _
  simp only [hnear]
  cases guard with
  | false =>
      simp only [Bool.false_and, and_true, Bool.false_eq_true, and_false, or_false,
        Bool.toNat_false, Nat.add_zero]
      constructor
      · exact And.left
      · rintro rfl
        exact ⟨rfl, fun z hz => by rw [hz]⟩
  | true =>
      simp only [Bool.true_and, and_true, Bool.toNat_true]
      constructor
      · rintro ⟨⟨hv, _⟩ | hv, hfarthest⟩
        · exfalso
          have hle := hfarthest _ (Or.inr rfl)
          rw [hv, abs_of_nonneg hlowPos, abs_of_nonneg (hlowPos.trans hless.le)] at hle
          exact absurd hless (not_lt.mpr hle)
        · exact hv
      · rintro rfl
        refine ⟨Or.inr rfl, ?_⟩
        rintro z (⟨rfl, _⟩ | rfl)
        · rw [abs_of_nonneg hlowPos, abs_of_nonneg (hlowPos.trans hless.le)]
          exact hless.le
        · exact le_rfl

/--
The rounding of a positive value, from the bits that are kept of it.
-/
theorem Truncates.roundsTo_iff (h : Truncates (2 * n + guard.toNat) rest y) (hp : 1 < p)
    (hlow : 2 ^ (p - 1) <= n) (hhigh : n < 2 ^ p) (mode : RoundingMode) :
    RoundsTo p mode (y * 2 ^ e) v <->
      v = ((n + (roundsAway mode false guard rest (decide (n % 2 = 1))).toNat : Nat) : K)
        * 2 ^ (e + 1) := by
  have hbracket := h.bracket hlow hhigh e
  have hp0 : 0 < p := by omega
  have hexact := h.exact_iff e
  have hdown : forall u, RoundsDown p (y * 2 ^ e) u <-> u = (n : K) * 2 ^ (e + 1) :=
    fun u => ⟨fun hu => hu.unique hbracket.roundsDown, fun hu => hu ▸ hbracket.roundsDown⟩
  have hup : forall u, RoundsUp p (y * 2 ^ e) u <->
      u = ((n + (guard || rest).toNat : Nat) : K) * 2 ^ (e + 1) := by
    have hchosen : RoundsUp p (y * 2 ^ e)
        (((n + (guard || rest).toNat : Nat) : K) * 2 ^ (e + 1)) := by
      cases hbits : guard || rest with
      | false => exact hbracket.roundsUp_exact (hexact.mpr hbits)
      | true =>
          apply hbracket.roundsUp hp0
          intro heq
          rw [hexact.mp heq] at hbits
          cases hbits
    exact fun u => ⟨fun hu => hu.unique hchosen, fun hu => hu ▸ hchosen⟩
  have hxpos : 0 < y * 2 ^ e := by
    apply hbracket.pos
    exact lt_of_lt_of_le (Nat.two_pow_pos _) hlow
  cases mode with
  | down => exact hdown v
  | up =>
      show RoundsUp p (y * 2 ^ e) v <-> _
      rw [hup]
      rfl
  | towardZero =>
      show (_ -> _) ∧ (_ -> _) <-> _
      constructor
      · intro hv
        exact (hdown v).mp (hv.left hxpos.le)
      · intro hv
        exact ⟨fun _ => (hdown v).mpr hv, fun hneg => absurd hxpos (not_lt.mpr hneg)⟩
  | nearestEven => exact h.roundsNearestEven_iff hp hlow hhigh
  | nearestAway => exact h.roundsNearestAway_iff hp0 hlow hhigh

end

/-!
# Signs
-/

def applySign (neg : Bool) (x : K) : K := if neg then -x else x

omit [IsStrictOrderedRing K] in
theorem abs_applySign (neg : Bool) (x : K) : |applySign neg x| = |x| := by
  cases neg with
  | false => rfl
  | true => exact abs_neg x

/--
The rounding of a value of either sign, from the bits that are kept of its magnitude.
-/
theorem Truncates.roundsTo_signed_iff {p n : Nat} {guard rest : Bool} {y v : K} {e : Int}
    (h : Truncates (2 * n + guard.toNat) rest y) (hp : 1 < p) (hlow : 2 ^ (p - 1) <= n)
    (hhigh : n < 2 ^ p) (mode : RoundingMode) (neg : Bool) :
    RoundsTo p mode (applySign neg (y * 2 ^ e)) v <->
      v = applySign neg
        (((n + (roundsAway mode neg guard rest (decide (n % 2 = 1))).toNat : Nat) : K)
          * 2 ^ (e + 1)) := by
  cases neg with
  | false => exact h.roundsTo_iff hp hlow hhigh mode
  | true =>
      show RoundsTo p mode (-(y * 2 ^ e)) v <-> v = -_
      rw [← roundsAway_mirror, ← neg_eq_iff_eq_neg, ← h.roundsTo_iff hp hlow hhigh mode.mirror,
        ← roundsTo_neg_iff, neg_neg]

omit [LinearOrder K] [IsStrictOrderedRing K] in
theorem representable_applySign_iff {p : Nat} {neg : Bool} {x : K} :
    Representable p (applySign neg x) <-> Representable p x := by
  cases neg with
  | false => rfl
  | true =>
      constructor
      · intro h
        have hneg := h.neg
        rwa [applySign, if_pos rfl, neg_neg] at hneg
      · exact Representable.neg

/--
A value is representable if nothing is cut off.
-/
theorem Truncates.representable_iff {p n : Nat} {guard rest : Bool} {y : K} {e : Int}
    (h : Truncates (2 * n + guard.toNat) rest y) (hlow : 2 ^ (p - 1) <= n)
    (hhigh : n < 2 ^ p) :
    Representable p (y * 2 ^ e) <-> (guard || rest) = false := by
  have hbracket := h.bracket hlow hhigh e
  rw [← h.exact_iff e]
  constructor
  · intro hrep
    by_contra hne
    have hgap := hbracket.gap hrep (lt_of_le_of_ne hbracket.le (Ne.symm hne))
    exact absurd hbracket.lt (not_lt.mpr hgap)
  · intro heq
    rw [heq]
    exact hbracket.representable_low

omit [IsStrictOrderedRing K] in
theorem RoundsTo.representable {p : Nat} {mode : RoundingMode} {x v : K}
    (h : RoundsTo p mode x v) : Representable p v := by
  cases mode with
  | down => exact h.left.left
  | up => exact h.left.left
  | towardZero =>
      rcases le_total 0 x with hpos | hneg
      · exact (h.left hpos).left.left
      · exact (h.right hneg).left.left
  | nearestEven => exact h.left.rep
  | nearestAway => exact h.left.rep

/--
A value between two powers of two is rounded to one.
-/
theorem RoundsTo.abs_bounds {p : Nat} {mode : RoundingMode} {x v : K} {e f : Int}
    (h : RoundsTo p mode x v) (hp : 0 < p) (hlow : (2 : K) ^ e <= |x|) (hhigh : |x| <= 2 ^ f) :
    (2 : K) ^ e <= |v| ∧ |v| <= 2 ^ f := by
  have hpositive : forall {mode : RoundingMode} {x v : K}, RoundsTo p mode x v ->
      (2 : K) ^ e <= x -> x <= 2 ^ f -> (2 : K) ^ e <= |v| ∧ |v| <= 2 ^ f := by
    intro mode x v hv hlow hhigh
    have hfrom := hv.le_of_representable (representable_pow hp e) hlow
    have hto := hv.ge_of_representable (representable_pow hp f) hhigh
    rw [abs_of_pos (lt_of_lt_of_le (zpow_pos two_pos e) hfrom)]
    exact ⟨hfrom, hto⟩
  rcases le_total 0 x with hpos | hneg
  · rw [abs_of_nonneg hpos] at hlow hhigh
    exact hpositive h hlow hhigh
  · rw [abs_of_nonpos hneg] at hlow hhigh
    have hmirror := hpositive h.neg hlow hhigh
    rwa [abs_neg] at hmirror

/--
A representable value is its own rounding.
-/
theorem Representable.roundsTo_iff {p : Nat} {x v : K} (h : Representable p x)
    (mode : RoundingMode) : RoundsTo p mode x v <-> v = x := by
  have hdown : RoundsDown p x x := ⟨⟨h, le_rfl⟩, fun z hz => hz.right⟩
  have hup : RoundsUp p x x := ⟨⟨h, le_rfl⟩, fun z hz => hz.right⟩
  have hnearest : forall z, Nearest p x z -> z = x := by
    intro z hz
    have hle := hz.least x h
    rw [sub_self, abs_zero] at hle
    exact (sub_eq_zero.mp (abs_nonpos_iff.mp hle)).symm
  have hself : Nearest p x x := by
    refine ⟨h, ?_⟩
    intro z _
    rw [sub_self, abs_zero]
    exact abs_nonneg _
  constructor
  · intro hv
    cases mode with
    | down => exact IsGreatest.unique hv hdown
    | up => exact IsLeast.unique hv hup
    | towardZero =>
        rcases le_total 0 x with hpos | hneg
        · exact (hv.left hpos).unique hdown
        · exact (hv.right hneg).unique hup
    | nearestEven => exact hnearest v hv.left
    | nearestAway => exact hnearest v hv.left
  · rintro rfl
    cases mode with
    | down => exact hdown
    | up => exact hup
    | towardZero => exact ⟨fun _ => hdown, fun _ => hup⟩
    | nearestEven => exact ⟨hself, fun z hz hne => absurd (hnearest z hz) hne⟩
    | nearestAway => exact ⟨hself, fun z hz => by rw [hnearest z hz]⟩

end Lib
end RvCores
