import Mathlib.Data.Nat.Sqrt
import Mathlib.Tactic.Ring

/-!
# Digit recurrences

Restoring division and the digit-by-digit square root read their operand from the top,
a digit in each step.  After every step the registers hold the quotient or the root, with
its remainder, of the part read so far.
-/

namespace RvCores
namespace Lib

/-!
# Division

One register holds the part of the dividend that is still to be read and, below it, the
digits of the quotient found so far.
-/

/--
After `k` of `w` steps the remainder and the shared register belong to the upper `k`
bits of the dividend.
-/
structure Dividing (w n d k r q : Nat) : Prop where
  remainder : r = n / 2 ^ (w - k) % d
  quotient : q = n % 2 ^ (w - k) * 2 ^ k + n / 2 ^ (w - k) / d

def restored (d x : Nat) : Nat := if d <= x then x - d else x

def digit (d x : Nat) : Nat := if d <= x then 1 else 0

/--
Bringing down one more bit.
-/
theorem two_mul_add_divMod {d p b : Nat} (hd : 0 < d) (hb : b < 2) :
    (2 * p + b) / d = 2 * (p / d) + digit d (2 * (p % d) + b) ∧
      (2 * p + b) % d = restored d (2 * (p % d) + b) := by
  have hsplit : 2 * p + b = 2 * (p % d) + b + d * (2 * (p / d)) := by
    have hp := Nat.mod_add_div p d
    calc 2 * p + b = 2 * (p % d + d * (p / d)) + b := by rw [hp]
      _ = 2 * (p % d) + b + d * (2 * (p / d)) := by ring
  have hrest := Nat.mod_lt p hd
  rw [Nat.div_mod_unique hd]
  unfold restored digit
  split
  · constructor
    · rw [hsplit, Nat.mul_add]
      omega
    · omega
  · rw [Nat.add_zero]
    constructor
    · rw [hsplit]
    · omega

/--
The next bit to be read, and what remains below it.
-/
theorem read_bit (n m : Nat) :
    n / 2 ^ m = 2 * (n / 2 ^ (m + 1)) + n / 2 ^ m % 2 ∧
      n % 2 ^ (m + 1) = n / 2 ^ m % 2 * 2 ^ m + n % 2 ^ m := by
  constructor
  · rw [Nat.pow_succ, ← Nat.div_div_eq_div_mul]
    omega
  · rw [Nat.mod_pow_succ]
    ring

namespace Dividing

variable {w n d k r q : Nat}

theorem start (hn : n < 2 ^ w) : Dividing w n d 0 0 n := by
  constructor
  · rw [Nat.sub_zero, Nat.div_eq_of_lt hn, Nat.zero_mod]
  · rw [Nat.sub_zero, Nat.div_eq_of_lt hn, Nat.mod_eq_of_lt hn, Nat.zero_div]
    omega

theorem finish (h : Dividing w n d w r q) : q = n / d ∧ r = n % d := by
  obtain ⟨hr, hq⟩ := h
  rw [Nat.sub_self, pow_zero, Nat.div_one] at hr
  rw [Nat.sub_self, pow_zero, Nat.div_one, Nat.mod_one, Nat.zero_mul, Nat.zero_add] at hq
  exact ⟨hq, hr⟩

theorem read_lt (hn : n < 2 ^ w) (hk : k <= w) : n / 2 ^ (w - k) < 2 ^ k := by
  rw [Nat.div_lt_iff_lt_mul (Nat.two_pow_pos _), ← Nat.pow_add]
  have hw : k + (w - k) = w := by omega
  rwa [hw]

/--
The remainder has no more bits than have been read.
-/
theorem remainder_lt (h : Dividing w n d k r q) (hn : n < 2 ^ w) (hk : k <= w) : r < 2 ^ k := by
  rw [h.remainder]
  exact lt_of_le_of_lt (Nat.mod_le _ _) (read_lt hn hk)

theorem remainder_lt_divisor (h : Dividing w n d k r q) (hd : 0 < d) : r < d := by
  rw [h.remainder]
  exact Nat.mod_lt _ hd

/--
The shared register shows the next bit of the dividend at its top.
-/
theorem split (h : Dividing w n d k r q) (hn : n < 2 ^ w) (hk : k < w) :
    q / 2 ^ (w - 1) = n / 2 ^ (w - (k + 1)) % 2 ∧
      2 * q % 2 ^ w
        = n % 2 ^ (w - (k + 1)) * 2 ^ (k + 1) + 2 * (n / 2 ^ (w - k) / d) := by
  obtain ⟨m, rfl⟩ : exists m, w = k + m + 1 := ⟨w - k - 1, by omega⟩
  have hhigh : k + m + 1 - k = m + 1 := by omega
  have hlow : k + m + 1 - (k + 1) = m := by omega
  have htop : k + m + 1 - 1 = k + m := by omega
  have hquotient := h.quotient
  have hread := read_lt hn hk.le
  rw [hhigh] at hquotient hread
  rw [hhigh, hlow, htop]
  have hdigits : n / 2 ^ (m + 1) / d < 2 ^ k :=
    lt_of_le_of_lt (Nat.div_le_self _ _) hread
  have hrest : n % 2 ^ m * 2 ^ k + n / 2 ^ (m + 1) / d < 2 ^ (k + m) := by
    have hmod : n % 2 ^ m + 1 <= 2 ^ m := Nat.mod_lt _ (Nat.two_pow_pos m)
    have hscaled := Nat.mul_le_mul_right (2 ^ k) hmod
    rw [Nat.add_mul, ← Nat.pow_add, Nat.add_comm m k] at hscaled
    omega
  have hvalue : q = n / 2 ^ m % 2 * 2 ^ (k + m)
      + (n % 2 ^ m * 2 ^ k + n / 2 ^ (m + 1) / d) := by
    rw [hquotient, (read_bit n m).right, Nat.pow_add]
    ring
  constructor
  · rw [hvalue, Nat.add_comm, Nat.add_mul_div_right _ _ (Nat.two_pow_pos _),
      Nat.div_eq_of_lt hrest, Nat.zero_add]
  · have hdouble : 2 * q = n / 2 ^ m % 2 * 2 ^ (k + m + 1)
        + 2 * (n % 2 ^ m * 2 ^ k + n / 2 ^ (m + 1) / d) := by
      rw [hvalue, Nat.pow_succ]
      ring
    have hwidth : 2 ^ (k + m + 1) = 2 * 2 ^ (k + m) := by
      rw [Nat.pow_succ, Nat.mul_comm]
    rw [hdouble, Nat.add_comm, Nat.add_mul_mod_self_right, Nat.mod_eq_of_lt]
    · rw [Nat.pow_succ 2 k]
      ring
    · rw [hwidth]
      omega

theorem step (h : Dividing w n d k r q) (hn : n < 2 ^ w) (hd : 0 < d) (hk : k < w) :
    Dividing w n d (k + 1) (restored d (2 * r + q / 2 ^ (w - 1)))
      (2 * q % 2 ^ w + digit d (2 * r + q / 2 ^ (w - 1))) := by
  obtain ⟨hbit, hrest⟩ := h.split hn hk
  have hnext : w - k = w - (k + 1) + 1 := by omega
  have hread := (read_bit n (w - (k + 1))).left
  rw [← hnext] at hread
  obtain ⟨hdiv, hmod⟩ := two_mul_add_divMod (p := n / 2 ^ (w - k)) hd
    (Nat.mod_lt (n / 2 ^ (w - (k + 1))) two_pos)
  rw [← hread, ← h.remainder] at hdiv hmod
  constructor
  · rw [hbit, hmod]
  · rw [hbit, hrest, hdiv]
    omega

end Dividing

/-!
# Square root

Each step brings down two bits of the radicand and finds one of the root.
-/

/--
After `k` of `m` steps the root and its remainder belong to the upper `k` pairs of bits.
-/
structure Rooting (m n k r q : Nat) : Prop where
  root : q = Nat.sqrt (n / 4 ^ (m - k))
  remainder : q * q + r = n / 4 ^ (m - k)

/--
Bringing down two more bits.
-/
theorem sqrt_four_mul_add {p q r b : Nat} (hroot : q = Nat.sqrt p) (hrest : q * q + r = p)
    (hb : b < 4) :
    2 * q + digit (4 * q + 1) (4 * r + b) = Nat.sqrt (4 * p + b) ∧
      (2 * q + digit (4 * q + 1) (4 * r + b)) * (2 * q + digit (4 * q + 1) (4 * r + b))
        + restored (4 * q + 1) (4 * r + b) = 4 * p + b := by
  have hupper := (Nat.eq_sqrt.mp hroot).right
  rw [Nat.eq_sqrt]
  unfold digit restored
  split
  · next hfits =>
      have hsquare : (2 * q + 1) * (2 * q + 1) = 4 * (q * q) + 4 * q + 1 := by ring
      have hnext : (2 * q + 1 + 1) * (2 * q + 1 + 1) = 4 * ((q + 1) * (q + 1)) := by ring
      rw [hsquare, hnext]
      exact ⟨⟨by omega, by omega⟩, by omega⟩
  · next hshort =>
      have hsquare : (2 * q + 0) * (2 * q + 0) = 4 * (q * q) := by ring
      have hnext : (2 * q + 0 + 1) * (2 * q + 0 + 1) = 4 * (q * q) + 4 * q + 1 := by ring
      rw [hsquare, hnext]
      exact ⟨⟨by omega, by omega⟩, by omega⟩

/--
A register that is shifted left shows the next pair of bits at its top.
-/
theorem shifted_pair {m n k : Nat} (hk : k < m) :
    n * 4 ^ k % 4 ^ m / 4 ^ (m - 1) = n / 4 ^ (m - (k + 1)) % 4 := by
  obtain ⟨j, rfl⟩ : exists j, m = k + j + 1 := ⟨m - k - 1, by omega⟩
  have htop : k + j + 1 - 1 = k + j := by omega
  have hlow : k + j + 1 - (k + 1) = j := by omega
  rw [htop, hlow, Nat.pow_succ, Nat.mod_mul_right_div_self, Nat.pow_add,
    ← Nat.div_div_eq_div_mul, Nat.mul_div_cancel _ (Nat.pow_pos (by decide))]

namespace Rooting

variable {m n k r q : Nat}

theorem start (hn : n < 4 ^ m) : Rooting m n 0 0 0 := by
  constructor
  · rw [Nat.sub_zero, Nat.div_eq_of_lt hn, Nat.sqrt_zero]
  · rw [Nat.sub_zero, Nat.div_eq_of_lt hn]

theorem finish (h : Rooting m n m r q) : q = Nat.sqrt n ∧ q * q + r = n := by
  obtain ⟨hq, hr⟩ := h
  rw [Nat.sub_self, pow_zero, Nat.div_one] at hq hr
  exact ⟨hq, hr⟩

theorem remainder_le (h : Rooting m n k r q) : r <= 2 * q := by
  have hupper := (Nat.eq_sqrt.mp h.root).right
  have hsquare : (q + 1) * (q + 1) = q * q + 2 * q + 1 := by ring
  have hrest := h.remainder
  omega

/--
The root has no more bits than there were steps.
-/
theorem root_lt (h : Rooting m n k r q) (hn : n < 4 ^ m) (hk : k <= m) : q < 2 ^ k := by
  rw [h.root, Nat.sqrt_lt', Nat.div_lt_iff_lt_mul (Nat.pow_pos (by decide))]
  have hpow : (2 ^ k) ^ 2 * 4 ^ (m - k) = 4 ^ m := by
    rw [← Nat.pow_mul, Nat.mul_comm k 2, Nat.pow_mul, ← Nat.pow_add]
    congr 1
    omega
  rwa [hpow]

theorem step (h : Rooting m n k r q) (hk : k < m) :
    Rooting m n (k + 1) (restored (4 * q + 1) (4 * r + n / 4 ^ (m - (k + 1)) % 4))
      (2 * q + digit (4 * q + 1) (4 * r + n / 4 ^ (m - (k + 1)) % 4)) := by
  have hread : 4 * (n / 4 ^ (m - k)) + n / 4 ^ (m - (k + 1)) % 4
      = n / 4 ^ (m - (k + 1)) := by
    have hnext : m - k = m - (k + 1) + 1 := by omega
    rw [hnext, Nat.pow_succ, ← Nat.div_div_eq_div_mul]
    omega
  obtain ⟨hroot, hrest⟩ := sqrt_four_mul_add h.root h.remainder
    (Nat.mod_lt (n / 4 ^ (m - (k + 1))) (by decide : 0 < 4))
  rw [hread] at hroot hrest
  exact ⟨hroot, hrest⟩

end Rooting

end Lib
end RvCores
