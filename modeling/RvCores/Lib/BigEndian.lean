import Mathlib.Data.List.Basic
import Mathlib.Tactic.Ring

/-!
# Big-endian words in byte strings

A number written as a fixed count of bytes with the most significant one first, the padding
of a byte string to a multiple of a unit, and strings ended by a zero byte.
-/

namespace RvCores
namespace Lib

abbrev ByteString := List (BitVec 8)

/-!
# Numbers
-/

def packBe : Nat -> Nat -> ByteString
  | 0, _ => []
  | n + 1, v => BitVec.ofNat 8 (v / 256 ^ n) :: packBe n v

def unpackBe : ByteString -> Nat
  | [] => 0
  | b :: bs => b.toNat * 256 ^ bs.length + unpackBe bs

@[simp]
theorem length_packBe (n v : Nat) : (packBe n v).length = n := by
  induction n with
  | zero => rfl
  | succ n ih => simp [packBe, ih]

theorem unpackBe_packBe_mod (n v : Nat) : unpackBe (packBe n v) = v % 256 ^ n := by
  induction n with
  | zero => simp [packBe, unpackBe, Nat.mod_one]
  | succ n ih =>
    have hdigit : (BitVec.ofNat 8 (v / 256 ^ n)).toNat = v / 256 ^ n % 256 :=
      BitVec.toNat_ofNat _ _
    rw [packBe, unpackBe, length_packBe, ih, hdigit, Nat.pow_succ, Nat.mod_mul]
    ring

theorem unpackBe_packBe {n v : Nat} (hv : v < 256 ^ n) : unpackBe (packBe n v) = v := by
  rw [unpackBe_packBe_mod, Nat.mod_eq_of_lt hv]

theorem unpackBe_append (bs bs' : ByteString) :
    unpackBe (bs ++ bs') = unpackBe bs * 256 ^ bs'.length + unpackBe bs' := by
  induction bs with
  | nil => rw [List.nil_append, unpackBe, Nat.zero_mul, Nat.zero_add]
  | cons b bs ih =>
    rw [List.cons_append, unpackBe, unpackBe, ih, List.length_append, Nat.pow_add, Nat.add_mul,
      Nat.mul_assoc, Nat.add_assoc]

/-!
# Padding
-/

def padding (unit n : Nat) : Nat := (unit - n % unit) % unit

def alignUp (unit n : Nat) : Nat := (n + (unit - 1)) / unit * unit

def align (unit : Nat) (bs : ByteString) : ByteString :=
  bs ++ List.replicate (padding unit bs.length) 0

theorem add_padding {unit : Nat} (hunit : 0 < unit) (n : Nat) :
    n + padding unit n = alignUp unit n := by
  have hdiv : unit * (n / unit) + n % unit = n := Nat.div_add_mod n unit
  have hmod : n % unit < unit := Nat.mod_lt n hunit
  cases hrem : n % unit with
  | zero =>
    have hup : n + (unit - 1) = unit - 1 + unit * (n / unit) := by omega
    rw [padding, alignUp, hup, hrem, Nat.sub_zero, Nat.mod_self, Nat.add_mul_div_left _ _ hunit,
      Nat.div_eq_of_lt (by omega), Nat.zero_add, Nat.mul_comm]
    omega
  | succ r =>
    have hup : n + (unit - 1) = r + unit * (n / unit + 1) := by
      rw [Nat.mul_add]
      omega
    rw [padding, alignUp, hup, hrem, Nat.mod_eq_of_lt (by omega),
      Nat.add_mul_div_left _ _ hunit, Nat.div_eq_of_lt (by omega), Nat.zero_add, Nat.mul_comm,
      Nat.mul_add]
    omega

theorem length_align {unit : Nat} (hunit : 0 < unit) (bs : ByteString) :
    (align unit bs).length = alignUp unit bs.length := by
  rw [align, List.length_append, List.length_replicate, add_padding hunit]

theorem le_alignUp {unit : Nat} (hunit : 0 < unit) (n : Nat) : n <= alignUp unit n := by
  rw [← add_padding hunit]
  exact Nat.le_add_right n _

/-!
# Strings ended by a zero byte
-/

def cString (bs : ByteString) : ByteString := bs ++ [0]

def takeCString (bs : ByteString) : Option (ByteString × ByteString) :=
  (bs.findIdx? (· == 0)).map fun n => (bs.take n, bs.drop (n + 1))

@[simp]
theorem length_cString (bs : ByteString) : (cString bs).length = bs.length + 1 := by
  simp [cString]

theorem findIdx?_cString {bs : ByteString} (hbs : 0 ∉ bs) (rest : ByteString) :
    (cString bs ++ rest).findIdx? (· == 0) = some bs.length := by
  induction bs with
  | nil => rfl
  | cons b bs ih =>
    have hb : (b == 0) = false := by
      rw [beq_eq_false_iff_ne]
      intro hzero
      exact hbs (by simp [hzero])
    show (b :: (cString bs ++ rest)).findIdx? (· == 0) = some (b :: bs).length
    rw [List.findIdx?_cons, hb, ih (fun hmem => hbs (List.mem_cons_of_mem _ hmem))]
    rfl

theorem takeCString_append {bs : ByteString} (hbs : 0 ∉ bs) (rest : ByteString) :
    takeCString (cString bs ++ rest) = some (bs, rest) := by
  rw [takeCString, findIdx?_cString hbs]
  simp [cString]

end Lib
end RvCores
