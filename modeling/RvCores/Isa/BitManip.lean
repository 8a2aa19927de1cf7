import RvCores.Isa.Slices
import RvCores.Lib.Carryless

/-!
# Bit manipulation

What the loops and variable shifts of the unit compute, at every width that is a power of
two.
-/

namespace RvCores
namespace Isa

open Lib

variable {w : Nat}

/-!
## Carry-less products
-/

theorem setWidth_term (a : BitVec w) (i : Nat) :
    (a.setWidth (2 * w) <<< i).setWidth w = a <<< i := by
  apply BitVec.eq_of_getLsbD_eq
  intro j hj
  simp [hj, show j < 2 * w by omega, show j - i < w by omega]

theorem extract_term (a : BitVec w) {i : Nat} (hi : i <= w) :
    (a.setWidth (2 * w) <<< i).extractLsb' w w = a >>> (w - i) := by
  apply BitVec.eq_of_getLsbD_eq
  intro j hj
  have hoff : w + j - i = w - i + j := by omega
  simp [hj, show w + j < 2 * w by omega, show ¬ w + j < i by omega, hoff]

theorem setWidth_carrylessTerms_succ (a b : BitVec w) (n : Nat) :
    (carrylessTerms a b (n + 1)).setWidth w =
      if b.getLsbD n then (carrylessTerms a b n).setWidth w ^^^ (a <<< n)
      else (carrylessTerms a b n).setWidth w := by
  rw [carrylessTerms_succ]
  cases b.getLsbD n with
  | false => rfl
  | true => simp [BitVec.setWidth_xor, setWidth_term]

theorem extract_carrylessTerms_succ (a b : BitVec w) {n : Nat} (hn : n <= w) :
    (carrylessTerms a b (n + 1)).extractLsb' w w =
      if b.getLsbD n then (carrylessTerms a b n).extractLsb' w w ^^^ (a >>> (w - n))
      else (carrylessTerms a b n).extractLsb' w w := by
  rw [carrylessTerms_succ]
  cases b.getLsbD n with
  | false => rfl
  | true => simp [BitVec.extractLsb'_xor, extract_term a hn]

/--
Truncating every term and truncating the whole product is the same.
-/
theorem clmulLow_eq (a b : BitVec w) : clmulLow a b = (carryless a b).setWidth w := by
  have hterms : forall n, (List.range n).foldl
      (fun acc i => if b.getLsbD i then acc ^^^ (a <<< i) else acc) 0#w =
        (carrylessTerms a b n).setWidth w := by
    intro n
    induction n with
    | zero => simp [carrylessTerms]
    | succ n ih =>
        rw [List.range_succ, List.foldl_append, ih, setWidth_carrylessTerms_succ]
        rfl
  exact hterms w

/--
The loop for the upper half starts at the second term, since the first has no bit there.
-/
theorem clmulHigh_eq (a b : BitVec w) : clmulHigh a b = (carryless a b).extractLsb' w w := by
  have hterms : forall n, n < w -> ((List.range (n + 1)).drop 1).foldl
      (fun acc i => if b.getLsbD i then acc ^^^ (a >>> (w - i)) else acc) 0#w =
        (carrylessTerms a b (n + 1)).extractLsb' w w := by
    intro n hn
    induction n with
    | zero =>
        have hnone : a >>> w = 0#w := BitVec.ushiftRight_eq_zero (Nat.le_refl w)
        rw [extract_carrylessTerms_succ a b (Nat.zero_le w), Nat.sub_zero, hnone]
        simp [carrylessTerms]
    | succ n ih =>
        rw [List.range_succ, List.drop_append_of_le_length (by simp), List.foldl_append,
          ih (by omega), extract_carrylessTerms_succ a b (show n + 1 <= w by omega)]
        rfl
  cases w with
  | zero => exact Subsingleton.elim _ _
  | succ n => exact hterms n (Nat.lt_succ_self n)

/-!
## Counts
-/

/--
The bits of the order that are clear before the first one that is set.
-/
theorem foldl_countZeros (a : BitVec w) (order : List Nat) (count : Nat) (done : Bool) :
    (order.foldl
      (fun st i => if !a.getLsbD i && !st.2 then (st.1 + 1, st.2) else (st.1, true))
      ((count, done) : Nat × Bool)).1 =
        count + if done then 0 else (order.takeWhile fun i => !a.getLsbD i).length := by
  induction order generalizing count done with
  | nil => simp
  | cons i order ih =>
      rw [List.foldl_cons, List.takeWhile_cons]
      cases done with
      | true =>
          simp only [Bool.not_true, Bool.and_false, Bool.false_eq_true, if_false]
          exact ih count true
      | false =>
          cases hbit : a.getLsbD i with
          | true =>
              simp only [Bool.not_true, Bool.false_and, Bool.false_eq_true, if_false]
              exact ih count true
          | false =>
              simp only [Bool.not_false, Bool.and_self, if_true, Bool.false_eq_true, if_false,
                List.length_cons]
              rw [ih (count + 1) false]
              simp only [Bool.false_eq_true, if_false]
              omega

theorem countZeros_eq (a : BitVec w) (order : List Nat) :
    countZeros a order = (order.takeWhile fun i => !a.getLsbD i).length := by
  unfold countZeros
  rw [foldl_countZeros]
  simp


/--
The prefix of an order on which a condition holds is the whole order, or it ends at the
first place where the condition fails.
-/
theorem takeWhile_spec {p : Nat -> Bool} {order : List Nat} {n : Nat}
    (hn : n = (order.takeWhile p).length) :
    n <= order.length ∧ (forall i, i < n -> p (order.getD i 0) = true) ∧
      (n < order.length -> p (order.getD n 0) = false) := by
  subst hn
  induction order with
  | nil => simp
  | cons x order ih =>
      rw [List.takeWhile_cons]
      cases hx : p x with
      | false => simp [hx]
      | true =>
          simp only [if_true, List.length_cons]
          refine ⟨by omega, ?_, ?_⟩
          · intro i hi
            cases i with
            | zero => exact hx
            | succ i => exact ih.2.1 i (by omega)
          · intro hlt
            exact ih.2.2 (by omega)

/--
The clear bits that come before the first set one, where the places of a word are visited
in some order.
-/
structure ZeroRun (a : BitVec w) (place : Nat -> Nat) (len n : Nat) : Prop where
  le : n <= len
  clear : forall i, i < n -> a.getLsbD (place i) = false
  set : n < len -> a.getLsbD (place n) = true

theorem countZeros_run (a : BitVec w) {order : List Nat} {place : Nat -> Nat} {len : Nat}
    (hlen : order.length = len) (hplace : forall i, i < len -> order.getD i 0 = place i) :
    ZeroRun a place len (countZeros a order) := by
  have hspec := takeWhile_spec (countZeros_eq a order)
  rw [hlen] at hspec
  refine ⟨hspec.1, ?_, ?_⟩
  · intro i hi
    have hbit := hspec.2.1 i hi
    rw [hplace i (by omega)] at hbit
    simpa using hbit
  · intro hlt
    have hbit := hspec.2.2 hlt
    rw [hplace _ hlt] at hbit
    simpa using hbit

theorem countZeros_trailing (a : BitVec w) (len : Nat) :
    ZeroRun a (fun i => i) len (countZeros a (List.range len)) := by
  apply countZeros_run a List.length_range
  intro i hi
  simp [hi]

theorem countZeros_leading (a : BitVec w) (len : Nat) :
    ZeroRun a (fun i => len - 1 - i) len (countZeros a (List.range len).reverse) := by
  apply countZeros_run a (by rw [List.length_reverse, List.length_range])
  intro i hi
  simp [hi]

theorem countOnes_eq (a : BitVec w) (len : Nat) :
    countOnes a len = (List.range len).countP a.getLsbD := by
  unfold countOnes
  induction len with
  | zero => rfl
  | succ len ih =>
      rw [List.range_succ, List.foldl_append, ih, List.countP_append, List.countP_singleton]
      cases hbit : a.getLsbD len with
      | false => simp [hbit]
      | true => simp [hbit]

theorem countOnes_le (a : BitVec w) (len : Nat) : countOnes a len <= len := by
  rw [countOnes_eq]
  exact List.countP_le_length.trans_eq List.length_range

/-!
## Rotations
-/

section Rotate

variable {a : BitVec w} {k j : Nat}

theorem place_lt (hk : k < w) (hj : j < w) :
    (j + k) % w = if j + k < w then j + k else j + k - w := by
  by_cases hwrap : j + k < w
  · rw [if_pos hwrap, Nat.mod_eq_of_lt hwrap]
  · rw [if_neg hwrap, Nat.mod_eq_sub_mod (by omega), Nat.mod_eq_of_lt (by omega)]

theorem getLsbD_rotateLeftBy (hk : k < w) (hj : j < w) :
    (rotateLeftBy a k).getLsbD ((j + k) % w) = a.getLsbD j := by
  unfold rotateLeftBy
  by_cases hzero : k = 0
  · rw [if_pos hzero, hzero, Nat.add_zero, Nat.mod_eq_of_lt hj]
  · rw [if_neg hzero, place_lt hk hj, BitVec.getLsbD_or, BitVec.getLsbD_shiftLeft,
      BitVec.getLsbD_ushiftRight]
    by_cases hwrap : j + k < w
    · rw [if_pos hwrap]
      have hgone : a.getLsbD (w - k + (j + k)) = false := BitVec.getLsbD_of_ge _ _ (by omega)
      simp [hwrap, hgone]
    · rw [if_neg hwrap]
      have hplace : w - k + (j + k - w) = j := by omega
      simp [hplace, show j + k - w < k by omega]

theorem getLsbD_rotateRightBy (hk : k < w) (hj : j < w) :
    (rotateRightBy a k).getLsbD j = a.getLsbD ((j + k) % w) := by
  unfold rotateRightBy
  by_cases hzero : k = 0
  · rw [if_pos hzero, hzero, Nat.add_zero, Nat.mod_eq_of_lt hj]
  · rw [if_neg hzero, place_lt hk hj, BitVec.getLsbD_or, BitVec.getLsbD_shiftLeft,
      BitVec.getLsbD_ushiftRight]
    by_cases hwrap : j + k < w
    · rw [if_pos hwrap]
      have hbelow : j < w - k := by omega
      simp [hbelow, Nat.add_comm]
    · rw [if_neg hwrap]
      have hgone : a.getLsbD (k + j) = false := BitVec.getLsbD_of_ge _ _ (by omega)
      have hplace : j - (w - k) = j + k - w := by omega
      simp [hgone, hplace, hj, show ¬ j < w - k by omega]

theorem rotateRightBy_rotateLeftBy (hk : k < w) : rotateRightBy (rotateLeftBy a k) k = a := by
  apply BitVec.eq_of_getLsbD_eq
  intro j hj
  rw [getLsbD_rotateRightBy hk hj, getLsbD_rotateLeftBy hk hj]

theorem rotateLeftBy_rotateRightBy (hk : k < w) : rotateLeftBy (rotateRightBy a k) k = a := by
  apply BitVec.eq_of_getLsbD_eq
  intro j hj
  -- the place that a bit comes from when it is rotated to the left
  have hsource : (j + (w - k)) % w < w := Nat.mod_lt _ (by omega)
  have hplace : ((j + (w - k)) % w + k) % w = j := by
    rw [Nat.mod_add_mod, Nat.add_assoc, Nat.sub_add_cancel (Nat.le_of_lt hk), Nat.add_mod_right,
      Nat.mod_eq_of_lt hj]
  have hbit := getLsbD_rotateLeftBy (a := rotateRightBy a k) hk hsource
  rw [getLsbD_rotateRightBy hk hsource, hplace] at hbit
  exact hbit

end Rotate

/-!
## Bytes and nibbles
-/

theorem getLsbD_brevByte (x : BitVec 8) {j : Nat} (hj : j < 8) :
    (brevByte x).getLsbD j = x.getLsbD (7 - j) := by
  unfold brevByte
  rw [BitVec.getLsbD_reverse, BitVec.getMsbD_eq_getLsbD, decide_eq_true hj]
  rfl

theorem brevByte_brevByte (x : BitVec 8) : brevByte (brevByte x) = x := BitVec.reverse_reverse_eq

theorem extract_xperm {len i : Nat} (hlen : 0 < len) (a b : BitVec w) (hi : i < w / len) :
    (xperm len a b).extractLsb' (len * i) len =
      if (b.extractLsb' (len * i) len).toNat < w / len then
        a.extractLsb' (len * (b.extractLsb' (len * i) len).toNat) len
      else 0 := by
  unfold xperm
  exact extract_assemble hlen (Nat.mul_div_le w len) hi

/-!
## The unit
-/

/--
The low bits that an operation reads, and the number of places it shifts by.
-/
def opWidth (w : Nat) (wordOp : Bool) : Nat := if wordOp then 32 else w

def opShamt (b : BitVec w) (wordOp : Bool) : Nat := if wordOp then b.toNat % 32 else shamt b

/--
A word operation sees the low 32 bits of its operand, sign-extended.
-/
def opValue (a : BitVec w) (wordOp : Bool) : BitVec w :=
  if wordOp then (a.setWidth 32).signExtend w else a

/--
What the bit-manipulation instructions are for.
-/
structure BitManipulation (a b : BitVec w) (wordOp : Bool) : Prop where
  product : bitPoly (carryless a b) = bitPoly a * bitPoly b
  clmul : alu .clmul a b wordOp = (carryless a b).setWidth w
  clmulh : alu .clmulh a b wordOp = (carryless a b).extractLsb' w w
  ctz : ZeroRun a (fun i => i) (opWidth w wordOp) (alu .ctz a b wordOp).toNat
  clz : ZeroRun a (fun i => opWidth w wordOp - 1 - i) (opWidth w wordOp)
    (alu .clz a b wordOp).toNat
  cpop : (alu .cpop a b wordOp).toNat = (List.range (opWidth w wordOp)).countP a.getLsbD
  rol : forall j, j < opWidth w wordOp ->
    (alu .rol a b wordOp).getLsbD ((j + opShamt b wordOp) % opWidth w wordOp) = a.getLsbD j
  rol_value : opValue (alu .rol a b wordOp) wordOp = alu .rol a b wordOp
  ror : forall j, j < opWidth w wordOp ->
    (alu .ror a b wordOp).getLsbD j = a.getLsbD ((j + opShamt b wordOp) % opWidth w wordOp)
  ror_value : opValue (alu .ror a b wordOp) wordOp = alu .ror a b wordOp
  ror_rol : alu .ror (alu .rol a b wordOp) b wordOp = opValue a wordOp
  rol_ror : alu .rol (alu .ror a b wordOp) b wordOp = opValue a wordOp
  rev8 : forall i, i < w / 8 ->
    byteAt (alu .rev8 a b wordOp) i = byteAt a (w / 8 - 1 - i)
  rev8_rev8 : alu .rev8 (alu .rev8 a b wordOp) b wordOp = a
  brev8 : forall i j, i < w / 8 -> j < 8 ->
    (byteAt (alu .brev8 a b wordOp) i).getLsbD j = (byteAt a i).getLsbD (7 - j)
  brev8_brev8 : alu .brev8 (alu .brev8 a b wordOp) b wordOp = a
  xperm4 : forall i, i < w / 4 -> (alu .xperm4 a b wordOp).extractLsb' (4 * i) 4 =
    if (b.extractLsb' (4 * i) 4).toNat < w / 4 then
      a.extractLsb' (4 * (b.extractLsb' (4 * i) 4).toNat) 4
    else 0
  xperm8 : forall i, i < w / 8 -> (alu .xperm8 a b wordOp).extractLsb' (8 * i) 8 =
    if (b.extractLsb' (8 * i) 8).toNat < w / 8 then
      a.extractLsb' (8 * (b.extractLsb' (8 * i) 8).toNat) 8
    else 0

section Unit

variable {a b : BitVec w} {wordOp : Bool}

theorem toNat_count {n : Nat} (hn : n <= w) : (BitVec.ofNat w n).toNat = n := by
  rw [BitVec.toNat_ofNat, Nat.mod_eq_of_lt]
  exact Nat.lt_of_le_of_lt hn Nat.lt_two_pow_self

theorem opWidth_le (hw : 32 <= w) : opWidth w wordOp <= w := by
  unfold opWidth
  cases wordOp with
  | false => exact Nat.le_refl w
  | true => exact hw

theorem toNat_ctz (hw : 32 <= w) :
    (alu .ctz a b wordOp).toNat = countZeros a (List.range (opWidth w wordOp)) :=
  toNat_count ((countZeros_trailing a _).le.trans (opWidth_le hw))

theorem toNat_clz (hw : 32 <= w) :
    (alu .clz a b wordOp).toNat = countZeros a (List.range (opWidth w wordOp)).reverse :=
  toNat_count ((countZeros_leading a _).le.trans (opWidth_le hw))

theorem toNat_cpop (hw : 32 <= w) :
    (alu .cpop a b wordOp).toNat = (List.range (opWidth w wordOp)).countP a.getLsbD := by
  rw [← countOnes_eq]
  exact toNat_count ((countOnes_le a _).trans (opWidth_le hw))

theorem getLsbD_signExtend_low (hw : 32 <= w) (x : BitVec 32) {i : Nat} (hi : i < 32) :
    (x.signExtend w).getLsbD i = x.getLsbD i := by
  rw [BitVec.getLsbD_signExtend, if_pos hi, decide_eq_true (show i < w by omega), Bool.true_and]

theorem setWidth_signExtend_low (hw : 32 <= w) (x : BitVec 32) :
    (x.signExtend w).setWidth 32 = x := by
  apply BitVec.eq_of_getLsbD_eq
  intro i hi
  rw [BitVec.getLsbD_setWidth, decide_eq_true hi, Bool.true_and, getLsbD_signExtend_low hw x hi]

theorem getLsbD_setWidth_low (a : BitVec w) {i : Nat} (hi : i < 32) :
    (a.setWidth 32).getLsbD i = a.getLsbD i := by
  rw [BitVec.getLsbD_setWidth, decide_eq_true hi, Bool.true_and]

theorem opValue_false (a : BitVec w) : opValue a false = a := rfl

/--
A word operation that rotates its low 32 bits and extends the sign of the result.
-/
theorem opValue_word (hw : 32 <= w) (x : BitVec 32) :
    opValue (x.signExtend w) true = x.signExtend w := by
  show ((x.signExtend w).setWidth 32).signExtend w = x.signExtend w
  rw [setWidth_signExtend_low hw]

theorem getLsbD_rol (hw : 32 <= w) (hk : shamt b < w) {j : Nat} (hj : j < opWidth w wordOp) :
    (alu .rol a b wordOp).getLsbD ((j + opShamt b wordOp) % opWidth w wordOp) = a.getLsbD j := by
  cases wordOp with
  | false => exact getLsbD_rotateLeftBy hk hj
  | true =>
      have hshift : b.toNat % 32 < 32 := Nat.mod_lt _ (by decide)
      show ((rotateLeftBy (a.setWidth 32) (b.toNat % 32)).signExtend w).getLsbD
        ((j + b.toNat % 32) % 32) = a.getLsbD j
      rw [getLsbD_signExtend_low hw _ (Nat.mod_lt _ (by decide)), getLsbD_rotateLeftBy hshift hj,
        getLsbD_setWidth_low a hj]

theorem getLsbD_ror (hw : 32 <= w) (hk : shamt b < w) {j : Nat} (hj : j < opWidth w wordOp) :
    (alu .ror a b wordOp).getLsbD j = a.getLsbD ((j + opShamt b wordOp) % opWidth w wordOp) := by
  cases wordOp with
  | false => exact getLsbD_rotateRightBy hk hj
  | true =>
      have hshift : b.toNat % 32 < 32 := Nat.mod_lt _ (by decide)
      show ((rotateRightBy (a.setWidth 32) (b.toNat % 32)).signExtend w).getLsbD j =
        a.getLsbD ((j + b.toNat % 32) % 32)
      rw [getLsbD_signExtend_low hw _ hj, getLsbD_rotateRightBy hshift hj,
        getLsbD_setWidth_low a (Nat.mod_lt _ (by decide))]

theorem opValue_rol (hw : 32 <= w) :
    opValue (alu .rol a b wordOp) wordOp = alu .rol a b wordOp := by
  cases wordOp with
  | false => exact opValue_false _
  | true => exact opValue_word hw _

theorem opValue_ror (hw : 32 <= w) :
    opValue (alu .ror a b wordOp) wordOp = alu .ror a b wordOp := by
  cases wordOp with
  | false => exact opValue_false _
  | true => exact opValue_word hw _

theorem ror_rol (hw : 32 <= w) (hk : shamt b < w) :
    alu .ror (alu .rol a b wordOp) b wordOp = opValue a wordOp := by
  cases wordOp with
  | false => exact rotateRightBy_rotateLeftBy hk
  | true =>
      show (rotateRightBy (((rotateLeftBy (a.setWidth 32) (b.toNat % 32)).signExtend w).setWidth 32)
        (b.toNat % 32)).signExtend w = (a.setWidth 32).signExtend w
      rw [setWidth_signExtend_low hw, rotateRightBy_rotateLeftBy (Nat.mod_lt _ (by decide))]

theorem rol_ror (hw : 32 <= w) (hk : shamt b < w) :
    alu .rol (alu .ror a b wordOp) b wordOp = opValue a wordOp := by
  cases wordOp with
  | false => exact rotateLeftBy_rotateRightBy hk
  | true =>
      show (rotateLeftBy (((rotateRightBy (a.setWidth 32) (b.toNat % 32)).signExtend w).setWidth 32)
        (b.toNat % 32)).signExtend w = (a.setWidth 32).signExtend w
      rw [setWidth_signExtend_low hw, rotateLeftBy_rotateRightBy (Nat.mod_lt _ (by decide))]

theorem byteAt_rev8 {i : Nat} (hi : i < w / 8) :
    byteAt (alu .rev8 a b wordOp) i = byteAt a (w / 8 - 1 - i) :=
  byteAt_assemble (Nat.mul_div_le w 8) hi

theorem byteAt_brev8 {i : Nat} (hi : i < w / 8) :
    byteAt (alu .brev8 a b wordOp) i = brevByte (byteAt a i) :=
  byteAt_assemble (Nat.mul_div_le w 8) hi

theorem rev8_rev8 (hbytes : 8 ∣ w) : alu .rev8 (alu .rev8 a b wordOp) b wordOp = a := by
  apply eq_of_byteAt (Nat.mul_div_cancel' hbytes).ge
  intro i hi
  rw [byteAt_rev8 hi, byteAt_rev8 (by omega)]
  congr 1
  omega

theorem brev8_brev8 (hbytes : 8 ∣ w) : alu .brev8 (alu .brev8 a b wordOp) b wordOp = a := by
  apply eq_of_byteAt (Nat.mul_div_cancel' hbytes).ge
  intro i hi
  rw [byteAt_brev8 hi, byteAt_brev8 hi, brevByte_brevByte]

end Unit

/-!
## Widths that are powers of two
-/

section PowerOfTwo

variable {k : Nat}

theorem shamt_lt (hwidth : w = 2 ^ k) (b : BitVec w) : shamt b < w := by
  have hlog : 2 ^ Nat.log2 w = w := by rw [hwidth, Nat.log2_two_pow]
  unfold shamt
  rw [hlog]
  exact Nat.mod_lt _ (hwidth ▸ Nat.two_pow_pos k)

theorem dvd_width (hwidth : w = 2 ^ k) (hk : 5 <= k) : 32 ∣ w := by
  have hdvd : 2 ^ 5 ∣ 2 ^ k := Nat.pow_dvd_pow 2 hk
  rw [hwidth]
  norm_num at hdvd
  exact hdvd

/--
The unit computes the bit-manipulation instructions at every width that is a power of two.
-/
theorem bit_manipulation (hwidth : w = 2 ^ k) (hk : 5 <= k) (a b : BitVec w) (wordOp : Bool) :
    BitManipulation a b wordOp := by
  have hdvd : 32 ∣ w := dvd_width hwidth hk
  have hpos : 0 < w := hwidth ▸ Nat.two_pow_pos k
  have hw : 32 <= w := Nat.le_of_dvd hpos hdvd
  have hbytes : 8 ∣ w := (by decide : 8 ∣ 32).trans hdvd
  have hshift : shamt b < w := shamt_lt hwidth b
  constructor
  case product => exact bitPoly_carryless a b
  case clmul => exact clmulLow_eq a b
  case clmulh => exact clmulHigh_eq a b
  case ctz =>
    rw [toNat_ctz hw]
    exact countZeros_trailing a _
  case clz =>
    rw [toNat_clz hw]
    exact countZeros_leading a _
  case cpop => exact toNat_cpop hw
  case rol => exact fun j hj => getLsbD_rol hw hshift hj
  case rol_value => exact opValue_rol hw
  case ror => exact fun j hj => getLsbD_ror hw hshift hj
  case ror_value => exact opValue_ror hw
  case ror_rol => exact ror_rol hw hshift
  case rol_ror => exact rol_ror hw hshift
  case rev8 => exact fun i hi => byteAt_rev8 hi
  case rev8_rev8 => exact rev8_rev8 hbytes
  case brev8 =>
    intro i j hi hj
    rw [byteAt_brev8 hi, getLsbD_brevByte _ hj]
  case brev8_brev8 => exact brev8_brev8 hbytes
  case xperm4 => exact fun i hi => extract_xperm (by decide) a b hi
  case xperm8 => exact fun i hi => extract_xperm (by decide) a b hi

theorem bit_manipulation_rorw :
    64 = 2 ^ 6 ∧ 5 <= 6 ∧
      BitManipulation (0x80000001 : BitVec 64) (0xFFFFFFFFFFFFFFE4 : BitVec 64) true := by
  have hwidth : 64 = 2 ^ 6 := by norm_num
  exact ⟨hwidth, by decide, bit_manipulation hwidth (by decide) _ _ true⟩

end PowerOfTwo

end Isa
end RvCores
