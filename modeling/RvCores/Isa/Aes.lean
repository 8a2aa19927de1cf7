import RvCores.Isa.Slices

/-!
# AES rounds

A round of the half-state instructions works on both halves of the state by being issued
twice with its operands swapped.  The decryption round undoes the encryption round because
each of its three layers undoes the layer of encryption.
-/

namespace RvCores
namespace Isa

/-!
## Columns
-/

theorem xor_of_condition (p q : Bool) (c : BitVec 8) :
    (if (p ^^ q) = true then c else 0) =
      (if p = true then c else 0) ^^^ (if q = true then c else 0) := by
  cases p <;> cases q <;> simp

theorem xor_under_condition (p : Bool) (x y : BitVec 8) :
    (if p = true then x ^^^ y else 0) =
      (if p = true then x else 0) ^^^ (if p = true then y else 0) := by
  cases p <;> simp

theorem aesXt2_xor (x y : BitVec 8) : aesXt2 (x ^^^ y) = aesXt2 x ^^^ aesXt2 y := by
  unfold aesXt2
  rw [BitVec.shiftLeft_xor_distrib, BitVec.getLsbD_xor, xor_of_condition]
  ac_rfl

theorem aesGfmul_xor (x y : BitVec 8) (c : BitVec 4) :
    aesGfmul (x ^^^ y) c = aesGfmul x c ^^^ aesGfmul y c := by
  unfold aesGfmul
  simp only [aesXt2_xor, xor_under_condition]
  ac_rfl

/--
What a byte of a column brings, through the forward matrix, to the row of the inverse
matrix that has these constants, starting with the byte's own.
-/
def aesUnmix (c0 c1 c2 c3 : BitVec 4) (x : BitVec 8) : BitVec 8 :=
  aesGfmul (aesXt2 x) c0 ^^^ aesGfmul x c1 ^^^ aesGfmul x c2 ^^^ aesGfmul (aesXt3 x) c3

/--
A row of the inverse matrix keeps its own byte of the column and cancels the other three.
-/
theorem aesUnmix_rows : forall x,
    aesUnmix 0xE 0xB 0xD 0x9 x = x ∧ aesUnmix 0x9 0xE 0xB 0xD x = 0#8 ∧
      aesUnmix 0xD 0x9 0xE 0xB x = 0#8 ∧ aesUnmix 0xB 0xD 0x9 0xE x = 0#8 := by
  decide +kernel

/--
A row of the inverse matrix applied to a mixed column.
-/
theorem aesGfmul_mixed (c0 c1 c2 c3 : BitVec 4) (s0 s1 s2 s3 : BitVec 8) :
    aesGfmul (aesXt2 s0 ^^^ aesXt3 s1 ^^^ s2 ^^^ s3) c0 ^^^
        aesGfmul (s0 ^^^ aesXt2 s1 ^^^ aesXt3 s2 ^^^ s3) c1 ^^^
        aesGfmul (s0 ^^^ s1 ^^^ aesXt2 s2 ^^^ aesXt3 s3) c2 ^^^
        aesGfmul (aesXt3 s0 ^^^ s1 ^^^ s2 ^^^ aesXt2 s3) c3 =
      aesUnmix c0 c1 c2 c3 s0 ^^^ aesUnmix c1 c2 c3 c0 s1 ^^^ aesUnmix c2 c3 c0 c1 s2 ^^^
        aesUnmix c3 c0 c1 c2 s3 := by
  unfold aesUnmix
  simp only [aesGfmul_xor]
  ac_rfl

theorem aesMixcolumnInv_aesMixcolumnFwd (x : BitVec 32) :
    aesMixcolumnInv (aesMixcolumnFwd x) = x := by
  apply eq_of_byteAt (show 32 <= 8 * 4 by decide)
  intro i hi
  unfold aesMixcolumnInv aesMixcolumnFwd
  simp only [byteAt_concat_succ, byteAt_concat_zero, byteAt_byte, aesGfmul_mixed]
  rcases (by omega : i = 0 ∨ i = 1 ∨ i = 2 ∨ i = 3) with rfl | rfl | rfl | rfl
  all_goals
    simp only [byteAt_concat_succ, byteAt_concat_zero, byteAt_byte, aesUnmix_rows,
      BitVec.xor_zero, BitVec.zero_xor]

/-!
## Bytes
-/

/--
The inverse table at the entries of the forward one.
-/
theorem map_aesSboxInv :
    aesSboxFwdRom.map aesSboxInv = (List.range 256).map (BitVec.ofNat 8) := by
  decide +kernel

theorem aesSboxInv_aesSboxFwd (x : BitVec 8) : aesSboxInv (aesSboxFwd x) = x := by
  have hlength := congrArg List.length map_aesSboxInv
  rw [List.length_map, List.length_map, List.length_range] at hlength
  have hlt : x.toNat < aesSboxFwdRom.length := hlength ▸ x.isLt
  have hentry : aesSboxFwd x = aesSboxFwdRom[x.toNat] := by
    unfold aesSboxFwd
    rw [List.getD_eq_getElem?_getD, List.getElem?_eq_getElem hlt]
    rfl
  have hmap : (aesSboxFwdRom.map aesSboxInv)[x.toNat]? = some (BitVec.ofNat 8 x.toNat) := by
    rw [map_aesSboxInv, List.getElem?_map, List.getElem?_range x.isLt]
    rfl
  rw [List.getElem?_map, List.getElem?_eq_getElem hlt] at hmap
  rw [hentry, Option.some.inj hmap]
  rw [BitVec.ofNat_toNat, BitVec.setWidth_eq]

theorem lt_eight {i : Nat} (hlt : i < 8) :
    i = 0 ∨ i = 1 ∨ i = 2 ∨ i = 3 ∨ i = 4 ∨ i = 5 ∨ i = 6 ∨ i = 7 := by
  omega

theorem byteAt_aesApplyFwdSbox (x : BitVec 64) {i : Nat} (hi : i < 8) :
    byteAt (aesApplyFwdSboxToEachByte x) i = aesSboxFwd (byteAt x i) :=
  byteAt_assemble (by decide) hi

theorem byteAt_aesApplyInvSbox (x : BitVec 64) {i : Nat} (hi : i < 8) :
    byteAt (aesApplyInvSboxToEachByte x) i = aesSboxInv (byteAt x i) :=
  byteAt_assemble (by decide) hi

theorem aesApplyInvSbox_aesApplyFwdSbox (x : BitVec 64) :
    aesApplyInvSboxToEachByte (aesApplyFwdSboxToEachByte x) = x := by
  apply eq_of_byteAt (show 64 <= 8 * 8 by decide)
  intro i hi
  rw [byteAt_aesApplyInvSbox _ hi, byteAt_aesApplyFwdSbox _ hi, aesSboxInv_aesSboxFwd]

/--
The permutation moves whole bytes, so it commutes with what is done to each of them.
-/
theorem aesRv64ShiftrowsInv_aesApplyFwdSbox (hi lo : BitVec 64) :
    aesRv64ShiftrowsInv (aesApplyFwdSboxToEachByte hi) (aesApplyFwdSboxToEachByte lo) =
      aesApplyFwdSboxToEachByte (aesRv64ShiftrowsInv hi lo) := by
  apply eq_of_byteAt (show 64 <= 8 * 8 by decide)
  intro i hlt
  rw [byteAt_aesApplyFwdSbox _ hlt]
  unfold aesRv64ShiftrowsInv
  rcases lt_eight hlt with rfl | rfl | rfl | rfl | rfl | rfl | rfl | rfl
  all_goals
    simp only [byteAt_concat_succ, byteAt_concat_zero, byteAt_byte]
    exact byteAt_aesApplyFwdSbox _ (by decide)

theorem aesRv64ShiftrowsInv_aesRv64ShiftrowsFwd (hi lo : BitVec 64) :
    aesRv64ShiftrowsInv (aesRv64ShiftrowsFwd lo hi) (aesRv64ShiftrowsFwd hi lo) = lo := by
  apply eq_of_byteAt (show 64 <= 8 * 8 by decide)
  intro i hlt
  unfold aesRv64ShiftrowsInv aesRv64ShiftrowsFwd
  rcases lt_eight hlt with rfl | rfl | rfl | rfl | rfl | rfl | rfl | rfl
  all_goals simp only [byteAt_concat_succ, byteAt_concat_zero, byteAt_byte]

/-!
## Rounds
-/

theorem aesMixHalves_inv_fwd (x : BitVec 64) :
    aesMixHalves aesMixcolumnInv (aesMixHalves aesMixcolumnFwd x) = x := by
  have hupper (hi lo : BitVec 32) : (hi ++ lo).extractLsb 63 32 = hi :=
    BitVec.extractLsb'_append_eq_left
  have hlower (hi lo : BitVec 32) : (hi ++ lo).extractLsb 31 0 = lo :=
    BitVec.extractLsb'_append_eq_right
  have hsplit : x.extractLsb 63 32 ++ x.extractLsb 31 0 = x :=
    BitVec.extractLsb'_append_extractLsb'
  unfold aesMixHalves
  rw [hupper, hlower, aesMixcolumnInv_aesMixcolumnFwd, aesMixcolumnInv_aesMixcolumnFwd]
  exact hsplit

/--
Software issues a half-state instruction twice, the second time with its operands swapped,
to get both halves of the new state.
-/
def bothOrders (ctl : AluCtl) (wordOp : Bool) (s : BitVec 64 × BitVec 64) :
    BitVec 64 × BitVec 64 :=
  (alu ctl s.1 s.2 wordOp, alu ctl s.2 s.1 wordOp)

/--
An instruction that reads its first operand alone is issued once for each half.
-/
def eachHalf (ctl : AluCtl) (other : BitVec 64) (wordOp : Bool) (s : BitVec 64 × BitVec 64) :
    BitVec 64 × BitVec 64 :=
  (alu ctl s.1 other wordOp, alu ctl s.2 other wordOp)

section Unit

variable (a b : BitVec 64) (wordOp : Bool)

theorem alu_aes64es :
    alu .aes64es a b wordOp = aesApplyFwdSboxToEachByte (aesRv64ShiftrowsFwd b a) := by
  show (aesApplyFwdSboxToEachByte
    (aesRv64ShiftrowsFwd (b.setWidth 64) (a.setWidth 64))).setWidth 64 = _
  simp only [BitVec.setWidth_eq]

theorem alu_aes64esm :
    alu .aes64esm a b wordOp = aesMixHalves aesMixcolumnFwd (alu .aes64es a b wordOp) := by
  rw [alu_aes64es]
  show (aesMixHalves aesMixcolumnFwd (aesApplyFwdSboxToEachByte
    (aesRv64ShiftrowsFwd (b.setWidth 64) (a.setWidth 64)))).setWidth 64 = _
  simp only [BitVec.setWidth_eq]

theorem alu_aes64ds :
    alu .aes64ds a b wordOp = aesApplyInvSboxToEachByte (aesRv64ShiftrowsInv b a) := by
  show (aesApplyInvSboxToEachByte
    (aesRv64ShiftrowsInv (b.setWidth 64) (a.setWidth 64))).setWidth 64 = _
  simp only [BitVec.setWidth_eq]

theorem alu_aes64im : alu .aes64im a b wordOp = aesMixHalves aesMixcolumnInv a := by
  show (aesMixHalves aesMixcolumnInv (a.setWidth 64)).setWidth 64 = _
  simp only [BitVec.setWidth_eq]

theorem alu_aes64dsm (other : BitVec 64) :
    alu .aes64dsm a b wordOp = alu .aes64im (alu .aes64ds a b wordOp) other wordOp := by
  rw [alu_aes64im, alu_aes64ds]
  show (aesMixHalves aesMixcolumnInv (aesApplyInvSboxToEachByte
    (aesRv64ShiftrowsInv (b.setWidth 64) (a.setWidth 64)))).setWidth 64 = _
  simp only [BitVec.setWidth_eq]

theorem aes64im_aes64esm (other : BitVec 64) :
    alu .aes64im (alu .aes64esm a b wordOp) other wordOp = alu .aes64es a b wordOp := by
  rw [alu_aes64im, alu_aes64esm, aesMixHalves_inv_fwd]

/--
Decrypting the two encrypted halves gives back the half that was issued first.
-/
theorem aes64ds_aes64es :
    alu .aes64ds (alu .aes64es a b wordOp) (alu .aes64es b a wordOp) wordOp = a := by
  rw [alu_aes64ds, alu_aes64es, alu_aes64es, aesRv64ShiftrowsInv_aesApplyFwdSbox,
    aesApplyInvSbox_aesApplyFwdSbox, aesRv64ShiftrowsInv_aesRv64ShiftrowsFwd]

end Unit

theorem bothOrders_undone (wordOp : Bool) (s : BitVec 64 × BitVec 64) :
    bothOrders .aes64ds wordOp (bothOrders .aes64es wordOp s) = s :=
  Prod.ext (aes64ds_aes64es s.1 s.2 wordOp) (aes64ds_aes64es s.2 s.1 wordOp)

theorem eachHalf_aes64im_unmixes (wordOp : Bool) (other : BitVec 64)
    (s : BitVec 64 × BitVec 64) :
    eachHalf .aes64im other wordOp (bothOrders .aes64esm wordOp s) =
      bothOrders .aes64es wordOp s :=
  Prod.ext (aes64im_aes64esm s.1 s.2 wordOp other) (aes64im_aes64esm s.2 s.1 wordOp other)

/--
The decryption round undoes the encryption round, the last one and the ones that mix
columns, and each layer of decryption undoes its layer of encryption.
-/
theorem aes_decrypt_undoes_encrypt (wordOp : Bool) (other : BitVec 64) :
    (forall s, bothOrders .aes64ds wordOp (bothOrders .aes64es wordOp s) = s) ∧
    (forall s, bothOrders .aes64ds wordOp
      (eachHalf .aes64im other wordOp (bothOrders .aes64esm wordOp s)) = s) ∧
    (forall a b : BitVec 64,
      alu .aes64dsm a b wordOp = alu .aes64im (alu .aes64ds a b wordOp) other wordOp) ∧
    (forall x, aesMixcolumnInv (aesMixcolumnFwd x) = x) ∧
    (forall x, aesSboxInv (aesSboxFwd x) = x) ∧
    (forall hi lo,
      aesRv64ShiftrowsInv (aesRv64ShiftrowsFwd lo hi) (aesRv64ShiftrowsFwd hi lo) = lo) := by
  refine ⟨bothOrders_undone wordOp, ?_, ?_, aesMixcolumnInv_aesMixcolumnFwd,
    aesSboxInv_aesSboxFwd, aesRv64ShiftrowsInv_aesRv64ShiftrowsFwd⟩
  · intro s
    rw [eachHalf_aes64im_unmixes]
    exact bothOrders_undone wordOp s
  · intro a b
    exact alu_aes64dsm a b wordOp other

end Isa
end RvCores
