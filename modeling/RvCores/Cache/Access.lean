import RvCores.Block.Memory

/-!
# Sub-word accesses

The caches hold whole words.  A load picks a byte or half out of a word and
extends it, a store merges one in.  The functions here are the two multiplexers
of the caches; the lemmas relate them to loads and stores on a flat memory of
bytes, for naturally aligned accesses.
-/

namespace RvCores
namespace Cache

open Isa Block

/-!
# The multiplexers
-/

def extendRead (word : Word) (funct3 : BitVec 3) (byteOff : Nat) : Word :=
  if funct3 = 0b000 then (word.extractLsb' (8 * byteOff) 8).signExtend 32
  else if funct3 = 0b100 then (word.extractLsb' (8 * byteOff) 8).setWidth 32
  else if funct3 = 0b001 then (word.extractLsb' (16 * (byteOff / 2)) 16).signExtend 32
  else if funct3 = 0b101 then (word.extractLsb' (16 * (byteOff / 2)) 16).setWidth 32
  else word

def mergeByte (old : Word) (byteOff : Nat) (wdata : Word) : Word :=
  match byteOff with
  | 0 => old.extractLsb' 8 24 ++ wdata.extractLsb' 0 8
  | 1 => old.extractLsb' 16 16 ++ wdata.extractLsb' 0 8 ++ old.extractLsb' 0 8
  | 2 => old.extractLsb' 24 8 ++ wdata.extractLsb' 0 8 ++ old.extractLsb' 0 16
  | _ => wdata.extractLsb' 0 8 ++ old.extractLsb' 0 24

def mergeWrite (old : Word) (funct3Lo : BitVec 2) (byteOff : Nat) (wdata : Word) : Word :=
  if funct3Lo = 0b00 then mergeByte old byteOff wdata
  else if funct3Lo = 0b01 then
    if byteOff / 2 = 1 then wdata.extractLsb' 0 16 ++ old.extractLsb' 0 16
    else old.extractLsb' 16 16 ++ wdata.extractLsb' 0 16
  else wdata

def lowBits (funct3 : BitVec 3) : BitVec 2 := funct3.extractLsb' 0 2

def byteOff (addr : Nat) : Nat := addr % 4

/-!
# Flat memory
-/

namespace Flat

def size (funct3 : BitVec 3) : Nat :=
  if lowBits funct3 = 0b00 then 1
  else if lowBits funct3 = 0b01 then 2
  else 4

def half (mem : Bytes) (addr : Nat) : BitVec 16 := mem (addr + 1) ++ mem addr

def word (mem : Bytes) (addr : Nat) : Word :=
  mem (addr + 3) ++ mem (addr + 2) ++ mem (addr + 1) ++ mem addr

def load (mem : Bytes) (addr : Nat) (funct3 : BitVec 3) : Word :=
  if funct3 = 0b000 then (mem addr).signExtend 32
  else if funct3 = 0b100 then (mem addr).setWidth 32
  else if funct3 = 0b001 then (half mem addr).signExtend 32
  else if funct3 = 0b101 then (half mem addr).setWidth 32
  else word mem addr

def store (mem : Bytes) (addr : Nat) (funct3 : BitVec 3) (wdata : Word) : Bytes :=
  fun a =>
    if addr <= a ∧ a < addr + size funct3 then wdata.extractLsb' (8 * (a - addr)) 8
    else mem a

/--
Natural alignment: the address is a multiple of the width of the access.
-/
def Aligned (addr : Nat) (funct3 : BitVec 3) : Prop := addr % size funct3 = 0

instance (addr : Nat) (funct3 : BitVec 3) : Decidable (Aligned addr funct3) :=
  inferInstanceAs (Decidable (addr % size funct3 = 0))

/-!
# Bits of a word
-/

theorem getLsbD_word (mem : Bytes) (addr : Nat) {i : Nat} (hi : i < 32) :
    (word mem addr).getLsbD i = (mem (addr + i / 8)).getLsbD (i % 8) := by
  simp only [word, BitVec.getLsbD_append]
  have hbyte : i / 8 = 0 ∨ i / 8 = 1 ∨ i / 8 = 2 ∨ i / 8 = 3 := by omega
  rcases hbyte with h | h | h | h <;> rw [h]
  · rw [if_pos (by omega)]
    congr 1
    omega
  · rw [if_neg (by omega), if_pos (by omega)]
    congr 1
    omega
  · rw [if_neg (by omega), if_neg (by omega), if_pos (by omega)]
    congr 1
    omega
  · rw [if_neg (by omega), if_neg (by omega), if_neg (by omega)]
    congr 1
    omega

theorem getLsbD_store (mem : Bytes) (addr : Nat) (funct3 : BitVec 3) (wdata : Word)
    (a : Nat) {i : Nat} (hi : i < 8) :
    (store mem addr funct3 wdata a).getLsbD i =
      if addr <= a ∧ a < addr + size funct3 then wdata.getLsbD (8 * (a - addr) + i)
      else (mem a).getLsbD i := by
  unfold store
  split
  · simp [hi]
  · rfl

theorem size_cases (funct3 : BitVec 3) :
    (lowBits funct3 = 0b00 ∧ size funct3 = 1) ∨
      (lowBits funct3 = 0b01 ∧ size funct3 = 2) ∨
      (lowBits funct3 ≠ 0b00 ∧ lowBits funct3 ≠ 0b01 ∧ size funct3 = 4) := by
  unfold size
  by_cases h0 : lowBits funct3 = 0b00
  · simp [h0]
  · by_cases h1 : lowBits funct3 = 0b01
    · simp [h1]
    · rw [if_neg h0, if_neg h1]
      exact Or.inr (Or.inr ⟨h0, h1, rfl⟩)

theorem aligned_word_offset {addr : Nat} {funct3 : BitVec 3} (h : Aligned addr funct3) :
    addr % 4 % size funct3 = 0 ∧ addr % 4 + size funct3 <= 4 := by
  unfold Aligned at h
  rcases size_cases funct3 with ⟨_, hs⟩ | ⟨_, hs⟩ | ⟨_, _, hs⟩ <;> rw [hs] at h ⊢ <;> omega

end Flat

open Flat

theorem getLsbD_mergeWrite {old wdata : Word} {funct3 : BitVec 3} {off i : Nat}
    (hoff : off % size funct3 = 0) (hin : off + size funct3 <= 4) (hi : i < 32) :
    (mergeWrite old (lowBits funct3) off wdata).getLsbD i =
      if 8 * off <= i ∧ i < 8 * off + 8 * size funct3 then wdata.getLsbD (i - 8 * off)
      else old.getLsbD i := by
  unfold mergeWrite
  rcases size_cases funct3 with ⟨hlow, hsize⟩ | ⟨hlow, hsize⟩ | ⟨h0, h1, hsize⟩
  · rw [if_pos hlow, hsize]
    have hbyte : off = 0 ∨ off = 1 ∨ off = 2 ∨ off = 3 := by omega
    rcases hbyte with rfl | rfl | rfl | rfl <;>
      simp only [mergeByte, BitVec.getLsbD_append, BitVec.getLsbD_extractLsb'] <;> grind
  · rw [if_neg (by simp [hlow]), if_pos hlow, hsize]
    rw [hsize] at hoff hin
    have hhalf : off = 0 ∨ off = 2 := by omega
    rcases hhalf with rfl | rfl
    · rw [if_neg (by decide), BitVec.getLsbD_append]
      simp only [BitVec.getLsbD_extractLsb']
      grind
    · rw [if_pos (by decide), BitVec.getLsbD_append]
      simp only [BitVec.getLsbD_extractLsb']
      grind
  · rw [if_neg h0, if_neg h1, hsize]
    have hzero : off = 0 := by omega
    subst hzero
    simp [hi]

/-!
# Loads and stores, word by word
-/

namespace Flat

theorem word_byte (mem : Bytes) (addr : Nat) {k : Nat} (hk : k < 4) :
    (word mem addr).extractLsb' (8 * k) 8 = mem (addr + k) := by
  apply BitVec.eq_of_getLsbD_eq
  intro i hi
  rw [BitVec.getLsbD_extractLsb', getLsbD_word _ _ (by omega)]
  have hdiv : (8 * k + i) / 8 = k := by omega
  have hmod : (8 * k + i) % 8 = i := by omega
  simp [hdiv, hmod, hi]

theorem word_half (mem : Bytes) (addr : Nat) {k : Nat} (hk : k < 2) :
    (word mem addr).extractLsb' (16 * k) 16 = half mem (addr + 2 * k) := by
  apply BitVec.eq_of_getLsbD_eq
  intro i hi
  rw [BitVec.getLsbD_extractLsb', getLsbD_word _ _ (by omega)]
  unfold half
  rw [BitVec.getLsbD_append]
  simp only [hi, decide_true, Bool.true_and]
  split
  · rw [show addr + (16 * k + i) / 8 = addr + 2 * k by omega,
      show (16 * k + i) % 8 = i by omega]
  · rw [show addr + (16 * k + i) / 8 = addr + 2 * k + 1 by omega,
      show (16 * k + i) % 8 = i - 8 by omega]

theorem word_size {funct3 : BitVec 3} (h0 : funct3 ≠ 0b000) (h4 : funct3 ≠ 0b100)
    (h1 : funct3 ≠ 0b001) (h5 : funct3 ≠ 0b101) :
    size funct3 = 4 := by
  revert funct3
  decide

/--
A load picks its value out of the word that contains it.
-/
theorem extendRead_word (mem : Bytes) {addr : Nat} {funct3 : BitVec 3}
    (h : Aligned addr funct3) :
    extendRead (word mem (4 * (addr / 4))) funct3 (addr % 4) = load mem addr funct3 := by
  have hbyte : (word mem (4 * (addr / 4))).extractLsb' (8 * (addr % 4)) 8 = mem addr := by
    rw [word_byte _ _ (Nat.mod_lt addr (by omega)), Nat.div_add_mod]
  have hhalf : addr % 2 = 0 ->
      (word mem (4 * (addr / 4))).extractLsb' (16 * (addr % 4 / 2)) 16 = half mem addr := by
    intro heven
    rw [word_half _ _ (by omega)]
    congr 1
    omega
  unfold extendRead load
  by_cases h0 : funct3 = 0b000
  · rw [if_pos h0, if_pos h0, hbyte]
  · rw [if_neg h0, if_neg h0]
    by_cases h4 : funct3 = 0b100
    · rw [if_pos h4, if_pos h4, hbyte]
    · rw [if_neg h4, if_neg h4]
      by_cases h1 : funct3 = 0b001
      · rw [if_pos h1, if_pos h1, hhalf (by subst h1; exact h)]
      · rw [if_neg h1, if_neg h1]
        by_cases h5 : funct3 = 0b101
        · rw [if_pos h5, if_pos h5, hhalf (by subst h5; exact h)]
        · rw [if_neg h5, if_neg h5]
          unfold Aligned at h
          rw [word_size h0 h4 h1 h5] at h
          congr 1
          omega

/--
A store seen through the word that contains it is the merge, and every other word
is unchanged.
-/
theorem word_store (mem : Bytes) {addr : Nat} {funct3 : BitVec 3} (wdata : Word)
    (h : Aligned addr funct3) (w : Nat) :
    word (store mem addr funct3 wdata) (4 * w) =
      if w = addr / 4 then mergeWrite (word mem (4 * w)) (lowBits funct3) (addr % 4) wdata
      else word mem (4 * w) := by
  have hoff := aligned_word_offset h
  apply BitVec.eq_of_getLsbD_eq
  intro i hi
  rw [getLsbD_word _ _ hi, getLsbD_store _ _ _ _ _ (Nat.mod_lt i (by omega))]
  by_cases hw : w = addr / 4
  · rw [if_pos hw, getLsbD_mergeWrite hoff.left hoff.right hi, getLsbD_word _ _ hi]
    by_cases hin : addr <= 4 * w + i / 8 ∧ 4 * w + i / 8 < addr + size funct3
    · rw [if_pos hin, if_pos (by omega)]
      congr 1
      omega
    · rw [if_neg hin, if_neg (by omega)]
  · rw [if_neg hw, if_neg (by omega), getLsbD_word _ _ hi]

end Flat
end Cache
end RvCores
