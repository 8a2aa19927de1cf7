import Mathlib.Data.BitVec

/-!
# Double words in a byte memory

Memories are total functions from addresses to bytes.  A double word is kept with its
lowest byte first, at any address, and addresses wrap around.
-/

namespace RvCores
namespace Lib

abbrev ByteMemory := BitVec 64 -> BitVec 8

namespace ByteMemory

def load (mem : ByteMemory) (a : BitVec 64) : BitVec 64 :=
  mem (a + 7) ++ mem (a + 6) ++ mem (a + 5) ++ mem (a + 4) ++
    mem (a + 3) ++ mem (a + 2) ++ mem (a + 1) ++ mem a

def store (mem : ByteMemory) (a v : BitVec 64) : ByteMemory :=
  fun b => if (b - a).toNat < 8 then v.extractLsb' (8 * (b - a).toNat) 8 else mem b

/--
Two double words have no byte in common.
-/
def Apart (a b : BitVec 64) : Prop := 8 <= (b - a).toNat ∧ 8 <= (a - b).toNat

theorem Apart.symm {a b : BitVec 64} (h : Apart a b) : Apart b a := ⟨h.right, h.left⟩

theorem store_byte (mem : ByteMemory) (a v k : BitVec 64) (hk : k.toNat < 8) :
    store mem a v (a + k) = v.extractLsb' (8 * k.toNat) 8 := by
  have hdiff : a + k - a = k := by
    rw [BitVec.add_comm, BitVec.add_sub_cancel]
  unfold store
  rw [hdiff, if_pos hk]

theorem store_byte_of_apart {a b : BitVec 64} (h : Apart a b) (mem : ByteMemory) (v k : BitVec 64)
    (hk : k.toNat < 8) : store mem a v (b + k) = mem (b + k) := by
  obtain ⟨hba, hab⟩ := h
  have hfar : ¬ (b + k - a).toNat < 8 := by bv_omega
  unfold store
  rw [if_neg hfar]

/--
A double word is the sequence of its bytes.
-/
theorem append_bytes (v : BitVec 64) :
    v.extractLsb' 56 8 ++ v.extractLsb' 48 8 ++ v.extractLsb' 40 8 ++ v.extractLsb' 32 8 ++
      v.extractLsb' 24 8 ++ v.extractLsb' 16 8 ++ v.extractLsb' 8 8 ++ v.extractLsb' 0 8 = v := by
  simp only [BitVec.extractLsb'_append_extractLsb'_eq_extractLsb']
  simp

theorem load_store (mem : ByteMemory) (a v : BitVec 64) : (store mem a v).load a = v := by
  have hzero : store mem a v a = v.extractLsb' (8 * (0#64).toNat) 8 := by
    have hbyte := store_byte mem a v 0#64 (by decide)
    rwa [BitVec.add_zero] at hbyte
  unfold load
  rw [store_byte mem a v 7 (by decide), store_byte mem a v 6 (by decide),
    store_byte mem a v 5 (by decide), store_byte mem a v 4 (by decide),
    store_byte mem a v 3 (by decide), store_byte mem a v 2 (by decide),
    store_byte mem a v 1 (by decide), hzero]
  exact append_bytes v

theorem load_store_of_apart {a b : BitVec 64} (h : Apart a b) (mem : ByteMemory) (v : BitVec 64) :
    (store mem a v).load b = mem.load b := by
  have hzero : store mem a v b = mem b := by
    have hbyte := store_byte_of_apart h mem v 0#64 (by decide)
    rwa [BitVec.add_zero] at hbyte
  unfold load
  rw [store_byte_of_apart h mem v 7 (by decide), store_byte_of_apart h mem v 6 (by decide),
    store_byte_of_apart h mem v 5 (by decide), store_byte_of_apart h mem v 4 (by decide),
    store_byte_of_apart h mem v 3 (by decide), store_byte_of_apart h mem v 2 (by decide),
    store_byte_of_apart h mem v 1 (by decide), hzero]

end ByteMemory
end Lib
end RvCores
