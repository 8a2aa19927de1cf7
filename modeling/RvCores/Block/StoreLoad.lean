import Mathlib.Algebra.Group.Nat.Defs
import RvCores.Block.Memory

/-!
# Loads after stores

What a load should return is given by the history of the requests: the bytes written last,
lowest byte first, and extended to the register width.  The memory meets it except for
negative bytes and halves at 64 bits.
-/

namespace RvCores
namespace Block

variable {w : Nat}

/-!
# Assembly of bytes
-/

/--
Consecutive bytes as one word, the first byte lowest.
-/
def littleEndian (b : Nat -> BitVec 8) : (n : Nat) -> BitVec (8 * n)
  | 0 => 0
  | n + 1 => (b n ++ littleEndian b n).cast (Nat.add_comm 8 (8 * n))

theorem getLsbD_littleEndian (b : Nat -> BitVec 8) (n : Nat) {i : Nat} (hi : i < 8 * n) :
    (littleEndian b n).getLsbD i = (b (i / 8)).getLsbD (i % 8) := by
  induction n with
  | zero => omega
  | succ n ih =>
      rw [littleEndian, BitVec.getLsbD_cast, BitVec.getLsbD_append]
      by_cases hlow : i < 8 * n
      · rw [if_pos hlow, ih hlow]
      · have hbyte : i / 8 = n := by omega
        have hbit : i - 8 * n = i % 8 := by omega
        rw [if_neg hlow, hbyte, hbit]

theorem littleEndian_congr {b b' : Nat -> BitVec 8} {n : Nat}
    (h : forall k, k < n -> b k = b' k) : littleEndian b n = littleEndian b' n := by
  induction n with
  | zero => rfl
  | succ n ih =>
      have hlow : littleEndian b n = littleEndian b' n := ih fun k hk => h k (Nat.lt_succ_of_lt hk)
      rw [littleEndian, littleEndian, h n (Nat.lt_succ_self n), hlow]

theorem msb_littleEndian (b : Nat -> BitVec 8) {n : Nat} (hn : 0 < n) :
    (littleEndian b n).msb = (b (n - 1)).msb := by
  have hbyte : (8 * n - 1) / 8 = n - 1 := by omega
  have hbit : (8 * n - 1) % 8 = 7 := by omega
  rw [BitVec.msb_eq_getLsbD_last, getLsbD_littleEndian b n (by omega), hbyte, hbit,
    BitVec.msb_eq_getLsbD_last]

/-!
# Accesses
-/

/--
Bytes of an access.
-/
def accessLength (funct3 : BitVec 3) : Nat := 2 ^ (funct3.setWidth 2).toNat

def accessSigned (funct3 : BitVec 3) : Bool := !funct3.getLsbD 2

namespace MemRequest

variable (req : MemRequest w)

def length : Nat := accessLength req.funct3

def signed : Bool := accessSigned req.funct3

def inRange (size : Nat) : Prop := req.address.toNat + req.length <= size

/--
The stores of the width: sb, sh, sw and, at 64 bits, sd.
-/
structure Store (size : Nat) : Prop where
  funct3 : req.funct3.toNat < 4
  width : 8 * req.length <= w
  inRange : req.inRange size

/--
The loads of the width: lb, lh, lw, lbu, lhu, lwu and, at 64 bits, ld.
-/
structure Load (size : Nat) : Prop where
  memRead : req.memRead = true
  funct3 : req.funct3.toNat < 7
  width : 8 * req.length <= w
  inRange : req.inRange size

def writes (a : Nat) : Bool :=
  req.memWrite && decide (req.address.toNat <= a) && decide (a < req.address.toNat + req.length)

/--
The register value of a load that reads the given bytes.
-/
def extended (b : Nat -> BitVec 8) : BitVec w :=
  if req.signed then (littleEndian b req.length).signExtend w
  else (littleEndian b req.length).setWidth w

end MemRequest

/--
The byte written last at an address before a cycle.
-/
def lastByte (initial : Bytes) (reqs : Nat -> MemRequest w) : Nat -> Bytes
  | 0, a => initial a
  | n + 1, a =>
      if (reqs n).writes a then
        (reqs n).writeData.extractLsb' (8 * (a - (reqs n).address.toNat)) 8
      else lastByte initial reqs n a

namespace DataMemory

/--
The state after some cycles of requests.
-/
def run (size : Nat) (dmem : DataMemory w) (reqs : Nat -> MemRequest w) : Nat -> DataMemory w
  | 0 => dmem
  | n + 1 => (run size dmem reqs n).step size (reqs n)

theorem run_succ (size : Nat) (dmem : DataMemory w) (reqs : Nat -> MemRequest w) (n : Nat) :
    run size dmem reqs (n + 1) = (run size dmem reqs n).step size (reqs n) := rfl

/-!
# Stores
-/

theorem byteAddr_eq {addr : BitVec w} {k size : Nat} (hin : addr.toNat + k < size)
    (hsize : size <= 2 ^ w) : byteAddr addr k = addr.toNat + k := by
  have hk : k < 2 ^ w := by omega
  rw [byteAddr, BitVec.toNat_add, BitVec.toNat_ofNat, Nat.mod_eq_of_lt hk,
    Nat.mod_eq_of_lt (by omega)]

/--
Bytes written in a row at consecutive addresses.
-/
theorem foldl_writeByte_range {size base : Nat} {f : Nat -> Nat} {g : Nat -> BitVec 8} (n : Nat)
    (mem : Bytes) (hf : forall k, k < n -> f k = base + k) (hsize : base + n <= size) (a : Nat) :
    (List.range n).foldl (fun mem k => writeByte size mem (f k) (g k)) mem a =
      if base <= a ∧ a < base + n then g (a - base) else mem a := by
  induction n with
  | zero =>
      have hnone : ¬ (base <= a ∧ a < base + 0) := by omega
      rw [if_neg hnone]
      rfl
  | succ n ih =>
      have hlow := ih (fun k hk => hf k (Nat.lt_succ_of_lt hk)) (by omega)
      have hlast : f n = base + n := hf n (Nat.lt_succ_self n)
      rw [List.range_succ, List.foldl_append, List.foldl_cons, List.foldl_nil, hlast, writeByte,
        if_pos (by omega)]
      by_cases ha : a = base + n
      · subst ha
        rw [Lib.setAt_self, if_pos (by omega), Nat.add_sub_cancel_left]
      · rw [Lib.setAt_of_ne ha, hlow]
        by_cases hin : base <= a ∧ a < base + n
        · rw [if_pos hin, if_pos (by omega)]
        · rw [if_neg hin, if_neg (by omega)]

theorem store_funct3 : forall f : BitVec 3, f.toNat < 4 -> f = 0 ∨ f = 1 ∨ f = 2 ∨ f = 3 := by
  decide

theorem writeLength_eq {size : Nat} {req : MemRequest w} (h : req.Store size) :
    req.writeLength = req.length := by
  have hwidth := h.width
  unfold MemRequest.writeLength
  unfold MemRequest.length at *
  rcases store_funct3 req.funct3 h.funct3 with h | h | h | h
  · rw [h]
    rfl
  · rw [h]
    rfl
  · have hword : ¬ (w >= 64 ∧ (2 : BitVec 3) = 0b011) :=
      fun hdouble => absurd hdouble.right (by decide)
    rw [h, if_neg (by decide), if_neg (by decide), if_neg hword]
    rfl
  · rw [h] at hwidth ⊢
    rw [if_neg (by decide), if_neg (by decide), if_pos ⟨hwidth, rfl⟩]
    rfl

theorem storeBytes_eq {size : Nat} (hsize : size <= 2 ^ w) {req : MemRequest w}
    (h : req.Store size) (mem : Bytes) (a : Nat) :
    storeBytes size mem req a =
      if req.address.toNat <= a ∧ a < req.address.toNat + req.length then
        req.writeData.extractLsb' (8 * (a - req.address.toNat)) 8
      else mem a := by
  have hin : req.address.toNat + req.length <= size := h.inRange
  rw [storeBytes, writeLength_eq h]
  apply foldl_writeByte_range
  · intro k hk
    exact byteAddr_eq (by omega) hsize
  · exact hin

/--
The array holds the byte written last at every address.
-/
theorem run_bytes {size : Nat} (hsize : size <= 2 ^ w) (dmem : DataMemory w)
    (reqs : Nat -> MemRequest w)
    (hstores : forall n, (reqs n).memWrite = true -> (reqs n).Store size) (n a : Nat) :
    (run size dmem reqs n).bytes a = lastByte dmem.bytes reqs n a := by
  induction n with
  | zero => rfl
  | succ n ih =>
      rw [lastByte, ← ih, MemRequest.writes, run_succ]
      unfold step
      by_cases hwrite : (reqs n).memWrite = true
      · simp only [hwrite, if_true, storeBytes_eq hsize (hstores n hwrite), Bool.true_and,
          Bool.and_eq_true, decide_eq_true_eq]
      · simp [hwrite]

/-!
# Loads
-/

theorem getLsbD_readWord (size : Nat) (mem : Bytes) (addr : BitVec w) (base : Nat) {i : Nat}
    (hi : i < 32) :
    (readWord size mem addr base).getLsbD i =
      (readByte size mem (byteAddr addr (base + i / 8))).getLsbD (i % 8) := by
  unfold readWord
  simp only [BitVec.getLsbD_append]
  rcases (by omega : i / 8 = 0 ∨ i / 8 = 1 ∨ i / 8 = 2 ∨ i / 8 = 3) with h | h | h | h
  · have hbit : i % 8 = i := by omega
    rw [h, hbit, if_pos (by omega)]
    rfl
  · have hbit : i % 8 = i - 8 := by omega
    rw [h, hbit, if_neg (by omega), if_pos (by omega)]
  · have hbit : i % 8 = i - 8 - 8 := by omega
    rw [h, hbit, if_neg (by omega), if_neg (by omega), if_pos (by omega)]
  · have hbit : i % 8 = i - 8 - 8 - 8 := by omega
    rw [h, hbit, if_neg (by omega), if_neg (by omega), if_neg (by omega)]

theorem getLsbD_fetchRaw (hw : w = 32 ∨ w = 64) (size : Nat) (mem : Bytes) (addr : BitVec w)
    {i : Nat} (hi : i < w) :
    (fetchRaw size mem addr).getLsbD i =
      (readByte size mem (byteAddr addr (i / 8))).getLsbD (i % 8) := by
  unfold fetchRaw
  rcases hw with hw | hw
  · rw [if_neg (by omega), BitVec.getLsbD_setWidth, decide_eq_true hi, Bool.true_and,
      getLsbD_readWord size mem addr 0 (by omega), Nat.zero_add]
  · rw [if_pos (by omega), BitVec.getLsbD_setWidth, decide_eq_true hi, Bool.true_and,
      BitVec.getLsbD_append]
    by_cases hlow : i < 32
    · rw [if_pos hlow, getLsbD_readWord size mem addr 0 hlow, Nat.zero_add]
    · have hbyte : 4 + (i - 32) / 8 = i / 8 := by omega
      have hbit : (i - 32) % 8 = i % 8 := by omega
      rw [if_neg hlow, getLsbD_readWord size mem addr 4 (by omega), hbyte, hbit]

/--
The low bytes of the word read are the bytes of the access.
-/
theorem setWidth_fetchRaw (hw : w = 32 ∨ w = 64) {size : Nat} (hsize : size <= 2 ^ w)
    (mem : Bytes) (addr : BitVec w) {n : Nat} (hn : 8 * n <= w) (hin : addr.toNat + n <= size) :
    (fetchRaw size mem addr).setWidth (8 * n) =
      littleEndian (fun k => mem (addr.toNat + k)) n := by
  apply BitVec.eq_of_getLsbD_eq
  intro i hi
  have hbyte : i / 8 < n := by omega
  rw [BitVec.getLsbD_setWidth, decide_eq_true hi, Bool.true_and,
    getLsbD_fetchRaw hw size mem addr (by omega), getLsbD_littleEndian _ n hi,
    byteAddr_eq (by omega : addr.toNat + i / 8 < size) hsize, readByte, if_pos (by omega)]

/--
Extension to 32 bits and padding to 64 is not extension to 64.
-/
theorem padded_signExtend_iff (hw : w = 32 ∨ w = 64) {m : Nat} (hpos : 0 < m) (hm : m < 32)
    (x : BitVec m) :
    (x.signExtend 32).setWidth w = x.signExtend w ↔ ¬ (w = 64 ∧ x.msb = true) := by
  rcases hw with hw | hw
  · subst hw
    simp
  · subst hw
    have hiff : (x.signExtend 32).setWidth 64 = x.signExtend 64 ↔ x.msb = false := by
      constructor
      · intro heq
        have hbit : (x.signExtend 64).getLsbD 63 = false := by
          rw [← heq, BitVec.getLsbD_setWidth, BitVec.getLsbD_of_ge _ 63 (by decide), Bool.and_false]
        have htop : ¬ 63 < m := by omega
        rwa [BitVec.getLsbD_signExtend, if_neg htop, decide_eq_true (by decide), Bool.true_and]
          at hbit
      · intro hmsb
        rw [BitVec.signExtend_eq_setWidth_of_msb_false hmsb,
          BitVec.signExtend_eq_setWidth_of_msb_false hmsb]
        apply BitVec.eq_of_toNat_eq
        have hlt : x.toNat < 2 ^ 32 :=
          Nat.lt_of_lt_of_le x.isLt (Nat.pow_le_pow_right (by decide) (by omega))
        rw [BitVec.toNat_setWidth, BitVec.toNat_setWidth, BitVec.toNat_setWidth,
          Nat.mod_eq_of_lt hlt]
    simp [hiff]

theorem load_funct3 : forall f : BitVec 3, f.toNat < 7 ->
    f = 0 ∨ f = 1 ∨ f = 2 ∨ f = 3 ∨ f = 4 ∨ f = 5 ∨ f = 6 := by
  decide

/--
The read multiplexer takes the bytes of the access from the word and extends them, signed
bytes and halves to 32 bits only.
-/
theorem readData_step (hw : w = 32 ∨ w = 64) {size : Nat} (dmem : DataMemory w)
    {req : MemRequest w} (hload : req.Load size) {x : BitVec (8 * req.length)}
    (hx : (fetchRaw size dmem.bytes req.address).setWidth (8 * req.length) = x) :
    (dmem.step size req).readData =
      if req.signed then
        if req.length < 4 then (x.signExtend 32).setWidth w else x.signExtend w
      else x.setWidth w := by
  have hwidth := hload.width
  subst hx
  simp only [readData, step, hload.memRead, if_true]
  unfold MemRequest.signed MemRequest.length at *
  generalize fetchRaw size dmem.bytes req.address = raw
  rcases load_funct3 req.funct3 hload.funct3 with h | h | h | h | h | h | h <;>
    rw [h] at hwidth ⊢
  case inr.inr.inr.inl =>
    have hle : 64 <= w := hwidth
    have hw64 : w = 64 := by omega
    subst hw64
    simp [accessSigned, accessLength]
  all_goals simp [accessSigned, accessLength]

/--
A load returns the bytes written last, extended as its instruction requires, unless it is
a signed byte or half at 64 bits whose top bit is set.
-/
theorem load_after_stores_iff (hw : w = 32 ∨ w = 64) {size : Nat} (hsize : size <= 2 ^ w)
    (dmem : DataMemory w) (reqs : Nat -> MemRequest w)
    (hstores : forall n, (reqs n).memWrite = true -> (reqs n).Store size) (n : Nat)
    (hload : (reqs n).Load size) :
    (run size dmem reqs (n + 1)).readData =
        (reqs n).extended (fun k => lastByte dmem.bytes reqs n ((reqs n).address.toNat + k)) ↔
      ¬ (w = 64 ∧ (reqs n).signed = true ∧ (reqs n).length < 4 ∧
        (lastByte dmem.bytes reqs n
          ((reqs n).address.toNat + ((reqs n).length - 1))).msb = true) := by
  have hpos : 0 < (reqs n).length := Nat.pow_pos (by decide)
  have hraw := setWidth_fetchRaw hw hsize (run size dmem reqs n).bytes (reqs n).address hload.width
    hload.inRange
  have hlast := littleEndian_congr (n := (reqs n).length) fun k _ =>
    run_bytes hsize dmem reqs hstores n ((reqs n).address.toNat + k)
  rw [run_succ, readData_step hw (run size dmem reqs n) hload (hraw.trans hlast),
    MemRequest.extended, ← msb_littleEndian (fun k => lastByte dmem.bytes reqs n _) hpos]
  cases hsigned : (reqs n).signed with
  | false => simp
  | true =>
      by_cases hshort : (reqs n).length < 4
      · simp only [if_true, hshort, true_and]
        exact padded_signExtend_iff hw (by omega) (by omega) _
      · simp [hshort]

/--
A doubleword stored and its lowest byte loaded.
-/
def storeThenLoad (n : Nat) : MemRequest 64 :=
  { memWrite := n == 0
    memRead := n == 1
    address := 16
    writeData := 0x1122334455667780
    funct3 := if n = 0 then 0b011 else 0b000 }

def emptyMemory : DataMemory 64 :=
  { bytes := fun _ => 0, rawWord := 0, funct3R := 0, memReadR := false }

theorem storeThenLoad_store (n : Nat) (hwrite : (storeThenLoad n).memWrite = true) :
    (storeThenLoad n).Store 64 := by
  have hn : n = 0 := beq_iff_eq.mp hwrite
  subst hn
  exact ⟨by decide, by decide, by unfold MemRequest.inRange; decide⟩

theorem storeThenLoad_load : (storeThenLoad 1).Load 64 :=
  ⟨by decide, by decide, by decide, by unfold MemRequest.inRange; decide⟩

theorem load_after_stores_iff_doubleword :
    (run 64 emptyMemory storeThenLoad 2).readData ≠
      (storeThenLoad 1).extended fun k => lastByte emptyMemory.bytes storeThenLoad 1 (16 + k) := by
  have hiff := load_after_stores_iff (Or.inr rfl) (by decide) emptyMemory storeThenLoad
    storeThenLoad_store 1 storeThenLoad_load
  intro heq
  exact hiff.mp heq (by decide)

/--
The lowest byte is 0x80, and is returned without the upper half of its sign.
-/
theorem signed_byte_padded :
    ¬ forall (dmem : DataMemory 64) (reqs : Nat -> MemRequest 64) (n : Nat),
      (forall m, (reqs m).memWrite = true -> (reqs m).Store 64) -> (reqs n).Load 64 ->
      (run 64 dmem reqs (n + 1)).readData =
        (reqs n).extended fun k => lastByte dmem.bytes reqs n ((reqs n).address.toNat + k) := by
  intro hclaim
  have heq := hclaim emptyMemory storeThenLoad 1 storeThenLoad_store storeThenLoad_load
  have hread : (run 64 emptyMemory storeThenLoad 2).readData = 0xffffff80 := by decide
  have hextended : ((storeThenLoad 1).extended fun k =>
      lastByte emptyMemory.bytes storeThenLoad 1 (16 + k)) = 0xffffffffffffff80 := by
    decide
  exact absurd (hread.symm.trans (heq.trans hextended)) (by decide)

end DataMemory
end Block
end RvCores
