import RvCores.Block.StoreLoad
import RvCores.Block.VectorElement

/-!
# Accesses of the vector load-store unit

The unit walks over the elements of one register and puts one access for each active
element on its memory port.  The port lags the walk by a cycle, so the accesses are
accounted for as those the unit still owes.
-/

namespace RvCores
namespace Block

variable {vlen : Nat}

/-!
# Accesses
-/

inductive VecAccess where
  | load (address : BitVec 64) (bytes : Nat)
  | store (address : BitVec 64) (bytes : Nat) (data : BitVec 64)
deriving DecidableEq

def VecAccess.address : VecAccess -> BitVec 64
  | load address _ => address
  | store address _ _ => address

/--
What the access leaves in the memory.
-/
def VecAccess.perform (size : Nat) (mem : Bytes) : VecAccess -> Bytes
  | load _ _ => mem
  | store address bytes data =>
      (List.range bytes).foldl
        (fun mem k => writeByte size mem (byteAddr address k) (data.extractLsb' (8 * k) 8)) mem

/--
What the unit works on after a start.
-/
structure VlsuOp (vlen : Nat) where
  isStore : Bool
  baseAddr : BitVec 64
  storeData : BitVec vlen
  eew : BitVec 3
  v0 : BitVec vlen
  vm : Bool
  vl : Nat

namespace VlsuOp

variable (op : VlsuOp vlen)

/--
Bytes of an element.
-/
def bytes : Nat := 2 ^ (op.eew.setWidth 2 : BitVec 2).toNat

/--
Elements of a register.
-/
def count : Nat := vlen / (8 * op.bytes)

def active (e : Nat) : Bool := elemActive e op.vl op.vm op.v0

def address (e : Nat) : BitVec 64 := op.baseAddr + BitVec.ofNat 64 (e * op.bytes)

def access (e : Nat) : VecAccess :=
  if op.isStore then
    .store (op.address e) op.bytes ((element op.storeData (8 * op.bytes) e).setWidth 64)
  else .load (op.address e) op.bytes

/--
The accesses from element `e` on.
-/
def accessesFrom (e : Nat) : List VecAccess :=
  ((List.range' e (op.count - e)).filter op.active).map op.access

theorem bytes_pos : 0 < op.bytes := Nat.two_pow_pos _

theorem bytes_le : op.bytes <= 8 := by
  have hlt := (op.eew.setWidth 2 : BitVec 2).isLt
  have hpow : op.bytes <= 2 ^ 3 := Nat.pow_le_pow_right two_pos (by omega)
  exact hpow

theorem accessesFrom_count : op.accessesFrom op.count = [] := by
  simp [accessesFrom]

variable {op} {e : Nat}

theorem accessesFrom_active (he : e < op.count) (hactive : op.active e = true) :
    op.accessesFrom e = op.access e :: op.accessesFrom (e + 1) := by
  have hsplit : op.count - e = op.count - (e + 1) + 1 := by omega
  simp [accessesFrom, hsplit, List.range'_succ, hactive]

theorem accessesFrom_inactive (he : e < op.count) (hactive : op.active e = false) :
    op.accessesFrom e = op.accessesFrom (e + 1) := by
  have hsplit : op.count - e = op.count - (e + 1) + 1 := by omega
  simp [accessesFrom, hsplit, List.range'_succ, hactive]

/--
The data matter to a store and the mask matters to a masked operation.
-/
theorem accessesFrom_congr {data mask : BitVec vlen}
    (hdata : op.isStore = true -> data = op.storeData)
    (hmask : op.vm = false -> mask = op.v0) (e : Nat) :
    VlsuOp.accessesFrom { op with storeData := data, v0 := mask } e = op.accessesFrom e := by
  have hactive : VlsuOp.active { op with storeData := data, v0 := mask } = op.active := by
    funext j
    have hbit : (op.vm || mask.getLsbD j) = (op.vm || op.v0.getLsbD j) := by
      cases hvm : op.vm with
      | true => rfl
      | false => rw [hmask hvm]
    simp only [active, elemActive, hbit]
  have haccess : VlsuOp.access { op with storeData := data, v0 := mask } = op.access := by
    funext j
    cases hstore : op.isStore with
    | true => simp [access, hstore, hdata hstore, address, bytes]
    | false => simp [access, hstore, address, bytes]
  unfold accessesFrom
  rw [hactive, haccess]
  rfl

theorem address_access (op : VlsuOp vlen) (e : Nat) : (op.access e).address = op.address e := by
  unfold access
  split <;> rfl

end VlsuOp

/-!
# The unit
-/

def VlsuIn.op (i : VlsuIn vlen) : VlsuOp vlen :=
  { isStore := i.isStore
    baseAddr := i.baseAddr
    storeData := i.storeData
    eew := i.eew
    v0 := i.v0Data
    vm := i.vm
    vl := i.vl }

namespace Vlsu

def op (u : Vlsu vlen) : VlsuOp vlen :=
  { isStore := u.isStore
    baseAddr := u.baseAddr
    storeData := u.storeData
    eew := u.eew
    v0 := u.v0
    vm := u.vm
    vl := u.vl }

/--
The access on the port.
-/
def port (u : Vlsu vlen) : List VecAccess :=
  if u.memWrite then [.store u.memAddress (accessLength u.memFunct3) u.memWriteData]
  else if u.memRead then [.load u.memAddress (accessLength u.memFunct3)]
  else []

/--
The accesses that are still to come.
-/
def owed (u : Vlsu vlen) : List VecAccess :=
  match u.state with
  | .idle => []
  | .loadIssue | .storeIssue => u.op.accessesFrom u.elem
  | .loadWait | .loadCapture => u.op.accessesFrom (u.elem + 1)

/--
The walk is inside the register, in the direction of the operation.
-/
structure Walks (u : Vlsu vlen) : Prop where
  inside : u.elem < u.op.count
  shift : u.shift = u.elem * (8 * u.op.bytes)
  stores : u.state = .storeIssue <-> u.isStore = true

def Sound (u : Vlsu vlen) : Prop := u.busy = true -> u.Walks

variable {u : Vlsu vlen} {i : VlsuIn vlen}

theorem eewCode_toNat (u : Vlsu vlen) :
    u.eewCode.toNat = (u.eew.setWidth 2 : BitVec 2).toNat := by
  have hlt := (u.eew.setWidth 2 : BitVec 2).isLt
  unfold eewCode
  rw [BitVec.toNat_setWidth]
  omega

theorem width_eq (u : Vlsu vlen) : u.width = 8 * u.op.bytes := by
  have hlt := (u.eew.setWidth 2 : BitVec 2).isLt
  have hcode := eewCode_toNat u
  rw [width, elemWidth_eq (by omega), hcode]
  rfl

theorem last_iff (hvlen : 64 ∣ vlen) (u : Vlsu vlen) :
    u.last = true <-> u.elem + 1 = u.op.count := by
  have hlt := (u.eew.setWidth 2 : BitVec 2).isLt
  have hcode := eewCode_toNat u
  have hfill := elemCount_mul_elemWidth hvlen (show u.eewCode.toNat <= 3 by omega)
  have hwidth : elemWidth u.eewCode = 8 * u.op.bytes := width_eq u
  have hpos : 0 < 8 * u.op.bytes := Nat.mul_pos (by decide) u.op.bytes_pos
  have hcount : elemCount vlen u.eewCode = u.op.count := by
    rw [hwidth] at hfill
    exact (Nat.div_eq_of_eq_mul_left hpos hfill.symm).symm
  rw [last, hcount, decide_eq_true_eq]

theorem elemAddress_eq (u : Vlsu vlen) : u.elemAddress = u.op.address u.elem := by
  have hbytes : u.width / 8 = u.op.bytes := by
    rw [width_eq]
    exact Nat.mul_div_cancel_left _ (by decide)
  rw [elemAddress, hbytes, VlsuOp.address, Nat.mul_comm, BitVec.ofNat_mul]
  rfl

theorem accessLength_code : forall c : BitVec 2,
    let code : BitVec 3 := c.setWidth 3
    accessLength code = 2 ^ c.toNat ∧
      accessLength (if code = 0 then 0b100 else if code = 1 then 0b101
        else if code = 2 then 0b110 else 0b011) = 2 ^ c.toNat := by
  decide

theorem accessLength_storeFunct3 (u : Vlsu vlen) :
    accessLength u.storeFunct3 = u.op.bytes :=
  (accessLength_code (u.eew.setWidth 2)).left

theorem accessLength_loadFunct3 (u : Vlsu vlen) : accessLength u.loadFunct3 = u.op.bytes :=
  (accessLength_code (u.eew.setWidth 2)).right

/-!
# One cycle of the walk
-/

theorem mul_count (hvlen : 64 ∣ vlen) (op : VlsuOp vlen) : op.count * (8 * op.bytes) = vlen := by
  have hdvd : 8 * op.bytes ∣ 64 := by
    have hle : (op.eew.setWidth 2 : BitVec 2).toNat <= 3 := by
      have hlt := (op.eew.setWidth 2 : BitVec 2).isLt
      omega
    exact Nat.mul_dvd_mul_left 8 (Nat.pow_dvd_pow 2 hle)
  exact Nat.div_mul_cancel (Nat.dvd_trans hdvd hvlen)

theorem count_le (op : VlsuOp vlen) : op.count <= vlen / 8 := by
  unfold VlsuOp.count
  rw [← Nat.div_div_eq_div_mul]
  exact Nat.div_le_self _ _

variable {next : VlsuState}

theorem port_advance (u : Vlsu vlen) (next : VlsuState) : (u.advance next).port = u.port := by
  unfold advance
  split <;> rfl

/--
Moving on to the next element: the accesses after this element remain.
-/
theorem owed_advance (hvlen : 64 ∣ vlen) (hnext : next = .loadIssue ∨ next = .storeIssue)
    (hinside : u.elem < u.op.count) (hshift : u.shift = u.elem * (8 * u.op.bytes))
    (hmode : next = .storeIssue <-> u.isStore = true) :
    (u.advance next).owed = u.op.accessesFrom (u.elem + 1) ∧ (u.advance next).Sound := by
  have hfill := mul_count hvlen u.op
  have hle := count_le u.op
  unfold advance
  split
  · rename_i hlast
    have hend := (last_iff hvlen u).mp hlast
    constructor
    · rw [hend, VlsuOp.accessesFrom_count]
      rfl
    · intro hbusy
      simp [busy] at hbusy
  · rename_i hlast
    have hmore : u.elem + 1 < u.op.count := by
      have hne := mt (last_iff hvlen u).mpr hlast
      omega
    have helem : (u.elem + 1) % (vlen / 8) = u.elem + 1 := Nat.mod_eq_of_lt (by omega)
    have hwrap : (u.shift + u.width) % vlen = (u.elem + 1) * (8 * u.op.bytes) := by
      rw [hshift, width_eq, ← Nat.succ_mul]
      apply Nat.mod_eq_of_lt
      calc (u.elem + 1) * (8 * u.op.bytes) < u.op.count * (8 * u.op.bytes) :=
            Nat.mul_lt_mul_of_pos_right hmore (Nat.mul_pos (by decide) u.op.bytes_pos)
        _ = vlen := hfill
    rw [helem, hwrap]
    constructor
    · rcases hnext with hn | hn <;> rw [hn] <;> rfl
    · intro _
      exact ⟨hmore, rfl, hmode⟩

/--
The port falls silent unless the cycle drives it.
-/
def quiet (u : Vlsu vlen) : Vlsu vlen :=
  { u with done := false, memRead := false, memWrite := false }

theorem walks_quiet (h : u.Walks) : u.quiet.Walks := ⟨h.inside, h.shift, h.stores⟩

theorem step_skip (hstate : u.state = .loadIssue) (hactive : u.active = false)
    (i : VlsuIn vlen) : u.step i = u.quiet.advance .loadIssue := by
  simp [step, hstate, hactive, quiet]

theorem step_capture (hstate : u.state = .loadCapture) (i : VlsuIn vlen) :
    u.step i = (u.quiet.capture i.memReadData).advance .loadIssue := by
  simp [step, hstate, quiet]

theorem step_store (hstate : u.state = .storeIssue) (hactive : u.active = true)
    (i : VlsuIn vlen) :
    u.step i = Vlsu.advance { u.quiet with
      memWrite := true
      memAddress := u.elemAddress
      memWriteData := elemSlice u.storeData u.shift u.width
      memFunct3 := u.storeFunct3 } .storeIssue := by
  simp [step, hstate, hactive, quiet]

theorem step_store_skip (hstate : u.state = .storeIssue) (hactive : u.active = false)
    (i : VlsuIn vlen) : u.step i = u.quiet.advance .storeIssue := by
  simp [step, hstate, hactive, quiet]

theorem isStore_of_walks (h : u.Walks) (hstate : u.state ≠ .storeIssue) : u.isStore = false :=
  Bool.eq_false_iff.mpr fun hstore => hstate (h.stores.mpr hstore)

theorem access_loadIssue (h : u.Walks) (hstate : u.state = .loadIssue) :
    u.op.access u.elem = .load u.elemAddress (accessLength u.loadFunct3) := by
  have hload : u.op.isStore = false := isStore_of_walks h (by simp [hstate])
  rw [VlsuOp.access, hload, elemAddress_eq, accessLength_loadFunct3]
  rfl

theorem access_storeIssue (h : u.Walks) (hstate : u.state = .storeIssue) :
    u.op.access u.elem = .store u.elemAddress (accessLength u.storeFunct3)
      (elemSlice u.storeData u.shift u.width) := by
  have hstore : u.op.isStore = true := h.stores.mp hstate
  have hwide : 8 * u.op.bytes <= 64 := Nat.mul_le_mul_left 8 u.op.bytes_le
  rw [VlsuOp.access, hstore, elemAddress_eq, accessLength_storeFunct3, width_eq, h.shift,
    elemSlice_eq hwide]
  rfl

/--
In each cycle the unit puts the next of its accesses on the port, or none.
-/
theorem owed_step (hvlen : 64 ∣ vlen) (hbusy : u.busy = true) (h : u.Walks) (i : VlsuIn vlen) :
    u.owed = (u.step i).port ++ (u.step i).owed ∧ (u.step i).Sound := by
  cases hstate : u.state with
  | idle => simp [busy, hstate] at hbusy
  | loadIssue =>
      have hload := isStore_of_walks h (by simp [hstate])
      have howed : u.owed = u.op.accessesFrom u.elem := by simp [owed, hstate]
      cases hactive : u.active with
      | true =>
          rw [howed, VlsuOp.accessesFrom_active h.inside hactive, access_loadIssue h hstate]
          simp only [step, hstate, hactive, if_true]
          exact ⟨rfl, fun _ => ⟨h.inside, h.shift, by simp [hload]⟩⟩
      | false =>
          rw [howed, VlsuOp.accessesFrom_inactive h.inside hactive, step_skip hstate hactive,
            port_advance]
          obtain ⟨hnext, hsound⟩ := owed_advance (u := u.quiet) hvlen
            (Or.inl (rfl : VlsuState.loadIssue = .loadIssue)) h.inside h.shift
            (by simp [quiet, hload])
          exact ⟨hnext.symm, hsound⟩
  | loadWait =>
      have hload := isStore_of_walks h (by simp [hstate])
      have howed : u.owed = u.op.accessesFrom (u.elem + 1) := by simp [owed, hstate]
      rw [howed]
      simp only [step, hstate]
      exact ⟨rfl, fun _ => ⟨h.inside, h.shift, by simp [hload]⟩⟩
  | loadCapture =>
      have hload := isStore_of_walks h (by simp [hstate])
      have howed : u.owed = u.op.accessesFrom (u.elem + 1) := by simp [owed, hstate]
      rw [howed, step_capture hstate, port_advance]
      obtain ⟨hnext, hsound⟩ := owed_advance (u := u.quiet.capture i.memReadData) hvlen
        (Or.inl (rfl : VlsuState.loadIssue = .loadIssue)) h.inside h.shift
        (by simp [quiet, capture, hload])
      exact ⟨hnext.symm, hsound⟩
  | storeIssue =>
      have hstore : u.isStore = true := h.stores.mp hstate
      have howed : u.owed = u.op.accessesFrom u.elem := by simp [owed, hstate]
      cases hactive : u.active with
      | true =>
          rw [howed, VlsuOp.accessesFrom_active h.inside hactive, access_storeIssue h hstate,
            step_store hstate hactive, port_advance]
          obtain ⟨hnext, hsound⟩ := owed_advance (u := { u.quiet with
            memWrite := true
            memAddress := u.elemAddress
            memWriteData := elemSlice u.storeData u.shift u.width
            memFunct3 := u.storeFunct3 }) hvlen
            (Or.inr (rfl : VlsuState.storeIssue = .storeIssue)) h.inside h.shift
            (by simp [quiet, hstore])
          exact ⟨congrArg (List.cons _) hnext.symm, hsound⟩
      | false =>
          rw [howed, VlsuOp.accessesFrom_inactive h.inside hactive,
            step_store_skip hstate hactive, port_advance]
          obtain ⟨hnext, hsound⟩ := owed_advance (u := u.quiet) hvlen
            (Or.inr (rfl : VlsuState.storeIssue = .storeIssue)) h.inside h.shift
            (by simp [quiet, hstore])
          exact ⟨hnext.symm, hsound⟩

theorem op_advance (u : Vlsu vlen) (next : VlsuState) : (u.advance next).op = u.op := by
  unfold advance
  split <;> rfl

theorem op_step (hbusy : u.busy = true) (i : VlsuIn vlen) : (u.step i).op = u.op := by
  cases hstate : u.state with
  | idle => simp [busy, hstate] at hbusy
  | loadIssue =>
      simp only [step, hstate]
      split
      · rfl
      · exact op_advance _ _
  | loadWait =>
      simp only [step, hstate]
      rfl
  | loadCapture =>
      simp only [step, hstate]
      exact op_advance _ _
  | storeIssue =>
      simp only [step, hstate]
      split <;> exact op_advance _ _

theorem idle_of_not_busy (h : u.busy = false) : u.state = .idle := by
  simpa [busy] using h

theorem step_of_idle (hidle : u.busy = false) (hstart : i.start = false) :
    (u.step i).port = [] ∧ (u.step i).owed = [] ∧ (u.step i).busy = false := by
  have hstate := idle_of_not_busy hidle
  simp [step, hstate, hstart, port, owed, busy]

/--
After a start everything is owed.
-/
theorem step_of_start (hvlen : 64 ∣ vlen) (hpos : 0 < vlen) (hidle : u.busy = false)
    (hstart : i.start = true) :
    (u.step i).port = [] ∧ (u.step i).owed = i.op.accessesFrom 0 ∧ (u.step i).op = i.op ∧
      (u.step i).busy = true ∧ (u.step i).Sound := by
  have hstate := idle_of_not_busy hidle
  have hcount : 0 < i.op.count := by
    have hfill := mul_count hvlen i.op
    rcases Nat.eq_zero_or_pos i.op.count with hzero | hcount
    · rw [hzero, Nat.zero_mul] at hfill
      omega
    · exact hcount
  have hstep : u.step i = begin u.quiet i := by
    simp [step, hstate, hstart, quiet]
  rw [hstep]
  refine ⟨rfl, ?_, rfl, ?_, ?_⟩
  · have hop : (begin u.quiet i).op = i.op := rfl
    unfold owed
    rw [hop]
    cases hstore : i.isStore <;> simp [begin, hstore]
  · cases hstore : i.isStore <;> simp [busy, begin, hstore]
  · intro _
    exact ⟨hcount, (Nat.zero_mul _).symm, by cases hstore : i.isStore <;> simp [begin, hstore]⟩

/-!
# The walk ends
-/

def remaining (u : Vlsu vlen) : Nat :=
  match u.state with
  | .idle => 0
  | .loadIssue | .storeIssue => 3 * (u.op.count - u.elem)
  | .loadWait => 3 * (u.op.count - u.elem) - 1
  | .loadCapture => 3 * (u.op.count - u.elem) - 2

theorem remaining_advance (hvlen : 64 ∣ vlen) (hnext : next = .loadIssue ∨ next = .storeIssue)
    (hinside : u.elem < u.op.count) :
    (u.advance next).remaining <= 3 * (u.op.count - u.elem) - 3 := by
  have hle := count_le u.op
  unfold advance
  split
  · exact Nat.zero_le _
  · rename_i hlast
    have hne := mt (last_iff hvlen u).mpr hlast
    have helem : (u.elem + 1) % (vlen / 8) = u.elem + 1 := Nat.mod_eq_of_lt (by omega)
    have hcount : forall v : Vlsu vlen, v.op = u.op -> v.elem = u.elem + 1 ->
        3 * (v.op.count - v.elem) <= 3 * (u.op.count - u.elem) - 3 := by
      intro v hop he
      rw [hop, he]
      omega
    rw [helem]
    rcases hnext with hn | hn <;> rw [hn] <;> exact hcount _ rfl rfl

theorem remaining_step (hvlen : 64 ∣ vlen) (hbusy : u.busy = true) (h : u.Walks)
    (i : VlsuIn vlen) : (u.step i).remaining < u.remaining := by
  have hinside := h.inside
  cases hstate : u.state with
  | idle => simp [busy, hstate] at hbusy
  | loadIssue =>
      have hleft : u.remaining = 3 * (u.op.count - u.elem) := by simp [remaining, hstate]
      rw [hleft]
      cases hactive : u.active with
      | true =>
          simp only [step, hstate, hactive, if_true]
          show 3 * (u.op.count - u.elem) - 1 < 3 * (u.op.count - u.elem)
          omega
      | false =>
          simp only [step, hstate, hactive, Bool.false_eq_true, if_false]
          refine Nat.lt_of_le_of_lt (remaining_advance hvlen (Or.inl rfl) h.inside) ?_
          show 3 * (u.op.count - u.elem) - 3 < 3 * (u.op.count - u.elem)
          omega
  | loadWait =>
      have hleft : u.remaining = 3 * (u.op.count - u.elem) - 1 := by simp [remaining, hstate]
      rw [hleft]
      simp only [step, hstate]
      show 3 * (u.op.count - u.elem) - 2 < 3 * (u.op.count - u.elem) - 1
      omega
  | loadCapture =>
      have hleft : u.remaining = 3 * (u.op.count - u.elem) - 2 := by simp [remaining, hstate]
      rw [hleft]
      simp only [step, hstate]
      refine Nat.lt_of_le_of_lt (remaining_advance hvlen (Or.inl rfl) h.inside) ?_
      show 3 * (u.op.count - u.elem) - 3 < 3 * (u.op.count - u.elem) - 2
      omega
  | storeIssue =>
      have hleft : u.remaining = 3 * (u.op.count - u.elem) := by simp [remaining, hstate]
      rw [hleft]
      simp only [step, hstate]
      split <;>
      · refine Nat.lt_of_le_of_lt (remaining_advance hvlen (Or.inr rfl) h.inside) ?_
        show 3 * (u.op.count - u.elem) - 3 < 3 * (u.op.count - u.elem)
        omega

theorem done_of_end (hbusy : u.busy = true) (hend : (u.step i).busy = false) :
    (u.step i).done = true := by
  have hoccupied := step_occupied u i
  rw [hend, hbusy] at hoccupied
  simpa using hoccupied

/-!
# The memory behind the port
-/

def request (u : Vlsu vlen) : MemRequest 64 :=
  { memWrite := u.memWrite
    memRead := u.memRead
    address := u.memAddress
    writeData := u.memWriteData
    funct3 := u.memFunct3 }

theorem writeLength_plain : forall c : BitVec 3, c.getLsbD 2 = false ->
    (if c.extractLsb 1 0 = 0b00#2 then 1 else if c.extractLsb 1 0 = 0b01#2 then 2
      else if 64 >= 64 ∧ c = 0b011 then 8 else 4) = accessLength c := by
  decide

theorem quiet_advance (u : Vlsu vlen) (next : VlsuState) :
    (u.quiet.advance next).memWrite = false := by
  unfold advance
  split <;> rfl

/--
A store is never sent with the code of an unsigned load.
-/
theorem plain_of_write (h : (u.step i).memWrite = true) :
    (u.step i).memFunct3.getLsbD 2 = false := by
  cases hstate : u.state with
  | idle =>
      simp only [step, hstate] at h
      split at h <;> exact Bool.noConfusion h
  | loadIssue =>
      cases hactive : u.active with
      | true =>
          simp only [step, hstate, hactive, if_true] at h
          exact Bool.noConfusion h
      | false =>
          rw [step_skip hstate hactive, quiet_advance] at h
          exact Bool.noConfusion h
  | loadWait =>
      simp only [step, hstate] at h
      exact Bool.noConfusion h
  | loadCapture =>
      have hquiet := quiet_advance (u.capture i.memReadData) .loadIssue
      rw [step_capture hstate] at h
      exact Bool.noConfusion (hquiet.symm.trans h)
  | storeIssue =>
      cases hactive : u.active with
      | true =>
          have hcode : u.storeFunct3.getLsbD 2 = false := by
            simp [storeFunct3, eewCode]
          rw [step_store hstate hactive]
          unfold advance
          split <;> exact hcode
      | false =>
          rw [step_store_skip hstate hactive, quiet_advance] at h
          exact Bool.noConfusion h

theorem bytes_of_port (size : Nat) (dmem : DataMemory 64) {a : VecAccess}
    (hport : (u.step i).port = [a]) :
    (dmem.step size (u.step i).request).bytes = a.perform size dmem.bytes := by
  cases hwrite : (u.step i).memWrite with
  | false =>
      have hsame : (dmem.step size (u.step i).request).bytes = dmem.bytes := by
        simp [DataMemory.step, request, hwrite]
      cases hread : (u.step i).memRead with
      | false => simp [port, hwrite, hread] at hport
      | true =>
          simp only [port, hwrite, hread, Bool.false_eq_true, if_false, if_true,
            List.cons.injEq, and_true] at hport
          rw [hsame, ← hport]
          rfl
  | true =>
      have hlength : (u.step i).request.writeLength = accessLength (u.step i).memFunct3 :=
        writeLength_plain _ (plain_of_write hwrite)
      simp only [port, hwrite, if_true, List.cons.injEq, and_true] at hport
      rw [← hport]
      simp only [DataMemory.step, request, hwrite, if_true, DataMemory.storeBytes,
        VecAccess.perform]
      rw [← hlength]
      rfl

/-!
# What a load leaves in an element
-/

/--
The bytes at an address, lowest first.
-/
def bytesAt (size : Nat) (mem : Bytes) (addr : BitVec 64) (n : Nat) : BitVec (8 * n) :=
  littleEndian (fun k => readByte size mem (byteAddr addr k)) n

theorem setWidth_fetchRaw_bytesAt (size : Nat) (mem : Bytes) (addr : BitVec 64) {n : Nat}
    (hn : n <= 8) :
    (DataMemory.fetchRaw size mem addr).setWidth (8 * n) = bytesAt size mem addr n := by
  apply BitVec.eq_of_getLsbD_eq
  intro k hk
  rw [BitVec.getLsbD_setWidth, decide_eq_true hk, Bool.true_and,
    DataMemory.getLsbD_fetchRaw (Or.inr rfl) size mem addr (by omega), bytesAt,
    getLsbD_littleEndian _ n hk]

/--
The memory returns the bytes of an unsigned load in the next cycle.
-/
theorem readData_unsigned {size : Nat} (dmem : DataMemory 64) {req : MemRequest 64}
    (hread : req.memRead = true)
    (hunsigned : req.funct3 = 4 ∨ req.funct3 = 5 ∨ req.funct3 = 6 ∨ req.funct3 = 3) :
    (dmem.step size req).readData.setWidth (8 * accessLength req.funct3) =
      bytesAt size dmem.bytes req.address (accessLength req.funct3) := by
  have hlen : accessLength req.funct3 <= 8 := by
    rcases hunsigned with h | h | h | h <;> rw [h] <;> decide
  rw [← setWidth_fetchRaw_bytesAt size dmem.bytes req.address hlen]
  simp only [DataMemory.readData, DataMemory.step, hread, if_true]
  generalize DataMemory.fetchRaw size dmem.bytes req.address = raw
  rcases hunsigned with h | h | h | h <;> rw [h] <;> simp [accessLength]

theorem loadFunct3_unsigned (u : Vlsu vlen) :
    u.loadFunct3 = 4 ∨ u.loadFunct3 = 5 ∨ u.loadFunct3 = 6 ∨ u.loadFunct3 = 3 := by
  unfold loadFunct3
  split
  · exact Or.inl rfl
  · split
    · exact Or.inr (Or.inl rfl)
    · split
      · exact Or.inr (Or.inr (Or.inl rfl))
      · exact Or.inr (Or.inr (Or.inr rfl))

/--
A capture writes its own element alone.
-/
theorem element_capture (hvlen : 64 ∣ vlen) (h : u.Walks) (x : BitVec 64) {e : Nat}
    (he : e < u.op.count) :
    element (u.capture x).result (8 * u.op.bytes) e =
      if e = u.elem then x.setWidth (8 * u.op.bytes)
      else element u.result (8 * u.op.bytes) e := by
  have hwide : 8 * u.op.bytes <= 64 := Nat.mul_le_mul_left 8 u.op.bytes_le
  have hfill := mul_count hvlen u.op
  have hresult : (u.capture x).result = mergeSlice u.result
      ((elemMask (8 * u.op.bytes)).setWidth vlen <<< (u.elem * (8 * u.op.bytes)))
      ((x &&& elemMask (8 * u.op.bytes)).setWidth vlen <<< (u.elem * (8 * u.op.bytes))) := by
    simp only [capture, width_eq, h.shift]
  rw [hresult]
  generalize 8 * u.op.bytes = n at hwide hfill
  have hroom : (e + 1) * n <= vlen := by
    rw [← hfill]
    exact Nat.mul_le_mul_right n he
  apply BitVec.eq_of_getLsbD_eq
  intro k hk
  have hin : e * n + k < vlen := by
    rw [Nat.succ_mul] at hroom
    omega
  rw [element, BitVec.getLsbD_extractLsb', decide_eq_true hk, Bool.true_and,
    getLsbD_mergeElement hwide]
  by_cases heq : e = u.elem
  · have hspan : u.elem * n <= e * n + k ∧ e * n + k < (u.elem + 1) * n := by
      rw [heq, Nat.succ_mul]
      omega
    have hoff : e * n + k - u.elem * n = k := by
      rw [heq]
      omega
    rw [if_pos hspan, if_pos heq, hoff, decide_eq_true hin, Bool.true_and, BitVec.getLsbD_and,
      getLsbD_elemMask hwide, BitVec.getLsbD_setWidth, decide_eq_true hk, Bool.and_true,
      Bool.true_and]
  · have hspan : ¬ (u.elem * n <= e * n + k ∧ e * n + k < (u.elem + 1) * n) := by
      rintro ⟨hlow, hhigh⟩
      rcases Nat.lt_or_gt_of_ne heq with hless | hgreater
      · have hmul : (e + 1) * n <= u.elem * n := Nat.mul_le_mul_right n hless
        rw [Nat.succ_mul] at hmul
        omega
      · have hmul : (u.elem + 1) * n <= e * n := Nat.mul_le_mul_right n hgreater
        omega
    rw [if_neg hspan, if_neg heq, element, BitVec.getLsbD_extractLsb', decide_eq_true hk,
      Bool.true_and]

/--
A load waits with its access on the port.
-/
theorem port_of_wait (hwait : (u.step i).state = .loadWait) :
    (u.step i).memWrite = false ∧ (u.step i).memRead = true ∧
      (u.step i).memAddress = (u.step i).elemAddress ∧
      (u.step i).memFunct3 = (u.step i).loadFunct3 := by
  have hadvance : forall (q : Vlsu vlen) next, next ≠ .loadWait ->
      (q.advance next).state ≠ .loadWait := by
    intro q next hnext
    unfold advance
    split
    · simp
    · exact hnext
  cases hstate : u.state with
  | idle =>
      simp only [step, hstate] at hwait
      split at hwait
      · simp only [begin] at hwait
        split at hwait <;> simp at hwait
      · simp at hwait
  | loadIssue =>
      cases hactive : u.active with
      | true =>
          simp [step, hstate, hactive]
          exact ⟨rfl, rfl⟩
      | false =>
          simp only [step, hstate, hactive, Bool.false_eq_true, if_false] at hwait
          exact absurd hwait (hadvance _ _ (by decide))
  | loadWait => simp [step, hstate] at hwait
  | loadCapture =>
      simp only [step, hstate] at hwait
      exact absurd hwait (hadvance _ _ (by decide))
  | storeIssue =>
      simp only [step, hstate] at hwait
      exact absurd hwait (hadvance _ _ (by decide))

/--
The elements that the walk has passed.
-/
def passed (u : Vlsu vlen) : Nat := if u.state = .idle then u.op.count else u.elem

/--
Every active element passed so far holds bytes that were seen at its address, and the word
coming from the memory is about to be captured into the element at hand.
-/
structure Gathers (op : VlsuOp vlen)
    (seen : BitVec 64 -> BitVec (8 * op.bytes) -> Prop) (word : BitVec 64) (u : Vlsu vlen) :
    Prop where
  op_eq : u.op = op
  gathered : forall e, e < u.passed -> op.active e = true ->
    seen (op.address e) (element u.result (8 * op.bytes) e)
  arrives : u.state = .loadCapture -> seen (op.address u.elem) (word.setWidth (8 * op.bytes))

theorem passed_advance (hvlen : 64 ∣ vlen) (hnext : next ≠ .idle) (hinside : u.elem < u.op.count) :
    (u.advance next).passed = u.elem + 1 := by
  have hle := count_le u.op
  unfold advance
  split
  · rename_i hlast
    have hend := (last_iff hvlen u).mp hlast
    exact hend.symm
  · rename_i hlast
    have hne := mt (last_iff hvlen u).mpr hlast
    have helem : (u.elem + 1) % (vlen / 8) = u.elem + 1 := Nat.mod_eq_of_lt (by omega)
    rw [helem, passed, if_neg hnext]

theorem result_advance (u : Vlsu vlen) (next : VlsuState) :
    (u.advance next).result = u.result := by
  unfold advance
  split <;> rfl

theorem state_advance (u : Vlsu vlen) (next : VlsuState) :
    (u.advance next).state = .idle ∨ (u.advance next).state = next := by
  unfold advance
  split
  · exact Or.inl rfl
  · exact Or.inr rfl

section

variable {op : VlsuOp vlen} {seen seen' : BitVec 64 -> BitVec (8 * op.bytes) -> Prop}
  {word' : BitVec 64}

theorem gathers_of_start (hstart : i.start = true) (hidle : u.busy = false) (hop : i.op = op)
    (word : BitVec 64) : Gathers op seen word (u.step i) := by
  have hstate := idle_of_not_busy hidle
  have hstep : u.step i = begin u.quiet i := by
    simp [step, hstate, hstart, quiet]
  rw [hstep]
  constructor
  · exact hop
  · intro e he
    exfalso
    revert he
    cases hstore : i.isStore <;> simp [passed, begin, hstore]
  · intro hcapture
    exfalso
    revert hcapture
    cases hstore : i.isStore <;> simp [begin, hstore]

theorem Gathers.step (hvlen : 64 ∣ vlen) (hbusy : u.busy = true) (hwalks : u.Walks)
    (h : Gathers op seen i.memReadData u) (hload : op.isStore = false)
    (hkeep : forall a x, seen a x -> seen' a x)
    (harrives : u.state = .loadWait -> seen' (op.address u.elem) (word'.setWidth (8 * op.bytes))) :
    Gathers op seen' word' (u.step i) := by
  obtain ⟨rfl, hgathered, hcaptures⟩ := h
  have hopStep := op_step hbusy i
  have hsame : forall e, u.state ≠ .idle -> e < u.elem -> u.op.active e = true ->
      seen' (u.op.address e) (element u.result (8 * u.op.bytes) e) := by
    intro e hne he hactive
    apply hkeep
    apply hgathered e _ hactive
    rw [passed, if_neg hne]
    exact he
  cases hstate : u.state with
  | idle => simp [busy, hstate] at hbusy
  | loadIssue =>
      cases hactive : u.active with
      | true =>
          refine ⟨hopStep, ?_, ?_⟩ <;> simp only [Vlsu.step, hstate, hactive, if_true]
          · exact fun e he => hsame e (by simp [hstate]) he
          · exact fun hcapture => absurd hcapture (by simp)
      | false =>
          rw [step_skip hstate hactive] at hopStep ⊢
          refine ⟨hopStep, ?_, ?_⟩
          · intro e he hact
            rw [passed_advance hvlen (by decide) (walks_quiet hwalks).inside] at he
            rw [result_advance]
            rcases Nat.lt_succ_iff_lt_or_eq.mp he with hless | heq
            · exact hsame e (by simp [hstate]) hless hact
            · have hnot : u.op.active e = false := by
                rw [heq]
                exact hactive
              exact Bool.noConfusion (hact.symm.trans hnot)
          · intro hcapture
            rcases state_advance u.quiet .loadIssue with hend | hgoes
            · exact absurd (hend.symm.trans hcapture) (by decide)
            · exact absurd (hgoes.symm.trans hcapture) (by decide)
  | loadWait =>
      refine ⟨hopStep, ?_, ?_⟩ <;> simp only [Vlsu.step, hstate]
      · exact fun e he => hsame e (by simp [hstate]) he
      · exact fun _ => harrives hstate
  | loadCapture =>
      rw [step_capture hstate] at hopStep ⊢
      refine ⟨hopStep, ?_, ?_⟩
      · intro e he hact
        have hinside : (u.quiet.capture i.memReadData).elem <
            (u.quiet.capture i.memReadData).op.count := hwalks.inside
        rw [passed_advance hvlen (by decide) hinside] at he
        have he : e < u.elem + 1 := he
        have helement : element (u.quiet.capture i.memReadData).result (8 * u.op.bytes) e =
            if e = u.elem then i.memReadData.setWidth (8 * u.op.bytes)
              else element u.result (8 * u.op.bytes) e :=
          element_capture hvlen (walks_quiet hwalks) i.memReadData
            (Nat.lt_of_lt_of_le he hwalks.inside)
        rw [result_advance, helement]
        rcases Nat.lt_succ_iff_lt_or_eq.mp he with hless | heq
        · rw [if_neg (Nat.ne_of_lt hless)]
          exact hsame e (by simp [hstate]) hless hact
        · rw [if_pos heq, heq]
          exact hkeep _ _ (hcaptures hstate)
      · intro hcapture
        rcases state_advance (u.quiet.capture i.memReadData) .loadIssue with hend | hgoes
        · exact absurd (hend.symm.trans hcapture) (by decide)
        · exact absurd (hgoes.symm.trans hcapture) (by decide)
  | storeIssue =>
      have hstore : u.op.isStore = true := hwalks.stores.mp hstate
      exact Bool.noConfusion (hload.symm.trans hstore)

end

end Vlsu
end Block
end RvCores
