import RvCores.Ooo.VectorGroup
import RvCores.Ooo.VlsuStation

/-!
# Vector loads and stores on register groups

A vector load or store is cracked like arithmetic on groups, but each micro-operation
hands the unit the whole vector length, the address of the first element and the mask as
it stands.  One register is accessed right; of a larger group every register gets the
elements of the first.
-/

namespace RvCores
namespace Ooo
namespace Core

open Isa Block

variable {P : Params} {s : Core} {i : Input}

/-!
# Vector memory instructions

The instruction is legal and starts at its first register: its group size is a whole
number of registers, its elements have the width that is configured, its group is aligned
and its vector length fits the group.
-/

structure VlsRun (P : Params) extends GroupRun P where
  memory : (toGroupRun.core 0).isVecLs P = true
  idle : (toGroupRun.core 0).vecCrack.active = false
  wholeRegisters : (toGroupRun.core 0).csr.vlmul.getLsbD 2 = false
  legalWidth : (toGroupRun.core 0).csr.vsew.toNat <= 3
  sameWidth : (toGroupRun.word.funct3.setWidth 2 : BitVec 2).toNat =
    (toGroupRun.core 0).csr.vsew.toNat
  aligned : toGroupRun.word.rd.toNat % 2 ^ (toGroupRun.core 0).csr.vlmul.toNat = 0
  fits : (toGroupRun.core 0).csr.vl.toNat <=
    2 ^ (toGroupRun.core 0).csr.vlmul.toNat * (toGroupRun.core 0).vecElemsPerReg
  base : BitVec 64
  source : Nat -> BitVec 512
  mask : BitVec 512
  maskRead : BitVec 512

namespace VlsRun

variable (t : VlsRun P)

def lmul : Nat := 2 ^ (t.core 0).csr.vlmul.toNat
def vl : Nat := (t.core 0).csr.vl.toNat
def bytes : Nat := 2 ^ (t.word.funct3.setWidth 2 : BitVec 2).toNat
def perReg : Nat := 512 / (8 * t.bytes)
def isStore : Bool := (t.core 0).isVecStore P
def vm : Bool := (t.core 0).vecArithVm P

/-!
# What the instruction is for
-/

def active (e : Nat) : Bool := t.vm || t.mask.getLsbD e

def address (e : Nat) : BitVec 64 := t.base + BitVec.ofNat 64 (e * t.bytes)

/--
The access of an element, which lies in register `e / t.perReg` of the group.
-/
def access (e : Nat) : VecAccess :=
  if t.isStore then
    .store (t.address e) t.bytes
      ((element (t.source (e / t.perReg)) (8 * t.bytes) (e % t.perReg)).setWidth 64)
  else .load (t.address e) t.bytes

/--
One access for each active element.
-/
def wanted : List VecAccess := ((List.range t.vl).filter t.active).map t.access

/-!
# What happens
-/

/--
All micro-operations are dispatched, the last of them in cycle `last`, and `finish` is the
first cycle in which the core takes them for finished.
-/
structure Executes (t : VlsRun P) (last finish : Nat) : Prop where
  held : t.Held last
  dispatched : t.dispatches last = true
  complete : (t.core last).vecCrackLast = true
  later : last < finish
  working : forall n, last < n -> n < finish -> (t.core n).vlsuInflightValid = true
  finished : (t.core finish).vlsuInflightValid = false

/--
The accesses on the port of the unit before cycle `n`.
-/
def log (t : VlsRun P) : Nat -> List VecAccess
  | 0 => []
  | n + 1 => t.log n ++ (t.core n).vlsu.port

def destReg (e : Nat) : Nat := t.word.rd.toNat + e / t.perReg

/--
At the end the element holds the bytes that were in the memory when its access was on the
port.
-/
def Loaded (finish e : Nat) : Prop :=
  exists n, n < finish ∧ (t.core n).vlsu.port = [.load (t.address e) t.bytes] ∧
    element ((t.core finish).prfVec.regs
        ((t.core finish).ratVec.rpreg false (t.destReg e))) (8 * t.bytes) (e % t.perReg) =
      Vlsu.bytesAt P.dmemSizeBytes (t.core n).dmem.bytes (t.address e) t.bytes

/--
Each access on the port of the unit is the one that the memory gets.
-/
def Taken (finish : Nat) : Prop :=
  forall n, n < finish -> (t.core n).vlsuWantsBus = true ->
    (t.core n).dmemArb P (t.input n) = (t.core n).vlsuRequest

/--
The memory takes every access, and it takes those of the active elements and no others.
-/
structure Accesses (t : VlsRun P) (finish : Nat) : Prop where
  wanted : (t.log finish).Perm t.wanted
  taken : t.Taken finish
  performed : forall n a, n < finish -> (t.core n).vlsu.port = [a] ->
    (t.core (n + 1)).dmem.bytes = a.perform P.dmemSizeBytes (t.core n).dmem.bytes
  loaded : t.isStore = false -> forall e, e < t.vl -> t.active e = true -> t.Loaded finish e

def Performs : Prop := exists last finish, t.Executes last finish ∧ t.Accesses finish

/-!
# What is needed for it
-/

/--
What the physical registers of the operands hold in cycle `n`.
-/
structure Reads (t : VlsRun P) (n : Nat) : Prop where
  base : (t.core n).prfRdata P (t.input n) ((t.core 0).ratRpreg0 P) = t.base
  mask : t.vm = false -> (t.core n).v0Data = t.maskRead
  source : t.isStore = true -> forall k, k < t.lmul ->
    (t.core n).prfVecRdata ((t.core 0).ratVec.rpreg false (t.word.rd.toNat + k)) = t.source k

/--
Each micro-operation finds the same operands.
-/
def Steady : Prop :=
  forall last finish n, t.Executes last finish -> n < finish -> (t.core n).vlsuStart = true ->
    t.Reads n

/--
The last micro-operation is dispatched and all of them leave the station.
-/
def Drains : Prop :=
  exists last n, t.Held last ∧ t.dispatches last = true ∧ (t.core last).vecCrackLast = true ∧
    last < n ∧ (t.core n).vlsuWaiting = 0

/--
The table walker does not use the memory when the unit does.
-/
def PortFree (finish : Nat) : Prop :=
  forall n, n < finish -> (t.core n).vlsuWantsBus = true -> (t.core n).ptw.busy = true ->
    (t.core n).ptwRequest = (t.core n).vlsuRequest

/--
The mask register already held the mask when it was read.
-/
def MaskRead : Prop :=
  t.vm = false -> forall e, e < t.perReg -> e < t.vl % 128 ->
    t.maskRead.getLsbD e = t.mask.getLsbD e

/--
The group has one register, or no element is active.
-/
def SingleOrIdle : Prop := t.lmul = 1 ∨ forall e, e < t.vl -> t.active e = false

def Supported : Prop :=
  t.Drains ∧ (forall last finish, t.Executes last finish -> t.PortFree finish) ∧ t.MaskRead ∧
    t.SingleOrIdle

variable {t : VlsRun P} {n d : Nat}

/-!
# The group
-/

theorem lmul_count (t : VlsRun P) :
    t.lmul = 1 ∧ t.count = 1 ∨ t.lmul = 2 ∧ t.count = 2 ∨ t.lmul = 4 ∧ t.count = 3 ∨
      t.lmul = 8 ∧ t.count = 4 :=
  ArithRun.lmul_count_table _ t.wholeRegisters

theorem count_le_lmul (t : VlsRun P) : t.count <= t.lmul := by
  rcases lmul_count t with ⟨hl, hc⟩ | ⟨hl, hc⟩ | ⟨hl, hc⟩ | ⟨hl, hc⟩ <;> omega

theorem unaligned (t : VlsRun P) : (t.core 0).vecUnaligned P = false := by
  have hrd : t.word.rd.toNat % t.lmul = 0 := t.aligned
  have hmask : (t.core 0).misalignedGroup t.word.rd = false := by
    obtain ⟨hone, htwo, hfour, height⟩ := ArithRun.mask_table t.word.rd
    have hgroup : (t.core 0).misalignedGroup t.word.rd =
        decide (t.word.rd &&& BitVec.ofNat 5 (t.count - 1) ≠ 0) :=
      rfl
    rw [hgroup, decide_eq_false_iff_not, not_not]
    rcases lmul_count t with ⟨hl, hc⟩ | ⟨hl, hc⟩ | ⟨hl, hc⟩ | ⟨hl, hc⟩ <;> rw [hc] <;>
      rw [hl] at hrd
    · exact hone
    · exact not_not.mp (mt htwo.mp (by omega))
    · exact not_not.mp (mt hfour.mp (by omega))
    · exact not_not.mp (mt height.mp (by omega))
  have hword : (t.core 0).misalignedGroup ((t.core 0).instWord P).rd = false := hmask
  obtain ⟨_, _, _, _, harith, _⟩ := control_of_vecLs t.memory
  simp [vecUnaligned, harith, hword]

theorem bytes_pos (t : VlsRun P) : 0 < t.bytes := Nat.two_pow_pos _

theorem bytes_le (t : VlsRun P) : t.bytes <= 8 := by
  have hlt := (t.word.funct3.setWidth 2 : BitVec 2).isLt
  have hpow : t.bytes <= 2 ^ 3 := Nat.pow_le_pow_right two_pos (by omega)
  exact hpow

theorem perReg_eq (t : VlsRun P) : (t.core 0).vecElemsPerReg = t.perReg := by
  unfold vecElemsPerReg perReg bytes vlen
  rw [t.sameWidth, Nat.shiftRight_eq_div_pow, Nat.pow_add, Nat.mul_comm]

theorem perReg_le (t : VlsRun P) : 0 < t.perReg ∧ t.perReg <= 64 := by
  rw [← perReg_eq]
  exact vecElemsPerReg_pos t.legalWidth

theorem vl_le (t : VlsRun P) : t.vl <= t.lmul * t.perReg := by
  rw [← perReg_eq]
  exact t.fits

theorem vl_le_512 (t : VlsRun P) : t.vl <= 512 := by
  have hfit := vl_le t
  have hper := (perReg_le t).right
  have hlmul : t.lmul <= 8 := by
    rcases lmul_count t with ⟨hl, _⟩ | ⟨hl, _⟩ | ⟨hl, _⟩ | ⟨hl, _⟩ <;> omega
  have hprod : t.lmul * t.perReg <= 8 * 64 := Nat.mul_le_mul hlmul hper
  omega

theorem vl_single (t : VlsRun P) (hsingle : t.lmul = 1) :
    t.vl <= t.perReg ∧ t.vl % 128 = t.vl := by
  have hfit := vl_le t
  have hper := (perReg_le t).right
  rw [hsingle, Nat.one_mul] at hfit
  exact ⟨hfit, Nat.mod_eq_of_lt (by omega)⟩

theorem address_inj (t : VlsRun P) {e f : Nat} (he : e < 512) (hf : f < 512)
    (h : t.address e = t.address f) : e = f := by
  have hbytes := bytes_le t
  have hsmall : forall g, g < 512 -> g * t.bytes < 2 ^ 64 := by
    intro g hg
    have hprod : g * t.bytes <= 512 * 8 := Nat.mul_le_mul (Nat.le_of_lt hg) hbytes
    omega
  have hoffset : BitVec.ofNat 64 (e * t.bytes) = BitVec.ofNat 64 (f * t.bytes) :=
    BitVec.add_right_inj t.base |>.mp h
  have hnat := congrArg BitVec.toNat hoffset
  rw [BitVec.toNat_ofNat, BitVec.toNat_ofNat, Nat.mod_eq_of_lt (hsmall e he),
    Nat.mod_eq_of_lt (hsmall f hf)] at hnat
  exact Nat.eq_of_mul_eq_mul_right (bytes_pos t) hnat

theorem address_access (t : VlsRun P) (e : Nat) : (t.access e).address = t.address e := by
  unfold access
  split <;> rfl

/-!
# Micro-operations
-/

/--
What the unit works on for one micro-operation.
-/
def op (t : VlsRun P) (data v0 : BitVec 512) : VlsuOp 512 :=
  { isStore := t.isStore
    baseAddr := t.base
    storeData := data
    eew := t.word.funct3
    v0 := v0
    vm := t.vm
    vl := t.vl % 128 }

/--
The accesses for register `k` of the group.
-/
def slice (t : VlsRun P) (k : Nat) : List VecAccess :=
  (t.op (t.source k) t.maskRead).accessesFrom 0

theorem op_count (t : VlsRun P) (data v0 : BitVec 512) : (t.op data v0).count = t.perReg := rfl

/--
The reservation-station entry of micro-operation `k`.
-/
structure MicroOp (t : VlsRun P) (k : Nat) (e : RsEntry VlsuPayload) : Prop where
  addressReg : e.src1Preg = (t.core 0).ratRpreg0 P
  dataReg : t.isStore = true ->
    e.src2Preg = (t.core 0).ratVec.rpreg false (t.word.rd.toNat + k)
  payload : e.data = (t.core 0).vlsuPayload P
  dest : k = 0 -> e.destPreg = (t.core 0).flVAllocPreg0

/--
An entry of one of the first `d` micro-operations.
-/
def Entry (t : VlsRun P) (d : Nat) (e : RsEntry VlsuPayload) : Prop :=
  exists k, k < d ∧ t.MicroOp k e

/--
After `d` micro-operations have been dispatched, those that have left the station account
for the accesses made and the accesses owed.
-/
structure Progress (t : VlsRun P) (n d : Nat) : Prop where
  serial : (t.core n).Serial
  vl : (t.core n).csr.vl = (t.core 0).csr.vl
  sound : (t.core n).vlsu.Sound
  intMap : (t.core n).rat.specMap = (t.core 0).rat.specMap
  vecMap : t.isStore = true -> (t.core n).ratVec.specMap = (t.core 0).ratVec.specMap
  staged : (t.core n).Staged (t.Entry d)
  accounts : exists ks : List Nat, (forall k, k ∈ ks -> k < d) ∧
    ks.length + (t.core n).vlsuWaiting = d ∧
    t.log n ++ ((t.core n).vlsu.port ++ (t.core n).vlsu.owed) = ks.flatMap t.slice

theorem tracked (t : VlsRun P) (n : Nat) : (t.core n).VlsuTracked :=
  vlsuTracked_afterInputs P t.powerUp t.inputs (t.start + n)

theorem owed_of_idle {u : Vlsu 512} (h : u.busy = false) : u.owed = [] := by
  simp [Vlsu.owed, Vlsu.idle_of_not_busy h]

theorem rests_zero (t : VlsRun P) : (t.core 0).VlsuRests := by
  apply (tracked t 0).rests
  by_contra hvalid
  have hquiet := (canDispatch_of_doDispatch t.dispatched).vlsuQuiet (Bool.not_eq_false _ ▸ hvalid)
  exact Bool.noConfusion (hquiet.right.symm.trans t.idle)

theorem progress_zero (t : VlsRun P) : t.Progress 0 0 := by
  have hrests := rests_zero t
  constructor
  · exact serial_of_doDispatch t.dispatched
  · rfl
  · exact (tracked t 0).sound
  · rfl
  · exact fun _ => rfl
  · exact staged_of_empty _ hrests.empty
  · refine ⟨[], ?_, ?_, ?_⟩
    · exact fun k hk => absurd hk List.not_mem_nil
    · rw [hrests.empty]
      rfl
    · rw [hrests.silent, owed_of_idle hrests.idle]
      rfl

/-!
# One cycle
-/

/--
A dispatch hands out micro-operation `d` of the instruction.
-/
structure HandsOut (t : VlsRun P) (n d : Nat) : Prop where
  word : (t.core n).instWord P = t.word
  legal : (t.core n).isTrapRelated P = false
  offset : (t.core n).vecCrackOffset = d
  begun : d = 0 -> n = 0
  inside : d < t.lmul

theorem vecLs_congr {r : Core} (hword : s.instWord P = r.instWord P) :
    s.isVecLs P = r.isVecLs P ∧ s.isVecStore P = r.isVecStore P ∧
      s.vlsuPayload P = r.vlsuPayload P ∧ s.rs1Areg P = r.rs1Areg P := by
  have hstore : s.isVecStore P = r.isVecStore P := by simp only [isVecStore, ctrl, hword]
  have hload : s.isVecLoad P = r.isVecLoad P := by simp only [isVecLoad, ctrl, hword]
  refine ⟨?_, hstore, ?_, ?_⟩
  · rw [isVecLs, isVecLs, hload, hstore]
  · simp only [vlsuPayload, vecArithVm, hword, hstore]
  · simp only [rs1Areg, hword]

theorem HandsOut.vecLs (h : t.HandsOut n d) : (t.core n).isVecLs P = true :=
  (vecLs_congr h.word).left.trans t.memory

theorem HandsOut.destReg (h : t.HandsOut n d) :
    (t.core n).vecVdAreg P = t.word.rd.toNat + d := by
  have hrd := t.word.rd.isLt
  have haligned : t.word.rd.toNat % t.lmul = 0 := t.aligned
  have hd := h.inside
  rw [vecVdAreg, h.word, h.offset, BitVec.toNat_add, BitVec.toNat_ofNat]
  rcases lmul_count t with ⟨hl, _⟩ | ⟨hl, _⟩ | ⟨hl, _⟩ | ⟨hl, _⟩ <;> rw [hl] at haligned hd <;>
    omega

theorem not_enters (hstall : t.dispatches n = false) :
    (t.core n).vlsuEnters P (t.input n) = false := by
  have hnone : (t.core n).doDispatch P (t.input n) = false := hstall
  rw [vlsuEnters, hnone, Bool.false_and]

theorem enters_eq (hout : t.dispatches n = true -> t.HandsOut n d) :
    (t.core n).vlsuEnters P (t.input n) = t.dispatches n := by
  cases hd : t.dispatches n with
  | false => exact not_enters hd
  | true =>
      have hdisp : (t.core n).doDispatch P (t.input n) = true := hd
      rw [vlsuEnters, hdisp, Bool.true_and]
      exact (hout hd).vecLs

section

variable (h : t.Progress n d) (hout : t.dispatches n = true -> t.HandsOut n d)

include h hout

/--
A new entry is the micro-operation that the sequencer hands out.
-/
theorem newEntry_microOp (hd : t.dispatches n = true) (cdb : List (Option Nat)) :
    t.MicroOp d (ReservationStation.newEntry rsVlsuCfg cdb
      ((t.core n).rsVlsuIn P (t.input n)).disp0) := by
  have ho := hout hd
  obtain ⟨_, hstore, hpayload, hrs1⟩ := vecLs_congr (r := t.core 0) ho.word
  constructor
  · show (t.core n).rat.rpreg true ((t.core n).rs1Areg P) = _
    rw [RegisterAliasTable.rpreg, h.intMap, hrs1]
    rfl
  · intro hst
    have hnow : (t.core n).isVecStore P = true := hstore.trans hst
    show (if (t.core n).isVecStore P then (t.core n).ratVRpregVs3 P else 0) = _
    rw [hnow, if_pos rfl, ratVRpregVs3, ho.destReg, RegisterAliasTable.rpreg, h.vecMap hst]
    rfl
  · exact hpayload
  · intro hzero
    have hn := ho.begun hzero
    show (t.core n).flVAllocPreg0 = _
    rw [hn]

theorem staged_step' : (t.core (n + 1)).Staged (t.Entry (d + (t.dispatches n).toNat)) := by
  have hgrow : (t.core n).Staged (t.Entry (d + (t.dispatches n).toNat)) := by
    intro k hk hvalid
    obtain ⟨j, hj, hop⟩ := h.staged k hk hvalid
    exact ⟨j, Nat.lt_of_lt_of_le hj (Nat.le_add_right _ _), hop⟩
  apply staged_step (s := t.core n) (i := t.input n) hgrow
  · rintro cdb e ⟨k, hk, hop⟩
    exact ⟨k, hk, hop.addressReg, hop.dataReg, hop.payload, hop.dest⟩
  · intro hen
    rw [enters_eq hout] at hen
    exact ⟨d, by rw [hen]; exact Nat.lt_succ_self d, newEntry_microOp h hout hen _⟩

theorem maps_step : (t.core (n + 1)).rat.specMap = (t.core 0).rat.specMap ∧
    (t.isStore = true -> (t.core (n + 1)).ratVec.specMap = (t.core 0).ratVec.specMap) := by
  constructor
  · rw [← h.intMap]
    exact rat_step_of_vecLs fun hd => (hout hd).vecLs
  · intro hst
    rw [← h.vecMap hst]
    apply ratVec_step_of_plain
    intro hd
    exact vecDest_of_store ((vecLs_congr (hout hd).word).right.left.trans hst)

end

/--
What the unit is started with.
-/
theorem started_op (h : t.Progress n d) (hstart : (t.core n).vlsuStart = true)
    (hreads : t.Reads n) :
    ((t.core n).vlsuIn P (t.input n)).op =
      t.op ((t.core n).vlsuIn P (t.input n)).storeData (t.core n).v0Data := by
  obtain ⟨k, _, hop⟩ := staged_issue h.staged hstart
  have haddress : (t.core n).prfRdata P (t.input n) (t.core n).issueVlsu.src1Preg = t.base := by
    rw [hop.addressReg]
    exact hreads.base
  have hpayload := hop.payload
  have hvl : (t.core n).csr.vl.toNat % 128 = t.vl % 128 := by
    rw [h.vl]
    rfl
  simp only [VlsuIn.op, vlsuIn, haddress, hpayload, hvl]
  rfl

theorem started_slice (h : t.Progress n d) (hstart : (t.core n).vlsuStart = true)
    (hd : d <= t.lmul) (hreads : t.Reads n) :
    exists k, k < d ∧ ((t.core n).vlsuIn P (t.input n)).op.accessesFrom 0 = t.slice k := by
  obtain ⟨k, hk, hop⟩ := staged_issue h.staged hstart
  refine ⟨k, hk, ?_⟩
  rw [started_op h hstart hreads]
  refine @VlsuOp.accessesFrom_congr 512 (t.op (t.source k) t.maskRead) _ _ ?_ ?_ 0
  · intro hst
    have hsource := hreads.source hst k (Nat.lt_of_lt_of_le hk hd)
    rw [← hop.dataReg hst] at hsource
    exact hsource
  · exact hreads.mask

theorem accounts_step (h : t.Progress n d) (hd : d <= t.lmul)
    (hreads : (t.core n).vlsuStart = true -> t.Reads n)
    (hout : t.dispatches n = true -> t.HandsOut n d) :
    exists ks : List Nat, (forall k, k ∈ ks -> k < d + (t.dispatches n).toNat) ∧
      ks.length + (t.core (n + 1)).vlsuWaiting = d + (t.dispatches n).toNat ∧
      t.log (n + 1) ++ ((t.core (n + 1)).vlsu.port ++ (t.core (n + 1)).vlsu.owed) =
        ks.flatMap t.slice := by
  obtain ⟨ks, hks, hlength, htotal⟩ := h.accounts
  have hless : forall k, k < d -> k < d + (t.dispatches n).toNat := fun k hk =>
    Nat.lt_of_lt_of_le hk (Nat.le_add_right _ _)
  have hcount : (t.core (n + 1)).vlsuWaiting + (t.core n).vlsuStart.toNat =
      (t.core n).vlsuWaiting + (t.dispatches n).toNat := by
    rw [← enters_eq hout]
    exact vlsuWaiting_step P (t.core n) (t.input n)
  have hlog : t.log (n + 1) = t.log n ++ (t.core n).vlsu.port := rfl
  have hunit : (t.core (n + 1)).vlsu = (t.core n).vlsu.step ((t.core n).vlsuIn P (t.input n)) :=
    rfl
  cases hstart : (t.core n).vlsuStart with
  | true =>
      have hidle := busy_of_start hstart
      obtain ⟨k, hk, hslice⟩ := started_slice h hstart hd (hreads hstart)
      obtain ⟨hport, howed, _⟩ := Vlsu.step_of_start (i := (t.core n).vlsuIn P (t.input n))
        vlen_words (by decide) hidle hstart
      rw [owed_of_idle hidle, List.append_nil] at htotal
      rw [hstart] at hcount
      refine ⟨ks ++ [k], ?_, ?_, ?_⟩
      · intro j hj
        rcases List.mem_append.mp hj with hold | hnew
        · exact hless j (hks j hold)
        · rw [List.mem_singleton.mp hnew]
          exact hless k hk
      · rw [List.length_append, List.length_singleton]
        simp only [Bool.toNat_true] at hcount
        omega
      · rw [hlog, hunit, hport, howed, hslice, htotal, List.flatMap_append,
          List.flatMap_singleton]
        rfl
  | false =>
      rw [hstart] at hcount
      refine ⟨ks, fun k hk => hless k (hks k hk), ?_, ?_⟩
      · simp only [Bool.toNat_false] at hcount
        omega
      · rw [hlog, hunit, ← htotal, List.append_assoc]
        cases hbusy : (t.core n).vlsu.busy with
        | true =>
            rw [(Vlsu.owed_step vlen_words hbusy (h.sound hbusy) _).left]
        | false =>
            obtain ⟨hport, howed, _⟩ := Vlsu.step_of_idle
              (i := (t.core n).vlsuIn P (t.input n)) hbusy hstart
            rw [hport, howed, owed_of_idle hbusy]
            rfl

theorem Progress.step (h : t.Progress n d) (hd : d <= t.lmul)
    (hreads : (t.core n).vlsuStart = true -> t.Reads n)
    (hout : t.dispatches n = true -> t.HandsOut n d) :
    t.Progress (n + 1) (d + (t.dispatches n).toNat) := by
  obtain ⟨hint, hvec⟩ := maps_step h hout
  constructor
  · apply h.serial.step
    intro hdisp
    have ho := hout hdisp
    exact ⟨cracked_of_vecLs ho.vecLs, ho.legal⟩
  · exact h.serial.vecConfig_step.left.trans h.vl
  · exact (tracked t (n + 1)).sound
  · exact hint
  · exact hvec
  · exact staged_step' h hout
  · exact accounts_step h hd hreads hout

/-!
# The whole execution
-/

theorem handsOut_of_underway (h : t.Underway n d) (hfetch : t.Fetched) (hheld : t.Held n)
    (hlt : d < t.count) (hdisp : t.dispatches n = true) : t.HandsOut n d := by
  have hword := hfetch n hheld hdisp
  obtain ⟨_, _, hlegal⟩ := h.vector hword (unaligned t)
  exact ⟨hword.left, hlegal, h.offset, h.begun, Nat.lt_of_lt_of_le hlt (count_le_lmul t)⟩

/--
Before the program counter moves.
-/
theorem progress_of_held (hfetch : t.Fetched) (hheld : t.Held n)
    (hreads : forall m, m < n -> (t.core m).vlsuStart = true -> t.Reads m) :
    exists d, d < t.count ∧ t.Underway n d ∧ t.Progress n d := by
  induction n with
  | zero => exact ⟨0, vecGroupCountFresh_pos _, GroupRun.underway_zero t.idle, progress_zero t⟩
  | succ n ih =>
      have hbefore : t.Held n := fun m hm => hheld m (Nat.le_succ_of_le hm)
      obtain ⟨d, hlt, hunder, hprogress⟩ :=
        ih hbefore fun m hm => hreads m (Nat.lt_succ_of_lt hm)
      have hnext := hprogress.step (Nat.le_trans (Nat.le_of_lt hlt) (count_le_lmul t))
        (hreads n (Nat.lt_succ_self n)) (handsOut_of_underway hunder hfetch hbefore hlt)
      cases hd : t.dispatches n with
      | false =>
          rw [hd] at hnext
          exact ⟨d, hlt, hunder.stall hd, hnext⟩
      | true =>
          have hword := hfetch n hbefore hd
          rw [hd] at hnext
          rcases Nat.lt_or_eq_of_le (Nat.succ_le_of_lt hlt) with hmore | hlast
          · exact ⟨d + 1, hmore, (hunder.more hword (unaligned t) hd hmore).left, hnext⟩
          · have hpc := (hunder.last hword (unaligned t) hd hlast).right
            rw [hheld (n + 1) (Nat.le_refl _), hheld n (Nat.le_succ n)] at hpc
            exact absurd hpc (by bv_omega)

/-!
# After the last dispatch
-/

theorem no_dispatch (hidle : (t.core n).vecCrack.active = false)
    (hworking : (t.core n).vlsuInflightValid = true) : t.dispatches n = false := by
  cases hd : t.dispatches n with
  | false => rfl
  | true =>
      have hquiet := (canDispatch_of_doDispatch hd).vlsuQuiet hworking
      exact Bool.noConfusion (hquiet.right.symm.trans hidle)

section

variable {last finish : Nat} (hfetch : t.Fetched) (hheld : t.Held last)
  (hdisp : t.dispatches last = true) (hlast : (t.core last).vecCrackLast = true)

include hfetch hheld hdisp hlast

theorem idle_after_last :
    (t.core (last + 1)).vecCrack.active = false ∧ (t.core (last + 1)).pc ≠ t.pc := by
  obtain ⟨d, _, hunder⟩ := GroupRun.underway_of_held (fun m _ => hfetch m) t.idle
    (unaligned t) hheld
  have hend : d + 1 = t.count := by
    rw [← hunder.offset, ← hunder.total]
    exact (vecCrackLast_iff _).mp hlast
  obtain ⟨hidle, hpc⟩ := hunder.last (hfetch last hheld hdisp) (unaligned t) hdisp hend
  refine ⟨hidle, ?_⟩
  rw [hpc, hheld last (Nat.le_refl last)]
  bv_omega

theorem idle_while_working (hn : last < n)
    (hworking : forall m, last < m -> m < n -> (t.core m).vlsuInflightValid = true) :
    (t.core n).vecCrack.active = false := by
  induction n with
  | zero => exact absurd hn (Nat.not_lt_zero last)
  | succ n ih =>
      rcases Nat.lt_succ_iff_lt_or_eq.mp hn with hless | heq
      · have hidle := ih hless fun m hm hmn => hworking m hm (Nat.lt_succ_of_lt hmn)
        have hstall := no_dispatch hidle (hworking n hless (Nat.lt_succ_self n))
        rw [← hidle]
        exact congrArg VecCrack.active (crack_step_of_stall hstall)
      · rw [← heq]
        exact (idle_after_last hfetch hheld hdisp hlast).left

end

theorem progress_of_executes {last finish : Nat} (hfetch : t.Fetched) (hsteady : t.Steady)
    (h : t.Executes last finish) (hn : last < n) (hle : n <= finish) :
    t.Progress n t.count := by
  have hreads : forall m, m < finish -> (t.core m).vlsuStart = true -> t.Reads m :=
    fun m hm => hsteady last finish m h hm
  induction n with
  | zero => exact absurd hn (Nat.not_lt_zero last)
  | succ n ih =>
      rcases Nat.lt_succ_iff_lt_or_eq.mp hn with hless | heq
      · have hnow := ih hless (Nat.le_of_succ_le hle)
        have hidle := idle_while_working hfetch h.held h.dispatched h.complete hless
          fun m hm hmn => h.working m hm (Nat.lt_trans hmn hle)
        have hstall := no_dispatch hidle (h.working n hless hle)
        have hnext := hnow.step (count_le_lmul t) (hreads n hle)
          fun hd => Bool.noConfusion (hstall.symm.trans hd)
        rw [hstall] at hnext
        exact hnext
      · obtain ⟨d, hlt, hunder, hnow⟩ := progress_of_held hfetch h.held
          fun m hm => hreads m (Nat.lt_trans hm h.later)
        have hend : d + 1 = t.count := by
          rw [← hunder.offset, ← hunder.total]
          exact (vecCrackLast_iff _).mp h.complete
        have hnext := hnow.step (Nat.le_trans (Nat.le_of_lt hlt) (count_le_lmul t))
          (hreads last h.later) (handsOut_of_underway hunder hfetch h.held hlt)
        rw [h.dispatched] at hnext
        rw [← heq, ← hend]
        exact hnext

/--
Every micro-operation makes the accesses of its slice, in some order of the slices.
-/
theorem log_of_executes {last finish : Nat} (hfetch : t.Fetched) (hsteady : t.Steady)
    (h : t.Executes last finish) :
    exists ks : List Nat, (forall k, k ∈ ks -> k < t.count) ∧ ks.length = t.count ∧
      t.log finish = ks.flatMap t.slice := by
  have hend := progress_of_executes hfetch hsteady h h.later (Nat.le_refl finish)
  have hrests := (tracked t finish).rests h.finished
  obtain ⟨ks, hks, hlength, htotal⟩ := hend.accounts
  rw [hrests.empty] at hlength
  rw [hrests.silent, owed_of_idle hrests.idle, List.append_nil, List.append_nil] at htotal
  exact ⟨ks, hks, hlength, htotal⟩

/-!
# The execution ends
-/

/--
With an empty station the unit runs out of elements and the core takes note of it.
-/
theorem finishes_of_empty (hidle : (t.core n).vecCrack.active = false)
    (hempty : (t.core n).vlsuWaiting = 0) :
    exists m, n <= m ∧ (t.core m).vlsuInflightValid = false := by
  induction hleft : (t.core n).vlsu.remaining using Nat.strongRecOn generalizing n with
  | ind left ih =>
      cases hvalid : (t.core n).vlsuInflightValid with
      | false => exact ⟨n, Nat.le_refl n, hvalid⟩
      | true =>
          have hstall := no_dispatch hidle hvalid
          have hnone := not_enters hstall
          cases hbusy : (t.core n).vlsu.busy with
          | false =>
              refine ⟨n + 1, Nat.le_succ n, ?_⟩
              rw [GroupRun.core_succ, nextVlsuInflightValid_of_none hnone, hvalid, hempty, hbusy]
              rfl
          | true =>
              have hcrack : (t.core (n + 1)).vecCrack = (t.core n).vecCrack :=
                crack_step_of_stall hstall
              have hcount := vlsuWaiting_step P (t.core n) (t.input n)
              rw [hnone, hempty] at hcount
              have hless : (t.core (n + 1)).vlsu.remaining < left := by
                rw [← hleft]
                exact Vlsu.remaining_step vlen_words hbusy ((tracked t n).sound hbusy) _
              obtain ⟨m, hm, hfalse⟩ := ih _ hless (hcrack ▸ hidle)
                (Nat.eq_zero_of_add_eq_zero_right hcount) rfl
              exact ⟨m, Nat.le_of_succ_le hm, hfalse⟩

theorem executes_of_drains (hfetch : t.Fetched) (h : t.Drains) :
    exists last finish, t.Executes last finish := by
  obtain ⟨last, n, hheld, hdisp, hlast, hn, hempty⟩ := h
  have hexists : exists m, last < m ∧ (t.core m).vlsuInflightValid = false := by
    by_contra hnever
    have hworking : forall m, last < m -> (t.core m).vlsuInflightValid = true := by
      intro m hm
      by_contra hfalse
      exact hnever ⟨m, hm, Bool.eq_false_iff.mpr hfalse⟩
    have hidle := idle_while_working hfetch hheld hdisp hlast hn fun m hm _ => hworking m hm
    obtain ⟨m, hm, hfalse⟩ := finishes_of_empty hidle hempty
    exact hnever ⟨m, Nat.lt_of_lt_of_le hn hm, hfalse⟩
  refine ⟨last, Nat.find hexists, hheld, hdisp, hlast, (Nat.find_spec hexists).left, ?_,
    (Nat.find_spec hexists).right⟩
  intro m hm hless
  by_contra hfalse
  exact Nat.find_min hexists hless ⟨hm, Bool.eq_false_iff.mpr hfalse⟩

theorem drains_of_executes {last finish : Nat} (h : t.Executes last finish) : t.Drains :=
  ⟨last, finish, h.held, h.dispatched, h.complete, h.later,
    ((tracked t finish).rests h.finished).empty⟩

/--
There is one execution.
-/
theorem Executes.unique {last finish last' finish' : Nat} (hfetch : t.Fetched)
    (h : t.Executes last finish) (h' : t.Executes last' finish') :
    last = last' ∧ finish = finish' := by
  have hnot : forall {a fa b fb : Nat}, t.Executes a fa -> t.Executes b fb -> ¬ a < b := by
    intro a fa b fb ha hb hless
    exact (idle_after_last hfetch ha.held ha.dispatched ha.complete).right
      (hb.held (a + 1) hless)
  have hlast : last = last' := Nat.le_antisymm (Nat.le_of_not_lt (hnot h' h))
    (Nat.le_of_not_lt (hnot h h'))
  refine ⟨hlast, ?_⟩
  rcases Nat.lt_trichotomy finish finish' with hless | heq | hless
  · have hworking := h'.working finish (hlast ▸ h.later) hless
    exact Bool.noConfusion (h.finished.symm.trans hworking)
  · exact heq
  · have hworking := h.working finish' (hlast ▸ h'.later) hless
    exact Bool.noConfusion (h'.finished.symm.trans hworking)

/-!
# Addresses

The wanted accesses go to different addresses, the slices of different registers to the
same ones.
-/

theorem mem_wanted_address {a : BitVec 64} :
    a ∈ t.wanted.map VecAccess.address <->
      exists e, e < t.vl ∧ t.active e = true ∧ t.address e = a := by
  simp only [wanted, List.map_map, List.mem_map, List.mem_filter, List.mem_range,
    Function.comp_apply, address_access, and_assoc]

theorem wanted_nodup (t : VlsRun P) : (t.wanted.map VecAccess.address).Nodup := by
  have hvl := vl_le_512 t
  rw [wanted, List.map_map]
  apply List.Nodup.map_on _ (List.Nodup.filter _ List.nodup_range)
  intro e he f hf heq
  have hless : forall g, g ∈ (List.range t.vl).filter t.active -> g < 512 := fun g hg =>
    Nat.lt_of_lt_of_le (List.mem_range.mp (List.mem_filter.mp hg).left) hvl
  simp only [Function.comp_apply, address_access] at heq
  exact address_inj t (hless e he) (hless f hf) heq

theorem wanted_eq_nil : t.wanted = [] <-> forall e, e < t.vl -> t.active e = false := by
  simp [wanted]

theorem slice_eq (t : VlsRun P) (k : Nat) :
    t.slice k =
      ((List.range t.perReg).filter fun e =>
        decide (e < t.vl % 128) && (t.vm || t.maskRead.getLsbD e)).map
          (t.op (t.source k) t.maskRead).access := by
  rw [slice, VlsuOp.accessesFrom, op_count, Nat.sub_zero, ← List.range_eq_range']
  rfl

theorem mem_slice_address {k : Nat} {a : BitVec 64} :
    a ∈ (t.slice k).map VecAccess.address <-> exists e, e < t.perReg ∧ e < t.vl % 128 ∧
      (t.vm || t.maskRead.getLsbD e) = true ∧ t.address e = a := by
  simp only [slice_eq, List.map_map, List.mem_map, List.mem_filter, List.mem_range,
    Function.comp_apply, VlsuOp.address_access, Bool.and_eq_true, decide_eq_true_eq, and_assoc]
  rfl

theorem slice_addresses (t : VlsRun P) (j k : Nat) :
    (t.slice j).map VecAccess.address = (t.slice k).map VecAccess.address := by
  rw [slice_eq, slice_eq, List.map_map, List.map_map]
  apply List.map_congr_left
  intro e _
  simp only [Function.comp_apply, VlsuOp.address_access]
  rfl

theorem slice_eq_nil {k : Nat} : t.slice k = [] <->
    forall e, e < t.perReg -> e < t.vl % 128 -> (t.vm || t.maskRead.getLsbD e) = false := by
  simp [slice_eq]

theorem filter_below {vl per : Nat} (h : vl <= per) (p : Nat -> Bool) :
    ((List.range per).filter fun e => decide (e < vl) && p e) = (List.range vl).filter p := by
  obtain ⟨rest, hrest⟩ := Nat.exists_eq_add_of_le h
  rw [hrest, List.range_add, List.filter_append]
  have htail : ((List.range rest).map (vl + ·)).filter (fun e => decide (e < vl) && p e) = [] := by
    simp
  rw [htail, List.append_nil]
  apply List.filter_congr
  intro e he
  rw [decide_eq_true (List.mem_range.mp he), Bool.true_and]

/-!
# Which accesses are made
-/

section

variable {last finish : Nat} (hfetch : t.Fetched) (hsteady : t.Steady)
  (h : t.Executes last finish)

include hfetch hsteady h

/--
On one register the unit makes the accesses of that register.
-/
theorem log_of_single (hsingle : t.lmul = 1) : t.log finish = t.slice 0 := by
  obtain ⟨ks, hks, hlength, hlog⟩ := log_of_executes hfetch hsteady h
  have hcount : t.count = 1 := by
    rcases lmul_count t with ⟨hl, hc⟩ | ⟨hl, hc⟩ | ⟨hl, hc⟩ | ⟨hl, hc⟩ <;> omega
  rw [hcount] at hks hlength
  obtain ⟨k, hk⟩ := List.length_eq_one_iff.mp hlength
  have hzero : k = 0 := Nat.lt_one_iff.mp (hks k (hk ▸ List.mem_singleton_self k))
  rw [hlog, hk, hzero]
  exact List.flatMap_singleton _ _

theorem wanted_of_mask (hsingle : t.lmul = 1) (hmask : t.MaskRead) :
    t.log finish = t.wanted := by
  obtain ⟨hfit, hmod⟩ := vl_single t hsingle
  have hactive : forall e, e < t.vl ->
      (t.vm || t.maskRead.getLsbD e) = t.active e := by
    intro e he
    unfold active
    cases hvm : t.vm with
    | true => rfl
    | false =>
        have hbit := hmask hvm e (Nat.lt_of_lt_of_le he hfit) (by rw [hmod]; exact he)
        rw [hbit]
  rw [log_of_single hfetch hsteady h hsingle, slice_eq, hmod, filter_below hfit, wanted]
  have hfilter : (List.range t.vl).filter (fun e => t.vm || t.maskRead.getLsbD e) =
      (List.range t.vl).filter t.active :=
    List.filter_congr fun e he => hactive e (List.mem_range.mp he)
  rw [hfilter]
  apply List.map_congr_left
  intro e he
  have hin : e < t.perReg :=
    Nat.lt_of_lt_of_le (List.mem_range.mp (List.mem_filter.mp he).left) hfit
  unfold access
  rw [Nat.div_eq_of_lt hin, Nat.mod_eq_of_lt hin]
  rfl

theorem mask_of_wanted (hsingle : t.lmul = 1) (hperm : (t.log finish).Perm t.wanted) :
    t.MaskRead := by
  intro hvm e hin he
  obtain ⟨hfit, hmod⟩ := vl_single t hsingle
  rw [log_of_single hfetch hsteady h hsingle] at hperm
  have hmem : forall a, a ∈ (t.slice 0).map VecAccess.address <->
      a ∈ t.wanted.map VecAccess.address := fun a => (hperm.map VecAccess.address).mem_iff
  have hper := (perReg_le t).right
  have hsmall : forall f, f < t.vl -> f < 512 := fun f hf => by omega
  have hvl : e < t.vl := hmod ▸ he
  rw [Bool.eq_iff_iff]
  constructor
  · intro hread
    obtain ⟨f, hf, hactive, haddress⟩ := mem_wanted_address.mp
      ((hmem (t.address e)).mp (mem_slice_address.mpr ⟨e, hin, he, by simp [hread], rfl⟩))
    rw [address_inj t (hsmall f hf) (hsmall e hvl) haddress] at hactive
    simpa [active, hvm] using hactive
  · intro hbit
    obtain ⟨f, _, hf, hread, haddress⟩ := mem_slice_address.mp
      ((hmem (t.address e)).mpr (mem_wanted_address.mpr ⟨e, hvl, by simp [active, hbit], rfl⟩))
    rw [address_inj t (hsmall f (hmod ▸ hf)) (hsmall e hvl) haddress] at hread
    simpa [hvm] using hread

/--
On several registers the first address would be accessed twice.
-/
theorem slice_nil_of_wanted (hgroup : t.lmul ≠ 1) (hperm : (t.log finish).Perm t.wanted) :
    t.slice 0 = [] ∧ t.wanted = [] := by
  obtain ⟨ks, _, hlength, hlog⟩ := log_of_executes hfetch hsteady h
  have hcount : 2 <= t.count := by
    rcases lmul_count t with ⟨hl, hc⟩ | ⟨hl, hc⟩ | ⟨hl, hc⟩ | ⟨hl, hc⟩ <;> omega
  have hnodup : ((t.log finish).map VecAccess.address).Nodup :=
    (hperm.map VecAccess.address).nodup_iff.mpr (wanted_nodup t)
  obtain ⟨j, k, rest, hks⟩ : exists j k rest, ks = j :: k :: rest := by
    cases ks with
    | nil => exact absurd hcount (Nat.not_le_of_lt (hlength ▸ Nat.zero_lt_two))
    | cons j l =>
        cases l with
        | nil => exact absurd hcount (Nat.not_le_of_lt (hlength ▸ Nat.one_lt_two))
        | cons k rest => exact ⟨j, k, rest, rfl⟩
  have hslice : t.slice 0 = [] := by
    rw [hlog, hks, List.flatMap_cons, List.flatMap_cons, List.map_append, List.map_append,
      slice_addresses t j 0, slice_addresses t k 0] at hnodup
    have hdisjoint := List.disjoint_of_nodup_append hnodup
    cases hzero : t.slice 0 with
    | nil => rfl
    | cons a l =>
        rw [hzero] at hdisjoint
        exact absurd (List.mem_append_left _ List.mem_cons_self)
          (hdisjoint (a := a.address) List.mem_cons_self)
  have hall : forall k, t.slice k = [] := fun k =>
    slice_eq_nil.mpr (slice_eq_nil.mp hslice)
  refine ⟨hslice, ?_⟩
  have hempty : t.log finish = [] := by
    rw [hlog]
    exact List.flatMap_eq_nil_iff.mpr fun k _ => hall k
  rw [hempty] at hperm
  exact hperm.nil_eq.symm

theorem wanted_of_inactive (hmask : t.MaskRead)
    (hnone : forall e, e < t.vl -> t.active e = false) :
    t.log finish = t.wanted := by
  obtain ⟨ks, _, _, hlog⟩ := log_of_executes hfetch hsteady h
  have hslice : forall k, t.slice k = [] := by
    intro k
    apply slice_eq_nil.mpr
    intro e hin he
    have hoff := hnone e (Nat.lt_of_lt_of_le he (Nat.mod_le _ _))
    simp only [active, Bool.or_eq_false_iff] at hoff ⊢
    exact ⟨hoff.left, (hmask hoff.left e hin he).trans hoff.right⟩
  rw [hlog, wanted_eq_nil.mpr hnone]
  exact List.flatMap_eq_nil_iff.mpr fun k _ => hslice k

theorem conditions_of_wanted (hperm : (t.log finish).Perm t.wanted) :
    t.MaskRead ∧ t.SingleOrIdle := by
  rcases Nat.decEq t.lmul 1 with hgroup | hsingle
  · obtain ⟨hslice, hwanted⟩ := slice_nil_of_wanted hfetch hsteady h hgroup hperm
    have hnone := wanted_eq_nil.mp hwanted
    refine ⟨?_, Or.inr hnone⟩
    intro hvm e hin he
    have hread := slice_eq_nil.mp hslice e hin he
    have hoff := hnone e (Nat.lt_of_lt_of_le he (Nat.mod_le _ _))
    simp only [active, hvm, Bool.false_or] at hread hoff
    rw [hread, hoff]
  · exact ⟨mask_of_wanted hfetch hsteady h hsingle hperm, Or.inl hsingle⟩

end

end VlsRun

end Core
end Ooo
end RvCores
