import RvCores.Lib.Ring
import Mathlib.Data.BitVec

/-!
# Load-store queue

Memory operations wait in program order and only the head may use the memory
port.  An access takes two cycles, the request and the cycle in which its data is
back; an atomic read-modify-write does a read access and then a write access
without leaving the head.
-/

namespace RvCores
namespace Ooo

open Lib

inductive LsqOp where
  | load
  | store
  | sc
  | amoRmw
deriving DecidableEq, Repr

structure LsqEntry where
  valid : Bool
  opType : LsqOp
  amoOp : BitVec 5
  basePreg : Nat
  baseReady : Bool
  imm : BitVec 64
  funct3 : BitVec 3
  storeDataPreg : Nat
  storeDataReady : Bool
  destPreg : Nat
  robTag : Nat
  pc : BitVec 64

structure LoadStoreQueue where
  entry : Nat -> LsqEntry
  count : Nat
  head : Nat
  tail : Nat
  memPending : Bool
  amoNeedWrite : Bool
  amoOldValue : BitVec 64

structure LsqIn where
  dispEn0 : Bool
  disp0 : LsqEntry
  dispEn1 : Bool
  disp1 : LsqEntry
  cdb : List (Option Nat)
  memStallExt : Bool
  forceRetireExt : Bool
  memReadData : BitVec 64

namespace LsqIn

def dispCount (i : LsqIn) : Nat := i.dispEn0.toNat + i.dispEn1.toNat

end LsqIn

namespace LoadStoreQueue

def entries : Nat := 8

def amoF5Add : BitVec 5 := 0b00000
def amoF5Swap : BitVec 5 := 0b00001
def amoF5Lr : BitVec 5 := 0b00010
def amoF5Sc : BitVec 5 := 0b00011
def amoF5Xor : BitVec 5 := 0b00100
def amoF5Or : BitVec 5 := 0b01000
def amoF5And : BitVec 5 := 0b01100
def amoF5Min : BitVec 5 := 0b10000
def amoF5Max : BitVec 5 := 0b10100
def amoF5Minu : BitVec 5 := 0b11000
def amoF5Maxu : BitVec 5 := 0b11100

def full (lsq : LoadStoreQueue) : Bool := decide (lsq.count >= entries)

def headEntry (lsq : LoadStoreQueue) : LsqEntry := lsq.entry lsq.head

def headPresent (lsq : LoadStoreQueue) : Bool :=
  !decide (lsq.count = 0) && lsq.headEntry.valid

def headIsAmo (lsq : LoadStoreQueue) : Bool := decide (lsq.headEntry.opType = .amoRmw)

def headNeedsData (lsq : LoadStoreQueue) : Bool := decide (lsq.headEntry.opType ≠ .load)

def headWantsRead (lsq : LoadStoreQueue) : Bool :=
  match lsq.headEntry.opType with
  | .load => true
  | .amoRmw => !lsq.amoNeedWrite
  | _ => false

def headWantsWrite (lsq : LoadStoreQueue) : Bool :=
  match lsq.headEntry.opType with
  | .store => true
  | .sc => true
  | .amoRmw => lsq.amoNeedWrite
  | .load => false

def headWantAccess (lsq : LoadStoreQueue) : Bool :=
  lsq.headPresent && !lsq.memPending && lsq.headEntry.baseReady &&
    (!lsq.headNeedsData || lsq.headEntry.storeDataReady)

def headReady (lsq : LoadStoreQueue) (memStallExt : Bool) : Bool :=
  lsq.headWantAccess && !memStallExt

def memRead (lsq : LoadStoreQueue) (memStallExt : Bool) : Bool :=
  lsq.headReady memStallExt && lsq.headWantsRead

def memWrite (lsq : LoadStoreQueue) (memStallExt : Bool) : Bool :=
  lsq.headReady memStallExt && lsq.headWantsWrite

def memAddress (lsq : LoadStoreQueue) (baseValue : BitVec 64) : BitVec 64 :=
  baseValue + lsq.headEntry.imm

def amoNewValue (op : BitVec 5) (old rs2 : BitVec 64) : BitVec 64 :=
  if op = amoF5Add then old + rs2
  else if op = amoF5Swap then rs2
  else if op = amoF5Xor then old ^^^ rs2
  else if op = amoF5Or then old ||| rs2
  else if op = amoF5And then old &&& rs2
  else if op = amoF5Min then if old.slt rs2 then old else rs2
  else if op = amoF5Max then if rs2.slt old then old else rs2
  else if op = amoF5Minu then if old.ult rs2 then old else rs2
  else if op = amoF5Maxu then if rs2.ult old then old else rs2
  else rs2

def memWriteData (lsq : LoadStoreQueue) (storeDataValue : BitVec 64) : BitVec 64 :=
  if lsq.headIsAmo && lsq.amoNeedWrite then
    amoNewValue lsq.headEntry.amoOp lsq.amoOldValue storeDataValue
  else storeDataValue

def amoPhase1JustFinished (lsq : LoadStoreQueue) : Bool :=
  lsq.memPending && lsq.headIsAmo && !lsq.amoNeedWrite

def completeValid (lsq : LoadStoreQueue) : Bool :=
  lsq.memPending && !lsq.amoPhase1JustFinished

def completeIsLoad (lsq : LoadStoreQueue) : Bool :=
  !decide (lsq.headEntry.opType = .store)

def completeData (lsq : LoadStoreQueue) (readData : BitVec 64) : BitVec 64 :=
  match lsq.headEntry.opType with
  | .sc => 0
  | .amoRmw => lsq.amoOldValue
  | _ => readData

def reset (lsq : LoadStoreQueue) : LoadStoreQueue :=
  { lsq with
    entry := fun k =>
      if k < entries then { lsq.entry k with valid := false } else lsq.entry k
    count := 0
    head := 0
    tail := 0
    memPending := false
    amoNeedWrite := false }

def broadcast (cdb : List (Option Nat)) (preg : Nat) : Bool :=
  cdb.any (fun port => decide (port = some preg))

def wakeup (cdb : List (Option Nat)) (e : LsqEntry) : LsqEntry :=
  { e with
    baseReady := e.baseReady || (e.valid && broadcast cdb e.basePreg)
    storeDataReady :=
      e.storeDataReady ||
        (e.valid && decide (e.opType ≠ .load) && broadcast cdb e.storeDataPreg) }

/--
The head leaves in a cycle in which its access completes or it is forced out
by a page fault.
-/
def leaves (lsq : LoadStoreQueue) (i : LsqIn) : Bool :=
  i.forceRetireExt ||
    (!lsq.headReady i.memStallExt && lsq.memPending && !lsq.amoPhase1JustFinished)

def dispatchAt (en : Bool) (slot : Nat) (e : LsqEntry) (entry : Nat -> LsqEntry) :
    Nat -> LsqEntry :=
  if en then setAt entry slot { e with valid := true } else entry

def step (lsq : LoadStoreQueue) (i : LsqIn) : LoadStoreQueue :=
  let woken := fun k =>
    if k < entries then wakeup i.cdb (lsq.entry k) else lsq.entry k
  let left :=
    if lsq.leaves i then
      modifyAt woken lsq.head (fun e => { e with valid := false })
    else woken
  let phase1 := !i.forceRetireExt && !lsq.headReady i.memStallExt &&
    lsq.amoPhase1JustFinished
  { entry :=
      dispatchAt i.dispEn1 (wrapAdd entries lsq.tail 1) i.disp1
        (dispatchAt i.dispEn0 lsq.tail i.disp0 left)
    count :=
      lsq.count - (lsq.completeValid || i.forceRetireExt).toNat + i.dispCount
    head := if lsq.leaves i then wrapAdd entries lsq.head 1 else lsq.head
    tail :=
      if i.dispCount != 0 then wrapAdd entries lsq.tail i.dispCount else lsq.tail
    memPending :=
      if i.forceRetireExt then lsq.memPending
      else if lsq.headReady i.memStallExt then true
      else false
    amoNeedWrite :=
      if lsq.leaves i then false else if phase1 then true else lsq.amoNeedWrite
    amoOldValue := if phase1 then i.memReadData else lsq.amoOldValue }

/-!
# The queue as a window
-/

structure WellFormed (lsq : LoadStoreQueue) : Prop where
  head_lt : lsq.head < entries
  count_le : lsq.count <= entries
  tail_eq : lsq.tail = wrapAdd entries lsq.head lsq.count
  valid : forall k, InWindow entries lsq.head lsq.count k -> (lsq.entry k).valid = true
  pending : lsq.memPending = true -> 0 < lsq.count

/--
What the core promises: one slot, room for it, and a forced retirement only of
a head that waits to start its access.
-/
structure Fits (lsq : LoadStoreQueue) (i : LsqIn) : Prop where
  single : i.dispEn1 = false
  room : i.dispEn0 = true -> lsq.count < entries
  forced : i.forceRetireExt = true -> lsq.headWantAccess = true

section Step

variable {lsq : LoadStoreQueue} {i : LsqIn}

theorem count_pos_of_headWantAccess (h : lsq.headWantAccess = true) : 0 < lsq.count := by
  simp only [headWantAccess, headPresent, Bool.and_eq_true, Bool.not_eq_true',
    decide_eq_false_iff_not] at h
  omega

theorem memPending_of_headWantAccess (h : lsq.headWantAccess = true) :
    lsq.memPending = false := by
  simp only [headWantAccess, Bool.and_eq_true, Bool.not_eq_true'] at h
  exact h.left.left.right

theorem leaves_eq (lsq : LoadStoreQueue) (i : LsqIn) :
    lsq.leaves i = (lsq.completeValid || i.forceRetireExt) := by
  cases hpending : lsq.memPending with
  | false => simp [leaves, completeValid, hpending]
  | true =>
      have hready : lsq.headReady i.memStallExt = false := by
        simp [headReady, headWantAccess, hpending]
      simp [leaves, completeValid, hready, hpending, Bool.or_comm]

theorem count_pos_of_leaves (hwf : lsq.WellFormed) (hfits : lsq.Fits i)
    (h : lsq.leaves i = true) : 0 < lsq.count := by
  rw [leaves_eq, Bool.or_eq_true] at h
  rcases h with hcomplete | hforce
  · simp only [completeValid, Bool.and_eq_true] at hcomplete
    exact hwf.pending hcomplete.left
  · exact count_pos_of_headWantAccess (hfits.forced hforce)

theorem step_count (hfits : lsq.Fits i) :
    (lsq.step i).count = lsq.count - (lsq.leaves i).toNat + i.dispEn0.toNat := by
  change lsq.count - (lsq.completeValid || i.forceRetireExt).toNat + i.dispCount = _
  rw [leaves_eq, LsqIn.dispCount, hfits.single]
  rfl

theorem step_head (hwf : lsq.WellFormed) :
    (lsq.step i).head = wrapAdd entries lsq.head (lsq.leaves i).toNat := by
  change (if lsq.leaves i then wrapAdd entries lsq.head 1 else lsq.head) = _
  cases lsq.leaves i with
  | true => rfl
  | false => simp [wrapAdd_zero hwf.head_lt]

theorem tail_lt (hwf : lsq.WellFormed) : lsq.tail < entries := by
  rw [hwf.tail_eq]
  exact wrapAdd_lt hwf.head_lt hwf.count_le

theorem step_tail (hwf : lsq.WellFormed) (hfits : lsq.Fits i) :
    (lsq.step i).tail = wrapAdd entries lsq.tail i.dispEn0.toNat := by
  change (if i.dispCount != 0 then wrapAdd entries lsq.tail i.dispCount else lsq.tail) = _
  cases hen : i.dispEn0 <;>
    simp [LsqIn.dispCount, hfits.single, hen, wrapAdd_zero (tail_lt hwf)]

theorem step_entry (hfits : lsq.Fits i) {k : Nat} (hk : k < entries) :
    (lsq.step i).entry k =
      if i.dispEn0 = true ∧ k = lsq.tail then { i.disp0 with valid := true }
      else if lsq.leaves i = true ∧ k = lsq.head then
        { wakeup i.cdb (lsq.entry k) with valid := false }
      else wakeup i.cdb (lsq.entry k) := by
  have hleft : (if lsq.leaves i then
        modifyAt (fun k => if k < entries then wakeup i.cdb (lsq.entry k) else lsq.entry k)
          lsq.head (fun e => { e with valid := false })
      else fun k => if k < entries then wakeup i.cdb (lsq.entry k) else lsq.entry k) k =
      if lsq.leaves i = true ∧ k = lsq.head then
        { wakeup i.cdb (lsq.entry k) with valid := false }
      else wakeup i.cdb (lsq.entry k) := by
    cases lsq.leaves i with
    | false => simp [hk]
    | true =>
        by_cases hhead : k = lsq.head
        · simp [hhead, hhead ▸ hk]
        · simp [modifyAt_of_ne hhead, hk, hhead]
  change dispatchAt i.dispEn1 (wrapAdd entries lsq.tail 1) i.disp1
    (dispatchAt i.dispEn0 lsq.tail i.disp0 (if lsq.leaves i then _ else _)) k = _
  rw [dispatchAt, hfits.single, if_neg (by simp), <- hleft]
  cases hen : i.dispEn0 with
  | false => simp [dispatchAt]
  | true =>
      by_cases htail : k = lsq.tail
      · simp [dispatchAt, htail]
      · simp [dispatchAt, setAt_of_ne htail, htail]

/--
An operation in the queue was there before and stays, or was dispatched now.
-/
theorem step_window_cases (hwf : lsq.WellFormed) (hfits : lsq.Fits i) {k : Nat}
    (h : InWindow entries (lsq.step i).head (lsq.step i).count k) :
    (InWindow entries lsq.head lsq.count k ∧ (lsq.leaves i = true -> k ≠ lsq.head) ∧
        (lsq.step i).entry k = wakeup i.cdb (lsq.entry k)) ∨
      (i.dispEn0 = true ∧ k = lsq.tail ∧
        (lsq.step i).entry k = { i.disp0 with valid := true }) := by
  have hcount := hwf.count_le
  have hleaves : (lsq.leaves i).toNat <= lsq.count := by
    cases hl : lsq.leaves i with
    | false => exact Nat.zero_le _
    | true => exact count_pos_of_leaves hwf hfits hl
  have hdisp : lsq.count + i.dispEn0.toNat <= entries := by
    cases hen : i.dispEn0 with
    | false => simpa using hcount
    | true => exact hfits.room hen
  have hsub : lsq.count - (lsq.leaves i).toNat + i.dispEn0.toNat =
      lsq.count + i.dispEn0.toNat - (lsq.leaves i).toNat := by omega
  rw [step_head hwf, step_count hfits, hsub,
    inWindow_wrapAdd hwf.head_lt hdisp (by omega)] at h
  rcases h with ⟨j, hleft, hj, hk⟩
  have hlt : k < entries := by
    rw [hk]
    exact wrapAdd_lt hwf.head_lt (by omega)
  by_cases hold : j < lsq.count
  · left
    have hwindow : InWindow entries lsq.head lsq.count k := ⟨j, hold, hk⟩
    have hhead : lsq.leaves i = true -> k ≠ lsq.head := by
      intro hl heq
      have hwrap : wrapAdd entries lsq.head j = wrapAdd entries lsq.head 0 := by
        rw [<- hk, heq, wrapAdd_zero hwf.head_lt]
      have hzero : j = 0 := wrapAdd_injective (by omega) (by omega) hwrap
      simp [hl] at hleft
      omega
    have htail : ¬ (i.dispEn0 = true ∧ k = lsq.tail) := by
      rintro ⟨hen, heq⟩
      have hroom := hfits.room hen
      rw [hwf.tail_eq] at heq
      exact not_inWindow_tail hroom (Nat.le_refl _) (heq ▸ hwindow)
    refine ⟨hwindow, hhead, ?_⟩
    rw [step_entry hfits hlt, if_neg htail, if_neg (fun hand => hhead hand.left hand.right)]
  · right
    cases hen : i.dispEn0 with
    | false =>
        simp [hen] at hj
        omega
    | true =>
        simp [hen] at hj
        have htail : k = lsq.tail := by
          rw [hk, hwf.tail_eq]
          congr 1
          omega
        refine ⟨rfl, htail, ?_⟩
        rw [step_entry hfits hlt, if_pos ⟨hen, htail⟩]

theorem step_wellFormed (hwf : lsq.WellFormed) (hfits : lsq.Fits i) :
    (lsq.step i).WellFormed := by
  have hcount := hwf.count_le
  have hleaves : (lsq.leaves i).toNat <= lsq.count := by
    cases hl : lsq.leaves i with
    | false => exact Nat.zero_le _
    | true => exact count_pos_of_leaves hwf hfits hl
  have hdisp : lsq.count + i.dispEn0.toNat <= entries := by
    cases hen : i.dispEn0 with
    | false => simpa using hcount
    | true => exact hfits.room hen
  constructor
  · rw [step_head hwf]
    exact wrapAdd_lt hwf.head_lt (by omega)
  · rw [step_count hfits]
    omega
  · rw [step_tail hwf hfits, step_head hwf, step_count hfits, hwf.tail_eq,
      wrapAdd_wrapAdd hwf.head_lt (by omega), wrapAdd_wrapAdd hwf.head_lt (by omega)]
    congr 1
    omega
  · intro k hk
    rcases step_window_cases hwf hfits hk with ⟨hwindow, _, hentry⟩ | ⟨_, _, hentry⟩
    · rw [hentry]
      exact hwf.valid k hwindow
    · rw [hentry]
  · intro hpending
    have hforce : i.forceRetireExt = false := by
      cases hforce : i.forceRetireExt with
      | false => rfl
      | true =>
          have hidle := memPending_of_headWantAccess (hfits.forced hforce)
          simp [step, hforce, hidle] at hpending
    have hready : lsq.headReady i.memStallExt = true := by
      cases hready : lsq.headReady i.memStallExt with
      | true => rfl
      | false => simp [step, hforce, hready] at hpending
    simp only [headReady, Bool.and_eq_true] at hready
    have hpos := count_pos_of_headWantAccess hready.left
    have hidle := memPending_of_headWantAccess hready.left
    have hstay : lsq.leaves i = false := by
      simp [leaves_eq, completeValid, hidle, hforce]
    rw [step_count hfits, hstay]
    simp only [Bool.toNat_false]
    omega

end Step

theorem reset_wellFormed (lsq : LoadStoreQueue) : lsq.reset.WellFormed := by
  constructor
  · exact Nat.zero_lt_succ 7
  · exact Nat.zero_le entries
  · rfl
  · intro k hk
    exact absurd hk (not_inWindow_zero entries 0 k)
  · intro h
    simp [reset] at h

end LoadStoreQueue
end Ooo
end RvCores
