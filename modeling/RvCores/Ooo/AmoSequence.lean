import RvCores.Ooo.Amo
import RvCores.Ooo.Wakeup

/-!
# Atomic operations at the memory port

The queue works on an atomic operation in four phases: it waits for the read, has the read
under way, waits for the write with the old value in hand, and has the write under way.
The record of the accesses made for the operation at the head says which phase it is in.
-/

namespace RvCores
namespace Ooo

open Lib

inductive QueueAccess where
  | read (address : BitVec 64) (funct3 : BitVec 3)
  | write (address : BitVec 64) (funct3 : BitVec 3) (value : BitVec 64)
deriving DecidableEq, Repr

namespace LoadStoreQueue

def access (lsq : LoadStoreQueue) (memStallExt : Bool) (reg : Nat -> BitVec 64) :
    List (QueueAccess) :=
  if lsq.memRead memStallExt then
    [.read (lsq.memAddress (reg lsq.headEntry.basePreg)) lsq.headEntry.funct3]
  else if lsq.memWrite memStallExt then
    [.write (lsq.memAddress (reg lsq.headEntry.basePreg)) lsq.headEntry.funct3
      (lsq.memWriteData (reg lsq.headEntry.storeDataPreg))]
  else []

/-!
# The head from one cycle to the next
-/

section Head

variable {lsq : LoadStoreQueue} {i : LsqIn}

theorem step_head_of_stays (hwf : lsq.WellFormed) (hstay : lsq.leaves i = false) :
    (lsq.step i).head = lsq.head := by
  rw [step_head hwf, hstay]
  exact wrapAdd_zero hwf.head_lt

theorem step_headEntry (hwf : lsq.WellFormed) (hfits : lsq.Fits i)
    (hstay : lsq.leaves i = false) (hpos : 0 < lsq.count) :
    (lsq.step i).headEntry = wakeup i.cdb lsq.headEntry := by
  have htail : ¬ (i.dispEn0 = true ∧ lsq.head = lsq.tail) := by
    rintro ⟨hen, heq⟩
    have hroom := hfits.room hen
    rw [hwf.tail_eq] at heq
    have hwindow : InWindow entries lsq.head lsq.count (wrapAdd entries lsq.head lsq.count) := by
      rw [<- heq]
      exact ⟨0, hpos, (wrapAdd_zero hwf.head_lt).symm⟩
    exact not_inWindow_tail hroom (Nat.le_refl _) hwindow
  rw [headEntry, step_head_of_stays hwf hstay, step_entry hfits hwf.head_lt, if_neg htail,
    if_neg (by simp [hstay])]
  rfl

theorem wakeup_ready {cdb : List (Option Nat)} {e : LsqEntry} (h : e.baseReady = true) :
    (wakeup cdb e).baseReady = true := by
  simp [wakeup, h]

theorem wakeup_dataReady {cdb : List (Option Nat)} {e : LsqEntry}
    (h : e.storeDataReady = true) : (wakeup cdb e).storeDataReady = true := by
  simp [wakeup, h]

theorem headPresent_of_count_pos (hwf : lsq.WellFormed) (hpos : 0 < lsq.count) :
    lsq.headPresent = true := by
  have hvalid := hwf.valid lsq.head ⟨0, hpos, (wrapAdd_zero hwf.head_lt).symm⟩
  have hne : lsq.count ≠ 0 := by omega
  simp [headPresent, headEntry, hvalid, hne]

theorem step_count_pos (hfits : lsq.Fits i) (hstay : lsq.leaves i = false)
    (hpos : 0 < lsq.count) : 0 < (lsq.step i).count := by
  rw [step_count hfits, hstay]
  simp only [Bool.toNat_false]
  omega

theorem forceRetire_of_stays (hstay : lsq.leaves i = false) : i.forceRetireExt = false := by
  rw [leaves_eq, Bool.or_eq_false_iff] at hstay
  exact hstay.right

theorem completeValid_of_stays (hstay : lsq.leaves i = false) : lsq.completeValid = false := by
  rw [leaves_eq, Bool.or_eq_false_iff] at hstay
  exact hstay.left

theorem step_memPending_of_stays (hstay : lsq.leaves i = false) :
    (lsq.step i).memPending = lsq.headReady i.memStallExt := by
  change (if i.forceRetireExt then lsq.memPending
    else if lsq.headReady i.memStallExt then true else false) = _
  rw [forceRetire_of_stays hstay]
  cases lsq.headReady i.memStallExt <;> rfl

theorem step_memPending_of_leaves (hfits : lsq.Fits i) (hleaves : lsq.leaves i = true) :
    (lsq.step i).memPending = false := by
  change (if i.forceRetireExt then lsq.memPending
    else if lsq.headReady i.memStallExt then true else false) = false
  cases hforce : i.forceRetireExt with
  | true => exact memPending_of_headWantAccess (hfits.forced hforce)
  | false =>
      rw [leaves_eq, hforce, Bool.or_false] at hleaves
      simp only [completeValid, Bool.and_eq_true] at hleaves
      have hready : lsq.headReady i.memStallExt = false := by
        simp [headReady, headWantAccess, hleaves.left]
      rw [hready]
      rfl

theorem step_amoNeedWrite_of_leaves (hleaves : lsq.leaves i = true) :
    (lsq.step i).amoNeedWrite = false := by
  change (if lsq.leaves i then false else _) = false
  rw [hleaves]
  rfl

theorem not_headReady_of_memPending (h : lsq.memPending = true) (memStallExt : Bool) :
    lsq.headReady memStallExt = false := by
  simp [headReady, headWantAccess, h]

theorem step_amoNeedWrite_of_stays (hstay : lsq.leaves i = false) :
    (lsq.step i).amoNeedWrite = (lsq.amoPhase1JustFinished || lsq.amoNeedWrite) := by
  change (if lsq.leaves i then false
    else if !i.forceRetireExt && !lsq.headReady i.memStallExt && lsq.amoPhase1JustFinished
      then true else lsq.amoNeedWrite) = _
  rw [hstay, forceRetire_of_stays hstay]
  cases hphase : lsq.amoPhase1JustFinished with
  | false => simp
  | true =>
      have hpending : lsq.memPending = true := by
        simp only [amoPhase1JustFinished, Bool.and_eq_true] at hphase
        exact hphase.left.left
      simp [not_headReady_of_memPending hpending]

theorem step_amoOldValue_of_stays (hstay : lsq.leaves i = false) :
    (lsq.step i).amoOldValue =
      if lsq.amoPhase1JustFinished then i.memReadData else lsq.amoOldValue := by
  change (if !i.forceRetireExt && !lsq.headReady i.memStallExt && lsq.amoPhase1JustFinished
    then i.memReadData else lsq.amoOldValue) = _
  rw [forceRetire_of_stays hstay]
  cases hphase : lsq.amoPhase1JustFinished with
  | false => simp
  | true =>
      have hpending : lsq.memPending = true := by
        simp only [amoPhase1JustFinished, Bool.and_eq_true] at hphase
        exact hphase.left.left
      simp [not_headReady_of_memPending hpending]

theorem access_of_not_headReady {memStallExt : Bool} {reg : Nat -> BitVec 64}
    (h : lsq.headReady memStallExt = false) : lsq.access memStallExt reg = [] := by
  simp [access, memRead, memWrite, h]

end Head

end LoadStoreQueue

/-!
# Runs of the queue
-/

/--
A run of the queue from reset, with the integer registers as its two read ports show them
in each cycle.  A register that the head's address is built from is not written while the
head waits, and a word comes from memory sign-extended.
-/
structure LsqRun where
  lsq : Nat -> LoadStoreQueue
  input : Nat -> LsqIn
  reg : Nat -> Nat -> BitVec 64
  reset : exists q : LoadStoreQueue, lsq 0 = q.reset
  step : forall n, lsq (n + 1) = (lsq n).step (input n)
  fits : forall n, (lsq n).Fits (input n)
  held : forall n, (lsq n).headPresent = true -> (lsq n).headEntry.baseReady = true ->
    (lsq n).leaves (input n) = false ->
      reg (n + 1) (lsq n).headEntry.basePreg = reg n (lsq n).headEntry.basePreg
  words : forall n, (lsq n).memRead (input n).memStallExt = true ->
    (lsq n).headEntry.funct3 = 0b010 ->
      exists word : BitVec 32, (input (n + 1)).memReadData = word.signExtend 64

namespace LsqRun

open LoadStoreQueue

variable (t : LsqRun)

def leaves (n : Nat) : Bool := (t.lsq n).leaves (t.input n)

def access (n : Nat) : List QueueAccess :=
  (t.lsq n).access (t.input n).memStallExt (t.reg n)

/--
The accesses made so far, each with its cycle, for the operation that is at the head.
-/
def served : Nat -> List (Nat × QueueAccess)
  | 0 => []
  | n + 1 => if t.leaves n then [] else served n ++ (t.access n).map (fun a => (n, a))

def address (n : Nat) : BitVec 64 :=
  (t.lsq n).memAddress (t.reg n (t.lsq n).headEntry.basePreg)

def funct3 (n : Nat) : BitVec 3 := (t.lsq n).headEntry.funct3

def operand (n : Nat) : BitVec 64 := t.reg n (t.lsq n).headEntry.storeDataPreg

theorem wellFormed (n : Nat) : (t.lsq n).WellFormed := by
  induction n with
  | zero =>
      rcases t.reset with ⟨q, hq⟩
      rw [hq]
      exact reset_wellFormed q
  | succ n ih =>
      rw [t.step n]
      exact step_wellFormed ih (t.fits n)

/-!
# The head of a run
-/

section Stays

variable {t} {n : Nat}

theorem served_of_stays (hstay : t.leaves n = false) :
    t.served (n + 1) = t.served n ++ (t.access n).map (fun a => (n, a)) := by
  simp [served, hstay]

theorem headEntry_succ (hstay : t.leaves n = false) (hpos : 0 < (t.lsq n).count) :
    (t.lsq (n + 1)).headEntry = wakeup (t.input n).cdb (t.lsq n).headEntry := by
  rw [t.step n]
  exact step_headEntry (t.wellFormed n) (t.fits n) hstay hpos

theorem headIsAmo_succ (hstay : t.leaves n = false) (hpos : 0 < (t.lsq n).count) :
    (t.lsq (n + 1)).headIsAmo = (t.lsq n).headIsAmo := by
  rw [headIsAmo, headEntry_succ hstay hpos]
  rfl

theorem amoOp_succ (hstay : t.leaves n = false) (hpos : 0 < (t.lsq n).count) :
    (t.lsq (n + 1)).headEntry.amoOp = (t.lsq n).headEntry.amoOp := by
  rw [headEntry_succ hstay hpos]
  rfl

theorem funct3_succ (hstay : t.leaves n = false) (hpos : 0 < (t.lsq n).count) :
    t.funct3 (n + 1) = t.funct3 n := by
  rw [funct3, headEntry_succ hstay hpos]
  rfl

theorem baseReady_succ (hstay : t.leaves n = false) (hpos : 0 < (t.lsq n).count)
    (hready : (t.lsq n).headEntry.baseReady = true) :
    (t.lsq (n + 1)).headEntry.baseReady = true := by
  rw [headEntry_succ hstay hpos]
  exact wakeup_ready hready

theorem address_succ (hstay : t.leaves n = false) (hpos : 0 < (t.lsq n).count)
    (hready : (t.lsq n).headEntry.baseReady = true) : t.address (n + 1) = t.address n := by
  have hheld := t.held n (headPresent_of_count_pos (t.wellFormed n) hpos) hready hstay
  rw [address, memAddress, headEntry_succ hstay hpos]
  exact congrArg (fun v => v + (t.lsq n).headEntry.imm) hheld

theorem count_pos_succ (hstay : t.leaves n = false) (hpos : 0 < (t.lsq n).count) :
    0 < (t.lsq (n + 1)).count := by
  rw [t.step n]
  exact step_count_pos (t.fits n) hstay hpos

theorem memPending_succ (hstay : t.leaves n = false) :
    (t.lsq (n + 1)).memPending = (t.lsq n).headReady (t.input n).memStallExt := by
  rw [t.step n]
  exact step_memPending_of_stays hstay

theorem amoNeedWrite_succ (hstay : t.leaves n = false) :
    (t.lsq (n + 1)).amoNeedWrite =
      ((t.lsq n).amoPhase1JustFinished || (t.lsq n).amoNeedWrite) := by
  rw [t.step n]
  exact step_amoNeedWrite_of_stays hstay

theorem amoOldValue_succ (hstay : t.leaves n = false) :
    (t.lsq (n + 1)).amoOldValue =
      if (t.lsq n).amoPhase1JustFinished then (t.input n).memReadData
      else (t.lsq n).amoOldValue := by
  rw [t.step n]
  exact step_amoOldValue_of_stays hstay

end Stays

/-!
# Phases
-/

/--
The head is an atomic operation whose read was made in cycle r.
-/
structure HasRead (n r : Nat) : Prop where
  amo : (t.lsq n).headIsAmo = true
  pos : 0 < (t.lsq n).count
  ready : (t.lsq n).headEntry.baseReady = true
  word : t.funct3 n = 0b010 ->
    exists word : BitVec 32, (t.input (r + 1)).memReadData = word.signExtend 64

theorem HasRead.succ {t : LsqRun} {n r : Nat} (h : t.HasRead n r) (hstay : t.leaves n = false) :
    t.HasRead (n + 1) r := by
  constructor
  · rw [headIsAmo_succ hstay h.pos]
    exact h.amo
  · exact count_pos_succ hstay h.pos
  · exact baseReady_succ hstay h.pos h.ready
  · rw [funct3_succ hstay h.pos]
    exact h.word

inductive Phase (n : Nat) : Prop where
  | waiting (hpending : (t.lsq n).memPending = false) (hneed : (t.lsq n).amoNeedWrite = false)
      (hserved : t.served n = [])
  | other (hpending : (t.lsq n).memPending = true) (hneed : (t.lsq n).amoNeedWrite = false)
      (hamo : (t.lsq n).headIsAmo = false)
  | reading (r : Nat) (hread : t.HasRead n r) (hr : n = r + 1)
      (hpending : (t.lsq n).memPending = true) (hneed : (t.lsq n).amoNeedWrite = false)
      (hserved : t.served n = [(r, .read (t.address n) (t.funct3 n))])
  | holding (r : Nat) (hread : t.HasRead n r) (hr : r + 1 < n)
      (hpending : (t.lsq n).memPending = false) (hneed : (t.lsq n).amoNeedWrite = true)
      (hold : (t.lsq n).amoOldValue = (t.input (r + 1)).memReadData)
      (hserved : t.served n = [(r, .read (t.address n) (t.funct3 n))])
  | writing (r w : Nat) (hread : t.HasRead n r) (hr : r + 1 < w) (hw : n = w + 1)
      (hpending : (t.lsq n).memPending = true) (hneed : (t.lsq n).amoNeedWrite = true)
      (hold : (t.lsq n).amoOldValue = (t.input (r + 1)).memReadData)
      (hserved : t.served n =
        [(r, .read (t.address n) (t.funct3 n)),
          (w, .write (t.address n) (t.funct3 n)
            (amoNewValue (t.lsq n).headEntry.amoOp (t.lsq n).amoOldValue (t.operand w)))])

section Phase

variable {t} {n : Nat}

theorem access_of_idle (h : (t.lsq n).headReady (t.input n).memStallExt = false) :
    t.access n = [] := access_of_not_headReady h

theorem access_of_read (h : (t.lsq n).headReady (t.input n).memStallExt = true)
    (hamo : (t.lsq n).headIsAmo = true) (hneed : (t.lsq n).amoNeedWrite = false) :
    t.access n = [.read (t.address n) (t.funct3 n)] := by
  have hop : (t.lsq n).headEntry.opType = .amoRmw := of_decide_eq_true hamo
  have hread : (t.lsq n).memRead (t.input n).memStallExt = true := by
    simp [memRead, h, headWantsRead, hop, hneed]
  rw [access, LoadStoreQueue.access, if_pos hread]
  rfl

theorem access_of_write (h : (t.lsq n).headReady (t.input n).memStallExt = true)
    (hamo : (t.lsq n).headIsAmo = true) (hneed : (t.lsq n).amoNeedWrite = true) :
    t.access n = [.write (t.address n) (t.funct3 n)
      (amoNewValue (t.lsq n).headEntry.amoOp (t.lsq n).amoOldValue (t.operand n))] := by
  have hop : (t.lsq n).headEntry.opType = .amoRmw := of_decide_eq_true hamo
  have hread : (t.lsq n).memRead (t.input n).memStallExt = false := by
    simp [memRead, headWantsRead, hop, hneed]
  have hwrite : (t.lsq n).memWrite (t.input n).memStallExt = true := by
    simp [memWrite, h, headWantsWrite, hop, hneed]
  rw [access, LoadStoreQueue.access, if_neg (by simp [hread]), if_pos hwrite, memWriteData,
    hamo, hneed]
  rfl

theorem phase_of_leaves (hleaves : t.leaves n = true) : t.Phase (n + 1) := by
  apply Phase.waiting
  · rw [t.step n]
    exact step_memPending_of_leaves (t.fits n) hleaves
  · rw [t.step n]
    exact step_amoNeedWrite_of_leaves hleaves
  · simp [served, hleaves]

theorem phase_of_waiting (hstay : t.leaves n = false)
    (hpending : (t.lsq n).memPending = false) (hneed : (t.lsq n).amoNeedWrite = false)
    (hserved : t.served n = []) : t.Phase (n + 1) := by
  have hphase : (t.lsq n).amoPhase1JustFinished = false := by
    simp [amoPhase1JustFinished, hpending]
  have hneed' : (t.lsq (n + 1)).amoNeedWrite = false := by
    rw [amoNeedWrite_succ hstay, hphase, hneed]
    rfl
  have hpending' := memPending_succ hstay
  cases hready : (t.lsq n).headReady (t.input n).memStallExt with
  | false =>
      refine Phase.waiting (hpending'.trans hready) hneed' ?_
      rw [served_of_stays hstay, hserved, access_of_idle hready]
      rfl
  | true =>
      have hwant : (t.lsq n).headWantAccess = true := by
        simp only [headReady, Bool.and_eq_true] at hready
        exact hready.left
      have hpos := count_pos_of_headWantAccess hwant
      cases hamo : (t.lsq n).headIsAmo with
      | false =>
          exact Phase.other (hpending'.trans hready) hneed'
            ((headIsAmo_succ hstay hpos).trans hamo)
      | true =>
          have hbase : (t.lsq n).headEntry.baseReady = true := by
            simp only [headWantAccess, Bool.and_eq_true] at hwant
            exact hwant.left.right
          have hop : (t.lsq n).headEntry.opType = .amoRmw := of_decide_eq_true hamo
          have hread : (t.lsq n).memRead (t.input n).memStallExt = true := by
            simp [memRead, hready, headWantsRead, hop, hneed]
          have hhas : t.HasRead n n := ⟨hamo, hpos, hbase, t.words n hread⟩
          refine Phase.reading n (hhas.succ hstay) rfl (hpending'.trans hready) hneed' ?_
          rw [served_of_stays hstay, hserved, access_of_read hready hamo hneed,
            address_succ hstay hpos hbase, funct3_succ hstay hpos]
          rfl

theorem phase_of_reading {r : Nat} (hread : t.HasRead n r) (hr : n = r + 1)
    (hstay : t.leaves n = false) (hpending : (t.lsq n).memPending = true)
    (hneed : (t.lsq n).amoNeedWrite = false)
    (hserved : t.served n = [(r, .read (t.address n) (t.funct3 n))]) : t.Phase (n + 1) := by
  have hready := not_headReady_of_memPending hpending (t.input n).memStallExt
  have hphase : (t.lsq n).amoPhase1JustFinished = true := by
    simp [amoPhase1JustFinished, hpending, hread.amo, hneed]
  refine Phase.holding r (hread.succ hstay) (by omega) ((memPending_succ hstay).trans hready)
    ?_ ?_ ?_
  · rw [amoNeedWrite_succ hstay, hphase]
    rfl
  · rw [amoOldValue_succ hstay, if_pos hphase, hr]
  · rw [served_of_stays hstay, hserved, access_of_idle hready,
      address_succ hstay hread.pos hread.ready, funct3_succ hstay hread.pos]
    rfl

theorem phase_of_holding {r : Nat} (hread : t.HasRead n r) (hr : r + 1 < n)
    (hstay : t.leaves n = false) (hpending : (t.lsq n).memPending = false)
    (hneed : (t.lsq n).amoNeedWrite = true)
    (hold : (t.lsq n).amoOldValue = (t.input (r + 1)).memReadData)
    (hserved : t.served n = [(r, .read (t.address n) (t.funct3 n))]) : t.Phase (n + 1) := by
  have hphase : (t.lsq n).amoPhase1JustFinished = false := by
    simp [amoPhase1JustFinished, hpending]
  have hneed' : (t.lsq (n + 1)).amoNeedWrite = true := by
    rw [amoNeedWrite_succ hstay, hneed, Bool.or_true]
  have hold' : (t.lsq (n + 1)).amoOldValue = (t.lsq n).amoOldValue := by
    rw [amoOldValue_succ hstay, if_neg (by simp [hphase])]
  have haddress := address_succ hstay hread.pos hread.ready
  have hfunct3 := funct3_succ hstay hread.pos
  have hpending' := memPending_succ hstay
  cases hready : (t.lsq n).headReady (t.input n).memStallExt with
  | false =>
      refine Phase.holding r (hread.succ hstay) (by omega) (hpending'.trans hready) hneed'
        (hold'.trans hold) ?_
      rw [served_of_stays hstay, hserved, access_of_idle hready, haddress, hfunct3]
      rfl
  | true =>
      refine Phase.writing r n (hread.succ hstay) hr rfl (hpending'.trans hready) hneed'
        (hold'.trans hold) ?_
      rw [served_of_stays hstay, hserved, access_of_write hready hread.amo hneed, haddress,
        hfunct3, hold', amoOp_succ hstay hread.pos]
      rfl

theorem phase (n : Nat) : t.Phase n := by
  induction n with
  | zero =>
      rcases t.reset with ⟨q, hq⟩
      apply Phase.waiting
      · rw [hq]
        rfl
      · rw [hq]
        rfl
      · rfl
  | succ n ih =>
      cases hleaves : t.leaves n with
      | true => exact phase_of_leaves hleaves
      | false =>
          have hcomplete := completeValid_of_stays hleaves
          cases ih with
          | waiting hpending hneed hserved =>
              exact phase_of_waiting hleaves hpending hneed hserved
          | other hpending hneed hamo =>
              simp [completeValid, amoPhase1JustFinished, hpending, hamo] at hcomplete
          | reading r hread hr hpending hneed hserved =>
              exact phase_of_reading hread hr hleaves hpending hneed hserved
          | holding r hread hr hpending hneed hold hserved =>
              exact phase_of_holding hread hr hleaves hpending hneed hold hserved
          | writing r w hread hr hw hpending hneed hold hserved =>
              simp [completeValid, amoPhase1JustFinished, hpending, hneed] at hcomplete

end Phase

/-!
# Completion
-/

def completes (n : Nat) (op : AmoOp) : Prop :=
  (t.lsq n).completeValid = true ∧ (t.lsq n).headIsAmo = true ∧
    (t.lsq n).headEntry.amoOp = op.funct5

/--
The value the manual has an access of the given width write.
-/
def writesResult (op : AmoOp) (funct3 : BitVec 3) (old rs2 value : BitVec 64) : Prop :=
  if funct3 = 0b010 then
    value.setWidth 32 = op.result (old.setWidth 32) (rs2.setWidth 32)
  else value = op.result old rs2

def comparesWell (op : AmoOp) (funct3 : BitVec 3) (old rs2 : BitVec 64) : Prop :=
  funct3 = 0b010 -> op.comparesWords (old.setWidth 32) rs2

theorem writesResult_iff (op : AmoOp) {funct3 : BitVec 3} {old : BitVec 64} (rs2 : BitVec 64)
    (hword : funct3 = 0b010 -> exists word : BitVec 32, old = word.signExtend 64) :
    writesResult op funct3 old rs2 (op.result old rs2) <-> comparesWell op funct3 old rs2 := by
  by_cases hfunct3 : funct3 = 0b010
  · rcases hword hfunct3 with ⟨word, hold⟩
    have hiff := AmoOp.result_word_iff word rs2 op
    rw [writesResult, if_pos hfunct3, hold, AmoOp.setWidth_extended, hiff]
    exact ⟨fun h _ => by rwa [AmoOp.setWidth_extended], fun h => by
      rwa [comparesWell, AmoOp.setWidth_extended, imp_iff_right hfunct3] at h⟩
  · rw [writesResult, if_neg hfunct3]
    exact iff_of_true rfl (fun h => absurd h hfunct3)

/--
One read and then one write of the same bytes, nothing else in between, and the value
read for the destination register.
-/
structure Performs (n r w : Nat) (value : BitVec 64) : Prop where
  order : r + 1 < w ∧ n = w + 1
  served : t.served n =
    [(r, .read (t.address n) (t.funct3 n)), (w, .write (t.address n) (t.funct3 n) value)]
  toRegister : (t.lsq n).completeIsLoad = true
  oldValue : (t.lsq n).completeData (t.input n).memReadData = (t.input (r + 1)).memReadData
  word : t.funct3 n = 0b010 ->
    exists word : BitVec 32, (t.input (r + 1)).memReadData = word.signExtend 64

theorem performs_of_completes {t : LsqRun} {n : Nat} {op : AmoOp} (h : t.completes n op) :
    exists r w, t.Performs n r w
      (op.result (t.input (r + 1)).memReadData (t.operand w)) := by
  rcases h with ⟨hcomplete, hamo, hop⟩
  cases t.phase n with
  | waiting hpending hneed hserved => simp [completeValid, hpending] at hcomplete
  | other hpending hneed hother => simp [hother] at hamo
  | reading r hread hr hpending hneed hserved =>
      simp [completeValid, amoPhase1JustFinished, hneed, hamo] at hcomplete
  | holding r hread hr hpending hneed hold hserved => simp [completeValid, hpending] at hcomplete
  | writing r w hread hr hw hpending hneed hold hserved =>
      have htype : (t.lsq n).headEntry.opType = .amoRmw := of_decide_eq_true hamo
      refine ⟨r, w, ⟨hr, hw⟩, ?_, ?_, ?_, hread.word⟩
      · rw [hserved, hop, AmoOp.amoNewValue_eq, hold]
      · simp [completeIsLoad, htype]
      · rw [completeData, htype]
        exact hold

/-!
# Progress
-/

structure OperandsReady (n : Nat) : Prop where
  pos : 0 < (t.lsq n).count
  base : (t.lsq n).headEntry.baseReady = true
  data : (t.lsq n).headEntry.storeDataReady = true

/--
The operation at the head in cycle n is there until cycle c.
-/
def Stays (n c : Nat) : Prop := forall m, n <= m -> m < c -> t.leaves m = false

section Progress

variable {t} {n c : Nat}

theorem OperandsReady.succ (h : t.OperandsReady n) (hstay : t.leaves n = false) :
    t.OperandsReady (n + 1) := by
  constructor
  · exact count_pos_succ hstay h.pos
  · exact baseReady_succ hstay h.pos h.base
  · rw [headEntry_succ hstay h.pos]
    exact wakeup_dataReady h.data

theorem Stays.refl (n : Nat) : t.Stays n n := by
  intro m hn hm
  omega

theorem Stays.cons (hstay : t.leaves n = false) (h : t.Stays (n + 1) c) : t.Stays n c := by
  intro m hn hm
  by_cases heq : m = n
  · rw [heq]
    exact hstay
  · exact h m (by omega) hm

theorem Stays.trans {d : Nat} (h : t.Stays n c) (h' : t.Stays c d) : t.Stays n d := by
  intro m hn hm
  by_cases hlt : m < c
  · exact h m hn hlt
  · exact h' m (by omega) hm

/--
What every cycle keeps while the head stays is kept until the head leaves.
-/
theorem Stays.induct {p : Nat -> Prop} (h : t.Stays n c) (hle : n <= c) (hn : p n)
    (hsucc : forall m, t.leaves m = false -> p m -> p (m + 1)) : p c := by
  induction c, hle using Nat.le_induction with
  | base => exact hn
  | succ c hle ih =>
      have hstays : t.Stays n c := fun m hn hm => h m hn (by omega)
      exact hsucc c (h c hle (by omega)) (ih hstays)

theorem pending_of_granted (hop : t.OperandsReady n) {k : Nat}
    (hgrant : (t.input (n + k)).memStallExt = false) :
    exists c, n <= c ∧ t.Stays n c ∧
      (t.leaves c = true ∨ (t.lsq c).memPending = true) := by
  induction k generalizing n with
  | zero =>
      cases hleaves : t.leaves n with
      | true => exact ⟨n, Nat.le_refl n, Stays.refl n, Or.inl hleaves⟩
      | false =>
          cases hpending : (t.lsq n).memPending with
          | true => exact ⟨n, Nat.le_refl n, Stays.refl n, Or.inr hpending⟩
          | false =>
              have hpresent := headPresent_of_count_pos (t.wellFormed n) hop.pos
              have hready : (t.lsq n).headReady (t.input n).memStallExt = true := by
                simp only [headReady, headWantAccess, hpresent, hpending, hop.base, hop.data,
                  show (t.input n).memStallExt = false from hgrant, Bool.or_true,
                  Bool.not_false, Bool.and_self]
              refine ⟨n + 1, Nat.le_succ n, Stays.cons hleaves (Stays.refl _), Or.inr ?_⟩
              exact (memPending_succ hleaves).trans hready
  | succ k ih =>
      cases hleaves : t.leaves n with
      | true => exact ⟨n, Nat.le_refl n, Stays.refl n, Or.inl hleaves⟩
      | false =>
          have hgrant' : (t.input (n + 1 + k)).memStallExt = false := by
            rw [show n + 1 + k = n + (k + 1) by omega]
            exact hgrant
          rcases ih (hop.succ hleaves) hgrant' with ⟨c, hle, hstays, hc⟩
          exact ⟨c, by omega, Stays.cons hleaves hstays, hc⟩

theorem OperandsReady.of_stays (hop : t.OperandsReady n) (hle : n <= c) (h : t.Stays n c) :
    t.OperandsReady c :=
  h.induct (p := t.OperandsReady) hle hop fun _ hstay hready => hready.succ hstay

theorem leaves_of_needWrite (hgrant : forall m, exists k, (t.input (m + k)).memStallExt = false)
    (hop : t.OperandsReady n) (hneed : (t.lsq n).amoNeedWrite = true) :
    exists c, n <= c ∧ t.Stays n c ∧ t.leaves c = true := by
  rcases hgrant n with ⟨k, hk⟩
  rcases pending_of_granted hop hk with ⟨c, hle, hstays, hleaves | hpending⟩
  · exact ⟨c, hle, hstays, hleaves⟩
  · have hneed' : (t.lsq c).amoNeedWrite = true := by
      refine hstays.induct (p := fun m => (t.lsq m).amoNeedWrite = true) hle hneed
        fun m hstay h => ?_
      rw [amoNeedWrite_succ hstay, h, Bool.or_true]
    refine ⟨c, hle, hstays, ?_⟩
    rw [leaves, leaves_eq]
    simp [completeValid, amoPhase1JustFinished, hpending, hneed']

theorem exists_leaves (hgrant : forall m, exists k, (t.input (m + k)).memStallExt = false)
    (hop : t.OperandsReady n) : exists c, n <= c ∧ t.Stays n c ∧ t.leaves c = true := by
  rcases hgrant n with ⟨k, hk⟩
  rcases pending_of_granted hop hk with ⟨c, hle, hstays, hleaves | hpending⟩
  · exact ⟨c, hle, hstays, hleaves⟩
  · cases hleaves : t.leaves c with
    | true => exact ⟨c, hle, hstays, hleaves⟩
    | false =>
        -- the access under way is the read of an atomic operation
        have hcomplete := completeValid_of_stays hleaves
        simp only [completeValid, hpending, Bool.true_and, Bool.not_eq_false'] at hcomplete
        have hneed : (t.lsq (c + 1)).amoNeedWrite = true := by
          rw [amoNeedWrite_succ hleaves, hcomplete, Bool.true_or]
        rcases leaves_of_needWrite hgrant ((hop.of_stays hle hstays).succ hleaves) hneed with
          ⟨d, hle', hstays', hd⟩
        exact ⟨d, by omega, hstays.trans (Stays.cons hleaves hstays'), hd⟩

theorem completes_of_leaves {op : AmoOp} (hop : t.OperandsReady n)
    (hamo : (t.lsq n).headIsAmo = true) (hf5 : (t.lsq n).headEntry.amoOp = op.funct5)
    (hle : n <= c) (hstays : t.Stays n c) (hleaves : t.leaves c = true)
    (hforce : (t.input c).forceRetireExt = false) : t.completes c op := by
  have hkept : 0 < (t.lsq c).count ∧ (t.lsq c).headIsAmo = true ∧
      (t.lsq c).headEntry.amoOp = op.funct5 := by
    refine hstays.induct (p := fun m => 0 < (t.lsq m).count ∧ (t.lsq m).headIsAmo = true ∧
      (t.lsq m).headEntry.amoOp = op.funct5) hle ⟨hop.pos, hamo, hf5⟩ fun m hstay h => ?_
    exact ⟨count_pos_succ hstay h.left, (headIsAmo_succ hstay h.left).trans h.right.left,
      (amoOp_succ hstay h.left).trans h.right.right⟩
  rw [leaves, leaves_eq, hforce, Bool.or_false] at hleaves
  exact ⟨hleaves, hkept.right⟩

end Progress

/-!
# Result
-/

/--
Every atomic operation that completes reads and then writes its bytes and returns the old
value; the value it writes is right unless it compares words and the operand is no
sign-extended word.  An operation with its operands completes unless a page fault takes it
out.
-/
theorem amo_sequence_iff (op : AmoOp) :
    (forall n, t.completes n op ->
      exists r w value, t.Performs n r w value ∧
        (writesResult op (t.funct3 n) (t.input (r + 1)).memReadData (t.operand w) value <->
          comparesWell op (t.funct3 n) (t.input (r + 1)).memReadData (t.operand w))) ∧
      forall n, (t.lsq n).headIsAmo = true -> (t.lsq n).headEntry.amoOp = op.funct5 ->
        t.OperandsReady n -> (forall m, exists k, (t.input (m + k)).memStallExt = false) ->
          exists c, n <= c ∧ t.Stays n c ∧ t.leaves c = true ∧
            ((t.input c).forceRetireExt = false -> t.completes c op) := by
  constructor
  · intro n h
    rcases performs_of_completes h with ⟨r, w, hperforms⟩
    exact ⟨r, w, _, hperforms, writesResult_iff op (t.operand w) hperforms.word⟩
  · intro n hamo hf5 hop hgrant
    rcases exists_leaves hgrant hop with ⟨c, hle, hstays, hleaves⟩
    exact ⟨c, hle, hstays, hleaves, completes_of_leaves hop hamo hf5 hle hstays hleaves⟩

/-!
An amomin.w of 1 in memory with 0x80000000 in the register, which the queue finds larger.
-/

def minimumEntry : LsqEntry :=
  { valid := true
    opType := .amoRmw
    amoOp := AmoOp.min.funct5
    basePreg := 1
    baseReady := true
    imm := 0
    funct3 := 0b010
    storeDataPreg := 2
    storeDataReady := true
    destPreg := 3
    robTag := 0
    pc := 0 }

def minimumInput (n : Nat) : LsqIn :=
  { dispEn0 := n == 0
    disp0 := minimumEntry
    dispEn1 := false
    disp1 := minimumEntry
    cdb := []
    memStallExt := false
    forceRetireExt := false
    memReadData := 1 }

def anyQueue : LoadStoreQueue :=
  { entry := fun _ => minimumEntry
    count := 0
    head := 0
    tail := 0
    memPending := false
    amoNeedWrite := false
    amoOldValue := 0 }

def minimumQueue : Nat -> LoadStoreQueue
  | 0 => anyQueue.reset
  | n + 1 => (minimumQueue n).step (minimumInput n)

def minimumRun : LsqRun where
  lsq := minimumQueue
  input := minimumInput
  reg := fun _ p => if p = 1 then 64 else 0x80000000
  reset := ⟨anyQueue, rfl⟩
  step := fun _ => rfl
  fits := by
    intro n
    refine ⟨rfl, ?_, fun h => Bool.noConfusion h⟩
    intro h
    have hn : n = 0 := beq_iff_eq.mp h
    subst hn
    decide
  held := fun _ _ _ _ => rfl
  words := fun _ _ _ => ⟨1, rfl⟩

theorem minimumRun_completes : minimumRun.completes 4 .min := by
  unfold completes
  decide

theorem amo_sequence_iff_minimum :
    exists r w value, minimumRun.Performs 4 r w value ∧
      (writesResult .min (minimumRun.funct3 4) (minimumRun.input (r + 1)).memReadData
          (minimumRun.operand w) value <->
        comparesWell .min (minimumRun.funct3 4) (minimumRun.input (r + 1)).memReadData
          (minimumRun.operand w)) :=
  (amo_sequence_iff minimumRun .min).left 4 minimumRun_completes

theorem amo_minimum_wrong :
    ¬ forall (t : LsqRun) (op : AmoOp) (n : Nat), t.completes n op ->
      t.funct3 n = 0b010 ∨ t.funct3 n = 0b011 ->
        exists r w value, t.Performs n r w value ∧
          writesResult op (t.funct3 n) (t.input (r + 1)).memReadData (t.operand w) value := by
  intro hclaim
  rcases hclaim minimumRun .min 4 minimumRun_completes (Or.inl rfl) with
    ⟨r, w, value, hperforms, hresult⟩
  have hserved : minimumRun.served 4 = [(1, .read 64 0b010), (3, .write 64 0b010 1)] := by
    decide
  have hcons := hperforms.served.symm.trans hserved
  simp only [List.cons.injEq, Prod.mk.injEq, QueueAccess.write.injEq, and_true] at hcons
  rcases hcons with ⟨⟨hr, _⟩, hw, _, _, hvalue⟩
  subst hr hw hvalue
  unfold writesResult at hresult
  exact absurd hresult (by decide)

end LsqRun

end Ooo
end RvCores
