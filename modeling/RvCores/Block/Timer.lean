import RvCores.Lib.Run
import Mathlib.Data.BitVec

/-!
# Machine timer

A counter of cycles and a compare value, both 64 bits wide.  A wide bus reads and writes
them whole; on a narrow bus each has a low half and a high half at the next word.
-/

namespace RvCores
namespace Block

variable {w : Nat}

structure TimerReq (w : Nat) where
  sCyc : Bool
  sStb : Bool
  sWe : Bool
  sAddr : BitVec w
  sDataO : BitVec w
deriving DecidableEq, Repr

def clintOffMsip : BitVec 16 := 0x0000
def clintOffMtimecmp : BitVec 16 := 0x4000
def clintOffMtime : BitVec 16 := 0xBFF8

namespace TimerReq

def busWrite (r : TimerReq w) : Bool := r.sCyc && r.sStb && r.sWe
def sAck (r : TimerReq w) : Bool := r.sCyc && r.sStb

def regOff (r : TimerReq w) : BitVec 16 := r.sAddr.setWidth 16
def selMsip (r : TimerReq w) : Bool := r.regOff == clintOffMsip
def selMtimecmp (r : TimerReq w) : Bool := r.regOff == clintOffMtimecmp
def selMtimecmph (r : TimerReq w) : Bool := r.regOff == clintOffMtimecmp + 4
def selMtime (r : TimerReq w) : Bool := r.regOff == clintOffMtime
def selMtimeh (r : TimerReq w) : Bool := r.regOff == clintOffMtime + 4

end TimerReq

def withLow (x : BitVec 64) (low : BitVec 32) : BitVec 64 := x.extractLsb' 32 32 ++ low
def withHigh (x : BitVec 64) (high : BitVec 32) : BitVec 64 := high ++ x.setWidth 32

structure Timer where
  msip : BitVec 32
  mtime : BitVec 64
  mtimecmp : BitVec 64
deriving DecidableEq, Repr

namespace Timer

def reset : Timer := { msip := 0, mtime := 0, mtimecmp := 0 }

def nextMsip (t : Timer) (r : TimerReq w) : BitVec 32 :=
  if r.busWrite && r.selMsip then r.sDataO.setWidth 32 else t.msip

def nextMtimecmp (t : Timer) (r : TimerReq w) : BitVec 64 :=
  if r.busWrite && r.selMtimecmp then
    if 64 <= w then r.sDataO.setWidth 64
    else withLow t.mtimecmp (r.sDataO.setWidth 32)
  else if r.busWrite && r.selMtimecmph && decide (w < 64) then
    withHigh t.mtimecmp (r.sDataO.setWidth 32)
  else t.mtimecmp

/--
The counter stands still in a cycle that writes it.
-/
def nextMtime (t : Timer) (r : TimerReq w) : BitVec 64 :=
  if r.busWrite && r.selMtime then
    if 64 <= w then r.sDataO.setWidth 64
    else withLow t.mtime (r.sDataO.setWidth 32)
  else if r.busWrite && r.selMtimeh && decide (w < 64) then
    withHigh t.mtime (r.sDataO.setWidth 32)
  else t.mtime + 1

def step (t : Timer) (rst : Bool) (r : TimerReq w) : Timer :=
  if !rst then reset
  else
    { msip := t.nextMsip r
      mtime := t.nextMtime r
      mtimecmp := t.nextMtimecmp r }

def pending (t : Timer) : Bool := decide (t.mtimecmp <= t.mtime)
def msipPending (t : Timer) : Bool := t.msip.getLsbD 0

def sDataI (t : Timer) (r : TimerReq w) : BitVec w :=
  if r.selMsip then t.msip.setWidth w
  else if r.selMtimecmp then
    if 64 <= w then t.mtimecmp.setWidth w else (t.mtimecmp.setWidth 32).setWidth w
  else if r.selMtimecmph && decide (w < 64) then
    (t.mtimecmp.extractLsb' 32 32).setWidth w
  else if r.selMtime then
    if 64 <= w then t.mtime.setWidth w else (t.mtime.setWidth 32).setWidth w
  else if r.selMtimeh && decide (w < 64) then (t.mtime.extractLsb' 32 32).setWidth w
  else 0

/-!
# Cycles that leave a register alone
-/

def clock (t : Timer) (r : TimerReq w) : Timer := t.step true r

end Timer

def TimerReq.storesCompare (r : TimerReq w) : Bool :=
  r.busWrite && (r.selMtimecmp || (r.selMtimecmph && decide (w < 64)))

def TimerReq.storesTime (r : TimerReq w) : Bool :=
  r.busWrite && (r.selMtime || (r.selMtimeh && decide (w < 64)))

namespace Timer

theorem nextMtimecmp_of_not_stores {t : Timer} {r : TimerReq w}
    (h : r.storesCompare = false) : t.nextMtimecmp r = t.mtimecmp := by
  unfold TimerReq.storesCompare at h
  unfold nextMtimecmp
  rw [Bool.and_or_distrib_left, Bool.or_eq_false_iff, ← Bool.and_assoc] at h
  rw [h.left, h.right]
  rfl

theorem nextMtime_of_not_stores {t : Timer} {r : TimerReq w}
    (h : r.storesTime = false) : t.nextMtime r = t.mtime + 1 := by
  unfold TimerReq.storesTime at h
  unfold nextMtime
  rw [Bool.and_or_distrib_left, Bool.or_eq_false_iff, ← Bool.and_assoc] at h
  rw [h.left, h.right]
  rfl

theorem mtimecmp_run {t : Timer} {rs : List (TimerReq w)}
    (h : forall r, r ∈ rs -> r.storesCompare = false) :
    (Lib.run clock t rs).mtimecmp = t.mtimecmp := by
  induction rs generalizing t with
  | nil => rfl
  | cons r rs ih =>
      change (Lib.run clock (t.clock r) rs).mtimecmp = t.mtimecmp
      rw [ih fun r' hr' => h r' (List.mem_cons_of_mem r hr')]
      exact nextMtimecmp_of_not_stores (h r List.mem_cons_self)

/-!
# Moving the compare value on a narrow bus

The low half is first raised to all ones, then the high half is stored, and then the low
half.  Whatever the bus does in between, the compare value is never below both the old
and the new one.
-/

def storeHalf (off : BitVec 32) (x : BitVec 32) : TimerReq 32 :=
  { sCyc := true, sStb := true, sWe := true, sAddr := off, sDataO := x }

def storeLow (x : BitVec 32) : TimerReq 32 := storeHalf 0x10104000 x
def storeHigh (x : BitVec 32) : TimerReq 32 := storeHalf 0x10104004 x

theorem nextMtimecmp_storeLow (t : Timer) (x : BitVec 32) :
    t.nextMtimecmp (storeLow x) = withLow t.mtimecmp x := by
  have hsel : ((storeLow x).busWrite && (storeLow x).selMtimecmp) = true := by
    change ((0x10104000#32).setWidth 16 == clintOffMtimecmp) = true
    decide
  unfold nextMtimecmp
  rw [if_pos hsel, if_neg (by decide), BitVec.setWidth_eq]
  rfl

theorem nextMtimecmp_storeHigh (t : Timer) (x : BitVec 32) :
    t.nextMtimecmp (storeHigh x) = withHigh t.mtimecmp x := by
  have hlow : ((storeHigh x).busWrite && (storeHigh x).selMtimecmp) = false := by
    change ((0x10104004#32).setWidth 16 == clintOffMtimecmp) = false
    decide
  have hhigh : ((storeHigh x).busWrite && (storeHigh x).selMtimecmph &&
      decide (32 < 64)) = true := by
    change (((0x10104004#32).setWidth 16 == clintOffMtimecmp + 4) && decide (32 < 64)) = true
    decide
  unfold nextMtimecmp
  rw [hlow, hhigh, BitVec.setWidth_eq]
  rfl

theorem toNat_append_eq (high low : BitVec 32) :
    (high ++ low : BitVec 64).toNat = 2 ^ 32 * high.toNat + low.toNat := by
  rw [BitVec.toNat_append, Nat.shiftLeft_eq, Nat.mul_comm,
    Nat.two_pow_add_eq_or_of_lt low.isLt]

theorem le_withLow_allOnes (x : BitVec 64) : x <= withLow x (-1) := by
  have hlow : (-1 : BitVec 32).toNat = 2 ^ 32 - 1 := by decide
  unfold withLow
  rw [BitVec.le_def, toNat_append_eq, BitVec.extractLsb'_toNat, hlow, Nat.shiftRight_eq_div_pow]
  omega

theorem le_withHigh_withLow_allOnes (x : BitVec 64) (high low : BitVec 32) :
    high ++ low <= withHigh (withLow x (-1)) high := by
  have hones : (withLow x (-1)).setWidth 32 = -1 := BitVec.setWidth_append_eq_right
  have hlow : (-1 : BitVec 32).toNat = 2 ^ 32 - 1 := by decide
  unfold withHigh
  rw [hones, BitVec.le_def, toNat_append_eq, toNat_append_eq, hlow]
  omega

theorem withLow_withHigh (x : BitVec 64) (high low : BitVec 32) :
    withLow (withHigh x high) low = high ++ low := by
  unfold withLow withHigh
  rw [BitVec.extractLsb'_append_eq_left]

/--
The compare value is not below both values.
-/
def Guarded (old new : BitVec 64) (t : Timer) : Prop :=
  old <= t.mtimecmp ∨ new <= t.mtimecmp

theorem along_guarded_of_quiet {old new : BitVec 64} {t : Timer} {rs : List (TimerReq w)}
    (hquiet : forall r, r ∈ rs -> r.storesCompare = false) (h : Guarded old new t) :
    Lib.Along clock (fun t _ => Guarded old new t) t rs := by
  induction rs generalizing t with
  | nil => trivial
  | cons r rs ih =>
      refine ⟨h, ih (fun r' hr' => hquiet r' (List.mem_cons_of_mem r hr')) ?_⟩
      change old <= t.nextMtimecmp r ∨ new <= t.nextMtimecmp r
      rw [nextMtimecmp_of_not_stores (hquiet r List.mem_cons_self)]
      exact h

theorem along_guarded_store {old new : BitVec 64} {t : Timer} {r : TimerReq w}
    {rs : List (TimerReq w)} (hquiet : forall r', r' ∈ rs -> r'.storesCompare = false)
    (h : Guarded old new t) (hstore : old <= t.nextMtimecmp r ∨ new <= t.nextMtimecmp r) :
    Lib.Along clock (fun t _ => Guarded old new t) t (r :: rs) :=
  ⟨h, along_guarded_of_quiet hquiet hstore⟩

theorem run_cons_mtimecmp {t : Timer} {r : TimerReq w} {rs : List (TimerReq w)}
    (hquiet : forall r', r' ∈ rs -> r'.storesCompare = false) :
    (Lib.run clock t (r :: rs)).mtimecmp = t.nextMtimecmp r :=
  mtimecmp_run hquiet

theorem moveCompare_guarded (t : Timer) (high low : BitVec 32)
    (before first second after : List (TimerReq 32))
    (hbefore : forall r, r ∈ before -> r.storesCompare = false)
    (hfirst : forall r, r ∈ first -> r.storesCompare = false)
    (hsecond : forall r, r ∈ second -> r.storesCompare = false)
    (hafter : forall r, r ∈ after -> r.storesCompare = false) :
    let rs := before ++ (storeLow (-1) :: first) ++ (storeHigh high :: second) ++
      (storeLow low :: after)
    Lib.Along clock (fun t' _ => Guarded t.mtimecmp (high ++ low) t') t rs ∧
      (Lib.run clock t rs).mtimecmp = high ++ low := by
  have hold : (Lib.run clock t before).mtimecmp = t.mtimecmp := mtimecmp_run hbefore
  have hones : (Lib.run clock t (before ++ (storeLow (-1) :: first))).mtimecmp =
      withLow t.mtimecmp (-1) := by
    rw [Lib.run_append, run_cons_mtimecmp hfirst, nextMtimecmp_storeLow, hold]
  have hnew : (Lib.run clock t
      (before ++ (storeLow (-1) :: first) ++ (storeHigh high :: second))).mtimecmp =
        withHigh (withLow t.mtimecmp (-1)) high := by
    rw [Lib.run_append, run_cons_mtimecmp hsecond, nextMtimecmp_storeHigh, hones]
  constructor
  · refine Lib.along_append (Lib.along_append (Lib.along_append ?_ ?_) ?_) ?_
    · exact along_guarded_of_quiet hbefore (Or.inl (BitVec.le_refl _))
    · refine along_guarded_store hfirst (Or.inl (BitVec.le_of_eq hold.symm)) (Or.inl ?_)
      rw [nextMtimecmp_storeLow, hold]
      exact le_withLow_allOnes t.mtimecmp
    · refine along_guarded_store hsecond (Or.inl ?_) (Or.inr ?_)
      · rw [hones]
        exact le_withLow_allOnes t.mtimecmp
      · rw [nextMtimecmp_storeHigh, hones]
        exact le_withHigh_withLow_allOnes t.mtimecmp high low
    · refine along_guarded_store hafter (Or.inr ?_) (Or.inr ?_)
      · rw [hnew]
        exact le_withHigh_withLow_allOnes t.mtimecmp high low
      · rw [nextMtimecmp_storeLow, hnew, withLow_withHigh]
        exact BitVec.le_refl _
  · rw [Lib.run_append, run_cons_mtimecmp hafter, nextMtimecmp_storeLow, hnew, withLow_withHigh]

theorem reached_of_pending {old new : BitVec 64} {t : Timer} (h : Guarded old new t)
    (hpending : t.pending = true) : old <= t.mtime ∨ new <= t.mtime := by
  have hle : t.mtimecmp <= t.mtime := of_decide_eq_true hpending
  rcases h with hold | hnew
  · exact Or.inl (BitVec.le_trans hold hle)
  · exact Or.inr (BitVec.le_trans hnew hle)

/--
Moving the compare value raises no interrupt before the counter has reached the old or
the new value.
-/
theorem moveCompare_not_early (t : Timer) (high low : BitVec 32)
    (before first second after : List (TimerReq 32))
    (hbefore : forall r, r ∈ before -> r.storesCompare = false)
    (hfirst : forall r, r ∈ first -> r.storesCompare = false)
    (hsecond : forall r, r ∈ second -> r.storesCompare = false)
    (hafter : forall r, r ∈ after -> r.storesCompare = false) :
    let rs := before ++ (storeLow (-1) :: first) ++ (storeHigh high :: second) ++
      (storeLow low :: after)
    Lib.Along clock
        (fun t' _ => t'.pending = true -> t.mtimecmp <= t'.mtime ∨ high ++ low <= t'.mtime)
        t rs ∧
      (Lib.run clock t rs).mtimecmp = high ++ low := by
  have hmove := moveCompare_guarded t high low before first second after hbefore hfirst hsecond
    hafter
  exact ⟨Lib.along_mono (fun _ _ h => reached_of_pending h) hmove.left, hmove.right⟩

/--
From a compare value below the counter's high word to one above it, with a read after the
first store and one after the last.
-/
theorem moveCompare_not_early_next_word :
    let t : Timer := { msip := 0, mtime := 5, mtimecmp := 0x00000000fffffff0 }
    let read : TimerReq 32 := ⟨true, true, false, 0x1010bff8, 0⟩
    let rs := [] ++ (storeLow (-1) :: [read]) ++ (storeHigh 1 :: []) ++ (storeLow 8 :: [read])
    Lib.Along clock
        (fun t' _ => t'.pending = true ->
          0x00000000fffffff0 <= t'.mtime ∨ (1#32 ++ 8#32) <= t'.mtime) t rs ∧
      (Lib.run clock t rs).mtimecmp = 1#32 ++ 8#32 :=
  moveCompare_not_early _ 1 8 [] [⟨true, true, false, 0x1010bff8, 0⟩] []
    [⟨true, true, false, 0x1010bff8, 0⟩] (fun _ h => absurd h List.not_mem_nil) (by decide)
    (fun _ h => absurd h List.not_mem_nil) (by decide)

end Timer
end Block
end RvCores
