import RvCores.Lib.Run
import RvCores.Ooo.ReservationStation
import Mathlib.Data.Nat.Find

/-!
# No operation is lost

An operation is named by the cycle and the lane of its dispatch.  It waits in the slot that
it was given until that slot is issued, and in the meantime nothing is written over it.
-/

namespace RvCores
namespace Ooo

open Lib

variable {payload : Type}

/--
A run of a station out of reset.  In every cycle there is room for what is dispatched.
-/
structure RsRun (cfg : RsConfig) (s : Nat -> ReservationStation payload)
    (i : Nat -> RsIn payload) : Prop where
  empty : forall k, k < cfg.entries -> ((s 0).entry k).valid = false
  step : forall n, s (n + 1) = (s n).step cfg (i n)
  room : forall n, (s n).count cfg + (i n).disp0.en.toNat + (i n).disp1.en.toNat <= cfg.entries

inductive Lane where
  | first
  | second
deriving DecidableEq, Repr

structure OpId where
  cycle : Nat
  lane : Lane
deriving DecidableEq, Repr

def RsIn.dispatch (i : RsIn payload) : Lane -> RsDispatch payload
  | .first => i.disp0
  | .second => i.disp1

namespace ReservationStation

def filled? (cfg : RsConfig) (rs : ReservationStation payload) (i : RsIn payload) :
    Lane -> Option Nat
  | .first => rs.filled0? cfg i
  | .second => rs.filled1? cfg i

section Cycle

variable {cfg : RsConfig} {rs : ReservationStation payload} {i : RsIn payload} {k : Nat}

theorem exists_alloc1 (h : rs.count cfg + i.disp0.en.toNat < cfg.entries) :
    exists k, rs.alloc1? cfg i.disp0.en = some k := by
  cases halloc : rs.alloc1? cfg i.disp0.en with
  | some k => exact ⟨k, rfl⟩
  | none =>
      have hall : forall k, k ∈ List.range cfg.entries ->
          mark (rs.filled0? cfg i) true (fun k => (rs.entry k).valid) k = true := by
        intro k hk
        have hnot := List.find?_eq_none.mp halloc k hk
        unfold mark
        by_cases h0 : rs.filled0? cfg i = some k
        · rw [if_pos h0]
        · rw [if_neg h0]
          by_contra hfree
          apply hnot
          unfold filled0? at h0
          rw [ite_slot] at h0
          simp only [Bool.and_eq_true, Bool.not_eq_true', Bool.and_eq_false_iff,
            decide_eq_false_iff_not]
          refine ⟨by simpa using hfree, ?_⟩
          cases hen : i.disp0.en with
          | false => exact Or.inl rfl
          | true => exact Or.inr fun hslot => h0 ⟨hen, hslot⟩
      have hfull : (List.range cfg.entries).countP
          (mark (rs.filled0? cfg i) true fun k => (rs.entry k).valid) = cfg.entries := by
        rw [List.countP_eq_length.mpr hall, List.length_range]
      have hfilled := @countP_mark_true (fun k => (rs.entry k).valid) cfg.entries
        (rs.filled0? cfg i) fun k hk => filled0_spec hk
      have hle : (rs.filled0? cfg i).isSome.toNat <= i.disp0.en.toNat := by
        unfold filled0?
        cases i.disp0.en with
        | false => exact Nat.le_refl _
        | true => exact Bool.toNat_le _
      unfold count at h
      omega

/--
With room every dispatched operation is given a slot.
-/
theorem filled_isSome
    (hroom : rs.count cfg + i.disp0.en.toNat + i.disp1.en.toNat <= cfg.entries) (lane : Lane) :
    (rs.filled? cfg i lane).isSome = (i.dispatch lane).en := by
  cases lane with
  | first =>
      show (rs.filled0? cfg i).isSome = i.disp0.en
      unfold filled0?
      cases hen : i.disp0.en with
      | false => rfl
      | true =>
          rw [hen] at hroom
          obtain ⟨slot, hslot⟩ := @exists_alloc0 _ cfg rs (by
            simp only [full, decide_eq_false_iff_not]
            have hone : true.toNat = 1 := rfl
            omega)
          simp [hslot]
  | second =>
      show (rs.filled1? cfg i).isSome = i.disp1.en
      unfold filled1?
      cases hen : i.disp1.en with
      | false => rfl
      | true =>
          rw [hen] at hroom
          obtain ⟨slot, hslot⟩ := @exists_alloc1 _ cfg rs i (by
            have hone : true.toNat = 1 := rfl
            omega)
          simp [hslot]

theorem filled_spec {lane : Lane} (h : rs.filled? cfg i lane = some k) :
    k < cfg.entries ∧ (rs.entry k).valid = false := by
  cases lane with
  | first => exact filled0_spec h
  | second => exact ⟨(filled1_spec h).left, (filled1_spec h).right.left⟩

theorem filled_en {lane : Lane} (h : rs.filled? cfg i lane = some k) :
    (i.dispatch lane).en = true := by
  cases lane with
  | first => exact (ite_slot.mp h).left
  | second => exact (ite_slot.mp h).left

theorem filled_lane {lane lane' : Lane} (h : rs.filled? cfg i lane = some k)
    (h' : rs.filled? cfg i lane' = some k) : lane = lane' := by
  cases lane with
  | first =>
      cases lane' with
      | first => rfl
      | second => exact absurd h (filled1_spec h').right.right
  | second =>
      cases lane' with
      | first => exact absurd h' (filled1_spec h).right.right
      | second => rfl

theorem issued_not_filled {lane : Lane} (h : rs.issued? cfg i = some k) :
    rs.filled? cfg i lane ≠ some k := by
  intro hfill
  have hvalid := (issued_spec h).right
  rw [(filled_spec hfill).right] at hvalid
  cases hvalid

theorem step_filled {lane : Lane} (h : rs.filled? cfg i lane = some k) :
    (rs.step cfg i).entry k = newEntry cfg i.cdb (i.dispatch lane) := by
  rw [step_entry (filled_spec h).left]
  cases lane with
  | first =>
      have hnot : rs.filled1? cfg i ≠ some k := fun h1 => (filled1_spec h1).right.right h
      rw [if_neg ((not_congr ite_slot).mp hnot), if_pos (ite_slot.mp h)]
      rfl
  | second =>
      rw [if_pos (ite_slot.mp h)]
      rfl

theorem step_kept (hvalid : (rs.entry k).valid = true) (hk : k < cfg.entries)
    (hstays : rs.issued? cfg i ≠ some k) :
    (rs.step cfg i).entry k = wakeup cfg i.cdb (rs.entry k) := by
  have hnot0 : rs.filled0? cfg i ≠ some k := by
    intro h0
    rw [(filled0_spec h0).right] at hvalid
    cases hvalid
  have hnot1 : rs.filled1? cfg i ≠ some k := by
    intro h1
    rw [(filled1_spec h1).right.left] at hvalid
    cases hvalid
  rw [step_entry hk, if_neg ((not_congr ite_slot).mp hnot1),
    if_neg ((not_congr ite_slot).mp hnot0), if_neg ((not_congr ite_slot).mp hstays)]

theorem step_valid (hk : k < cfg.entries) (h : ((rs.step cfg i).entry k).valid = true) :
    ((rs.entry k).valid = true ∧ rs.issued? cfg i ≠ some k) ∨
      exists lane, rs.filled? cfg i lane = some k := by
  rcases step_valid_cases hk h with ⟨hold, hstay, _⟩ | ⟨hen, hslot, _⟩ | ⟨hen, hslot, _⟩
  · exact Or.inl ⟨hold, fun hissued => hstay (ite_slot.mp hissued)⟩
  · exact Or.inr ⟨.first, ite_slot.mpr ⟨hen, hslot⟩⟩
  · exact Or.inr ⟨.second, ite_slot.mpr ⟨hen, hslot⟩⟩

end Cycle

end ReservationStation

/-!
# Waiting and issuing
-/

namespace RsRun

variable {cfg : RsConfig} {s : Nat -> ReservationStation payload} {i : Nat -> RsIn payload}

def dispatch (i : Nat -> RsIn payload) (o : OpId) : RsDispatch payload :=
  (i o.cycle).dispatch o.lane

def Dispatched (i : Nat -> RsIn payload) (n : Nat) (o : OpId) : Prop :=
  o.cycle < n ∧ (dispatch i o).en = true

def slot (cfg : RsConfig) (s : Nat -> ReservationStation payload) (i : Nat -> RsIn payload)
    (o : OpId) : Option Nat :=
  (s o.cycle).filled? cfg (i o.cycle) o.lane

def issuedSlot (cfg : RsConfig) (s : Nat -> ReservationStation payload)
    (i : Nat -> RsIn payload) (n : Nat) : Option Nat :=
  (s n).issued? cfg (i n)

/--
The operation has been given the slot, and the slot has not been issued since.
-/
structure Waits (cfg : RsConfig) (s : Nat -> ReservationStation payload)
    (i : Nat -> RsIn payload) (o : OpId) (k n : Nat) : Prop where
  dispatched : o.cycle < n
  slot : slot cfg s i o = some k
  kept : forall m, o.cycle < m -> m < n -> issuedSlot cfg s i m ≠ some k

def Issues (cfg : RsConfig) (s : Nat -> ReservationStation payload)
    (i : Nat -> RsIn payload) (o : OpId) (n : Nat) : Prop :=
  exists k, Waits cfg s i o k n ∧ issuedSlot cfg s i n = some k

/--
A source of an operation is ready: it was at dispatch, or a port that it listens to has
shown its register since.
-/
def SourceReady (mask : List Bool) (i : Nat -> RsIn payload) (o : OpId) (ready : Bool)
    (preg n : Nat) : Prop :=
  ready = true ∨ exists c, o.cycle <= c ∧ c < n ∧
    ReservationStation.cdbHit mask (i c).cdb preg = true

/--
The entry of an operation.
-/
structure Carries (cfg : RsConfig) (i : Nat -> RsIn payload) (o : OpId) (n : Nat)
    (e : RsEntry payload) : Prop where
  valid : e.valid = true
  src1Preg : e.src1Preg = (dispatch i o).src1Preg
  src2Preg : e.src2Preg = (dispatch i o).src2Preg
  destPreg : e.destPreg = (dispatch i o).destPreg
  robTag : e.robTag = (dispatch i o).robTag
  data : e.data = (dispatch i o).data
  src1Ready : e.src1Ready = true <->
    SourceReady cfg.src1PortMask i o (dispatch i o).src1Ready (dispatch i o).src1Preg n
  src2Ready : e.src2Ready = true <->
    SourceReady cfg.src2PortMask i o (dispatch i o).src2Ready (dispatch i o).src2Preg n

section Steps

variable {o : OpId} {k n : Nat}

theorem sourceReady_new {mask : List Bool} {ready : Bool} {preg : Nat} :
    SourceReady mask i o ready preg (o.cycle + 1) <->
      (ready || ReservationStation.cdbHit mask (i o.cycle).cdb preg) = true := by
  rw [Bool.or_eq_true]
  apply or_congr_right
  constructor
  · rintro ⟨c, hfrom, hbefore, hhit⟩
    have hsame : c = o.cycle := by omega
    rwa [hsame] at hhit
  · intro hhit
    exact ⟨o.cycle, Nat.le_refl _, Nat.lt_succ_self _, hhit⟩

theorem sourceReady_succ {mask : List Bool} {ready : Bool} {preg : Nat} (hn : o.cycle <= n) :
    SourceReady mask i o ready preg (n + 1) <->
      SourceReady mask i o ready preg n ∨
        ReservationStation.cdbHit mask (i n).cdb preg = true := by
  unfold SourceReady
  rw [or_assoc]
  apply or_congr_right
  constructor
  · rintro ⟨c, hfrom, hbefore, hhit⟩
    rcases Nat.lt_succ_iff_lt_or_eq.mp hbefore with hlt | heq
    · exact Or.inl ⟨c, hfrom, hlt, hhit⟩
    · rw [heq] at hhit
      exact Or.inr hhit
  · rintro (⟨c, hfrom, hbefore, hhit⟩ | hhit)
    · exact ⟨c, hfrom, Nat.lt_succ_of_lt hbefore, hhit⟩
    · exact ⟨n, hn, Nat.lt_succ_self n, hhit⟩

theorem carries_new :
    Carries cfg i o (o.cycle + 1)
      (ReservationStation.newEntry cfg (i o.cycle).cdb (dispatch i o)) where
  valid := rfl
  src1Preg := rfl
  src2Preg := rfl
  destPreg := rfl
  robTag := rfl
  data := rfl
  src1Ready := sourceReady_new.symm
  src2Ready := sourceReady_new.symm

theorem Carries.wakeup {e : RsEntry payload} (h : Carries cfg i o n e) (hn : o.cycle <= n) :
    Carries cfg i o (n + 1) (ReservationStation.wakeup cfg (i n).cdb e) where
  valid := h.valid
  src1Preg := h.src1Preg
  src2Preg := h.src2Preg
  destPreg := h.destPreg
  robTag := h.robTag
  data := h.data
  src1Ready := by
    rw [sourceReady_succ hn, ← h.src1Ready, ← h.src1Preg]
    simp [ReservationStation.wakeup, h.valid]
  src2Ready := by
    rw [sourceReady_succ hn, ← h.src2Ready, ← h.src2Preg]
    simp [ReservationStation.wakeup, h.valid]

theorem Waits.before (h : Waits cfg s i o k (n + 1)) (hlt : o.cycle < n) :
    Waits cfg s i o k n :=
  ⟨hlt, h.slot, fun m hfrom hbefore => h.kept m hfrom (Nat.lt_succ_of_lt hbefore)⟩

theorem waits_new (hslot : slot cfg s i o = some k) : Waits cfg s i o k (o.cycle + 1) :=
  ⟨Nat.lt_succ_self _, hslot, fun m hfrom hbefore => by omega⟩

theorem Waits.after (h : Waits cfg s i o k n) (hstays : issuedSlot cfg s i n ≠ some k) :
    Waits cfg s i o k (n + 1) := by
  refine ⟨Nat.lt_succ_of_lt h.dispatched, h.slot, ?_⟩
  intro m hfrom hbefore
  rcases Nat.lt_succ_iff_lt_or_eq.mp hbefore with hlt | heq
  · exact h.kept m hfrom hlt
  · rw [heq]
    exact hstays

end Steps

/-!
# What a slot holds
-/

section Runs

variable {o o' : OpId} {k n : Nat}

theorem Waits.lt (h : Waits cfg s i o k n) : k < cfg.entries :=
  (ReservationStation.filled_spec h.slot).left

/--
The entry stays as it was dispatched, by induction on the cycles since.
-/
theorem Waits.carries (hrun : RsRun cfg s i) (h : Waits cfg s i o k n) :
    Carries cfg i o n ((s n).entry k) := by
  induction n with
  | zero => exact absurd h.dispatched (Nat.not_lt_zero _)
  | succ n ih =>
      rw [hrun.step n]
      rcases Nat.lt_succ_iff_lt_or_eq.mp h.dispatched with hlt | heq
      · have hcarries := ih (h.before hlt)
        have hstays := h.kept n hlt (Nat.lt_succ_self n)
        rw [ReservationStation.step_kept hcarries.valid h.lt hstays]
        exact hcarries.wakeup (Nat.le_of_lt hlt)
      · have hslot := h.slot
        rw [← heq]
        rw [ReservationStation.step_filled hslot]
        exact carries_new

theorem exists_waits (hrun : RsRun cfg s i) (hk : k < cfg.entries)
    (hvalid : ((s n).entry k).valid = true) : exists o, Waits cfg s i o k n := by
  induction n with
  | zero =>
      rw [hrun.empty k hk] at hvalid
      cases hvalid
  | succ n ih =>
      rw [hrun.step n] at hvalid
      rcases ReservationStation.step_valid hk hvalid with ⟨hold, hstays⟩ | ⟨lane, hslot⟩
      · obtain ⟨o, ho⟩ := ih hold
        exact ⟨o, ho.after hstays⟩
      · exact ⟨⟨n, lane⟩, waits_new (o := ⟨n, lane⟩) hslot⟩

/--
A slot that is taken is not given away.
-/
theorem Waits.cycle_le (hrun : RsRun cfg s i) (h : Waits cfg s i o k n)
    (h' : Waits cfg s i o' k n) : o'.cycle <= o.cycle := by
  by_contra hlater
  have hthere : Waits cfg s i o k o'.cycle :=
    ⟨by omega, h.slot, fun m hfrom hbefore => h.kept m hfrom (by have := h'.dispatched; omega)⟩
  have hvalid := (hthere.carries hrun).valid
  rw [(ReservationStation.filled_spec h'.slot).right] at hvalid
  cases hvalid

theorem Waits.unique (hrun : RsRun cfg s i) (h : Waits cfg s i o k n)
    (h' : Waits cfg s i o' k n) : o = o' := by
  have hcycle : o.cycle = o'.cycle := Nat.le_antisymm (h'.cycle_le hrun h) (h.cycle_le hrun h')
  have hslot := h.slot
  have hslot' := h'.slot
  unfold RsRun.slot at hslot hslot'
  rw [hcycle] at hslot
  have hlane := ReservationStation.filled_lane hslot hslot'
  cases o
  cases o'
  simp only at hcycle hlane
  rw [hcycle, hlane]

theorem Waits.slot_unique {k' n' : Nat} (h : Waits cfg s i o k n) (h' : Waits cfg s i o k' n') :
    k = k' :=
  Option.some.inj (h.slot.symm.trans h'.slot)

theorem slot_isSome (hrun : RsRun cfg s i) (hen : (dispatch i o).en = true) :
    exists k, slot cfg s i o = some k := by
  rw [← Option.isSome_iff_exists]
  exact (ReservationStation.filled_isSome (hrun.room o.cycle) o.lane).trans hen

theorem Waits.not_issued (h : Waits cfg s i o k n) {m : Nat} (hm : m < n) :
    ¬ Issues cfg s i o m := by
  rintro ⟨k', hwaits, hissued⟩
  rw [hwaits.slot_unique h] at hissued
  exact h.kept m hwaits.dispatched hm hissued

/--
An operation waits, or it was issued, by induction on the cycles since its dispatch.
-/
theorem waits_or_issued (hrun : RsRun cfg s i) (h : Dispatched i n o) :
    (exists k, Waits cfg s i o k n) ∨ exists m, m < n ∧ Issues cfg s i o m := by
  obtain ⟨hlt, hen⟩ := h
  induction n with
  | zero => exact absurd hlt (Nat.not_lt_zero _)
  | succ n ih =>
      rcases Nat.lt_succ_iff_lt_or_eq.mp hlt with hbefore | heq
      · rcases ih hbefore with ⟨k, hwaits⟩ | ⟨m, hm, hissues⟩
        · by_cases hissued : issuedSlot cfg s i n = some k
          · exact Or.inr ⟨n, Nat.lt_succ_self n, k, hwaits, hissued⟩
          · exact Or.inl ⟨k, hwaits.after hissued⟩
        · exact Or.inr ⟨m, Nat.lt_succ_of_lt hm, hissues⟩
      · obtain ⟨k, hslot⟩ := slot_isSome hrun hen
        rw [← heq]
        exact Or.inl ⟨k, waits_new hslot⟩

theorem Issues.unique {m : Nat} (h : Issues cfg s i o m) (h' : Issues cfg s i o n) : m = n := by
  obtain ⟨k, hwaits, hissued⟩ := h
  obtain ⟨k', hwaits', hissued'⟩ := h'
  rcases Nat.lt_trichotomy m n with hlt | heq | hgt
  · exact absurd ⟨k, hwaits, hissued⟩ (hwaits'.not_issued hlt)
  · exact heq
  · exact absurd ⟨k', hwaits', hissued'⟩ (hwaits.not_issued hgt)

theorem waits_or_issued_once (hrun : RsRun cfg s i) (h : Dispatched i n o) :
    ((∃! k, Waits cfg s i o k n) ∧ forall m, m < n -> ¬ Issues cfg s i o m) ∨
      ((∃! m, m < n ∧ Issues cfg s i o m) ∧ forall k, ¬ Waits cfg s i o k n) := by
  rcases waits_or_issued hrun h with ⟨k, hwaits⟩ | ⟨m, hm, hissues⟩
  · left
    constructor
    · exact ⟨k, hwaits, fun k' h' => h'.slot_unique hwaits⟩
    · intro m hm
      exact hwaits.not_issued hm
  · right
    constructor
    · exact ⟨m, ⟨hm, hissues⟩, fun m' h' => h'.right.unique hissues⟩
    · intro k hwaits
      exact hwaits.not_issued hm hissues

theorem Issues.port (h : Issues cfg s i o n) (hrun : RsRun cfg s i) :
    (s n).issueValid cfg = true ∧ Carries cfg i o n ((s n).issue cfg) := by
  obtain ⟨k, hwaits, hissued⟩ := h
  have hissue : (s n).issue? cfg = some k := (ReservationStation.ite_slot.mp hissued).right
  have hidx : (s n).issueIdx cfg = k := by simp [ReservationStation.issueIdx, hissue]
  constructor
  · simp [ReservationStation.issueValid, hissue]
  · unfold ReservationStation.issue
    rw [hidx]
    exact hwaits.carries hrun

/-!
# Numbers
-/

def dispatchedCount (i : Nat -> RsIn payload) : Nat -> Nat
  | 0 => 0
  | n + 1 => dispatchedCount i n + (i n).disp0.en.toNat + (i n).disp1.en.toNat

def issuedCount (cfg : RsConfig) (s : Nat -> ReservationStation payload)
    (i : Nat -> RsIn payload) : Nat -> Nat
  | 0 => 0
  | n + 1 => issuedCount cfg s i n + (issuedSlot cfg s i n).isSome.toNat

theorem dispatchedCount_succ (i : Nat -> RsIn payload) (n : Nat) :
    dispatchedCount i (n + 1) =
      dispatchedCount i n + (i n).disp0.en.toNat + (i n).disp1.en.toNat := rfl

theorem issuedCount_succ (cfg : RsConfig) (s : Nat -> ReservationStation payload)
    (i : Nat -> RsIn payload) (n : Nat) :
    issuedCount cfg s i (n + 1) =
      issuedCount cfg s i n + (issuedSlot cfg s i n).isSome.toNat := rfl

theorem count_eq (hrun : RsRun cfg s i) (n : Nat) :
    (s n).count cfg + issuedCount cfg s i n = dispatchedCount i n := by
  induction n with
  | zero =>
      have hnone : (s 0).count cfg = 0 := by
        apply List.countP_eq_zero.mpr
        intro k hk
        rw [hrun.empty k (List.mem_range.mp hk)]
        exact Bool.false_ne_true
      exact hnone
  | succ n ih =>
      have hstep := @ReservationStation.count_step_slots _ cfg (s n) (i n)
      have hfirst : ((s n).filled0? cfg (i n)).isSome = (i n).disp0.en :=
        ReservationStation.filled_isSome (hrun.room n) .first
      have hsecond : ((s n).filled1? cfg (i n)).isSome = (i n).disp1.en :=
        ReservationStation.filled_isSome (hrun.room n) .second
      rw [hfirst, hsecond, ← hrun.step n] at hstep
      rw [issuedCount_succ, dispatchedCount_succ]
      unfold issuedSlot
      omega

/-!
# An idle front end

Once nothing is dispatched any more the pool runs empty, if every source becomes ready and
every offer is taken at some time.
-/

structure Drains (cfg : RsConfig) (s : Nat -> ReservationStation payload)
    (i : Nat -> RsIn payload) (N : Nat) : Prop where
  quiet : forall n, N <= n -> (i n).disp0.en = false ∧ (i n).disp1.en = false
  offers : forall n, (s n).issueValid cfg = true -> exists m, n <= m ∧ (i m).issueAck = true
  sources : forall o, Dispatched i N o -> exists n,
    SourceReady cfg.src1PortMask i o (dispatch i o).src1Ready (dispatch i o).src1Preg n ∧
      SourceReady cfg.src2PortMask i o (dispatch i o).src2Ready (dispatch i o).src2Preg n

theorem SourceReady.mono {mask : List Bool} {ready : Bool} {preg m : Nat}
    (h : SourceReady mask i o ready preg n) (hle : n <= m) : SourceReady mask i o ready preg m := by
  rcases h with hready | ⟨c, hfrom, hbefore, hhit⟩
  · exact Or.inl hready
  · exact Or.inr ⟨c, hfrom, Nat.lt_of_lt_of_le hbefore hle, hhit⟩

theorem dispatchedCount_quiet {N : Nat} (h : Drains cfg s i N) (hn : N <= n) :
    dispatchedCount i n = dispatchedCount i N := by
  induction hn with
  | refl => rfl
  | step hn ih =>
      rename_i n
      obtain ⟨hfirst, hsecond⟩ := h.quiet n hn
      show dispatchedCount i (n + 1) = _
      rw [dispatchedCount_succ, hfirst, hsecond, ih]
      rfl

theorem issuedCount_mono {m : Nat} (hle : n <= m) :
    issuedCount cfg s i n <= issuedCount cfg s i m := by
  induction hle with
  | refl => exact Nat.le_refl _
  | step _ ih =>
      rename_i m _
      show _ <= issuedCount cfg s i (m + 1)
      rw [issuedCount_succ]
      omega

/--
A waiting operation that is ready is offered, or another one is.
-/
theorem Waits.offered (hrun : RsRun cfg s i) (h : Waits cfg s i o k n)
    (hsrc1 : SourceReady cfg.src1PortMask i o (dispatch i o).src1Ready (dispatch i o).src1Preg n)
    (hsrc2 : SourceReady cfg.src2PortMask i o (dispatch i o).src2Ready (dispatch i o).src2Preg n) :
    (s n).issueValid cfg = true := by
  have hcarries := h.carries hrun
  have hready : (s n).candReady k = true := by
    unfold ReservationStation.candReady
    rw [hcarries.valid, hcarries.src1Ready.mpr hsrc1, hcarries.src2Ready.mpr hsrc2]
    rfl
  unfold ReservationStation.issueValid ReservationStation.issue?
  rw [List.find?_isSome]
  exact ⟨k, List.mem_range.mpr h.lt, hready⟩

theorem drains_empty (hrun : RsRun cfg s i) {N : Nat} (h : Drains cfg s i N) :
    exists n, N <= n ∧ (s n).count cfg = 0 := by
  -- a cycle with as few waiting operations as there ever are
  obtain ⟨n, hn, hleast⟩ : exists n, N <= n ∧ forall m, N <= m ->
      (s n).count cfg <= (s m).count cfg := by
    have hexists : exists c n, N <= n ∧ (s n).count cfg = c := ⟨_, N, Nat.le_refl N, rfl⟩
    classical
    obtain ⟨n, hn, hcount⟩ := Nat.find_spec hexists
    refine ⟨n, hn, fun m hm => ?_⟩
    rw [hcount]
    exact Nat.find_le ⟨m, hm, rfl⟩
  have hnone : forall m, n <= m -> issuedSlot cfg s i m = none := by
    intro m hm
    have hnow := count_eq hrun n
    have hnext := count_eq hrun (m + 1)
    have hfew := hleast (m + 1) (by omega)
    rw [dispatchedCount_quiet h hn] at hnow
    rw [dispatchedCount_quiet h (by omega)] at hnext
    have hmono : issuedCount cfg s i n <= issuedCount cfg s i m := issuedCount_mono hm
    cases hslot : issuedSlot cfg s i m with
    | none => rfl
    | some k =>
        have hmore : issuedCount cfg s i (m + 1) = issuedCount cfg s i m + 1 := by
          rw [issuedCount_succ, hslot]
          rfl
        omega
  have hstays {o : OpId} {k : Nat} (hwaits : Waits cfg s i o k n) {m : Nat} (hm : n <= m) :
      Waits cfg s i o k m := by
    induction hm with
    | refl => exact hwaits
    | step hm ih => exact ih.after (by simp [hnone _ hm])
  refine ⟨n, hn, ?_⟩
  by_contra hpos
  obtain ⟨k, hk, hvalid⟩ := List.countP_pos_iff.mp (Nat.pos_of_ne_zero hpos)
  obtain ⟨o, hwaits⟩ := exists_waits hrun (List.mem_range.mp hk) hvalid
  have hdispatched : Dispatched i N o := by
    refine ⟨?_, ReservationStation.filled_en hwaits.slot⟩
    by_contra hlate
    have hen := ReservationStation.filled_en hwaits.slot
    obtain ⟨hfirst, hsecond⟩ := h.quiet o.cycle (by omega)
    cases hlane : o.lane with
    | first =>
        rw [hlane] at hen
        exact absurd (hfirst.symm.trans hen) (by decide)
    | second =>
        rw [hlane] at hen
        exact absurd (hsecond.symm.trans hen) (by decide)
  obtain ⟨t, hsrc1, hsrc2⟩ := h.sources o hdispatched
  have hready : forall m, n <= m -> t <= m -> (s m).issueValid cfg = true := by
    intro m hm ht
    exact (hstays hwaits hm).offered hrun (hsrc1.mono ht) (hsrc2.mono ht)
  obtain ⟨m, hm, hack⟩ := h.offers (max n t)
    (hready _ (Nat.le_max_left n t) (Nat.le_max_right n t))
  have hoffer := hready m (Nat.le_trans (Nat.le_max_left n t) hm)
    (Nat.le_trans (Nat.le_max_right n t) hm)
  have hissued := hnone m (Nat.le_trans (Nat.le_max_left n t) hm)
  unfold issuedSlot ReservationStation.issued? at hissued
  rw [hack, if_pos rfl] at hissued
  unfold ReservationStation.issueValid at hoffer
  rw [hissued] at hoffer
  cases hoffer

end Runs

/--
What it means that a station conserves its operations.
-/
structure Conserves (cfg : RsConfig) (s : Nat -> ReservationStation payload)
    (i : Nat -> RsIn payload) : Prop where
  apart : forall n lane k, (s n).filled? cfg (i n) lane = some k ->
    ((s n).entry k).valid = false ∧ issuedSlot cfg s i n ≠ some k ∧
      forall other, (s n).filled? cfg (i n) other = some k -> other = lane
  once : forall n o, Dispatched i n o ->
    ((∃! k, Waits cfg s i o k n) ∧ forall m, m < n -> ¬ Issues cfg s i o m) ∨
      ((∃! m, m < n ∧ Issues cfg s i o m) ∧ forall k, ¬ Waits cfg s i o k n)
  issued : forall n, (issuedSlot cfg s i n).isSome = true -> ∃! o, Issues cfg s i o n
  port : forall n o, Issues cfg s i o n -> Dispatched i n o ∧
    (s n).issueValid cfg = true ∧ Carries cfg i o n ((s n).issue cfg) ∧
    SourceReady cfg.src1PortMask i o (dispatch i o).src1Ready (dispatch i o).src1Preg n ∧
    SourceReady cfg.src2PortMask i o (dispatch i o).src2Ready (dispatch i o).src2Preg n
  count : forall n, (s n).count cfg + issuedCount cfg s i n = dispatchedCount i n
  drained : forall N, Drains cfg s i N -> exists n, N <= n ∧
    forall o, Dispatched i n o -> ∃! m, m < n ∧ Issues cfg s i o m

end RsRun

/--
A station conserves its operations: each one waits in one slot or has been issued once, as
it was dispatched and with its sources ready.
-/
theorem rs_conserves {cfg : RsConfig} {s : Nat -> ReservationStation payload}
    {i : Nat -> RsIn payload} (hrun : RsRun cfg s i) : RsRun.Conserves cfg s i where
  apart n lane k h :=
    ⟨(ReservationStation.filled_spec h).right,
      fun hissued => ReservationStation.issued_not_filled hissued h,
      fun _ hother => ReservationStation.filled_lane hother h⟩
  once _ _ h := RsRun.waits_or_issued_once hrun h
  issued n h := by
    obtain ⟨k, hk⟩ := Option.isSome_iff_exists.mp h
    obtain ⟨hlt, hvalid⟩ := ReservationStation.issued_spec hk
    obtain ⟨o, hwaits⟩ := RsRun.exists_waits hrun hlt hvalid
    refine ⟨o, ⟨k, hwaits, hk⟩, ?_⟩
    rintro o' ⟨k', hwaits', hk'⟩
    rw [hk] at hk'
    cases hk'
    exact hwaits'.unique hrun hwaits
  port n o h := by
    obtain ⟨hvalid, hcarries⟩ := h.port hrun
    obtain ⟨_, _, hsrc1, hsrc2⟩ := ReservationStation.issueIdx_spec hvalid
    obtain ⟨k, hwaits, _⟩ := h
    have hen : (RsRun.dispatch i o).en = true := ReservationStation.filled_en hwaits.slot
    exact ⟨⟨hwaits.dispatched, hen⟩, hvalid, hcarries, hcarries.src1Ready.mp hsrc1,
      hcarries.src2Ready.mp hsrc2⟩
  count := RsRun.count_eq hrun
  drained N h := by
    obtain ⟨n, hn, hempty⟩ := RsRun.drains_empty hrun h
    refine ⟨n, hn, ?_⟩
    intro o hdispatched
    rcases RsRun.waits_or_issued_once hrun hdispatched with ⟨⟨k, hwaits, _⟩, _⟩ | ⟨honce, _⟩
    · have hvalid := (hwaits.carries hrun).valid
      have hnone := List.countP_eq_zero.mp hempty k (List.mem_range.mpr hwaits.lt)
      exact absurd hvalid hnone
    · exact honce

/-!
# A small station
-/

def twoSlots : RsConfig :=
  { entries := 2, src1PortMask := allPorts, src2PortMask := allPorts }

/--
A pair is dispatched whenever the station is empty; the second operation waits for register
7, which is broadcast all the time.
-/
def pairs (rs : ReservationStation Nat) : RsIn Nat :=
  let empty := decide (rs.count twoSlots = 0)
  { disp0 :=
      { en := empty, src1Preg := 1, src1Ready := true, src2Preg := 2, src2Ready := true
        destPreg := 3, robTag := 0, data := 0 }
    disp1 :=
      { en := empty, src1Preg := 7, src1Ready := false, src2Preg := 2, src2Ready := true
        destPreg := 4, robTag := 1, data := 0 }
    cdb := [some 7, none, none, none]
    issueAck := true }

def pairRun : Nat -> ReservationStation Nat :=
  driven (ReservationStation.step twoSlots) pairs
    { entry := fun _ =>
        { valid := false, src1Preg := 0, src1Ready := false, src2Preg := 0, src2Ready := false
          destPreg := 0, robTag := 0, data := 0 } }

theorem rs_conserves_pairs :
    exists m, m < 3 ∧
      RsRun.Issues twoSlots pairRun (fun n => pairs (pairRun n)) ⟨0, .second⟩ m := by
  have hrun : RsRun twoSlots pairRun fun n => pairs (pairRun n) :=
    { empty := fun _ _ => rfl
      step := fun _ => rfl
      room := by
        intro n
        have hle : (pairRun n).count twoSlots <= 2 := List.countP_le_length
        have htwo : twoSlots.entries = 2 := rfl
        unfold pairs
        rw [htwo]
        by_cases hempty : (pairRun n).count twoSlots = 0
        · simp [hempty]
        · simpa [hempty] using hle }
  have honce := (rs_conserves hrun).once 3 ⟨0, .second⟩ ⟨by decide, by decide⟩
  have hempty : (pairRun 3).count twoSlots = 0 := by decide +kernel
  rcases honce with ⟨⟨k, hwaits, _⟩, _⟩ | ⟨⟨m, ⟨hm, hissues⟩, _⟩, _⟩
  · have hvalid := (hwaits.carries hrun).valid
    exact absurd hvalid (List.countP_eq_zero.mp hempty k (List.mem_range.mpr hwaits.lt))
  · exact ⟨m, hm, hissues⟩

end Ooo
end RvCores
