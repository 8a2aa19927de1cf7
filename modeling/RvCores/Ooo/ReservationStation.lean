import RvCores.Lib.Table
import Mathlib.Data.List.Basic

/-!
# Reservation stations

A station is an unordered pool of waiting operations.  An operation enters the
lowest free slot, its two sources become ready when their physical register is
seen on one of four broadcast ports, and the lowest slot with both sources ready
is offered for issue.  The payload is whatever the functional unit needs besides
the register numbers.
-/

namespace RvCores
namespace Ooo

open Lib

variable {payload : Type}

structure RsEntry (payload : Type) where
  valid : Bool
  src1Preg : Nat
  src1Ready : Bool
  src2Preg : Nat
  src2Ready : Bool
  destPreg : Nat
  robTag : Nat
  data : payload

structure RsDispatch (payload : Type) where
  en : Bool
  src1Preg : Nat
  src1Ready : Bool
  src2Preg : Nat
  src2Ready : Bool
  destPreg : Nat
  robTag : Nat
  data : payload

structure RsIn (payload : Type) where
  disp0 : RsDispatch payload
  disp1 : RsDispatch payload
  cdb : List (Option Nat)
  issueAck : Bool

/--
The static parameters of one instance: how many slots, and which broadcast
ports each source listens to.
-/
structure RsConfig where
  entries : Nat
  src1PortMask : List Bool
  src2PortMask : List Bool

def allPorts : List Bool := [true, true, true, true]

structure ReservationStation (payload : Type) where
  entry : Nat -> RsEntry payload

namespace RsDispatch

def idle (data : payload) : RsDispatch payload :=
  { en := false
    src1Preg := 0
    src1Ready := false
    src2Preg := 0
    src2Ready := false
    destPreg := 0
    robTag := 0
    data := data }

end RsDispatch

namespace ReservationStation

def cdbHit (mask : List Bool) (cdb : List (Option Nat)) (preg : Nat) : Bool :=
  (mask.zip cdb).any (fun port => port.1 && decide (port.2 = some preg))

def alloc0? (cfg : RsConfig) (rs : ReservationStation payload) : Option Nat :=
  (List.range cfg.entries).find? (fun k => !(rs.entry k).valid)

def alloc1? (cfg : RsConfig) (rs : ReservationStation payload) (dispEn0 : Bool) :
    Option Nat :=
  (List.range cfg.entries).find?
    (fun k => !(rs.entry k).valid && !(dispEn0 && decide (rs.alloc0? cfg = some k)))

def candReady (rs : ReservationStation payload) (k : Nat) : Bool :=
  (rs.entry k).valid && (rs.entry k).src1Ready && (rs.entry k).src2Ready

def issue? (cfg : RsConfig) (rs : ReservationStation payload) : Option Nat :=
  (List.range cfg.entries).find? rs.candReady

def issueValid (cfg : RsConfig) (rs : ReservationStation payload) : Bool :=
  (rs.issue? cfg).isSome

def issueIdx (cfg : RsConfig) (rs : ReservationStation payload) : Nat :=
  (rs.issue? cfg).getD 0

def issue (cfg : RsConfig) (rs : ReservationStation payload) : RsEntry payload :=
  rs.entry (rs.issueIdx cfg)

def count (cfg : RsConfig) (rs : ReservationStation payload) : Nat :=
  (List.range cfg.entries).countP (fun k => (rs.entry k).valid)

def full (cfg : RsConfig) (rs : ReservationStation payload) : Bool :=
  decide (rs.count cfg >= cfg.entries)

def reset (cfg : RsConfig) (rs : ReservationStation payload) :
    ReservationStation payload :=
  { entry := fun k =>
      if k < cfg.entries then { rs.entry k with valid := false } else rs.entry k }

def wakeup (cfg : RsConfig) (cdb : List (Option Nat)) (e : RsEntry payload) :
    RsEntry payload :=
  { e with
    src1Ready :=
      e.src1Ready || (e.valid && cdbHit cfg.src1PortMask cdb e.src1Preg)
    src2Ready :=
      e.src2Ready || (e.valid && cdbHit cfg.src2PortMask cdb e.src2Preg) }

/--
A broadcast in the dispatch cycle itself is caught here, because the new
entry is not yet in the pool that the wakeup scans.
-/
def newEntry (cfg : RsConfig) (cdb : List (Option Nat)) (d : RsDispatch payload) :
    RsEntry payload :=
  { valid := true
    src1Preg := d.src1Preg
    src1Ready := d.src1Ready || cdbHit cfg.src1PortMask cdb d.src1Preg
    src2Preg := d.src2Preg
    src2Ready := d.src2Ready || cdbHit cfg.src2PortMask cdb d.src2Preg
    destPreg := d.destPreg
    robTag := d.robTag
    data := d.data }

def clearAt (slot : Option Nat) (entry : Nat -> RsEntry payload) :
    Nat -> RsEntry payload :=
  match slot with
  | none => entry
  | some k => modifyAt entry k (fun e => { e with valid := false })

def dispatchAt (cfg : RsConfig) (cdb : List (Option Nat)) (slot : Option Nat)
    (d : RsDispatch payload) (entry : Nat -> RsEntry payload) :
    Nat -> RsEntry payload :=
  match slot with
  | none => entry
  | some k => if d.en then setAt entry k (newEntry cfg cdb d) else entry

def step (cfg : RsConfig) (rs : ReservationStation payload) (i : RsIn payload) :
    ReservationStation payload :=
  let woken := fun k =>
    if k < cfg.entries then wakeup cfg i.cdb (rs.entry k) else rs.entry k
  let issued := clearAt (if i.issueAck then rs.issue? cfg else none) woken
  { entry :=
      dispatchAt cfg i.cdb (rs.alloc1? cfg i.disp0.en) i.disp1
        (dispatchAt cfg i.cdb (rs.alloc0? cfg) i.disp0 issued) }

/-!
# Slots picked by the station
-/

section Slots

variable {cfg : RsConfig} {rs : ReservationStation payload} {k : Nat}

theorem alloc0_spec (h : rs.alloc0? cfg = some k) :
    k < cfg.entries ∧ (rs.entry k).valid = false := by
  have hmem := List.mem_of_find?_eq_some h
  have hfree := List.find?_some h
  exact ⟨List.mem_range.mp hmem, by simpa using hfree⟩

theorem alloc1_spec {dispEn0 : Bool} (h : rs.alloc1? cfg dispEn0 = some k) :
    k < cfg.entries ∧ (rs.entry k).valid = false ∧
      (dispEn0 = true -> rs.alloc0? cfg ≠ some k) := by
  have hmem := List.mem_of_find?_eq_some h
  have hfree := List.find?_some h
  simp only [Bool.and_eq_true, Bool.not_eq_true', Bool.and_eq_false_iff,
    decide_eq_false_iff_not] at hfree
  refine ⟨List.mem_range.mp hmem, hfree.left, ?_⟩
  intro hen
  exact hfree.right.resolve_left (by simp [hen])

theorem exists_alloc0 (h : rs.full cfg = false) : exists k, rs.alloc0? cfg = some k := by
  cases halloc : rs.alloc0? cfg with
  | some k => exact ⟨k, rfl⟩
  | none =>
      exfalso
      have hall : forall k, k ∈ List.range cfg.entries -> (rs.entry k).valid = true := by
        intro k hk
        simpa using List.find?_eq_none.mp halloc k hk
      have hcount : rs.count cfg = cfg.entries := by
        rw [count, List.countP_eq_length.mpr hall, List.length_range]
      simp [full, hcount] at h

theorem issue_spec (h : rs.issue? cfg = some k) :
    k < cfg.entries ∧ rs.candReady k = true :=
  ⟨List.mem_range.mp (List.mem_of_find?_eq_some h), List.find?_some h⟩

theorem issue_of_issueValid (h : rs.issueValid cfg = true) :
    rs.issue? cfg = some (rs.issueIdx cfg) := by
  cases hissue : rs.issue? cfg with
  | none => simp [issueValid, hissue] at h
  | some j => simp [issueIdx, hissue]

theorem issueIdx_spec (h : rs.issueValid cfg = true) :
    rs.issueIdx cfg < cfg.entries ∧ (rs.issue cfg).valid = true ∧
      (rs.issue cfg).src1Ready = true ∧ (rs.issue cfg).src2Ready = true := by
  rcases issue_spec (issue_of_issueValid h) with ⟨hlt, hready⟩
  simp only [candReady, Bool.and_eq_true] at hready
  exact ⟨hlt, hready.left.left, hready.left.right, hready.right⟩

end Slots

/-!
# Entries after one clock edge
-/

section Step

variable {cfg : RsConfig} {rs : ReservationStation payload} {i : RsIn payload} {k : Nat}

theorem step_entry (hk : k < cfg.entries) :
    (rs.step cfg i).entry k =
      if i.disp1.en = true ∧ rs.alloc1? cfg i.disp0.en = some k then
        newEntry cfg i.cdb i.disp1
      else if i.disp0.en = true ∧ rs.alloc0? cfg = some k then
        newEntry cfg i.cdb i.disp0
      else if i.issueAck = true ∧ rs.issue? cfg = some k then
        { wakeup cfg i.cdb (rs.entry k) with valid := false }
      else wakeup cfg i.cdb (rs.entry k) := by
  have hclear : clearAt (if i.issueAck then rs.issue? cfg else none)
      (fun k => if k < cfg.entries then wakeup cfg i.cdb (rs.entry k) else rs.entry k) k =
      if i.issueAck = true ∧ rs.issue? cfg = some k then
        { wakeup cfg i.cdb (rs.entry k) with valid := false }
      else wakeup cfg i.cdb (rs.entry k) := by
    cases hack : i.issueAck with
    | false => simp [clearAt, hk]
    | true =>
        cases hissue : rs.issue? cfg with
        | none => simp [clearAt, hk]
        | some j =>
            by_cases hj : k = j
            · simp [clearAt, hj, hj ▸ hk]
            · have hne : ¬ j = k := fun heq => hj heq.symm
              simp [clearAt, modifyAt_of_ne hj, hk, hne]
  have hdisp : forall (slot : Option Nat) (d : RsDispatch payload)
      (entry : Nat -> RsEntry payload), dispatchAt cfg i.cdb slot d entry k =
        if d.en = true ∧ slot = some k then newEntry cfg i.cdb d else entry k := by
    intro slot d entry
    cases slot with
    | none => simp [dispatchAt]
    | some j =>
        cases hen : d.en with
        | false => simp [dispatchAt, hen]
        | true =>
            by_cases hj : k = j
            · simp [dispatchAt, hen, hj]
            · have hne : ¬ j = k := fun heq => hj heq.symm
              simp [dispatchAt, hen, setAt_of_ne hj, hne]
  change dispatchAt cfg i.cdb (rs.alloc1? cfg i.disp0.en) i.disp1
    (dispatchAt cfg i.cdb (rs.alloc0? cfg) i.disp0 (clearAt _ _)) k = _
  rw [hdisp, hdisp, hclear]

/--
An operation in the pool was there before and did not issue, or was dispatched
into a free slot in this cycle.
-/
theorem step_valid_cases (hk : k < cfg.entries)
    (h : ((rs.step cfg i).entry k).valid = true) :
    ((rs.entry k).valid = true ∧ ¬ (i.issueAck = true ∧ rs.issue? cfg = some k) ∧
        (rs.step cfg i).entry k = wakeup cfg i.cdb (rs.entry k)) ∨
      (i.disp0.en = true ∧ rs.alloc0? cfg = some k ∧
        (rs.step cfg i).entry k = newEntry cfg i.cdb i.disp0) ∨
      (i.disp1.en = true ∧ rs.alloc1? cfg i.disp0.en = some k ∧
        (rs.step cfg i).entry k = newEntry cfg i.cdb i.disp1) := by
  rw [step_entry hk] at h ⊢
  by_cases h1 : i.disp1.en = true ∧ rs.alloc1? cfg i.disp0.en = some k
  · rw [if_pos h1]
    exact Or.inr (Or.inr ⟨h1.left, h1.right, rfl⟩)
  · rw [if_neg h1] at h ⊢
    by_cases h0 : i.disp0.en = true ∧ rs.alloc0? cfg = some k
    · rw [if_pos h0]
      exact Or.inr (Or.inl ⟨h0.left, h0.right, rfl⟩)
    · rw [if_neg h0] at h ⊢
      by_cases hissue : i.issueAck = true ∧ rs.issue? cfg = some k
      · rw [if_pos hissue] at h
        simp at h
      · rw [if_neg hissue] at h ⊢
        exact Or.inl ⟨h, hissue, rfl⟩

/--
The slot and the reorder-buffer tag of a waiting operation.
-/
def Holds (cfg : RsConfig) (rs : ReservationStation payload) (k t : Nat) : Prop :=
  k < cfg.entries ∧ (rs.entry k).valid = true ∧ (rs.entry k).robTag = t

theorem holds_step {t : Nat} (h : Holds cfg (rs.step cfg i) k t) :
    (Holds cfg rs k t ∧ (if i.issueAck then rs.issue? cfg else none) ≠ some k) ∨
      ((if i.disp0.en then rs.alloc0? cfg else none) = some k ∧ t = i.disp0.robTag) ∨
      ((if i.disp1.en then rs.alloc1? cfg i.disp0.en else none) = some k ∧
        t = i.disp1.robTag) := by
  rcases h with ⟨hk, hvalid, htag⟩
  rcases step_valid_cases hk hvalid with
    ⟨hold, hstay, hentry⟩ | ⟨hen, hslot, hentry⟩ | ⟨hen, hslot, hentry⟩
  · left
    rw [hentry] at htag
    refine ⟨⟨hk, hold, htag⟩, ?_⟩
    intro hissue
    apply hstay
    cases hack : i.issueAck with
    | false => simp [hack] at hissue
    | true => exact ⟨rfl, by simpa [hack] using hissue⟩
  · right
    left
    rw [hentry] at htag
    exact ⟨by simp [hen, hslot], htag.symm⟩
  · right
    right
    rw [hentry] at htag
    exact ⟨by simp [hen, hslot], htag.symm⟩

theorem holds_issue (h : rs.issueValid cfg = true) :
    Holds cfg rs (rs.issueIdx cfg) (rs.issue cfg).robTag :=
  ⟨(issueIdx_spec h).left, (issueIdx_spec h).right.left, rfl⟩

end Step

theorem reset_valid {cfg : RsConfig} (rs : ReservationStation payload) {k : Nat}
    (hk : k < cfg.entries) :
    ((rs.reset cfg).entry k).valid = false := by
  simp [reset, hk]

theorem not_holds_reset (cfg : RsConfig) (rs : ReservationStation payload) (k t : Nat) :
    ¬ Holds cfg (rs.reset cfg) k t := by
  rintro ⟨hk, hvalid, _⟩
  rw [reset_valid rs hk] at hvalid
  exact absurd hvalid Bool.false_ne_true

/-!
# Operations in the pool
-/

theorem countP_setAt {valid : Nat -> Bool} {n k : Nat} (hk : k < n) (hfree : valid k = false) :
    (List.range n).countP (setAt valid k true) = (List.range n).countP valid + 1 := by
  induction n with
  | zero => exact absurd hk (Nat.not_lt_zero k)
  | succ n ih =>
      rw [List.range_succ, List.countP_append, List.countP_append, List.countP_singleton,
        List.countP_singleton]
      rcases Nat.lt_succ_iff_lt_or_eq.mp hk with hless | heq
      · rw [ih hless, setAt_of_ne (Nat.ne_of_gt hless)]
        omega
      · have hbelow : (List.range n).countP (setAt valid k true) =
            (List.range n).countP valid := by
          apply List.countP_congr
          intro j hj
          have hlt : j < n := List.mem_range.mp hj
          rw [setAt_of_ne (by omega)]
        rw [hbelow, ← heq, setAt_self, hfree]
        rfl

theorem countP_setAt_false {valid : Nat -> Bool} {n k : Nat} (hk : k < n)
    (htaken : valid k = true) :
    (List.range n).countP (setAt valid k false) + 1 = (List.range n).countP valid := by
  have hback : setAt (setAt valid k false) k true = valid := by
    rw [setAt_setAt]
    funext j
    rw [setAt_apply]
    split
    · rename_i hj
      rw [hj, htaken]
    · rfl
  rw [← countP_setAt hk (setAt_self valid k false), hback]

def mark (slot : Option Nat) (b : Bool) (valid : Nat -> Bool) : Nat -> Bool :=
  fun k => if slot = some k then b else valid k

theorem mark_some (k : Nat) (b : Bool) (valid : Nat -> Bool) :
    mark (some k) b valid = setAt valid k b := by
  funext j
  have hswap : some k = some j <-> j = k := Option.some_inj.trans eq_comm
  unfold mark
  rw [setAt_apply]
  simp only [hswap]

theorem countP_mark_true {valid : Nat -> Bool} {n : Nat} {slot : Option Nat}
    (h : forall k, slot = some k -> k < n ∧ valid k = false) :
    (List.range n).countP (mark slot true valid) =
      (List.range n).countP valid + slot.isSome.toNat := by
  cases slot with
  | none => rfl
  | some k =>
      obtain ⟨hk, hfree⟩ := h k rfl
      rw [mark_some, countP_setAt hk hfree]
      rfl

theorem countP_mark_false {valid : Nat -> Bool} {n : Nat} {slot : Option Nat}
    (h : forall k, slot = some k -> k < n ∧ valid k = true) :
    (List.range n).countP (mark slot false valid) + slot.isSome.toNat =
      (List.range n).countP valid := by
  cases slot with
  | none => rfl
  | some k =>
      obtain ⟨hk, htaken⟩ := h k rfl
      rw [mark_some]
      exact countP_setAt_false hk htaken

/--
The slots that one cycle frees and fills.
-/
def issued? (cfg : RsConfig) (rs : ReservationStation payload) (i : RsIn payload) : Option Nat :=
  if i.issueAck then rs.issue? cfg else none

def filled0? (cfg : RsConfig) (rs : ReservationStation payload) (i : RsIn payload) : Option Nat :=
  if i.disp0.en then rs.alloc0? cfg else none

def filled1? (cfg : RsConfig) (rs : ReservationStation payload) (i : RsIn payload) : Option Nat :=
  if i.disp1.en then rs.alloc1? cfg i.disp0.en else none

section Pool

variable {cfg : RsConfig} {rs : ReservationStation payload} {i : RsIn payload} {k : Nat}

theorem ite_slot {c : Bool} {slot : Option Nat} :
    (if c then slot else none) = some k <-> c = true ∧ slot = some k := by
  cases c <;> simp

theorem issued_spec (h : rs.issued? cfg i = some k) :
    k < cfg.entries ∧ (rs.entry k).valid = true := by
  obtain ⟨hlt, hready⟩ := issue_spec (ite_slot.mp h).right
  simp only [candReady, Bool.and_eq_true] at hready
  exact ⟨hlt, hready.left.left⟩

theorem filled0_spec (h : rs.filled0? cfg i = some k) :
    k < cfg.entries ∧ (rs.entry k).valid = false :=
  alloc0_spec (ite_slot.mp h).right

/--
The second scan skips the slot that the first one gives away.
-/
theorem filled1_spec (h : rs.filled1? cfg i = some k) :
    k < cfg.entries ∧ (rs.entry k).valid = false ∧ rs.filled0? cfg i ≠ some k := by
  obtain ⟨hlt, hfree, hother⟩ := alloc1_spec (ite_slot.mp h).right
  refine ⟨hlt, hfree, ?_⟩
  intro h0
  obtain ⟨hen, hslot⟩ := ite_slot.mp h0
  exact hother hen hslot

theorem valid_step (hk : k < cfg.entries) :
    ((rs.step cfg i).entry k).valid =
      mark (rs.filled1? cfg i) true
        (mark (rs.filled0? cfg i) true
          (mark (rs.issued? cfg i) false fun k => (rs.entry k).valid)) k := by
  unfold mark issued? filled0? filled1?
  rw [step_entry hk]
  simp only [ite_slot]
  split
  · rfl
  · split
    · rfl
    · split <;> rfl

/--
A pool grows by the slots that are filled and shrinks by the slot that is issued.
-/
theorem count_step_slots :
    (rs.step cfg i).count cfg + (rs.issued? cfg i).isSome.toNat =
      rs.count cfg + (rs.filled0? cfg i).isSome.toNat + (rs.filled1? cfg i).isSome.toNat := by
  have hstep : (rs.step cfg i).count cfg = (List.range cfg.entries).countP
      (mark (rs.filled1? cfg i) true
        (mark (rs.filled0? cfg i) true
          (mark (rs.issued? cfg i) false fun k => (rs.entry k).valid))) := by
    apply List.countP_congr
    intro k hk
    rw [valid_step (List.mem_range.mp hk)]
  have hissued : (List.range cfg.entries).countP
      (mark (rs.issued? cfg i) false fun k => (rs.entry k).valid) +
        (rs.issued? cfg i).isSome.toNat = rs.count cfg :=
    countP_mark_false fun k hk => issued_spec hk
  have hstays {k : Nat} (hfree : (rs.entry k).valid = false) :
      mark (rs.issued? cfg i) false (fun k => (rs.entry k).valid) k = false := by
    unfold mark
    split
    · rfl
    · exact hfree
  have hfilled0 := @countP_mark_true
    (mark (rs.issued? cfg i) false fun k => (rs.entry k).valid) cfg.entries
    (rs.filled0? cfg i) fun k hk => ⟨(filled0_spec hk).left, hstays (filled0_spec hk).right⟩
  have hfilled1 := @countP_mark_true
    (mark (rs.filled0? cfg i) true
      (mark (rs.issued? cfg i) false fun k => (rs.entry k).valid)) cfg.entries
    (rs.filled1? cfg i) fun k hk => by
      obtain ⟨hlt, hfree, hother⟩ := filled1_spec hk
      refine ⟨hlt, ?_⟩
      unfold mark at hstays ⊢
      rw [if_neg hother]
      exact hstays hfree
  rw [hstep, hfilled1, hfilled0]
  omega

/--
A pool with room grows by what is dispatched and shrinks by what is issued.
-/
theorem count_step (hsingle : i.disp1.en = false)
    (hroom : i.disp0.en = true -> rs.full cfg = false)
    (hack : i.issueAck = true -> rs.issueValid cfg = true) :
    (rs.step cfg i).count cfg + i.issueAck.toNat = rs.count cfg + i.disp0.en.toNat := by
  have hslots := @count_step_slots _ cfg rs i
  have hissued : (rs.issued? cfg i).isSome = i.issueAck := by
    unfold issued?
    cases hen : i.issueAck with
    | false => rfl
    | true => exact hack hen
  have hfilled0 : (rs.filled0? cfg i).isSome = i.disp0.en := by
    unfold filled0?
    cases hen : i.disp0.en with
    | false => rfl
    | true =>
        obtain ⟨slot, hslot⟩ := exists_alloc0 (hroom hen)
        simp [hslot]
  have hfilled1 : rs.filled1? cfg i = none := by simp [filled1?, hsingle]
  rw [hissued, hfilled0, hfilled1] at hslots
  exact hslots

end Pool

end ReservationStation

/-!
# Payloads

What a station does never depends on the payload, so the payload may be replaced
by any view of it.
-/

section View

variable {view : Type}

def RsEntry.viewAs (f : payload -> view) (e : RsEntry payload) : RsEntry view :=
  { valid := e.valid
    src1Preg := e.src1Preg
    src1Ready := e.src1Ready
    src2Preg := e.src2Preg
    src2Ready := e.src2Ready
    destPreg := e.destPreg
    robTag := e.robTag
    data := f e.data }

def RsDispatch.viewAs (f : payload -> view) (d : RsDispatch payload) : RsDispatch view :=
  { en := d.en
    src1Preg := d.src1Preg
    src1Ready := d.src1Ready
    src2Preg := d.src2Preg
    src2Ready := d.src2Ready
    destPreg := d.destPreg
    robTag := d.robTag
    data := f d.data }

def RsIn.viewAs (f : payload -> view) (i : RsIn payload) : RsIn view :=
  { disp0 := i.disp0.viewAs f
    disp1 := i.disp1.viewAs f
    cdb := i.cdb
    issueAck := i.issueAck }

namespace ReservationStation

def viewAs (f : payload -> view) (rs : ReservationStation payload) :
    ReservationStation view :=
  { entry := fun k => (rs.entry k).viewAs f }

variable {cfg : RsConfig} {f : payload -> view}

theorem clearAt_viewAs (slot : Option Nat) (entry : Nat -> RsEntry payload) :
    (fun k => (clearAt slot entry k).viewAs f) =
      clearAt slot (fun k => (entry k).viewAs f) := by
  cases slot with
  | none => rfl
  | some j =>
      funext k
      by_cases hk : k = j
      · simp only [clearAt, hk, modifyAt_self]
        rfl
      · simp only [clearAt, modifyAt_of_ne hk]

theorem dispatchAt_viewAs (cdb : List (Option Nat)) (slot : Option Nat)
    (d : RsDispatch payload) (entry : Nat -> RsEntry payload) :
    (fun k => (dispatchAt cfg cdb slot d entry k).viewAs f) =
      dispatchAt cfg cdb slot (d.viewAs f) (fun k => (entry k).viewAs f) := by
  cases slot with
  | none => rfl
  | some j =>
      have hen : (d.viewAs f).en = d.en := rfl
      cases h : d.en with
      | false => simp only [dispatchAt, hen, h, Bool.false_eq_true, if_false]
      | true =>
          simp only [dispatchAt, hen, h, if_true]
          exact comp_setAt (RsEntry.viewAs f) entry j (newEntry cfg cdb d)

theorem step_viewAs (rs : ReservationStation payload) (i : RsIn payload) :
    (rs.step cfg i).viewAs f = (rs.viewAs f).step cfg (i.viewAs f) := by
  have hwoken : (fun k => RsEntry.viewAs f
        (if k < cfg.entries then wakeup cfg i.cdb (rs.entry k) else rs.entry k)) =
      fun k => if k < cfg.entries then wakeup cfg i.cdb ((rs.viewAs f).entry k)
        else (rs.viewAs f).entry k := by
    funext k
    split <;> rfl
  unfold step viewAs
  simp only [dispatchAt_viewAs, clearAt_viewAs, hwoken]
  rfl

end ReservationStation

end View
end Ooo
end RvCores
