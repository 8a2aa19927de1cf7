import RvCores.Ooo.Trace
import RvCores.Ooo.PowerUp

/-!
# No early retirement

Tags are reused, so to say that a completion pulse reaches the instruction it
belongs to, the core is run beside a record of origins: for every reorder-buffer
entry, station slot and unit, the cycle and slot in which the instruction there
was dispatched and the unit that owns it.  The record watches the core and never
influences it.
-/

namespace RvCores
namespace Ooo

open Lib

structure Origin where
  cycle : Nat
  slot : Nat
  unit : ExecUnit
deriving DecidableEq

structure Traced where
  core : Core
  cycle : Nat
  rob : Nat -> Origin
  finished : Nat -> Bool
  waiting : ExecUnit -> Nat -> Origin
  running : ExecUnit -> Origin

namespace Traced

def origin0 (P : Params) (g : Traced) : Origin :=
  { cycle := g.cycle, slot := 0, unit := g.core.owner P }

def origin1 (g : Traced) : Origin := { cycle := g.cycle, slot := 1, unit := .alu }

def stamp (slot : Option Nat) (o : Origin) (table : Nat -> Origin) : Nat -> Origin :=
  match slot with
  | none => table
  | some k => setAt table k o

def robTag0 (P : Params) (g : Traced) (i : Input) : Option Nat :=
  if g.core.doDispatch P i then some g.core.robAllocTag0 else none

def robTag1 (P : Params) (g : Traced) (i : Input) : Option Nat :=
  if g.core.doDispatchSlot1 P i then some (g.core.robAllocTag1 P i) else none

/--
The origin of the operation that leaves the station of a unit.
-/
def departing (P : Params) (g : Traced) (i : Input) (u : ExecUnit) : Origin :=
  match g.core.leavesSlot P i u with
  | some k => g.waiting u k
  | none => g.running u

/--
The origin of the operation that a completion pulse reports.
-/
def pulseOrigin (P : Params) (g : Traced) (i : Input) (u : ExecUnit) : Origin :=
  if Core.direct u then g.departing P i u else g.running u

def reports (P : Params) (g : Traced) (i : Input) (t : Nat) (u : ExecUnit) : Bool :=
  decide (g.core.pulse P i u = some t) && decide (g.pulseOrigin P i u = g.rob t) &&
    decide ((g.rob t).unit = u)

def step (P : Params) (g : Traced) (i : Input) : Traced :=
  { core := g.core.step P i
    cycle := g.cycle + 1
    rob := stamp (g.robTag1 P i) g.origin1 (stamp (g.robTag0 P i) (g.origin0 P) g.rob)
    finished := fun t =>
      if some t = g.robTag0 P i ∨ some t = g.robTag1 P i then false
      else g.finished t || Core.units.any (g.reports P i t)
    waiting := fun u =>
      stamp (g.core.enters1 P i u) g.origin1
        (stamp (g.core.enters0 P i u) (g.origin0 P) (g.waiting u))
    running := fun u =>
      if g.core.unitStart u then g.departing P i u else g.running u }

def start (s : Core) : Traced :=
  { core := s
    cycle := 0
    rob := fun _ => { cycle := 0, slot := 0, unit := .alu }
    finished := fun _ => false
    waiting := fun _ _ => { cycle := 0, slot := 0, unit := .alu }
    running := fun _ => { cycle := 0, slot := 0, unit := .alu } }

/--
Every run of the core is the core's part of a traced run.
-/
theorem exists_traced {P : Params} {cond : Core -> Input -> Prop} {s0 s : Core}
    (h : ReachableWhen (Core.step P) cond s0 s) :
    exists g, g.core = s ∧
      ReachableWhen (step P) (fun g i => cond g.core i) (start s0) g := by
  induction h with
  | refl => exact ⟨start s0, rfl, reachableWhen_refl _⟩
  | tail _ hcycle ih =>
      rcases hcycle with ⟨i, hcond, rfl⟩
      rcases ih with ⟨g, rfl, hrun⟩
      exact ⟨g.step P i, rfl, reachableWhen_tail hrun hcond⟩

/-!
# The property

A pulse reports a live entry that is not done yet, that still belongs to the
reported instruction, and whose instruction the unit owns.  An entry is only done
after such a pulse.
-/

structure Reported (P : Params) (g : Traced) (i : Input) (u : ExecUnit) (t : Nat) :
    Prop where
  live : g.core.rob.Live P.robEntries t
  undone : (g.core.rob.entry t).done = false
  origin : g.rob t = g.pulseOrigin P i u
  owned : (g.rob t).unit = u

def PulsesOwned (P : Params) (g : Traced) (i : Input) : Prop :=
  forall u t, g.core.pulse P i u = some t -> g.Reported P i u t

def DoneAfterReport (P : Params) (g : Traced) : Prop :=
  forall t, g.core.rob.Live P.robEntries t -> (g.core.rob.entry t).done = true ->
    g.finished t = true

end Traced

/-!
# Double dispatch

The ALU station takes every instruction that is not a memory, divide or float
operation, vector instructions included, and a float load whose immediate looks
like a float operation enters both the queue and a float station.
-/

namespace Core

variable {P : Params} {s : Core} {i : Input}

def DoubleDispatch (P : Params) (s : Core) (i : Input) : Prop :=
  s.doDispatch P i = true ∧
    (s.isVecArith P = true ∨ s.isVecLs P = true ∨
      (s.isMemOp P = true ∧ s.isFpOp P = true))

instance (P : Params) (s : Core) (i : Input) : Decidable (DoubleDispatch P s i) :=
  inferInstanceAs (Decidable (_ ∧ _))

theorem enters0_owner (hsingle : ¬ DoubleDispatch P s i) {u : ExecUnit} {k : Nat}
    (h : s.enters0 P i u = some k) :
    s.doDispatch P i = true ∧ s.owner P = u := by
  have hclass : s.doDispatch P i = true -> s.isVecArith P = false ∧
      s.isVecLs P = false ∧ (s.isMemOp P = true -> s.isFpOp P = false) := by
    intro hgo
    refine ⟨?_, ?_, ?_⟩
    · exact Bool.eq_false_iff.mpr (fun hv => hsingle ⟨hgo, Or.inl hv⟩)
    · exact Bool.eq_false_iff.mpr (fun hv => hsingle ⟨hgo, Or.inr (Or.inl hv)⟩)
    · intro hmem
      exact Bool.eq_false_iff.mpr (fun hf => hsingle ⟨hgo, Or.inr (Or.inr ⟨hmem, hf⟩)⟩)
  have hen : forall {en : Bool} {slot : Option Nat},
      (if en then slot else none) = some k -> en = true := by
    intro en slot hslot
    cases en with
    | true => rfl
    | false => simp at hslot
  cases u with
  | alu =>
      have hgo := hen h
      simp only [rsAluDispEn0, Bool.and_eq_true, Bool.not_eq_true'] at hgo
      rcases hgo with ⟨⟨⟨hgo, hmem⟩, hdiv⟩, hfp⟩
      rcases hclass hgo with ⟨harith, hls, _⟩
      exact ⟨hgo, by simp [owner, hmem, hdiv, hfp, harith, hls]⟩
  | lsq =>
      have hgo := hen h
      simp only [Bool.and_eq_true] at hgo
      exact ⟨hgo.left, by simp [owner, hgo.right]⟩
  | div =>
      have hgo := hen h
      simp only [Bool.and_eq_true] at hgo
      exact ⟨hgo.left, by simp [owner, (isDivOp_class hgo.right).left, hgo.right]⟩
  | falu =>
      have hgo := hen h
      simp only [Bool.and_eq_true, Bool.not_eq_true'] at hgo
      rcases hgo with ⟨⟨hgo, hfp⟩, hmulti⟩
      have hmem : s.isMemOp P = false :=
        Bool.eq_false_iff.mpr (fun hm => by simp [(hclass hgo).right.right hm] at hfp)
      have hdiv : s.isDivOp P = false :=
        Bool.eq_false_iff.mpr (fun hd => by simp [(isDivOp_class hd).right] at hfp)
      exact ⟨hgo, by simp [owner, hmem, hdiv, hfp, hmulti]⟩
  | fdiv =>
      have hgo := hen h
      simp only [Bool.and_eq_true] at hgo
      rcases hgo with ⟨hgo, hmulti⟩
      have hfp : s.isFpOp P = true := by simp [isFpOp, hmulti]
      have hmem : s.isMemOp P = false :=
        Bool.eq_false_iff.mpr (fun hm => by simp [(hclass hgo).right.right hm] at hfp)
      have hdiv : s.isDivOp P = false :=
        Bool.eq_false_iff.mpr (fun hd => by simp [(isDivOp_class hd).right] at hfp)
      exact ⟨hgo, by simp [owner, hmem, hdiv, hfp, hmulti]⟩
  | valu =>
      have hgo := hen h
      simp only [Bool.and_eq_true] at hgo
      exact absurd hgo.right (by simp [(hclass hgo.left).left])
  | vlsu =>
      have hgo := hen h
      simp only [Bool.and_eq_true] at hgo
      exact absurd hgo.right (by simp [(hclass hgo.left).right.left])

theorem enters1_alu {u : ExecUnit} {k : Nat} (h : s.enters1 P i u = some k) :
    u = .alu ∧ s.doDispatchSlot1 P i = true := by
  cases u with
  | alu =>
      cases hgo : s.doDispatchSlot1 P i with
      | true => exact ⟨rfl, rfl⟩
      | false => simp [enters1, hgo] at h
  | _ => simp [enters1] at h

theorem not_holds_of_alloc {payload : Type} {cfg : RsConfig}
    {rs : ReservationStation payload} {en : Bool} {k t : Nat}
    (h : (if en then rs.alloc0? cfg else none) = some k) :
    ¬ rs.Holds cfg k t := by
  rintro ⟨_, hvalid, _⟩
  cases en with
  | false => simp at h
  | true =>
      have hfree := (ReservationStation.alloc0_spec (by simpa using h)).right
      simp [hfree] at hvalid

theorem enters0_free (hok : UnitsOk s) {u : ExecUnit} {k t : Nat}
    (h : s.enters0 P i u = some k) :
    ¬ Waits P s u k t := by
  cases u with
  | lsq =>
      rintro ⟨hwindow, _⟩
      cases hen : s.doDispatch P i && s.isMemOp P with
      | false => simp [enters0, hen] at h
      | true =>
          simp only [enters0, hen, if_true, Option.some.injEq] at h
          have hroom := (lsq_fits P s i).room hen
          rw [<- h, hok.lsq.tail_eq] at hwindow
          exact not_inWindow_tail hroom (Nat.le_refl _) hwindow
  | alu => exact not_holds_of_alloc h
  | div => exact not_holds_of_alloc h
  | falu => exact not_holds_of_alloc h
  | fdiv => exact not_holds_of_alloc h
  | valu => exact not_holds_of_alloc h
  | vlsu => exact not_holds_of_alloc h

theorem enters1_spec {u : ExecUnit} {k : Nat} (h : s.enters1 P i u = some k) :
    (forall t, ¬ Waits P s u k t) ∧ s.enters0 P i u ≠ some k := by
  rcases enters1_alu h with ⟨rfl, hgo⟩
  simp only [enters1, hgo, if_true] at h
  rcases ReservationStation.alloc1_spec h with ⟨_, hfree, hother⟩
  constructor
  · rintro t ⟨_, hvalid, _⟩
    simp [hfree] at hvalid
  · intro h0
    cases hen : s.rsAluDispEn0 P i with
    | false => simp [enters0, hen] at h0
    | true =>
        simp only [enters0, hen, if_true] at h0
        exact hother hen h0

/-!
# Positions

Every operation in flight has one position, in a slot or in a unit.
-/

inductive Pos where
  | waiting (u : ExecUnit) (k : Nat)
  | running (u : ExecUnit)

def Pos.unit : Pos -> ExecUnit
  | .waiting u _ => u
  | .running u => u

def Holds (P : Params) (s : Core) : Pos -> Nat -> Prop
  | .waiting u k, t => Waits P s u k t
  | .running u, t => Runs s u t

def Completes (P : Params) (s : Core) (i : Input) : Pos -> Prop
  | .waiting u k => direct u = true ∧ s.leavesSlot P i u = some k
  | .running u => s.unitDone u = true

def nextPos (P : Params) (s : Core) (i : Input) : Pos -> Pos
  | .waiting u k => if s.leavesSlot P i u = some k then .running u else .waiting u k
  | .running u => .running u

theorem direct_of_unitStart {u : ExecUnit} (h : s.unitStart u = true) :
    direct u = false := by
  cases u <;> simp_all [unitStart, direct]

theorem completes_of_pulse (hok : UnitsOk s) {u : ExecUnit} {t : Nat}
    (h : s.pulse P i u = some t) :
    exists p, p.unit = u ∧ Holds P s p t ∧ Completes P s i p := by
  rcases pulse_cases hok h with ⟨hdirect, k, hleaves, hwaits⟩ | ⟨_, hdone, htag⟩
  · exact ⟨.waiting u k, rfl, hwaits, hdirect, hleaves⟩
  · exact ⟨.running u, rfl, ⟨Or.inr hdone, htag⟩, hdone⟩

end Core

/-!
# The invariant
-/

namespace Traced

open RvCores.Ooo.Core

variable {P : Params} {g : Traced} {i : Input}

def originAt (g : Traced) : Pos -> Origin
  | .waiting u k => g.waiting u k
  | .running u => g.running u

structure Owned (P : Params) (g : Traced) (p : Pos) (t : Nat) : Prop where
  live : g.core.rob.Live P.robEntries t
  undone : (g.core.rob.entry t).done = false
  origin : g.rob t = g.originAt p
  unit : (g.rob t).unit = p.unit

structure Tracked (P : Params) (g : Traced) : Prop where
  rob : g.core.rob.WellFormed P.robEntries
  units : UnitsOk g.core
  owned : forall p t, Holds P g.core p t -> g.Owned P p t
  unique : forall p q t, Holds P g.core p t -> Holds P g.core q t -> p = q
  finished : g.DoneAfterReport P

theorem stamp_of_ne {slot : Option Nat} {o : Origin} {table : Nat -> Origin} {k : Nat}
    (h : slot ≠ some k) :
    stamp slot o table k = table k := by
  cases slot with
  | none => rfl
  | some j =>
      have hne : k ≠ j := fun heq => h (by rw [heq])
      exact setAt_of_ne hne

theorem stamp_self {slot : Option Nat} {o : Origin} {table : Nat -> Origin} {k : Nat}
    (h : slot = some k) :
    stamp slot o table k = o := by
  rw [h]
  exact setAt_self table k o

/--
An operation in flight after the edge was in flight before, or was dispatched.
-/
theorem holds_step_cases (h : g.Tracked P) {p : Pos} {t : Nat}
    (hp : Holds P (g.step P i).core p t) :
    (exists q, Holds P g.core q t ∧ ¬ Completes P g.core i q ∧
        p = nextPos P g.core i q ∧ (g.step P i).originAt p = g.originAt q) ∨
      (exists u k, p = .waiting u k ∧ g.core.enters0 P i u = some k ∧
        t = g.core.robAllocTag0 ∧ (g.step P i).originAt p = g.origin0 P) ∨
      (exists k, p = .waiting .alu k ∧ g.core.enters1 P i .alu = some k ∧
        t = g.core.robAllocTag1 P i ∧ (g.step P i).originAt p = g.origin1) := by
  cases p with
  | waiting u k =>
      rcases waits_step h.units hp with ⟨hold, hstay⟩ | ⟨henter, htag⟩ | ⟨henter, htag⟩
      · left
        refine ⟨.waiting u k, hold, fun hc => hstay hc.right, by simp [nextPos, hstay], ?_⟩
        have hne1 : g.core.enters1 P i u ≠ some k :=
          fun h1 => (enters1_spec h1).left t hold
        have hne0 : g.core.enters0 P i u ≠ some k :=
          fun h0 => enters0_free h.units h0 hold
        change stamp _ _ (stamp _ _ (g.waiting u)) k = g.waiting u k
        rw [stamp_of_ne hne1, stamp_of_ne hne0]
      · right
        left
        refine ⟨u, k, rfl, henter, htag, ?_⟩
        have hne1 : g.core.enters1 P i u ≠ some k :=
          fun h1 => (enters1_spec h1).right henter
        change stamp _ _ (stamp _ _ (g.waiting u)) k = g.origin0 P
        rw [stamp_of_ne hne1, stamp_self henter]
      · right
        right
        rcases enters1_alu henter with ⟨rfl, _⟩
        refine ⟨k, rfl, henter, htag, ?_⟩
        change stamp _ _ (stamp _ _ (g.waiting .alu)) k = g.origin1
        rw [stamp_self henter]
  | running u =>
      left
      rcases runs_step hp with ⟨hstart, k, hleaves, hwaits⟩ | ⟨hstart, hbusy, htag⟩
      · refine ⟨.waiting u k, hwaits, ?_, by simp [nextPos, hleaves], ?_⟩
        · rintro ⟨hdirect, _⟩
          simp [direct_of_unitStart hstart] at hdirect
        · simp [originAt, step, hstart, departing, hleaves]
      · refine ⟨.running u, ⟨Or.inl hbusy, htag⟩, ?_, rfl, ?_⟩
        · intro hdone
          exact h.units.exclusive u ⟨hbusy, hdone⟩
        · simp [originAt, step, hstart]

/-!
# Tags under the invariant
-/

theorem robAllocTag1_eq (h1 : g.core.doDispatchSlot1 P i = true) :
    g.core.robAllocTag1 P i = g.core.rob.allocTag1 P.robEntries true := by
  rw [robAllocTag1, doDispatch_of_slot1 h1]

section Edge

variable (hvalid : P.Valid) (h : g.Tracked P)

include hvalid h

theorem not_live_tag0 (h0 : g.core.doDispatch P i = true) :
    ¬ g.core.rob.Live P.robEntries g.core.robAllocTag0 :=
  ReorderBuffer.not_live_allocTag0 h.rob (robIn_room (i := i) hvalid h.rob.count_le) h0

theorem not_live_tag1 (h1 : g.core.doDispatchSlot1 P i = true) :
    ¬ g.core.rob.Live P.robEntries (g.core.robAllocTag1 P i) := by
  rw [robAllocTag1_eq h1]
  exact ReorderBuffer.not_live_allocTag1 h.rob (robIn_room (i := i) hvalid h.rob.count_le)
    (doDispatch_of_slot1 h1) h1

theorem tag0_ne_tag1 (h1 : g.core.doDispatchSlot1 P i = true) :
    g.core.robAllocTag0 ≠ g.core.robAllocTag1 P i := by
  rw [robAllocTag1_eq h1]
  exact ReorderBuffer.allocTag0_ne_allocTag1 h.rob
    (robIn_room (i := i) hvalid h.rob.count_le) (doDispatch_of_slot1 h1) h1

theorem live_not_tag {t : Nat} (ht : g.core.rob.Live P.robEntries t) :
    g.robTag0 P i ≠ some t ∧ g.robTag1 P i ≠ some t := by
  constructor
  · intro htag
    cases h0 : g.core.doDispatch P i with
    | false => simp [robTag0, h0] at htag
    | true =>
        simp only [robTag0, h0, if_true, Option.some.injEq] at htag
        exact not_live_tag0 hvalid h h0 (htag ▸ ht)
  · intro htag
    cases h1 : g.core.doDispatchSlot1 P i with
    | false => simp [robTag1, h1] at htag
    | true =>
        simp only [robTag1, h1, if_true, Option.some.injEq] at htag
        exact not_live_tag1 hvalid h h1 (htag ▸ ht)

theorem rob_step_of_live {t : Nat} (ht : g.core.rob.Live P.robEntries t) :
    (g.step P i).rob t = g.rob t := by
  rcases live_not_tag (i := i) hvalid h ht with ⟨hne0, hne1⟩
  change stamp _ _ (stamp _ _ g.rob) t = g.rob t
  rw [stamp_of_ne hne1, stamp_of_ne hne0]

omit hvalid in
theorem pulse_live {u : ExecUnit} {t : Nat} (hpulse : g.core.pulse P i u = some t) :
    g.core.rob.Live P.robEntries t := by
  rcases completes_of_pulse h.units hpulse with ⟨p, _, hp, _⟩
  exact (h.owned p t hp).live

omit hvalid in
/--
A freshly allocated tag is live and cannot be hit by a pulse of this cycle.
-/
theorem fresh_entry {t : Nat} (hnot : ¬ g.core.rob.Live P.robEntries t)
    (halloc : (g.core.rob.allocTable P.robEntries (g.core.robIn P i) t).done = false) :
    ((g.step P i).core.rob.entry t).done = false := by
  change ((g.core.rob.step P.robEntries (g.core.robIn P i)).entry t).done = false
  rw [ReorderBuffer.step_entry, halloc, Bool.false_or]
  apply Bool.eq_false_iff.mpr
  intro hany
  rcases completions_any.mp hany with ⟨u, hu⟩
  exact hnot (pulse_live h hu)

theorem owned_fresh0 {u : ExecUnit} {k : Nat} (h0 : g.core.doDispatch P i = true)
    (howner : g.core.owner P = u)
    (horigin : (g.step P i).originAt (.waiting u k) = g.origin0 P) :
    (g.step P i).Owned P (.waiting u k) g.core.robAllocTag0 := by
  have hroom := robIn_room (i := i) hvalid h.rob.count_le
  have htag : (g.step P i).rob g.core.robAllocTag0 = g.origin0 P := by
    have hne1 : g.robTag1 P i ≠ some g.core.robAllocTag0 := by
      intro htag
      cases h1 : g.core.doDispatchSlot1 P i with
      | false => simp [robTag1, h1] at htag
      | true =>
          simp only [robTag1, h1, if_true, Option.some.injEq] at htag
          exact tag0_ne_tag1 hvalid h h1 htag.symm
    change stamp _ _ (stamp _ _ g.rob) _ = _
    rw [stamp_of_ne hne1, stamp_self (by simp [robTag0, h0])]
  constructor
  · exact ReorderBuffer.live_allocTag0 h.rob hroom h0
  · apply fresh_entry h (not_live_tag0 hvalid h h0)
    rw [robAllocTag0, ReorderBuffer.allocTable_tag0 h.rob hroom h0]
  · rw [htag, horigin]
  · rw [htag]
    exact howner

theorem owned_fresh1 {k : Nat} (h1 : g.core.doDispatchSlot1 P i = true)
    (horigin : (g.step P i).originAt (.waiting .alu k) = g.origin1) :
    (g.step P i).Owned P (.waiting .alu k) (g.core.robAllocTag1 P i) := by
  have hroom := robIn_room (i := i) hvalid h.rob.count_le
  have h0 := doDispatch_of_slot1 h1
  have htag : (g.step P i).rob (g.core.robAllocTag1 P i) = g.origin1 := by
    change stamp _ _ (stamp _ _ g.rob) _ = _
    rw [stamp_self (by simp [robTag1, h1])]
  constructor
  · rw [robAllocTag1_eq h1]
    exact ReorderBuffer.live_allocTag1 h.rob hroom h0 h1
  · apply fresh_entry h (not_live_tag1 hvalid h h1)
    exact congrArg RobEntry.done (ReorderBuffer.allocTable_tag1 h1)
  · rw [htag, horigin]
  · rw [htag]
    rfl

theorem owned_kept {p q : Pos} {t : Nat} (hq : Holds P g.core q t)
    (hstay : ¬ Completes P g.core i q) (hunit : p.unit = q.unit)
    (horigin : (g.step P i).originAt p = g.originAt q) :
    (g.step P i).Owned P p t := by
  have hroom := robIn_room (i := i) hvalid h.rob.count_le
  have howned := h.owned q t hq
  have hrob := rob_step_of_live (i := i) hvalid h howned.live
  constructor
  · exact ReorderBuffer.live_step_of_undone h.rob hroom howned.live howned.undone
  · change ((g.core.rob.step P.robEntries (g.core.robIn P i)).entry t).done = false
    rw [ReorderBuffer.step_done_of_live h.rob hroom howned.live,
      howned.undone, Bool.false_or]
    apply Bool.eq_false_iff.mpr
    intro hany
    -- The pulse would come from the position that holds the tag, which stays.
    rcases completions_any.mp hany with ⟨u, hu⟩
    rcases completes_of_pulse h.units hu with ⟨c, _, hc, hcompletes⟩
    exact hstay (h.unique c q t hc hq ▸ hcompletes)
  · rw [hrob, horigin, howned.origin]
  · rw [hrob, hunit]
    exact howned.unit

omit hvalid h in
theorem nextPos_unit (q : Pos) : (nextPos P g.core i q).unit = q.unit := by
  cases q with
  | running u => rfl
  | waiting u k =>
      by_cases hleaves : g.core.leavesSlot P i u = some k <;>
        simp [nextPos, hleaves, Pos.unit]

theorem owned_step (hsingle : ¬ DoubleDispatch P g.core i) {p : Pos} {t : Nat}
    (hp : Holds P (g.step P i).core p t) :
    (g.step P i).Owned P p t := by
  rcases holds_step_cases h hp with
    ⟨q, hq, hstay, hnext, horigin⟩ | ⟨u, k, rfl, henter, rfl, horigin⟩ |
      ⟨k, rfl, henter, rfl, horigin⟩
  · exact owned_kept hvalid h hq hstay (hnext ▸ nextPos_unit q) horigin
  · rcases enters0_owner hsingle henter with ⟨h0, howner⟩
    exact owned_fresh0 hvalid h h0 howner horigin
  · exact owned_fresh1 hvalid h (enters1_alu henter).right horigin

theorem unique_step (hsingle : ¬ DoubleDispatch P g.core i) {p q : Pos} {t : Nat}
    (hp : Holds P (g.step P i).core p t) (hq : Holds P (g.step P i).core q t) :
    p = q := by
  have hkept0 : forall {r : Pos}, Holds P g.core r g.core.robAllocTag0 ->
      g.core.doDispatch P i = true -> False := fun hr h0 =>
    not_live_tag0 hvalid h h0 (h.owned _ _ hr).live
  have hkept1 : forall {r : Pos}, Holds P g.core r (g.core.robAllocTag1 P i) ->
      g.core.doDispatchSlot1 P i = true -> False := fun hr h1 =>
    not_live_tag1 hvalid h h1 (h.owned _ _ hr).live
  rcases holds_step_cases h hp with
    ⟨p0, hp0, _, hpnext, _⟩ | ⟨u, k, rfl, henter, htag, _⟩ | ⟨k, rfl, henter, htag, _⟩
  · rcases holds_step_cases h hq with
      ⟨q0, hq0, _, hqnext, _⟩ | ⟨u, k, rfl, henter, rfl, _⟩ | ⟨k, rfl, henter, rfl, _⟩
    · rw [hpnext, hqnext, h.unique p0 q0 t hp0 hq0]
    · exact (hkept0 hp0 (enters0_owner hsingle henter).left).elim
    · exact (hkept1 hp0 (enters1_alu henter).right).elim
  · have h0 := (enters0_owner hsingle henter).left
    rcases holds_step_cases h hq with
      ⟨q0, hq0, _, _, _⟩ | ⟨u', k', rfl, henter', _, _⟩ | ⟨k', rfl, henter', htag', _⟩
    · exact (hkept0 (htag ▸ hq0) h0).elim
    · have hu : u = u' := by
        rw [<- (enters0_owner hsingle henter).right, (enters0_owner hsingle henter').right]
      subst hu
      rw [henter] at henter'
      cases henter'
      rfl
    · exact absurd (htag ▸ htag') (tag0_ne_tag1 hvalid h (enters1_alu henter').right)
  · have h1 := (enters1_alu henter).right
    rcases holds_step_cases h hq with
      ⟨q0, hq0, _, _, _⟩ | ⟨u', k', rfl, henter', htag', _⟩ | ⟨k', rfl, henter', _, _⟩
    · exact (hkept1 (htag ▸ hq0) h1).elim
    · exact absurd (htag' ▸ htag) (tag0_ne_tag1 hvalid h h1)
    · rw [henter] at henter'
      cases henter'
      rfl

omit hvalid in
theorem pulsesOwned_of_tracked : g.PulsesOwned P i := by
  intro u t hpulse
  rcases pulse_cases h.units hpulse with ⟨hdirect, k, hleaves, hwaits⟩ | ⟨hdirect, hdone, htag⟩
  · have howned := h.owned (.waiting u k) t hwaits
    refine ⟨howned.live, howned.undone, ?_, howned.unit⟩
    rw [howned.origin]
    simp [pulseOrigin, hdirect, departing, hleaves, originAt]
  · have howned := h.owned (.running u) t ⟨Or.inr hdone, htag⟩
    refine ⟨howned.live, howned.undone, ?_, howned.unit⟩
    rw [howned.origin]
    simp [pulseOrigin, hdirect, originAt]

theorem doneAfterReport_step : (g.step P i).DoneAfterReport P := by
  have hroom := robIn_room (i := i) hvalid h.rob.count_le
  intro t ht hdone
  have hnotFresh : ¬ g.core.rob.Live P.robEntries t ->
      (g.core.rob.allocTable P.robEntries (g.core.robIn P i) t).done = false ->
      (g.step P i).finished t = true := by
    intro hnot halloc
    rw [fresh_entry h hnot halloc] at hdone
    exact absurd hdone (by simp)
  rcases ReorderBuffer.live_step_cases h.rob hroom ht with
    hlive | ⟨h0, rfl⟩ | ⟨h1, rfl⟩
  · rcases live_not_tag (i := i) hvalid h hlive with ⟨hne0, hne1⟩
    have hfinished : (g.step P i).finished t =
        (g.finished t || units.any (g.reports P i t)) := by
      change (if some t = g.robTag0 P i ∨ some t = g.robTag1 P i then false else _) = _
      rw [if_neg (not_or.mpr ⟨hne0.symm, hne1.symm⟩)]
    change ((g.core.rob.step P.robEntries (g.core.robIn P i)).entry t).done = true at hdone
    rw [ReorderBuffer.step_done_of_live h.rob hroom hlive, Bool.or_eq_true] at hdone
    rw [hfinished, Bool.or_eq_true]
    rcases hdone with hold | hany
    · exact Or.inl (h.finished t hlive hold)
    · right
      rcases completions_any.mp hany with ⟨u, hu⟩
      have hreported := pulsesOwned_of_tracked h u t hu
      rw [List.any_eq_true]
      refine ⟨u, mem_units u, ?_⟩
      simp [reports, hu, hreported.origin.symm, hreported.owned]
  · apply hnotFresh (ReorderBuffer.not_live_allocTag0 h.rob hroom h0)
    rw [ReorderBuffer.allocTable_tag0 h.rob hroom h0]
  · have h0 := robIn_order h1
    have hnot := ReorderBuffer.not_live_allocTag1 h.rob hroom h0 h1
    rw [<- h0] at hnot
    exact hnotFresh hnot (congrArg RobEntry.done (ReorderBuffer.allocTable_tag1 h1))

theorem tracked_step (hsingle : ¬ DoubleDispatch P g.core i) : (g.step P i).Tracked P := by
  constructor
  · exact rob_wellFormed_step hvalid h.rob
  · exact unitsOk_step h.units
  · exact fun _ _ hp => owned_step hvalid h hsingle hp
  · exact fun _ _ _ hp hq => unique_step hvalid h hsingle hp hq
  · exact doneAfterReport_step hvalid h

end Edge

theorem not_holds_reset (s : Core) (p : Pos) (t : Nat) : ¬ Holds P (s.reset P) p t := by
  cases p with
  | waiting u k =>
      cases u with
      | lsq =>
          rintro ⟨hwindow, _⟩
          exact not_inWindow_zero _ _ _ hwindow
      | _ => exact ReservationStation.not_holds_reset _ _ k t
  | running u =>
      rintro ⟨hoccupied, _⟩
      cases u <;> rcases hoccupied with h | h <;> exact absurd h Bool.false_ne_true

theorem unitsOk_reset (s : Core) : UnitsOk (s.reset P) := by
  constructor
  · intro u
    cases u <;> exact fun h => absurd h.left Bool.false_ne_true
  · exact fun h => absurd h.left Bool.false_ne_true
  · exact fun h => absurd h.left Bool.false_ne_true
  · exact fun h => absurd h.left Bool.false_ne_true
  · exact LoadStoreQueue.reset_wellFormed s.lsq

theorem tracked_start (hvalid : P.Valid) (s : Core) : (start (s.reset P)).Tracked P := by
  have hrob := hvalid.robRoom
  constructor
  · exact ReorderBuffer.reset_wellFormed (by omega) s.rob
  · exact unitsOk_reset s
  · exact fun p t hp => absurd hp (not_holds_reset s p t)
  · exact fun p q t hp => absurd hp (not_holds_reset s p t)
  · exact fun t ht => absurd ht (not_inWindow_zero P.robEntries 0 t)

theorem tracked_of_reachable (hvalid : P.Valid) {s0 : Core}
    (hrun : ReachableWhen (step P) (fun g i => ¬ DoubleDispatch P g.core i)
      (start (s0.reset P)) g) :
    g.Tracked P :=
  invariant_of_reachableWhen (tracked_start hvalid s0)
    (fun _ _ h hsingle => tracked_step hvalid h hsingle) hrun

/-!
# The result

In a run that never dispatches an instruction to two stations, every pulse comes
from the owner of a live entry, and what retires has been reported by its owner.
-/

def RetiresReported (P : Params) (g : Traced) : Prop :=
  (g.core.robRetireValid0 = true -> g.finished g.core.rob.retireTag0 = true) ∧
    (g.core.robRetireValid1 P = true ->
      g.finished (g.core.rob.retireTag1 P.robEntries) = true)

theorem retiresReported_of_tracked (h : g.Tracked P) : g.RetiresReported P := by
  have hhead := h.rob.head_lt
  have hcount := h.rob.count_le
  constructor
  · intro h0
    have hpos := ReorderBuffer.retireValid0_count h0
    apply h.finished _ (inWindow_head hhead hpos)
    simp only [robRetireValid0, ReorderBuffer.retireValid0, Bool.and_eq_true] at h0
    exact h0.right
  · intro h1
    have htwo := ReorderBuffer.retireValid1_count h1
    apply h.finished _ ⟨1, by omega, rfl⟩
    simp only [robRetireValid1, ReorderBuffer.retireValid1, Bool.and_eq_true] at h1
    exact h1.right

theorem no_early_retirement (hvalid : P.Valid) {s0 : Core}
    (hrun : ReachableWhen (step P) (fun g i => ¬ DoubleDispatch P g.core i)
      (start (s0.reset P)) g) :
    (forall i, g.PulsesOwned P i) ∧ g.DoneAfterReport P ∧ g.RetiresReported P := by
  have h := tracked_of_reachable hvalid hrun
  exact ⟨fun _ => pulsesOwned_of_tracked h, h.finished, retiresReported_of_tracked h⟩

/--
addi x1, x0, 5; div x3, x1, x2; lw x3, 0(x0); fadd.s f1, f2, f3: four owners.
-/
def fourOwnersProgram : Params :=
  defaultParams [0x00500093, 0x0220c1b3, 0x00002183, 0x003100d3]

def fourOwnersRun : Traced :=
  run (step fourOwnersProgram) (start (powerUp.reset fourOwnersProgram))
    (List.replicate 6 quietInput)

theorem no_early_retirement_fourOwners :
    (forall i, fourOwnersRun.PulsesOwned fourOwnersProgram i) ∧
      fourOwnersRun.DoneAfterReport fourOwnersProgram ∧
      fourOwnersRun.RetiresReported fourOwnersProgram :=
  no_early_retirement (defaultParams_valid _) (reachableWhen_run (by decide +kernel))

/--
vadd.vv v1, v2, v3 enters the ALU station as well: the ALU reports it and it
retires while the vector unit is still working on it.
-/
def vectorAddProgram : Params := defaultParams [0x022180d7]

theorem vector_add_retires_early :
    (exists g, Reachable (step vectorAddProgram)
        (start (powerUp.reset vectorAddProgram)) g ∧
      ¬ (forall i, g.PulsesOwned vectorAddProgram i)) ∧
    (exists g, Reachable (step vectorAddProgram)
        (start (powerUp.reset vectorAddProgram)) g ∧
      g.core.valu.busy = true ∧ ¬ g.RetiresReported vectorAddProgram) := by
  constructor
  · refine ⟨_, reachable_run _ [quietInput], ?_⟩
    intro hpulses
    have howned := (hpulses quietInput .alu 0 (by decide +kernel)).owned
    revert howned
    decide +kernel
  · refine ⟨_, reachable_run _ [quietInput, quietInput], by decide +kernel, ?_⟩
    intro hretires
    have hfinished := hretires.left (by decide +kernel)
    revert hfinished
    decide +kernel

end Traced
end Ooo
end RvCores
