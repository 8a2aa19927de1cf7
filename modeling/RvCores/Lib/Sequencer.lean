import Mathlib.Logic.Function.Iterate

/-!
# Iterative units

A unit takes its operands in one cycle, works for some cycles and shows its result in
one cycle of its own.  Leftovers of earlier work do not influence what it computes, so
each input has one result: what a fresh unit shows in the end.
-/

namespace RvCores
namespace Lib

/--
While it works, a unit may still look at a part of its input, the key.  It counts its
iterations up to a last one.  Its core is what it works on, without what it shows.
-/
structure Sequencer (U I K O : Type) where
  fresh : U
  busy : U -> Bool
  done : U -> Bool
  start : I -> Bool
  key : I -> K
  begin : U -> I -> U
  iterate : U -> K -> U
  rest : U -> U
  output : U -> O
  core : U -> U
  count : U -> Nat
  last : Nat
  limit : Nat

namespace Sequencer

variable {U I K O : Type} (S : Sequencer U I K O)

def step (u : U) (i : I) : U :=
  if S.start i && !S.busy u && !S.done u then S.begin u i
  else if S.busy u then S.iterate u (S.key i)
  else S.rest u

def settle (k : K) : Nat -> U -> U
  | 0, u => u
  | n + 1, u => if S.busy u then settle k n (S.iterate u k) else u

def result (i : I) : O :=
  S.output (S.settle (S.key i) S.limit (S.begin S.fresh i))

/-!
# Laws
-/

/--
The units differ in leftovers only.
-/
structure Agree (u v : U) : Prop where
  busy : S.busy u = S.busy v
  shown : S.busy u = false -> S.output u = S.output v
  working : S.busy u = true -> S.core u = S.core v

structure Lawful : Prop where
  fresh_idle : S.busy S.fresh = false
  rest_busy : forall u, S.busy (S.rest u) = S.busy u
  rest_done : forall u, S.done (S.rest u) = false
  agree_begin : forall {u v} i, S.busy u = false -> S.busy v = false ->
    S.Agree (S.begin u i) (S.begin v i)
  agree_iterate : forall {u v} k, S.Agree u v -> S.busy u = true ->
    S.Agree (S.iterate u k) (S.iterate v k)
  begin_active : forall u i, S.busy u = false ->
    S.done (S.begin u i) = !S.busy (S.begin u i)
  iterate_active : forall u k, S.busy u = true ->
    S.done (S.iterate u k) = !S.busy (S.iterate u k)
  begin_count : forall i, S.busy (S.begin S.fresh i) = true -> S.count (S.begin S.fresh i) = 0
  iterate_count : forall u k, S.count (S.iterate u k) = S.count u + 1
  iterate_busy : forall u k, S.busy u = true ->
    S.busy (S.iterate u k) = !decide (S.count u = S.last)
  last_lt : S.last < S.limit

/-!
# Towards a result
-/

def Settles (k : K) (u : U) (o : O) : Prop :=
  exists n, S.busy (S.settle k n u) = false ∧ S.output (S.settle k n u) = o

/--
The unit works on the input, or shows its result.
-/
structure Computing (i : I) (u : U) : Prop where
  active : S.done u = !S.busy u
  settles : S.Settles (S.key i) u (S.result i)

variable {S} {i : I} {u v : U} {k : K} {o : O}

theorem settle_idle (hidle : S.busy u = false) (n : Nat) : S.settle k n u = u := by
  cases n with
  | zero => rfl
  | succ n => simp [settle, hidle]

theorem Settles.output (h : S.Settles k u o) (hidle : S.busy u = false) :
    S.output u = o := by
  obtain ⟨n, _, hout⟩ := h
  rwa [settle_idle hidle] at hout

theorem Settles.iterate (h : S.Settles k u o) (hbusy : S.busy u = true) :
    S.Settles k (S.iterate u k) o := by
  obtain ⟨n, hidle, hout⟩ := h
  cases n with
  | zero =>
      rw [settle, hbusy] at hidle
      cases hidle
  | succ n =>
      simp only [settle, hbusy, if_true] at hidle hout
      exact ⟨n, hidle, hout⟩

theorem agree_settle (hS : S.Lawful) (n : Nat) (h : S.Agree u v) :
    S.Agree (S.settle k n u) (S.settle k n v) := by
  induction n generalizing u v with
  | zero => exact h
  | succ n ih =>
      have hbusy := h.busy
      cases hu : S.busy u with
      | true =>
          rw [hu] at hbusy
          simp only [settle, hu, ← hbusy, if_true]
          exact ih (hS.agree_iterate k h hu)
      | false =>
          rw [hu] at hbusy
          simp only [settle, hu, ← hbusy, Bool.false_eq_true, if_false]
          exact h

/--
A unit that has not gone past its last iteration ends.
-/
theorem settle_ends (hS : S.Lawful) (n : Nat)
    (hinit : S.busy u = true -> S.count u <= S.last) (hn : S.last < S.count u + n) :
    S.busy (S.settle k n u) = false := by
  induction n generalizing u with
  | zero =>
      cases hu : S.busy u with
      | false => exact hu
      | true => exact absurd hn (Nat.not_lt_of_le (hinit hu))
  | succ n ih =>
      cases hu : S.busy u with
      | false => simp [settle, hu]
      | true =>
          simp only [settle, hu, if_true]
          have hle := hinit hu
          refine ih ?_ ?_
          · intro hnext
            rw [hS.iterate_busy u k hu] at hnext
            have hne : S.count u ≠ S.last := by simpa using hnext
            rw [hS.iterate_count]
            omega
          · rw [hS.iterate_count]
            omega

theorem Lawful.finishes (hS : S.Lawful) (i : I) :
    S.busy (S.settle (S.key i) S.limit (S.begin S.fresh i)) = false := by
  apply settle_ends hS
  · intro hbusy
    rw [hS.begin_count i hbusy]
    exact Nat.zero_le _
  · exact Nat.lt_of_lt_of_le hS.last_lt (Nat.le_add_left _ _)

theorem computing_begin (hS : S.Lawful) (hidle : S.busy u = false) :
    S.Computing i (S.begin u i) := by
  have hagree := agree_settle hS (k := S.key i) S.limit
    (hS.agree_begin i hidle hS.fresh_idle)
  have hends : S.busy (S.settle (S.key i) S.limit (S.begin u i)) = false := by
    rw [hagree.busy]
    exact hS.finishes i
  exact ⟨hS.begin_active u i hidle, S.limit, hends, hagree.shown hends⟩

theorem computing_iterate (hS : S.Lawful) (h : S.Computing i u) (hbusy : S.busy u = true) :
    S.Computing i (S.iterate u (S.key i)) :=
  ⟨hS.iterate_active u _ hbusy, h.settles.iterate hbusy⟩

/--
A unit that shows its result shows the one of its input.
-/
theorem Computing.output (h : S.Computing i u) (hdone : S.done u = true) :
    S.output u = S.result i := by
  have hidle : S.busy u = false := by
    have hactive := h.active
    rw [hdone] at hactive
    simpa using hactive.symm
  exact h.settles.output hidle

/-!
# One cycle
-/

def Idle (S : Sequencer U I K O) (u : U) : Prop :=
  S.busy u = false ∧ S.done u = false

theorem step_of_start (hidle : S.Idle u) (hstart : S.start i = true) :
    S.step u i = S.begin u i := by
  simp [step, hidle.left, hidle.right, hstart]

theorem step_of_busy (hbusy : S.busy u = true) : S.step u i = S.iterate u (S.key i) := by
  simp [step, hbusy]

theorem idle_step_of_noStart (hS : S.Lawful) (hbusy : S.busy u = false)
    (hstart : S.start i = false) : S.Idle (S.step u i) := by
  have hstep : S.step u i = S.rest u := by simp [step, hbusy, hstart]
  rw [hstep]
  exact ⟨(hS.rest_busy u).trans hbusy, hS.rest_done u⟩

theorem idle_step_of_done (hS : S.Lawful) (hbusy : S.busy u = false)
    (hdone : S.done u = true) : S.Idle (S.step u i) := by
  have hstep : S.step u i = S.rest u := by simp [step, hbusy, hdone]
  rw [hstep]
  exact ⟨(hS.rest_busy u).trans hbusy, hS.rest_done u⟩

/--
A unit that is idle or computes the input on its port goes on so, and restarts if it
is still asked after its result.
-/
theorem step_of_same (hS : S.Lawful) (hstart : S.start i = true)
    (h : S.Idle u ∨ S.Computing i u) :
    S.Idle (S.step u i) ∨ S.Computing i (S.step u i) := by
  rcases h with hidle | hcomputing
  · right
    rw [step_of_start hidle hstart]
    exact computing_begin hS hidle.left
  · cases hbusy : S.busy u with
    | true =>
        right
        rw [step_of_busy hbusy]
        exact computing_iterate hS hcomputing hbusy
    | false =>
        left
        refine idle_step_of_done hS hbusy ?_
        rw [hcomputing.active, hbusy]
        rfl

/--
A unit that has not shown its result yet goes on whatever operands are on its port.
-/
theorem step_of_working {j : I} (hS : S.Lawful) (hkey : S.key j = S.key i)
    (h : S.Computing i u) (hdone : S.done u = false) :
    S.Computing i (S.step u j) := by
  have hbusy : S.busy u = true := by
    have hactive := h.active
    rw [hdone] at hactive
    simpa using hactive.symm
  rw [step_of_busy hbusy, hkey]
  exact computing_iterate hS h hbusy

/-!
# A run of the unit

From the cycle of its start on, a unit works whatever is on its port, but for the key.
-/

def run (S : Sequencer U I K O) (u : U) (j : Nat -> I) : Nat -> U
  | 0 => u
  | n + 1 => S.step (S.run u j n) (j n)

theorem run_succ_left (j : Nat -> I) (n : Nat) :
    S.run u j (n + 1) = S.run (S.step u (j 0)) (fun m => j (m + 1)) n := by
  induction n with
  | zero => rfl
  | succ n ih =>
      rw [run, ih]
      rfl

/--
The unit works for `n` cycles and shows the result in the next.
-/
structure Shows (S : Sequencer U I K O) (i : I) (u : U) (j : Nat -> I) (n : Nat) : Prop where
  works : forall m, m < n -> S.Computing i (S.run u j m) ∧ S.busy (S.run u j m) = true
  shows : S.Computing i (S.run u j n) ∧ S.busy (S.run u j n) = false

theorem Computing.shows (hS : S.Lawful) (fuel : Nat) {j : Nat -> I} (h : S.Computing i u)
    (hkey : forall m, m < fuel -> S.key (j m) = S.key i)
    (hends : S.busy (S.settle (S.key i) fuel u) = false) :
    exists n, n <= fuel ∧ S.Shows i u j n := by
  induction fuel generalizing u j with
  | zero =>
      refine ⟨0, Nat.le_refl 0, ?_, h, hends⟩
      intro m hm
      exact absurd hm (Nat.not_lt_zero m)
  | succ fuel ih =>
      cases hbusy : S.busy u with
      | false =>
          refine ⟨0, Nat.zero_le _, ?_, h, hbusy⟩
          intro m hm
          exact absurd hm (Nat.not_lt_zero m)
      | true =>
          have hstep : S.step u (j 0) = S.iterate u (S.key i) := by
            rw [step_of_busy hbusy, hkey 0 (Nat.succ_pos fuel)]
          have hnext := computing_iterate hS h hbusy
          rw [settle, if_pos hbusy] at hends
          rw [← hstep] at hnext hends
          obtain ⟨n, hle, hshows⟩ := ih (j := fun m => j (m + 1)) hnext
            (fun m hm => hkey (m + 1) (Nat.succ_lt_succ hm)) hends
          refine ⟨n + 1, Nat.succ_le_succ hle, ?_, ?_⟩
          · intro m hm
            cases m with
            | zero => exact ⟨h, hbusy⟩
            | succ m =>
                rw [run_succ_left]
                exact hshows.works m (Nat.lt_of_succ_lt_succ hm)
          · rw [run_succ_left]
            exact hshows.shows

/--
An idle unit that is started shows the result of its input once, in one cycle.
-/
structure Pulses (S : Sequencer U I K O) (u : U) (j : Nat -> I) (n : Nat) : Prop where
  positive : 0 < n
  before : forall m, m < n -> S.done (S.run u j m) = false
  works : forall m, 0 < m -> m < n -> S.busy (S.run u j m) = true
  shows : S.done (S.run u j n) = true ∧ S.busy (S.run u j n) = false
  output : S.output (S.run u j n) = S.result (j 0)
  after : S.Idle (S.run u j (n + 1))

theorem pulses_of_start (hS : S.Lawful) {j : Nat -> I} (hidle : S.Idle u)
    (hstart : S.start (j 0) = true)
    (hkey : forall m, m <= S.limit -> S.key (j m) = S.key (j 0)) :
    exists n, n <= S.limit + 1 ∧ S.Pulses u j n := by
  have hbegin : S.step u (j 0) = S.begin u (j 0) := step_of_start hidle hstart
  have hcomputing : S.Computing (j 0) (S.begin u (j 0)) := computing_begin hS hidle.left
  have hends : S.busy (S.settle (S.key (j 0)) S.limit (S.begin u (j 0))) = false := by
    rw [(agree_settle hS S.limit (hS.agree_begin (j 0) hidle.left hS.fresh_idle)).busy]
    exact hS.finishes (j 0)
  rw [← hbegin] at hcomputing hends
  obtain ⟨n, hle, hworks, hshows, hrest⟩ :=
    hcomputing.shows hS S.limit (j := fun m => j (m + 1))
      (fun m hm => hkey (m + 1) hm) hends
  have hdone : S.done (S.run u j (n + 1)) = true := by
    rw [run_succ_left, hshows.active, hrest]
    rfl
  have hidleNow : S.busy (S.run u j (n + 1)) = false := by
    rw [run_succ_left]
    exact hrest
  refine ⟨n + 1, Nat.succ_le_succ hle, Nat.succ_pos n, ?_, ?_, ⟨hdone, hidleNow⟩, ?_, ?_⟩
  · intro m hm
    cases m with
    | zero => exact hidle.right
    | succ m =>
        obtain ⟨hactive, hbusy⟩ := hworks m (Nat.lt_of_succ_lt_succ hm)
        rw [run_succ_left, hactive.active, hbusy]
        rfl
  · intro m hpos hm
    cases m with
    | zero => exact absurd hpos (Nat.lt_irrefl 0)
    | succ m =>
        rw [run_succ_left]
        exact (hworks m (Nat.lt_of_succ_lt_succ hm)).right
  · rw [run_succ_left] at hdone ⊢
    exact hshows.output hdone
  · exact idle_step_of_done hS hidleNow hdone

/--
A unit that is not started any more stays idle.
-/
theorem idle_run (hS : S.Lawful) {j : Nat -> I} {n : Nat} (hidle : S.Idle (S.run u j n))
    (hquiet : forall m, n <= m -> S.start (j m) = false) (m : Nat) (hm : n <= m) :
    S.Idle (S.run u j m) := by
  induction hm with
  | refl => exact hidle
  | step hle ih => exact idle_step_of_noStart hS ih.left (hquiet _ hle)

/-!
# Counted iterations
-/

/--
What the iterations preserve until the last one holds when the unit ends.
-/
theorem settle_of_invariant {P : Nat -> U -> Prop} {Q : U -> Prop} {last : Nat}
    (hbusy : forall n v, P n v -> S.busy v = true)
    (hstep : forall n v, n < last -> P n v -> P (n + 1) (S.iterate v k))
    (hlast : forall v, P last v -> S.busy (S.iterate v k) = false ∧ Q (S.iterate v k))
    (fuel : Nat) {n : Nat} (hn : n <= last) (hfuel : last < n + fuel) (h : P n u) :
    Q (S.settle k fuel u) := by
  induction fuel generalizing n u with
  | zero => omega
  | succ fuel ih =>
      rw [settle, if_pos (hbusy n u h)]
      rcases Nat.lt_or_ge n last with hlt | hge
      · exact ih hlt (by omega) (hstep n u hlt h)
      · have heq : n = last := Nat.le_antisymm hn hge
        subst heq
        obtain ⟨hends, hq⟩ := hlast u h
        rw [settle_idle hends]
        exact hq

/--
In a run, an invariant of the iterations belongs to the number of cycles since the start.
-/
theorem run_of_invariant {P : Nat -> U -> Prop} {last : Nat} {j : Nat -> I}
    (hidle : S.Idle u) (hstart : S.start (j 0) = true) (hbegin : P 0 (S.begin u (j 0)))
    (hbusy : forall n v, P n v -> S.busy v = true)
    (hstep : forall n v, n < last -> P n v -> P (n + 1) (S.iterate v (S.key (j (n + 1)))))
    (n : Nat) (hn : n <= last) : P n (S.run u j (n + 1)) := by
  induction n with
  | zero =>
      rw [run, run, step_of_start hidle hstart]
      exact hbegin
  | succ n ih =>
      have hprevious := ih (Nat.le_of_succ_le hn)
      rw [run, step_of_busy (hbusy n _ hprevious)]
      exact hstep n _ hn hprevious

/-!
# A unit behind a port

The port belongs to one user at a time, who keeps it until the result is shown.
-/

/--
The unit does not work any more when it shows a result.
-/
def Orderly (S : Sequencer U I K O) (u : U) : Prop :=
  S.busy u = true -> S.done u = false

/--
The unit is at the service of a user who wants the result for this input, if any.
-/
def Serves (S : Sequencer U I K O) (i : I) (u : U) : Prop :=
  if S.start i then S.Idle u ∨ S.Computing i u else S.Idle u

/--
The unit has taken the input, if there is one.
-/
def Working (S : Sequencer U I K O) (i : I) (u : U) : Prop :=
  if S.start i then S.Computing i u else S.Idle u

theorem Idle.orderly (h : S.Idle u) : S.Orderly u := fun _ => h.right

theorem Computing.orderly (h : S.Computing i u) : S.Orderly u := by
  intro hbusy
  rw [h.active, hbusy]
  rfl

theorem Working.underWay (h : S.Working i u) (hstart : S.start i = true) :
    (!S.busy u && !S.done u) = false := by
  unfold Working at h
  rw [if_pos hstart] at h
  rw [h.active]
  cases S.busy u <;> rfl

theorem Working.serves (h : S.Working i u) : S.Serves i u := by
  unfold Working at h
  unfold Serves
  cases hstart : S.start i with
  | true =>
      rw [hstart] at h
      exact .inr h
  | false =>
      rw [hstart] at h
      exact h

theorem Serves.orderly (h : S.Serves i u) : S.Orderly u := by
  unfold Serves at h
  cases hstart : S.start i with
  | true =>
      rw [hstart, if_pos rfl] at h
      rcases h with hidle | hcomputing
      · exact hidle.orderly
      · exact hcomputing.orderly
  | false =>
      rw [hstart] at h
      exact Idle.orderly h

theorem Serves.idle (h : S.Serves i u) (hstart : S.start i = false) : S.Idle u := by
  unfold Serves at h
  rw [hstart] at h
  exact h

theorem Serves.output (h : S.Serves i u) (hstart : S.start i = true)
    (hdone : S.done u = true) : S.output u = S.result i := by
  unfold Serves at h
  rw [hstart, if_pos rfl] at h
  rcases h with hidle | hcomputing
  · rw [hidle.right] at hdone
    cases hdone
  · exact hcomputing.output hdone

theorem orderly_step (hS : S.Lawful) : S.Orderly (S.step u i) := by
  intro hbusy
  cases hu : S.busy u with
  | true =>
      rw [step_of_busy hu] at hbusy ⊢
      rw [hS.iterate_active u _ hu, hbusy]
      rfl
  | false =>
      cases hbegins : S.start i && !S.done u with
      | true =>
          have hform : S.step u i = S.begin u i := by
            rw [Bool.and_eq_true, Bool.not_eq_true'] at hbegins
            exact step_of_start ⟨hu, hbegins.right⟩ hbegins.left
          rw [hform] at hbusy ⊢
          rw [hS.begin_active u i hu, hbusy]
          rfl
      | false =>
          have hform : S.step u i = S.rest u := by
            have hnone : (S.start i && !S.busy u && !S.done u) = false := by
              rw [hu, Bool.not_false, Bool.and_true]
              exact hbegins
            rw [step, hnone, hu]
            rfl
          rw [hform]
          exact hS.rest_done u

section Port

variable {j : I} (hS : S.Lawful) (hstart : S.start j = S.start i)

include hS hstart

theorem serves_step (hsame : S.start i = true -> j = i) (h : S.Serves i u) :
    S.Serves i (S.step u j) := by
  unfold Serves at h ⊢
  cases hstarts : S.start i with
  | true =>
      rw [hstarts, if_pos rfl] at h
      rw [hsame hstarts]
      exact step_of_same hS hstarts h
  | false =>
      rw [hstarts] at h hstart
      exact idle_step_of_noStart hS h.left hstart

theorem working_step (hkey : S.key j = S.key i)
    (hdone : S.start i = true -> S.done u = false) (h : S.Working i u) :
    S.Working i (S.step u j) := by
  unfold Working at h ⊢
  cases hstarts : S.start i with
  | true =>
      rw [hstarts, if_pos rfl] at h
      exact step_of_working hS hkey h (hdone hstarts)
  | false =>
      rw [hstarts] at h hstart
      exact idle_step_of_noStart hS h.left hstart

/--
A unit that has not shown the result takes the input at the latest in this cycle.
-/
theorem working_of_serves (hsame : S.start i = true -> j = i)
    (hdone : S.start i = true -> S.done u = false) (h : S.Serves i u) :
    S.Working i (S.step u j) := by
  unfold Serves at h
  unfold Working
  cases hstarts : S.start i with
  | true =>
      rw [hstarts, if_pos rfl] at h
      rw [hsame hstarts, if_pos rfl]
      rcases h with hidle | hcomputing
      · rw [step_of_start hidle hstarts]
        exact computing_begin hS hidle.left
      · exact step_of_working hS rfl hcomputing (hdone hstarts)
  | false =>
      rw [hstarts] at h hstart
      exact idle_step_of_noStart hS h.left hstart

end Port

/--
When the user leaves with the result, the unit is idle.
-/
theorem idle_of_leave (hS : S.Lawful) (h : S.Orderly u)
    (hdone : S.start i = true -> S.done u = true)
    (hrest : S.start i = false -> S.Idle u) : S.Idle (S.step u i) := by
  cases hstarts : S.start i with
  | true =>
      refine idle_step_of_done hS ?_ (hdone hstarts)
      cases hbusy : S.busy u with
      | false => rfl
      | true =>
          have hworks := h hbusy
          rw [hdone hstarts] at hworks
          cases hworks
  | false => exact idle_step_of_noStart hS (hrest hstarts).left hstarts

end Sequencer
end Lib
end RvCores
