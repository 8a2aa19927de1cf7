import RvCores.Lib.Run
import RvCores.Soc.Handoff

/-!
# The handoff as a protocol

Two parties go through their programs point by point and see nothing of each other but
one flag each.  The producer raises its flag once all items are out; the worker raises
its own once the sum is out.
-/

namespace RvCores
namespace Soc
namespace Handoff

inductive Producer where
  | lui
  | addiCount
  | swCount
  | addiItem (k : Nat)
  | swItem (k : Nat)
  | addiGo
  | swGo
  | lwDone
  | beqDone (seen : Bool)
  | lwResult
  | fence
  | halt
deriving DecidableEq, Repr

/--
The points at which the data of a load is still to come have a name of their own.
-/
inductive Worker where
  | base (k : Nat)
  | lwGo
  | lwGoBack (seen : Bool)
  | beqGo (seen : Bool)
  | lwCount
  | lwCountBack
  | clearSum
  | clearIndex
  | firstItem
  | beqEnd (k : Nat)
  | lwItem (k : Nat)
  | lwItemBack (k : Nat)
  | addItem (k : Nat)
  | nextItem (k : Nat)
  | nextIndex (k : Nat)
  | again (k : Nat)
  | swResult
  | addiDone
  | swDone
  | halt
deriving DecidableEq, Repr

namespace Producer

/--
The flag of the producer.
-/
def raised : Producer -> Bool
  | lwDone | beqDone _ | lwResult | fence | halt => true
  | _ => false

def nextItem (n k : Nat) : Producer := if k < n then addiItem k else addiGo

def next (n : Nat) (finished : Bool) : Producer -> Producer
  | lui => addiCount
  | addiCount => swCount
  | swCount => nextItem n 0
  | addiItem k => swItem k
  | swItem k => nextItem n (k + 1)
  | addiGo => swGo
  | swGo => lwDone
  | lwDone => beqDone finished
  | beqDone seen => if seen then lwResult else lwDone
  | lwResult => fence
  | fence => halt
  | halt => halt

end Producer

namespace Worker

/--
The flag of the worker.
-/
def finished : Worker -> Bool
  | halt => true
  | _ => false

def next (n : Nat) (raised : Bool) : Worker -> Worker
  | base k => if k < 3 then base (k + 1) else lwGo
  | lwGo => lwGoBack raised
  | lwGoBack seen => beqGo seen
  | beqGo seen => if seen then lwCount else lwGo
  | lwCount => lwCountBack
  | lwCountBack => clearSum
  | clearSum => clearIndex
  | clearIndex => firstItem
  | firstItem => beqEnd 0
  | beqEnd k => if k = n then swResult else lwItem k
  | lwItem k => lwItemBack k
  | lwItemBack k => addItem k
  | addItem k => nextItem k
  | nextItem k => nextIndex k
  | nextIndex k => again k
  | again k => beqEnd (k + 1)
  | swResult => addiDone
  | addiDone => swDone
  | swDone => halt
  | halt => halt

end Worker

structure State where
  producer : Producer
  worker : Worker
deriving DecidableEq, Repr

namespace State

def initial : State := { producer := .lui, worker := .base 0 }

def step (n : Nat) (s : State) (moves : Moves) : State :=
  { producer :=
      if moves.pipelined then s.producer.next n s.worker.finished else s.producer
    worker := if moves.ooo then s.worker.next n s.producer.raised else s.worker }

end State

/-!
# What the parties may rely on
-/

/--
The points that the worker comes to only after it has seen the flag.
-/
def Worker.pastGo : Worker -> Bool
  | base _ | lwGo => false
  | lwGoBack seen | beqGo seen => seen
  | _ => true

def Producer.pastDone : Producer -> Bool
  | beqDone seen => seen
  | lwResult | fence | halt => true
  | _ => false

def Producer.InRange (n : Nat) : Producer -> Prop
  | addiItem k | swItem k => k < n
  | _ => True

def Worker.InRange (n : Nat) : Worker -> Prop
  | beqEnd k => k <= n
  | lwItem k | lwItemBack k | addItem k | nextItem k | nextIndex k | again k => k < n
  | base k => k < 4
  | _ => True

structure Agreed (n : Nat) (s : State) : Prop where
  producer : s.producer.InRange n
  worker : s.worker.InRange n
  go : s.worker.pastGo = true -> s.producer.raised = true
  done : s.producer.pastDone = true -> s.worker.finished = true

theorem agreed_initial (n : Nat) : Agreed n State.initial where
  producer := trivial
  worker := Nat.succ_pos 3
  go := nofun
  done := nofun

theorem Producer.inRange_nextItem (n k : Nat) : (nextItem n k).InRange n := by
  unfold nextItem
  split
  · assumption
  · trivial

theorem Producer.inRange_next {n : Nat} {p : Producer} (finished : Bool)
    (h : p.InRange n) : (p.next n finished).InRange n := by
  cases p with
  | swCount => exact inRange_nextItem n 0
  | swItem k => exact inRange_nextItem n (k + 1)
  | addiItem k => exact h
  | beqDone seen => cases seen <;> trivial
  | _ => trivial

theorem Worker.inRange_next {n : Nat} {q : Worker} (raised : Bool) (h : q.InRange n) :
    (q.next n raised).InRange n := by
  cases q with
  | base k =>
      change (if k < 3 then base (k + 1) else lwGo).InRange n
      split
      · rename_i hk
        exact Nat.succ_lt_succ hk
      · trivial
  | beqGo seen => cases seen <;> trivial
  | firstItem => exact Nat.zero_le n
  | beqEnd k =>
      change (if k = n then swResult else lwItem k).InRange n
      split
      · trivial
      · rename_i hne
        exact Nat.lt_of_le_of_ne h hne
  | again k => exact h
  | lwItem k => exact h
  | lwItemBack k => exact h
  | addItem k => exact h
  | nextItem k => exact h
  | nextIndex k => exact h
  | _ => trivial

theorem Producer.raised_next {n : Nat} {p : Producer} (finished : Bool)
    (h : p.raised = true) : (p.next n finished).raised = true := by
  cases p with
  | beqDone seen => cases seen <;> rfl
  | lwDone => rfl
  | lwResult => rfl
  | fence => rfl
  | halt => rfl
  | _ => cases h

theorem Worker.finished_next {n : Nat} {q : Worker} (raised : Bool)
    (h : q.finished = true) : (q.next n raised).finished = true := by
  cases q with
  | halt => rfl
  | _ => cases h

/--
The worker passes its poll only when the flag is up.
-/
theorem Worker.pastGo_next {n : Nat} {q : Worker} {raised : Bool}
    (hgo : q.pastGo = true -> raised = true) (h : (q.next n raised).pastGo = true) :
    raised = true := by
  cases q with
  | base k =>
      change (if k < 3 then base (k + 1) else lwGo).pastGo = true at h
      split at h <;> cases h
  | lwGo => exact h
  | lwGoBack seen => exact hgo h
  | beqGo seen =>
      cases seen with
      | false => cases h
      | true => exact hgo rfl
  | _ => exact hgo rfl

theorem Producer.pastDone_next {n : Nat} {p : Producer} {finished : Bool}
    (hdone : p.pastDone = true -> finished = true)
    (h : (p.next n finished).pastDone = true) : finished = true := by
  cases p with
  | swCount =>
      change (nextItem n 0).pastDone = true at h
      unfold nextItem at h
      split at h <;> cases h
  | swItem k =>
      change (nextItem n (k + 1)).pastDone = true at h
      unfold nextItem at h
      split at h <;> cases h
  | lwDone => exact h
  | beqDone seen =>
      cases seen with
      | false => cases h
      | true => exact hdone rfl
  | lwResult => exact hdone rfl
  | fence => exact hdone rfl
  | halt => exact hdone rfl
  | _ => cases h

theorem State.raised_step {n : Nat} {s : State} (moves : Moves)
    (h : s.producer.raised = true) : (s.step n moves).producer.raised = true := by
  change (if moves.pipelined then _ else _ : Producer).raised = true
  split
  · exact Producer.raised_next _ h
  · exact h

theorem State.finished_step {n : Nat} {s : State} (moves : Moves)
    (h : s.worker.finished = true) : (s.step n moves).worker.finished = true := by
  change (if moves.ooo then _ else _ : Worker).finished = true
  split
  · exact Worker.finished_next _ h
  · exact h

theorem agreed_step {n : Nat} {s : State} (moves : Moves) (h : Agreed n s) :
    Agreed n (s.step n moves) := by
  constructor
  · change (if moves.pipelined then _ else _ : Producer).InRange n
    split
    · exact Producer.inRange_next _ h.producer
    · exact h.producer
  · change (if moves.ooo then _ else _ : Worker).InRange n
    split
    · exact Worker.inRange_next _ h.worker
    · exact h.worker
  · intro hgo
    apply State.raised_step
    change (if moves.ooo then _ else _ : Worker).pastGo = true at hgo
    split at hgo
    · exact Worker.pastGo_next h.go hgo
    · exact h.go hgo
  · intro hdone
    apply State.finished_step
    change (if moves.pipelined then _ else _ : Producer).pastDone = true at hdone
    split at hdone
    · exact Producer.pastDone_next h.done hdone
    · exact h.done hdone

/-!
# Progress

Each party counts the moves it still has to make, the producer up to its flag and then
from the flag of the worker on, the worker from the flag of the producer on.  A poll that
has just missed the flag costs one more round.
-/

def Producer.toGo (n : Nat) : Producer -> Nat
  | lui => 2 * n + 5
  | addiCount => 2 * n + 4
  | swCount => 2 * n + 3
  | addiItem k => 2 * (n - k) + 2
  | swItem k => 2 * (n - k) + 1
  | addiGo => 2
  | swGo => 1
  | _ => 0

def Worker.toHalt (n : Nat) : Worker -> Nat
  | base k => 7 * n + 16 - k
  | lwGoBack seen => if seen then 7 * n + 11 else 7 * n + 14
  | beqGo seen => if seen then 7 * n + 10 else 7 * n + 13
  | lwGo => 7 * n + 12
  | lwCount => 7 * n + 9
  | lwCountBack => 7 * n + 8
  | clearSum => 7 * n + 7
  | clearIndex => 7 * n + 6
  | firstItem => 7 * n + 5
  | beqEnd k => 7 * (n - k) + 4
  | lwItem k => 7 * (n - k) + 3
  | lwItemBack k => 7 * (n - k) + 2
  | addItem k => 7 * (n - k) + 1
  | nextItem k => 7 * (n - k)
  | nextIndex k => 7 * (n - k) - 1
  | again k => 7 * (n - k) - 2
  | swResult => 3
  | addiDone => 2
  | swDone => 1
  | halt => 0

def Producer.toHalt : Producer -> Nat
  | lwDone => 4
  | beqDone seen => if seen then 3 else 5
  | lwResult => 2
  | fence => 1
  | _ => 0

theorem Producer.toGo_nextItem_lt (n k : Nat) :
    (nextItem n k).toGo n < 2 * (n - k) + 3 := by
  unfold nextItem
  split
  · exact Nat.lt_succ_self _
  · change 2 < 2 * (n - k) + 3
    omega

theorem Producer.toGo_next_lt {n : Nat} {p : Producer} (finished : Bool)
    (hrange : p.InRange n) (h : p.raised = false) : (p.next n finished).toGo n < p.toGo n := by
  cases p with
  | lui => exact Nat.lt_succ_self _
  | addiCount => exact Nat.lt_succ_self _
  | swCount => exact toGo_nextItem_lt n 0
  | addiItem k => exact Nat.lt_succ_self _
  | swItem k =>
      have hk : k < n := hrange
      have hnext := toGo_nextItem_lt n (k + 1)
      change (nextItem n (k + 1)).toGo n < 2 * (n - k) + 1
      omega
  | addiGo => exact Nat.lt_succ_self _
  | swGo => exact Nat.lt_succ_self _
  | _ => cases h

theorem Worker.toHalt_next_lt {n : Nat} {q : Worker} (hrange : q.InRange n)
    (h : q.finished = false) : (q.next n true).toHalt n < q.toHalt n := by
  cases q with
  | base k =>
      have hk : k < 4 := hrange
      change (if k < 3 then base (k + 1) else lwGo).toHalt n < 7 * n + 16 - k
      split
      · change 7 * n + 16 - (k + 1) < 7 * n + 16 - k
        omega
      · change 7 * n + 12 < 7 * n + 16 - k
        omega
  | lwGoBack seen => cases seen <;> exact Nat.lt_succ_self _
  | beqGo seen => cases seen <;> exact Nat.lt_succ_self _
  | beqEnd k =>
      have hk : k <= n := hrange
      change (if k = n then swResult else lwItem k).toHalt n < 7 * (n - k) + 4
      split
      · change 3 < _
        omega
      · exact Nat.lt_succ_self _
  | nextItem k =>
      have hk : k < n := hrange
      change 7 * (n - k) - 1 < 7 * (n - k)
      omega
  | nextIndex k =>
      have hk : k < n := hrange
      change 7 * (n - k) - 2 < 7 * (n - k) - 1
      omega
  | again k =>
      have hk : k < n := hrange
      change 7 * (n - (k + 1)) + 4 < 7 * (n - k) - 2
      omega
  | halt => cases h
  | _ => exact Nat.lt_succ_self _

theorem Producer.toHalt_next_lt {n : Nat} {p : Producer} (hraised : p.raised = true)
    (h : p ≠ halt) : (p.next n true).toHalt < p.toHalt := by
  cases p with
  | lwDone => exact Nat.lt_succ_self _
  | beqDone seen => cases seen <;> exact Nat.lt_succ_self _
  | lwResult => exact Nat.lt_succ_self _
  | fence => exact Nat.lt_succ_self _
  | halt => exact absurd rfl h
  | _ => cases hraised

section

variable {n : Nat} {s : Nat -> State} {moves : Nat -> Moves}

theorem agreed_isRun (hrun : Lib.IsRun (State.step n) (fun _ _ => True) s moves)
    (hinit : Agreed n (s 0)) (t : Nat) : Agreed n (s t) :=
  hrun.keeps (fun _ moves h => agreed_step moves h) (Nat.zero_le t) hinit

theorem raised_isRun (hrun : Lib.IsRun (State.step n) (fun _ _ => True) s moves) {t u : Nat}
    (hle : t <= u) (h : (s t).producer.raised = true) : (s u).producer.raised = true :=
  @Lib.IsRun.keeps _ _ _ _ _ _ (fun a => a.producer.raised = true) hrun
    (fun _ moves h => State.raised_step moves h) t u hle h

theorem finished_isRun (hrun : Lib.IsRun (State.step n) (fun _ _ => True) s moves)
    {t u : Nat} (hle : t <= u) (h : (s t).worker.finished = true) :
    (s u).worker.finished = true :=
  @Lib.IsRun.keeps _ _ _ _ _ _ (fun a => a.worker.finished = true) hrun
    (fun _ moves h => State.finished_step moves h) t u hle h

theorem moves_again {c : Nat -> Bool} (h : forall t, exists u, t <= u ∧ c u = true) (t : Nat)
    (_ : c t = false) : exists u, t <= u ∧ ¬ c u = false := by
  obtain ⟨u, hle, hmove⟩ := h t
  refine ⟨u, hle, ?_⟩
  rw [hmove]
  exact Bool.noConfusion

/--
If both cores go on again and again, the producer comes to its end.
-/
theorem producer_halts (hrun : Lib.IsRun (State.step n) (fun _ _ => True) s moves)
    (hinit : Agreed n (s 0))
    (hpipelined : forall t, exists u, t <= u ∧ (moves u).pipelined = true)
    (hooo : forall t, exists u, t <= u ∧ (moves u).ooo = true) :
    exists t, (s t).producer = .halt := by
  have hagreed := agreed_isRun hrun hinit
  have hfairA := moves_again hpipelined
  have hfairB := moves_again hooo
  -- the items come out
  obtain ⟨t1, -, -, hraised⟩ := @Lib.waits_end (fun t => (s t).producer.raised = false)
    (fun t => (moves t).pipelined = false) (fun t => (s t).producer.toGo n)
    (fun t hwait => by
      rw [(hrun t).right]
      change (if (moves t).pipelined then _ else _ : Producer).toGo n < _ ∨
        (_ ∧ (if (moves t).pipelined then _ else _ : Producer).toGo n = _)
      cases hmove : (moves t).pipelined with
      | true => exact Or.inl (Producer.toGo_next_lt _ (hagreed t).producer hwait)
      | false => exact Or.inr ⟨rfl, rfl⟩) hfairA 0
  rw [Bool.not_eq_false] at hraised
  -- the sum comes out
  obtain ⟨t2, hle, -, hfinished⟩ :=
    @Lib.waits_end (fun t => t1 <= t ∧ (s t).worker.finished = false)
    (fun t => (moves t).ooo = false) (fun t => (s t).worker.toHalt n)
    (fun t hwait => by
      rw [(hrun t).right]
      change (if (moves t).ooo then _ else _ : Worker).toHalt n < _ ∨
        (_ ∧ (if (moves t).ooo then _ else _ : Worker).toHalt n = _)
      rw [raised_isRun hrun hwait.left hraised]
      cases hmove : (moves t).ooo with
      | true => exact Or.inl (Worker.toHalt_next_lt (hagreed t).worker hwait.right)
      | false => exact Or.inr ⟨rfl, rfl⟩) hfairB t1
  rw [not_and, Bool.not_eq_false] at hfinished
  have hdone : (s t2).worker.finished = true := hfinished hle
  -- the sum is picked up
  obtain ⟨t3, hle', -, hhalt⟩ :=
    @Lib.waits_end (fun t => t2 <= t ∧ (s t).producer ≠ .halt)
    (fun t => (moves t).pipelined = false) (fun t => (s t).producer.toHalt)
    (fun t hwait => by
      rw [(hrun t).right]
      change (if (moves t).pipelined then _ else _ : Producer).toHalt < _ ∨
        (_ ∧ (if (moves t).pipelined then _ else _ : Producer).toHalt = _)
      rw [finished_isRun hrun hwait.left hdone]
      cases hmove : (moves t).pipelined with
      | true =>
          have hup := raised_isRun hrun (Nat.le_trans hle hwait.left) hraised
          exact Or.inl (Producer.toHalt_next_lt hup hwait.right)
      | false => exact Or.inr ⟨rfl, rfl⟩) hfairA t2
  refine ⟨t3, ?_⟩
  by_contra hne
  exact hhalt ⟨hle', hne⟩

end

end Handoff
end Soc
end RvCores
