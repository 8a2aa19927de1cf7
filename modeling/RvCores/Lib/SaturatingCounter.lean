import RvCores.Lib.RunningCost

/-!
# Saturating counters

A counter between zero and a top moves up on one kind of outcome and down on the other,
and guesses the next outcome by comparing itself with a threshold.  Against a run of
outcomes of one kind it is wrong at most as often as it is steps away from the
threshold; every outcome of the other kind costs at most one more wrong guess than
itself.
-/

namespace RvCores
namespace Lib

def saturate (top count : Nat) (up : Bool) : Nat :=
  if up then if count = top then top else count + 1
  else if count = 0 then 0 else count - 1

/--
A counter inside a clocked system.  In some cycles the system shows the counter an
outcome, and no other cycle changes it.
-/
structure TrainedCounter {state input : Type} (step : state -> input -> state)
    (top : Nat) where
  count : state -> Nat
  outcome : state -> input -> Option Bool
  count_step : forall s i,
    count (step s i) =
      match outcome s i with
      | none => count s
      | some up => saturate top (count s) up

namespace TrainedCounter

variable {state input : Type} {step : state -> input -> state} {top : Nat}

def guess (c : TrainedCounter step top) (threshold : Nat) (s : state) : Bool :=
  decide (threshold <= c.count s)

/--
One for every cycle that shows the counter an outcome it did not guess.
-/
def wrong (c : TrainedCounter step top) (threshold : Nat) (s : state) (i : input) : Nat :=
  match c.outcome s i with
  | none => 0
  | some up => if c.guess threshold s = up then 0 else 1

def shown (c : TrainedCounter step top) (up : Bool) (s : state) (i : input) : Nat :=
  if c.outcome s i = some up then 1 else 0

/--
How many more outcomes of the given kind the counter needs before it guesses them.
-/
def shortfall (c : TrainedCounter step top) (threshold : Nat) (up : Bool) (s : state) :
    Nat :=
  if up then threshold - c.count s else c.count s + 1 - threshold

theorem wrong_add_shortfall_le (c : TrainedCounter step top) {threshold : Nat}
    (hpos : 0 < threshold) (htop : threshold <= top) (up : Bool) (s : state) (i : input) :
    c.wrong threshold s i + c.shortfall threshold up (step s i) <=
      c.shortfall threshold up s + 2 * c.shown (!up) s i := by
  have hcount := c.count_step s i
  unfold wrong shown shortfall guess
  cases hi : c.outcome s i with
  | none =>
      rw [hi] at hcount
      dsimp only at hcount
      simp [hcount]
  | some x =>
      rw [hi] at hcount
      dsimp only at hcount
      rw [hcount]
      unfold saturate
      cases x with
      | false => cases up <;> simp <;> split <;> split <;> omega
      | true => cases up <;> simp <;> split <;> split <;> omega

/--
Over a run the counter is wrong at most twice for every outcome of one kind, and a few
times more until it has swung to the other kind.
-/
theorem totalCost_wrong_le (c : TrainedCounter step top) {threshold : Nat}
    (hpos : 0 < threshold) (htop : threshold <= top) (up : Bool) (s : state)
    (is : List input) :
    totalCost step (c.wrong threshold) s is <=
      c.shortfall threshold up s + 2 * totalCost step (c.shown (!up)) s is := by
  rw [← totalCost_mul]
  exact totalCost_le_of_potential (c.shortfall threshold up)
    (c.wrong_add_shortfall_le hpos htop up) s is

end TrainedCounter
end Lib
end RvCores
