import RvCores.Block.Predictor
import RvCores.Lib.SaturatingCounter
import Mathlib.Algebra.BigOperators.Ring.Finset
import Mathlib.Algebra.Order.BigOperators.Group.Finset

/-!
# How often the predictors are wrong

The execute stage reports every branch it has resolved.  A table misses a branch when,
asked again at that moment, it would say the other direction; this is also the question
by which the chooser is trained.
-/

namespace RvCores
namespace Block

variable {w : Nat} {entries k : Nat}

structure Resolved (w : Nat) where
  valid : Bool
  pc : BitVec w
  taken : Bool
  target : BitVec w

namespace Predictor

def clock (entries : Nat) (p : Predictor w) (r : Resolved w) : Predictor w :=
  p.step entries r.valid r.pc r.taken r.target

def missed (kind : PredictorKind) (entries : Nat) (p : Predictor w) (r : Resolved w) :
    Nat :=
  (r.valid && p.direction kind entries r.pc != r.taken).toNat

def reported (taken : Bool) (_ : Predictor w) (r : Resolved w) : Nat :=
  (r.valid && r.taken == taken).toNat

def misses (kind : PredictorKind) (entries : Nat) (p : Predictor w)
    (rs : List (Resolved w)) : Nat :=
  Lib.totalCost (clock entries) (missed kind entries) p rs

def pcKey (entries : Nat) (_ : Predictor w) (r : Resolved w) : Nat :=
  predictorIndex entries r.pc

/--
Only the branches that share one entry of the tables indexed by program counter.
-/
def missesAt (kind : PredictorKind) (entries k : Nat) (p : Predictor w)
    (rs : List (Resolved w)) : Nat :=
  Lib.totalCost (clock entries) (Lib.chargedTo (pcKey entries) (missed kind entries) k) p
    rs

end Predictor

theorem predictorIndex_lt (hpos : 0 < entries) (pc : BitVec w) :
    predictorIndex entries pc < entries :=
  Nat.mod_lt _ hpos

theorem Predictor.misses_eq_sum (hpos : 0 < entries) (kind : PredictorKind)
    (p : Predictor w) (rs : List (Resolved w)) :
    p.misses kind entries rs =
      (Finset.range entries).sum fun k => p.missesAt kind entries k rs :=
  @Lib.totalCost_eq_sum_chargedTo _ _ _ (fun _ => True) _ _ _ _ (fun _ _ _ => trivial)
    (fun _ r _ => predictorIndex_lt hpos r.pc) trivial rs

/-!
# Tables of counters

A cycle trains at most one entry of a table.
-/

theorem Bht.saturatingUpdate_toNat (counter : BitVec 2) (up : Bool) :
    (Bht.saturatingUpdate counter up).toNat = Lib.saturate 3 counter.toNat up := by
  revert counter up
  decide

theorem getLsbD_one_eq (counter : BitVec 2) :
    counter.getLsbD 1 = decide (2 <= counter.toNat) := by
  revert counter
  decide

structure CounterTable (w entries : Nat) where
  counters : Predictor w -> Nat -> BitVec 2
  trained : Predictor w -> Resolved w -> Option (Nat × Bool)
  counters_reset : forall (p : Predictor w) k, k < entries -> counters (p.reset entries) k = 0
  counters_clock : forall (p : Predictor w) r,
    counters (p.clock entries r) =
      match trained p r with
      | none => counters p
      | some (k, up) => Lib.modifyAt (counters p) k (Bht.saturatingUpdate · up)

namespace CounterTable

def shownTo (k : Nat) : Option (Nat × Bool) -> Option Bool
  | none => none
  | some (idx, up) => if idx = k then some up else none

theorem toNat_counters_clock (t : CounterTable w entries) (p : Predictor w)
    (r : Resolved w) :
    (t.counters (p.clock entries r) k).toNat =
      match shownTo k (t.trained p r) with
      | none => (t.counters p k).toNat
      | some up => Lib.saturate 3 (t.counters p k).toNat up := by
  rw [t.counters_clock]
  rcases t.trained p r with _ | ⟨idx, up⟩
  · rfl
  · change (Lib.modifyAt (t.counters p) idx _ k).toNat =
      match (if idx = k then some up else none) with
      | none => (t.counters p k).toNat
      | some up => Lib.saturate 3 (t.counters p k).toNat up
    rw [Lib.modifyAt_apply]
    by_cases hk : idx = k
    · rw [if_pos hk, if_pos hk.symm]
      exact Bht.saturatingUpdate_toNat (t.counters p k) up
    · rw [if_neg hk, if_neg (Ne.symm hk)]

def entry (t : CounterTable w entries) (k : Nat) :
    Lib.TrainedCounter (Predictor.clock (w := w) entries) 3 where
  count := fun p => (t.counters p k).toNat
  outcome := fun p r => shownTo k (t.trained p r)
  count_step := fun p r => t.toNat_counters_clock p r

def shownAt (t : CounterTable w entries) (k : Nat) (up : Bool) (p : Predictor w)
    (rs : List (Resolved w)) : Nat :=
  Lib.totalCost (Predictor.clock entries) ((t.entry k).shown up) p rs

def wrongAt (t : CounterTable w entries) (k : Nat) (p : Predictor w)
    (rs : List (Resolved w)) : Nat :=
  Lib.totalCost (Predictor.clock entries) ((t.entry k).wrong 2) p rs

theorem wrongAt_reset_le (t : CounterTable w entries) (hk : k < entries) (up : Bool)
    (p : Predictor w) (rs : List (Resolved w)) :
    t.wrongAt k (p.reset entries) rs <=
      2 * up.toNat + 2 * t.shownAt k (!up) (p.reset entries) rs := by
  have hcount : (t.entry k).count (p.reset entries) = 0 :=
    congrArg BitVec.toNat (t.counters_reset p k hk)
  have hshort : (t.entry k).shortfall 2 up (p.reset entries) = 2 * up.toNat := by
    unfold Lib.TrainedCounter.shortfall
    rw [hcount]
    cases up <;> rfl
  rw [← hshort]
  exact (t.entry k).totalCost_wrong_le Nat.two_pos (Nat.le_succ 2) up _ rs

theorem wrong_of_trained {t : CounterTable w entries} {p : Predictor w} {r : Resolved w}
    {up : Bool} (h : t.trained p r = some (k, up)) :
    (t.entry k).wrong 2 p r = ((t.counters p k).getLsbD 1 != up).toNat := by
  have hshown : (t.entry k).outcome p r = some up := by
    change shownTo k (t.trained p r) = some up
    rw [h]
    exact if_pos rfl
  unfold Lib.TrainedCounter.wrong
  rw [hshown, getLsbD_one_eq]
  change (if (t.entry k).guess 2 p = up then 0 else 1) = ((t.entry k).guess 2 p != up).toNat
  cases up <;> cases (t.entry k).guess 2 p <;> rfl

theorem wrong_of_not_trained {t : CounterTable w entries} {p : Predictor w}
    {r : Resolved w} (h : forall up, t.trained p r ≠ some (k, up)) :
    (t.entry k).wrong 2 p r = 0 := by
  have hshown : (t.entry k).outcome p r = none := by
    change shownTo k (t.trained p r) = none
    rcases htrained : t.trained p r with _ | ⟨idx, up⟩
    · rfl
    · refine if_neg fun hk => h up ?_
      rw [htrained, hk]
  unfold Lib.TrainedCounter.wrong
  rw [hshown]

end CounterTable

/-!
# One direction table

A direction table trains one entry by every branch, and it misses the branch when that
entry is wrong.
-/

structure DirectionTable (w entries : Nat) extends CounterTable w entries where
  kind : PredictorKind
  key : Predictor w -> Resolved w -> Nat
  trained_eq : forall p r,
    trained p r = if r.valid then some (key p r, r.taken) else none
  direction_eq : forall (p : Predictor w) (r : Resolved w),
    p.direction kind entries r.pc = (counters p (key p r)).getLsbD 1

namespace DirectionTable

theorem missed_eq (t : DirectionTable w entries) (p : Predictor w) (r : Resolved w) :
    Lib.chargedTo t.key (Predictor.missed t.kind entries) k p r =
      (t.entry k).wrong 2 p r := by
  unfold Lib.chargedTo Predictor.missed
  rw [t.direction_eq]
  cases hvalid : r.valid with
  | false =>
      rw [CounterTable.wrong_of_not_trained fun up => by simp [t.trained_eq, hvalid]]
      exact ite_self 0
  | true =>
      have htrained : t.trained p r = some (t.key p r, r.taken) := by
        rw [t.trained_eq, if_pos hvalid]
      by_cases hk : t.key p r = k
      · subst hk
        rw [if_pos rfl, CounterTable.wrong_of_trained htrained, Bool.true_and]
      · rw [if_neg hk, CounterTable.wrong_of_not_trained fun up => by simp [htrained, hk]]

def missesAt (t : DirectionTable w entries) (k : Nat) (p : Predictor w)
    (rs : List (Resolved w)) : Nat :=
  Lib.totalCost (Predictor.clock entries)
    (Lib.chargedTo t.key (Predictor.missed t.kind entries) k) p rs

/--
The branches of one direction that train an entry.
-/
def outcomesAt (t : DirectionTable w entries) (k : Nat) (taken : Bool) (p : Predictor w)
    (rs : List (Resolved w)) : Nat :=
  Lib.totalCost (Predictor.clock entries)
    (Lib.chargedTo t.key (Predictor.reported taken) k) p rs

theorem reported_eq (t : DirectionTable w entries) (taken : Bool) (p : Predictor w)
    (r : Resolved w) :
    Lib.chargedTo t.key (Predictor.reported taken) k p r =
      (t.entry k).shown taken p r := by
  unfold Lib.chargedTo Lib.TrainedCounter.shown Predictor.reported
  change _ = if CounterTable.shownTo k (t.trained p r) = some taken then 1 else 0
  rw [t.trained_eq]
  cases r.valid with
  | false => exact ite_self 0
  | true =>
      by_cases hk : t.key p r = k
      · subst hk
        cases r.taken <;> cases taken <;> simp [CounterTable.shownTo]
      · simp [CounterTable.shownTo, hk]

/--
After reset an entry misses at most twice for every branch of either direction, and two
times more when that direction is not taken.
-/
theorem missesAt_reset_le (t : DirectionTable w entries) (hk : k < entries)
    (taken : Bool) (p : Predictor w) (rs : List (Resolved w)) :
    t.missesAt k (p.reset entries) rs <=
      2 * taken.toNat + 2 * t.outcomesAt k (!taken) (p.reset entries) rs := by
  unfold missesAt outcomesAt
  rw [Lib.totalCost_congr t.missed_eq, Lib.totalCost_congr (t.reported_eq (!taken))]
  exact t.wrongAt_reset_le hk taken p rs

end DirectionTable

/-!
# The three tables of the predictor
-/

def gshareTable (w entries : Nat) : DirectionTable w entries where
  kind := .gshare
  counters := fun p => p.gshare.counters
  key := fun p r => p.gshare.index entries r.pc
  trained := fun p r =>
    if r.valid then some (p.gshare.index entries r.pc, r.taken) else none
  counters_reset := fun _ _ hk => if_pos hk
  counters_clock := by
    intro p r
    cases hvalid : r.valid <;> simp [Predictor.clock, Predictor.step, Gshare.step, hvalid]
  trained_eq := fun _ _ => rfl
  direction_eq := fun _ _ => rfl

def chooserTable (w entries : Nat) : CounterTable w entries where
  counters := fun p => p.chooser.counters
  trained := fun p r =>
    let aCorrect := p.bht.predictTaken entries r.pc == r.taken
    let bCorrect := p.gshare.predictTaken entries r.pc == r.taken
    if r.valid && aCorrect != bCorrect then
      some (predictorIndex entries r.pc, bCorrect)
    else none
  counters_reset := fun _ _ hk => if_pos hk
  counters_clock := by
    intro p r
    dsimp only [Predictor.clock, Predictor.step, Chooser.step]
    split <;> rfl

theorem chooserTable_trained (p : Predictor w) (r : Resolved w) :
    (chooserTable w entries).trained p r =
      if r.valid && (p.bht.predictTaken entries r.pc == r.taken) !=
          (p.gshare.predictTaken entries r.pc == r.taken) then
        some (predictorIndex entries r.pc, p.gshare.predictTaken entries r.pc == r.taken)
      else none := rfl

/-!
# The choice

Where the two tables disagree, the chooser decides whether the branch is missed.
-/

def bothMissed (entries : Nat) (p : Predictor w) (r : Resolved w) : Nat :=
  (r.valid && (p.bht.predictTaken entries r.pc != r.taken) &&
    (p.gshare.predictTaken entries r.pc != r.taken)).toNat

theorem missed_tournament_eq (p : Predictor w) (r : Resolved w) :
    Lib.chargedTo (Predictor.pcKey entries) (Predictor.missed .tournament entries) k p r =
      Lib.chargedTo (Predictor.pcKey entries) (bothMissed entries) k p r +
        ((chooserTable w entries).entry k).wrong 2 p r := by
  unfold Lib.chargedTo Predictor.pcKey
  by_cases hk : predictorIndex entries r.pc = k
  · subst hk
    rw [if_pos rfl, if_pos rfl]
    by_cases htrained : (r.valid && (p.bht.predictTaken entries r.pc == r.taken) !=
        (p.gshare.predictTaken entries r.pc == r.taken)) = true
    · rw [CounterTable.wrong_of_trained (if_pos htrained)]
      unfold Predictor.missed bothMissed Predictor.direction Chooser.preferB
      dsimp only [chooserTable]
      revert htrained
      cases r.valid <;> cases r.taken <;> cases p.bht.predictTaken entries r.pc <;>
        cases p.gshare.predictTaken entries r.pc <;>
        cases (p.chooser.counters (predictorIndex entries r.pc)).getLsbD 1 <;> simp
    · rw [CounterTable.wrong_of_not_trained fun up => by
        rw [chooserTable_trained, if_neg htrained]
        exact (Option.some_ne_none _).symm]
      unfold Predictor.missed bothMissed Predictor.direction
      revert htrained
      cases r.valid <;> cases r.taken <;> cases p.bht.predictTaken entries r.pc <;>
        cases p.gshare.predictTaken entries r.pc <;> simp
  · rw [if_neg hk, if_neg hk, CounterTable.wrong_of_not_trained fun up => by
      rw [chooserTable_trained]
      split <;> simp [hk]]

/--
The table that the chooser moves away from when it is shown an outcome.
-/
def leftBehind (up : Bool) : PredictorKind :=
  if up then .dynamicBhtBtb else .gshare

theorem missed_leftBehind_eq (up : Bool) (p : Predictor w) (r : Resolved w) :
    Lib.chargedTo (Predictor.pcKey entries) (Predictor.missed (leftBehind up) entries) k p
        r =
      Lib.chargedTo (Predictor.pcKey entries) (bothMissed entries) k p r +
        ((chooserTable w entries).entry k).shown up p r := by
  unfold Lib.chargedTo Predictor.pcKey Lib.TrainedCounter.shown
  change _ = _ + if CounterTable.shownTo k ((chooserTable w entries).trained p r) = some up
    then 1 else 0
  rw [chooserTable_trained]
  by_cases hk : predictorIndex entries r.pc = k
  · subst hk
    rw [if_pos rfl, if_pos rfl]
    unfold Predictor.missed bothMissed
    cases up <;> dsimp only [leftBehind, Predictor.direction] <;> cases r.valid <;>
      cases r.taken <;> cases p.bht.predictTaken entries r.pc <;>
      cases p.gshare.predictTaken entries r.pc <;> simp [CounterTable.shownTo]
  · rw [if_neg hk, if_neg hk]
    split <;> simp [CounterTable.shownTo, hk]

/-!
# The tournament

A step lemma splits the misses of an entry into those no choice avoids and those of the
chooser; the run follows from the bound on one counter.
-/

theorem missesAt_tournament_le (hk : k < entries) (up : Bool) (p : Predictor w)
    (rs : List (Resolved w)) :
    (p.reset entries).missesAt .tournament entries k rs <=
      2 * up.toNat + 2 * (p.reset entries).missesAt (leftBehind (!up)) entries k rs := by
  unfold Predictor.missesAt
  rw [Lib.totalCost_congr missed_tournament_eq,
    Lib.totalCost_congr (missed_leftBehind_eq (!up)), Lib.totalCost_add,
    Lib.totalCost_add]
  have hchoice := (chooserTable w entries).wrongAt_reset_le hk up p rs
  unfold CounterTable.wrongAt CounterTable.shownAt at hchoice
  omega

theorem tournament_misses_le_leftBehind (hpos : 0 < entries) (up : Bool)
    (p : Predictor w) (rs : List (Resolved w)) :
    (p.reset entries).misses .tournament entries rs <=
      entries * (2 * up.toNat) +
        2 * (p.reset entries).misses (leftBehind (!up)) entries rs := by
  rw [Predictor.misses_eq_sum hpos, Predictor.misses_eq_sum hpos]
  calc
    _ <= (Finset.range entries).sum fun k =>
          2 * up.toNat +
            2 * (p.reset entries).missesAt (leftBehind (!up)) entries k rs :=
        Finset.sum_le_sum fun k hk =>
          missesAt_tournament_le (Finset.mem_range.mp hk) up p rs
    _ = _ := by
        rw [Finset.sum_add_distrib, Finset.sum_const, Finset.card_range, Nat.nsmul_eq_mul,
          Finset.mul_sum]

/--
Over any run after reset the tournament misses at most twice as often as either of its
tables alone, up to two more misses for every entry of the chooser.
-/
theorem tournament_misses_le (hpos : 0 < entries) (p : Predictor w)
    (rs : List (Resolved w)) :
    (p.reset entries).misses .tournament entries rs <=
        2 * (p.reset entries).misses .dynamicBhtBtb entries rs ∧
      (p.reset entries).misses .tournament entries rs <=
        2 * (p.reset entries).misses .gshare entries rs + 2 * entries := by
  have hbht := tournament_misses_le_leftBehind hpos false p rs
  have hgshare := tournament_misses_le_leftBehind hpos true p rs
  change _ <= entries * 0 + _ at hbht
  change _ <= entries * 2 + 2 * (p.reset entries).misses .gshare entries rs at hgshare
  constructor
  · exact hbht.trans (Nat.le_of_eq (Nat.zero_add _))
  · exact hgshare.trans (Nat.le_of_eq (by rw [Nat.add_comm, Nat.mul_comm entries]))

/--
A branch that is taken and not taken in turn.
-/
def alternating : List (Resolved 32) :=
  [⟨true, 8, true, 4⟩, ⟨false, 0, true, 0⟩, ⟨true, 8, false, 4⟩, ⟨true, 8, true, 4⟩]

def coldPredictor : Predictor 32 :=
  { btb := ⟨fun _ => false, fun _ => 0⟩
    bht := ⟨fun _ => 0⟩
    gshare := ⟨fun _ => 0, 0⟩
    chooser := ⟨fun _ => 0⟩ }

theorem tournament_misses_le_alternating :
    (coldPredictor.reset 32).misses .tournament 32 alternating <=
        2 * (coldPredictor.reset 32).misses .dynamicBhtBtb 32 alternating ∧
      (coldPredictor.reset 32).misses .tournament 32 alternating <=
        2 * (coldPredictor.reset 32).misses .gshare 32 alternating + 2 * 32 :=
  tournament_misses_le (Nat.succ_pos 31) coldPredictor alternating

end Block
end RvCores
