import RvCores.Block.PredictorMisses
import Mathlib.Data.Fintype.Pi
import Mathlib.Data.Nat.Bitwise

/-!
# The history of the second direction table

The history register holds the outcomes of the last branches, the newest in its lowest
bit.  A branch whose outcome is a function of them is learned entry by entry.
-/

namespace RvCores
namespace Block

variable {w h : Nat}

/-!
# The register and the past
-/

def outcomes (rs : List (Resolved w)) : List Bool :=
  (rs.filter fun r => r.valid).map fun r => r.taken

theorem outcomes_cons (r : Resolved w) (rs : List (Resolved w)) :
    outcomes (r :: rs) = if r.valid then r.taken :: outcomes rs else outcomes rs := by
  unfold outcomes
  rw [List.filter_cons]
  cases r.valid <;> rfl

/--
The last outcomes, the newest first; before the first branch nothing was taken.
-/
def recent (h : Nat) (past : List Bool) : Fin h -> Bool :=
  fun i => past.reverse.getD i false

def shiftIn (entries ghr : Nat) (taken : Bool) : Nat :=
  (2 * ghr + taken.toNat) % entries

theorem ghr_clock (entries : Nat) (p : Predictor w) (r : Resolved w) :
    (p.clock entries r).gshare.ghr =
      if r.valid then shiftIn entries p.gshare.ghr r.taken else p.gshare.ghr := by
  dsimp only [Predictor.clock, Predictor.step, Gshare.step]
  split <;> rfl

theorem ghr_run (entries : Nat) (p : Predictor w) (rs : List (Resolved w)) :
    (Lib.run (Predictor.clock entries) p rs).gshare.ghr =
      (outcomes rs).foldl (shiftIn entries) p.gshare.ghr := by
  induction rs generalizing p with
  | nil => rfl
  | cons r rs ih =>
      change (Lib.run _ (p.clock entries r) rs).gshare.ghr = _
      rw [ih, ghr_clock, outcomes_cons]
      cases r.valid <;> rfl

theorem testBit_shiftIn (ghr : Nat) (taken : Bool) (i : Nat) :
    (shiftIn (2 ^ h) ghr taken).testBit i =
      (decide (i < h) && match i with
        | 0 => taken
        | i + 1 => ghr.testBit i) := by
  unfold shiftIn
  rw [Nat.testBit_mod_two_pow]
  cases i with
  | zero =>
      cases taken <;> simp [Nat.testBit_zero]
  | succ i =>
      have hhalf : (2 * ghr + taken.toNat) / 2 = ghr := by
        have := Bool.toNat_lt taken
        omega
      rw [Nat.testBit_succ, hhalf]

theorem testBit_foldl_shiftIn (past : List Bool) (i : Nat) :
    (past.foldl (shiftIn (2 ^ h)) 0).testBit i =
      (decide (i < h) && past.reverse.getD i false) := by
  induction past using List.reverseRecOn generalizing i with
  | nil => simp
  | append_singleton past taken ih =>
      rw [List.foldl_append, List.foldl_cons, List.foldl_nil, testBit_shiftIn,
        List.reverse_append]
      cases i with
      | zero => rfl
      | succ i =>
          dsimp only
          rw [ih i]
          by_cases hi : i + 1 < h
          · have hi' : i < h := Nat.lt_of_succ_lt hi
            simp [hi, hi']
          · simp [hi]

/--
After any run from reset each bit of the register is the outcome of one past branch.
-/
theorem testBit_ghr_run (p : Predictor w) (rs : List (Resolved w)) (i : Fin h) :
    (Lib.run (Predictor.clock (2 ^ h)) (p.reset (2 ^ h)) rs).gshare.ghr.testBit i =
      recent h (outcomes rs) i := by
  rw [ghr_run]
  change (List.foldl (shiftIn (2 ^ h)) 0 (outcomes rs)).testBit i = _
  rw [testBit_foldl_shiftIn, decide_eq_true i.isLt, Bool.true_and]
  rfl

theorem ghr_clock_lt (p : Predictor w) (r : Resolved w) (hlt : p.gshare.ghr < 2 ^ h) :
    (p.clock (2 ^ h) r).gshare.ghr < 2 ^ h := by
  rw [ghr_clock]
  split
  · exact Nat.mod_lt _ (Nat.two_pow_pos h)
  · exact hlt

theorem gshare_index_lt {p : Predictor w} (hlt : p.gshare.ghr < 2 ^ h) (pc : BitVec w) :
    p.gshare.index (2 ^ h) pc < 2 ^ h :=
  Nat.xor_lt_two_pow (predictorIndex_lt (Nat.two_pow_pos h) pc) hlt

/-!
# One branch that depends on the last outcomes

Entries and histories correspond: the entry of the branch is its own index mixed with the
register.
-/

def historyOf (h base k : Nat) : Fin h -> Bool :=
  fun i => (base ^^^ k).testBit i

theorem historyOf_index (p : Predictor w) (rs : List (Resolved w)) (pc : BitVec w) :
    let t := Lib.run (Predictor.clock (2 ^ h)) (p.reset (2 ^ h)) rs
    historyOf h (predictorIndex (2 ^ h) pc) (t.gshare.index (2 ^ h) pc) =
      recent h (outcomes rs) := by
  funext i
  unfold historyOf Gshare.index
  rw [Nat.xor_xor_cancel_left]
  exact testBit_ghr_run p rs i

theorem historyOf_inj {base k k' : Nat} (hbase : base < 2 ^ h) (hk : k < 2 ^ h)
    (hk' : k' < 2 ^ h) (hsame : historyOf h base k = historyOf h base k') : k = k' := by
  have hmixed : base ^^^ k = base ^^^ k' := by
    refine Nat.eq_of_testBit_eq fun i => ?_
    by_cases hi : i < h
    · exact congrFun hsame ⟨i, hi⟩
    · have hle : 2 ^ h <= 2 ^ i := Nat.pow_le_pow_right Nat.two_pos (Nat.le_of_not_lt hi)
      rw [Nat.testBit_lt_two_pow ((Nat.xor_lt_two_pow hbase hk).trans_le hle),
        Nat.testBit_lt_two_pow ((Nat.xor_lt_two_pow hbase hk').trans_le hle)]
  rw [← Nat.xor_xor_cancel_left base k, hmixed, Nat.xor_xor_cancel_left]

/--
Every branch of the run is the one at the given address, and whether it is taken is a
function of the last outcomes.
-/
def DependsOnRecent (h : Nat) (pc : BitVec w) (f : (Fin h -> Bool) -> Bool)
    (rs : List (Resolved w)) : Prop :=
  forall past r later, rs = past ++ r :: later -> r.valid = true ->
    r.pc = pc ∧ r.taken = f (recent h (outcomes past))

theorem shown_eq_zero {pc : BitVec w} {f : (Fin h -> Bool) -> Bool} {k : Nat}
    {past later : List (Resolved w)} {r : Resolved w} (p : Predictor w)
    (hrs : DependsOnRecent h pc f (past ++ r :: later)) :
    (((gshareTable w (2 ^ h)).entry k).shown
      (!f (historyOf h (predictorIndex (2 ^ h) pc) k))
      (Lib.run (Predictor.clock (2 ^ h)) (p.reset (2 ^ h)) past) r) = 0 := by
  rw [← DirectionTable.reported_eq]
  unfold Lib.chargedTo Predictor.reported
  cases hvalid : r.valid with
  | false => exact ite_self 0
  | true =>
      obtain ⟨rfl, htaken⟩ := hrs past r later rfl hvalid
      by_cases hk : (gshareTable w (2 ^ h)).key
          (Lib.run (Predictor.clock (2 ^ h)) (p.reset (2 ^ h)) past) r = k
      · subst hk
        have hhist : historyOf h (predictorIndex (2 ^ h) r.pc) ((gshareTable w (2 ^ h)).key
            (Lib.run (Predictor.clock (2 ^ h)) (p.reset (2 ^ h)) past) r) =
              recent h (outcomes past) :=
          historyOf_index p past r.pc
        rw [if_pos rfl, hhist, htaken]
        cases f (recent h (outcomes past)) <;> rfl
      · exact if_neg hk

theorem shownAt_eq_zero {pc : BitVec w} {f : (Fin h -> Bool) -> Bool} {k : Nat}
    (p : Predictor w) (past later : List (Resolved w))
    (hrs : DependsOnRecent h pc f (past ++ later)) :
    (gshareTable w (2 ^ h)).shownAt k (!f (historyOf h (predictorIndex (2 ^ h) pc) k))
      (Lib.run (Predictor.clock (2 ^ h)) (p.reset (2 ^ h)) past) later = 0 := by
  induction later generalizing past with
  | nil => rfl
  | cons r later ih =>
      have hrest := ih (past ++ [r]) (by rwa [List.append_assoc])
      unfold CounterTable.shownAt at hrest ⊢
      rw [Lib.totalCost_cons, shown_eq_zero p hrs, Nat.zero_add]
      rwa [Lib.run_append] at hrest

theorem gshare_misses_eq_sum (p : Predictor w) (rs : List (Resolved w)) :
    (p.reset (2 ^ h)).misses .gshare (2 ^ h) rs =
      (Finset.range (2 ^ h)).sum fun k =>
        (gshareTable w (2 ^ h)).missesAt k (p.reset (2 ^ h)) rs :=
  @Lib.totalCost_eq_sum_chargedTo _ _ _ (fun p => p.gshare.ghr < 2 ^ h) _ _ _ _
    (fun p r => ghr_clock_lt p r) (fun _ r hlt => gshare_index_lt hlt r.pc)
    (Nat.two_pow_pos h) rs

theorem gshare_missesAt_le {pc : BitVec w} {f : (Fin h -> Bool) -> Bool} {k : Nat}
    (p : Predictor w) {rs : List (Resolved w)} (hrs : DependsOnRecent h pc f rs)
    (hk : k < 2 ^ h) :
    (gshareTable w (2 ^ h)).missesAt k (p.reset (2 ^ h)) rs <=
      2 * if f (historyOf h (predictorIndex (2 ^ h) pc) k) = true then 1 else 0 := by
  have hmiss := (gshareTable w (2 ^ h)).missesAt_reset_le hk
    (f (historyOf h (predictorIndex (2 ^ h) pc) k)) p rs
  have hnone : (gshareTable w (2 ^ h)).outcomesAt k
      (!f (historyOf h (predictorIndex (2 ^ h) pc) k)) (p.reset (2 ^ h)) rs = 0 :=
    (Lib.totalCost_congr (DirectionTable.reported_eq _ _) _ rs).trans
      (shownAt_eq_zero p [] rs hrs)
  rw [hnone] at hmiss
  revert hmiss
  cases f (historyOf h (predictorIndex (2 ^ h) pc) k) <;> exact id

theorem card_historyOf_le {base : Nat} (hbase : base < 2 ^ h) (f : (Fin h -> Bool) -> Bool) :
    ((Finset.range (2 ^ h)).filter fun k => f (historyOf h base k) = true).card <=
      (Finset.univ.filter fun history => f history = true).card := by
  refine Finset.card_le_card_of_injOn (historyOf h base) ?_ ?_
  · intro k hk
    exact Finset.mem_filter.mpr ⟨Finset.mem_univ _, (Finset.mem_filter.mp hk).right⟩
  · intro k hk k' hk' hsame
    have hlt := Finset.mem_range.mp (Finset.mem_filter.mp hk).left
    have hlt' := Finset.mem_range.mp (Finset.mem_filter.mp hk').left
    exact historyOf_inj hbase hlt hlt' hsame

/--
However long the run, the history register holds the last outcomes, and the branch is missed
at most twice for every history after which it is taken.
-/
theorem gshare_misses_le {pc : BitVec w} {f : (Fin h -> Bool) -> Bool}
    (p : Predictor w) {rs : List (Resolved w)} (hrs : DependsOnRecent h pc f rs) :
    (forall i : Fin h,
      (Lib.run (Predictor.clock (2 ^ h)) (p.reset (2 ^ h)) rs).gshare.ghr.testBit i =
        recent h (outcomes rs) i) ∧
      (p.reset (2 ^ h)).misses .gshare (2 ^ h) rs <=
        2 * (Finset.univ.filter fun history => f history = true).card := by
  refine ⟨testBit_ghr_run p rs, ?_⟩
  have hbase : predictorIndex (2 ^ h) pc < 2 ^ h :=
    predictorIndex_lt (Nat.two_pow_pos h) pc
  rw [gshare_misses_eq_sum]
  calc
    _ <= (Finset.range (2 ^ h)).sum fun k =>
          2 * if f (historyOf h (predictorIndex (2 ^ h) pc) k) = true then 1 else 0 :=
        Finset.sum_le_sum fun k hk => gshare_missesAt_le p hrs (Finset.mem_range.mp hk)
    _ = 2 * ((Finset.range (2 ^ h)).filter fun k =>
          f (historyOf h (predictorIndex (2 ^ h) pc) k) = true).card := by
        rw [← Finset.mul_sum, ← Finset.card_filter]
    _ <= _ := Nat.mul_le_mul_left 2 (card_historyOf_le hbase f)

theorem gshare_misses_le_alternating :
    DependsOnRecent 2 (8 : BitVec 32) (fun history => !history 0) alternating ∧
      (coldPredictor.reset (2 ^ 2)).misses .gshare (2 ^ 2) alternating <=
        2 * (Finset.univ.filter fun history : Fin 2 -> Bool =>
          (!history 0) = true).card := by
  have hrs : DependsOnRecent 2 (8 : BitVec 32) (fun history => !history 0) alternating := by
    intro past r later hsplit hvalid
    rcases past with _ | ⟨a, _ | ⟨b, _ | ⟨c, _ | ⟨d, past⟩⟩⟩⟩ <;>
      simp [alternating] at hsplit
    · obtain ⟨rfl, -⟩ := hsplit
      exact ⟨rfl, rfl⟩
    · obtain ⟨-, rfl, -⟩ := hsplit
      exact Bool.noConfusion hvalid
    · obtain ⟨rfl, rfl, rfl, -⟩ := hsplit
      exact ⟨rfl, rfl⟩
    · obtain ⟨rfl, rfl, rfl, rfl, -⟩ := hsplit
      exact ⟨rfl, rfl⟩
  exact ⟨hrs, (gshare_misses_le coldPredictor hrs).right⟩

end Block
end RvCores
