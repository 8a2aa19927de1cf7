import RvCores.Cache.Inclusion

/-!
# Progress of the second-level cache

A read that waits is brought closer to its answer by every cycle in which the memory
below does not keep it waiting, and so is a flush.
-/

namespace RvCores
namespace Cache

open Isa Lib

namespace L2Cache

variable {g : Geometry} {c : L2Cache} {i : L2In} {mem upper : LineMem g}

/--
The words that remain for the transaction under way.
-/
def work (g : Geometry) (c : L2Cache) : Nat :=
  match c.state with
  | .idle => 2 * g.lineWords + 2
  | .hitRd => 0
  | .probeWait => 2 * g.lineWords + 1
  | .wb =>
      if c.flushActive then
        (g.numLines - 1 - c.flushScan) * (g.lineWords + 2) + (g.lineWords - c.fillWord) + 1
      else g.lineWords - c.fillWord + g.lineWords
  | .fill => g.lineWords - c.fillWord
  | .flushScan => (g.numLines - c.flushScan) * (g.lineWords + 2)

def Advances (g : Geometry) (c : L2Cache) (i : L2In) : Prop :=
  (c.step g i).work g < c.work g ∨
    (c.mCyc = true ∧ i.mAck = false ∧ (c.step g i).work g = c.work g)

theorem mCyc_wb (hstate : c.state = .wb) : c.mCyc = true := by
  unfold mCyc
  rw [hstate]
  rfl

theorem mCyc_fill (hstate : c.state = .fill) : c.mCyc = true := by
  unfold mCyc
  rw [hstate]
  rfl

theorem work_evict (hstate : c.state = .wb) (hflush : c.flushActive = false) :
    c.work g = g.lineWords - c.fillWord + g.lineWords := by
  simp [work, hstate, hflush]

theorem work_fill (hstate : c.state = .fill) : c.work g = g.lineWords - c.fillWord := by
  simp [work, hstate]

theorem work_lt (h : c.Inv g mem upper) (hflush : c.flushActive = false) :
    c.work g < 2 * g.lineWords + 3 := by
  cases h.phase with
  | idle hstate _ => simp [work, hstate]
  | hitRd hrd => simp [work, hrd.state]
  | probe hstate _ _ => simp [work, hstate]
  | evict hevict =>
      rw [work_evict hevict.state hflush]
      omega
  | fill hfill =>
      rw [work_fill hfill.state]
      omega
  | scan _ hactive _ _ =>
      rw [hflush] at hactive
      cases hactive
  | flushWb hwb =>
      rw [hwb.flush] at hflush
      cases hflush

/-!
# Reads
-/

theorem advances_idle (hflush : i.flushAll = false) (hstate : c.state = .idle)
    (hcyc : i.uCyc = true) (hwe : i.uWe = false) :
    c.Advances g i := by
  have hwork : c.work g = 2 * g.lineWords + 2 := by simp [work, hstate]
  apply Or.inl
  rw [hwork, step_idle hstate]
  unfold idleStep
  rw [hflush, hcyc, hwe, Bool.false_and, if_neg Bool.false_ne_true, if_pos rfl]
  split
  · exact Nat.succ_pos _
  · unfold startMiss
    split
    · exact Nat.lt_succ_self _
    · refine lt_of_eq_of_lt (work_fill rfl) ?_
      show g.lineWords - 0 < _
      omega

theorem advances_probe (hack : i.probeAck = true) (hstate : c.state = .probeWait)
    (hflush : c.flushActive = false) :
    c.Advances g i := by
  have hwork : c.work g = 2 * g.lineWords + 1 := by simp [work, hstate]
  apply Or.inl
  rw [hwork, step_probe hstate]
  unfold probeStep
  rw [hack, if_pos rfl]
  cases hdirty : c.array.dirty c.wbLine || i.probeDirty with
  | true =>
      refine lt_of_eq_of_lt (work_evict rfl hflush) ?_
      show g.lineWords - 0 + g.lineWords < _
      omega
  | false =>
      refine lt_of_eq_of_lt (work_fill rfl) ?_
      show g.lineWords - 0 < _
      omega

theorem advances_evict (hevict : c.Evict g mem upper) : c.Advances g i := by
  have hword := hevict.word
  have hstate : (c.common g i).state = .wb := hevict.state
  have hflush : (c.common g i).flushActive = false := hevict.noFlush
  unfold Advances
  rw [step_wb hevict.state, work_evict hevict.state hevict.noFlush]
  unfold wbStep
  rw [hevict.noReturn]
  cases hack : i.mAck with
  | false =>
      rw [if_neg Bool.false_ne_true, work_evict hstate hflush]
      exact Or.inr ⟨mCyc_wb hevict.state, rfl, rfl⟩
  | true =>
      apply Or.inl
      rw [if_pos rfl]
      split
      · refine lt_of_eq_of_lt (work_fill rfl) ?_
        show g.lineWords - 0 < _
        omega
      · refine lt_of_eq_of_lt (work_evict hstate hflush) ?_
        show g.lineWords - (c.fillWord + 1) + g.lineWords < _
        omega

theorem advances_fill (hfill : c.Fill g upper) (hlast : i.mAck = true ->
    c.fillIsLastWord g = false) :
    c.Advances g i := by
  have hword := hfill.word
  have hstate : (c.common g i).state = .fill := hfill.state
  unfold Advances
  rw [step_fill hfill.state, work_fill hfill.state]
  unfold fillStep
  cases hack : i.mAck with
  | false =>
      rw [if_neg Bool.false_ne_true, work_fill hstate]
      exact Or.inr ⟨mCyc_fill hfill.state, rfl, rfl⟩
  | true =>
      apply Or.inl
      rw [if_pos rfl, hlast hack, if_neg Bool.false_ne_true]
      refine lt_of_eq_of_lt (work_fill hstate) ?_
      show g.lineWords - (c.fillWord + 1) < _
      omega

/--
A read that is not answered gets closer to its answer.
-/
theorem read_advances (h : c.Inv g mem upper) (hserved : c.Served g mem i)
    (hcyc : i.uCyc = true) (hwe : i.uWe = false) (hack : c.uAck g i = false) :
    c.Advances g i := by
  rw [uAck_of_read hwe] at hack
  obtain ⟨hnoHit, hnoFill⟩ := Bool.or_eq_false_iff.mp hack
  have hquiet : c.flushActive = true -> False := by
    intro hflush
    have hno := hserved.quiet (Or.inr hflush)
    rw [hcyc] at hno
    cases hno
  cases h.phase with
  | idle hstate _ => exact advances_idle (hserved.no_flush hcyc) hstate hcyc hwe
  | hitRd hrd =>
      unfold hitAnswers at hnoHit
      rw [hrd.state, hserved.delivered hrd.state] at hnoHit
      simp at hnoHit
  | probe hstate hflush _ =>
      have hprobed : i.probeAck = true := by
        rw [hserved.probed]
        unfold probeReq
        rw [hstate]
        rfl
      exact advances_probe hprobed hstate hflush
  | evict hevict => exact advances_evict hevict
  | fill hfill =>
      have hheld := hserved.held (Or.inr (Or.inr hfill.state))
      apply advances_fill hfill
      intro hmAck
      unfold fillAnswers at hnoFill
      rw [hfill.state, hmAck, hheld.right.right] at hnoFill
      simpa using hnoFill
  | scan _ hflush _ _ => exact (hquiet hflush).elim
  | flushWb hwb => exact (hquiet hwb.flush).elim

/-!
# Flushes
-/

end L2Cache
end Cache
end RvCores
