import RvCores.Cache.Coherence

/-!
# Progress of the data cache

Every cycle brings the transaction under way closer to its end, unless the bus is
asked and does not acknowledge.  A measure counts the words that are still to be
moved.
-/

namespace RvCores
namespace Cache

open Isa Lib

namespace DCache

variable {cfg : DCacheConfig} {c : DCache} {i : DCacheIn}
  {mem flat : LineMem cfg.toGeometry} {pend : Option CpuPort}
  {waiting : List (Nat × Word)}

/--
The words that remain for the transaction under way.  A miss writes back at most
two lines and reads one; a flush visits every line that is left.
-/
def work (cfg : DCacheConfig) (c : DCache) : Nat :=
  match c.state with
  | .idle => 3 * cfg.lineWords + 1
  | .hitRd => 0
  | .wb =>
      if c.flushActive then
        (cfg.numLines - 1 - c.flushScan) * (cfg.lineWords + 2) + (cfg.lineWords - c.fillWord) + 1
      else if c.vwbActive then cfg.lineWords - c.fillWord + cfg.lineWords
      else cfg.lineWords - c.fillWord + 2 * cfg.lineWords
  | .fill => cfg.lineWords - c.fillWord
  | .flushScan => (cfg.numLines - c.flushScan) * (cfg.lineWords + 2)

theorem work_evict (hstate : c.state = .wb) (hflush : c.flushActive = false)
    (hactive : c.vwbActive = false) :
    c.work cfg = cfg.lineWords - c.fillWord + 2 * cfg.lineWords := by
  simp [work, hstate, hflush, hactive]

theorem work_drain (hstate : c.state = .wb) (hflush : c.flushActive = false)
    (hactive : c.vwbActive = true) :
    c.work cfg = cfg.lineWords - c.fillWord + cfg.lineWords := by
  simp [work, hstate, hflush, hactive]

theorem work_fill (hstate : c.state = .fill) :
    c.work cfg = cfg.lineWords - c.fillWord := by
  simp [work, hstate]

/--
One cycle is a step forward, or the bus keeps the cache waiting.
-/
def Advances (cfg : DCacheConfig) (c : DCache) (i : DCacheIn) : Prop :=
  (c.step cfg i).work cfg < c.work cfg ∨
    (c.mCyc = true ∧ i.mAck = false ∧ (c.step cfg i).work cfg = c.work cfg)

theorem mCyc_wb (hstate : c.state = .wb) : c.mCyc = true := by
  unfold mCyc
  rw [hstate]
  rfl

theorem mCyc_fill (hstate : c.state = .fill) : c.mCyc = true := by
  unfold mCyc
  rw [hstate]
  rfl

theorem advances_evict (hevict : c.Evict cfg mem flat) : c.Advances cfg i := by
  have hstate : (c.common cfg i).state = .wb := hevict.state
  have hflush : (c.common cfg i).flushActive = false := hevict.noFlush
  have hactive : (c.common cfg i).vwbActive = false := hevict.noActive
  have hword := hevict.word
  unfold Advances
  rw [step_wb hevict.state, work_evict hevict.state hevict.noFlush hevict.noActive]
  cases hack : i.mAck with
  | false =>
      rw [wbStep_hold hack, work_evict hstate hflush hactive]
      exact Or.inr ⟨mCyc_wb hevict.state, rfl, rfl⟩
  | true =>
      apply Or.inl
      cases hlast : c.fillIsLastWord cfg with
      | false =>
          rw [wbStep_word hack hlast]
          refine lt_of_eq_of_lt (work_evict hstate hflush hactive) ?_
          show cfg.lineWords - (c.fillWord + 1) + _ < _
          omega
      | true =>
          cases hpending : c.vwbPending with
          | true =>
              rw [wbStep_chain hack hlast hevict.noActive hevict.noReturn hpending]
              refine lt_of_eq_of_lt (work_drain hstate hflush rfl) ?_
              show cfg.lineWords - 0 + _ < _
              omega
          | false =>
              rw [wbStep_evicted hack hlast hevict.noActive hevict.noReturn hpending,
                work_fill rfl]
              show cfg.lineWords - 0 < _
              omega

theorem advances_drain (hdrain : c.Drain cfg mem flat) : c.Advances cfg i := by
  have hstate : (c.common cfg i).state = .wb := hdrain.state
  have hflush : (c.common cfg i).flushActive = false := hdrain.noFlush
  have hactive : (c.common cfg i).vwbActive = true := hdrain.active
  have hword := hdrain.word
  unfold Advances
  rw [step_wb hdrain.state, work_drain hdrain.state hdrain.noFlush hdrain.active]
  cases hack : i.mAck with
  | false =>
      rw [wbStep_hold hack, work_drain hstate hflush hactive]
      exact Or.inr ⟨mCyc_wb hdrain.state, rfl, rfl⟩
  | true =>
      apply Or.inl
      cases hlast : c.fillIsLastWord cfg with
      | false =>
          rw [wbStep_word hack hlast]
          refine lt_of_eq_of_lt (work_drain hstate hflush hactive) ?_
          show cfg.lineWords - (c.fillWord + 1) + _ < _
          omega
      | true =>
          rw [wbStep_drained hack hlast hdrain.active, work_fill rfl]
          show cfg.lineWords - 0 < _
          omega

theorem advances_fill (hfill : c.Fill cfg flat) (hnow : c.mshrCompleteNow cfg i = false) :
    c.Advances cfg i := by
  have hstate : (c.common cfg i).state = .fill := hfill.state
  have hword := hfill.word
  unfold Advances
  rw [step_fill hfill.state, work_fill hfill.state]
  cases hack : i.mAck with
  | false =>
      rw [fillStep_hold hack, work_fill hstate]
      exact Or.inr ⟨mCyc_fill hfill.state, rfl, rfl⟩
  | true =>
      have hlast : c.fillIsLastWord cfg = false := by
        cases hlast : c.fillIsLastWord cfg with
        | false => rfl
        | true =>
            rw [completeNow_last hfill.state hack hlast] at hnow
            cases hnow
      apply Or.inl
      rw [fillStep_word hack hlast]
      refine lt_of_eq_of_lt (work_fill hstate) ?_
      show cfg.lineWords - (c.fillWord + 1) < _
      omega

/--
While a miss is queued, the head of the queue completes or gets closer to it.
-/
theorem miss_advances (h : c.Inv cfg mem flat pend waiting) (hbusy : 0 < c.mshrCount)
    (hnow : c.mshrCompleteNow cfg i = false) :
    c.Advances cfg i := by
  have hempty : c.mshrCount ≠ 0 := Nat.ne_of_gt hbusy
  cases h.phase with
  | idle _ hquiet => exact absurd hquiet.empty hempty
  | hitRd hrd => exact absurd hrd.empty hempty
  | evict hevict => exact advances_evict hevict
  | drain hdrain => exact advances_drain hdrain
  | fill hfill => exact advances_fill hfill hnow
  | scan hscan => exact absurd hscan.empty hempty
  | flushWb hwb => exact absurd hwb.empty hempty

/-!
# Requests

With one miss register a request is answered at the latest when its own miss
completes.
-/

theorem advances_idle (hlegal : c.Legal pend i) (hbacked : c.Backed cfg mem i)
    (hstate : c.state = .idle)
    (hactive : i.cpu.active = true) (hready : c.respReady cfg i = false) :
    c.Advances cfg i := by
  have hwork : c.work cfg = 3 * cfg.lineWords + 1 := by simp [work, hstate]
  apply Or.inl
  rw [hwork]
  cases hhit : c.hit cfg i with
  | true =>
      -- a store that hits is answered at once, a load goes to the read state
      have hwrite : i.cpu.write = false := by
        rw [respReady_idle hstate, hhit] at hready
        simp at hready
        exact hready.left
      have hrd : (c.step cfg i).state = .hitRd := by
        rw [step_idle hstate]
        unfold idleStep
        rw [hactive, hwrite, (hlegal.noFlush hactive).left]
        unfold hit at hhit
        cases hmain : c.hitMain cfg i with
        | true => rfl
        | false =>
            rw [hmain, Bool.false_or] at hhit
            rw [hhit]
            rfl
      simp [work, hrd]
  | false =>
      unfold hit at hhit
      obtain ⟨hmain, hvc⟩ := Bool.or_eq_false_iff.mp hhit
      have hmiss := step_startsMiss hlegal hbacked hstate hactive hmain hvc
      have hflush : c.flushActive = false := (hlegal.noFlush hactive).right
      have hflush' := hmiss.flush.trans hflush
      rcases hmiss.branch with ⟨_, hwb, hvwb, _⟩ | ⟨_, _, hwb, hvwb, _⟩ | ⟨_, _, hfill, _⟩
      · rw [work_evict hwb hflush' hvwb, hmiss.word]
        omega
      · rw [work_drain hwb hflush' hvwb, hmiss.word]
        omega
      · rw [work_fill hfill, hmiss.word]
        omega

theorem fill_answers_single (h : c.Inv cfg mem flat pend waiting) (hlegal : c.Legal pend i)
    (hone : cfg.mshrEntries = 1) (hbusy : 0 < c.mshrCount)
    (hnow : c.mshrCompleteNow cfg i = true) :
    c.respReady cfg i = true := by
  have hblocking := blocking_of_single h hone hbusy
  obtain ⟨hserves, hactive, _⟩ := blocking_holds h hlegal (head_mem hbusy) hblocking
  unfold respReady fillAnswers
  rw [hnow, hblocking, hactive, hserves.left]
  simp

theorem request_advances (h : c.Inv cfg mem flat pend waiting) (hlegal : c.Legal pend i)
    (hbacked : c.Backed cfg mem i) (hone : cfg.mshrEntries = 1)
    (hactive : i.cpu.active = true) (hready : c.respReady cfg i = false) :
    c.Advances cfg i := by
  have hflush : c.flushActive = false := (hlegal.noFlush hactive).right
  have hmiss : 0 < c.mshrCount -> c.Advances cfg i := by
    intro hbusy
    apply miss_advances h hbusy
    cases hnow : c.mshrCompleteNow cfg i with
    | false => rfl
    | true =>
        rw [fill_answers_single h hlegal hone hbusy hnow] at hready
        cases hready
  cases h.phase with
  | idle hstate _ => exact advances_idle hlegal hbacked hstate hactive hready
  | hitRd hrd =>
      -- the load that was found is still on the port and is answered
      obtain ⟨p, hp⟩ := Option.ne_none_iff_exists'.mp ((h.ported.single hone).right hrd.state)
      obtain ⟨hread, haddr, _⟩ := hrd.pending p hp
      rw [respReady_hitRd hrd.state hrd.noHu] at hready
      unfold hitAnswers at hready
      rw [hrd.state, hlegal.held p hp, hread, haddr] at hready
      simp at hready
  | evict hevict => exact hmiss hevict.busy
  | drain hdrain => exact hmiss hdrain.busy
  | fill hfill => exact hmiss hfill.busy
  | scan hscan =>
      rw [hscan.flush] at hflush
      cases hflush
  | flushWb hwb =>
      rw [hwb.flush] at hflush
      cases hflush

/-!
# Flushes
-/

end DCache
end Cache
end RvCores
