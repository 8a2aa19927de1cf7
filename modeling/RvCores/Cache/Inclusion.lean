import RvCores.Cache.L2Transfer
import RvCores.Cache.Probe
import RvCores.Cache.Progress

/-!
# Which lines the two levels hold

The second level keeps a line until it replaces it.  The first level gains a line only
when its own fill completes.
-/

namespace RvCores
namespace Cache

open Isa Lib

namespace L2Cache

variable {g : Geometry} {c c' : L2Cache} {i : L2In} {mem upper : LineMem g}

/-!
# The second level
-/

/--
The way that a miss is about to overwrite.
-/
def replacing (g : Geometry) (c : L2Cache) : Option Nat :=
  if c.state = .fill ∨ (c.state = .wb ∧ c.flushActive = false) then some (c.fillLine g)
  else none

/--
A line is held in a way that is not being replaced.
-/
def Keeps (g : Geometry) (c : L2Cache) (a : Nat) : Prop :=
  exists k, c.array.valid k = true ∧ c.array.lineAddr g k = a ∧ c.replacing g ≠ some k

/--
A miss is under way.
-/
def Busy (c : L2Cache) : Prop :=
  c.state = .probeWait ∨ (c.state = .wb ∧ c.flushActive = false) ∨ c.state = .fill

theorem Busy.not_hitRd (h : c.Busy) : c.state ≠ .hitRd := by
  intro hrd
  rcases h with h | ⟨h, _⟩ | h
  · exact absurd (hrd.symm.trans h) L2State.noConfusion
  · exact absurd (hrd.symm.trans h) L2State.noConfusion
  · exact absurd (hrd.symm.trans h) L2State.noConfusion

theorem replacing_none (hfill : c.state ≠ .fill)
    (hwb : c.state = .wb -> c.flushActive = true) :
    c.replacing g = none := by
  unfold replacing
  rw [if_neg]
  rintro (h | ⟨h, hflush⟩)
  · exact hfill h
  · rw [hwb h] at hflush
    cases hflush

theorem not_replacing_idle (h : c.state = .idle) (k : Nat) : c.replacing g ≠ some k := by
  rw [replacing_none (by simp [h]) (by simp [h])]
  nofun

theorem replacing_eq_some {k : Nat} (h : c.replacing g = some k) : k = c.fillLine g := by
  unfold replacing at h
  split at h
  · exact (Option.some.inj h).symm
  · cases h

theorem hit_of_keeps (h : c.array.WellFormed g) (hkeeps : c.Keeps g (g.lineAddr i.uAddr)) :
    c.hit g i = true := by
  obtain ⟨k, hvalid, haddr, _⟩ := hkeeps
  exact LineArray.hitMain_of_valid h hvalid haddr

/--
A cycle that moves no line keeps what it does not begin to replace.
-/
theorem Keeps.of_same {a : Nat} (h : c.Keeps g a) (hvalid : c'.array.valid = c.array.valid)
    (htag : c'.array.tag = c.array.tag)
    (hnew : forall k, c'.replacing g = some k -> c.array.valid k = true ->
      c.array.lineAddr g k = a -> c.replacing g = some k) :
    c'.Keeps g a := by
  obtain ⟨k, hk, haddr, hkept⟩ := h
  refine ⟨k, ?_, ?_, ?_⟩
  · rw [hvalid]
    exact hk
  · rw [LineArray.lineAddr_of_tag htag]
    exact haddr
  · intro hreplaced
    exact hkept (hnew k hreplaced hk haddr)

theorem Keeps.of_none {a : Nat} (h : c.Keeps g a) (hvalid : c'.array.valid = c.array.valid)
    (htag : c'.array.tag = c.array.tag) (hnone : c'.replacing g = none) :
    c'.Keeps g a := by
  apply h.of_same hvalid htag
  intro k hk
  rw [hnone] at hk
  cases hk

section

variable {a : Nat}

theorem keeps_idle (h : c.Keeps g a) (hstate : c.state = .idle) :
    (c.step g i).Keeps g a := by
  rw [step_idle hstate]
  unfold idleStep
  split
  · exact h.of_none rfl rfl (replacing_none nofun nofun)
  · have hstill : (c.common g i).replacing g = none := by
      apply replacing_none
      · show c.state ≠ .fill
        simp [hstate]
      · intro hwb
        exact absurd (hstate.symm.trans hwb) L2State.noConfusion
    split
    · split
      · split
        · exact h.of_none rfl rfl hstill
        · exact h.of_none rfl rfl (replacing_none nofun nofun)
      · unfold startMiss
        split
        · exact h.of_none rfl rfl (replacing_none nofun nofun)
        · next hvictim =>
            refine h.of_same rfl rfl ?_
            intro k hk hvalid
            have hfill : some (c.victimLine g i) = some k := hk
            rw [Option.some.inj hfill] at hvictim
            exact absurd hvalid hvictim
    · exact h.of_none rfl rfl hstill

theorem keeps_probe (h : c.Keeps g a) (hstate : c.state = .probeWait) (hreplaced : c.Replaced g)
    (hne : a ≠ c.array.lineAddr g c.wbLine) :
    (c.step g i).Keeps g a := by
  rw [step_probe hstate]
  unfold probeStep
  split
  · refine h.of_same rfl rfl ?_
    intro k hk hvalid haddr
    have hline := replacing_eq_some hk
    have hsame : k = c.fillLine g := hline
    rw [hsame, ← hreplaced.line] at haddr
    exact absurd haddr.symm hne
  · apply h.of_none rfl rfl
    apply replacing_none
    · show c.state ≠ .fill
      simp [hstate]
    · intro hwb
      exact absurd (hstate.symm.trans hwb) L2State.noConfusion

theorem keeps_flushAdvance {next : L2Cache} (h : c.Keeps g a)
    (hvalid : next.array.valid = c.array.valid) (htag : next.array.tag = c.array.tag) :
    (c.flushAdvance g next).Keeps g a := by
  unfold flushAdvance
  split
  · exact h.of_none hvalid htag (replacing_none nofun nofun)
  · exact h.of_none hvalid htag (replacing_none nofun nofun)

theorem keeps_wb (h : c.Keeps g a) (hstate : c.state = .wb)
    (hreturn : c.wbReturnToFlush = c.flushActive) :
    (c.step g i).Keeps g a := by
  have hstill : forall k, (c.common g i).replacing g = some k -> c.array.valid k = true ->
      c.array.lineAddr g k = a -> c.replacing g = some k :=
    fun _ hk _ _ => hk
  rw [step_wb hstate]
  unfold wbStep
  split
  · split
    · cases hflush : c.flushActive with
      | true =>
          rw [hflush] at hreturn
          rw [hreturn]
          exact keeps_flushAdvance h rfl rfl
      | false =>
          rw [hflush] at hreturn
          rw [hreturn]
          refine h.of_same rfl rfl ?_
          intro k hk _ _
          unfold replacing at hk ⊢
          rw [if_pos (Or.inr ⟨hstate, hflush⟩)]
          exact hk
    · exact h.of_same rfl rfl hstill
  · exact h.of_same rfl rfl hstill

theorem keeps_scan (h : c.Keeps g a) (hstate : c.state = .flushScan)
    (hflush : c.flushActive = true) :
    (c.step g i).Keeps g a := by
  rw [step_scan hstate]
  unfold flushScanStep
  split
  · exact h.of_none rfl rfl (replacing_none nofun (fun _ => hflush))
  · exact keeps_flushAdvance h rfl rfl

theorem keeps_fill (h : c.Keeps g a) (hstate : c.state = .fill) :
    (c.step g i).Keeps g a := by
  have hstill : forall k, (c.common g i).replacing g = some k -> c.array.valid k = true ->
      c.array.lineAddr g k = a -> c.replacing g = some k :=
    fun _ hk _ _ => hk
  rw [step_fill hstate]
  unfold fillStep
  split
  · split
    · obtain ⟨k, hvalid, haddr, hkept⟩ := h
      have hne : k ≠ c.fillLine g := by
        intro hk
        apply hkept
        unfold replacing
        rw [if_pos (Or.inl hstate), hk]
      refine ⟨k, ?_, ?_, ?_⟩
      · exact (setAt_of_ne hne).trans hvalid
      · refine Eq.trans ?_ haddr
        unfold LineArray.lineAddr
        exact congrArg (fun t => g.joinTag t (g.setOf k)) (setAt_of_ne hne)
      · intro hreplaced
        have hline := replacing_eq_some hreplaced
        exact hne hline
    · exact h.of_same rfl rfl hstill
  · exact h.of_same rfl rfl hstill

/--
A cycle keeps every line but the one that a probe gives up.
-/
theorem Keeps.step (hkeeps : c.Keeps g a) (h : c.Inv g mem upper)
    (hprobe : c.state = .probeWait -> a ≠ c.array.lineAddr g c.wbLine) :
    (c.step g i).Keeps g a := by
  cases h.phase with
  | idle hstate _ => exact keeps_idle hkeeps hstate
  | hitRd hrd =>
      rw [step_hitRd hrd.state]
      exact hkeeps.of_none rfl rfl (replacing_none nofun nofun)
  | probe hstate _ hreplaced => exact keeps_probe hkeeps hstate hreplaced (hprobe hstate)
  | evict hevict =>
      exact keeps_wb hkeeps hevict.state (hevict.noReturn.trans hevict.noFlush.symm)
  | fill hfill => exact keeps_fill hkeeps hfill.state
  | scan hstate hflush _ _ => exact keeps_scan hkeeps hstate hflush
  | flushWb hwb => exact keeps_wb hkeeps hwb.state (hwb.returns.trans hwb.flush.symm)

end

/-!
# Reads
-/

theorem uAck_of_read (hwe : i.uWe = false) :
    c.uAck g i = (c.hitAnswers i || c.fillAnswers g i) := by
  unfold uAck
  rw [hwe, Bool.and_false, Bool.false_and, Bool.false_or]

theorem hitAnswers_state (h : c.hitAnswers i = true) :
    c.state = .hitRd ∧ i.uAddr = c.servedAddr := by
  unfold hitAnswers at h
  simpa using h

theorem fillAnswers_state (h : c.fillAnswers g i = true) :
    c.state = .fill ∧ i.mAck = true ∧ c.fillIsLastWord g = true ∧
      i.uAddr = c.miss.origAddr := by
  unfold fillAnswers at h
  simpa [and_assoc] using h

theorem HitRd.of_state (h : c.Inv g mem upper) (hstate : c.state = .hitRd) : c.HitRd g := by
  cases h.phase with
  | hitRd hrd => exact hrd
  | idle hother _ => exact absurd (hstate.symm.trans hother) L2State.noConfusion
  | probe hother _ _ => exact absurd (hstate.symm.trans hother) L2State.noConfusion
  | evict hevict => exact absurd (hstate.symm.trans hevict.state) L2State.noConfusion
  | fill hfill => exact absurd (hstate.symm.trans hfill.state) L2State.noConfusion
  | scan hother _ _ _ => exact absurd (hstate.symm.trans hother) L2State.noConfusion
  | flushWb hwb => exact absurd (hstate.symm.trans hwb.state) L2State.noConfusion

theorem Replaced.of_state (h : c.Inv g mem upper) (hstate : c.state = .probeWait) :
    c.Replaced g := by
  cases h.phase with
  | probe _ _ hreplaced => exact hreplaced
  | idle hother _ => exact absurd (hstate.symm.trans hother) L2State.noConfusion
  | hitRd hrd => exact absurd (hstate.symm.trans hrd.state) L2State.noConfusion
  | evict hevict => exact absurd (hstate.symm.trans hevict.state) L2State.noConfusion
  | fill hfill => exact absurd (hstate.symm.trans hfill.state) L2State.noConfusion
  | scan hother _ _ _ => exact absurd (hstate.symm.trans hother) L2State.noConfusion
  | flushWb hwb => exact absurd (hstate.symm.trans hwb.state) L2State.noConfusion

theorem Evict.of_state (h : c.Inv g mem upper) (hstate : c.state = .wb)
    (hflush : c.flushActive = false) :
    c.Evict g mem upper := by
  cases h.phase with
  | evict hevict => exact hevict
  | idle hother _ => exact absurd (hstate.symm.trans hother) L2State.noConfusion
  | hitRd hrd => exact absurd (hstate.symm.trans hrd.state) L2State.noConfusion
  | probe hother _ _ => exact absurd (hstate.symm.trans hother) L2State.noConfusion
  | fill hfill => exact absurd (hstate.symm.trans hfill.state) L2State.noConfusion
  | scan hother _ _ _ => exact absurd (hstate.symm.trans hother) L2State.noConfusion
  | flushWb hwb =>
      rw [hwb.flush] at hflush
      cases hflush

theorem Fill.of_state (h : c.Inv g mem upper) (hstate : c.state = .fill) :
    c.Fill g upper := by
  cases h.phase with
  | fill hfill => exact hfill
  | idle hother _ => exact absurd (hstate.symm.trans hother) L2State.noConfusion
  | hitRd hrd => exact absurd (hstate.symm.trans hrd.state) L2State.noConfusion
  | probe hother _ _ => exact absurd (hstate.symm.trans hother) L2State.noConfusion
  | evict hevict => exact absurd (hstate.symm.trans hevict.state) L2State.noConfusion
  | scan hother _ _ _ => exact absurd (hstate.symm.trans hother) L2State.noConfusion
  | flushWb hwb => exact absurd (hstate.symm.trans hwb.state) L2State.noConfusion

theorem step_fill_last (hstate : c.state = .fill) (hack : i.mAck = true)
    (hlast : c.fillIsLastWord g = true) :
    c.step g i = { c.common g i with array := filledArray g c i, state := .idle } := by
  have harray : (c.common g i).array = c.array :=
    common_array (by simp [hstate]) (by simp [hstate])
  rw [step_fill hstate]
  unfold fillStep
  rw [if_pos hack, if_pos hlast, harray]
  rfl

/--
A read that is answered leaves its line in the cache, and the cache idle.
-/
theorem answered_keeps (h : c.Inv g mem upper) (hwe : i.uWe = false)
    (hack : c.uAck g i = true) :
    (c.step g i).state = .idle ∧ (c.step g i).flushActive = false ∧
      (c.step g i).Keeps g (g.lineAddr i.uAddr) := by
  rw [uAck_of_read hwe] at hack
  rcases Bool.or_eq_true_iff.mp hack with hhit | hfill
  · obtain ⟨hstate, haddr⟩ := hitAnswers_state hhit
    have hrd := HitRd.of_state h hstate
    rw [step_hitRd hstate]
    refine ⟨rfl, hrd.noFlush, c.hitLine, hrd.valid, ?_, not_replacing_idle rfl _⟩
    rw [haddr]
    exact hrd.addr
  · obtain ⟨hstate, hmAck, hlast, haddr⟩ := fillAnswers_state hfill
    have hfill := Fill.of_state h hstate
    rw [step_fill_last hstate hmAck hlast]
    refine ⟨rfl, hfill.noFlush, c.fillLine g, setAt_self _ _ _, ?_, not_replacing_idle rfl _⟩
    rw [haddr]
    exact filledArray_addr hfill.toMissing

/--
A read that waits is in the read state or in a miss of its own afterwards.
-/
theorem waiting_read (h : c.Inv g mem upper) (hserved : c.Served g mem i)
    (hcyc : i.uCyc = true) (hwe : i.uWe = false) (hack : c.uAck g i = false) :
    ((c.step g i).state = .hitRd ∧ (c.step g i).servedAddr = i.uAddr ∧
      (c.step g i).flushActive = false) ∨
    ((c.step g i).Busy ∧ (c.step g i).miss.origAddr = i.uAddr ∧
      (c.step g i).flushActive = false ∧ (c.Busy ∨ c.hit g i = false)) := by
  have hall := hserved.no_flush hcyc
  rw [uAck_of_read hwe] at hack
  obtain ⟨hnoHit, hnoFill⟩ := Bool.or_eq_false_iff.mp hack
  have hflush : c.flushActive = false := by
    cases hflush : c.flushActive with
    | false => rfl
    | true =>
        have hquiet := hserved.quiet (Or.inr hflush)
        rw [hcyc] at hquiet
        cases hquiet
  cases h.phase with
  | idle hstate _ =>
      rw [step_idle hstate]
      unfold idleStep
      rw [hall, Bool.false_and, if_neg Bool.false_ne_true, hcyc, if_pos rfl]
      cases hhit : c.hit g i with
      | true =>
          rw [if_pos rfl, hwe, if_neg Bool.false_ne_true]
          exact Or.inl ⟨rfl, rfl, hflush⟩
      | false =>
          rw [if_neg Bool.false_ne_true]
          unfold startMiss
          split
          · exact Or.inr ⟨Or.inl rfl, rfl, hflush, Or.inr rfl⟩
          · exact Or.inr ⟨Or.inr (Or.inr rfl), rfl, hflush, Or.inr rfl⟩
  | hitRd hrd =>
      unfold hitAnswers at hnoHit
      rw [hrd.state, hserved.delivered hrd.state] at hnoHit
      simp at hnoHit
  | probe hstate _ _ =>
      have hheld := hserved.held (Or.inl hstate)
      rw [step_probe hstate]
      unfold probeStep
      split
      · refine Or.inr ⟨?_, hheld.right.right.symm, hflush, Or.inl (Or.inl hstate)⟩
        cases hdirty : c.array.dirty c.wbLine || i.probeDirty with
        | true => exact Or.inr (Or.inl ⟨rfl, hflush⟩)
        | false => exact Or.inr (Or.inr rfl)
      · exact Or.inr ⟨Or.inl hstate, hheld.right.right.symm, hflush, Or.inl (Or.inl hstate)⟩
  | evict hevict =>
      have hbusy : c.Busy := Or.inr (Or.inl ⟨hevict.state, hflush⟩)
      have hheld := hserved.held hbusy
      rw [step_wb hevict.state]
      unfold wbStep
      rw [hevict.noReturn]
      split
      · split
        · exact Or.inr ⟨Or.inr (Or.inr rfl), hheld.right.right.symm, hflush, Or.inl hbusy⟩
        · exact Or.inr ⟨hbusy, hheld.right.right.symm, hflush, Or.inl hbusy⟩
      · exact Or.inr ⟨hbusy, hheld.right.right.symm, hflush, Or.inl hbusy⟩
  | fill hfill =>
      have hbusy : c.Busy := Or.inr (Or.inr hfill.state)
      have hheld := hserved.held hbusy
      rw [step_fill hfill.state]
      unfold fillStep
      cases hmAck : i.mAck with
      | false =>
          rw [if_neg Bool.false_ne_true]
          exact Or.inr ⟨hbusy, hheld.right.right.symm, hflush, Or.inl hbusy⟩
      | true =>
          have hlast : c.fillIsLastWord g = false := by
            unfold fillAnswers at hnoFill
            rw [hfill.state, hmAck, hheld.right.right] at hnoFill
            simpa using hnoFill
          rw [if_pos rfl, hlast, if_neg Bool.false_ne_true]
          exact Or.inr ⟨hbusy, hheld.right.right.symm, hflush, Or.inl hbusy⟩
  | scan _ hactive _ _ =>
      rw [hflush] at hactive
      cases hactive
  | flushWb hwb =>
      rw [hwb.flush] at hflush
      cases hflush

/--
The cache serves no read: it is idle or flushes.
-/
def Unread (c : L2Cache) : Prop := ¬ c.Busy ∧ c.state ≠ .hitRd

theorem unread_idle (h : c.state = .idle) : c.Unread := by
  unfold Unread Busy
  simp [h]

theorem unread_scan (h : c.state = .flushScan) : c.Unread := by
  unfold Unread Busy
  simp [h]

theorem unread_flushWb (h : c.state = .wb) (hflush : c.flushActive = true) : c.Unread := by
  unfold Unread Busy
  simp [h, hflush]

theorem unread_flushAdvance (next : L2Cache) : (c.flushAdvance g next).Unread := by
  unfold flushAdvance
  split
  · exact unread_idle rfl
  · exact unread_scan rfl

/--
Without a new read the cache goes on serving none.
-/
theorem Unread.step (hunread : c.Unread) (h : c.Inv g mem upper) (hserved : c.Served g mem i)
    (hread : i.uCyc = true -> i.uWe = true) :
    (c.step g i).Unread := by
  cases h.phase with
  | idle hstate hflush =>
      rw [step_idle hstate]
      unfold idleStep
      split
      · exact unread_scan rfl
      · split
        · next hcyc =>
            rw [hserved.writes hcyc (hread hcyc), if_pos rfl, hread hcyc, if_pos rfl]
            exact unread_idle hstate
        · exact unread_idle hstate
  | hitRd hrd => exact absurd hrd.state hunread.right
  | probe hstate _ _ => exact absurd (Or.inl hstate) hunread.left
  | evict hevict =>
      exact absurd (Or.inr (Or.inl ⟨hevict.state, hevict.noFlush⟩)) hunread.left
  | fill hfill => exact absurd (Or.inr (Or.inr hfill.state)) hunread.left
  | scan hstate hflush _ _ =>
      rw [step_scan hstate]
      unfold flushScanStep
      split
      · exact unread_flushWb rfl hflush
      · exact unread_flushAdvance _
  | flushWb hwb =>
      rw [step_wb hwb.state]
      unfold wbStep
      rw [hwb.returns]
      split
      · split
        · exact unread_flushAdvance _
        · exact unread_flushWb hwb.state hwb.flush
      · exact unread_flushWb hwb.state hwb.flush

theorem noFlush_flushAdvance {next : L2Cache} (h : next.flushActive = false) :
    (c.flushAdvance g next).flushActive = false := by
  unfold flushAdvance
  split
  · rfl
  · exact h

/--
A flush begins only when it is asked for.
-/
theorem noFlush_step (hall : i.flushAll = false) (hflush : c.flushActive = false) :
    (c.step g i).flushActive = false := by
  have hcommon : (c.common g i).flushActive = false := hflush
  unfold step
  split
  · unfold idleStep
    rw [hall, Bool.false_and, if_neg Bool.false_ne_true]
    split
    · split
      · split
        · exact hcommon
        · exact hcommon
      · unfold startMiss
        split
        · exact hcommon
        · exact hcommon
    · exact hcommon
  · exact hcommon
  · unfold probeStep
    split
    · exact hcommon
    · exact hcommon
  · unfold wbStep
    split
    · split
      · split
        · exact noFlush_flushAdvance hcommon
        · exact hcommon
      · exact hcommon
    · exact hcommon
  · unfold fillStep
    split
    · split
      · exact hcommon
      · exact hcommon
    · exact hcommon
  · unfold flushScanStep
    split
    · exact hcommon
    · exact noFlush_flushAdvance hcommon

end L2Cache

namespace DCache

variable {cfg : DCacheConfig} {c : DCache} {i : DCacheIn}
  {mem flat : LineMem cfg.toGeometry} {pend : Option CpuPort}

/-!
# The first level
-/

theorem vcLookupHit_of_no_entries (hentries : cfg.victimEntries = 0) :
    c.vcLookupHit cfg i = false := by
  unfold vcLookupHit VictimCache.lookupHit
  rw [hentries]
  rfl

theorem fillStep_last_array {next : DCache} (hack : i.mAck = true)
    (hlast : c.fillIsLastWord cfg = true) (harray : next.array = c.array) :
    (c.fillStep cfg i next).array = filledArray cfg c i := by
  by_cases hempty : c.mshrCountAfterComplete cfg i = 0
  · rw [fillStep_idle hack hlast harray hempty]
  · cases hneed : c.newHeadNeedWb cfg i with
    | true => rw [fillStep_evict hack hlast harray hempty hneed]
    | false => rw [fillStep_fill hack hlast harray hempty hneed]

/--
Outside the completion of a fill no line moves, and none becomes dirty but the line of
a store that hits.
-/
structure SameLines (cfg : DCacheConfig) (c : DCache) (i : DCacheIn) (c' : DCache) : Prop where
  valid : c'.array.valid = c.array.valid
  tag : c'.array.tag = c.array.tag
  dirty : forall line, c'.array.dirty line = true ->
    c.array.dirty line = true ∨ (i.cpu.write = true ∧ c.respReady cfg i = true)

theorem SameLines.of_eq {c' : DCache} (hprobe : i.probeReq = false)
    (harray : c'.array = (c.common cfg i).array) :
    SameLines cfg c i c' where
  valid := by
    rw [harray]
    exact probedValid_eq hprobe
  tag := by
    rw [harray]
    rfl
  dirty := by
    intro line hdirty
    rw [harray] at hdirty
    exact Or.inl hdirty

theorem sameLines_flushAdvance {next : DCache} (h : SameLines cfg c i next) :
    SameLines cfg c i (c.flushAdvance cfg next) := by
  unfold flushAdvance
  split
  · exact ⟨h.valid, h.tag, h.dirty⟩
  · exact ⟨h.valid, h.tag, h.dirty⟩

theorem sameLines_idle (hentries : cfg.victimEntries = 0) (hprobe : i.probeReq = false)
    (hstate : c.state = .idle) :
    SameLines cfg c i (c.step cfg i) := by
  rw [step_idle hstate]
  unfold idleStep
  split
  · exact SameLines.of_eq hprobe rfl
  · split
    · rw [vcLookupHit_of_no_entries hentries]
      cases hmain : c.hitMain cfg i with
      | true =>
          rw [if_pos rfl]
          split
          · next hwrite =>
              refine ⟨probedValid_eq hprobe, rfl, ?_⟩
              intro line hdirty
              refine Or.inr ⟨hwrite, ?_⟩
              unfold respReady hit
              rw [hstate, hmain, hwrite]
              rfl
          · exact SameLines.of_eq hprobe rfl
      | false =>
          rw [if_neg Bool.false_ne_true, if_neg Bool.false_ne_true]
          unfold miss
          split
          · exact SameLines.of_eq hprobe rfl
          · split
            · exact SameLines.of_eq hprobe rfl
            · exact SameLines.of_eq hprobe rfl
    · exact SameLines.of_eq hprobe rfl

theorem sameLines_wb (hprobe : i.probeReq = false) (hstate : c.state = .wb) :
    SameLines cfg c i (c.step cfg i) := by
  have hcleaned : SameLines cfg c i
      { c.common cfg i with
        array :=
          { (c.common cfg i).array with
            dirty := setAt (c.common cfg i).array.dirty c.wbLine false } } := by
    refine ⟨probedValid_eq hprobe, rfl, ?_⟩
    intro line hdirty
    apply Or.inl
    have hset : setAt c.array.dirty c.wbLine false line = true := hdirty
    rw [setAt_apply] at hset
    split at hset
    · cases hset
    · exact hset
  rw [step_wb hstate]
  unfold wbStep
  split
  · split
    · split
      · exact SameLines.of_eq hprobe rfl
      · split
        · exact sameLines_flushAdvance hcleaned
        · split
          · exact ⟨hcleaned.valid, hcleaned.tag, hcleaned.dirty⟩
          · exact ⟨hcleaned.valid, hcleaned.tag, hcleaned.dirty⟩
    · exact SameLines.of_eq hprobe rfl
  · exact SameLines.of_eq hprobe rfl

theorem step_sameLines (hentries : cfg.victimEntries = 0) (hprobe : i.probeReq = false)
    (hnow : c.mshrCompleteNow cfg i = false) :
    SameLines cfg c i (c.step cfg i) := by
  cases hstate : c.state with
  | idle => exact sameLines_idle hentries hprobe hstate
  | hitRd =>
      rw [step_hitRd hstate]
      exact SameLines.of_eq hprobe rfl
  | wb => exact sameLines_wb hprobe hstate
  | fill =>
      rw [step_fill hstate]
      unfold fillStep
      cases hack : i.mAck with
      | false =>
          rw [if_neg Bool.false_ne_true]
          exact SameLines.of_eq hprobe rfl
      | true =>
          cases hlast : c.fillIsLastWord cfg with
          | true =>
              rw [completeNow_last hstate hack hlast] at hnow
              cases hnow
          | false =>
              rw [if_pos rfl, if_neg Bool.false_ne_true]
              exact ⟨probedValid_eq hprobe, rfl, fun _ hdirty => Or.inl hdirty⟩
  | flushScan =>
      rw [step_scan hstate]
      unfold flushScanStep
      split
      · exact SameLines.of_eq hprobe rfl
      · exact sameLines_flushAdvance (SameLines.of_eq hprobe rfl)

theorem completeNow_state (hnow : c.mshrCompleteNow cfg i = true) :
    c.state = .fill ∧ i.mAck = true ∧ c.fillIsLastWord cfg = true := by
  unfold mshrCompleteNow at hnow
  simpa [and_assoc] using hnow

theorem step_complete_array (hprobe : i.probeReq = false)
    (hnow : c.mshrCompleteNow cfg i = true) :
    (c.step cfg i).array = filledArray cfg c i := by
  obtain ⟨hstate, hack, hlast⟩ := completeNow_state hnow
  rw [step_fill hstate]
  exact fillStep_last_array hack hlast
    (common_array (by simp [hstate]) (by simp [hstate]) hprobe)

/--
A line that is valid after a cycle was valid before, or its fill has just completed.
-/
theorem step_valid (h : c.Inv cfg mem flat pend []) (hentries : cfg.victimEntries = 0)
    (hprobe : i.probeReq = false) {line : Nat}
    (hvalid : (c.step cfg i).array.valid line = true) :
    (c.array.valid line = true ∧ (c.step cfg i).array.lineAddr cfg.toGeometry line
        = c.array.lineAddr cfg.toGeometry line) ∨
      (c.mshrCompleteNow cfg i = true ∧
        (c.step cfg i).array.lineAddr cfg.toGeometry line = c.head.line cfg) := by
  cases hnow : c.mshrCompleteNow cfg i with
  | false =>
      have hsame := step_sameLines hentries hprobe hnow
      rw [hsame.valid] at hvalid
      exact Or.inl ⟨hvalid, LineArray.lineAddr_of_tag hsame.tag line⟩
  | true =>
      have hfill := h.fill_of_state (completeNow_state hnow).left
      rw [step_complete_array hprobe hnow] at hvalid ⊢
      by_cases hline : line = c.fillLine cfg
      · rw [hline]
        exact Or.inr ⟨rfl, filledArray_addr h.queued hfill.busy⟩
      · refine Or.inl ⟨?_, filledArray_addr_of_ne hline⟩
        have hset : setAt c.array.valid (c.fillLine cfg) true line = true := hvalid
        rw [setAt_of_ne hline] at hset
        exact hset

/--
A line is dirty after a cycle only if it was dirty before or a store was answered.
-/
theorem step_dirty (h : c.Inv cfg mem flat pend []) (hlegal : c.Legal pend i)
    (hone : cfg.mshrEntries = 1) (hentries : cfg.victimEntries = 0)
    (hprobe : i.probeReq = false) {line : Nat}
    (hvalid : (c.step cfg i).array.valid line = true)
    (hdirty : (c.step cfg i).array.dirty line = true) :
    (c.array.valid line = true ∧ c.array.dirty line = true) ∨
      (i.cpu.write = true ∧ c.respReady cfg i = true) := by
  cases hnow : c.mshrCompleteNow cfg i with
  | false =>
      have hsame := step_sameLines hentries hprobe hnow
      rw [hsame.valid] at hvalid
      rcases hsame.dirty line hdirty with hold | hstore
      · exact Or.inl ⟨hvalid, hold⟩
      · exact Or.inr hstore
  | true =>
      have hfill := h.fill_of_state (completeNow_state hnow).left
      rw [step_complete_array hprobe hnow] at hvalid hdirty
      have hset : setAt c.array.dirty (c.fillLine cfg) c.head.isWrite line = true := hdirty
      have hset' : setAt c.array.valid (c.fillLine cfg) true line = true := hvalid
      by_cases hline : line = c.fillLine cfg
      · rw [hline, setAt_self] at hset
        have hblocking := blocking_of_single h hone hfill.busy
        have hserves := (blocking_holds h hlegal (head_mem hfill.busy) hblocking).left
        refine Or.inr ⟨?_, fill_answers_single h hlegal hone hfill.busy hnow⟩
        rw [← hserves.right.left]
        exact hset
      · rw [setAt_of_ne hline] at hset hset'
        exact Or.inl ⟨hset', hset⟩

/-!
# Fills
-/

theorem mWe_fill (hstate : c.state = .fill) : c.mWe = false := by
  unfold mWe
  rw [hstate]
  rfl

theorem fill_hold (h : c.Inv cfg mem flat pend []) (hone : cfg.mshrEntries = 1)
    (hentries : cfg.victimEntries = 0) (hlegal : c.Legal pend i) (hstate : c.state = .fill)
    (hack : i.mAck = false) :
    (c.step cfg i).state = .fill ∧ (c.step cfg i).fillWord = c.fillWord ∧
      (c.step cfg i).head = c.head ∧ (c.step cfg i).mAddr = c.mAddr := by
  rw [step_probe h hone hentries hlegal hstate hack]
  exact ⟨hstate, rfl, rfl, rfl⟩

/--
A fill that goes on after a word was delivered is the same fill.
-/
theorem fill_more (h : c.Inv cfg mem flat pend []) (hone : cfg.mshrEntries = 1)
    (hstate : c.state = .fill) (hack : i.mAck = true)
    (hmore : (c.step cfg i).state = .fill) :
    (c.step cfg i).head = c.head := by
  have hfill := h.fill_of_state hstate
  rw [step_fill hstate] at hmore ⊢
  cases hlast : c.fillIsLastWord cfg with
  | true =>
      have hnow := completeNow_last hstate hack hlast
      have hempty : c.mshrCountAfterComplete cfg i = 0 := by
        unfold mshrCountAfterComplete
        rw [hnow, dispatchMiss_of_single hone]
        have hle := h.queued.countLe
        have hnone : c.mshrCount - 1 = 0 := by omega
        exact hnone
      unfold fillStep at hmore
      rw [if_pos hack, if_pos hlast, if_pos hempty] at hmore
      cases hmore
  | false =>
      have hnow : c.mshrCompleteNow cfg i = false := by
        unfold mshrCompleteNow
        rw [hlast, Bool.and_false]
      rw [fillStep_word hack hlast]
      exact (common_moves.head_eq h.queued hfill.busy hnow).right

/--
A fill begins with its first word.
-/
theorem fill_begins (hentries : cfg.victimEntries = 0) (hstate : c.state ≠ .fill)
    (hfill : (c.step cfg i).state = .fill) :
    (c.step cfg i).fillWord = 0 := by
  cases hold : c.state with
  | idle =>
      rw [step_idle hold] at hfill ⊢
      unfold idleStep at hfill ⊢
      rw [vcLookupHit_of_no_entries hentries] at hfill ⊢
      split
      · next hall =>
          rw [if_pos hall] at hfill
          cases hfill
      · next hall =>
          rw [if_neg hall] at hfill
          split
          · next hactive =>
              rw [if_pos hactive] at hfill
              split
              · next hmain =>
                  rw [if_pos hmain] at hfill
                  split at hfill
                  · exact absurd (hold.symm.trans hfill) CacheState.noConfusion
                  · cases hfill
              · rw [if_neg Bool.false_ne_true]
                unfold miss
                split
                · rfl
                · split
                  · rfl
                  · rfl
          · next hquiet =>
              rw [if_neg hquiet] at hfill
              exact absurd (hold.symm.trans hfill) CacheState.noConfusion
  | hitRd =>
      rw [step_hitRd hold] at hfill
      cases hfill
  | wb =>
      have hstill : (c.common cfg i).state ≠ .fill := by
        show c.state ≠ .fill
        exact hstate
      rw [step_wb hold] at hfill ⊢
      unfold wbStep at hfill ⊢
      split
      · next hack =>
          rw [if_pos hack] at hfill
          split
          · next hlast =>
              rw [if_pos hlast] at hfill
              split
              · rfl
              · next hactive =>
                  rw [if_neg hactive] at hfill
                  split
                  · next hreturn =>
                      rw [if_pos hreturn] at hfill
                      unfold flushAdvance at hfill
                      split at hfill
                      · cases hfill
                      · cases hfill
                  · split
                    · rfl
                    · rfl
          · next hlast =>
              rw [if_neg hlast] at hfill
              exact absurd hfill hstill
      · next hack =>
          rw [if_neg hack] at hfill
          exact absurd hfill hstill
  | fill => exact absurd hold hstate
  | flushScan =>
      rw [step_scan hold] at hfill
      unfold flushScanStep flushAdvance at hfill
      split at hfill
      · cases hfill
      · split at hfill
        · cases hfill
        · cases hfill

/--
Without a victim buffer a writeback is of a line that the cache holds.
-/
theorem wb_line (h : c.Inv cfg mem flat pend []) (hentries : cfg.victimEntries = 0)
    (hstate : c.state = .wb) :
    exists line, c.array.valid line = true ∧
      c.array.lineAddr cfg.toGeometry line = cfg.lineAddr c.mAddr := by
  cases h.phase with
  | evict hevict =>
      refine ⟨c.wbLine, hevict.valid, ?_⟩
      rw [hevict.addr, cfg.lineAddr_base _ hevict.word]
  | flushWb hwb =>
      refine ⟨c.wbLine, hwb.valid, ?_⟩
      rw [hwb.addr, cfg.lineAddr_base _ hwb.word]
  | drain hdrain => exact absurd hentries (entries_of_moved hdrain.moved)
  | idle hother _ => exact absurd (hstate.symm.trans hother) CacheState.noConfusion
  | hitRd hrd => exact absurd (hstate.symm.trans hrd.state) CacheState.noConfusion
  | fill hfill => exact absurd (hstate.symm.trans hfill.state) CacheState.noConfusion
  | scan hscan => exact absurd (hstate.symm.trans hscan.state) CacheState.noConfusion

theorem noPending_of_no_entries (h : c.Inv cfg mem flat pend [])
    (hentries : cfg.victimEntries = 0) :
    c.vwbPending = false := by
  cases h.phase with
  | idle _ hquiet => exact hquiet.noPending
  | hitRd hrd => exact hrd.noPending
  | evict hevict =>
      cases hpending : c.vwbPending with
      | false => rfl
      | true => exact absurd hentries (entries_of_moved (hevict.moved hpending))
  | drain hdrain => exact absurd hentries (entries_of_moved hdrain.moved)
  | fill hfill => exact hfill.noPending
  | scan hscan => exact hscan.noPending
  | flushWb hwb => exact hwb.noPending

theorem fill_line (h : c.Inv cfg mem flat pend []) (hstate : c.state = .fill) :
    cfg.lineAddr c.mAddr = c.head.line cfg := by
  have hfill := h.fill_of_state hstate
  have hok := h.queued.ok _ (head_mem hfill.busy)
  unfold mAddr
  rw [if_neg (by simp [hstate]), hok.base, cfg.lineAddr_base _ hfill.word]
  rfl

/--
A cache that neither waits nor flushes is idle.
-/
theorem idle_of_unasked (h : c.Inv cfg mem flat pend []) (hone : cfg.mshrEntries = 1)
    (hpend : pend = none) (hflush : c.flushActive = false) :
    c.state = .idle := by
  have hmiss : 0 < c.mshrCount -> c.state = .idle := by
    intro hbusy
    have hblocking := blocking_of_single h hone hbusy
    obtain ⟨_, _, p, hp, _⟩ := h.queued.blocking _ (head_mem hbusy) hblocking
    rw [hpend] at hp
    cases hp
  cases h.phase with
  | idle hstate _ => exact hstate
  | hitRd hrd => exact absurd hpend ((h.ported.single hone).right hrd.state)
  | evict hevict => exact hmiss hevict.busy
  | drain hdrain => exact hmiss hdrain.busy
  | fill hfill => exact hmiss hfill.busy
  | scan hscan =>
      rw [hscan.flush] at hflush
      cases hflush
  | flushWb hwb =>
      rw [hwb.flush] at hflush
      cases hflush

end DCache
end Cache
end RvCores
