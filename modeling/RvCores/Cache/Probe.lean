import RvCores.Cache.Coherence

/-!
# Probes of the data cache

A level below takes a line away while the cache waits for the first word of a line
that it misses.  The line is looked up, handed over if it is dirty, and forgotten.
-/

namespace RvCores
namespace Cache

open Isa Lib

namespace LineArray

variable {g : Geometry} {arr arr' : LineArray}

theorem lineAddr_of_tag (htag : arr'.tag = arr.tag) (line : Nat) :
    arr'.lineAddr g line = arr.lineAddr g line := by
  unfold lineAddr
  rw [htag]

/--
Forgetting lines keeps an array well formed.
-/
theorem WellFormed.forget (h : arr.WellFormed g)
    (hvalid : forall line, arr'.valid line = true -> arr.valid line = true)
    (htag : arr'.tag = arr.tag) (hvictim : arr'.victim = arr.victim) :
    arr'.WellFormed g where
  inRange hline := h.inRange (hvalid _ hline)
  distinct hline hline' haddr := by
    rw [lineAddr_of_tag htag, lineAddr_of_tag htag] at haddr
    exact h.distinct (hvalid _ hline) (hvalid _ hline') haddr
  pointer := by
    rw [hvictim]
    exact h.pointer

end LineArray

namespace DCache

variable {cfg : DCacheConfig} {c : DCache} {i : DCacheIn}
  {mem flat : LineMem cfg.toGeometry} {pend : Option CpuPort}

/-!
# The cycle of a probe
-/

/--
The cache after a probe: the line probed is gone.
-/
def forgets (cfg : DCacheConfig) (c : DCache) (i : DCacheIn) : DCache :=
  { c with
    array := { c.array with valid := c.probedValid cfg i }
    flushDone := false
    huPending := false }

/--
The memory below after a probe has taken a dirty line.
-/
def memProbed (cfg : DCacheConfig) (c : DCache) (mem : LineMem cfg.toGeometry)
    (i : DCacheIn) : LineMem cfg.toGeometry :=
  if c.probeDirty cfg i = true then
    setAt mem (cfg.lineAddr i.probeAddr) (fun w => c.probeData cfg i w)
  else mem

theorem probedValid_of_valid {line : Nat} (h : c.probedValid cfg i line = true) :
    c.array.valid line = true := by
  unfold probedValid at h
  split at h
  · rw [setAt_apply] at h
    split at h
    · cases h
    · exact h
  · exact h

/--
The line probed is not valid afterwards.
-/
theorem probedValid_ne (h : c.array.WellFormed cfg.toGeometry) (hreq : i.probeReq = true)
    {line : Nat} (hvalid : c.probedValid cfg i line = true) :
    c.array.lineAddr cfg.toGeometry line ≠ cfg.lineAddr i.probeAddr := by
  intro haddr
  have hold := probedValid_of_valid hvalid
  have hfound : c.probeFound cfg i = true := LineArray.hitMain_of_valid h hold haddr
  have hselects := LineArray.hit_selects h hfound
  have hline : line = c.probeFoundLine cfg i :=
    h.distinct hold hselects.left (haddr.trans hselects.right.left.symm)
  unfold probedValid at hvalid
  rw [hreq, hfound, hline, Bool.true_and, if_pos rfl, setAt_self] at hvalid
  cases hvalid

theorem completeNow_of_no_ack (hack : i.mAck = false) : c.mshrCompleteNow cfg i = false := by
  unfold mshrCompleteNow
  rw [hack, Bool.and_false]
  rfl

theorem step_probe (h : c.Inv cfg mem flat pend []) (hone : cfg.mshrEntries = 1)
    (hentries : cfg.victimEntries = 0) (hlegal : c.Legal pend i) (hstate : c.state = .fill)
    (hack : i.mAck = false) :
    c.step cfg i = c.forgets cfg i := by
  have hhit := dispatchHit_of_single h hlegal hone (h.fill_of_state hstate).busy
  have hmiss := @dispatchMiss_of_single cfg c i hone
  have hage : c.touchedAge cfg i = c.array.age := by
    apply touchedAge_of_no_hit
    unfold accessHit
    rw [hitAnswers_of_not_hitRd (by simp [hstate]), hstate]
    rfl
  rw [step_fill hstate, fillStep_hold hack]
  unfold common mshrNext mshrCountAfterComplete forgets
  rw [hhit, hmiss, completeNow_of_no_ack hack, vcNext_of_no_entries hentries, hage]
  rfl

/-!
# What is left
-/

/--
Before the first word arrives every valid line holds what the flat memory holds, the
line that is to be overwritten too.
-/
theorem line_current (h : c.Inv cfg mem flat pend []) (hstate : c.state = .fill)
    (hword : c.fillWord = 0) {line : Nat} (hvalid : c.array.valid line = true) :
    c.array.lineData cfg.toGeometry line = flat (c.array.lineAddr cfg.toGeometry line) := by
  have hfill := h.fill_of_state hstate
  by_cases hline : line = c.fillLine cfg
  · subst hline
    funext w
    exact hfill.remaining hvalid w (by omega)
  · apply way_current h.coherent hvalid
    rw [dead_fill hstate]
    intro heq
    exact hline (Option.some.inj heq).symm

/--
The line handed over is the flat memory's.
-/
theorem probeData_eq (h : c.Inv cfg mem flat pend []) (hstate : c.state = .fill)
    (hword : c.fillWord = 0) (hfound : c.probeFound cfg i = true) :
    (fun w : Fin cfg.lineWords => c.probeData cfg i w) = flat (cfg.lineAddr i.probeAddr) := by
  have hselects := LineArray.hit_selects h.wellFormed hfound
  have hcurrent := line_current h hstate hword hselects.left
  rw [hselects.right.left] at hcurrent
  exact hcurrent

theorem memProbed_coherent (h : c.Inv cfg mem flat pend []) (hstate : c.state = .fill)
    (hword : c.fillWord = 0) :
    Coherent (c.copies cfg) (c.memProbed cfg mem i) flat where
  current := h.coherent.current
  unique := h.coherent.unique
  settled := by
    intro a hclean
    unfold memProbed
    split
    · next hdirty =>
        have hfound : c.probeFound cfg i = true := by
          unfold probeDirty at hdirty
          exact (Bool.and_eq_true_iff.mp hdirty).left
        rw [setAt_apply]
        split
        · next ha => rw [ha, probeData_eq h hstate hword hfound]
        · exact h.coherent.settled a hclean
    · exact h.coherent.settled a hclean

/--
Memory has the line probed afterwards.
-/
theorem memProbed_line (h : c.Inv cfg mem flat pend []) (hstate : c.state = .fill)
    (hword : c.fillWord = 0) (hfound : c.probeFound cfg i = true) {d : LineCopy cfg.toGeometry}
    (hcopy : c.copies cfg (.way (c.probeFoundLine cfg i)) = some d) :
    c.memProbed cfg mem i d.addr = flat d.addr := by
  obtain ⟨hvalid, _, rfl⟩ := LineArray.copyAt_eq_some.mp hcopy
  have haddr := (LineArray.hit_selects h.wellFormed hfound).right.left
  show c.memProbed cfg mem i (c.array.lineAddr cfg.toGeometry _) = flat (c.array.lineAddr _ _)
  cases hdirty : c.array.dirty (c.probeFoundLine cfg i) with
  | false =>
      exact (memProbed_coherent h hstate hword).mem_of_clean hcopy hdirty
  | true =>
      unfold memProbed probeDirty
      rw [hfound, hdirty, Bool.and_self, if_pos rfl]
      refine Eq.trans (congrArg _ haddr) ?_
      rw [setAt_self, probeData_eq h hstate hword hfound]
      exact congrArg flat haddr.symm

theorem forgets_copies (hreq : i.probeReq = true)
    (hfound : c.probeFound cfg i = true) :
    (c.forgets cfg i).copies cfg = setAt (c.copies cfg) (.way (c.probeFoundLine cfg i)) none := by
  have hdead : (c.forgets cfg i).dead cfg = c.dead cfg := rfl
  have hvalid : (c.forgets cfg i).array.valid
      = setAt c.array.valid (c.probeFoundLine cfg i) false := by
    show c.probedValid cfg i = _
    unfold probedValid
    rw [hreq, hfound, Bool.true_and, if_pos rfl]
  have hgone : (c.forgets cfg i).array.copyAt cfg.toGeometry ((c.forgets cfg i).dead cfg)
      (c.probeFoundLine cfg i) = none := by
    apply LineArray.copyAt_invalid
    rw [hvalid, setAt_self]
  rw [← hgone]
  refine copies_update_way (c := c) ?_ rfl rfl
  intro k hk
  rw [hdead]
  refine LineArray.copyAt_congr ?_ ?_ ?_ (fun _ _ => rfl) Iff.rfl
  · rw [hvalid, setAt_of_ne hk]
  · rfl
  · rfl

theorem forgets_copies_unfound (hfound : c.probeFound cfg i = false) :
    (c.forgets cfg i).copies cfg = c.copies cfg := by
  have hvalid : c.probedValid cfg i = c.array.valid := by
    unfold probedValid
    rw [hfound, Bool.and_false]
    rfl
  refine copies_congr (c := c) ?_ rfl rfl
  intro line
  unfold forgets
  rw [hvalid]
  rfl

theorem forgets_coherent (h : c.Inv cfg mem flat pend []) (hstate : c.state = .fill)
    (hword : c.fillWord = 0) (hreq : i.probeReq = true) :
    Coherent ((c.forgets cfg i).copies cfg) (c.memProbed cfg mem i) flat := by
  cases hfound : c.probeFound cfg i with
  | true =>
      rw [forgets_copies hreq hfound]
      apply (memProbed_coherent h hstate hword).drop
      intro d hcopy
      exact memProbed_line h hstate hword hfound hcopy
  | false =>
      rw [forgets_copies_unfound hfound]
      exact memProbed_coherent h hstate hword

/--
A probe keeps the invariant, over the memory that received the line.
-/
theorem inv_probe (h : c.Inv cfg mem flat pend []) (hentries : cfg.victimEntries = 0)
    (hone : cfg.mshrEntries = 1) (hstate : c.state = .fill)
    (hword : c.fillWord = 0) (hreq : i.probeReq = true) :
    (c.forgets cfg i).Inv cfg (c.memProbed cfg mem i) flat pend [] := by
  have hfill := h.fill_of_state hstate
  have hqueue : (c.forgets cfg i).queue cfg = c.queue cfg := rfl
  have hblocking := blocking_of_single h hone hfill.busy
  have hsingle := (h.queued.blocking _ (head_mem hfill.busy) hblocking).left
  have hcoherent := forgets_coherent h hstate hword hreq
  exact
    { severalSets := h.severalSets
      wellFormed := h.wellFormed.forget (fun _ => probedValid_of_valid) rfl rfl
      buffered := fun hne => absurd hentries hne
      coherent := hcoherent
      queued :=
        { headLt := h.queued.headLt
          countLe := h.queued.countLe
          tail := h.queued.tail
          ok := h.queued.ok
          unheld := by
            intro m hm
            have hunheld := h.queued.unheld m hm
            refine ⟨fun line hvalid => hunheld.left line (probedValid_of_valid hvalid), ?_⟩
            exact hunheld.right
          lines := h.queued.lines
          reserved := h.queued.reserved
          behind := by
            intro m hm
            rw [hqueue, hsingle] at hm
            cases hm
          blocking := by
            intro m hm hearly
            have hblocking := h.queued.blocking m hm hearly
            exact ⟨hblocking.left, rfl, hblocking.right.right⟩
          awaited := h.queued.awaited }
      ported :=
        { request := h.ported.request
          noFlush := h.ported.noFlush
          hu := fun hhu => nomatch hhu
          single := fun _ => ⟨rfl, fun hrd => absurd (hstate.symm.trans hrd) (by simp)⟩ }
      phase := Phase.fill
        { state := hstate
          noFlush := hfill.noFlush
          busy := hfill.busy
          noPending := hfill.noPending
          noActive := hfill.noActive
          word := hfill.word
          filled := hfill.filled
          remaining := fun hvalid => hfill.remaining (probedValid_of_valid hvalid) }
      flushed := fun hdone => nomatch hdone }

end DCache
end Cache
end RvCores
