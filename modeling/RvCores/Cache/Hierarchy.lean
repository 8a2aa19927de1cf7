import RvCores.Cache.L2Progress
import RvCores.Cache.TwoLevel

/-!
# The two levels as one memory

What the invariant of the two levels says to the caller: loads, inclusion, evictions of
the second level, flushes, and progress along runs in which the memory below answers.
-/

namespace RvCores
namespace Cache

open Isa Block Lib

namespace TwoLevel

variable {cfg : TwoLevelConfig} {s t : TwoLevel} {i : TwoLevelIn}

/-!
# Values
-/

theorem read_value {upper : LineMem cfg.l2}
    (hd : s.dcache.Inv cfg.l1 upper (lines cfg.l1.toGeometry s.flat) s.pend [])
    (hl : s.l2.Inv cfg.l2 (lines cfg.l2 s.mem) upper) (hlinked : s.Linked cfg)
    (hlegal : s.Legal i) (hread : i.cpu.read = true) (hready : s.respReady cfg i = true) :
    s.respRdata cfg i = Flat.load s.flat i.cpu.addr i.cpu.funct3 := by
  have hlegal' : s.dcache.Legal s.pend (s.toDCache cfg i) := hlegal.toDCache
  have hsound := DCache.sound_of_single hd hlegal' rfl (fun hne => absurd rfl hne)
  have hprobe : s.l2.state ≠ .probeWait := by
    intro hprobe
    obtain ⟨hstate, _, _⟩ := hlinked.busy (Or.inl hprobe)
    have hnow := @DCache.completeNow_of_no_ack cfg.l1 s.dcache (s.toDCache cfg i)
      (no_ack_of_probe hprobe)
    have hfill := hd.fill_of_state hstate
    have hblocking := DCache.blocking_of_single hd rfl hfill.busy
    have hnoHu := (hd.queued.blocking _ (DCache.head_mem hfill.busy) hblocking).right.left
    have hanswer : s.dcache.respReady cfg.l1 (s.toDCache cfg i) = true := hready
    rw [DCache.respReady_fill_hold hstate hnow, hnoHu] at hanswer
    cases hanswer
  have hvalue := DCache.read_value hd hlegal' hsound (backed hd hl hlinked hlegal hprobe)
    hread hready
  have hrequest := hlegal.request (DCache.active_of_read hread)
  rw [← lines_load (g := cfg.l1.toGeometry) hrequest.aligned]
  exact hvalue

/--
What the first level does not hold is the same between the levels as in the flat
memory.
-/
theorem upper_of_unheld {upper : LineMem cfg.l2}
    (hd : s.dcache.Inv cfg.l1 upper (lines cfg.l1.toGeometry s.flat) s.pend []) {a : Nat}
    (hunheld : forall line, s.dcache.array.valid line = true ->
      s.dcache.array.lineAddr cfg.l1.toGeometry line = a ->
      s.dcache.array.dirty line = false) :
    upper a = lines cfg.l1.toGeometry s.flat a := by
  apply hd.coherent.settled a
  intro slot d hslot haddr
  cases slot with
  | way line =>
      obtain ⟨hvalid, _, rfl⟩ := LineArray.copyAt_eq_some.mp hslot
      exact hunheld line hvalid haddr
  | victim e =>
      have hcopy : s.dcache.vc.copyAt cfg.l1.toGeometry 0 e = some d := hslot
      unfold VictimCache.copyAt at hcopy
      simp at hcopy
  | leaving =>
      have hcopy : s.dcache.leavingCopy cfg.l1 = some d := hslot
      rw [DCache.leavingCopy_none (DCache.noPending_of_no_entries hd rfl)] at hcopy
      cases hcopy

/--
After the flush of the data cache and then that of the second level, memory is the flat
memory.
-/
theorem flushed_mem (h : s.Inv cfg) (hdone : s.l2.flushDone = true)
    (hdrained : s.drained = true) :
    s.mem = s.flat := by
  obtain ⟨upper, hd, hl, hlinked⟩ := h
  have hupper : upper = lines cfg.l1.toGeometry s.flat := by
    funext a
    apply upper_of_unheld hd
    intro line hvalid _
    exact hlinked.clean hdrained line hvalid
  obtain ⟨hidle, hclean⟩ := hl.flushed hdone
  have hmem : lines cfg.l2 s.mem = upper := by
    apply hl.coherent.mem_eq_flat
    intro slot d hslot
    cases slot with
    | way k =>
        obtain ⟨hvalid, _, rfl⟩ := LineArray.copyAt_eq_some.mp hslot
        exact hclean k hvalid
    | latch =>
        have hcopy : s.l2.latchCopy cfg.l2 = some d := hslot
        rw [L2Cache.latchCopy_none (L2Cache.not_latched_of_state (by simp [hidle]))] at hcopy
        cases hcopy
  exact lines_inj (hmem.trans hupper)

/-!
# Progress

While the second level serves a read, its own work counts below that of the data cache.
-/

def work (cfg : TwoLevelConfig) (s : TwoLevel) : Nat :=
  s.dcache.work cfg.l1 * (2 * cfg.l2.lineWords + 3) + s.l2.work cfg.l2

/--
One cycle is a step forward, or the memory keeps the second level waiting.
-/
def Advances (cfg : TwoLevelConfig) (s : TwoLevel) (i : TwoLevelIn) : Prop :=
  (s.step cfg i).work cfg < s.work cfg ∨
    ((s.l2.mCyc = true ∧ i.ack = false) ∧ (s.step cfg i).work cfg = s.work cfg)

theorem work_less {d d' n m m' : Nat} (hd : d' < d) (hm : m' < n) : d' * n + m' < d * n + m := by
  calc d' * n + m' < d' * n + n := by omega
    _ = (d' + 1) * n := (Nat.succ_mul d' n).symm
    _ <= d * n := Nat.mul_le_mul_right n hd
    _ <= d * n + m := Nat.le_add_right _ _

theorem work_lt_of_dcache (h : s.Inv cfg) (hlegal : s.Legal i)
    (hall : i.l2FlushAll = false) (hflush : s.l2.flushActive = false)
    (hless : (s.step cfg i).dcache.work cfg.l1 < s.dcache.work cfg.l1) :
    (s.step cfg i).work cfg < s.work cfg := by
  obtain ⟨upper, _, hl, _⟩ := h.step hlegal
  have hno : (s.step cfg i).l2.flushActive = false :=
    L2Cache.noFlush_step (i := s.toL2 cfg i) hall hflush
  exact work_less hless (L2Cache.work_lt hl hno)

/--
When the data cache waits, the second level gets on.
-/
theorem advances_of_l2 (hsame : (s.step cfg i).dcache.work cfg.l1 = s.dcache.work cfg.l1)
    (h : s.l2.Advances cfg.l2 (s.toL2 cfg i)) :
    s.Advances cfg i := by
  have hstep : (s.step cfg i).l2 = s.l2.step cfg.l2 (s.toL2 cfg i) := rfl
  unfold Advances work
  rw [hsame, hstep]
  rcases h with hless | ⟨hcyc, hack, heq⟩
  · exact Or.inl (Nat.add_lt_add_left hless _)
  · exact Or.inr ⟨⟨hcyc, hack⟩, by rw [heq]⟩

theorem request_advances (h : s.Inv cfg) (hlegal : s.Legal i)
    (hactive : i.cpu.active = true) (hready : s.respReady cfg i = false) :
    s.Advances cfg i := by
  have hsafe := h
  obtain ⟨upper, hd, hl, hlinked⟩ := h
  have hlegal' : s.dcache.Legal s.pend (s.toDCache cfg i) := hlegal.toDCache
  have hserved := served hd hl hlinked hlegal
  obtain ⟨_, _, hall, hflush⟩ := hlegal.noFlush hactive
  by_cases hprobe : s.l2.state = .probeWait
  · obtain ⟨hstate, _, _⟩ := hlinked.busy (Or.inl hprobe)
    have hack : (s.toDCache cfg i).mAck = false := no_ack_of_probe hprobe
    apply advances_of_l2
    · have hstep : (s.step cfg i).dcache = s.dcache.forgets cfg.l1 (s.toDCache cfg i) :=
        DCache.step_probe hd rfl rfl hlegal' hstate hack
      rw [hstep]
      rfl
    · exact L2Cache.read_advances hl hserved (DCache.mCyc_fill hstate) (DCache.mWe_fill hstate)
        hack
  · have hbacked := backed hd hl hlinked hlegal hprobe
    rcases DCache.request_advances hd hlegal' hbacked rfl hactive hready with
      hless | ⟨hcyc, hack, hsame⟩
    · exact Or.inl (work_lt_of_dcache hsafe hlegal hall hflush hless)
    · apply advances_of_l2 hsame
      apply L2Cache.read_advances hl hserved hcyc _ hack
      cases hwe : s.dcache.mWe with
      | false => exact hwe
      | true =>
          -- a word that is written is taken at once
          have htaken := (write_taken hd hl hlinked hlegal (beq_iff_eq.mp hwe)).right
          rw [show s.l2.uAck cfg.l2 (s.toL2 cfg i) = false from hack] at htaken
          cases htaken

/--
Every request to the memory is acknowledged after finitely many cycles.
-/
def Fair (u : Nat -> TwoLevel) (i : Nat -> TwoLevelIn) : Prop :=
  forall n, (u n).l2.mCyc = true -> exists m, n <= m ∧ (i m).ack = true

theorem Fair.unstalled {u : Nat -> TwoLevel} {i : Nat -> TwoLevelIn} (h : Fair u i) (n : Nat)
    (hstall : (u n).l2.mCyc = true ∧ (i n).ack = false) :
    exists m, n <= m ∧ ¬ ((u m).l2.mCyc = true ∧ (i m).ack = false) := by
  obtain ⟨m, hm, hack⟩ := h n hstall.left
  refine ⟨m, hm, ?_⟩
  rintro ⟨_, hno⟩
  rw [hack] at hno
  cases hno

theorem inv_reachable (hl1 : 1 <= cfg.l1SetBits) (hl2 : 1 <= cfg.l2SetBits)
    (hreset : s.IsReset cfg)
    (hreach : ReachableWhen (TwoLevel.step cfg) TwoLevel.Legal s t) :
    t.Inv cfg := by
  refine @invariant_of_reachableWhen _ _ _ _ (fun u => u.Inv cfg) s t
    (hreset.inv hl1 hl2) ?_ hreach
  intro u i hu hlegal
  exact hu.step hlegal

section

variable {u : Nat -> TwoLevel} {i : Nat -> TwoLevelIn}
  (hrun : IsRun (TwoLevel.step cfg) TwoLevel.Legal u i) (hinv : forall n, (u n).Inv cfg)
  (hfair : Fair u i)

include hrun

theorem work_of_advances {n : Nat} (h : (u n).Advances cfg (i n)) :
    (u (n + 1)).work cfg < (u n).work cfg ∨
      (((u n).l2.mCyc = true ∧ (i n).ack = false) ∧
        (u (n + 1)).work cfg = (u n).work cfg) := by
  rw [(hrun n).right]
  exact h

theorem port_held {n m : Nat} (hnm : n <= m)
    (hwait : forall k, n <= k -> k < m ->
      (i k).cpu.active = true ∧ (u k).respReady cfg (i k) = false) :
    (i m).cpu = (i n).cpu := by
  induction m, hnm using Nat.le_induction with
  | base => rfl
  | succ m hm ih =>
      have hwaiting := hwait m hm (Nat.lt_succ_self m)
      have hpend : (u (m + 1)).pend = some (i m).cpu := by
        rw [(hrun m).right]
        exact if_pos ⟨hwaiting.left, hwaiting.right, DCache.mshrAccept_of_single rfl⟩
      have hheld : (i (m + 1)).cpu = (i m).cpu := (hrun (m + 1)).left.held _ hpend
      rw [hheld]
      exact ih (fun k hk hlt => hwait k hk (Nat.lt_succ_of_lt hlt))

include hinv hfair

theorem request_answered {n : Nat} (hactive : (i n).cpu.active = true) :
    exists m, n <= m ∧ (i m).cpu = (i n).cpu ∧ (u m).respReady cfg (i m) = true := by
  let waits := fun k => (i k).cpu.active = true ∧ (u k).respReady cfg (i k) = false
  obtain ⟨m, hm, hall, hend⟩ :=
    @waits_end waits _ (fun k => (u k).work cfg)
      (fun k hk => work_of_advances hrun
        (request_advances (hinv k) (hrun k).left hk.left hk.right))
      hfair.unstalled n
  have hcpu := port_held hrun hm hall
  refine ⟨m, hm, hcpu, ?_⟩
  cases hready : (u m).respReady cfg (i m) with
  | true => rfl
  | false =>
      rw [← hcpu] at hactive
      exact absurd ⟨hactive, hready⟩ hend

end

/-!
# The refinement
-/

instance (s : TwoLevel) (i : TwoLevelIn) : Decidable (s.Promised i) :=
  decidable_of_iff
    ((forall p, p ∈ s.pend -> i.cpu = p) ∧ (i.cpu.active = true -> i.cpu.Request) ∧
      (i.l2FlushAll = true ∨ s.l2.flushActive = true ->
        i.flushAll = false ∧ s.dcache.flushActive = false))
    ⟨fun h => ⟨h.left, h.right.left, h.right.right⟩, fun h => ⟨h.held, h.request, h.ordered⟩⟩

instance (s : TwoLevel) (i : TwoLevelIn) : Decidable (s.Legal i) :=
  decidable_of_iff
    (s.Promised i ∧
      (i.cpu.active = true -> i.flushAll = false ∧ s.dcache.flushActive = false ∧
        i.l2FlushAll = false ∧ s.l2.flushActive = false))
    ⟨fun h => { toPromised := h.left, noFlush := h.right },
      fun h => ⟨h.toPromised, h.noFlush⟩⟩

def initial (mem : Bytes) : TwoLevel :=
  { dcache := (CacheSystem.initial mem).cache
    l2 :=
      { state := .idle
        array := (CacheSystem.initial mem).cache.array
        hitLine := 0, hitWord := 0, hitFunct3 := 0, hitByteOff := 0, servedAddr := 0
        miss :=
          { set := 0, way := 0, tag := 0, base := 0, wordOff := 0, byteOff := 0, funct3 := 0
            isWrite := false, wdata := 0, origAddr := 0 }
        fillWord := 0, wbLine := 0, wbBase := 0, probeDirty := false, probeData := fun _ => 0
        flushScan := 0, flushActive := false, flushDone := false, wbReturnToFlush := false }
    mem := mem
    flat := mem
    pend := none
    drained := false }

theorem initial_isReset (cfg : TwoLevelConfig) (mem : Bytes) : (initial mem).IsReset cfg where
  dcache := (CacheSystem.initial_isReset cfg.l1 mem).cache
  l2 := ⟨rfl, ⟨fun _ => rfl, fun _ => rfl, fun _ => rfl, fun _ _ _ => rfl⟩, rfl, rfl⟩
  flat := rfl
  pend := rfl
  drained := rfl

end TwoLevel
end Cache
end RvCores
