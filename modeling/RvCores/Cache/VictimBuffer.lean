import RvCores.Cache.Blocking

/-!
# The data cache with a victim buffer

The commands of the victim buffer follow the address on the request port, whether
or not a request is made.  As long as they rest while nothing is asked, the cache is
a flat memory.  A flush scans the main array only, so it reaches every newest copy
as long as no exchange put one into the buffer.
-/

namespace RvCores
namespace Cache

open Isa Block Lib

namespace DCache

variable {cfg : DCacheConfig} {c : DCache} {i : DCacheIn}
  {mem flat : LineMem cfg.toGeometry} {pend : Option CpuPort}
  {waiting : List (Nat × Word)}

/-!
# Lines of the buffer that memory has

A line that enters the buffer because of a miss is written back in the same miss.
-/

/--
Memory has every line of the buffer, except the one that is being written back.
-/
def Settled (cfg : DCacheConfig) (c : DCache) (mem flat : LineMem cfg.toGeometry) : Prop :=
  forall e d, c.vc.copyAt cfg.toGeometry cfg.victimEntries e = some d ->
    mem d.addr = flat d.addr ∨
      (c.state = .wb ∧ c.flushActive = false ∧ c.vwbActive = false ∧
        d.addr = c.array.lineAddr cfg.toGeometry c.wbLine)

theorem Settled.of_not_wb (h : c.Settled cfg mem flat) (hstate : c.state ≠ .wb) {e : Nat}
    {d : LineCopy cfg.toGeometry}
    (he : c.vc.copyAt cfg.toGeometry cfg.victimEntries e = some d) :
    mem d.addr = flat d.addr := by
  rcases h e d he with hsettled | ⟨hwb, _⟩
  · exact hsettled
  · exact absurd hwb hstate

theorem flatNext_of_ne {a : Nat} (hne : a ≠ cfg.lineAddr i.cpu.addr) :
    c.flatNext cfg flat i a = flat a := by
  unfold flatNext
  split
  · exact setAt_of_ne hne
  · rfl

/--
The buffer and what it holds in memory stay, and the stores go elsewhere.
-/
theorem settled_still (hvc : (c.step cfg i).vc = c.vc)
    (hold : forall e d, c.vc.copyAt cfg.toGeometry cfg.victimEntries e = some d ->
      c.memNext cfg mem i d.addr = c.flatNext cfg flat i d.addr) :
    (c.step cfg i).Settled cfg (c.memNext cfg mem i) (c.flatNext cfg flat i) := by
  intro e d he
  rw [hvc] at he
  exact Or.inl (hold e d he)

theorem copies_victim {e : Nat} {d : LineCopy cfg.toGeometry}
    (he : c.vc.copyAt cfg.toGeometry cfg.victimEntries e = some d) :
    c.copies cfg (.victim e) = some d := he

/-!
# Cycles without a miss
-/

theorem settled_idle_quiet (h : c.Settled cfg mem flat) (hsound : c.Sound cfg pend i)
    (hentries : cfg.victimEntries ≠ 0)
    (hstate : c.state = .idle) (hactive : i.cpu.active = false) :
    (c.step cfg i).Settled cfg (c.memNext cfg mem i) (c.flatNext cfg flat i) := by
  have hbuffer := hsound.buffer hentries hstate hactive
  have hvc : (c.step cfg i).vc = c.vc := by
    rw [step_idle hstate]
    unfold idleStep
    rw [hactive]
    have hcommon : (c.common cfg i).vc = c.vc := vcNext_eq hbuffer.left hbuffer.right
    split
    · exact hcommon
    · exact hcommon
  apply settled_still hvc
  intro e d he
  rw [memNext_of_not_wb (by simp [hstate]), flatNext_of_not_write (active_split hactive).right]
  exact h.of_not_wb (by simp [hstate]) he

theorem settled_hitMain (h : c.Settled cfg mem flat) (hinv : c.Inv cfg mem flat pend waiting)
    (hlegal : c.Legal pend i) (hstate : c.state = .idle) (hactive : i.cpu.active = true)
    (hmain : c.hitMain cfg i = true) :
    (c.step cfg i).Settled cfg (c.memNext cfg mem i) (c.flatNext cfg flat i) := by
  have hcommon : (c.common cfg i).vc = c.vc := vcNext_of_hitMain hmain
  have hvc : (c.step cfg i).vc = c.vc := by
    rw [step_idle hstate]
    unfold idleStep
    rw [hactive, hmain, (hlegal.noFlush hactive).left]
    cases i.cpu.write with
    | true => exact hcommon
    | false => exact hcommon
  have hselects := LineArray.hit_selects hinv.wellFormed hmain
  have hline : c.copies cfg (.way (c.hitLineIdx cfg i)) = _ :=
    copies_way hselects.left (by simp [dead_idle hstate])
  apply settled_still hvc
  intro e d he
  -- the line that the request hits is in the main array, so not in the buffer
  have hne : d.addr ≠ cfg.lineAddr i.cpu.addr := by
    intro heq
    have hslots := hinv.coherent.unique (copies_victim he) hline
      (heq.trans hselects.right.left.symm)
    cases hslots
  rw [memNext_of_not_wb (by simp [hstate]), flatNext_of_ne hne]
  exact h.of_not_wb (by simp [hstate]) he

theorem settled_promote (h : c.Settled cfg mem flat) (hinv : c.Inv cfg mem flat pend waiting)
    (hlegal : c.Legal pend i) (hbacked : c.Backed cfg mem i) (hstate : c.state = .idle)
    (hactive : i.cpu.active = true) (hmain : c.hitMain cfg i = false)
    (hvc : c.vcLookupHit cfg i = true)
    (hclean : c.array.dirty (c.victimLine cfg i) = false) :
    (c.step cfg i).Settled cfg (c.memNext cfg mem i) (c.flatNext cfg flat i) := by
  obtain ⟨e, hexchange⟩ := exists_exchange hinv hstate hmain hvc
  have hpromotes := @promote_promotes cfg c i mem (not_busy_idle hstate) hbacked
  have hnext : (c.step cfg i).vc = c.vcNext cfg i := by
    rw [step_idle hstate]
    unfold idleStep
    rw [hactive, hmain, hvc, (hlegal.noFlush hactive).left]
    cases i.cpu.write with
    | true => exact hpromotes.vc
    | false => exact hpromotes.vc
  intro k d hk
  rw [hnext, hexchange.next] at hk
  apply Or.inl
  rw [memNext_of_not_wb (by simp [hstate])]
  have hout : c.copies cfg (.way (c.victimLine cfg i)) = _ :=
    copies_way hexchange.outgoing (by simp [dead_idle hstate])
  by_cases hke : k = e
  · -- the line that left the main array is clean
    have hcopy : d = { addr := c.array.lineAddr cfg.toGeometry (c.victimLine cfg i)
                       dirty := c.array.dirty (c.victimLine cfg i)
                       data := c.array.lineData cfg.toGeometry (c.victimLine cfg i) } := by
      unfold VictimCache.copyAt at hk
      simp only [hke, modifyAt_self] at hk
      split at hk
      · exact (Option.some.inj hk).symm
      · cases hk
    have hmem := hinv.coherent.mem_of_clean hout hclean
    have hne := LineArray.not_held_of_miss hinv.wellFormed hmain hexchange.outgoing
    rw [hcopy, flatNext_of_ne hne]
    exact hmem
  · have hold : c.vc.copyAt cfg.toGeometry cfg.victimEntries k = some d := by
      rw [← hk]
      exact (vcCopy_of_ne (fun hne => modifyAt_of_ne hne) hke).symm
    have hne : d.addr ≠ cfg.lineAddr i.cpu.addr := by
      intro heq
      have hfound := @VictimCache.copyAt_valid cfg.toGeometry _ _ _ hexchange.inRange
        hexchange.valid
      have hslots := hinv.coherent.unique (copies_victim hold) (copies_victim hfound)
        (heq.trans hexchange.tag.symm)
      exact hke (Slot.victim.inj hslots)
    rw [flatNext_of_ne hne]
    exact h.of_not_wb (by simp [hstate]) hold

/-!
# Cycles of a miss
-/

theorem settled_miss (h : c.Settled cfg mem flat) (hinv : c.Inv cfg mem flat pend waiting)
    (hlegal : c.Legal pend i) (hsound : c.Sound cfg pend i) (hbacked : c.Backed cfg mem i)
    (hentries : cfg.victimEntries ≠ 0) (hstate : c.state = .idle) (hquiet : c.Quiet)
    (hactive : i.cpu.active = true) (hmain : c.hitMain cfg i = false)
    (hvc : c.vcLookupHit cfg i = false) :
    (c.step cfg i).Settled cfg (c.memNext cfg mem i) (c.flatNext cfg flat i) := by
  have hmiss := step_startsMiss hlegal hbacked hstate hactive hmain hvc
  have hready := respReady_miss hinv hlegal hsound hstate hactive hmain hvc
  have hflat : c.flatNext cfg flat i = flat := by
    unfold flatNext
    rw [if_neg]
    intro hcond
    rw [hready] at hcond
    cases hcond.right
  have hswap : c.vcDoSwap cfg i = false := by
    unfold vcDoSwap
    rw [hvc, Bool.and_false]
  rw [hflat, memNext_of_not_wb (by simp [hstate])]
  intro k d hk
  cases hinsert : c.vcDoInsert cfg i with
  | false =>
      rw [hmiss.vc, vcNext_eq hswap hinsert] at hk
      exact Or.inl (h.of_not_wb (by simp [hstate]) hk)
  | true =>
      have hvalid : c.array.valid (c.victimLine cfg i) = true := by
        unfold vcDoInsert at hinsert
        exact (Bool.and_eq_true_iff.mp hinsert).right
      rw [hmiss.vc, vcNext_insert hinv hentries hswap hinsert] at hk
      by_cases hnew : k = c.vc.fifoNext
      · have hcopy : d = { addr := c.array.lineAddr cfg.toGeometry (c.victimLine cfg i)
                           dirty := c.array.dirty (c.victimLine cfg i)
                           data := c.array.lineData cfg.toGeometry (c.victimLine cfg i) } := by
          unfold VictimCache.copyAt at hk
          simp only [hnew, modifyAt_self] at hk
          split at hk
          · exact (Option.some.inj hk).symm
          · cases hk
        rw [hcopy]
        -- a dirty line is written back next, a clean one memory has
        rcases hmiss.branch with ⟨_, hwb, hnoActive, hline, _⟩ | ⟨hclean, _⟩ | ⟨hclean, _⟩
        · apply Or.inr
          rw [hmiss.array, hline]
          exact ⟨hwb, hmiss.flush.trans hquiet.noFlush, hnoActive, rfl⟩
        · apply Or.inl
          unfold victimNeedsWb at hclean
          rw [hvalid, Bool.true_and] at hclean
          exact hinv.coherent.mem_of_clean
            (copies_way hvalid (by simp [dead_idle hstate])) hclean
        · apply Or.inl
          unfold victimNeedsWb at hclean
          rw [hvalid, Bool.true_and] at hclean
          exact hinv.coherent.mem_of_clean
            (copies_way hvalid (by simp [dead_idle hstate])) hclean
      · have hold : c.vc.copyAt cfg.toGeometry cfg.victimEntries k = some d := by
          rw [← hk]
          exact (vcCopy_of_ne (fun hne => modifyAt_of_ne hne) hnew).symm
        exact Or.inl (h.of_not_wb (by simp [hstate]) hold)

theorem wbStep_vc (hidle : c.state ≠ .idle) : (c.wbStep cfg i (c.common cfg i)).vc = c.vc := by
  have hcommon : (c.common cfg i).vc = c.vc := common_vc hidle
  unfold wbStep flushAdvance
  split
  · split
    · split
      · exact hcommon
      · split
        · split <;> exact hcommon
        · split <;> exact hcommon
    · exact hcommon
  · exact hcommon

/--
A word written back elsewhere leaves a line of memory alone.
-/
theorem memNext_of_ne {a b w : Nat} (hw : w < cfg.lineWords)
    (haddr : c.mAddr = cfg.lineBase b + 4 * w) (hne : a ≠ b) :
    c.memNext cfg mem i a = mem a := by
  unfold memNext
  split
  · rw [haddr]
    exact mem.write_of_ne hw _ hne
  · rfl

theorem settled_evict (h : c.Settled cfg mem flat) (hinv : c.Inv cfg mem flat pend waiting)
    (hlegal : c.Legal pend i) (hsound : c.Sound cfg pend i) (hbacked : c.Backed cfg mem i)
    (hevict : c.Evict cfg mem flat) :
    (c.step cfg i).Settled cfg (c.memNext cfg mem i) (c.flatNext cfg flat i) := by
  have hidle : c.state ≠ .idle := by simp [hevict.state]
  have hrd : c.state ≠ .hitRd := by simp [hevict.state]
  have harray := @common_array cfg c i hidle hrd hbacked.noProbe
  rw [flatNext_wb hinv hlegal hsound hevict.state, step_wb hevict.state]
  intro e d he
  rw [wbStep_vc hidle] at he
  by_cases hline : d.addr = c.array.lineAddr cfg.toGeometry c.wbLine
  · have hstays : c.array.lineAddr cfg.toGeometry c.wbLine
        = (c.common cfg i).array.lineAddr cfg.toGeometry c.wbLine := by rw [harray]
    cases hack : i.mAck with
    | false =>
        rw [wbStep_hold hack]
        exact Or.inr ⟨hevict.state, hevict.noFlush, hevict.noActive, hline.trans hstays⟩
    | true =>
        cases hlast : c.fillIsLastWord cfg with
        | false =>
            rw [wbStep_word hack hlast]
            exact Or.inr ⟨hevict.state, hevict.noFlush, hevict.noActive, hline.trans hstays⟩
        | true =>
            apply Or.inl
            rw [memNext_ack hevict.state hack, hline]
            funext w
            exact LineMem.written_succ mem hevict.word hevict.written hevict.addr hevict.data w
              (last_word hevict.word hlast w)
  · apply Or.inl
    rw [memNext_of_ne hevict.word hevict.addr hline]
    rcases h e d he with hsettled | ⟨_, _, _, heq⟩
    · exact hsettled
    · exact absurd heq hline

theorem settled_drain (h : c.Settled cfg mem flat) (hinv : c.Inv cfg mem flat pend waiting)
    (hlegal : c.Legal pend i) (hsound : c.Sound cfg pend i) (hdrain : c.Drain cfg mem flat) :
    (c.step cfg i).Settled cfg (c.memNext cfg mem i) (c.flatNext cfg flat i) := by
  have hidle : c.state ≠ .idle := by simp [hdrain.state]
  have hvc : (c.step cfg i).vc = c.vc := by
    rw [step_wb hdrain.state]
    exact wbStep_vc hidle
  apply settled_still hvc
  intro e d he
  -- the line that is drained has left the buffer
  have hne : d.addr ≠ c.vwbTag := by
    intro heq
    have hslots := hinv.coherent.unique (copies_victim he) hdrain.leaving heq
    cases hslots
  rw [flatNext_wb hinv hlegal hsound hdrain.state, memNext_of_ne hdrain.word hdrain.addr hne]
  rcases h e d he with hsettled | ⟨_, _, hno, _⟩
  · exact hsettled
  · rw [hdrain.active] at hno
    cases hno

theorem fillStep_vc (hidle : c.state ≠ .idle) :
    (c.fillStep cfg i (c.common cfg i)).vc = c.vc := by
  have hcommon : (c.common cfg i).vc = c.vc := common_vc hidle
  unfold fillStep
  split
  · dsimp only
    split
    · split
      · exact hcommon
      · split <;> exact hcommon
    · exact hcommon
  · exact hcommon

theorem settled_fill (h : c.Settled cfg mem flat) (hinv : c.Inv cfg mem flat pend waiting)
    (hlegal : c.Legal pend i) (hsound : c.Sound cfg pend i) (hfill : c.Fill cfg flat) :
    (c.step cfg i).Settled cfg (c.memNext cfg mem i) (c.flatNext cfg flat i) := by
  have hidle : c.state ≠ .idle := by simp [hfill.state]
  have hvc : (c.step cfg i).vc = c.vc := by
    rw [step_fill hfill.state]
    exact fillStep_vc hidle
  apply settled_still hvc
  intro e d he
  have hsettled := h.of_not_wb (by simp [hfill.state]) he
  rw [memNext_of_not_wb (by simp [hfill.state]), hsettled]
  cases hnow : c.mshrCompleteNow cfg i with
  | false => rw [flatNext_fill_hold hinv hlegal hsound hfill.state hnow]
  | true =>
      have hne := (hinv.queued.unheld _ (head_mem hfill.busy)).right _ _ he
      rw [flatNext_complete hinv hlegal hsound hfill hnow, setAt_of_ne hne]

/-!
# Cycles of a flush
-/

theorem settled_scan (h : c.Settled cfg mem flat) (hlegal : c.Legal pend i)
    (hscan : c.Scan cfg) :
    (c.step cfg i).Settled cfg (c.memNext cfg mem i) (c.flatNext cfg flat i) := by
  have hwrite := (active_split (hlegal.quiet_of_flush hscan.flush)).right
  have hcommon : (c.common cfg i).vc = c.vc := common_vc (by simp [hscan.state])
  have hvc : (c.step cfg i).vc = c.vc := by
    rw [step_scan hscan.state]
    unfold flushScanStep flushAdvance
    split
    · exact hcommon
    · split <;> exact hcommon
  apply settled_still hvc
  intro e d he
  rw [memNext_of_not_wb (by simp [hscan.state]), flatNext_of_not_write hwrite]
  exact h.of_not_wb (by simp [hscan.state]) he

theorem settled_flushWb (h : c.Settled cfg mem flat) (hinv : c.Inv cfg mem flat pend waiting)
    (hlegal : c.Legal pend i) (hwb : c.FlushWb cfg mem flat) :
    (c.step cfg i).Settled cfg (c.memNext cfg mem i) (c.flatNext cfg flat i) := by
  have hwrite := (active_split (hlegal.quiet_of_flush hwb.flush)).right
  have hvc : (c.step cfg i).vc = c.vc := by
    rw [step_wb hwb.state]
    exact wbStep_vc (by simp [hwb.state])
  apply settled_still hvc
  intro e d he
  have hne : d.addr ≠ c.array.lineAddr cfg.toGeometry c.wbLine := by
    intro heq
    have hslots := hinv.coherent.unique (copies_victim he)
      (copies_way hwb.valid (by simp [hwb.dead])) heq
    cases hslots
  rw [memNext_of_ne hwb.word hwb.addr hne, flatNext_of_not_write hwrite]
  rcases h e d he with hsettled | ⟨_, hno, _⟩
  · exact hsettled
  · rw [hwb.flush] at hno
    cases hno

/--
If no exchange takes a dirty line, memory keeps having the lines of the buffer.
-/
theorem Settled.step (h : c.Settled cfg mem flat) (hinv : c.Inv cfg mem flat pend waiting)
    (hlegal : c.Legal pend i) (hsound : c.Sound cfg pend i) (hbacked : c.Backed cfg mem i)
    (hentries : cfg.victimEntries ≠ 0)
    (hclean : c.vcDoSwap cfg i = true -> c.array.dirty (c.victimLine cfg i) = false) :
    (c.step cfg i).Settled cfg (c.memNext cfg mem i) (c.flatNext cfg flat i) := by
  cases hinv.phase with
  | idle hstate hquiet =>
      cases hactive : i.cpu.active with
      | false => exact settled_idle_quiet h hsound hentries hstate hactive
      | true =>
          cases hmain : c.hitMain cfg i with
          | true => exact settled_hitMain h hinv hlegal hstate hactive hmain
          | false =>
              cases hvc : c.vcLookupHit cfg i with
              | true =>
                  apply settled_promote h hinv hlegal hbacked hstate hactive hmain hvc
                  apply hclean
                  unfold vcDoSwap
                  rw [hstate, hmain, hvc]
                  rfl
              | false =>
                  exact settled_miss h hinv hlegal hsound hbacked hentries hstate hquiet
                    hactive hmain hvc
  | hitRd hrd =>
      have hvc : (c.step cfg i).vc = c.vc := by
        rw [step_hitRd hrd.state]
        exact common_vc (by simp [hrd.state])
      apply settled_still hvc
      intro e d he
      rw [memNext_of_not_wb (by simp [hrd.state]), flatNext_hitRd hlegal hrd]
      exact h.of_not_wb (by simp [hrd.state]) he
  | evict hevict => exact settled_evict h hinv hlegal hsound hbacked hevict
  | drain hdrain => exact settled_drain h hinv hlegal hsound hdrain
  | fill hfill => exact settled_fill h hinv hlegal hsound hfill
  | scan hscan => exact settled_scan h hlegal hscan
  | flushWb hwb => exact settled_flushWb h hinv hlegal hwb

end DCache

namespace CacheSystem

variable {cfg : DCacheConfig} {s t : CacheSystem} {i : PortIn}

/-!
# Runs in which the buffer rests while nothing is asked
-/

/--
A legal cycle; without a request in it the victim buffer stands still.
-/
def Undisturbed (cfg : DCacheConfig) (s : CacheSystem) (i : PortIn) : Prop :=
  s.Legal i ∧ s.BufferStill cfg i

theorem buffered_inv (hone : cfg.mshrEntries = 1) (hsets : 1 <= cfg.setBits)
    (hreset : s.IsReset cfg)
    (hreach : ReachableWhen (CacheSystem.step cfg) (Undisturbed cfg) s t) :
    t.Inv cfg := by
  refine @invariant_of_reachableWhen _ _ _ _ (fun u => u.Inv cfg) s t
    (hreset.inv hsets (by omega)) ?_ hreach
  intro u i hu hcycle
  exact hu.step hcycle.left (sound_of_single hu hcycle.left hone (fun _ => hcycle.right))

theorem not_both_held (h : t.Inv cfg) (hidle : t.cache.state = .idle) {line e : Nat}
    (hvalid : t.cache.array.valid line = true) (he : e < cfg.victimEntries)
    (hentry : (t.cache.vc.entry e).valid = true) :
    t.cache.array.lineAddr cfg.toGeometry line ≠ (t.cache.vc.entry e).tag := by
  intro heq
  have hway := @DCache.copies_way cfg t.cache line hvalid (by simp [DCache.dead_idle hidle])
  have hvictim := DCache.copies_victim
    (@DCache.VictimCache.copyAt_valid cfg.toGeometry _ _ _ he hentry)
  have hslots := (DCache.Inv.coherent h).unique hway hvictim heq
  cases hslots

/--
A line that is dirty nowhere in the cache is in memory.
-/
theorem clean_in_memory (h : t.Inv cfg) {a : Nat}
    (hmain : forall line, t.cache.array.valid line = true -> t.cache.array.dirty line = true ->
      t.cache.array.lineAddr cfg.toGeometry line ≠ a)
    (hbuffer : forall e, e < cfg.victimEntries -> (t.cache.vc.entry e).valid = true ->
      (t.cache.vc.entry e).dirty = true -> (t.cache.vc.entry e).tag ≠ a)
    (hleaving : t.cache.vwbPending = true -> t.cache.vwbTag ≠ a) :
    lines cfg.toGeometry t.mem a = lines cfg.toGeometry t.flat a := by
  apply (DCache.Inv.coherent h).settled
  intro slot d hslot haddr
  cases hdirty : d.dirty with
  | false => rfl
  | true =>
      cases slot with
      | way line =>
          obtain ⟨hvalid, _, rfl⟩ := LineArray.copyAt_eq_some.mp hslot
          exact absurd haddr (hmain line hvalid hdirty)
      | victim e =>
          have hcopy : t.cache.vc.copyAt cfg.toGeometry cfg.victimEntries e = some d := hslot
          unfold VictimCache.copyAt at hcopy
          split at hcopy
          · next hcond =>
              cases hcopy
              exact absurd haddr (hbuffer e hcond.left hcond.right hdirty)
          · cases hcopy
      | leaving =>
          have hcopy : t.cache.leavingCopy cfg = some d := hslot
          unfold DCache.leavingCopy at hcopy
          split at hcopy
          · next hpending =>
              cases hcopy
              exact absurd haddr (hleaving hpending)
          · cases hcopy

/--
With a victim buffer that rests while nothing is asked, every load that is answered
gets the value of the answered stores, no line is valid both in the main array and in
the buffer of an idle cache, a line that is dirty nowhere in the cache has reached
memory, and every request is answered.
-/
theorem victimBuffer_refines_flat (hone : cfg.mshrEntries = 1) (hsets : 1 <= cfg.setBits)
    (hreset : s.IsReset cfg)
    (hreach : ReachableWhen (CacheSystem.step cfg) (Undisturbed cfg) s t) :
    (forall i, t.Legal i -> i.cpu.read = true -> t.respReady cfg i = true ->
      t.respRdata cfg i = Flat.load t.flat i.cpu.addr i.cpu.funct3) ∧
    (t.cache.state = .idle -> forall line e, t.cache.array.valid line = true ->
      e < cfg.victimEntries -> (t.cache.vc.entry e).valid = true ->
      t.cache.array.lineAddr cfg.toGeometry line ≠ (t.cache.vc.entry e).tag) ∧
    (forall a,
      (forall line, t.cache.array.valid line = true -> t.cache.array.dirty line = true ->
        t.cache.array.lineAddr cfg.toGeometry line ≠ a) ->
      (forall e, e < cfg.victimEntries -> (t.cache.vc.entry e).valid = true ->
        (t.cache.vc.entry e).dirty = true -> (t.cache.vc.entry e).tag ≠ a) ->
      (t.cache.vwbPending = true -> t.cache.vwbTag ≠ a) ->
      lines cfg.toGeometry t.mem a = lines cfg.toGeometry t.flat a) ∧
    (forall u i, u 0 = t -> IsRun (CacheSystem.step cfg) (Undisturbed cfg) u i -> Fair u i ->
      forall n, (i n).cpu.active = true ->
        exists m, n <= m ∧ (i m).cpu = (i n).cpu ∧ (u m).respReady cfg (i m) = true) := by
  have hinv := buffered_inv hone hsets hreset hreach
  refine ⟨?_, ?_, ?_, ?_⟩
  · intro i hlegal hread hready
    have hstill : t.BufferStill cfg i := by
      intro _ hidle
      rw [DCache.active_of_read hread] at hidle
      cases hidle
    have hsound := sound_of_single hinv hlegal hone (fun _ => hstill)
    exact hinv.read_value hlegal hsound hread hready
  · intro hidle line e hvalid he hentry
    exact not_both_held hinv hidle hvalid he hentry
  · intro a hmain hbuffer hleaving
    exact clean_in_memory hinv hmain hbuffer hleaving
  · intro u i hstart hrun hfair n
    have hall : forall k, (u k).Inv cfg := by
      intro k
      apply buffered_inv hone hsets hreset
      have hk := hrun.reachableWhen k
      rw [hstart] at hk
      exact Relation.ReflTransGen.trans hreach hk
    exact request_answered hrun hone hall (fun k => (hrun k).left.left) hfair

instance (cfg : DCacheConfig) (s : CacheSystem) (i : PortIn) : Decidable (s.BufferStill cfg i) :=
  inferInstanceAs (Decidable (_ -> _ -> _ ∧ _))

instance (cfg : DCacheConfig) (s : CacheSystem) (i : PortIn) : Decidable (Undisturbed cfg s i) :=
  inferInstanceAs (Decidable (_ ∧ _))

def smallBuffer : DCacheConfig :=
  { wayBits := 1, setBits := 1, wordBits := 1, policy := .roundRobin, victimEntries := 2
    mshrEntries := 1 }

/--
Two stores fill the set, a load of a third line moves one of them to the buffer, and
the next load brings it back.
-/
def promotingRun : List PortIn :=
  List.replicate 3 (storeWord 0 1) ++ List.replicate 3 (storeWord 16 5) ++
    List.replicate 5 (loadWord 32 true) ++ [loadWord 0 true]

theorem victimBuffer_refines_flat_promotingRun :
    exists t, ReachableWhen (CacheSystem.step smallBuffer) (Undisturbed smallBuffer)
        (initial (fun _ => 0)) t ∧
      t.respReady smallBuffer (loadWord 0 true) = true ∧
      t.respRdata smallBuffer (loadWord 0 true) = Flat.load t.flat 0 0b010 ∧
      Flat.load t.flat 0 0b010 = 1 := by
  have hreach := reachableWhen_run
    (show Along (CacheSystem.step smallBuffer) (Undisturbed smallBuffer) (initial (fun _ => 0))
        promotingRun
      by decide +kernel)
  refine ⟨_, hreach, by decide +kernel, ?_, by decide +kernel⟩
  have hall := victimBuffer_refines_flat rfl (by decide) (initial_isReset _ _) hreach
  exact hall.left (loadWord 0 true) (by decide +kernel) rfl (by decide +kernel)

/--
An idle cycle with a foreign address on the port copies a line of the main array into
the buffer.  After the line was stored to again and evicted, a load finds both copies
and gets the or of them.
-/
def disturbedRun : List PortIn :=
  List.replicate 3 (storeWord 0 1) ++ List.replicate 3 (storeWord 16 5) ++
    [noRequest 32 false, storeWord 0 2] ++ List.replicate 5 (loadWord 32 true) ++
    [loadWord 0 true]

theorem disturbedRun_loses_store :
    Along (CacheSystem.step smallBuffer) CacheSystem.Legal (initial (fun _ => 0)) disturbedRun ∧
      (run (CacheSystem.step smallBuffer) (initial (fun _ => 0)) disturbedRun).Legal
        (loadWord 0 true) ∧
      (run (CacheSystem.step smallBuffer) (initial (fun _ => 0)) disturbedRun).respReady
        smallBuffer (loadWord 0 true) = true ∧
      (run (CacheSystem.step smallBuffer) (initial (fun _ => 0)) disturbedRun).respRdata
        smallBuffer (loadWord 0 true) = 3 ∧
      Flat.load (run (CacheSystem.step smallBuffer) (initial (fun _ => 0)) disturbedRun).flat 0
        0b010 = 2 := by
  decide +kernel

/-!
# Flushes
-/

/--
No exchange moves a dirty line into the buffer.
-/
def CleanSwap (cfg : DCacheConfig) (s : CacheSystem) (i : PortIn) : Prop :=
  s.cache.vcDoSwap cfg (s.bus i) = true ->
    s.cache.array.dirty (s.cache.victimLine cfg (s.bus i)) = false

/--
The cycles in which nothing dirty gets into the buffer past memory: with one miss
register the buffer rests while nothing is asked, with several the cycle is sound.
-/
def CleanCycle (cfg : DCacheConfig) (s : CacheSystem) (i : PortIn) : Prop :=
  Undisturbed cfg s i ∧ (cfg.mshrEntries ≠ 1 -> s.Sound cfg i) ∧ s.CleanSwap cfg i

instance (cfg : DCacheConfig) (s : CacheSystem) (i : PortIn) : Decidable (CleanCycle cfg s i) :=
  inferInstanceAs (Decidable (_ ∧ (_ -> _) ∧ (_ -> _)))

theorem CleanCycle.sound (h : CleanCycle cfg t i) (hinv : t.Inv cfg) : t.Sound cfg i := by
  by_cases hone : cfg.mshrEntries = 1
  · exact sound_of_single hinv h.left.left hone (fun _ => h.left.right)
  · exact h.right.left hone

theorem settled_reachable (hregisters : 0 < cfg.mshrEntries) (hentries : cfg.victimEntries ≠ 0)
    (hsets : 1 <= cfg.setBits) (hreset : s.IsReset cfg)
    (hreach : ReachableWhen (CacheSystem.step cfg) (CleanCycle cfg) s t) :
    t.Inv cfg ∧ t.cache.Settled cfg (lines cfg.toGeometry t.mem)
      (lines cfg.toGeometry t.flat) := by
  refine @invariant_of_reachableWhen _ _ _ _
    (fun u => u.Inv cfg ∧ u.cache.Settled cfg (lines cfg.toGeometry u.mem)
      (lines cfg.toGeometry u.flat)) s t
    ⟨hreset.inv hsets hregisters, ?_⟩ ?_ hreach
  · intro e d _
    apply Or.inl
    rw [hreset.flat]
  · rintro u i ⟨hinv, hsettled⟩ hcycle
    have hlegal := hcycle.left.left
    have hsound := hcycle.sound hinv
    refine ⟨hinv.step hlegal hsound, ?_⟩
    rw [lines_mem_step hinv, lines_flat_step hlegal]
    exact hsettled.step hinv hlegal hsound hinv.backed hentries hcycle.right.right

/--
If in addition no exchange moves a dirty line into the buffer, the backing memory
equals the flat memory whenever a flush is done, whatever the number of miss registers.
-/
theorem victimBuffer_flush_durable (hregisters : 0 < cfg.mshrEntries)
    (hentries : 2 <= cfg.victimEntries) (hsets : 1 <= cfg.setBits) (hreset : s.IsReset cfg)
    (hreach : ReachableWhen (CacheSystem.step cfg) (CleanCycle cfg) s t)
    (hdone : t.cache.flushDone = true) :
    t.mem = t.flat := by
  obtain ⟨hinv, hsettled⟩ := settled_reachable hregisters (by omega) hsets hreset hreach
  apply hinv.flushed_mem hdone
  intro e d he
  have hidle := (DCache.Inv.flushed hinv hdone).left
  exact hsettled.of_not_wb (by simp [hidle]) he

def twoMissBuffer : DCacheConfig :=
  { smallBuffer with mshrEntries := 2 }

/--
Two loads that miss are outstanding together; the next one moves the stored line to the
buffer, which takes its writeback along, and the flush finds a line of the other set.
-/
def flushedRun : List PortIn :=
  List.replicate 3 (storeWord 0 1) ++ [loadWord 16 true, loadWord 32 true] ++
    List.replicate 3 (noRequest 32 false) ++ [loadWord 48 true] ++
    List.replicate 4 (noRequest 48 false) ++ List.replicate 3 (storeWord 8 5) ++
    [noRequest 48 true] ++ List.replicate 6 (noRequest 48 false)

theorem victimBuffer_flush_durable_flushedRun :
    exists t, ReachableWhen (CacheSystem.step twoMissBuffer) (CleanCycle twoMissBuffer)
        (initial (fun _ => 0)) t ∧
      t.cache.flushDone = true ∧ t.mem = t.flat ∧ t.mem 0 = 1 ∧ t.mem 8 = 5 := by
  have hreach := reachableWhen_run
    (show Along (CacheSystem.step twoMissBuffer) (CleanCycle twoMissBuffer)
        (initial (fun _ => 0)) flushedRun
      by decide +kernel)
  exact ⟨_, hreach, by decide +kernel,
    victimBuffer_flush_durable (by decide) (by decide) (by decide) (initial_isReset _ _) hreach
      (by decide +kernel),
    by decide +kernel, by decide +kernel⟩

/--
The exchange of the promoting run takes a dirty line, and the flush does not see it.
-/
theorem promotingRun_flush_incomplete :
    let flushes := promotingRun ++ [loadWord 0 true, noRequest 0 true] ++
      List.replicate 6 (noRequest 0 false)
    let t := run (CacheSystem.step smallBuffer) (initial (fun _ => 0)) flushes
    Along (CacheSystem.step smallBuffer) CacheSystem.Legal (initial (fun _ => 0)) flushes ∧
      t.cache.flushDone = true ∧ t.mem 16 = 0 ∧ t.flat 16 = 5 := by
  decide +kernel

end CacheSystem
end Cache
end RvCores
