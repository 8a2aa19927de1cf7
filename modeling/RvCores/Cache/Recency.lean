import RvCores.Cache.Blocking
import RvCores.Cache.Hierarchy
import RvCores.Lib.Recency

/-!
# Least recently used

An access touches the way whose line it reads or writes, and a fill the way that it
completes.  The ages of a set rank its ways by their last touch, in every run from reset,
whatever the inputs are, as long as no load hits in the data cache under a miss: such a
load is served, but the ages do not see it.
-/

namespace RvCores
namespace Cache

open Lib

/-!
# The ages of a set
-/

/--
The touches of one set.
-/
def setTouch (touch : Nat -> Option (Nat × Nat)) (set n : Nat) : Option Nat :=
  match touch n with
  | some (s, way) => if s = set then some way else none
  | none => none

theorem setTouch_eq_some {touch : Nat -> Option (Nat × Nat)} {set n way : Nat} :
    setTouch touch set n = some way <-> touch n = some (set, way) := by
  unfold setTouch
  cases touch n with
  | none => simp
  | some k =>
      obtain ⟨s, w⟩ := k
      by_cases hset : s = set
      · simp [hset]
      · simp [hset]

def SetsRanked (g : Geometry) (arr : LineArray) (touch : Nat -> Option (Nat × Nat)) (n : Nat) :
    Prop :=
  forall set, Ranked g.ways (setTouch touch set) n (fun way => arr.age (set, way))

section

variable {g : Geometry} {arr arr' : LineArray} {touch : Nat -> Option (Nat × Nat)} {n : Nat}

theorem setsRanked_reset (h : arr.IsReset g) : SetsRanked g arr touch 0 := by
  intro set
  exact ranked_start (h.age set)

theorem SetsRanked.step (h : SetsRanked g arr touch n)
    (hway : forall set way, touch n = some (set, way) -> way < g.ways)
    (hage : arr'.age =
      match touch n with
      | some (set, way) => arr.lruTouch g set way
      | none => arr.age) :
    SetsRanked g arr' touch (n + 1) := by
  intro set
  cases htouch : touch n with
  | none =>
      rw [htouch] at hage
      apply (h set).after_rest
      · intro way _ hsome
        rw [setTouch_eq_some, htouch] at hsome
        cases hsome
      · intro way _
        rw [hage]
  | some k =>
      obtain ⟨s, w⟩ := k
      rw [htouch] at hage
      by_cases hset : s = set
      · subst hset
        apply (h s).after_touch (hway s w htouch) (setTouch_eq_some.mpr htouch)
        intro way hlt
        rw [hage]
        simp [LineArray.lruTouch, touched, hlt]
      · apply (h set).after_rest
        · intro way _ hsome
          rw [setTouch_eq_some, htouch, Option.some.injEq, Prod.mk.injEq] at hsome
          exact hset hsome.left
        · intro way _
          rw [hage]
          simp [LineArray.lruTouch, Ne.symm hset]

/--
The OR of the matching way numbers is the oldest way.
-/
theorem SetsRanked.victim_iff (h : SetsRanked g arr touch n) (hpolicy : g.policy = .lru)
    {set way : Nat} (hway : way < g.ways) :
    arr.age (set, way) = g.ways - 1 <-> way = arr.victimTargetWay g set := by
  have hlast : g.ways - 1 < g.ways := Nat.sub_lt g.ways_pos Nat.one_pos
  obtain ⟨old, ⟨hold, hage⟩, hunique⟩ := (h set).existsUnique hlast
  have htarget : arr.victimTargetWay g set = old := by
    unfold LineArray.victimTargetWay LineArray.lruWayIdx
    rw [if_pos hpolicy]
    apply orNat_of_unique hold
    · exact beq_iff_eq.mpr hage
    · intro j hj hjAge
      exact hunique j ⟨hj, beq_iff_eq.mp hjAge⟩
  rw [htarget]
  constructor
  · intro hway'
    exact hunique way ⟨hway, hway'⟩
  · intro heq
    rw [heq]
    exact hage

/--
What true replacement of the least recently used way means for a set.
-/
structure TrueLru (g : Geometry) (arr : LineArray) (touch : Nat -> Option Nat) (n set : Nat) :
    Prop where
  range : forall way, way < g.ways -> arr.age (set, way) < g.ways
  permutation : forall a, a < g.ways -> ∃! way, way < g.ways ∧ arr.age (set, way) = a
  oldest : forall way, way < g.ways ->
    (arr.age (set, way) = g.ways - 1 <->
      forall other, other < g.ways -> other ≠ way -> MoreRecent touch n other way)
  victim : forall way, way < g.ways ->
    (arr.age (set, way) = g.ways - 1 <-> way = arr.victimTargetWay g set)

theorem SetsRanked.trueLru (h : SetsRanked g arr touch n) (hpolicy : g.policy = .lru)
    (set : Nat) : TrueLru g arr (setTouch touch set) n set where
  range := (h set).lt
  permutation _ ha := (h set).existsUnique ha
  oldest _ hway := (h set).oldest_iff hway
  victim _ hway := h.victim_iff hpolicy hway

theorem victimTargetWay_lt_of_lru (hpolicy : g.policy = .lru) (set : Nat) :
    arr.victimTargetWay g set < g.ways := by
  unfold LineArray.victimTargetWay
  rw [if_pos hpolicy]
  exact orNat_lt_two_pow (fun k hk => hk)

end

/-!
# The second level
-/

namespace L2Cache

variable {g : Geometry} {c : L2Cache} {i : L2In}

def touchedLine (g : Geometry) (c : L2Cache) (i : L2In) : Nat :=
  if c.state = .idle then c.hitLineIdx g i else c.hitLine

def fillEnds (g : Geometry) (c : L2Cache) (i : L2In) : Bool :=
  c.state == .fill && i.mAck && c.fillIsLastWord g

/--
The set and the way that are touched in a cycle.
-/
def touch (g : Geometry) (c : L2Cache) (i : L2In) : Option (Nat × Nat) :=
  if c.accessHit g i then some (g.setOf (c.touchedLine g i), g.wayOf (c.touchedLine g i))
  else if c.fillEnds g i then some (c.miss.set, c.miss.way)
  else none

/--
The set and the way whose line an access answered in this cycle reads or writes; in the
last cycle of a fill, those that it completes.
-/
def servedAccess (g : Geometry) (c : L2Cache) (i : L2In) : Option (Nat × Nat) :=
  match c.state with
  | .idle =>
      if i.uWe && c.uAck g i then
        some (g.setOf (c.hitLineIdx g i), g.wayOf (c.hitLineIdx g i))
      else none
  | .hitRd => if c.uAck g i then some (g.setOf c.hitLine, g.wayOf c.hitLine) else none
  | .fill => if i.mAck && c.fillIsLastWord g then some (c.miss.set, c.miss.way) else none
  | _ => none

theorem servedAccess_eq : c.servedAccess g i = c.touch g i := by
  unfold servedAccess touch
  cases hstate : c.state with
  | idle =>
      have hserved : (i.uWe && c.uAck g i) = c.accessHit g i := by
        simp only [uAck, accessHit, hitAnswers, fillAnswers, hstate]
        cases i.uWe <;> simp
      have hends : c.fillEnds g i = false := by simp [fillEnds, hstate]
      simp only [hserved, hends, touchedLine, hstate, if_true, Bool.false_eq_true, if_false]
  | hitRd =>
      have hserved : c.uAck g i = c.accessHit g i := by
        simp [uAck, accessHit, fillAnswers, hstate]
      have hends : c.fillEnds g i = false := by simp [fillEnds, hstate]
      simp [hserved, hends, touchedLine, hstate]
  | fill =>
      have hhit : c.accessHit g i = false := by simp [accessHit, hitAnswers, hstate]
      simp [hhit, fillEnds, hstate]
  | probeWait => simp [accessHit, hitAnswers, fillEnds, hstate]
  | wb => simp [accessHit, hitAnswers, fillEnds, hstate]
  | flushScan => simp [accessHit, hitAnswers, fillEnds, hstate]

section Handlers

variable (next : L2Cache)

theorem idleStep_age : (c.idleStep g i next).array.age = next.array.age := by
  unfold idleStep writeHit readHit startMiss
  repeat' split
  all_goals rfl

theorem probeStep_age : (c.probeStep i next).array.age = next.array.age := by
  unfold probeStep
  split <;> rfl

theorem flushAdvance_age : (c.flushAdvance g next).array.age = next.array.age := by
  unfold flushAdvance
  split <;> rfl

theorem wbStep_age : (c.wbStep g i next).array.age = next.array.age := by
  unfold wbStep
  split
  · split
    · simp only
      split
      · exact flushAdvance_age _
      · rfl
    · rfl
  · rfl

theorem flushScanStep_age : (c.flushScanStep g next).array.age = next.array.age := by
  unfold flushScanStep
  split
  · rfl
  · exact flushAdvance_age next

theorem fillStep_age (hpolicy : g.policy = .lru) :
    (c.fillStep g i next).array.age =
      if i.mAck && c.fillIsLastWord g then c.array.lruTouch g c.miss.set c.miss.way
      else next.array.age := by
  unfold fillStep
  cases i.mAck <;> cases c.fillIsLastWord g <;> simp [hpolicy]

end Handlers

theorem touchedAge_eq (hpolicy : g.policy = .lru) :
    c.touchedAge g i =
      if c.accessHit g i then
        c.array.lruTouch g (g.setOf (c.touchedLine g i)) (g.wayOf (c.touchedLine g i))
      else c.array.age := by
  unfold touchedAge touchedLine
  simp only [hpolicy, true_and]

/--
What the touch of a cycle does to the ages.
-/
def agedBy (g : Geometry) (c : L2Cache) (i : L2In) : Nat × Nat -> Nat :=
  match c.touch g i with
  | some (set, way) => c.array.lruTouch g set way
  | none => c.array.age

theorem agedBy_of_hit (hpolicy : g.policy = .lru) (hfill : c.state ≠ .fill) :
    c.agedBy g i = c.touchedAge g i := by
  have hends : c.fillEnds g i = false := by simp [fillEnds, hfill]
  rw [touchedAge_eq hpolicy]
  unfold agedBy touch
  cases c.accessHit g i <;> simp [hends]

theorem agedBy_of_fill (hfill : c.state = .fill) :
    c.agedBy g i =
      if i.mAck && c.fillIsLastWord g then c.array.lruTouch g c.miss.set c.miss.way
      else c.array.age := by
  have hhit : c.accessHit g i = false := by simp [accessHit, hitAnswers, hfill]
  have hends : c.fillEnds g i = (i.mAck && c.fillIsLastWord g) := by simp [fillEnds, hfill]
  unfold agedBy touch
  rw [hhit, hends]
  cases i.mAck && c.fillIsLastWord g <;> rfl

theorem step_age (hpolicy : g.policy = .lru) : (c.step g i).array.age = c.agedBy g i := by
  have hcommon : (c.common g i).array.age = c.touchedAge g i := rfl
  have hquiet : c.state ≠ .fill -> (c.common g i).array.age = c.agedBy g i := by
    intro hfill
    rw [hcommon, agedBy_of_hit hpolicy hfill]
  cases hstate : c.state with
  | idle =>
      have hstep : c.step g i = c.idleStep g i (c.common g i) := by simp [step, hstate]
      rw [hstep, idleStep_age, hquiet (by simp [hstate])]
  | hitRd =>
      have hstep : c.step g i = { c.common g i with state := .idle } := by simp [step, hstate]
      rw [hstep, ← hquiet (by simp [hstate])]
  | probeWait =>
      have hstep : c.step g i = c.probeStep i (c.common g i) := by simp [step, hstate]
      rw [hstep, probeStep_age, hquiet (by simp [hstate])]
  | wb =>
      have hstep : c.step g i = c.wbStep g i (c.common g i) := by simp [step, hstate]
      rw [hstep, wbStep_age, hquiet (by simp [hstate])]
  | flushScan =>
      have hstep : c.step g i = c.flushScanStep g (c.common g i) := by simp [step, hstate]
      rw [hstep, flushScanStep_age, hquiet (by simp [hstate])]
  | fill =>
      have hstep : c.step g i = c.fillStep g i (c.common g i) := by simp [step, hstate]
      have hhit : c.accessHit g i = false := by simp [accessHit, hitAnswers, hstate]
      rw [hstep, fillStep_age _ hpolicy, hcommon, touchedAge_eq hpolicy, hhit,
        agedBy_of_fill hstate]
      rfl

def missUnderWay (c : L2Cache) : Bool :=
  match c.state with
  | .probeWait => true
  | .fill => true
  | .wb => !c.wbReturnToFlush
  | _ => false

def MissWay (g : Geometry) (c : L2Cache) : Prop :=
  c.missUnderWay = true -> c.miss.way < g.ways

theorem MissWay.of_idle {next : L2Cache} (h : next.missUnderWay = false) : MissWay g next := by
  intro hbusy
  rw [h] at hbusy
  cases hbusy

theorem missWay_flushAdvance {next : L2Cache} : MissWay g (c.flushAdvance g next) := by
  apply MissWay.of_idle
  unfold flushAdvance
  split <;> rfl

theorem MissWay.step (h : MissWay g c) (hpolicy : g.policy = .lru) : MissWay g (c.step g i) := by
  have hmiss : (c.common g i).miss = c.miss := rfl
  have hstill : (c.common g i).state = c.state := rfl
  cases hstate : c.state with
  | idle =>
      have hstep : c.step g i = c.idleStep g i (c.common g i) := by simp [L2Cache.step, hstate]
      rw [hstep]
      unfold idleStep
      split
      · exact MissWay.of_idle rfl
      · split
        · split
          · split
            · exact MissWay.of_idle (by simp [writeHit, missUnderWay, hstill, hstate])
            · exact MissWay.of_idle rfl
          · have hway : (c.missEntry g i).way < g.ways := victimTargetWay_lt_of_lru hpolicy _
            unfold startMiss
            split <;> exact fun _ => hway
        · exact MissWay.of_idle (by simp [missUnderWay, hstill, hstate])
  | hitRd =>
      have hstep : c.step g i = { c.common g i with state := .idle } := by
        simp [L2Cache.step, hstate]
      rw [hstep]
      exact MissWay.of_idle rfl
  | probeWait =>
      have hstep : c.step g i = c.probeStep i (c.common g i) := by simp [L2Cache.step, hstate]
      have hway : c.miss.way < g.ways := h (by simp [missUnderWay, hstate])
      rw [hstep]
      unfold probeStep
      split <;> exact fun _ => hway
  | wb =>
      have hstep : c.step g i = c.wbStep g i (c.common g i) := by simp [L2Cache.step, hstate]
      rw [hstep]
      unfold wbStep
      split
      · split
        · simp only
          split
          · exact missWay_flushAdvance
          · next hreturn =>
              have hway : c.miss.way < g.ways := h (by simpa [missUnderWay, hstate] using hreturn)
              exact fun _ => hway
        · have hreturn : (c.common g i).wbReturnToFlush = c.wbReturnToFlush := rfl
          exact fun hbusy => h (by simpa [missUnderWay, hstate, hstill, hreturn] using hbusy)
      · exact h
  | flushScan =>
      have hstep : c.step g i = c.flushScanStep g (c.common g i) := by
        simp [L2Cache.step, hstate]
      rw [hstep]
      unfold flushScanStep
      split
      · exact MissWay.of_idle rfl
      · exact missWay_flushAdvance
  | fill =>
      have hstep : c.step g i = c.fillStep g i (c.common g i) := by simp [L2Cache.step, hstate]
      have hway : c.miss.way < g.ways := h (by simp [missUnderWay, hstate])
      rw [hstep]
      unfold fillStep
      split
      · simp only
        split <;> exact fun _ => hway
      · exact fun _ => hway

theorem missWay_reset (h : c.IsReset g) : MissWay g c :=
  MissWay.of_idle (by simp [missUnderWay, h.state])

theorem touch_lt (h : MissWay g c) {set way : Nat} (htouch : c.touch g i = some (set, way)) :
    way < g.ways := by
  unfold touch at htouch
  split at htouch
  · rw [Option.some.injEq, Prod.mk.injEq] at htouch
    rw [← htouch.right]
    exact g.wayOf_lt _
  · split at htouch
    · next hends =>
        have hfill : c.state = .fill := by
          simp only [fillEnds, Bool.and_eq_true, beq_iff_eq] at hends
          exact hends.left.left
        rw [Option.some.injEq, Prod.mk.injEq] at htouch
        rw [← htouch.right]
        exact h (by simp [missUnderWay, hfill])
    · cases htouch

end L2Cache

/-!
# The data cache
-/

namespace DCache

variable {cfg : DCacheConfig} {c : DCache} {i : DCacheIn}

def touchedWay (cfg : DCacheConfig) (c : DCache) (i : DCacheIn) : Nat :=
  if c.state = .idle then
    if c.hitMain cfg i then cfg.wayOf (c.hitLineIdx cfg i) else c.victimTargetWay cfg i
  else cfg.wayOf c.hitLine

def touchedSet (cfg : DCacheConfig) (c : DCache) (i : DCacheIn) : Nat :=
  if c.state = .idle then
    if c.hitMain cfg i then cfg.setOf (c.hitLineIdx cfg i) else cfg.setIdx i.cpu.addr
  else cfg.setOf c.hitLine

/--
The set and the way that are touched in a cycle.
-/
def touch (cfg : DCacheConfig) (c : DCache) (i : DCacheIn) : Option (Nat × Nat) :=
  if c.accessHit cfg i then some (c.touchedSet cfg i, c.touchedWay cfg i)
  else if c.mshrCompleteNow cfg i then some (c.head.set, c.head.way)
  else none

/--
The set and the way of the main array whose line an access reads or writes in this
cycle.  A store does so when it is answered, a load when its word is put out; a load
that hits under a miss reads the word in the cycle before.  In the last cycle of a fill
it is the way that the fill completes.
-/
def servedAccess (cfg : DCacheConfig) (c : DCache) (i : DCacheIn) : Option (Nat × Nat) :=
  let found := some (cfg.setOf (c.hitLineIdx cfg i), cfg.wayOf (c.hitLineIdx cfg i))
  match c.state with
  | .idle =>
      if i.cpu.write && c.respReady cfg i then
        if c.hitMain cfg i then found else some (cfg.setIdx i.cpu.addr, c.victimTargetWay cfg i)
      else none
  | .hitRd =>
      if c.respReady cfg i then some (cfg.setOf c.hitLine, cfg.wayOf c.hitLine) else none
  | .wb => if c.mshrBusyDispatchHit cfg i then found else none
  | .fill =>
      if i.mAck && c.fillIsLastWord cfg then some (c.head.set, c.head.way)
      else if c.mshrBusyDispatchHit cfg i then found
      else none
  | .flushScan => none

theorem servedAccess_eq (hunder : c.mshrBusyDispatchHit cfg i = false)
    (hhu : c.huPending = false) :
    c.servedAccess cfg i = c.touch cfg i := by
  unfold servedAccess touch
  cases hstate : c.state with
  | idle =>
      have hserved : (i.cpu.write && c.respReady cfg i) = c.accessHit cfg i := by
        simp only [respReady, accessHit, hitAnswers, fillAnswers, mshrCompleteNow, hstate, hhu]
        cases i.cpu.write <;> simp
      have hends : c.mshrCompleteNow cfg i = false := by simp [mshrCompleteNow, hstate]
      simp only [hserved, hends, touchedSet, touchedWay, hstate, if_true]
      cases c.hitMain cfg i <;> simp
  | hitRd =>
      have hserved : c.respReady cfg i = c.accessHit cfg i := by
        have hidle : (CacheState.hitRd == CacheState.idle) = false := rfl
        have hfill : (CacheState.hitRd == CacheState.fill) = false := rfl
        simp [respReady, accessHit, fillAnswers, mshrCompleteNow, hstate, hhu, hidle, hfill]
      have hends : c.mshrCompleteNow cfg i = false := by simp [mshrCompleteNow, hstate]
      simp [hserved, hends, touchedSet, touchedWay, hstate]
  | wb => simp [hunder, accessHit, hitAnswers, mshrCompleteNow, hstate]
  | fill =>
      have hhit : c.accessHit cfg i = false := by simp [accessHit, hitAnswers, hstate]
      simp [hunder, hhit, mshrCompleteNow, hstate]
  | flushScan => simp [accessHit, hitAnswers, mshrCompleteNow, hstate]

section Handlers

variable (next : DCache)

theorem idleStep_age : (c.idleStep cfg i next).array.age = next.array.age := by
  unfold idleStep writeHit promote toHitRd miss
  repeat' split
  all_goals rfl

theorem flushAdvance_age : (c.flushAdvance cfg next).array.age = next.array.age := by
  unfold flushAdvance
  split <;> rfl

theorem wbStep_age : (c.wbStep cfg i next).array.age = next.array.age := by
  unfold wbStep
  split
  · split
    · split
      · rfl
      · simp only
        split
        · exact flushAdvance_age _
        · split <;> rfl
    · rfl
  · rfl

theorem flushScanStep_age : (c.flushScanStep cfg next).array.age = next.array.age := by
  unfold flushScanStep
  split
  · rfl
  · exact flushAdvance_age next

theorem fillStep_age (hpolicy : cfg.policy = .lru) :
    (c.fillStep cfg i next).array.age =
      if i.mAck && c.fillIsLastWord cfg then
        c.array.lruTouch cfg.toGeometry c.head.set c.head.way
      else next.array.age := by
  unfold fillStep
  cases i.mAck with
  | false => rfl
  | true =>
      cases c.fillIsLastWord cfg with
      | false => rfl
      | true =>
          simp only [hpolicy, if_true, Bool.and_self]
          split
          · rfl
          · split <;> rfl

end Handlers

theorem touchedAge_eq (hpolicy : cfg.policy = .lru) :
    c.touchedAge cfg i =
      if c.accessHit cfg i then
        c.array.lruTouch cfg.toGeometry (c.touchedSet cfg i) (c.touchedWay cfg i)
      else c.array.age := by
  unfold touchedAge touchedSet touchedWay
  simp only [hpolicy, true_and]

/--
What the touch of a cycle does to the ages.
-/
def agedBy (cfg : DCacheConfig) (c : DCache) (i : DCacheIn) : Nat × Nat -> Nat :=
  match c.touch cfg i with
  | some (set, way) => c.array.lruTouch cfg.toGeometry set way
  | none => c.array.age

theorem agedBy_of_hit (hpolicy : cfg.policy = .lru) (hfill : c.state ≠ .fill) :
    c.agedBy cfg i = c.touchedAge cfg i := by
  have hends : c.mshrCompleteNow cfg i = false := by simp [mshrCompleteNow, hfill]
  rw [touchedAge_eq hpolicy]
  unfold agedBy touch
  cases c.accessHit cfg i <;> simp [hends]

theorem agedBy_of_fill (hfill : c.state = .fill) :
    c.agedBy cfg i =
      if i.mAck && c.fillIsLastWord cfg then
        c.array.lruTouch cfg.toGeometry c.head.set c.head.way
      else c.array.age := by
  have hhit : c.accessHit cfg i = false := by simp [accessHit, hitAnswers, hfill]
  have hends : c.mshrCompleteNow cfg i = (i.mAck && c.fillIsLastWord cfg) := by
    simp [mshrCompleteNow, hfill]
  unfold agedBy touch
  rw [hhit, hends]
  cases i.mAck && c.fillIsLastWord cfg <;> rfl

theorem step_age (hpolicy : cfg.policy = .lru) :
    (c.step cfg i).array.age = c.agedBy cfg i := by
  have hcommon : (c.common cfg i).array.age = c.touchedAge cfg i := rfl
  have hquiet : c.state ≠ .fill -> (c.common cfg i).array.age = c.agedBy cfg i := by
    intro hfill
    rw [hcommon, agedBy_of_hit hpolicy hfill]
  cases hstate : c.state with
  | idle =>
      have hstep : c.step cfg i = c.idleStep cfg i (c.common cfg i) := by simp [step, hstate]
      rw [hstep, idleStep_age, hquiet (by simp [hstate])]
  | hitRd =>
      have hstep : c.step cfg i = { c.common cfg i with state := .idle } := by
        simp [step, hstate]
      rw [hstep, ← hquiet (by simp [hstate])]
  | wb =>
      have hstep : c.step cfg i = c.wbStep cfg i (c.common cfg i) := by simp [step, hstate]
      rw [hstep, wbStep_age, hquiet (by simp [hstate])]
  | flushScan =>
      have hstep : c.step cfg i = c.flushScanStep cfg (c.common cfg i) := by
        simp [step, hstate]
      rw [hstep, flushScanStep_age, hquiet (by simp [hstate])]
  | fill =>
      have hstep : c.step cfg i = c.fillStep cfg i (c.common cfg i) := by simp [step, hstate]
      have hhit : c.accessHit cfg i = false := by simp [accessHit, hitAnswers, hstate]
      rw [hstep, fillStep_age _ hpolicy, hcommon, touchedAge_eq hpolicy, hhit,
        agedBy_of_fill hstate]
      rfl

/-!
# The miss queue

The entries from head to tail were made by requests, so their ways are ways; a fill works
on the head, and there is one.
-/

structure MissQueue (cfg : DCacheConfig) (mshr : Nat -> Mshr) (head tail count : Nat) : Prop where
  tail : tail = (nextSlot cfg)^[count] head
  way : forall k, k < count -> (mshr ((nextSlot cfg)^[k] head)).way < cfg.ways

section

variable {mshr : Nat -> Mshr} {head tail count : Nat}

theorem MissQueue.release (h : MissQueue cfg mshr head tail count) (hpos : 0 < count) :
    MissQueue cfg (modifyAt mshr head fun m => { m with valid := false }) (nextSlot cfg head)
      tail (count - 1) := by
  have hcount : count - 1 + 1 = count := Nat.sub_add_cancel hpos
  constructor
  · rw [← Function.iterate_succ_apply, Nat.succ_eq_add_one, hcount]
    exact h.tail
  · intro k hk
    rw [← Function.iterate_succ_apply]
    have hway := h.way (k + 1) (by omega)
    unfold modifyAt
    split <;> exact hway

theorem MissQueue.allocate (h : MissQueue cfg mshr head tail count) {m : Mshr}
    (hm : m.way < cfg.ways) :
    MissQueue cfg (setAt mshr tail m) head (nextSlot cfg tail) (count + 1) := by
  constructor
  · rw [h.tail]
    exact (Function.iterate_succ_apply' (nextSlot cfg) count head).symm
  · intro k hk
    rw [setAt_apply]
    split
    · exact hm
    · next hslot =>
        apply h.way k
        rcases Nat.lt_succ_iff_lt_or_eq.mp hk with hlt | heq
        · exact hlt
        · rw [heq, ← h.tail] at hslot
          exact absurd rfl hslot

end

def fillUnderWay (c : DCache) : Bool :=
  match c.state with
  | .fill => true
  | .wb => c.vwbActive || !c.wbReturnToFlush
  | _ => false

structure MissWays (cfg : DCacheConfig) (c : DCache) : Prop where
  queue : MissQueue cfg c.mshr c.mshrHead c.mshrTail c.mshrCount
  busy : c.fillUnderWay = true -> 0 < c.mshrCount
  victim : c.vwbActive = true -> c.state = .wb

theorem missWays_reset (h : c.IsReset cfg) : MissWays cfg c where
  queue := by
    rw [h.mshrCount, h.mshrHead, h.mshrTail]
    exact ⟨rfl, fun k hk => absurd hk (Nat.not_lt_zero k)⟩
  busy hbusy := by simp [fillUnderWay, h.state] at hbusy
  victim hactive := by
    rw [h.vwbActive] at hactive
    cases hactive

theorem MissWays.head_lt (h : MissWays cfg c) (hbusy : c.fillUnderWay = true) :
    c.head.way < cfg.ways :=
  h.queue.way 0 (h.busy hbusy)

theorem missEntry_way (hpolicy : cfg.policy = .lru) (isWrite : Bool) (wdata : Isa.Word)
    (earlyRetired : Bool) : (c.missEntry cfg i isWrite wdata earlyRetired).way < cfg.ways :=
  victimTargetWay_lt_of_lru hpolicy _

theorem MissWays.common_queue (h : MissWays cfg c) (hpolicy : cfg.policy = .lru) :
    MissQueue cfg (c.mshrNext cfg i) (c.common cfg i).mshrHead (c.common cfg i).mshrTail
      (c.common cfg i).mshrCount := by
  have hreleased : MissQueue cfg
      (if c.mshrCompleteNow cfg i then
        modifyAt c.mshr c.mshrHead (fun m => { m with valid := false })
      else c.mshr)
      (if c.mshrCompleteNow cfg i then nextSlot cfg c.mshrHead else c.mshrHead) c.mshrTail
      (if c.mshrCompleteNow cfg i then c.mshrCount - 1 else c.mshrCount) := by
    cases hends : c.mshrCompleteNow cfg i with
    | false => exact h.queue
    | true =>
        have hfill : c.state = .fill := by
          simp only [mshrCompleteNow, Bool.and_eq_true, beq_iff_eq] at hends
          exact hends.left.left
        exact h.queue.release (h.busy (by simp [fillUnderWay, hfill]))
  unfold common mshrNext mshrCountAfterComplete
  cases hmiss : c.mshrBusyDispatchMiss cfg i with
  | false => exact hreleased
  | true => exact hreleased.allocate (missEntry_way hpolicy false 0 true)

theorem common_count_of_not_fill (hfill : c.state ≠ .fill) :
    c.mshrCount <= (c.common cfg i).mshrCount := by
  have hends : c.mshrCompleteNow cfg i = false := by simp [mshrCompleteNow, hfill]
  simp [common, mshrCountAfterComplete, hends]

section Handlers

variable {next : DCache}

theorem MissWays.idle (hqueue : MissQueue cfg next.mshr next.mshrHead next.mshrTail next.mshrCount)
    (hbusy : next.fillUnderWay = false) (hvictim : next.vwbActive = false) :
    MissWays cfg next where
  queue := hqueue
  busy h := by
    rw [hbusy] at h
    cases h
  victim h := by
    rw [hvictim] at h
    cases h

theorem missWays_flushAdvance
    (hqueue : MissQueue cfg next.mshr next.mshrHead next.mshrTail next.mshrCount)
    (hvictim : next.vwbActive = false) : MissWays cfg (c.flushAdvance cfg next) := by
  unfold flushAdvance
  split <;> exact MissWays.idle hqueue rfl hvictim

theorem missWays_miss (hpolicy : cfg.policy = .lru)
    (hqueue : MissQueue cfg next.mshr next.mshrHead c.mshrTail c.mshrCount) :
    MissWays cfg (c.miss cfg i next) := by
  have hallocated := hqueue.allocate
    (missEntry_way (c := c) (i := i) hpolicy i.cpu.write i.cpu.wdata (c.mshrFreshLoadMiss cfg i))
  have hpos : 0 < c.mshrCount + 1 := Nat.succ_pos _
  unfold miss
  simp only
  split
  · exact ⟨hallocated, fun _ => hpos, fun _ => rfl⟩
  · split
    · exact ⟨hallocated, fun _ => hpos, fun _ => rfl⟩
    · exact ⟨hallocated, fun _ => hpos, fun h => absurd h (by simp)⟩

theorem missWays_idleStep (hpolicy : cfg.policy = .lru) (hstate : next.state = .idle)
    (hvictim : next.vwbActive = false)
    (hqueue : MissQueue cfg next.mshr next.mshrHead next.mshrTail next.mshrCount)
    (htail : next.mshrTail = c.mshrTail) (hcount : next.mshrCount = c.mshrCount) :
    MissWays cfg (c.idleStep cfg i next) := by
  have hidle : next.fillUnderWay = false := by simp [fillUnderWay, hstate]
  unfold idleStep
  split
  · exact MissWays.idle hqueue rfl hvictim
  · split
    · split
      · split
        · exact MissWays.idle hqueue hidle hvictim
        · exact MissWays.idle hqueue rfl hvictim
      · split
        · split
          · exact MissWays.idle hqueue hidle hvictim
          · exact MissWays.idle hqueue rfl hvictim
        · apply missWays_miss hpolicy
          rw [← htail, ← hcount]
          exact hqueue
    · exact MissWays.idle hqueue hidle hvictim

theorem missWays_wbStep (hstate : next.state = .wb) (hwb : c.state = .wb)
    (hactive : next.vwbActive = c.vwbActive) (hreturn : next.wbReturnToFlush = c.wbReturnToFlush)
    (hqueue : MissQueue cfg next.mshr next.mshrHead next.mshrTail next.mshrCount)
    (hbusy : c.fillUnderWay = true -> 0 < next.mshrCount) :
    MissWays cfg (c.wbStep cfg i next) := by
  have hunder : c.fillUnderWay = (c.vwbActive || !c.wbReturnToFlush) := by
    simp [fillUnderWay, hwb]
  rw [hunder] at hbusy
  have hsame : (next.fillUnderWay = true -> 0 < next.mshrCount) := by
    intro h
    rw [← hactive, ← hreturn] at hbusy
    exact hbusy (by simpa [fillUnderWay, hstate] using h)
  unfold wbStep
  split
  · split
    · cases hvwb : c.vwbActive with
      | true =>
          rw [hvwb] at hbusy
          exact ⟨hqueue, fun _ => hbusy rfl, fun h => absurd h (by simp)⟩
      | false =>
          rw [hvwb, Bool.false_or] at hbusy
          rw [hvwb] at hactive
          simp only
          cases hflush : c.wbReturnToFlush with
          | true => exact missWays_flushAdvance hqueue hactive
          | false =>
              rw [hflush] at hbusy
              cases c.vwbPending with
              | true => exact ⟨hqueue, fun _ => hbusy rfl, fun _ => hstate⟩
              | false =>
                  exact ⟨hqueue, fun _ => hbusy rfl,
                    fun h => absurd (hactive.symm.trans h) (by simp)⟩
    · exact ⟨hqueue, hsame, fun _ => hstate⟩
  · exact ⟨hqueue, hsame, fun _ => hstate⟩

theorem missWays_fillStep (hvictim : next.vwbActive = false)
    (hqueue : MissQueue cfg next.mshr next.mshrHead next.mshrTail next.mshrCount)
    (hcount : next.mshrCount = c.mshrCountAfterComplete cfg i)
    (hbusy : c.fillIsLastWord cfg = false ∨ i.mAck = false -> 0 < next.mshrCount) :
    MissWays cfg (c.fillStep cfg i next) := by
  unfold fillStep
  cases hack : i.mAck with
  | false =>
      exact ⟨hqueue, fun _ => hbusy (Or.inr hack),
        fun h => absurd (hvictim.symm.trans h) (by simp)⟩
  | true =>
      cases hlast : c.fillIsLastWord cfg with
      | false =>
          exact ⟨hqueue, fun _ => hbusy (Or.inl hlast),
            fun h => absurd (hvictim.symm.trans h) (by simp)⟩
      | true =>
          simp only [if_true]
          split
          · exact MissWays.idle hqueue rfl hvictim
          · next hmore =>
              have hpos : 0 < next.mshrCount := by
                rw [hcount]
                exact Nat.pos_of_ne_zero hmore
              split
              · exact ⟨hqueue, fun _ => hpos, fun h => absurd h (by simp)⟩
              · exact ⟨hqueue, fun _ => hpos,
                  fun h => absurd (hvictim.symm.trans h) (by simp)⟩

theorem missWays_flushScanStep (hvictim : next.vwbActive = false)
    (hqueue : MissQueue cfg next.mshr next.mshrHead next.mshrTail next.mshrCount) :
    MissWays cfg (c.flushScanStep cfg next) := by
  unfold flushScanStep
  split
  · exact MissWays.idle hqueue (by simp [fillUnderWay, hvictim]) hvictim
  · exact missWays_flushAdvance hqueue hvictim

end Handlers

theorem MissWays.step (h : MissWays cfg c) (hpolicy : cfg.policy = .lru) :
    MissWays cfg (c.step cfg i) := by
  have hqueue := h.common_queue (i := i) hpolicy
  have hstill : (c.common cfg i).state = c.state := rfl
  have hvictim : c.state ≠ .wb -> (c.common cfg i).vwbActive = false := by
    intro hwb
    cases hactive : c.vwbActive with
    | false => exact hactive
    | true => exact absurd (h.victim hactive) hwb
  cases hstate : c.state with
  | idle =>
      have hstep : c.step cfg i = c.idleStep cfg i (c.common cfg i) := by
        simp [DCache.step, hstate]
      have hends : c.mshrCompleteNow cfg i = false := by simp [mshrCompleteNow, hstate]
      have hmiss : c.mshrBusyDispatchMiss cfg i = false := by
        simp [mshrBusyDispatchMiss, mshrBusy, hstate]
      rw [hstep]
      apply missWays_idleStep hpolicy (hstill.trans hstate) (hvictim (by simp [hstate])) hqueue
      · simp [common, hmiss]
      · simp [common, mshrCountAfterComplete, hends, hmiss]
  | hitRd =>
      have hstep : c.step cfg i = { c.common cfg i with state := .idle } := by
        simp [DCache.step, hstate]
      rw [hstep]
      exact MissWays.idle hqueue rfl (hvictim (by simp [hstate]))
  | wb =>
      have hstep : c.step cfg i = c.wbStep cfg i (c.common cfg i) := by
        simp [DCache.step, hstate]
      rw [hstep]
      apply missWays_wbStep (hstill.trans hstate) hstate rfl rfl hqueue
      intro hbusy
      exact Nat.lt_of_lt_of_le (h.busy hbusy) (common_count_of_not_fill (by simp [hstate]))
  | flushScan =>
      have hstep : c.step cfg i = c.flushScanStep cfg (c.common cfg i) := by
        simp [DCache.step, hstate]
      rw [hstep]
      exact missWays_flushScanStep (hvictim (by simp [hstate])) hqueue
  | fill =>
      have hstep : c.step cfg i = c.fillStep cfg i (c.common cfg i) := by
        simp [DCache.step, hstate]
      rw [hstep]
      apply missWays_fillStep (hvictim (by simp [hstate])) hqueue rfl
      intro hgoes
      have hends : c.mshrCompleteNow cfg i = false := by
        rcases hgoes with hlast | hack
        · simp [mshrCompleteNow, hlast]
        · simp [mshrCompleteNow, hack]
      have hpos : 0 < c.mshrCount := h.busy (by simp [fillUnderWay, hstate])
      simp only [common, mshrCountAfterComplete, hends, Bool.false_eq_true, if_false]
      omega

theorem touch_lt (h : MissWays cfg c) (hpolicy : cfg.policy = .lru) {set way : Nat}
    (htouch : c.touch cfg i = some (set, way)) : way < cfg.ways := by
  unfold touch at htouch
  split at htouch
  · rw [Option.some.injEq, Prod.mk.injEq] at htouch
    rw [← htouch.right]
    unfold touchedWay
    split
    · split
      · exact cfg.wayOf_lt _
      · exact victimTargetWay_lt_of_lru hpolicy _
    · exact cfg.wayOf_lt _
  · split at htouch
    · next hends =>
        have hfill : c.state = .fill := by
          simp only [mshrCompleteNow, Bool.and_eq_true, beq_iff_eq] at hends
          exact hends.left.left
        rw [Option.some.injEq, Prod.mk.injEq] at htouch
        rw [← htouch.right]
        exact h.head_lt (by simp [fillUnderWay, hfill])
    · cases htouch

end DCache

/-!
# Hits under a miss
-/

namespace DCache

variable {cfg : DCacheConfig} {c : DCache} {i : DCacheIn}

section Handlers

variable (next : DCache)

theorem idleStep_hu : (c.idleStep cfg i next).huPending = next.huPending := by
  unfold idleStep writeHit promote toHitRd miss
  repeat' split
  all_goals rfl

theorem flushAdvance_hu : (c.flushAdvance cfg next).huPending = next.huPending := by
  unfold flushAdvance
  split <;> rfl

theorem wbStep_hu : (c.wbStep cfg i next).huPending = next.huPending := by
  unfold wbStep
  split
  · split
    · split
      · rfl
      · simp only
        split
        · exact flushAdvance_hu _
        · split <;> rfl
    · rfl
  · rfl

theorem fillStep_hu : (c.fillStep cfg i next).huPending = next.huPending := by
  unfold fillStep
  repeat' split
  all_goals rfl

theorem flushScanStep_hu : (c.flushScanStep cfg next).huPending = next.huPending := by
  unfold flushScanStep
  split
  · rfl
  · exact flushAdvance_hu next

end Handlers

theorem step_hu : (c.step cfg i).huPending = c.mshrBusyDispatchHit cfg i := by
  unfold step
  cases c.state with
  | idle => exact idleStep_hu (c.common cfg i)
  | hitRd => rfl
  | wb => exact wbStep_hu (c.common cfg i)
  | fill => exact fillStep_hu (c.common cfg i)
  | flushScan => exact flushScanStep_hu (c.common cfg i)

/--
No load hits in a line while the cache is busy with a miss or a writeback.
-/
def NotUnderMiss (cfg : DCacheConfig) (c : DCache) (i : DCacheIn) : Prop :=
  c.mshrBusyDispatchHit cfg i = false

end DCache

/--
With one miss register, requests that are held and none during a flush, no load hits
under a miss.
-/
theorem CacheSystem.notUnderMiss {cfg : DCacheConfig} {t : CacheSystem} {i : PortIn}
    (h : t.Inv cfg) (hone : cfg.mshrEntries = 1) (hlegal : t.Legal i) :
    t.cache.NotUnderMiss cfg (t.bus i) := by
  unfold DCache.NotUnderMiss
  cases DCache.Inv.phase h with
  | idle hstate _ => exact DCache.dispatchHit_of_not_busy (DCache.not_busy_idle hstate)
  | hitRd hrd =>
      exact DCache.dispatchHit_of_not_busy
        (DCache.not_busy (by simp [hrd.state]) (by simp [hrd.state]))
  | evict hevict => exact DCache.dispatchHit_of_single h hlegal hone hevict.busy
  | drain hdrain => exact DCache.dispatchHit_of_single h hlegal hone hdrain.busy
  | fill hfill => exact DCache.dispatchHit_of_single h hlegal hone hfill.busy
  | scan hscan =>
      exact DCache.dispatchHit_of_not_busy
        (DCache.not_busy (by simp [hscan.state]) (by simp [hscan.state]))
  | flushWb hwb =>
      have hquiet := DCache.active_split (DCache.Legal.quiet_of_flush hlegal hwb.flush)
      exact DCache.dispatchHit_of_no_read hquiet.left

/-!
# Runs from reset
-/

namespace DCache

variable {cfg : DCacheConfig} {s : Nat -> DCache} {i : Nat -> DCacheIn}

def servedAccesses (cfg : DCacheConfig) (s : Nat -> DCache) (i : Nat -> DCacheIn) (n : Nat) :
    Option (Nat × Nat) :=
  (s n).servedAccess cfg (i n)

theorem run_hu (hreset : (s 0).IsReset cfg) (hrun : IsRun (step cfg) (NotUnderMiss cfg) s i)
    (n : Nat) : (s n).huPending = false := by
  cases n with
  | zero => exact hreset.huPending
  | succ n =>
      rw [(hrun n).right, step_hu]
      exact (hrun n).left

theorem run_ranked (hpolicy : cfg.policy = .lru) (hreset : (s 0).IsReset cfg)
    (hrun : IsRun (step cfg) (NotUnderMiss cfg) s i) (n : Nat) :
    MissWays cfg (s n) ∧
      SetsRanked cfg.toGeometry (s n).array (servedAccesses cfg s i) n := by
  induction n with
  | zero => exact ⟨missWays_reset hreset, setsRanked_reset hreset.array⟩
  | succ n ih =>
      obtain ⟨hways, hranked⟩ := ih
      have hserved : servedAccesses cfg s i n = (s n).touch cfg (i n) :=
        servedAccess_eq (hrun n).left (run_hu hreset hrun n)
      rw [(hrun n).right]
      constructor
      · exact hways.step hpolicy
      · apply hranked.step
        · intro set way htouch
          exact touch_lt hways hpolicy (hserved ▸ htouch)
        · rw [hserved]
          exact step_age hpolicy

end DCache

namespace L2Cache

variable {g : Geometry} {s : Nat -> L2Cache} {i : Nat -> L2In}

def servedAccesses (g : Geometry) (s : Nat -> L2Cache) (i : Nat -> L2In) (n : Nat) :
    Option (Nat × Nat) :=
  (s n).servedAccess g (i n)

theorem run_ranked (hpolicy : g.policy = .lru) (hreset : (s 0).IsReset g)
    (hrun : IsRun (step g) (fun _ _ => True) s i) (n : Nat) :
    MissWay g (s n) ∧ SetsRanked g (s n).array (servedAccesses g s i) n := by
  induction n with
  | zero => exact ⟨missWay_reset hreset, setsRanked_reset hreset.array⟩
  | succ n ih =>
      obtain ⟨hway, hranked⟩ := ih
      have hserved : servedAccesses g s i n = (s n).touch g (i n) := servedAccess_eq
      rw [(hrun n).right]
      constructor
      · exact hway.step hpolicy
      · apply hranked.step
        · intro set way htouch
          exact touch_lt hway (hserved ▸ htouch)
        · rw [hserved]
          exact step_age hpolicy

end L2Cache

/--
In both caches the ages of every set rank its ways by the last access served, and the
victim is the way that was accessed least recently, in every run without a hit under a
miss.  With one miss register a data cache of several sets never has one.
-/
theorem true_lru :
    (forall (cfg : DCacheConfig) (s : Nat -> DCache) (i : Nat -> DCacheIn),
      cfg.policy = .lru -> (s 0).IsReset cfg ->
        IsRun (DCache.step cfg) (DCache.NotUnderMiss cfg) s i -> forall n set,
          TrueLru cfg.toGeometry (s n).array (setTouch (DCache.servedAccesses cfg s i) set) n
            set) ∧
    (forall (g : Geometry) (s : Nat -> L2Cache) (i : Nat -> L2In),
      g.policy = .lru -> (s 0).IsReset g ->
        IsRun (L2Cache.step g) (fun _ _ => True) s i -> forall n set,
          TrueLru g (s n).array (setTouch (L2Cache.servedAccesses g s i) set) n set) ∧
    (forall (cfg : DCacheConfig) (s t : CacheSystem) (i : PortIn),
      cfg.mshrEntries = 1 -> cfg.victimEntries = 0 -> 1 <= cfg.setBits -> s.IsReset cfg ->
        ReachableWhen (CacheSystem.step cfg) CacheSystem.Legal s t -> t.Legal i ->
          t.cache.NotUnderMiss cfg (t.bus i)) := by
  refine ⟨?_, ?_, ?_⟩
  · intro cfg s i hpolicy hreset hrun n set
    exact (DCache.run_ranked hpolicy hreset hrun n).right.trueLru hpolicy set
  · intro g s i hpolicy hreset hrun n set
    exact (L2Cache.run_ranked hpolicy hreset hrun n).right.trueLru hpolicy set
  · intro cfg s t i hone hnone hsets hreset hreach hlegal
    have hinv := CacheSystem.blocking_inv hone hnone hsets hreset hreach
    exact CacheSystem.notUnderMiss hinv hone hlegal

def twoWays : Geometry := { wayBits := 1, setBits := 1, wordBits := 1, policy := .lru }

def twoWayDCache : DCacheConfig := { twoWays with victimEntries := 0, mshrEntries := 1 }

def loadAt (addr : Nat) (intLoad ack : Bool) : DCacheIn :=
  { cpu :=
      { read := true, write := false, addr := addr, wdata := 0, funct3 := 0b010, destReg := 1
        intLoad := intLoad }
    flushAll := false
    mAck := ack
    mDataI := 0
    probeReq := false
    probeAddr := 0 }

def restingPort : DCacheIn :=
  { loadAt 0 false true with cpu := { (loadAt 0 false true).cpu with read := false } }

def fetchAt (addr : Nat) : L2In :=
  { uCyc := true
    uWe := false
    uAddr := addr
    uDataO := 0
    uFunct3 := 0b010
    mDataI := 0
    mAck := true
    probeAck := false
    probeDirty := false
    probeData := fun _ => 0
    flushAll := false }

/--
Two lines of a set miss, and the first of them is read again.
-/
def refillRun : List Nat := [0, 0, 0, 16, 16, 16, 0, 0]

def refillLoads (n : Nat) : DCacheIn :=
  if n < 8 then loadAt (refillRun.getD n 0) false true else restingPort

theorem true_lru_refill :
    let c := fed (DCache.step twoWayDCache) refillLoads (CacheSystem.initial fun _ => 0).cache
    let l := fed (L2Cache.step twoWays) (fun n => fetchAt (refillRun.getD n 0))
      (TwoLevel.initial fun _ => 0).l2
    (forall way, way < 2 -> ((c 8).array.age (0, way) = 1 <-> way = 0)) ∧
      forall way, way < 2 -> ((l 8).array.age (0, way) = 1 <-> way = 0) := by
  intro c l
  constructor
  · intro way hway
    have hrun : IsRun (DCache.step twoWayDCache) (DCache.NotUnderMiss twoWayDCache) c
        refillLoads := by
      intro n
      refine ⟨?_, rfl⟩
      by_cases hn : n < 8
      · have hall : forall k, k < 8 ->
            (c k).mshrBusyDispatchHit twoWayDCache (refillLoads k) = false := by decide +kernel
        exact hall n hn
      · apply DCache.dispatchHit_of_no_read
        unfold refillLoads
        rw [if_neg hn]
        rfl
    have hlru := true_lru.left twoWayDCache c refillLoads rfl
      (CacheSystem.initial_isReset twoWayDCache _).cache hrun 8 0
    have hvictim : (c 8).array.victimTargetWay twoWays 0 = 0 := by decide +kernel
    have hold := hlru.victim way hway
    rwa [show LineArray.victimTargetWay twoWayDCache.toGeometry (c 8).array 0 = 0 from hvictim]
      at hold
  · intro way hway
    have hlru := true_lru.right.left twoWays l _ rfl
      ⟨rfl, ⟨fun _ => rfl, fun _ => rfl, fun _ => rfl, fun _ _ _ => rfl⟩, rfl, rfl⟩
      (isRun_fed _ _ _) 8 0
    have hvictim : (l 8).array.victimTargetWay twoWays 0 = 0 := by decide +kernel
    have hold := hlru.victim way hway
    rwa [hvictim] at hold

def twoMissRegisters : DCacheConfig := { twoWays with victimEntries := 0, mshrEntries := 2 }

/--
The first line is read again while a miss of another set waits for the memory.
-/
def underMiss (n : Nat) : DCacheIn :=
  if n < 6 then loadAt (refillRun.getD n 0) false true
  else if n = 6 then loadAt 8 true false
  else loadAt 0 false false

theorem under_miss_not_lru :
    let c := fed (DCache.step twoMissRegisters) underMiss (CacheSystem.initial fun _ => 0).cache
    let touch := setTouch (DCache.servedAccesses twoMissRegisters c underMiss) 0
    (c 8).respReady twoMissRegisters (underMiss 8) = true ∧ touch 7 = some 1 ∧
      (c 8).array.victimTargetWay twoWays 0 = 1 ∧ (c 8).array.age (0, 1) = 1 ∧
      ¬ TrueLru twoWays (c 8).array touch 8 0 := by
  intro c touch
  have hage : (c 8).array.age (0, 1) = 1 := by decide +kernel
  have htouch : lastTouch touch 0 8 = 6 ∧ lastTouch touch 1 8 = 8 := by decide +kernel
  refine ⟨by decide +kernel, by decide +kernel, by decide +kernel, hage, ?_⟩
  intro hlru
  have hrecent := (hlru.oldest 1 (by decide)).mp hage 0 (by decide) (by decide)
  unfold MoreRecent at hrecent
  omega

end Cache
end RvCores
