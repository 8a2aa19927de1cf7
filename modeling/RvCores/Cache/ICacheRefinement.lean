import Mathlib.Algebra.Group.Nat.Defs
import RvCores.Cache.ICache
import RvCores.Cache.Replacement
import RvCores.Lib.Run

/-!
# The instruction cache delivers words of the instruction memory

A line that was ever filled keeps the words of the memory at its line address, also
after a probe has taken it away, except for the one line that a fill is writing over.
A hit therefore returns the word of the fetch address, or, in the line being written
over, the word of the new line.  A fetch that is not word aligned gets the word it
lies in.
-/

namespace RvCores
namespace Cache

open Isa Lib Block

/-!
# Sets that fill up before anything is replaced

The replacement order of a set is only needed as long as one of its ways was never
filled.
-/

namespace LineArray

variable {g : Geometry} {arr arr' : LineArray}

def Settled (g : Geometry) (arr : LineArray) (set : Nat) : Prop :=
  arr.SetFull g set ∨
    if g.policy = .lru then arr.AgePacked g set else arr.PointerPacked g set

theorem Packed.settled (h : arr.Packed g) (set : Nat) : arr.Settled g set := Or.inr (h set)

theorem Settled.setFull {set : Nat} (h : arr.Settled g set)
    (hlt : arr.victimTargetWay g set < g.ways)
    (hvalid : arr.valid (g.lineIdx set (arr.victimTargetWay g set)) = true) :
    arr.SetFull g set := by
  rcases h with hfull | horder
  · exact hfull
  · unfold victimTargetWay at hvalid hlt
    by_cases hpolicy : g.policy = .lru
    · rw [if_pos hpolicy] at hvalid horder hlt
      intro way hway
      cases hfree : arr.valid (g.lineIdx set way) with
      | true => rfl
      | false =>
          have hyounger := horder.younger _ way hlt hway hvalid hfree
          rw [horder.lruWayIdx] at hyounger
          have hage := horder.lt way hway
          omega
    · rw [if_neg hpolicy] at hvalid horder hlt
      rcases horder with hfull | hbelow
      · exact hfull
      · exact absurd ((hbelow _ hlt).mp hvalid) (Nat.lt_irrefl _)

/--
The way a fill will use: the set has none that was never filled, or this is one of
them and the next to be chosen.
-/
def NextFree (g : Geometry) (arr : LineArray) (set way : Nat) : Prop :=
  arr.SetFull g set ∨
    arr.valid (g.lineIdx set way) = false ∧
      if g.policy = .lru then arr.AgePacked g set ∧ arr.age (set, way) = g.ways - 1
      else arr.PointerPacked g set ∧ arr.victim set = way

theorem Settled.nextFree {set : Nat} (h : arr.Settled g set)
    (hlt : arr.victimTargetWay g set < g.ways) :
    arr.NextFree g set (arr.victimTargetWay g set) := by
  cases hvalid : arr.valid (g.lineIdx set (arr.victimTargetWay g set)) with
  | true => exact Or.inl (h.setFull hlt hvalid)
  | false =>
      rcases h with hfull | horder
      · exact Or.inl hfull
      · refine Or.inr ⟨hvalid, ?_⟩
        unfold victimTargetWay
        by_cases hpolicy : g.policy = .lru
        · simp only [if_pos hpolicy] at horder ⊢
          exact ⟨horder, horder.lruWayIdx⟩
        · simp only [if_neg hpolicy] at horder ⊢
          exact ⟨horder, trivial⟩

theorem NextFree.settled {set way : Nat} (h : arr.NextFree g set way) :
    arr.Settled g set := by
  rcases h with hfull | ⟨_, horder⟩
  · exact Or.inl hfull
  · refine Or.inr ?_
    by_cases hpolicy : g.policy = .lru
    · simp only [if_pos hpolicy] at horder ⊢
      exact horder.left
    · simp only [if_neg hpolicy] at horder ⊢
      exact horder.left

/-!
A touch of a way that was filled.
-/

structure Touched (g : Geometry) (arr arr' : LineArray) (set way : Nat) : Prop where
  way_lt : way < g.ways
  used : arr.valid (g.lineIdx set way) = true
  age : arr'.age = arr.lruTouch g set way
  valid : arr'.valid = arr.valid
  victim : arr'.victim = arr.victim

theorem SetFull.congr {set : Nat} (h : arr.SetFull g set) (hvalid : arr'.valid = arr.valid) :
    arr'.SetFull g set := by
  intro way hway
  rw [hvalid]
  exact h way hway

theorem Touched.settled {set way set' : Nat} (h : Touched g arr arr' set way)
    (hsettled : arr.Settled g set') : arr'.Settled g set' := by
  rcases hsettled with hfull | horder
  · exact Or.inl (hfull.congr h.valid)
  · refine Or.inr ?_
    by_cases hpolicy : g.policy = .lru
    · rw [if_pos hpolicy] at horder ⊢
      by_cases heq : set' = set
      · subst heq
        refine horder.touch h.way_lt (fun k _ => by rw [h.age]) ?_ ?_
        · rw [h.valid]
          exact h.used
        · intro k _ _
          rw [h.valid]
      · refine horder.congr ?_ (fun k _ => by rw [h.valid])
        intro k _
        rw [h.age, age_lruTouch_of_ne heq]
    · rw [if_neg hpolicy] at horder ⊢
      exact horder.congr (Or.inr (by rw [h.victim])) (fun k _ => by rw [h.valid])

/--
The oldest way stays the oldest when another one is touched.
-/
theorem Touched.nextFree {set way set' way' : Nat} (h : Touched g arr arr' set way)
    (hway' : way' < g.ways) (hnext : arr.NextFree g set' way') :
    arr'.NextFree g set' way' := by
  have hsettled := h.settled hnext.settled
  rcases hnext with hfull | ⟨hfree, horder⟩
  · exact Or.inl (hfull.congr h.valid)
  · rcases hsettled with hfull | horder'
    · exact Or.inl hfull
    · refine Or.inr ⟨by rw [h.valid]; exact hfree, ?_⟩
      by_cases hpolicy : g.policy = .lru
      · simp only [if_pos hpolicy] at horder horder' ⊢
        refine ⟨horder', ?_⟩
        rw [h.age]
        by_cases heq : set' = set
        · subst heq
          have hne : way' ≠ way := by
            intro heq
            rw [heq, h.used] at hfree
            cases hfree
          have hle := horder.left.lt way h.way_lt
          have hlast := horder.right
          rw [age_lruTouch hway', if_neg hne, if_neg (by omega)]
          exact hlast
        · rw [age_lruTouch_of_ne heq]
          exact horder.right
      · simp only [if_neg hpolicy] at horder horder' ⊢
        exact ⟨horder', by rw [h.victim]; exact horder.right⟩

theorem NextFree.filled {set way : Nat} (h : arr.NextFree g set way) (hway : way < g.ways)
    (hage : arr.SetFull g set ∨ (g.policy = .lru -> forall k, k < g.ways ->
      arr'.age (set, k) = arr.lruTouch g set way (set, k)))
    (hvictim : arr'.victim set = nextVictim g way)
    (hvalid : arr'.valid = setAt arr.valid (g.lineIdx set way) true) :
    arr'.Settled g set := by
  have hmono : arr.SetFull g set -> arr'.Settled g set := by
    intro hfull
    refine Or.inl (hfull.mono ?_)
    intro line hline
    rw [hvalid, setAt_apply]
    split
    · rfl
    · exact hline
  have hused : arr'.valid (g.lineIdx set way) = true := by rw [hvalid, setAt_self]
  have hother : forall k, k < g.ways -> k ≠ way ->
      arr'.valid (g.lineIdx set k) = arr.valid (g.lineIdx set k) := by
    intro k hk hne
    rw [hvalid]
    refine setAt_of_ne ?_
    intro heq
    have hsame := congrArg g.wayOf heq
    rw [g.wayOf_lineIdx hk, g.wayOf_lineIdx hway] at hsame
    exact hne hsame
  rcases h with hfull | ⟨_, horder⟩
  · exact hmono hfull
  · rcases hage with hfull | hage
    · exact hmono hfull
    · refine Or.inr ?_
      by_cases hpolicy : g.policy = .lru
      · simp only [if_pos hpolicy] at horder ⊢
        exact horder.left.touch hway (hage hpolicy) hused hother
      · simp only [if_neg hpolicy] at horder ⊢
        obtain ⟨hpacked, hpointer⟩ := horder
        rw [← hpointer] at hway hused hother hvictim
        exact hpacked.fill hway hused hother hvictim

theorem Settled.congr {set : Nat} (h : arr.Settled g set)
    (hage : forall k, arr'.age (set, k) = arr.age (set, k))
    (hvictim : arr.SetFull g set ∨ arr'.victim set = arr.victim set)
    (hvalid : forall k, k < g.ways ->
      arr'.valid (g.lineIdx set k) = arr.valid (g.lineIdx set k)) :
    arr'.Settled g set := by
  have hmono : arr.SetFull g set -> arr'.SetFull g set := by
    intro hfull way hway
    rw [hvalid way hway]
    exact hfull way hway
  rcases h with hfull | horder
  · exact Or.inl (hmono hfull)
  · rcases hvictim with hfull | hsame
    · exact Or.inl (hmono hfull)
    · refine Or.inr ?_
      by_cases hpolicy : g.policy = .lru
      · rw [if_pos hpolicy] at horder ⊢
        exact horder.congr (fun k _ => hage k) hvalid
      · rw [if_neg hpolicy] at horder ⊢
        exact horder.congr (Or.inr hsame) hvalid

theorem NextFree.congr {set way : Nat} (h : arr.NextFree g set way)
    (hage : arr'.age = arr.age) (hvictim : arr'.victim = arr.victim)
    (hvalid : arr'.valid = arr.valid) : arr'.NextFree g set way := by
  have hsettled : arr'.Settled g set := h.settled.congr (fun k => by rw [hage])
    (Or.inr (by rw [hvictim])) (fun k _ => by rw [hvalid])
  rcases h with hfull | ⟨hfree, horder⟩
  · exact Or.inl (hfull.congr hvalid)
  · rcases hsettled with hfull | horder'
    · exact Or.inl hfull
    · refine Or.inr ⟨by rw [hvalid]; exact hfree, ?_⟩
      by_cases hpolicy : g.policy = .lru
      · simp only [if_pos hpolicy] at horder horder' ⊢
        exact ⟨horder', by rw [hage]; exact horder.right⟩
      · simp only [if_neg hpolicy] at horder horder' ⊢
        exact ⟨horder', by rw [hvictim]; exact horder.right⟩

/--
Valid lines may be taken away.
-/
theorem WellFormed.shrink (h : arr.WellFormed g)
    (hvalid : forall line, arr'.valid line = true -> arr.valid line = true)
    (htag : arr'.tag = arr.tag) (hvictim : arr'.victim = arr.victim) :
    arr'.WellFormed g where
  inRange hline := h.inRange (hvalid _ hline)
  distinct hline hline' haddr := by
    unfold lineAddr at haddr
    rw [htag] at haddr
    exact h.distinct (hvalid _ hline) (hvalid _ hline') haddr
  pointer set := by
    rw [hvictim]
    exact h.pointer set

end LineArray

/-!
# What the cache holds
-/

namespace ICache

variable {w : Nat} {cfg : ICacheConfig w} {c : ICache w} {i : ICacheIn w}
  {filled : Nat -> Bool}

/--
The word of the instruction memory at an address.
-/
def instAt (cfg : ICacheConfig w) (a : Nat) : Word := cfg.imem.inst (BitVec.ofNat w a)

def lineWord (cfg : ICacheConfig w) (lineAddr word : Nat) : Word :=
  instAt cfg (cfg.lineBase lineAddr + 4 * word)

/--
The second-level cache answers with the word of the instruction memory.
-/
def Answered (cfg : ICacheConfig w) (c : ICache w) (i : ICacheIn w) : Prop :=
  c.mCyc cfg = true -> i.mAck = true -> i.mDataI = cfg.imem.inst (c.mAddr cfg)

def everFilled (c : ICache w) (filled : Nat -> Bool) : LineArray :=
  { c.array with valid := filled }

def Intact (cfg : ICacheConfig w) (arr : LineArray) (line : Nat) : Prop :=
  forall word, word < cfg.lineWords ->
    arr.data (line, word) = lineWord cfg (arr.lineAddr cfg.toGeometry line) word

def fillAddr (cfg : ICacheConfig w) (c : ICache w) : Nat :=
  cfg.joinTag c.fillTagR c.fillSetR

structure Filling (cfg : ICacheConfig w) (c : ICache w) (filled : Nat -> Bool) : Prop where
  set : c.fillSetR < cfg.sets
  way : c.fillWayR < cfg.ways
  base : c.fillBaseR = BitVec.ofNat w (cfg.lineBase (c.fillAddr cfg))
  word : c.fillWordR < cfg.lineWords
  fresh : forall k, k ≠ c.fillLine cfg -> c.array.valid k = true ->
    c.array.lineAddr cfg.toGeometry k ≠ c.fillAddr cfg
  newWords : forall word, word < c.fillWordR ->
    c.array.data (c.fillLine cfg, word) = lineWord cfg (c.fillAddr cfg) word
  oldWords : filled (c.fillLine cfg) = true -> forall word, c.fillWordR <= word ->
    word < cfg.lineWords ->
      c.array.data (c.fillLine cfg, word) =
        lineWord cfg (c.array.lineAddr cfg.toGeometry (c.fillLine cfg)) word
  nextFree : (c.everFilled filled).NextFree cfg.toGeometry c.fillSetR c.fillWayR

structure Held (cfg : ICacheConfig w) (filled : Nat -> Bool) (e : VictimEntry) : Prop where
  setFull : forall way, way < cfg.ways ->
    filled (cfg.lineIdx (e.tag % cfg.sets) way) = true
  data : forall word, word < cfg.lineWords -> e.data word = lineWord cfg e.tag word

structure Sound (cfg : ICacheConfig w) (c : ICache w) (filled : Nat -> Bool) : Prop where
  wellFormed : c.array.WellFormed cfg.toGeometry
  used : forall k, c.array.valid k = true -> filled k = true
  intact : forall k, filled k = true -> (c.state = .fill -> k ≠ c.fillLine cfg) ->
    Intact cfg c.array k
  settled : forall set, (c.everFilled filled).Settled cfg.toGeometry set
  held : forall e, e < cfg.victimEntries -> (c.vc.entry e).valid = true ->
    Held cfg filled (c.vc.entry e)
  lastAddr : cfg.lineBytes ∣ c.prefetcher.lastAddrR.toNat
  lastStride : cfg.lineBytes ∣ c.prefetcher.lastStrideR.toNat
  filling : c.state = .fill -> Filling cfg c filled

/-!
# What a hit returns
-/

/--
Fetch reads a line of which a fill has already replaced the word.
-/
def Torn (cfg : ICacheConfig w) (c : ICache w) (i : ICacheIn w) : Bool :=
  c.state == .fill && c.hitMain cfg i && c.hitLineIdx cfg i == c.fillLine cfg &&
    decide (cfg.wordOff (addr i) < c.fillWordR)

/--
The address whose word a hit returns.
-/
def servedAddr (cfg : ICacheConfig w) (c : ICache w) (i : ICacheIn w) : Nat :=
  if c.Torn cfg i then cfg.lineBase (c.fillAddr cfg) + 4 * cfg.wordOff (addr i)
  else addr i - addr i % 4

/--
All entries of the victim buffer with the tag of a lookup hold the same words.
-/
theorem vcLookup_facts (h : Sound cfg c filled) (hhit : c.vcLookupHit cfg i = true) :
    (forall way, way < cfg.ways -> filled (cfg.lineIdx (setIdx cfg i) way) = true) ∧
      forall word, word < cfg.lineWords ->
        c.vcLookupData cfg i word = lineWord cfg (cfg.lineAddr (addr i)) word := by
  have hlookup : c.vc.lookupHit cfg.victimEntries (cfg.lineAddr (addr i)) = true := by
    simp only [vcLookupHit, Bool.and_eq_true] at hhit
    exact hhit.right
  rcases anyUpTo_iff.mp hlookup with ⟨e, he, heHit⟩
  obtain ⟨hvalid, htag⟩ := VictimCache.vcHit_iff.mp heHit
  have hheld := h.held e he hvalid
  refine ⟨?_, ?_⟩
  · have hset : (c.vc.entry e).tag % cfg.sets = setIdx cfg i := by rw [htag]; rfl
    rw [← hset]
    exact hheld.setFull
  · intro word hword
    refine orBits_of_same he heHit ?_
    intro j hj hjHit
    obtain ⟨hjValid, hjTag⟩ := VictimCache.vcHit_iff.mp hjHit
    have hjHeld := (h.held j hj hjValid).data word hword
    rw [hjTag] at hjHeld
    exact hjHeld

/--
The array behind the probe and the touch of a cycle.
-/
def base (cfg : ICacheConfig w) (c : ICache w) (i : ICacheIn w) : LineArray :=
  { c.array with valid := c.probedValid cfg i, age := c.fetchedAge cfg i }

theorem probedValid_le {k : Nat} (hk : c.probedValid cfg i k = true) :
    c.array.valid k = true := by
  unfold probedValid at hk
  split at hk
  · rw [setAt_apply] at hk
    split at hk
    · cases hk
    · exact hk
  · exact hk

theorem base_wellFormed (h : c.array.WellFormed cfg.toGeometry) :
    (c.base cfg i).WellFormed cfg.toGeometry :=
  h.shrink (fun _ => probedValid_le) rfl rfl

theorem hitLine_lineIdx (h : c.array.WellFormed cfg.toGeometry)
    (hhit : c.hitMain cfg i = true) :
    cfg.lineIdx (setIdx cfg i) (cfg.wayOf (c.hitLineIdx cfg i)) = c.hitLineIdx cfg i := by
  obtain ⟨hvalid, haddr, _⟩ := LineArray.hit_selects h hhit
  have hset : cfg.setOf (c.hitLineIdx cfg i) = setIdx cfg i :=
    LineArray.setOf_of_lineAddr (h.inRange hvalid) haddr
  rw [← hset]
  exact cfg.lineIdx_setOf_wayOf _

theorem victimTargetWay_lt (h : c.array.WellFormed cfg.toGeometry) :
    c.victimTargetWay cfg i < cfg.ways :=
  LineArray.victimTargetWay_lt h _

/--
Fetch touches a way that was filled, or none.
-/
theorem fetch_touches (h : Sound cfg c filled) :
    c.fetchedAge cfg i = c.array.age ∨ exists set way,
      LineArray.Touched cfg.toGeometry (c.everFilled filled)
        { c.base cfg i with valid := filled } set way := by
  by_cases hpolicy : cfg.policy = .lru
  · cases hmain : c.hitMain cfg i with
    | true =>
        right
        obtain ⟨hvalid, _, _⟩ := LineArray.hit_selects h.wellFormed hmain
        refine ⟨setIdx cfg i, cfg.wayOf (c.hitLineIdx cfg i), cfg.wayOf_lt _, ?_, ?_, rfl, rfl⟩
        · show filled _ = true
          rw [hitLine_lineIdx h.wellFormed hmain]
          exact h.used _ hvalid
        · simp only [base, fetchedAge, hpolicy, hmain, if_true]
          rfl
    | false =>
        cases hvc : c.vcLookupHit cfg i with
        | true =>
            right
            have hlt := victimTargetWay_lt (i := i) h.wellFormed
            refine ⟨setIdx cfg i, c.victimTargetWay cfg i, hlt, ?_, ?_, rfl, rfl⟩
            · exact (vcLookup_facts h hvc).left _ hlt
            · simp only [base, fetchedAge, hpolicy, hmain, hvc, if_true, Bool.false_eq_true,
                if_false]
              rfl
        | false =>
            left
            simp [fetchedAge, hmain, hvc]
  · left
    simp [fetchedAge, hpolicy]

theorem base_settled (h : Sound cfg c filled) (set : Nat) :
    LineArray.Settled cfg.toGeometry { c.base cfg i with valid := filled } set := by
  rcases fetch_touches (i := i) h with hsame | ⟨_, _, htouched⟩
  · have hform : { c.base cfg i with valid := filled } = c.everFilled filled := by
      simp only [base, everFilled, hsame]
    rw [hform]
    exact h.settled set
  · exact htouched.settled (h.settled set)

theorem base_nextFree (h : Sound cfg c filled) {set way : Nat} (hway : way < cfg.ways)
    (hnext : (c.everFilled filled).NextFree cfg.toGeometry set way) :
    LineArray.NextFree cfg.toGeometry { c.base cfg i with valid := filled } set way := by
  rcases fetch_touches (i := i) h with hsame | ⟨_, _, htouched⟩
  · have hform : { c.base cfg i with valid := filled } = c.everFilled filled := by
      simp only [base, everFilled, hsame]
    rw [hform]
    exact hnext
  · exact htouched.nextFree hway hnext

/-!
# The victim buffer
-/

theorem setFull_of_valid (h : Sound cfg c filled)
    (hvalid : c.array.valid (c.victimLine cfg i) = true) :
    forall way, way < cfg.ways -> filled (cfg.lineIdx (setIdx cfg i) way) = true :=
  (h.settled (setIdx cfg i)).setFull (victimTargetWay_lt h.wellFormed) (h.used _ hvalid)

theorem lineAddr_mod_sets {arr : LineArray} {line : Nat}
    (hline : line < cfg.numLines) :
    arr.lineAddr cfg.toGeometry line % cfg.sets = cfg.setOf line := by
  unfold LineArray.lineAddr Geometry.joinTag
  rw [Nat.mul_add_mod_self_right, Nat.mod_eq_of_lt (cfg.setOf_lt hline)]

/--
The line that leaves the main array is intact, and its set is full.
-/
theorem outgoing_held (h : Sound cfg c filled) (hidle : c.state = .idle)
    (hfull : forall way, way < cfg.ways ->
      filled (cfg.lineIdx (setIdx cfg i) way) = true) (valid : Bool) :
    Held cfg filled
      { valid := valid
        tag := (c.outgoingLine cfg i).tag
        dirty := (c.outgoingLine cfg i).dirty
        data := (c.outgoingLine cfg i).data } where
  setFull := by
    intro way hway
    have hset : (c.outgoingLine cfg i).tag % cfg.sets = setIdx cfg i :=
      (lineAddr_mod_sets (LineArray.victimLine_lt h.wellFormed _)).trans
        (LineArray.setOf_victimLine h.wellFormed _)
    show filled (cfg.lineIdx ((c.outgoingLine cfg i).tag % cfg.sets) way) = true
    rw [hset]
    exact hfull way hway
  data := by
    refine h.intact _ (hfull _ (victimTargetWay_lt h.wellFormed)) ?_
    intro hfill
    rw [hidle] at hfill
    cases hfill

theorem vcDoSwap_facts (hswap : c.vcDoSwap cfg i = true) :
    c.state = .idle ∧ c.hitMain cfg i = false ∧ c.vcLookupHit cfg i = true := by
  simp only [vcDoSwap, Bool.and_eq_true, beq_iff_eq, Bool.not_eq_true'] at hswap
  exact ⟨hswap.left.left, hswap.left.right, hswap.right⟩

theorem vcDoInsert_facts (hinsert : c.vcDoInsert cfg i = true) :
    c.state = .idle ∧ c.vcLookupHit cfg i = false ∧
      c.array.valid (c.victimLine cfg i) = true := by
  simp only [vcDoInsert, Bool.and_eq_true, beq_iff_eq, Bool.not_eq_true'] at hinsert
  exact ⟨hinsert.left.left.left, hinsert.left.right, hinsert.right⟩

theorem nextVc_held (h : Sound cfg c filled) {e : Nat} (he : e < cfg.victimEntries)
    (hvalid : ((c.nextVc cfg i).entry e).valid = true) :
    Held cfg filled ((c.nextVc cfg i).entry e) := by
  have hsome : cfg.victimEntries ≠ 0 := Nat.ne_of_gt (Nat.lt_of_le_of_lt (Nat.zero_le e) he)
  simp only [nextVc, if_neg hsome, VictimCache.step] at hvalid ⊢
  cases hinsert : c.vcDoInsert cfg i with
  | true =>
      obtain ⟨hidle, hvc, hline⟩ := vcDoInsert_facts hinsert
      have hnoSwap : c.vcDoSwap cfg i = false := by simp [vcDoSwap, hvc]
      simp only [hinsert, hnoSwap, if_true, Bool.false_eq_true, if_false] at hvalid ⊢
      by_cases heq : e = c.vc.fifoNext
      · rw [heq, modifyAt_self]
        exact outgoing_held h hidle (setFull_of_valid h hline) true
      · rw [modifyAt_of_ne heq] at hvalid ⊢
        exact h.held e he hvalid
  | false =>
      cases hswap : c.vcDoSwap cfg i with
      | true =>
          obtain ⟨hidle, _, hvc⟩ := vcDoSwap_facts hswap
          simp only [hinsert, hswap, if_true, Bool.false_eq_true, if_false] at hvalid ⊢
          by_cases heq : e = c.vc.hitWay cfg.victimEntries (cfg.lineAddr (addr i))
          · rw [heq, modifyAt_self]
            exact outgoing_held h hidle (vcLookup_facts h hvc).left _
          · rw [modifyAt_of_ne heq] at hvalid ⊢
            exact h.held e he hvalid
      | false =>
          simp only [hinsert, hswap, Bool.false_eq_true, if_false] at hvalid ⊢
          exact h.held e he hvalid

/-!
# The prefetcher
-/

theorem lineBytes_dvd (cfg : ICacheConfig w) : cfg.lineBytes ∣ 2 ^ w := by
  have hpow : cfg.lineBytes = 2 ^ (2 + cfg.wordBits) := by
    unfold Geometry.lineBytes Geometry.lineWords
    rw [Nat.pow_add]
  rw [hpow]
  refine Nat.pow_dvd_pow 2 ?_
  have hfits := cfg.fits
  omega

theorem lineBaseOf_dvd (a : Nat) : cfg.lineBytes ∣ (lineBaseOf cfg a).toNat := by
  unfold lineBaseOf
  rw [BitVec.toNat_ofNat]
  exact (Nat.dvd_mod_iff (lineBytes_dvd cfg)).mpr (Nat.dvd_mul_left _ _)

theorem dvd_sub {x y : BitVec w} (hx : cfg.lineBytes ∣ x.toNat)
    (hy : cfg.lineBytes ∣ y.toNat) : cfg.lineBytes ∣ (x - y).toNat := by
  rw [BitVec.toNat_sub]
  refine (Nat.dvd_mod_iff (lineBytes_dvd cfg)).mpr ?_
  exact Nat.dvd_add (Nat.dvd_sub (lineBytes_dvd cfg) hy) hx

theorem dvd_add {x y : BitVec w} (hx : cfg.lineBytes ∣ x.toNat)
    (hy : cfg.lineBytes ∣ y.toNat) : cfg.lineBytes ∣ (x + y).toNat := by
  rw [BitVec.toNat_add]
  exact (Nat.dvd_mod_iff (lineBytes_dvd cfg)).mpr (Nat.dvd_add hx hy)

theorem nextPrefetcher_aligned (h : Sound cfg c filled) :
    cfg.lineBytes ∣ (c.nextPrefetcher cfg i).lastAddrR.toNat ∧
      cfg.lineBytes ∣ (c.nextPrefetcher cfg i).lastStrideR.toNat := by
  have hbase : cfg.lineBytes ∣ (lineBaseOf cfg (addr i)).toNat := lineBaseOf_dvd (addr i)
  unfold nextPrefetcher Prefetcher.step
  cases c.genuineMiss cfg i with
  | false => exact ⟨h.lastAddr, h.lastStride⟩
  | true =>
      refine ⟨hbase, ?_⟩
      cases hlast : c.prefetcher.haveLastR with
      | false => simpa [hlast] using h.lastStride
      | true =>
          exact dvd_sub hbase h.lastAddr

structure SameLines (cfg : ICacheConfig w) (c : ICache w) (i : ICacheIn w) (next : ICache w) :
    Prop where
  array : next.array = c.base cfg i
  vc : next.vc = c.nextVc cfg i
  prefetcher : next.prefetcher = c.nextPrefetcher cfg i

theorem base_lineAddr (k : Nat) :
    (c.base cfg i).lineAddr cfg.toGeometry k = c.array.lineAddr cfg.toGeometry k := rfl

theorem SameLines.sound {next : ICache w} (hsame : SameLines cfg c i next)
    (h : Sound cfg c filled)
    (hintact : forall k, filled k = true -> (next.state = .fill -> k ≠ next.fillLine cfg) ->
      Intact cfg c.array k)
    (hfilling : next.state = .fill -> Filling cfg next filled) : Sound cfg next filled where
  wellFormed := by
    rw [hsame.array]
    exact base_wellFormed h.wellFormed
  used := by
    intro k hk
    rw [hsame.array] at hk
    exact h.used k (probedValid_le hk)
  intact := by
    intro k hk hdead
    rw [hsame.array]
    exact hintact k hk hdead
  settled := by
    intro set
    unfold everFilled
    rw [hsame.array]
    exact base_settled h set
  held := by
    intro e he hvalid
    rw [hsame.vc] at hvalid ⊢
    exact nextVc_held h he hvalid
  lastAddr := by
    rw [hsame.prefetcher]
    exact (nextPrefetcher_aligned h).left
  lastStride := by
    rw [hsame.prefetcher]
    exact (nextPrefetcher_aligned h).right
  filling := hfilling

theorem intact_of_idle (h : Sound cfg c filled) (hidle : c.state = .idle) {k : Nat}
    (hk : filled k = true) : Intact cfg c.array k := by
  refine h.intact k hk ?_
  intro hfill
  rw [hidle] at hfill
  cases hfill

/--
The word that a fill reads belongs to its line.
-/
theorem imemData_eq (h : Sound cfg c filled) (hanswered : c.Answered cfg i)
    (hfills : c.fills cfg i = true) :
    c.imemData cfg i = lineWord cfg (c.fillAddr cfg) c.fillWordR := by
  simp only [fills, Bool.and_eq_true, beq_iff_eq] at hfills
  obtain ⟨hfill, hready⟩ := hfills
  have haddr : c.imemAddr =
      BitVec.ofNat w (cfg.lineBase (c.fillAddr cfg) + 4 * c.fillWordR) := by
    rw [imemAddr, (h.filling hfill).base, BitVec.ofNat_add]
  have hword : cfg.imem.inst c.imemAddr = lineWord cfg (c.fillAddr cfg) c.fillWordR := by
    rw [haddr]
    rfl
  unfold imemData
  cases hl2 : cfg.l2Enable with
  | false => simpa using hword
  | true =>
      have hack : i.mAck = true := by simpa [fillwordReady, hl2] using hready
      have hdata := hanswered (by simp [mCyc, hl2, hfill]) hack
      simp only [mAddr, hl2, if_true] at hdata
      simp only [if_true]
      rw [hdata, hword]

theorem fillLine_lt (hfilling : Filling cfg c filled) : c.fillLine cfg < cfg.numLines :=
  cfg.lineIdx_lt hfilling.set hfilling.way

/--
A cycle in which a fill goes on, with or without a new word.
-/
structure FillsOn (cfg : ICacheConfig w) (c : ICache w) (i : ICacheIn w)
    (data : Nat × Nat -> Word) (word : Nat) (next : ICache w) : Prop where
  array : next.array = { c.base cfg i with data := data }
  vc : next.vc = c.nextVc cfg i
  prefetcher : next.prefetcher = c.nextPrefetcher cfg i
  state : next.state = .fill
  fillBaseR : next.fillBaseR = c.fillBaseR
  fillSetR : next.fillSetR = c.fillSetR
  fillTagR : next.fillTagR = c.fillTagR
  fillWayR : next.fillWayR = c.fillWayR
  fillWordR : next.fillWordR = word

theorem FillsOn.sound {data : Nat × Nat -> Word} {word : Nat} {next : ICache w}
    (hon : FillsOn cfg c i data word next) (h : Sound cfg c filled)
    (hfill : c.state = .fill) (hword : word < cfg.lineWords)
    (hother : forall k j, k ≠ c.fillLine cfg -> data (k, j) = c.array.data (k, j))
    (hnew : forall j, j < word ->
      data (c.fillLine cfg, j) = lineWord cfg (c.fillAddr cfg) j)
    (hold : forall j, word <= j -> data (c.fillLine cfg, j) = c.array.data (c.fillLine cfg, j))
    (hle : c.fillWordR <= word) : Sound cfg next filled := by
  have hfilling := h.filling hfill
  have hline : next.fillLine cfg = c.fillLine cfg := by
    rw [fillLine, hon.fillSetR, hon.fillWayR]
    rfl
  have haddr : next.fillAddr cfg = c.fillAddr cfg := by
    rw [fillAddr, hon.fillSetR, hon.fillTagR]
    rfl
  have hwell := base_wellFormed (i := i) h.wellFormed
  refine ⟨?_, ?_, ?_, ?_, ?_, ?_, ?_, ?_⟩
  · rw [hon.array]
    exact hwell.of_eq rfl rfl rfl
  · intro k hk
    rw [hon.array] at hk
    exact h.used k (probedValid_le hk)
  · intro k hk hdead j hj
    have hne : k ≠ c.fillLine cfg := by
      rw [← hline]
      exact hdead hon.state
    rw [hon.array]
    show data (k, j) = _
    rw [hother k j hne]
    exact h.intact k hk (fun _ => hne) j hj
  · intro set
    unfold everFilled
    rw [hon.array]
    exact (base_settled h set).congr (fun _ => rfl) (Or.inr rfl) (fun _ _ => rfl)
  · intro e he hvalid
    rw [hon.vc] at hvalid ⊢
    exact nextVc_held h he hvalid
  · rw [hon.prefetcher]
    exact (nextPrefetcher_aligned h).left
  · rw [hon.prefetcher]
    exact (nextPrefetcher_aligned h).right
  · intro _
    refine ⟨?_, ?_, ?_, ?_, ?_, ?_, ?_, ?_⟩
    · rw [hon.fillSetR]
      exact hfilling.set
    · rw [hon.fillWayR]
      exact hfilling.way
    · rw [hon.fillBaseR, haddr]
      exact hfilling.base
    · rw [hon.fillWordR]
      exact hword
    · intro k hk hvalid
      rw [hon.array] at hvalid ⊢
      rw [hline] at hk
      rw [haddr]
      exact hfilling.fresh k hk (probedValid_le hvalid)
    · intro j hj
      rw [hon.fillWordR] at hj
      rw [hon.array, hline, haddr]
      exact hnew j hj
    · intro hused j hj hlt
      rw [hline] at hused
      rw [hon.fillWordR] at hj
      rw [hon.array, hline]
      show data (c.fillLine cfg, j) = _
      rw [hold j hj]
      exact hfilling.oldWords hused j (Nat.le_trans hle hj) hlt
    · unfold everFilled
      rw [hon.array, hon.fillSetR, hon.fillWayR]
      exact (base_nextFree h hfilling.way hfilling.nextFree).congr rfl rfl rfl

/-!
The last word of a fill.
-/

theorem completes_facts (h : Sound cfg c filled) (hcompletes : c.completes cfg i = true) :
    c.state = .fill ∧ c.fills cfg i = true ∧ c.fillWordR + 1 = cfg.lineWords := by
  simp only [completes, Bool.and_eq_true, beq_iff_eq] at hcompletes
  have hfill : c.state = .fill := by
    have hfills := hcompletes.left
    simp only [fills, Bool.and_eq_true, beq_iff_eq] at hfills
    exact hfills.left
  have hlt := (h.filling hfill).word
  refine ⟨hfill, hcompletes.left, ?_⟩
  omega

theorem filledAge_other {set way : Nat} (hne : set ≠ c.fillSetR) :
    c.filledAge cfg i (set, way) = c.fetchedAge cfg i (set, way) := by
  unfold filledAge
  split
  · simp [hne]
  · rfl

/--
The touch of the fill overrides that of fetch as long as the way being filled is the
oldest of its set.
-/
theorem filledAge_self (hpolicy : cfg.policy = .lru)
    (hages : (c.everFilled filled).AgePacked cfg.toGeometry c.fillSetR)
    (hlast : c.array.age (c.fillSetR, c.fillWayR) = cfg.ways - 1) {k : Nat}
    (hway : c.fillWayR < cfg.ways) (hk : k < cfg.ways) :
    c.filledAge cfg i (c.fillSetR, k) =
      c.array.lruTouch cfg.toGeometry c.fillSetR c.fillWayR (c.fillSetR, k) := by
  have hover : k = c.fillWayR ∨
      c.array.age (c.fillSetR, k) < c.array.age (c.fillSetR, c.fillWayR) := by
    by_cases heq : k = c.fillWayR
    · exact Or.inl heq
    · right
      have hlt : c.array.age (c.fillSetR, k) < cfg.ways := hages.lt k hk
      have hne : c.array.age (c.fillSetR, k) ≠ c.array.age (c.fillSetR, c.fillWayR) :=
        fun hsame => heq (hages.distinct k c.fillWayR hk hway hsame)
      omega
  unfold filledAge
  rw [if_pos hpolicy]
  exact if_pos ⟨rfl, hk, hover⟩

theorem held_mono {filled' : Nat -> Bool} {e : VictimEntry}
    (hmono : forall k, filled k = true -> filled' k = true) (h : Held cfg filled e) :
    Held cfg filled' e where
  setFull way hway := hmono _ (h.setFull way hway)
  data := h.data

def withFill (cfg : ICacheConfig w) (c : ICache w) (filled : Nat -> Bool) : Nat -> Bool :=
  setAt filled (c.fillLine cfg) true

theorem withFill_mono {k : Nat} (hk : filled k = true) :
    c.withFill cfg filled k = true := by
  unfold withFill
  rw [setAt_apply]
  split
  · rfl
  · exact hk

structure Completes (cfg : ICacheConfig w) (c : ICache w) (i : ICacheIn w)
    (next : ICache w) : Prop where
  array : next.array = c.committed cfg i (c.written cfg i (c.base cfg i))
  vc : next.vc = c.nextVc cfg i
  prefetcher : next.prefetcher = c.nextPrefetcher cfg i
  state : next.state = .idle

theorem committed_lineAddr (hfilling : Filling cfg c filled) (k : Nat) :
    (c.committed cfg i (c.written cfg i (c.base cfg i))).lineAddr cfg.toGeometry k =
      if k = c.fillLine cfg then c.fillAddr cfg
      else c.array.lineAddr cfg.toGeometry k := by
  show cfg.joinTag (setAt c.array.tag (c.fillLine cfg) c.fillTagR k) (cfg.setOf k) = _
  rw [setAt_apply]
  split
  · rename_i heq
    have hset : cfg.setOf k = c.fillSetR := by
      rw [heq]
      exact cfg.setOf_lineIdx hfilling.way
    rw [hset]
    rfl
  · rfl

theorem committed_settled (h : Sound cfg c filled) (hfill : c.state = .fill) (set : Nat) :
    LineArray.Settled cfg.toGeometry
      { c.committed cfg i (c.written cfg i (c.base cfg i)) with
        valid := c.withFill cfg filled } set := by
  have hfilling := h.filling hfill
  by_cases heq : set = c.fillSetR
  · rw [heq]
    have hage : (c.everFilled filled).SetFull cfg.toGeometry c.fillSetR ∨
        (cfg.policy = .lru -> forall k, k < cfg.ways ->
          c.filledAge cfg i (c.fillSetR, k) =
            c.array.lruTouch cfg.toGeometry c.fillSetR c.fillWayR (c.fillSetR, k)) := by
      rcases hfilling.nextFree with hfull | ⟨_, horder⟩
      · exact Or.inl hfull
      · right
        intro hpolicy k hk
        rw [if_pos hpolicy] at horder
        exact filledAge_self hpolicy horder.left horder.right hfilling.way hk
    exact hfilling.nextFree.filled hfilling.way hage (setAt_self _ _ _) rfl
  · refine (base_settled (i := i) h set).congr ?_ (Or.inr ?_) ?_
    · intro k
      exact filledAge_other heq
    · exact setAt_of_ne heq
    · intro k hk
      refine setAt_of_ne ?_
      intro hline
      have hset := congrArg cfg.setOf hline
      rw [fillLine, cfg.setOf_lineIdx hk, cfg.setOf_lineIdx hfilling.way] at hset
      exact heq hset

theorem Completes.sound {next : ICache w} (hdone : Completes cfg c i next)
    (h : Sound cfg c filled) (hanswered : c.Answered cfg i)
    (hcompletes : c.completes cfg i = true) :
    Sound cfg next (c.withFill cfg filled) := by
  obtain ⟨hfill, hfills, hlast⟩ := completes_facts h hcompletes
  have hfilling := h.filling hfill
  have hwell := base_wellFormed (i := i) h.wellFormed
  refine ⟨?_, ?_, ?_, ?_, ?_, ?_, ?_, ?_⟩
  · rw [hdone.array]
    refine hwell.install (fillLine_lt hfilling) ?_ ?_ ?_
    · intro k hk
      exact ⟨setAt_of_ne hk, (committed_lineAddr hfilling k).trans (if_neg hk)⟩
    · intro k hk hvalid
      rw [committed_lineAddr hfilling, if_pos rfl, base_lineAddr]
      exact hfilling.fresh k hk (probedValid_le hvalid)
    · intro set
      show setAt c.array.victim c.fillSetR _ set < cfg.ways
      rw [setAt_apply]
      split
      · exact LineArray.nextVictim_lt hfilling.way
      · exact h.wellFormed.pointer set
  · intro k hk
    rw [hdone.array] at hk
    change setAt (c.probedValid cfg i) (c.fillLine cfg) true k = true at hk
    unfold withFill
    rw [setAt_apply] at hk ⊢
    split
    · rfl
    · rename_i hne
      rw [if_neg hne] at hk
      exact h.used k (probedValid_le hk)
  · intro k hk _ word hword
    rw [hdone.array, committed_lineAddr hfilling]
    show setAt c.array.data (c.fillLine cfg, c.fillWordR) (c.imemData cfg i) (k, word) = _
    rw [setAt_apply]
    by_cases heq : k = c.fillLine cfg
    · rw [if_pos heq, heq]
      by_cases hlastWord : word = c.fillWordR
      · rw [if_pos (by rw [hlastWord]), imemData_eq h hanswered hfills, hlastWord]
      · rw [if_neg (fun hpair => hlastWord (congrArg Prod.snd hpair))]
        exact hfilling.newWords word (by omega)
    · rw [if_neg (fun hpair => heq (congrArg Prod.fst hpair)), if_neg heq]
      rw [withFill, setAt_of_ne heq] at hk
      exact h.intact k hk (fun _ => heq) word hword
  · intro set
    unfold everFilled
    rw [hdone.array]
    exact committed_settled h hfill set
  · intro e he hvalid
    rw [hdone.vc] at hvalid ⊢
    exact held_mono (fun _ => withFill_mono) (nextVc_held h he hvalid)
  · rw [hdone.prefetcher]
    exact (nextPrefetcher_aligned h).left
  · rw [hdone.prefetcher]
    exact (nextPrefetcher_aligned h).right
  · intro hstate
    rw [hdone.state] at hstate
    cases hstate

/-!
# A hit in the victim buffer
-/

structure Promotes (cfg : ICacheConfig w) (c : ICache w) (i : ICacheIn w)
    (next : ICache w) : Prop where
  array : next.array = c.promoted cfg i (c.base cfg i)
  vc : next.vc = c.nextVc cfg i
  prefetcher : next.prefetcher = c.nextPrefetcher cfg i
  state : next.state = .idle

theorem promoted_lineAddr (h : c.array.WellFormed cfg.toGeometry) (k : Nat) :
    (c.promoted cfg i (c.base cfg i)).lineAddr cfg.toGeometry k =
      if k = c.victimLine cfg i then cfg.lineAddr (addr i)
      else c.array.lineAddr cfg.toGeometry k := by
  show cfg.joinTag (setAt c.array.tag (c.victimLine cfg i) (cfg.toGeometry.tag (addr i)) k)
    (cfg.setOf k) = _
  rw [setAt_apply]
  split
  · rename_i heq
    have hset : cfg.setOf k = cfg.toGeometry.setIdx (addr i) := by
      rw [heq]
      exact LineArray.setOf_victimLine h _
    rw [hset]
    exact cfg.joinTag_tag_setIdx (addr i)
  · rfl

theorem Promotes.sound {next : ICache w} (hpromotes : Promotes cfg c i next)
    (h : Sound cfg c filled) (hswap : c.vcDoSwap cfg i = true) : Sound cfg next filled := by
  obtain ⟨hidle, hmain, hvc⟩ := vcDoSwap_facts hswap
  obtain ⟨hfull, hdata⟩ := vcLookup_facts h hvc
  have hlt := victimTargetWay_lt (i := i) h.wellFormed
  have hvictim : filled (c.victimLine cfg i) = true := hfull _ hlt
  have hwell := base_wellFormed (i := i) h.wellFormed
  refine ⟨?_, ?_, ?_, ?_, ?_, ?_, ?_, ?_⟩
  · rw [hpromotes.array]
    refine hwell.install (LineArray.victimLine_lt h.wellFormed (addr i)) ?_ ?_ ?_
    · intro k hk
      exact ⟨setAt_of_ne hk, (promoted_lineAddr h.wellFormed k).trans (if_neg hk)⟩
    · intro k _ hvalid heq
      rw [promoted_lineAddr h.wellFormed] at heq
      refine LineArray.not_held_of_miss h.wellFormed hmain (probedValid_le hvalid) ?_
      exact heq.trans (if_pos rfl)
    · intro set
      show setAt c.array.victim (setIdx cfg i) _ set < cfg.ways
      rw [setAt_apply]
      split
      · exact LineArray.nextVictim_lt hlt
      · exact h.wellFormed.pointer set
  · intro k hk
    rw [hpromotes.array] at hk
    change setAt (c.probedValid cfg i) (c.victimLine cfg i) true k = true at hk
    rw [setAt_apply] at hk
    by_cases heq : k = c.victimLine cfg i
    · rw [heq]
      exact hvictim
    · rw [if_neg heq] at hk
      exact h.used k (probedValid_le hk)
  · intro k hk _ word hword
    rw [hpromotes.array, promoted_lineAddr h.wellFormed]
    show (if k = c.victimLine cfg i ∧ word < cfg.lineWords then c.vcLookupData cfg i word
      else c.array.data (k, word)) = _
    by_cases heq : k = c.victimLine cfg i
    · rw [if_pos ⟨heq, hword⟩, if_pos heq]
      exact hdata word hword
    · rw [if_neg (fun hboth => heq hboth.left), if_neg heq]
      exact intact_of_idle h hidle hk word hword
  · intro set
    unfold everFilled
    rw [hpromotes.array]
    refine (base_settled (i := i) h set).congr (fun _ => rfl) ?_ (fun _ _ => rfl)
    by_cases heq : set = setIdx cfg i
    · left
      rw [heq]
      exact hfull
    · right
      exact setAt_of_ne heq
  · intro e he hvalid
    rw [hpromotes.vc] at hvalid ⊢
    exact nextVc_held h he hvalid
  · rw [hpromotes.prefetcher]
    exact (nextPrefetcher_aligned h).left
  · rw [hpromotes.prefetcher]
    exact (nextPrefetcher_aligned h).right
  · intro hstate
    rw [hpromotes.state] at hstate
    cases hstate

/-!
# The clock edge
-/

theorem IsReset.sound (h : c.IsReset cfg) : Sound cfg c (fun _ => false) where
  wellFormed := h.array.wellFormed
  used := by
    intro k hk
    rw [h.array.valid] at hk
    cases hk
  intact := by
    intro k hk
    cases hk
  settled := by
    intro set
    have hview : (c.everFilled fun _ => false).IsReset cfg.toGeometry :=
      ⟨fun _ => rfl, h.array.dirty, h.array.victim, h.array.age⟩
    exact hview.packed.settled set
  held := by
    intro e _ hvalid
    rw [h.vc.valid] at hvalid
    cases hvalid
  lastAddr := by
    rw [h.prefetcher]
    exact Nat.dvd_zero _
  lastStride := by
    rw [h.prefetcher]
    exact Nat.dvd_zero _
  filling := by
    intro hfill
    rw [h.state] at hfill
    cases hfill

/-!
# Every run
-/

def Consistent (cfg : ICacheConfig w) (c : ICache w) : Prop :=
  exists filled, Sound cfg c filled

end ICache
end Cache
end RvCores
