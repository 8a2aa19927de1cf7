import RvCores.Cache.LineArray
import RvCores.Lib.Recency

/-!
# Replacement order

As long as lines are only added, both replacement policies fill a set completely
before they choose a way that is in use.  With a pointer the ways below it are in
use; with ages every way in use is younger than every free way.
-/

namespace RvCores
namespace Cache

open Isa Lib

namespace LineArray

variable (g : Geometry) (arr : LineArray)

def SetFull (set : Nat) : Prop :=
  forall way, way < g.ways -> arr.valid (g.lineIdx set way) = true

/--
The pointer has not wrapped, or the set is full.
-/
def PointerPacked (set : Nat) : Prop :=
  arr.SetFull g set ∨
    forall way, way < g.ways ->
      (arr.valid (g.lineIdx set way) = true <-> way < arr.victim set)

/--
The ages of a set are all different, and lines in use are younger than free ones.
-/
structure AgePacked (set : Nat) : Prop where
  lt : forall way, way < g.ways -> arr.age (set, way) < g.ways
  distinct : forall way way', way < g.ways -> way' < g.ways ->
    arr.age (set, way) = arr.age (set, way') -> way = way'
  younger : forall way way', way < g.ways -> way' < g.ways ->
    arr.valid (g.lineIdx set way) = true -> arr.valid (g.lineIdx set way') = false ->
    arr.age (set, way) < arr.age (set, way')

def Packed : Prop :=
  forall set, if g.policy = .lru then arr.AgePacked g set else arr.PointerPacked g set

variable {g arr}

theorem IsReset.packed (h : arr.IsReset g) : arr.Packed g := by
  intro set
  split
  · refine ⟨?_, ?_, ?_⟩
    · intro way hway
      rw [h.age set way hway]
      exact hway
    · intro way way' hway hway' heq
      rwa [h.age set way hway, h.age set way' hway'] at heq
    · intro way way' _ _ hvalid
      rw [h.valid] at hvalid
      cases hvalid
  · apply Or.inr
    intro way _
    rw [h.valid, h.victim]
    simp

/-!
# The victim way
-/

theorem AgePacked.exists_oldest {set : Nat} (h : arr.AgePacked g set) :
    exists way, way < g.ways ∧ arr.age (set, way) = g.ways - 1 := by
  have hlast : g.ways - 1 < g.ways := Nat.sub_lt g.ways_pos Nat.one_pos
  exact exists_of_age h.lt h.distinct hlast

theorem AgePacked.lruWayIdx {set : Nat} (h : arr.AgePacked g set) :
    arr.age (set, arr.lruWayIdx g set) = g.ways - 1 := by
  rcases h.exists_oldest with ⟨way, hway, hage⟩
  have hidx : arr.lruWayIdx g set = way := by
    apply orNat_of_unique hway
    · exact beq_iff_eq.mpr hage
    · intro j hj hjAge
      exact h.distinct j way hj hway ((beq_iff_eq.mp hjAge).trans hage.symm)
  rw [hidx, hage]

theorem Packed.setFull (h : arr.Packed g) (hwf : arr.WellFormed g) {set : Nat}
    (hvalid : arr.valid (g.lineIdx set (arr.victimTargetWay g set)) = true) :
    arr.SetFull g set := by
  have hlt := victimTargetWay_lt hwf set
  have hset := h set
  intro way hway
  unfold victimTargetWay at hvalid hlt
  by_cases hpolicy : g.policy = .lru
  · rw [if_pos hpolicy] at hvalid hset hlt
    cases hfree : arr.valid (g.lineIdx set way) with
    | true => rfl
    | false =>
        have hyounger := hset.younger _ way hlt hway hvalid hfree
        rw [hset.lruWayIdx] at hyounger
        have hage := hset.lt way hway
        omega
  · rw [if_neg hpolicy] at hvalid hset hlt
    rcases hset with hfull | hbelow
    · exact hfull way hway
    · exact absurd ((hbelow _ hlt).mp hvalid) (Nat.lt_irrefl _)

/-!
# Touching and filling
-/

theorem age_lruTouch_of_ne {set set' way way' : Nat} (hset : set' ≠ set) :
    arr.lruTouch g set way (set', way') = arr.age (set', way') := by
  unfold lruTouch
  rw [if_neg (fun h => hset h.left)]

theorem age_lruTouch {set way way' : Nat} (hway' : way' < g.ways) :
    arr.lruTouch g set way (set, way') =
      if way' = way then 0
      else if arr.age (set, way') < arr.age (set, way) then arr.age (set, way') + 1
      else arr.age (set, way') := by
  unfold lruTouch
  rw [if_pos ⟨rfl, hway'⟩]

/--
Touching a way, which may come into use with the touch, keeps the ages packed.
-/
theorem AgePacked.touch {arr' : LineArray} {set way : Nat} (h : arr.AgePacked g set)
    (hway : way < g.ways)
    (hage : forall k, k < g.ways -> arr'.age (set, k) = arr.lruTouch g set way (set, k))
    (hused : arr'.valid (g.lineIdx set way) = true)
    (hother : forall k, k < g.ways -> k ≠ way ->
      arr'.valid (g.lineIdx set k) = arr.valid (g.lineIdx set k)) :
    arr'.AgePacked g set where
  lt k hk := by
    rw [hage k hk, age_lruTouch hk]
    have hlt := h.lt k hk
    have hltWay := h.lt way hway
    split
    · exact g.ways_pos
    · split <;> omega
  distinct k k' hk hk' heq := by
    rw [hage k hk, hage k' hk', age_lruTouch hk, age_lruTouch hk'] at heq
    have hdistinct := h.distinct k k' hk hk'
    have hkWay := h.distinct k way hk hway
    have hkWay' := h.distinct k' way hk' hway
    grind
  younger k k' hk hk' hvalid hfree := by
    have hne' : k' ≠ way := by
      intro heq
      rw [heq, hused] at hfree
      cases hfree
    rw [hother k' hk' hne'] at hfree
    rw [hage k hk, hage k' hk', age_lruTouch hk, age_lruTouch hk', if_neg hne']
    have hkWay' := h.distinct k' way hk' hway
    by_cases hkw : k = way
    · rw [if_pos hkw]
      split <;> omega
    · rw [hother k hk hkw] at hvalid
      have hyounger := h.younger k k' hk hk' hvalid hfree
      rw [if_neg hkw]
      split <;> split <;> omega

theorem SetFull.mono {arr' : LineArray} {set : Nat} (h : arr.SetFull g set)
    (hvalid : forall line, arr.valid line = true -> arr'.valid line = true) :
    arr'.SetFull g set := by
  intro way hway
  exact hvalid _ (h way hway)

/--
Filling the victim way and moving the pointer behind it.
-/
theorem PointerPacked.fill {arr' : LineArray} {set : Nat} (h : arr.PointerPacked g set)
    (hlt : arr.victim set < g.ways)
    (hused : arr'.valid (g.lineIdx set (arr.victim set)) = true)
    (hother : forall k, k < g.ways -> k ≠ arr.victim set ->
      arr'.valid (g.lineIdx set k) = arr.valid (g.lineIdx set k))
    (hnext : arr'.victim set = nextVictim g (arr.victim set)) :
    arr'.PointerPacked g set := by
  rcases h with hfull | hbelow
  · apply Or.inl
    intro way hway
    by_cases heq : way = arr.victim set
    · rw [heq, hused]
    · rw [hother way hway heq]
      exact hfull way hway
  · unfold nextVictim at hnext
    by_cases hlast : arr.victim set = g.ways - 1
    · apply Or.inl
      intro way hway
      by_cases heq : way = arr.victim set
      · rw [heq, hused]
      · rw [hother way hway heq]
        exact (hbelow way hway).mpr (by omega)
    · rw [if_neg hlast] at hnext
      apply Or.inr
      intro way hway
      rw [hnext]
      by_cases heq : way = arr.victim set
      · rw [heq, hused]
        simp
      · rw [hother way hway heq, hbelow way hway]
        omega

theorem AgePacked.congr {arr' : LineArray} {set : Nat} (h : arr.AgePacked g set)
    (hage : forall k, k < g.ways -> arr'.age (set, k) = arr.age (set, k))
    (hvalid : forall k, k < g.ways ->
      arr'.valid (g.lineIdx set k) = arr.valid (g.lineIdx set k)) :
    arr'.AgePacked g set where
  lt k hk := by
    rw [hage k hk]
    exact h.lt k hk
  distinct k k' hk hk' heq := by
    rw [hage k hk, hage k' hk'] at heq
    exact h.distinct k k' hk hk' heq
  younger k k' hk hk' hused hfree := by
    rw [hage k hk, hage k' hk']
    exact h.younger k k' hk hk' ((hvalid k hk).symm.trans hused)
      ((hvalid k' hk').symm.trans hfree)

theorem PointerPacked.congr {arr' : LineArray} {set : Nat} (h : arr.PointerPacked g set)
    (hvictim : arr.SetFull g set ∨ arr'.victim set = arr.victim set)
    (hvalid : forall k, k < g.ways ->
      arr'.valid (g.lineIdx set k) = arr.valid (g.lineIdx set k)) :
    arr'.PointerPacked g set := by
  have hfull : arr.SetFull g set -> arr'.PointerPacked g set := by
    intro hfull
    apply Or.inl
    intro way hway
    rw [hvalid way hway]
    exact hfull way hway
  rcases hvictim with hset | heq
  · exact hfull hset
  · rcases h with hset | hbelow
    · exact hfull hset
    · apply Or.inr
      intro way hway
      rw [hvalid way hway, heq]
      exact hbelow way hway

/--
The pointers of full sets may move.
-/
theorem Packed.congr {arr' : LineArray} (h : arr.Packed g)
    (hage : forall k, arr'.age k = arr.age k)
    (hvictim : forall set, arr.SetFull g set ∨ arr'.victim set = arr.victim set)
    (hvalid : forall line, arr'.valid line = arr.valid line) :
    arr'.Packed g := by
  intro set
  have hset := h set
  by_cases hpolicy : g.policy = .lru
  · rw [if_pos hpolicy] at hset ⊢
    exact hset.congr (fun k _ => hage (set, k)) (fun k _ => hvalid _)
  · rw [if_neg hpolicy] at hset ⊢
    exact hset.congr (hvictim set) (fun k _ => hvalid _)

theorem Packed.touch {arr' : LineArray} (h : arr.Packed g) {set way : Nat}
    (hway : way < g.ways) (hused : arr.valid (g.lineIdx set way) = true)
    (hage : g.policy = .lru -> arr'.age = arr.lruTouch g set way)
    (hvictim : arr'.victim = arr.victim) (hvalid : arr'.valid = arr.valid) :
    arr'.Packed g := by
  intro set'
  have hset := h set'
  by_cases hpolicy : g.policy = .lru
  · rw [if_pos hpolicy] at hset ⊢
    by_cases heq : set' = set
    · subst heq
      apply hset.touch hway
      · intro k _
        rw [hage hpolicy]
      · rw [hvalid]
        exact hused
      · intro k _ _
        rw [hvalid]
    · apply hset.congr
      · intro k _
        rw [hage hpolicy, age_lruTouch_of_ne heq]
      · intro k _
        rw [hvalid]
  · rw [if_neg hpolicy] at hset ⊢
    exact hset.congr (Or.inr (by rw [hvictim])) (fun k _ => by rw [hvalid])

/-!
# Ways to be filled in turn

Ways that were chosen ahead of their fills keep the pointer order if, in every set,
those behind the pointer come before those on it.
-/

/--
The way is the next one of its set, or the last one that was filled.
-/
def Due (g : Geometry) (arr : LineArray) (set way : Nat) : Prop :=
  way = arr.victim set ∨
    (arr.valid (g.lineIdx set way) = true ∧ arr.victim set = nextVictim g way)

/--
The sets and ways of a list are due one after the other.
-/
structure InTurn (g : Geometry) (arr : LineArray) (fills : List (Nat × Nat)) : Prop where
  due : forall p, p ∈ fills -> arr.Due g p.1 p.2
  inOrder : fills.Pairwise (fun p q => p.1 = q.1 -> p.2 = arr.victim p.1 ->
    q.2 = arr.victim q.1)

theorem InTurn.nil : arr.InTurn g [] where
  due p hp := by cases hp
  inOrder := List.Pairwise.nil

theorem InTurn.join {fills : List (Nat × Nat)} (h : arr.InTurn g fills) (set : Nat) :
    arr.InTurn g (fills ++ [(set, arr.victim set)]) where
  due p hp := by
    rcases List.mem_append.mp hp with hold | hnew
    · exact h.due p hold
    · rw [List.mem_singleton.mp hnew]
      exact Or.inl rfl
  inOrder := by
    apply List.pairwise_append.mpr
    refine ⟨h.inOrder, List.pairwise_singleton _ _, ?_⟩
    intro p _ q hq _ _
    rw [List.mem_singleton.mp hq]

theorem InTurn.congr {arr' : LineArray} {fills : List (Nat × Nat)} (h : arr.InTurn g fills)
    (hvalid : arr'.valid = arr.valid) (hvictim : arr'.victim = arr.victim) :
    arr'.InTurn g fills := by
  constructor
  · unfold Due
    rw [hvalid, hvictim]
    exact h.due
  · rw [hvictim]
    exact h.inOrder

/--
The first of the fills takes place.
-/
theorem InTurn.fill {arr' : LineArray} {set way : Nat} {fills : List (Nat × Nat)}
    (h : arr.InTurn g ((set, way) :: fills))
    (hvictim : arr'.victim = setAt arr.victim set (nextVictim g way))
    (hvalid : arr'.valid = setAt arr.valid (g.lineIdx set way) true) :
    arr'.InTurn g fills := by
  have hmono : forall line, arr.valid line = true -> arr'.valid line = true := by
    intro line hline
    rw [hvalid, setAt_apply, hline]
    split <;> rfl
  have hused : arr'.valid (g.lineIdx set way) = true := by rw [hvalid, setAt_self]
  have hafter := List.pairwise_cons.mp h.inOrder
  have hlast : arr'.victim set = nextVictim g way := by rw [hvictim, setAt_self]
  have hother : forall set', set' ≠ set -> arr'.victim set' = arr.victim set' := by
    intro set' hne
    rw [hvictim, setAt_of_ne hne]
  -- either the pointer stays, or all the fills of the set were due on it
  have hmoves : arr'.victim set = arr.victim set ∨
      forall p, p ∈ fills -> p.1 = set -> p.2 = way := by
    rcases h.due _ List.mem_cons_self with hnext | ⟨_, hprev⟩
    · apply Or.inr
      intro p hp hset
      have hon := hafter.left p hp hset.symm hnext
      rw [hon, hset]
      exact hnext.symm
    · exact Or.inl (hlast.trans hprev.symm)
  constructor
  · intro p hp
    have hdue := h.due p (List.mem_cons_of_mem _ hp)
    have hkept : arr'.victim p.1 = arr.victim p.1 -> arr'.Due g p.1 p.2 := by
      intro hsame
      unfold Due
      rw [hsame]
      exact hdue.imp_right (fun hbehind => ⟨hmono _ hbehind.left, hbehind.right⟩)
    by_cases hset : p.1 = set
    · rcases hmoves with hsame | hway
      · exact hkept (hset ▸ hsame)
      · rw [hset, hway p hp hset]
        exact Or.inr ⟨hused, hlast⟩
    · exact hkept (hother _ hset)
  · apply hafter.right.imp_of_mem
    intro p q hp hq hpq hsets hon
    by_cases hset : p.1 = set
    · rcases hmoves with hsame | hway
      · rw [hset, hsame, ← hset] at hon
        rw [← hsets, hset, hsame, ← hset, hsets]
        exact hpq hsets hon
      · rw [← hsets, ← hon, hway p hp hset]
        exact hway q hq (hsets.symm.trans hset)
    · rw [hother _ hset] at hon
      rw [← hsets, hother _ hset, hsets]
      exact hpq hsets hon

/--
Filling a way that is due.
-/
theorem PointerPacked.fill_due {arr' : LineArray} {set way : Nat}
    (h : arr.PointerPacked g set) (hway : way < g.ways) (hdue : arr.Due g set way)
    (hused : arr'.valid (g.lineIdx set way) = true)
    (hother : forall k, k < g.ways -> k ≠ way ->
      arr'.valid (g.lineIdx set k) = arr.valid (g.lineIdx set k))
    (hnext : arr'.victim set = nextVictim g way) :
    arr'.PointerPacked g set := by
  rcases hdue with rfl | ⟨hvalid, hprev⟩
  · exact h.fill hway hused hother hnext
  · apply h.congr (Or.inr (hnext.trans hprev.symm))
    intro k hk
    by_cases heq : k = way
    · rw [heq, hused, hvalid]
    · exact hother k hk heq

/--
A fill of a way; where a pointer chooses the victims, of a way that is due.
-/
theorem Packed.fill {arr' : LineArray} (h : arr.Packed g) {set way : Nat}
    (hway : way < g.ways) (hdue : g.policy ≠ .lru -> arr.Due g set way)
    (hage : g.policy = .lru -> arr'.age = arr.lruTouch g set way)
    (hvictim : arr'.victim = setAt arr.victim set (nextVictim g way))
    (hvalid : arr'.valid = setAt arr.valid (g.lineIdx set way) true) :
    arr'.Packed g := by
  have hother : forall set' k, k < g.ways -> (set' ≠ set ∨ k ≠ way) ->
      arr'.valid (g.lineIdx set' k) = arr.valid (g.lineIdx set' k) := by
    intro set' k hk hne
    rw [hvalid]
    apply setAt_of_ne
    intro heq
    have hset := congrArg g.setOf heq
    have hk' := congrArg g.wayOf heq
    rw [g.setOf_lineIdx hk, g.setOf_lineIdx hway] at hset
    rw [g.wayOf_lineIdx hk, g.wayOf_lineIdx hway] at hk'
    rcases hne with hne | hne
    · exact hne hset
    · exact hne hk'
  have hused : arr'.valid (g.lineIdx set way) = true := by rw [hvalid, setAt_self]
  intro set'
  have hset := h set'
  by_cases hpolicy : g.policy = .lru
  · rw [if_pos hpolicy] at hset ⊢
    by_cases heq : set' = set
    · subst heq
      apply hset.touch hway
      · intro k _
        rw [hage hpolicy]
      · exact hused
      · intro k hk hne
        exact hother _ k hk (Or.inr hne)
    · apply hset.congr
      · intro k _
        rw [hage hpolicy, age_lruTouch_of_ne heq]
      · intro k hk
        exact hother _ k hk (Or.inl heq)
  · rw [if_neg hpolicy] at hset ⊢
    by_cases heq : set' = set
    · subst heq
      apply hset.fill_due hway (hdue hpolicy) hused
      · intro k hk hne
        exact hother _ k hk (Or.inr hne)
      · rw [hvictim, setAt_self]
    · apply hset.congr
      · exact Or.inr (by rw [hvictim, setAt_of_ne heq])
      · intro k hk
        exact hother _ k hk (Or.inl heq)

theorem victimTargetWay_of_pointer (hpolicy : g.policy ≠ .lru) (set : Nat) :
    arr.victimTargetWay g set = arr.victim set := by
  unfold victimTargetWay
  rw [if_neg hpolicy]

end LineArray
end Cache
end RvCores
