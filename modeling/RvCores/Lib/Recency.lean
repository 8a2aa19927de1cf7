import Mathlib.Data.Fintype.EquivFin

/-!
# Ages and recency

Each of some ways has an age.  A touch makes one way the youngest and ages every way that
was younger than it by one.  The ages then rank the ways by the time of their last touch,
and the ways that were never touched by their number.
-/

namespace RvCores
namespace Lib

/--
Different ages below the number of ways are all in use.
-/
theorem exists_of_age {ways : Nat} {age : Nat -> Nat}
    (hlt : forall way, way < ways -> age way < ways)
    (hdistinct : forall way way', way < ways -> way' < ways -> age way = age way' -> way = way')
    {a : Nat} (ha : a < ways) : exists way, way < ways ∧ age way = a := by
  let f : Fin ways -> Fin ways := fun way => ⟨age way, hlt way way.isLt⟩
  have hinj : Function.Injective f := by
    intro way way' hsame
    exact Fin.ext (hdistinct way way' way.isLt way'.isLt (Fin.mk.inj hsame))
  obtain ⟨way, hway⟩ := Finite.surjective_of_injective hinj ⟨a, ha⟩
  exact ⟨way, way.isLt, Fin.mk.inj hway⟩

def touched (age : Nat -> Nat) (way : Nat) : Nat -> Nat :=
  fun k => if k = way then 0 else if age k < age way then age k + 1 else age k

/--
The cycle after the last touch of a way before a cycle, or zero.
-/
def lastTouch (touch : Nat -> Option Nat) (way : Nat) : Nat -> Nat
  | 0 => 0
  | n + 1 => if touch n = some way then n + 1 else lastTouch touch way n

def MoreRecent (touch : Nat -> Option Nat) (n way way' : Nat) : Prop :=
  lastTouch touch way' n < lastTouch touch way n ∨
    lastTouch touch way n = 0 ∧ lastTouch touch way' n = 0 ∧ way < way'

variable {touch : Nat -> Option Nat} {n way way' ways : Nat}

theorem lastTouch_le : lastTouch touch way n <= n := by
  induction n with
  | zero => exact Nat.le_refl 0
  | succ n ih =>
      unfold lastTouch
      split
      · exact Nat.le_refl (n + 1)
      · exact Nat.le_succ_of_le ih

theorem lastTouch_self (h : touch n = some way) : lastTouch touch way (n + 1) = n + 1 :=
  if_pos h

theorem lastTouch_other (h : touch n ≠ some way) :
    lastTouch touch way (n + 1) = lastTouch touch way n :=
  if_neg h

/--
One way at a time is touched.
-/
theorem lastTouch_inj (hsame : lastTouch touch way n = lastTouch touch way' n)
    (hpos : lastTouch touch way n ≠ 0) : way = way' := by
  induction n with
  | zero => exact absurd rfl hpos
  | succ n ih =>
      have hle : lastTouch touch way n <= n := lastTouch_le
      have hle' : lastTouch touch way' n <= n := lastTouch_le
      by_cases hway : touch n = some way
      · by_cases hway' : touch n = some way'
        · exact Option.some.inj (hway.symm.trans hway')
        · rw [lastTouch_self hway, lastTouch_other hway'] at hsame
          omega
      · rw [lastTouch_other hway] at hsame hpos
        by_cases hway' : touch n = some way'
        · rw [lastTouch_self hway'] at hsame
          omega
        · rw [lastTouch_other hway'] at hsame
          exact ih hsame hpos

theorem moreRecent_total (hne : way ≠ way') :
    MoreRecent touch n way way' ∨ MoreRecent touch n way' way := by
  unfold MoreRecent
  have hinj : lastTouch touch way n = lastTouch touch way' n ->
      lastTouch touch way n = 0 := by
    intro hsame
    by_contra hpos
    exact hne (lastTouch_inj hsame hpos)
  omega

/-!
# The ranking
-/

structure Ranked (ways : Nat) (touch : Nat -> Option Nat) (n : Nat) (age : Nat -> Nat) :
    Prop where
  lt : forall way, way < ways -> age way < ways
  order : forall way way', way < ways -> way' < ways ->
    (age way < age way' <-> MoreRecent touch n way way')

theorem ranked_start {age : Nat -> Nat} (h : forall way, way < ways -> age way = way) :
    Ranked ways touch 0 age where
  lt way hway := by
    rw [h way hway]
    exact hway
  order way way' hway hway' := by
    rw [h way hway, h way' hway']
    simp [MoreRecent, lastTouch]

namespace Ranked

variable {age age' : Nat -> Nat}

theorem distinct (h : Ranked ways touch n age) (hway : way < ways) (hway' : way' < ways)
    (hsame : age way = age way') : way = way' := by
  by_contra hne
  rcases moreRecent_total hne with hrecent | hrecent
  · have hlt := (h.order way way' hway hway').mpr hrecent
    omega
  · have hlt := (h.order way' way hway' hway).mpr hrecent
    omega

theorem after_rest (h : Ranked ways touch n age)
    (hnone : forall way, way < ways -> touch n ≠ some way)
    (hage : forall way, way < ways -> age' way = age way) :
    Ranked ways touch (n + 1) age' where
  lt way hway := by
    rw [hage way hway]
    exact h.lt way hway
  order way way' hway hway' := by
    rw [hage way hway, hage way' hway', h.order way way' hway hway']
    unfold MoreRecent
    rw [lastTouch_other (hnone way hway), lastTouch_other (hnone way' hway')]

theorem after_touch {k : Nat} (h : Ranked ways touch n age) (hk : k < ways)
    (htouch : touch n = some k)
    (hage : forall way, way < ways -> age' way = touched age k way) :
    Ranked ways touch (n + 1) age' where
  lt way hway := by
    have hlt := h.lt way hway
    have hltk := h.lt k hk
    rw [hage way hway]
    unfold touched
    split
    · omega
    · split <;> omega
  order way way' hway hway' := by
    have hself : lastTouch touch k (n + 1) = n + 1 := lastTouch_self htouch
    have hother : forall w, w ≠ k -> lastTouch touch w (n + 1) = lastTouch touch w n := by
      intro w hw
      apply lastTouch_other
      rw [htouch]
      exact fun hsome => hw (Option.some.inj hsome).symm
    have hbefore : forall w, lastTouch touch w n < n + 1 := by
      intro w
      exact Nat.lt_succ_of_le lastTouch_le
    rw [hage way hway, hage way' hway']
    unfold touched MoreRecent
    by_cases hwk : way = k
    · by_cases hwk' : way' = k
      · rw [hwk, hwk', hself]
        simp
      · -- the touched way comes before every other
        have hne := h.distinct hway' hk
        rw [hwk, if_pos rfl, if_neg hwk', hself, hother way' hwk']
        have hlate := hbefore way'
        constructor
        · intro _
          exact Or.inl hlate
        · intro _
          split <;> omega
    · rw [if_neg hwk, hother way hwk]
      by_cases hwk' : way' = k
      · rw [hwk', if_pos rfl, hself]
        have hlate := hbefore way
        omega
      · -- between two other ways nothing changes
        rw [if_neg hwk', hother way' hwk']
        have horder := h.order way way' hway hway'
        unfold MoreRecent at horder
        rw [← horder]
        have hne : age way ≠ age k := fun hsame => hwk (h.distinct hway hk hsame)
        have hne' : age way' ≠ age k := fun hsame => hwk' (h.distinct hway' hk hsame)
        split <;> split <;> omega

/--
The ages are a permutation.
-/
theorem existsUnique (h : Ranked ways touch n age) {a : Nat} (ha : a < ways) :
    ∃! way, way < ways ∧ age way = a := by
  obtain ⟨way, hway, hage⟩ := exists_of_age h.lt (fun _ _ => h.distinct) ha
  refine ⟨way, ⟨hway, hage⟩, ?_⟩
  rintro other ⟨hother, hsame⟩
  exact h.distinct hother hway (hsame.trans hage.symm)

/--
The oldest way is the one that was touched least recently.
-/
theorem oldest_iff (h : Ranked ways touch n age) (hway : way < ways) :
    age way = ways - 1 <->
      forall other, other < ways -> other ≠ way -> MoreRecent touch n other way := by
  constructor
  · intro hold other hother hne
    apply (h.order other way hother hway).mp
    have hlt := h.lt other hother
    have hdiff : age other ≠ age way := fun hsame => hne (h.distinct hother hway hsame)
    omega
  · intro hall
    obtain ⟨last, ⟨hlast, hage⟩, _⟩ := h.existsUnique (Nat.sub_one_lt_of_lt hway)
    by_cases hsame : last = way
    · rw [← hsame]
      exact hage
    · have hlt := (h.order last way hlast hway).mpr (hall last hlast hsame)
      have hbound := h.lt way hway
      omega

end Ranked
end Lib
end RvCores
