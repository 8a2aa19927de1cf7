import Mathlib.Logic.Equiv.Basic
import RvCores.Lib.Table

/-!
# Write-back copies of a memory

A write-back hierarchy keeps copies of some lines of a memory in slots: the ways
of a cache, a victim buffer, a line latched on its way out.  A dirty copy may be
newer than memory.  The logical memory is what a reader without any cache would
see, and a family of copies is coherent with it when every copy is current, no
line is copied twice, and memory itself is current wherever no copy is dirty.

Each lemma below is one thing a cache does to its slots or to memory.
-/

namespace RvCores
namespace Lib

@[ext] structure Copy (addr line : Type) where
  addr : addr
  dirty : Bool
  data : line

structure Coherent {slot addr line : Type} (copies : slot -> Option (Copy addr line))
    (mem flat : addr -> line) : Prop where
  current : forall {s c}, copies s = some c -> c.data = flat c.addr
  unique : forall {s t c d}, copies s = some c -> copies t = some d ->
    c.addr = d.addr -> s = t
  settled : forall a, (forall s c, copies s = some c -> c.addr = a -> c.dirty = false) ->
    mem a = flat a

namespace Coherent

variable {slot addr line : Type} {copies : slot -> Option (Copy addr line)}
  {mem flat : addr -> line}

/-!
# Reading
-/

theorem mem_eq_flat (h : Coherent copies mem flat)
    (hclean : forall s c, copies s = some c -> c.dirty = false) :
    mem = flat := by
  funext a
  exact h.settled a (fun s c hs _ => hclean s c hs)

theorem mem_of_clean (h : Coherent copies mem flat) {s : slot} {c : Copy addr line}
    (hs : copies s = some c) (hclean : c.dirty = false) :
    mem c.addr = flat c.addr := by
  apply h.settled
  intro t d ht haddr
  have hst : t = s := h.unique ht hs haddr
  subst hst
  rw [hs] at ht
  cases ht
  exact hclean

theorem mem_of_unheld (h : Coherent copies mem flat) {a : addr}
    (hunheld : forall s c, copies s = some c -> c.addr ≠ a) :
    mem a = flat a :=
  h.settled a (fun s c hs haddr => absurd haddr (hunheld s c hs))

/-!
# Writing back

While a dirty copy exists memory may hold anything at its address, so a line can
be written back piece by piece.
-/

theorem write_mem {mem' : addr -> line} (h : Coherent copies mem flat)
    (hmem : forall a, mem' a ≠ mem a ->
      exists s c, copies s = some c ∧ c.addr = a ∧ c.dirty = true) :
    Coherent copies mem' flat where
  current := h.current
  unique := h.unique
  settled := by
    intro a hclean
    by_cases heq : mem' a = mem a
    · rw [heq]
      exact h.settled a hclean
    · rcases hmem a heq with ⟨s, c, hs, haddr, hdirty⟩
      exact absurd hdirty (by simp [hclean s c hs haddr])

/-!
# Permuting slots
-/

theorem comp_equiv (h : Coherent copies mem flat) (e : Equiv slot slot) :
    Coherent (fun s => copies (e s)) mem flat where
  current hs := h.current hs
  unique hs ht haddr := e.injective (h.unique hs ht haddr)
  settled := by
    intro a hclean
    apply h.settled a
    intro s c hs haddr
    apply hclean (e.symm s) c _ haddr
    simpa using hs

section

variable [DecidableEq slot]

theorem setAt_eq_some {s t : slot} {x : Option (Copy addr line)} {c : Copy addr line}
    (h : setAt copies s x t = some c) :
    (t = s ∧ x = some c) ∨ (t ≠ s ∧ copies t = some c) := by
  by_cases hts : t = s
  · subst hts
    rw [setAt_self] at h
    exact Or.inl ⟨rfl, h⟩
  · rw [setAt_of_ne hts] at h
    exact Or.inr ⟨hts, h⟩

/-!
# Changing one slot
-/

/--
Replacing the copy in one slot by another copy of the same line: everything that
has to be said about the new copy and the new memories is said at that line.
-/
theorem replace {flat' : addr -> line} (h : Coherent copies mem flat) {s : slot}
    {c c' : Copy addr line} (hs : copies s = some c) (haddr : c'.addr = c.addr)
    (hother : forall a, a ≠ c.addr -> flat' a = flat a)
    (hdata : c'.data = flat' c.addr)
    (hclean : c'.dirty = false -> mem c.addr = flat' c.addr) :
    Coherent (setAt copies s (some c')) mem flat' where
  current := by
    intro t d ht
    rcases setAt_eq_some ht with ⟨_, hd⟩ | ⟨hne, ht⟩
    · cases hd
      rw [haddr]
      exact hdata
    · rw [hother]
      · exact h.current ht
      · intro heq
        exact hne (h.unique ht hs heq)
  unique := by
    intro t u d e ht hu heq
    rcases setAt_eq_some ht with ⟨hts, hd⟩ | ⟨hts, ht⟩
    · rcases setAt_eq_some hu with ⟨hus, _⟩ | ⟨_, hu⟩
      · rw [hts, hus]
      · cases hd
        rw [hts]
        exact h.unique hs hu (haddr ▸ heq)
    · rcases setAt_eq_some hu with ⟨hus, he⟩ | ⟨_, hu⟩
      · cases he
        rw [hus]
        exact h.unique ht hs (haddr ▸ heq)
      · exact h.unique ht hu heq
  settled := by
    intro a hall
    by_cases ha : a = c.addr
    · subst ha
      exact hclean (hall s c' (setAt_self _ _ _) haddr)
    · rw [hother a ha]
      apply h.settled
      intro t d ht hd
      have hts : t ≠ s := by
        intro hts
        subst hts
        rw [hs] at ht
        cases ht
        exact ha hd.symm
      exact hall t d (by rw [setAt_of_ne hts, ht]) hd

theorem store [DecidableEq addr] (h : Coherent copies mem flat) {s : slot}
    {c : Copy addr line} (hs : copies s = some c) (d : line) :
    Coherent (setAt copies s (some { addr := c.addr, dirty := true, data := d })) mem
      (setAt flat c.addr d) := by
  refine h.replace hs ?_ ?_ ?_ ?_
  · rfl
  · intro a ha
    exact setAt_of_ne ha
  · exact (setAt_self _ _ _).symm
  · intro hfalse
    cases hfalse

theorem clean (h : Coherent copies mem flat) {s : slot} {c : Copy addr line}
    (hs : copies s = some c) (hmem : mem c.addr = c.data) :
    Coherent (setAt copies s (some { c with dirty := false })) mem flat := by
  have hcurrent := h.current hs
  refine h.replace hs ?_ ?_ ?_ ?_
  · rfl
  · intro _ _
    rfl
  · exact hcurrent
  · intro _
    rw [hmem]
    exact hcurrent

theorem drop (h : Coherent copies mem flat) {s : slot}
    (hmem : forall c, copies s = some c -> mem c.addr = flat c.addr) :
    Coherent (setAt copies s none) mem flat where
  current := by
    intro t d ht
    rcases setAt_eq_some ht with ⟨_, hd⟩ | ⟨_, ht⟩
    · cases hd
    · exact h.current ht
  unique := by
    intro t u d e ht hu heq
    rcases setAt_eq_some ht with ⟨_, hd⟩ | ⟨_, ht⟩
    · cases hd
    · rcases setAt_eq_some hu with ⟨_, he⟩ | ⟨_, hu⟩
      · cases he
      · exact h.unique ht hu heq
  settled := by
    intro a hall
    by_cases hcopy : exists c, copies s = some c ∧ c.addr = a
    · rcases hcopy with ⟨c, hs, rfl⟩
      exact hmem c hs
    · apply h.settled
      intro t d ht hd
      have hts : t ≠ s := by
        intro hts
        subst hts
        exact hcopy ⟨d, ht, hd⟩
      exact hall t d (by rw [setAt_of_ne hts, ht]) hd

theorem install [DecidableEq addr] (h : Coherent copies mem flat) {s : slot} {a : addr}
    {dirty : Bool} {d : line} (hs : copies s = none)
    (hunheld : forall t c, copies t = some c -> c.addr ≠ a)
    (hclean : dirty = false -> mem a = d) :
    Coherent (setAt copies s (some { addr := a, dirty := dirty, data := d })) mem
      (setAt flat a d) where
  current := by
    intro t e ht
    rcases setAt_eq_some ht with ⟨_, he⟩ | ⟨_, ht⟩
    · cases he
      exact (setAt_self _ _ _).symm
    · rw [setAt_of_ne (hunheld t e ht)]
      exact h.current ht
  unique := by
    intro t u d e ht hu heq
    rcases setAt_eq_some ht with ⟨hts, hd⟩ | ⟨_, ht⟩
    · rcases setAt_eq_some hu with ⟨hus, _⟩ | ⟨_, hu⟩
      · rw [hts, hus]
      · cases hd
        exact absurd heq.symm (hunheld u e hu)
    · rcases setAt_eq_some hu with ⟨_, he⟩ | ⟨_, hu⟩
      · cases he
        exact absurd heq (hunheld t d ht)
      · exact h.unique ht hu heq
  settled := by
    intro b hall
    by_cases hb : b = a
    · subst hb
      rw [setAt_self]
      exact hclean (hall s _ (setAt_self _ _ _) rfl)
    · rw [setAt_of_ne hb]
      apply h.settled
      intro t e ht he
      have hts : t ≠ s := by
        intro hts
        rw [hts, hs] at ht
        cases ht
      exact hall t e (by rw [setAt_of_ne hts, ht]) he

/--
A line that was read from memory enters as a clean copy.
-/
theorem fetch (h : Coherent copies mem flat) {s : slot} {a : addr} {d : line}
    (hs : copies s = none) (hunheld : forall t c, copies t = some c -> c.addr ≠ a)
    (hd : d = flat a) :
    Coherent (setAt copies s (some { addr := a, dirty := false, data := d })) mem flat := by
  classical
  have hmem : mem a = d := by rw [hd, h.mem_of_unheld hunheld]
  have hinstall :
      Coherent (setAt copies s (some { addr := a, dirty := false, data := d })) mem
        (setAt flat a d) :=
    h.install hs hunheld (fun _ => hmem)
  have hflat : setAt flat a d = flat := by
    funext b
    rw [setAt_apply]
    split
    · next heq => rw [hd, heq]
    · rfl
  rw [hflat] at hinstall
  exact hinstall

/--
A copy moves to an empty slot.
-/
theorem move (h : Coherent copies mem flat) {s t : slot} {c : Copy addr line}
    (hs : copies s = some c) (ht : copies t = none) :
    Coherent (setAt (setAt copies s none) t (some c)) mem flat := by
  have hswap := h.comp_equiv (Equiv.swap s t)
  have hcopies : (fun u => copies (Equiv.swap s t u))
      = setAt (setAt copies s none) t (some c) := by
    funext u
    rw [setAt_apply, setAt_apply]
    by_cases hut : u = t
    · rw [if_pos hut, hut, Equiv.swap_apply_right, hs]
    · by_cases hus : u = s
      · rw [if_neg hut, if_pos hus, hus, Equiv.swap_apply_left, ht]
      · rw [if_neg hut, if_neg hus, Equiv.swap_apply_of_ne_of_ne hus hut]
  rw [hcopies] at hswap
  exact hswap

/--
Two copies change places.
-/
theorem exchange (h : Coherent copies mem flat) {s t : slot} {c d : Copy addr line}
    (hs : copies s = some c) (ht : copies t = some d) :
    Coherent (setAt (setAt copies s (some d)) t (some c)) mem flat := by
  have hswap := h.comp_equiv (Equiv.swap s t)
  have hcopies : (fun u => copies (Equiv.swap s t u))
      = setAt (setAt copies s (some d)) t (some c) := by
    funext u
    rw [setAt_apply, setAt_apply]
    by_cases hut : u = t
    · rw [if_pos hut, hut, Equiv.swap_apply_right, hs]
    · by_cases hus : u = s
      · rw [if_neg hut, if_pos hus, hus, Equiv.swap_apply_left, ht]
      · rw [if_neg hut, if_neg hus, Equiv.swap_apply_of_ne_of_ne hus hut]
  rw [hcopies] at hswap
  exact hswap

end

end Coherent
end Lib
end RvCores
