import RvCores.Lib.Renaming
import RvCores.Ooo.State

/-!
# Conservation of physical registers

Each register file is renamed by a free list, an alias table and the share of the
reorder buffer that writes this file.  Read together they are an abstract
renamer, and one clock edge is a few renames followed by a few retirements.
-/

namespace RvCores
namespace Ooo

open Lib

/-!
# A renamed register file
-/

def RobInfo.allocation (info : RobInfo) : Allocation Nat Nat :=
  { areg := info.areg, preg := info.preg, old := info.oldPreg }

structure RenameFile where
  hardwireReg0 : Bool
  cap : Nat
  numPregs : Nat
  writes : RobInfo -> Bool

namespace RenameFile

variable {F : RenameFile} {fl : FreeList} {rat : RegisterAliasTable}
variable {infos : List RobInfo}

def allocations (F : RenameFile) (infos : List RobInfo) : List (Allocation Nat Nat) :=
  (infos.filter F.writes).map RobInfo.allocation

def renamer (F : RenameFile) (fl : FreeList) (rat : RegisterAliasTable)
    (infos : List RobInfo) : Renamer Nat Nat :=
  { free := fl.free F.cap, arch := rat.archMap, pending := F.allocations infos }

theorem allocations_append (older younger : List RobInfo) :
    F.allocations (older ++ younger) = F.allocations older ++ F.allocations younger := by
  simp [allocations]

structure Consistent (F : RenameFile) (fl : FreeList) (rat : RegisterAliasTable)
    (infos : List RobInfo) : Prop where
  wellFormed : fl.WellFormed F.cap
  spec : forall a, a < numAregs -> rat.specMap a = (F.renamer fl rat infos).spec a
  writable : forall a, a ∈ F.allocations infos -> F.hardwireReg0 = true -> a.areg ≠ 0
  conserves : Renamer.Conserves (List.range numAregs) (List.range F.numPregs)
    (F.renamer fl rat infos)

/-!
# One clock edge of a file

What the surrounding core promises about the inputs of the free list and the
alias table in one cycle: the granted registers come from the head of the free
list in slot order, the new buffer entries record them, and the commit and
release ports serve exactly the retiring entries of this file.
-/

def slotAllocation (w : RatWrite) (old : Nat) : List (Allocation Nat Nat) :=
  if w.en then [{ areg := w.areg, preg := w.preg, old := old }] else []

def Target (F : RenameFile) (w : RatWrite) : Prop :=
  w.areg < numAregs ∧ (F.hardwireReg0 = true -> w.areg ≠ 0)

structure Edge (F : RenameFile) (fl : FreeList) (rat : RegisterAliasTable)
    (infos : List RobInfo) (fi : FreeListIn) (ri : RatIn) (new : List RobInfo)
    (retired : Nat) : Prop where
  restore : ri.restoreEn = false
  commit0 : fi.commitEn0 = ri.w0.en
  commit1 : fi.commitEn1 = ri.w1.en
  order : ri.w1.en = true -> ri.w0.en = true
  grant0 : ri.w0.en = true -> 1 <= fl.count ∧ ri.w0.preg = fl.allocPreg0
  grant1 : ri.w1.en = true ->
    2 <= fl.count ∧ ri.w1.preg = fl.queue (wrapAdd F.cap fl.head 1)
  target0 : ri.w0.en = true -> F.Target ri.w0
  target1 : ri.w1.en = true -> F.Target ri.w1
  dispatched : F.allocations new =
    slotAllocation ri.w0 (rat.oldPreg0 ri.w0) ++
      slotAllocation ri.w1 (rat.oldPreg1 ri.w0 ri.w1)
  retired_le : retired <= infos.length
  released : fi.pushed = (F.allocations (infos.take retired)).map Allocation.old
  committed : (rat.step F.hardwireReg0 ri).archMap =
    (F.allocations (infos.take retired)).foldl Renamer.apply rat.archMap

theorem write_of_target {w : RatWrite} (hen : w.en = true) (htarget : F.Target w)
    (map : Nat -> Nat) :
    RegisterAliasTable.write F.hardwireReg0 map w = setAt map w.areg w.preg := by
  have hwrites : RegisterAliasTable.writes F.hardwireReg0 w = true := by
    cases hhard : F.hardwireReg0 with
    | false => simp [RegisterAliasTable.writes, hen]
    | true => simp [RegisterAliasTable.writes, hen, htarget.right hhard]
  simp [RegisterAliasTable.write, hwrites]

theorem write_of_idle {w : RatWrite} (hen : w.en = false) (map : Nat -> Nat) :
    RegisterAliasTable.write F.hardwireReg0 map w = map := by
  simp [RegisterAliasTable.write, RegisterAliasTable.writes, hen]

/-!
# Commit and release ports

Each port serves one retiring instruction and is idle for the others.
-/

theorem allocations_single (v : Bool) (info : RobInfo) :
    F.allocations (if v then [info] else []) =
      if v && F.writes info then [info.allocation] else [] := by
  cases v <;> cases h : F.writes info <;> simp [allocations, h]

/--
A slot of the bundle allocates in this file exactly when its write port is on.
-/
theorem allocations_slot {v : Bool} {info : RobInfo} {w : RatWrite} {old : Nat}
    (hen : w.en = (v && F.writes info))
    (hinfo : w.en = true -> info.allocation = { areg := w.areg, preg := w.preg, old := old }) :
    F.allocations (if v then [info] else []) = slotAllocation w old := by
  rw [allocations_single, <- hen]
  cases h : w.en with
  | false => simp [slotAllocation, h]
  | true => simp [slotAllocation, h, hinfo h]

theorem write_commit {v : Bool} {info : RobInfo} {map : Nat -> Nat}
    (hwritable : forall a, a ∈ F.allocations (if v then [info] else []) ->
      F.hardwireReg0 = true -> a.areg ≠ 0) :
    RegisterAliasTable.write F.hardwireReg0 map
        { en := v && F.writes info, areg := info.areg, preg := info.preg } =
      (F.allocations (if v then [info] else [])).foldl Renamer.apply map := by
  rw [allocations_single] at hwritable ⊢
  cases hen : v && F.writes info with
  | false => exact write_of_idle rfl map
  | true =>
      simp only [hen, if_true, List.mem_singleton, forall_eq] at hwritable
      have hwrites : RegisterAliasTable.writes F.hardwireReg0
          { en := true, areg := info.areg, preg := info.preg } = true := by
        cases hhard : F.hardwireReg0 with
        | false => rfl
        | true =>
            have hareg : info.areg ≠ 0 := hwritable hhard
            simp [RegisterAliasTable.writes, hareg]
      rw [RegisterAliasTable.write, if_pos hwrites]
      rfl

theorem pushed_retire {v0 v1 : Bool} {info0 info1 : RobInfo} {c0 c1 : Bool} :
    FreeListIn.pushed
        { commitEn0 := c0
          commitEn1 := c1
          freeEn0 := v0 && F.writes info0
          freePreg0 := info0.oldPreg
          freeEn1 := v1 && F.writes info1
          freePreg1 := info1.oldPreg } =
      (F.allocations ((if v0 then [info0] else []) ++
        (if v1 then [info1] else []))).map Allocation.old := by
  rw [allocations_append, allocations_single, allocations_single, List.map_append]
  cases v0 && F.writes info0 <;> cases v1 && F.writes info1 <;> rfl

/--
The abstract state between the renames and the retirements of one edge.
-/
def afterDispatch (F : RenameFile) (fl : FreeList) (rat : RegisterAliasTable)
    (infos : List RobInfo) (allocs : List (Allocation Nat Nat)) : Renamer Nat Nat :=
  { free := (fl.pop F.cap allocs.length).free F.cap
    arch := rat.archMap
    pending := F.allocations infos ++ allocs }

structure Tracks (F : RenameFile) (fl : FreeList) (rat : RegisterAliasTable)
    (infos : List RobInfo) (allocs : List (Allocation Nat Nat)) (map : Nat -> Nat) :
    Prop where
  conserves : Renamer.Conserves (List.range numAregs) (List.range F.numPregs)
    (F.afterDispatch fl rat infos allocs)
  spec : forall a, a < numAregs -> map a = (F.afterDispatch fl rat infos allocs).spec a

theorem afterDispatch_free {allocs : List (Allocation Nat Nat)}
    (rat : RegisterAliasTable) (infos : List RobInfo)
    (hwf : fl.WellFormed F.cap) (hcount : allocs.length + 1 <= fl.count) :
    (F.afterDispatch fl rat infos allocs).free =
      fl.queue (wrapAdd F.cap fl.head allocs.length) ::
        (fl.pop F.cap (allocs.length + 1)).free F.cap := by
  have hpos : 0 < (fl.pop F.cap allocs.length).count := by
    change 0 < fl.count - allocs.length
    omega
  rw [<- FreeList.pop_pop hwf hcount]
  exact FreeList.pop_free_one hpos

theorem slot_tracks {allocs : List (Allocation Nat Nat)} {map : Nat -> Nat}
    {w : RatWrite} (hwf : fl.WellFormed F.cap)
    (h : F.Tracks fl rat infos allocs map)
    (hgrant : w.en = true -> allocs.length + 1 <= fl.count ∧
      w.preg = fl.queue (wrapAdd F.cap fl.head allocs.length))
    (htarget : w.en = true -> F.Target w) :
    F.Tracks fl rat infos (allocs ++ slotAllocation w (map w.areg))
      (RegisterAliasTable.write F.hardwireReg0 map w) := by
  cases hen : w.en with
  | false =>
      rw [write_of_idle hen]
      simpa [slotAllocation, hen] using h
  | true =>
      rcases hgrant hen with ⟨hcount, hpreg⟩
      have hareg := (htarget hen).left
      have hfree := afterDispatch_free rat infos hwf hcount
      have hrename : (F.afterDispatch fl rat infos allocs).rename w.areg =
          F.afterDispatch fl rat infos (allocs ++ slotAllocation w (map w.areg)) := by
        rw [Renamer.rename_eq hfree, <- hpreg, <- h.spec _ hareg]
        simp [afterDispatch, slotAllocation, hen]
      rw [write_of_target hen (htarget hen)]
      constructor
      · rw [<- hrename]
        exact Renamer.rename_conserves h.conserves (List.mem_range.mpr hareg)
      · intro a ha
        rw [<- hrename, Renamer.spec_rename hfree, <- hpreg]
        simp only [setAt_apply, h.spec a ha]

theorem renamer_tracks (h : F.Consistent fl rat infos) :
    F.Tracks fl rat infos [] rat.specMap := by
  have hnil : F.afterDispatch fl rat infos [] = F.renamer fl rat infos := by
    simp [afterDispatch, renamer, FreeList.pop_zero h.wellFormed]
  constructor
  · rw [hnil]
    exact h.conserves
  · rw [hnil]
    exact h.spec

section Step

variable {fi : FreeListIn} {ri : RatIn} {new : List RobInfo} {retired : Nat}

theorem slotAllocation_length (w : RatWrite) (old : Nat) :
    (slotAllocation w old).length = w.en.toNat := by
  cases h : w.en <;> simp [slotAllocation, h]

theorem oldPreg1_eq (hedge : F.Edge fl rat infos fi ri new retired) :
    rat.oldPreg1 ri.w0 ri.w1 =
      RegisterAliasTable.write F.hardwireReg0 rat.specMap ri.w0 ri.w1.areg := by
  cases h0 : ri.w0.en with
  | false =>
      rw [write_of_idle h0]
      simp [RegisterAliasTable.oldPreg1, h0]
  | true =>
      rw [write_of_target h0 (hedge.target0 h0)]
      by_cases heq : ri.w1.areg = ri.w0.areg
      · simp [RegisterAliasTable.oldPreg1, h0, heq]
      · have hne : ¬ ri.w0.areg = ri.w1.areg := fun h => heq h.symm
        simp [RegisterAliasTable.oldPreg1, h0, hne, setAt_of_ne heq]

theorem allocations_new_length (hedge : F.Edge fl rat infos fi ri new retired) :
    (F.allocations new).length = fi.popCount := by
  rw [hedge.dispatched, List.length_append, slotAllocation_length,
    slotAllocation_length, FreeListIn.popCount, hedge.commit0, hedge.commit1]

theorem popCount_le (hedge : F.Edge fl rat infos fi ri new retired) :
    fi.popCount <= fl.count := by
  rw [FreeListIn.popCount, hedge.commit0, hedge.commit1]
  cases h1 : ri.w1.en with
  | true =>
      have hcount := (hedge.grant1 h1).left
      cases ri.w0.en <;> simp <;> omega
  | false =>
      cases h0 : ri.w0.en with
      | true =>
          have hcount := (hedge.grant0 h0).left
          simpa using hcount
      | false => simp

/--
One rename per enabled slot, in slot order; the second slot sees the map that
the first one leaves behind.
-/
theorem dispatch_tracks (hcons : F.Consistent fl rat infos)
    (hedge : F.Edge fl rat infos fi ri new retired) :
    F.Tracks fl rat infos (F.allocations new)
      (rat.step F.hardwireReg0 ri).specMap := by
  have hwf := hcons.wellFormed
  have hfirst := slot_tracks (w := ri.w0) hwf (renamer_tracks hcons)
    (by
      intro h0
      rw [List.length_nil, wrapAdd_zero hwf.head_lt]
      exact hedge.grant0 h0)
    hedge.target0
  rw [List.nil_append] at hfirst
  have hsecond := slot_tracks (w := ri.w1) hwf hfirst
    (by
      intro h1
      rw [slotAllocation_length, hedge.order h1]
      exact hedge.grant1 h1)
    hedge.target1
  rw [<- oldPreg1_eq hedge] at hsecond
  have hmap : (rat.step F.hardwireReg0 ri).specMap =
      RegisterAliasTable.write F.hardwireReg0
        (RegisterAliasTable.write F.hardwireReg0 rat.specMap ri.w0) ri.w1 := by
    simp [RegisterAliasTable.step, hedge.restore]
  rw [hmap, hedge.dispatched]
  exact hsecond

theorem afterDispatch_pending (hedge : F.Edge fl rat infos fi ri new retired) :
    (F.afterDispatch fl rat infos (F.allocations new)).pending =
      F.allocations (infos.take retired) ++
        F.allocations ((infos ++ new).drop retired) := by
  change F.allocations infos ++ F.allocations new = _
  rw [<- allocations_append, <- allocations_append,
    List.drop_append_of_le_length hedge.retired_le, <- List.append_assoc,
    List.take_append_drop]

theorem step_consistent (hcap : F.cap + numAregs = F.numPregs)
    (hcons : F.Consistent fl rat infos)
    (hedge : F.Edge fl rat infos fi ri new retired) :
    F.Consistent (fl.step F.cap fi) (rat.step F.hardwireReg0 ri)
      ((infos ++ new).drop retired) := by
  have htracks := dispatch_tracks hcons hedge
  have hpending := afterDispatch_pending hedge
  have hlen := allocations_new_length hedge
  -- The abstract state after the retirements.
  have hretire := Renamer.retire_iterate_eq hpending
  have hafter := Renamer.retire_iterate_conserves List.nodup_range htracks.conserves
    (F.allocations (infos.take retired)).length
  have hspec := Renamer.spec_retire_iterate
    (F.afterDispatch fl rat infos (F.allocations new))
    (F.allocations (infos.take retired)).length
  have harch : (F.afterDispatch fl rat infos (F.allocations new)).arch = rat.archMap := rfl
  rw [hretire, <- hedge.released, harch, <- hedge.committed] at hafter hspec
  have hroom : fl.count - fi.popCount + fi.pushCount <= F.cap := by
    have htotal := Renamer.conserves_length hafter
    simp only [afterDispatch, hlen, List.length_append, List.length_range,
      FreeList.free_length, FreeListIn.pushed_length] at htotal
    change fl.count - fi.popCount + fi.pushCount + numAregs + _ = F.numPregs at htotal
    omega
  have horder : fi.commitEn1 = true -> fi.commitEn0 = true := by
    rw [hedge.commit0, hedge.commit1]
    exact hedge.order
  rcases FreeList.step_spec hcons.wellFormed horder (popCount_le hedge) hroom with
    ⟨hwf, hfree⟩
  have hview : F.renamer (fl.step F.cap fi) (rat.step F.hardwireReg0 ri)
      ((infos ++ new).drop retired) =
      { free := (F.afterDispatch fl rat infos (F.allocations new)).free ++ fi.pushed
        arch := (rat.step F.hardwireReg0 ri).archMap
        pending := F.allocations ((infos ++ new).drop retired) } := by
    simp only [renamer, afterDispatch, hfree, hlen]
  constructor
  · exact hwf
  · intro a ha
    rw [hview, hspec]
    exact htracks.spec a ha
  · intro a ha hhard
    have hmem : a ∈ F.allocations infos ++ F.allocations new := by
      change a ∈ (F.afterDispatch fl rat infos (F.allocations new)).pending
      rw [hpending]
      exact List.mem_append_right _ ha
    rcases List.mem_append.mp hmem with hold | hnew
    · exact hcons.writable a hold hhard
    · rw [hedge.dispatched] at hnew
      rcases List.mem_append.mp hnew with h0 | h1
      · cases hen : ri.w0.en with
        | false => simp [slotAllocation, hen] at h0
        | true =>
            simp only [slotAllocation, hen, if_true, List.mem_singleton] at h0
            rw [h0]
            exact (hedge.target0 hen).right hhard
      · cases hen : ri.w1.en with
        | false => simp [slotAllocation, hen] at h1
        | true =>
            simp only [slotAllocation, hen, if_true, List.mem_singleton] at h1
            rw [h1]
            exact (hedge.target1 hen).right hhard
  · rw [hview]
    exact hafter

end Step

theorem reset_consistent (hcap : F.cap + numAregs = F.numPregs) (hroom : 0 < F.cap)
    (fl : FreeList) (rat : RegisterAliasTable) :
    F.Consistent (fl.reset numAregs F.cap) (rat.reset numAregs) [] := by
  constructor
  · exact FreeList.reset_wellFormed hroom fl
  · intro a ha
    simp [renamer, allocations, Renamer.spec, RegisterAliasTable.reset, ha]
  · intro a ha
    simp [allocations] at ha
  · constructor
    · trivial
    · intro a ha
      simp [renamer, allocations] at ha
    · have harch : (List.range numAregs).map (rat.reset numAregs).archMap =
          List.range numAregs := by
        conv_rhs => rw [<- List.map_id (List.range numAregs)]
        apply List.map_congr_left
        intro a ha
        simp [RegisterAliasTable.reset, List.mem_range.mp ha]
      have hstock : List.range F.numPregs =
          List.range numAregs ++ (List.range F.cap).map (numAregs + ·) := by
        rw [<- hcap, Nat.add_comm, List.range_add]
      simp only [renamer, Renamer.held, allocations, List.filter_nil, List.map_nil,
        List.append_nil, harch, FreeList.reset_free, hstock]
      exact List.perm_append_comm

end RenameFile
end Ooo
end RvCores
