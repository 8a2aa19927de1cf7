import RvCores.Lib.Ring

/-!
# Reorder buffer

The reorder buffer is a circular queue of instructions in program order.  Up to
two are appended in a cycle, seven completion ports set done bits by tag, and up
to two done instructions leave from the head.  A tag is the index of an entry.
-/

namespace RvCores
namespace Ooo

open Lib

structure RobInfo where
  hasDest : Bool
  isFpDest : Bool
  isVecDest : Bool
  areg : Nat
  preg : Nat
  oldPreg : Nat
deriving DecidableEq

structure RobEntry where
  valid : Bool
  done : Bool
  info : RobInfo

structure ReorderBuffer where
  entry : Nat -> RobEntry
  count : Nat
  head : Nat
  tail : Nat

structure RobIn where
  allocEn0 : Bool
  alloc0 : RobInfo
  allocEn1 : Bool
  alloc1 : RobInfo
  complete : List (Option Nat)

namespace RobIn

def allocCount (i : RobIn) : Nat :=
  i.allocEn0.toNat + i.allocEn1.toNat

def allocated (i : RobIn) : List RobInfo :=
  (if i.allocEn0 then [i.alloc0] else []) ++ (if i.allocEn1 then [i.alloc1] else [])

end RobIn

namespace ReorderBuffer

def full (n : Nat) (rob : ReorderBuffer) : Bool :=
  decide (rob.count >= n)

def empty (rob : ReorderBuffer) : Bool :=
  decide (rob.count = 0)

def allocTag0 (rob : ReorderBuffer) : Nat :=
  rob.tail

def allocTag1 (n : Nat) (rob : ReorderBuffer) (allocEn0 : Bool) : Nat :=
  wrapAdd n rob.tail allocEn0.toNat

def head1Idx (n : Nat) (rob : ReorderBuffer) : Nat :=
  wrapAdd n rob.head 1

def retireValid0 (rob : ReorderBuffer) : Bool :=
  !rob.empty && (rob.entry rob.head).valid && (rob.entry rob.head).done

def retireValid1 (n : Nat) (rob : ReorderBuffer) : Bool :=
  rob.retireValid0 && decide (rob.count >= 2) &&
    (rob.entry (rob.head1Idx n)).valid && (rob.entry (rob.head1Idx n)).done

def retireTag0 (rob : ReorderBuffer) : Nat :=
  rob.head

def retireTag1 (n : Nat) (rob : ReorderBuffer) : Nat :=
  rob.head1Idx n

def retire0 (rob : ReorderBuffer) : RobInfo :=
  (rob.entry rob.head).info

def retire1 (n : Nat) (rob : ReorderBuffer) : RobInfo :=
  (rob.entry (rob.head1Idx n)).info

def retireCount (n : Nat) (rob : ReorderBuffer) : Nat :=
  rob.retireValid0.toNat + (rob.retireValid1 n).toNat

def reset (n : Nat) (rob : ReorderBuffer) : ReorderBuffer :=
  { entry := fun t =>
      if t < n then { rob.entry t with valid := false, done := false }
      else rob.entry t
    count := 0
    head := 0
    tail := 0 }

def allocAt (en : Bool) (tag : Nat) (info : RobInfo) (entry : Nat -> RobEntry) :
    Nat -> RobEntry :=
  if en then setAt entry tag { valid := true, done := false, info := info }
  else entry

def markDone (entry : Nat -> RobEntry) (port : Option Nat) : Nat -> RobEntry :=
  match port with
  | none => entry
  | some tag => modifyAt entry tag (fun e => { e with done := true })

def clearValid (en : Bool) (tag : Nat) (entry : Nat -> RobEntry) : Nat -> RobEntry :=
  if en then modifyAt entry tag (fun e => { e with valid := false }) else entry

def step (n : Nat) (rob : ReorderBuffer) (i : RobIn) : ReorderBuffer :=
  let allocated :=
    allocAt i.allocEn1 (rob.allocTag1 n i.allocEn0) i.alloc1
      (allocAt i.allocEn0 rob.allocTag0 i.alloc0 rob.entry)
  let completed := i.complete.foldl markDone allocated
  { entry :=
      clearValid (rob.retireValid1 n) (rob.head1Idx n)
        (clearValid rob.retireValid0 rob.head completed)
    count := rob.count + i.allocCount - rob.retireCount n
    head :=
      if rob.retireCount n != 0 then wrapAdd n rob.head (rob.retireCount n)
      else rob.head
    tail :=
      if i.allocCount != 0 then wrapAdd n rob.tail i.allocCount else rob.tail }

/-!
# The buffer as a list

The entries from the head are the instructions in flight, oldest first.
-/

structure WellFormed (n : Nat) (rob : ReorderBuffer) : Prop where
  head_lt : rob.head < n
  count_le : rob.count <= n
  tail_eq : rob.tail = wrapAdd n rob.head rob.count
  valid : forall t, InWindow n rob.head rob.count t -> (rob.entry t).valid = true

def Live (n : Nat) (rob : ReorderBuffer) (t : Nat) : Prop :=
  InWindow n rob.head rob.count t

def infos (n : Nat) (rob : ReorderBuffer) : List RobInfo :=
  window n (fun t => (rob.entry t).info) rob.head rob.count

@[simp] theorem infos_length (n : Nat) (rob : ReorderBuffer) :
    (rob.infos n).length = rob.count :=
  window_length n _ rob.head rob.count

theorem empty_eq_false {rob : ReorderBuffer} :
    rob.empty = false ↔ 0 < rob.count := by
  simp [empty, Nat.pos_iff_ne_zero]

theorem retireValid0_count {rob : ReorderBuffer} (h : rob.retireValid0 = true) :
    0 < rob.count := by
  simp only [retireValid0, Bool.and_eq_true, Bool.not_eq_true'] at h
  exact empty_eq_false.mp h.left.left

theorem retireValid0_of_retireValid1 {n : Nat} {rob : ReorderBuffer}
    (h : rob.retireValid1 n = true) :
    rob.retireValid0 = true := by
  simp only [retireValid1, Bool.and_eq_true] at h
  exact h.left.left.left

theorem retireValid1_count {n : Nat} {rob : ReorderBuffer}
    (h : rob.retireValid1 n = true) :
    2 <= rob.count := by
  simp only [retireValid1, Bool.and_eq_true, decide_eq_true_eq] at h
  exact h.left.left.right

theorem retireCount_le (n : Nat) (rob : ReorderBuffer) :
    rob.retireCount n <= rob.count := by
  cases h0 : rob.retireValid0 with
  | false =>
      have h1 : rob.retireValid1 n = false := by
        cases h1 : rob.retireValid1 n with
        | false => rfl
        | true => exact absurd (retireValid0_of_retireValid1 h1) (by simp [h0])
      simp [retireCount, h0, h1]
  | true =>
      have hpos := retireValid0_count h0
      cases h1 : rob.retireValid1 n with
      | false =>
          simp [retireCount, h0, h1]
          omega
      | true =>
          have htwo := retireValid1_count h1
          simp [retireCount, h0, h1]
          omega

theorem infos_eq_cons {n : Nat} {rob : ReorderBuffer} (hcount : 0 < rob.count) :
    exists rest, rob.infos n = rob.retire0 :: rest :=
  ⟨_, window_drop_one hcount⟩

theorem infos_eq_cons_cons {n : Nat} {rob : ReorderBuffer} (hcount : 2 <= rob.count) :
    exists rest, rob.infos n = rob.retire0 :: rob.retire1 n :: rest := by
  refine ⟨window n (fun t => (rob.entry t).info)
    (wrapAdd n (wrapAdd n rob.head 1) 1) (rob.count - 1 - 1), ?_⟩
  rw [infos, window_drop_one (by omega), window_drop_one (by omega)]
  rfl

def retired (n : Nat) (rob : ReorderBuffer) : List RobInfo :=
  (if rob.retireValid0 then [rob.retire0] else []) ++
    (if rob.retireValid1 n then [rob.retire1 n] else [])

theorem infos_take_retireCount (n : Nat) (rob : ReorderBuffer) :
    (rob.infos n).take (rob.retireCount n) = rob.retired n := by
  cases h1 : rob.retireValid1 n with
  | true =>
      have h0 := retireValid0_of_retireValid1 h1
      rcases infos_eq_cons_cons (n := n) (retireValid1_count h1) with ⟨rest, hinfos⟩
      simp [retired, retireCount, h0, h1, hinfos]
  | false =>
      cases h0 : rob.retireValid0 with
      | true =>
          rcases infos_eq_cons (n := n) (retireValid0_count h0) with ⟨rest, hinfos⟩
          simp [retired, retireCount, h0, h1, hinfos]
      | false => simp [retired, retireCount, h0, h1]

/-!
# Entries after one clock edge
-/

def allocTable (n : Nat) (rob : ReorderBuffer) (i : RobIn) : Nat -> RobEntry :=
  allocAt i.allocEn1 (rob.allocTag1 n i.allocEn0) i.alloc1
    (allocAt i.allocEn0 rob.allocTag0 i.alloc0 rob.entry)

theorem foldl_markDone_apply (ports : List (Option Nat)) (entry : Nat -> RobEntry)
    (t : Nat) :
    ports.foldl markDone entry t =
      { entry t with
        done := (entry t).done || ports.any (fun port => decide (port = some t)) } := by
  induction ports generalizing entry with
  | nil => simp
  | cons port ports ih =>
      rw [List.foldl_cons, ih]
      cases port with
      | none => simp [markDone]
      | some tag =>
          by_cases ht : t = tag
          · simp [markDone, ht]
          · have htag : ¬ tag = t := fun heq => ht heq.symm
            simp [markDone, modifyAt_of_ne ht, htag]

theorem clearValid_apply (en : Bool) (tag : Nat) (entry : Nat -> RobEntry) (t : Nat) :
    clearValid en tag entry t =
      { entry t with valid := (entry t).valid && !(en && decide (t = tag)) } := by
  cases en with
  | false => simp [clearValid]
  | true =>
      by_cases ht : t = tag
      · simp [clearValid, ht]
      · simp [clearValid, modifyAt_of_ne ht, ht]

def retiring (n : Nat) (rob : ReorderBuffer) (t : Nat) : Bool :=
  (rob.retireValid0 && decide (t = rob.head)) ||
    (rob.retireValid1 n && decide (t = rob.head1Idx n))

theorem step_entry (n : Nat) (rob : ReorderBuffer) (i : RobIn) (t : Nat) :
    (rob.step n i).entry t =
      { valid := (rob.allocTable n i t).valid && !rob.retiring n t
        done :=
          (rob.allocTable n i t).done ||
            i.complete.any (fun port => decide (port = some t))
        info := (rob.allocTable n i t).info } := by
  change clearValid (rob.retireValid1 n) (rob.head1Idx n)
    (clearValid rob.retireValid0 rob.head
      (i.complete.foldl markDone (rob.allocTable n i))) t = _
  rw [clearValid_apply, clearValid_apply, foldl_markDone_apply]
  simp [retiring, Bool.and_assoc]

/-!
# The list after one clock edge

An edge appends the allocated instructions and drops the retired ones.
-/

theorem step_head {n : Nat} {rob : ReorderBuffer} (i : RobIn) (hwf : WellFormed n rob) :
    (rob.step n i).head = wrapAdd n rob.head (rob.retireCount n) := by
  by_cases hzero : rob.retireCount n = 0
  · simp [step, hzero, wrapAdd_zero hwf.head_lt]
  · simp [step, hzero]

theorem tail_lt {n : Nat} {rob : ReorderBuffer} (hwf : WellFormed n rob) :
    rob.tail < n := by
  rw [hwf.tail_eq]
  exact wrapAdd_lt hwf.head_lt hwf.count_le

theorem step_tail {n : Nat} {rob : ReorderBuffer} (i : RobIn) (hwf : WellFormed n rob) :
    (rob.step n i).tail = wrapAdd n rob.tail i.allocCount := by
  by_cases hzero : i.allocCount = 0
  · simp [step, hzero, wrapAdd_zero (tail_lt hwf)]
  · simp [step, hzero]

section Alloc

variable {n : Nat} {rob : ReorderBuffer} {i : RobIn}

theorem allocTag_eq (hwf : WellFormed n rob) {k : Nat} (hk : rob.count + k <= n) :
    wrapAdd n rob.tail k = wrapAdd n rob.head (rob.count + k) := by
  rw [hwf.tail_eq, wrapAdd_wrapAdd hwf.head_lt hk]

theorem not_live_allocTag (hwf : WellFormed n rob) {k : Nat} (hk : rob.count + k < n) :
    ¬ rob.Live n (wrapAdd n rob.tail k) := by
  rw [allocTag_eq hwf (by omega)]
  exact not_inWindow_tail hk (by omega)

/--
Slot 1 takes the tag behind the one of slot 0, or the tail if slot 0 is idle.
-/
theorem allocTag1_eq (hwf : WellFormed n rob) (hroom : rob.count + i.allocCount <= n) :
    rob.allocTag1 n i.allocEn0 = wrapAdd n rob.head (rob.count + i.allocEn0.toNat) := by
  rw [allocTag1]
  apply allocTag_eq hwf
  rw [RobIn.allocCount] at hroom
  omega

theorem allocAt_of_ne {en : Bool} {tag : Nat} {info : RobInfo} {entry : Nat -> RobEntry}
    {t : Nat} (ht : en = true -> t ≠ tag) :
    allocAt en tag info entry t = entry t := by
  cases en with
  | false => rfl
  | true => exact setAt_of_ne (ht rfl)

theorem allocAt_valid {en : Bool} {tag : Nat} {info : RobInfo} {entry : Nat -> RobEntry}
    {t : Nat} (ht : (entry t).valid = true) :
    (allocAt en tag info entry t).valid = true := by
  cases en with
  | false => exact ht
  | true =>
      by_cases heq : t = tag
      · simp [allocAt, heq]
      · simp [allocAt, setAt_of_ne heq, ht]

theorem allocTable_live (hwf : WellFormed n rob)
    (hroom : rob.count + i.allocCount <= n) {t : Nat} (ht : rob.Live n t) :
    rob.allocTable n i t = rob.entry t := by
  have hne : forall k, rob.count + k < n -> t ≠ wrapAdd n rob.tail k := by
    intro k hk heq
    exact not_live_allocTag hwf hk (heq ▸ ht)
  rw [RobIn.allocCount] at hroom
  have ht1 : i.allocEn1 = true -> t ≠ rob.allocTag1 n i.allocEn0 := by
    intro h1
    apply hne
    rw [h1, Bool.toNat_true] at hroom
    omega
  have ht0 : i.allocEn0 = true -> t ≠ rob.allocTag0 := by
    intro h0
    rw [h0, Bool.toNat_true] at hroom
    have hzero := hne 0 (by omega)
    rw [wrapAdd_zero (tail_lt hwf)] at hzero
    exact hzero
  rw [allocTable, allocAt_of_ne ht1, allocAt_of_ne ht0]

theorem allocTable_tag1 (h1 : i.allocEn1 = true) :
    rob.allocTable n i (rob.allocTag1 n i.allocEn0) =
      { valid := true, done := false, info := i.alloc1 } := by
  simp [allocTable, allocAt, h1]

theorem allocTag0_ne_allocTag1 (hwf : WellFormed n rob)
    (hroom : rob.count + i.allocCount <= n) (h0 : i.allocEn0 = true)
    (h1 : i.allocEn1 = true) :
    rob.allocTag0 ≠ rob.allocTag1 n true := by
  intro heq
  have hroom' : rob.count + 2 <= n := by simpa [RobIn.allocCount, h0, h1] using hroom
  have hzero : wrapAdd n rob.tail 0 = wrapAdd n rob.tail 1 := by
    rw [wrapAdd_zero (tail_lt hwf)]
    exact heq
  have hbad : 0 = 1 := wrapAdd_injective (by omega) (by omega) hzero
  omega

theorem allocTable_tag0 (hwf : WellFormed n rob)
    (hroom : rob.count + i.allocCount <= n) (h0 : i.allocEn0 = true) :
    rob.allocTable n i rob.allocTag0 =
      { valid := true, done := false, info := i.alloc0 } := by
  cases h1 : i.allocEn1 with
  | false => simp [allocTable, allocAt, h0, h1]
  | true =>
      have hne := allocTag0_ne_allocTag1 hwf hroom h0 h1
      simp [allocTable, allocAt, h0, h1, setAt_of_ne hne]

/-!
# Tagged entries

The tags and infos of the entries from the head.
-/

def tagged (n : Nat) (rob : ReorderBuffer) : List (Nat × RobInfo) :=
  window n (fun t => (t, (rob.entry t).info)) rob.head rob.count

theorem tagged_infos (n : Nat) (rob : ReorderBuffer) :
    (rob.tagged n).map Prod.snd = rob.infos n :=
  window_map n _ Prod.snd rob.head rob.count

def newTagged (n : Nat) (rob : ReorderBuffer) (i : RobIn) : List (Nat × RobInfo) :=
  (if i.allocEn0 then [(rob.allocTag0, i.alloc0)] else []) ++
    (if i.allocEn1 then [(rob.allocTag1 n i.allocEn0, i.alloc1)] else [])

theorem newTagged_infos (n : Nat) (rob : ReorderBuffer) (i : RobIn) :
    (rob.newTagged n i).map Prod.snd = i.allocated := by
  unfold newTagged RobIn.allocated
  cases i.allocEn0 <;> cases i.allocEn1 <;> rfl

theorem window_allocAt {head count : Nat} {en : Bool} {info : RobInfo}
    {entry : Nat -> RobEntry} (hhead : head < n) (hroom : count + en.toNat <= n) :
    window n (fun t => (t, (allocAt en (wrapAdd n head count) info entry t).info)) head
        (count + en.toNat) =
      window n (fun t => (t, (entry t).info)) head count ++
        (if en then [(wrapAdd n head count, info)] else []) := by
  cases en with
  | false => simp [allocAt]
  | true =>
      have htable : (fun t => (t, (allocAt true (wrapAdd n head count) info entry t).info)) =
          setAt (fun t => (t, (entry t).info)) (wrapAdd n head count)
            (wrapAdd n head count, info) := by
        funext t
        by_cases ht : t = wrapAdd n head count
        · simp [allocAt, ht]
        · simp [allocAt, setAt_of_ne ht]
      rw [htable, Bool.toNat_true]
      exact window_push hhead (by rw [Bool.toNat_true] at hroom; omega)

theorem allocTable_tagged (hwf : WellFormed n rob)
    (hroom : rob.count + i.allocCount <= n) :
    window n (fun t => (t, (rob.allocTable n i t).info)) rob.head
        (rob.count + i.allocCount) =
      rob.tagged n ++ rob.newTagged n i := by
  have htag1 := allocTag1_eq hwf hroom
  have htag0 : rob.allocTag0 = wrapAdd n rob.head rob.count := hwf.tail_eq
  rw [RobIn.allocCount, <- Nat.add_assoc] at hroom
  unfold allocTable newTagged tagged
  rw [RobIn.allocCount, <- Nat.add_assoc, htag1, htag0,
    window_allocAt hwf.head_lt hroom, window_allocAt hwf.head_lt (by omega),
    List.append_assoc]

theorem allocTable_valid (hwf : WellFormed n rob)
    (hroom : rob.count + i.allocCount <= n) {t : Nat}
    (ht : InWindow n rob.head (rob.count + i.allocCount) t) :
    (rob.allocTable n i t).valid = true := by
  have htag1 := allocTag1_eq hwf hroom
  rcases ht with ⟨k, hk, rfl⟩
  rw [RobIn.allocCount] at hk
  by_cases hlive : k < rob.count
  · exact allocAt_valid (allocAt_valid (hwf.valid _ ⟨k, hlive, rfl⟩))
  · by_cases hfirst : k < rob.count + i.allocEn0.toNat
    · -- The tag of slot 0.
      have h0 : i.allocEn0 = true := by
        cases h0 : i.allocEn0 with
        | true => rfl
        | false =>
            rw [h0, Bool.toNat_false] at hfirst
            omega
      have hcount : k = rob.count := by
        rw [h0, Bool.toNat_true] at hfirst
        omega
      apply allocAt_valid
      rw [hcount, <- hwf.tail_eq]
      simp [allocAt, allocTag0, h0]
    · have h1 : i.allocEn1 = true := by
        cases h1 : i.allocEn1 with
        | true => rfl
        | false =>
            rw [h1, Bool.toNat_false] at hk
            omega
      have hcount : k = rob.count + i.allocEn0.toNat := by
        rw [h1, Bool.toNat_true] at hk
        omega
      rw [hcount, <- htag1, allocTable_tag1 h1]

theorem not_retiring_of_later (hwf : WellFormed n rob) {k : Nat} (hkn : k < n)
    (hk : rob.retireCount n <= k) :
    rob.retiring n (wrapAdd n rob.head k) = false := by
  have hhead : rob.retireValid0 = true -> wrapAdd n rob.head k ≠ rob.head := by
    intro h0 heq
    have hzero : k = 0 := by
      apply wrapAdd_injective hkn (by omega)
      rw [heq, wrapAdd_zero hwf.head_lt]
    simp [retireCount, h0] at hk
    omega
  have hhead1 : rob.retireValid1 n = true ->
      wrapAdd n rob.head k ≠ rob.head1Idx n := by
    intro h1 heq
    have h0 := retireValid0_of_retireValid1 h1
    have htwo := retireValid1_count h1
    have hone : k = 1 := wrapAdd_injective hkn (by have := hwf.count_le; omega) heq
    simp [retireCount, h0, h1] at hk
    omega
  cases h0 : rob.retireValid0 <;> cases h1 : rob.retireValid1 n <;>
    simp_all [retiring]

theorem step_wellFormed (hwf : WellFormed n rob)
    (hroom : rob.count + i.allocCount <= n) :
    WellFormed n (rob.step n i) := by
  have hretire := retireCount_le n rob
  have hcount : (rob.step n i).count = rob.count + i.allocCount - rob.retireCount n := rfl
  constructor
  · rw [step_head i hwf]
    exact wrapAdd_lt hwf.head_lt (by omega)
  · rw [hcount]
    omega
  · rw [step_head i hwf, step_tail i hwf, hcount, hwf.tail_eq,
      wrapAdd_wrapAdd hwf.head_lt (by omega), wrapAdd_wrapAdd hwf.head_lt (by omega)]
    congr 1
    omega
  · intro t ht
    rw [step_head i hwf, hcount, inWindow_wrapAdd hwf.head_lt hroom (by omega)] at ht
    rcases ht with ⟨k, hretired, hk, rfl⟩
    rw [step_entry, not_retiring_of_later hwf (by omega) hretired,
      allocTable_valid hwf hroom ⟨k, hk, rfl⟩]
    rfl

theorem step_tagged (hwf : WellFormed n rob)
    (hroom : rob.count + i.allocCount <= n) :
    (rob.step n i).tagged n =
      (rob.tagged n ++ rob.newTagged n i).drop (rob.retireCount n) := by
  have hretire := retireCount_le n rob
  have hinfo : (fun t => (t, ((rob.step n i).entry t).info)) =
      (fun t => (t, (rob.allocTable n i t).info)) := by
    funext t
    rw [step_entry]
  have hcount : (rob.step n i).count = rob.count + i.allocCount - rob.retireCount n := rfl
  rw [tagged, hinfo, step_head i hwf, hcount,
    window_drop hwf.head_lt hroom (by omega), allocTable_tagged hwf hroom]

theorem step_infos (hwf : WellFormed n rob)
    (hroom : rob.count + i.allocCount <= n) :
    (rob.step n i).infos n = (rob.infos n ++ i.allocated).drop (rob.retireCount n) := by
  rw [<- tagged_infos, step_tagged hwf hroom, List.map_drop, List.map_append, tagged_infos,
    newTagged_infos]

/-!
# Tags across an edge

A live tag that is not done stays live, the allocated tags become live, and
nothing else does.
-/

theorem retireCount_le_index (hwf : WellFormed n rob) {k : Nat} (hk : k < rob.count)
    (hundone : (rob.entry (wrapAdd n rob.head k)).done = false) :
    rob.retireCount n <= k := by
  match k, hk, hundone with
  | 0, _, hundone =>
      rw [wrapAdd_zero hwf.head_lt] at hundone
      have h0 : rob.retireValid0 = false := by simp [retireValid0, hundone]
      simp [retireCount, retireValid1, h0]
  | 1, _, hundone =>
      have h1 : rob.retireValid1 n = false := by simp [retireValid1, head1Idx, hundone]
      cases h0 : rob.retireValid0 <;> simp [retireCount, h0, h1]
  | k + 2, _, _ =>
      cases h0 : rob.retireValid0 <;> cases h1 : rob.retireValid1 n <;>
        simp [retireCount, h0, h1]

theorem live_step_iff (hwf : WellFormed n rob) (hroom : rob.count + i.allocCount <= n)
    {t : Nat} :
    (rob.step n i).Live n t ↔
      exists k, rob.retireCount n <= k ∧ k < rob.count + i.allocCount ∧
        t = wrapAdd n rob.head k := by
  have hretire := retireCount_le n rob
  change InWindow n (rob.step n i).head (rob.count + i.allocCount - rob.retireCount n) t ↔ _
  rw [step_head i hwf, inWindow_wrapAdd hwf.head_lt hroom (by omega)]

theorem live_step_of_undone (hwf : WellFormed n rob)
    (hroom : rob.count + i.allocCount <= n) {t : Nat} (ht : rob.Live n t)
    (hundone : (rob.entry t).done = false) :
    (rob.step n i).Live n t := by
  rcases ht with ⟨k, hk, rfl⟩
  rw [live_step_iff hwf hroom]
  exact ⟨k, retireCount_le_index hwf hk hundone, by omega, rfl⟩

theorem live_step_of_not_retiring (hwf : WellFormed n rob)
    (hroom : rob.count + i.allocCount <= n) {t : Nat} (ht : rob.Live n t)
    (hstay : rob.retiring n t = false) :
    (rob.step n i).Live n t := by
  rcases ht with ⟨k, hk, rfl⟩
  rw [live_step_iff hwf hroom]
  refine ⟨k, ?_, by omega, rfl⟩
  simp only [retiring, Bool.or_eq_false_iff, Bool.and_eq_false_iff,
    decide_eq_false_iff_not] at hstay
  match k, hk, hstay with
  | 0, _, hstay =>
      rw [wrapAdd_zero hwf.head_lt] at hstay
      have h0 : rob.retireValid0 = false := hstay.left.resolve_right (fun hne => hne rfl)
      simp [retireCount, retireValid1, h0]
  | 1, _, hstay =>
      have h1 : rob.retireValid1 n = false := hstay.right.resolve_right (fun hne => hne rfl)
      cases h0 : rob.retireValid0 <;> simp [retireCount, h0, h1]
  | k + 2, _, _ =>
      cases h0 : rob.retireValid0 <;> cases h1 : rob.retireValid1 n <;>
        simp [retireCount, h0, h1]

theorem not_live_step_of_retire1 (hwf : WellFormed n rob)
    (hroom : rob.count + i.allocCount <= n) (h1 : rob.retireValid1 n = true) :
    ¬ (rob.step n i).Live n (rob.retireTag1 n) := by
  have h0 := retireValid0_of_retireValid1 h1
  have htwo := retireValid1_count h1
  rw [live_step_iff hwf hroom]
  rintro ⟨k, hretired, hk, heq⟩
  have hone : 1 = k := wrapAdd_injective (by omega) (by omega) heq
  simp [retireCount, h0, h1] at hretired
  omega

theorem step_done_of_live (hwf : WellFormed n rob)
    (hroom : rob.count + i.allocCount <= n) {t : Nat} (ht : rob.Live n t) :
    ((rob.step n i).entry t).done =
      ((rob.entry t).done || i.complete.any (fun port => decide (port = some t))) := by
  rw [step_entry, allocTable_live hwf hroom ht]

theorem live_allocTag0 (hwf : WellFormed n rob) (hroom : rob.count + i.allocCount <= n)
    (h0 : i.allocEn0 = true) :
    (rob.step n i).Live n rob.allocTag0 := by
  have hretire := retireCount_le n rob
  have hcount : i.allocCount = 1 + i.allocEn1.toNat := by simp [RobIn.allocCount, h0]
  rw [live_step_iff hwf hroom]
  exact ⟨rob.count, hretire, by omega, hwf.tail_eq⟩

theorem live_allocTag1 (hwf : WellFormed n rob) (hroom : rob.count + i.allocCount <= n)
    (h0 : i.allocEn0 = true) (h1 : i.allocEn1 = true) :
    (rob.step n i).Live n (rob.allocTag1 n true) := by
  have hretire := retireCount_le n rob
  have hroom' : rob.count + 2 <= n := by simpa [RobIn.allocCount, h0, h1] using hroom
  have htag : rob.allocTag1 n true = wrapAdd n rob.head (rob.count + 1) := by
    rw [<- allocTag_eq hwf (by omega)]
    rfl
  rw [live_step_iff hwf hroom]
  refine ⟨rob.count + 1, by omega, ?_, htag⟩
  simp [RobIn.allocCount, h0, h1]

theorem not_live_allocTag0 (hwf : WellFormed n rob)
    (hroom : rob.count + i.allocCount <= n) (h0 : i.allocEn0 = true) :
    ¬ rob.Live n rob.allocTag0 := by
  have hlt : rob.count + 0 < n := by
    simp [RobIn.allocCount, h0] at hroom
    omega
  have hnot := not_live_allocTag hwf hlt
  rwa [wrapAdd_zero (tail_lt hwf)] at hnot

theorem not_live_allocTag1 (hwf : WellFormed n rob)
    (hroom : rob.count + i.allocCount <= n) (h0 : i.allocEn0 = true)
    (h1 : i.allocEn1 = true) :
    ¬ rob.Live n (rob.allocTag1 n true) := by
  have hlt : rob.count + 1 < n := by
    simp [RobIn.allocCount, h0, h1] at hroom
    omega
  exact not_live_allocTag hwf hlt

theorem live_step_cases (hwf : WellFormed n rob)
    (hroom : rob.count + i.allocCount <= n) {t : Nat} (ht : (rob.step n i).Live n t) :
    rob.Live n t ∨ (i.allocEn0 = true ∧ t = rob.allocTag0) ∨
      (i.allocEn1 = true ∧ t = rob.allocTag1 n i.allocEn0) := by
  have htag1 := allocTag1_eq hwf hroom
  rcases (live_step_iff hwf hroom).mp ht with ⟨k, _, hk, rfl⟩
  rw [RobIn.allocCount] at hk
  by_cases hold : k < rob.count
  · exact Or.inl ⟨k, hold, rfl⟩
  · right
    by_cases hfirst : k < rob.count + i.allocEn0.toNat
    · left
      cases h0 : i.allocEn0 with
      | false =>
          rw [h0, Bool.toNat_false] at hfirst
          omega
      | true =>
          rw [h0, Bool.toNat_true] at hfirst
          have hcount : k = rob.count := by omega
          exact ⟨rfl, by rw [hcount, allocTag0, hwf.tail_eq]⟩
    · right
      cases h1 : i.allocEn1 with
      | false =>
          rw [h1, Bool.toNat_false] at hk
          omega
      | true =>
          rw [h1, Bool.toNat_true] at hk
          have hcount : k = rob.count + i.allocEn0.toNat := by omega
          exact ⟨rfl, by rw [hcount, htag1]⟩

end Alloc

theorem reset_wellFormed {n : Nat} (hn : 0 < n) (rob : ReorderBuffer) :
    WellFormed n (rob.reset n) := by
  constructor
  · exact hn
  · exact Nat.zero_le n
  · simp [reset, wrapAdd_zero hn]
  · intro t ht
    exact absurd ht (not_inWindow_zero n 0 t)

end ReorderBuffer
end Ooo
end RvCores
