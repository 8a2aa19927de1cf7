import RvCores.Lib.Run
import RvCores.Ooo.ReorderBuffer

/-!
# The reorder buffer as an in-order queue

The buffer is run beside a log of what was allocated, completed and retired in
which cycle.  The log is the abstract queue: what has been allocated and not yet
retired, oldest first.  For any size and any legal use of the ports, entries
leave in the order in which they came, unchanged and once each, and only after a
completion of their own tag.
-/

namespace RvCores
namespace Ooo

open Lib

structure RobEvent where
  cycle : Nat
  tag : Nat
  info : RobInfo
deriving DecidableEq

def RobEvent.entry (e : RobEvent) : Nat × RobInfo := (e.tag, e.info)

structure LoggedRob where
  rob : ReorderBuffer
  cycle : Nat
  allocated : List RobEvent
  completed : List (Nat × Nat)
  retired : List RobEvent

/--
The tags on the enabled completion ports.
-/
def RobIn.completedTags (i : RobIn) : List Nat := i.complete.filterMap id

namespace ReorderBuffer

def retiredTagged (n : Nat) (rob : ReorderBuffer) : List (Nat × RobInfo) :=
  (if rob.retireValid0 then [(rob.retireTag0, rob.retire0)] else []) ++
    (if rob.retireValid1 n then [(rob.retireTag1 n, rob.retire1 n)] else [])

end ReorderBuffer

namespace LoggedRob

variable {n : Nat} {g : LoggedRob} {i : RobIn}

def log (cycle : Nat) (entries : List (Nat × RobInfo)) : List RobEvent :=
  entries.map (fun e => { cycle := cycle, tag := e.1, info := e.2 })

def step (n : Nat) (g : LoggedRob) (i : RobIn) : LoggedRob :=
  { rob := g.rob.step n i
    cycle := g.cycle + 1
    allocated := g.allocated ++ log g.cycle (g.rob.newTagged n i)
    completed := g.completed ++ i.completedTags.map (fun t => (g.cycle, t))
    retired := g.retired ++ log g.cycle (g.rob.retiredTagged n) }

def start (rob : ReorderBuffer) : LoggedRob :=
  { rob := rob, cycle := 0, allocated := [], completed := [], retired := [] }

/--
The abstract queue: allocated in an earlier cycle and not yet retired.
-/
def queue (g : LoggedRob) : List RobEvent := g.allocated.drop g.retired.length

/--
Legal use of the ports: there is room for what is allocated, and a completion
names an entry of the queue.
-/
structure Legal (n : Nat) (g : LoggedRob) (i : RobIn) : Prop where
  room : g.rob.count + i.allocCount <= n
  named : forall t, t ∈ i.completedTags -> exists e, e ∈ g.queue ∧ e.tag = t

instance (n : Nat) (g : LoggedRob) (i : RobIn) : Decidable (Legal n g i) :=
  decidable_of_iff
    (g.rob.count + i.allocCount <= n ∧
      forall t, t ∈ i.completedTags -> exists e, e ∈ g.queue ∧ e.tag = t)
    ⟨fun h => ⟨h.left, h.right⟩, fun h => ⟨h.room, h.named⟩⟩

def CompletedIn (g : LoggedRob) (t after before : Nat) : Prop :=
  exists c, (c, t) ∈ g.completed ∧ after < c ∧ c < before

structure InOrder (n : Nat) (g : LoggedRob) : Prop where
  wellFormed : g.rob.WellFormed n
  order : g.allocated.map RobEvent.entry = g.retired.map RobEvent.entry ++ g.rob.tagged n
  earlier : forall e, e ∈ g.allocated -> e.cycle < g.cycle
  done : forall e, e ∈ g.queue -> (g.rob.entry e.tag).done = true ->
    g.CompletedIn e.tag e.cycle g.cycle
  finished : forall (j : Nat) (a r : RobEvent), g.allocated[j]? = some a ->
    g.retired[j]? = some r -> g.CompletedIn a.tag a.cycle r.cycle

theorem log_entry (cycle : Nat) (entries : List (Nat × RobInfo)) :
    (log cycle entries).map RobEvent.entry = entries := by
  induction entries with
  | nil => rfl
  | cons e entries ih =>
      change e :: (log cycle entries).map RobEvent.entry = e :: entries
      rw [ih]

theorem log_length (cycle : Nat) (entries : List (Nat × RobInfo)) :
    (log cycle entries).length = entries.length := by
  simp [log]

theorem log_cycle {cycle : Nat} {entries : List (Nat × RobInfo)} {e : RobEvent}
    (h : e ∈ log cycle entries) :
    e.cycle = cycle ∧ e.entry ∈ entries := by
  rcases List.mem_map.mp h with ⟨p, hp, rfl⟩
  exact ⟨rfl, hp⟩

/-!
# What retires is the front of the queue
-/

theorem retiredTagged_length (n : Nat) (rob : ReorderBuffer) :
    (rob.retiredTagged n).length = rob.retireCount n := by
  unfold ReorderBuffer.retiredTagged ReorderBuffer.retireCount
  cases rob.retireValid0 <;> cases rob.retireValid1 n <;> rfl

theorem retiredTagged_eq_take (n : Nat) (rob : ReorderBuffer) :
    rob.retiredTagged n = (rob.tagged n).take (rob.retireCount n) := by
  cases h1 : rob.retireValid1 n with
  | true =>
      have h0 := ReorderBuffer.retireValid0_of_retireValid1 h1
      have htwo := ReorderBuffer.retireValid1_count h1
      have htagged : rob.tagged n = (rob.head, rob.retire0) ::
          (wrapAdd n rob.head 1, rob.retire1 n) ::
          window n (fun t => (t, (rob.entry t).info))
            (wrapAdd n (wrapAdd n rob.head 1) 1) (rob.count - 1 - 1) := by
        rw [ReorderBuffer.tagged, window_drop_one (by omega), window_drop_one (by omega)]
        rfl
      rw [htagged]
      simp [ReorderBuffer.retiredTagged, ReorderBuffer.retireCount, h0, h1,
        ReorderBuffer.retireTag0, ReorderBuffer.retireTag1, ReorderBuffer.head1Idx]
  | false =>
      cases h0 : rob.retireValid0 with
      | true =>
          have hpos := ReorderBuffer.retireValid0_count h0
          have htagged : rob.tagged n = (rob.head, rob.retire0) ::
              window n (fun t => (t, (rob.entry t).info)) (wrapAdd n rob.head 1)
                (rob.count - 1) := by
            rw [ReorderBuffer.tagged, window_drop_one hpos]
            rfl
          rw [htagged]
          simp [ReorderBuffer.retiredTagged, ReorderBuffer.retireCount, h0, h1,
            ReorderBuffer.retireTag0]
      | false => simp [ReorderBuffer.retiredTagged, ReorderBuffer.retireCount, h0, h1]

theorem done_of_retiredTagged {rob : ReorderBuffer} {t : Nat} {info : RobInfo}
    (h : (t, info) ∈ rob.retiredTagged n) :
    (rob.entry t).done = true := by
  unfold ReorderBuffer.retiredTagged at h
  rcases List.mem_append.mp h with h0 | h1
  · cases hvalid : rob.retireValid0 with
    | false => simp [hvalid] at h0
    | true =>
        simp only [hvalid, if_true, List.mem_singleton, Prod.mk.injEq] at h0
        simp only [ReorderBuffer.retireValid0, Bool.and_eq_true] at hvalid
        rw [h0.left]
        exact hvalid.right
  · cases hvalid : rob.retireValid1 n with
    | false => simp [hvalid] at h1
    | true =>
        simp only [hvalid, if_true, List.mem_singleton, Prod.mk.injEq] at h1
        simp only [ReorderBuffer.retireValid1, Bool.and_eq_true] at hvalid
        rw [h1.left]
        exact hvalid.right

/-!
# The queue and the window
-/

theorem tagged_length (n : Nat) (rob : ReorderBuffer) : (rob.tagged n).length = rob.count :=
  window_length n _ rob.head rob.count

theorem queue_entry (h : InOrder n g) : g.queue.map RobEvent.entry = g.rob.tagged n := by
  have hdrop : g.retired.length = (g.retired.map RobEvent.entry).length := by
    rw [List.length_map]
  rw [queue, List.map_drop, h.order, hdrop, List.drop_left]

theorem count_eq (h : InOrder n g) : g.retired.length + g.rob.count = g.allocated.length := by
  have hlen := congrArg List.length h.order
  rw [List.length_map, List.length_append, List.length_map, tagged_length] at hlen
  exact hlen.symm

theorem live_of_queue (h : InOrder n g) {e : RobEvent} (he : e ∈ g.queue) :
    g.rob.Live n e.tag := by
  have hmem : e.entry ∈ g.rob.tagged n := by
    rw [<- queue_entry h]
    exact List.mem_map_of_mem he
  rcases (mem_window h.wellFormed.head_lt h.wellFormed.count_le).mp hmem with ⟨t, ht, heq⟩
  have htag : e.tag = t := congrArg Prod.fst heq
  rw [htag]
  exact ht

theorem completedIn_step {t after before : Nat} (h : g.CompletedIn t after before) :
    (g.step n i).CompletedIn t after before := by
  rcases h with ⟨c, hc, hafter, hbefore⟩
  exact ⟨c, List.mem_append_left _ hc, hafter, hbefore⟩

/-!
# One clock edge
-/

section Edge

variable (h : InOrder n g) (hlegal : Legal n g i)

include h

theorem order_step (hroom : g.rob.count + i.allocCount <= n) :
    (g.step n i).allocated.map RobEvent.entry =
      (g.step n i).retired.map RobEvent.entry ++ (g.step n i).rob.tagged n := by
  have hretire : g.rob.retireCount n <= (g.rob.tagged n).length := by
    rw [tagged_length]
    exact ReorderBuffer.retireCount_le n g.rob
  have htake : g.rob.retiredTagged n =
      (g.rob.tagged n ++ g.rob.newTagged n i).take (g.rob.retireCount n) := by
    rw [retiredTagged_eq_take, List.take_append_of_le_length hretire]
  have htagged : (g.step n i).rob.tagged n =
      (g.rob.tagged n ++ g.rob.newTagged n i).drop (g.rob.retireCount n) :=
    ReorderBuffer.step_tagged h.wellFormed hroom
  change (g.allocated ++ log g.cycle (g.rob.newTagged n i)).map RobEvent.entry =
    (g.retired ++ log g.cycle (g.rob.retiredTagged n)).map RobEvent.entry ++ _
  rw [htagged, List.map_append, List.map_append, log_entry, log_entry, h.order,
    List.append_assoc, List.append_assoc, htake, List.take_append_drop]

theorem queue_step :
    (g.step n i).queue =
      (g.queue ++ log g.cycle (g.rob.newTagged n i)).drop (g.rob.retireCount n) := by
  have hcount := count_eq h
  change (g.allocated ++ log g.cycle (g.rob.newTagged n i)).drop
    (g.retired ++ log g.cycle (g.rob.retiredTagged n)).length = _
  rw [List.length_append, log_length, retiredTagged_length, <- List.drop_drop,
    List.drop_append_of_le_length (by omega)]
  rfl

include hlegal

theorem done_step {e : RobEvent} (he : e ∈ (g.step n i).queue)
    (hdone : ((g.step n i).rob.entry e.tag).done = true) :
    (g.step n i).CompletedIn e.tag e.cycle (g.step n i).cycle := by
  rw [queue_step h] at he
  have hcompleted : forall {t : Nat},
      i.complete.any (fun port => decide (port = some t)) = true ->
      t ∈ i.completedTags := by
    intro t hany
    rcases List.any_eq_true.mp hany with ⟨port, hport, heq⟩
    rw [decide_eq_true_eq] at heq
    exact List.mem_filterMap.mpr ⟨port, hport, heq⟩
  change ((g.rob.step n i).entry e.tag).done = true at hdone
  rcases List.mem_append.mp (List.mem_of_mem_drop he) with hold | hnew
  · have hlive := live_of_queue h hold
    rw [ReorderBuffer.step_done_of_live h.wellFormed hlegal.room hlive,
      Bool.or_eq_true] at hdone
    rcases hdone with hbefore | hnow
    · rcases h.done e hold hbefore with ⟨c, hc, hafter, hlt⟩
      exact ⟨c, List.mem_append_left _ hc, hafter, Nat.lt_succ_of_lt hlt⟩
    · refine ⟨g.cycle, List.mem_append_right _ ?_, ?_, Nat.lt_succ_self g.cycle⟩
      · exact List.mem_map.mpr ⟨e.tag, hcompleted hnow, rfl⟩
      · exact h.earlier e (List.mem_of_mem_drop hold)
  · -- A fresh entry is not done: no completion can name its tag yet.
    exfalso
    have hfresh : (g.rob.allocTable n i e.tag).done = false ∧ ¬ g.rob.Live n e.tag := by
      have hentry := (log_cycle hnew).right
      unfold ReorderBuffer.newTagged at hentry
      rcases List.mem_append.mp hentry with h0 | h1
      · cases hen : i.allocEn0 with
        | false => simp [hen] at h0
        | true =>
            simp only [hen, if_true, List.mem_singleton] at h0
            have htag : e.tag = g.rob.allocTag0 := congrArg Prod.fst h0
            rw [htag, ReorderBuffer.allocTable_tag0 h.wellFormed hlegal.room hen]
            exact ⟨rfl, ReorderBuffer.not_live_allocTag0 h.wellFormed hlegal.room hen⟩
      · cases hen : i.allocEn1 with
        | false => simp [hen] at h1
        | true =>
            simp only [hen, if_true, List.mem_singleton] at h1
            have htag : e.tag = g.rob.allocTag1 n i.allocEn0 := congrArg Prod.fst h1
            rw [htag, ReorderBuffer.allocTable_tag1 hen]
            refine ⟨rfl, ReorderBuffer.not_live_allocTag h.wellFormed ?_⟩
            have hroom := hlegal.room
            rw [RobIn.allocCount, hen, Bool.toNat_true] at hroom
            omega
    rw [ReorderBuffer.step_entry, hfresh.left, Bool.false_or] at hdone
    rcases hlegal.named e.tag (hcompleted hdone) with ⟨e', he', htag⟩
    exact hfresh.right (htag ▸ live_of_queue h he')

omit hlegal in
theorem finished_step {j : Nat} {a r : RobEvent}
    (ha : (g.step n i).allocated[j]? = some a) (hr : (g.step n i).retired[j]? = some r) :
    (g.step n i).CompletedIn a.tag a.cycle r.cycle := by
  have hcount := count_eq h
  change (g.allocated ++ log g.cycle (g.rob.newTagged n i))[j]? = some a at ha
  change (g.retired ++ log g.cycle (g.rob.retiredTagged n))[j]? = some r at hr
  by_cases hj : j < g.retired.length
  · rw [List.getElem?_append_left (by omega)] at ha hr
    exact completedIn_step (h.finished j a r ha hr)
  · rw [List.getElem?_append_right (by omega)] at hr
    have hnow := log_cycle (List.mem_of_getElem? hr)
    have hlen : j - g.retired.length < g.rob.retireCount n := by
      have hlt := (List.getElem?_eq_some_iff.mp hr).choose
      rw [log_length, retiredTagged_length] at hlt
      exact hlt
    have hretire := ReorderBuffer.retireCount_le n g.rob
    rw [List.getElem?_append_left (by omega)] at ha
    -- The retiring entry is the same one in the log of allocations.
    have hqueue : g.queue[j - g.retired.length]? = some a := by
      rw [queue, List.getElem?_drop, <- ha]
      congr 1
      omega
    have hentry : a.entry ∈ g.rob.retiredTagged n := by
      rw [retiredTagged_eq_take, <- queue_entry h]
      apply List.mem_of_getElem? (i := j - g.retired.length)
      rw [List.getElem?_take_of_lt hlen, List.getElem?_map, hqueue]
      rfl
    rw [hnow.left]
    exact completedIn_step
      (h.done a (List.mem_of_getElem? hqueue) (done_of_retiredTagged hentry))

theorem inOrder_step : InOrder n (g.step n i) := by
  constructor
  · exact ReorderBuffer.step_wellFormed h.wellFormed hlegal.room
  · exact order_step h hlegal.room
  · intro e he
    rcases List.mem_append.mp he with hold | hnew
    · exact Nat.lt_succ_of_lt (h.earlier e hold)
    · rw [(log_cycle hnew).left]
      exact Nat.lt_succ_self g.cycle
  · intro e he hdone
    exact done_step h hlegal he hdone
  · intro j a r ha hr
    exact finished_step h ha hr

end Edge

theorem inOrder_start (hn : 2 <= n) (rob : ReorderBuffer) :
    InOrder n (start (rob.reset n)) := by
  constructor
  · exact ReorderBuffer.reset_wellFormed (by omega) rob
  · rfl
  · intro e he
    cases he
  · intro e he
    cases he
  · intro j a r ha
    simp [start] at ha

/-!
# Every legal run
-/

theorem refines_in_order_queue (hn : 2 <= n) {rob : ReorderBuffer}
    (hrun : ReachableWhen (step n) (Legal n) (start (rob.reset n)) g) :
    g.retired.map RobEvent.entry <+: g.allocated.map RobEvent.entry ∧
      g.rob.count = g.allocated.length - g.retired.length ∧
      g.retired.length <= g.allocated.length ∧
      forall (j : Nat) (a r : RobEvent), g.allocated[j]? = some a ->
        g.retired[j]? = some r -> g.CompletedIn a.tag a.cycle r.cycle := by
  have h : InOrder n g :=
    invariant_of_reachableWhen (inOrder_start hn rob)
      (fun _ _ h hlegal => inOrder_step h hlegal) hrun
  have hcount := count_eq h
  refine ⟨?_, by omega, by omega, h.finished⟩
  rw [h.order]
  exact List.prefix_append _ _

/-!
# A run around a buffer of three entries
-/

def plainInfo (a : Nat) : RobInfo :=
  { hasDest := true, isFpDest := false, isVecDest := false, areg := a, preg := a, oldPreg := a }

def cycleIn (allocs : List Nat) (tags : List Nat) : RobIn :=
  { allocEn0 := decide (1 <= allocs.length)
    alloc0 := plainInfo (allocs.getD 0 0)
    allocEn1 := decide (2 <= allocs.length)
    alloc1 := plainInfo (allocs.getD 1 0)
    complete := tags.map some }

def wrapInputs : List RobIn :=
  [cycleIn [1, 2] [], cycleIn [3] [1, 0], cycleIn [] [2], cycleIn [4, 5] [], cycleIn [] [0, 1],
    cycleIn [] []]

def wrapRun : LoggedRob :=
  run (step 3) (start (ReorderBuffer.reset 3
    { entry := fun _ => { valid := true, done := true, info := plainInfo 0 }
      count := 2, head := 1, tail := 1 })) wrapInputs

theorem refines_in_order_queue_wrap :
    wrapRun.retired.length = 5 ∧
      wrapRun.retired.map RobEvent.entry <+: wrapRun.allocated.map RobEvent.entry ∧
      wrapRun.rob.count = wrapRun.allocated.length - wrapRun.retired.length :=
  have h := refines_in_order_queue (by decide) (g := wrapRun) (reachableWhen_run (by decide))
  ⟨by decide, h.left, h.right.left⟩

end LoggedRob
end Ooo
end RvCores
