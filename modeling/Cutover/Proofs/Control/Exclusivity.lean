/-
# Cutover.Proofs.Control.Exclusivity -- a key runs once at a time

What the queue keeps is said once (`WorkQueue.Orderly`): the keys that wait for their pass,
the one in the dispatcher's hand before those in the channel, are the pending keys without
repetition; none of them runs; and only running keys are dirty.  Each operation of the queue
has one lemma about it, and an `Activity` keeps it with the passes under way and the workers
they hold (`Activity.Sound`, `Sound.step`).

Starts are paid for by enqueues.  A key is owed a pass while it is pending and one more while
it is dirty (`WorkQueue.owed`); enqueueing it adds one debt at most, a start settles one, and
the end of a pass makes none (`starts_add_owed_le`).
-/
import Cutover.Proofs.Control.Interleaving
import Mathlib.Data.List.Nodup
import Mathlib.Data.List.Perm.Subperm

namespace Cutover

set_option autoImplicit false

namespace WorkQueue

variable {q : WorkQueue} {hand : Option String}

/-- The keys that wait for their pass: the one in the dispatcher's hand, then the channel. -/
def waiting (q : WorkQueue) (hand : Option String) : List String := hand.toList ++ q.channel

/-- What an open queue keeps, with the key that its dispatcher holds. -/
structure Orderly (q : WorkQueue) (hand : Option String) : Prop where
  opened : q.closed = false
  distinct : (q.waiting hand).Nodup
  pending : ∀ key, key ∈ q.waiting hand ↔ q.pending.contains key = true
  apart : ∀ key, q.pending.contains key = true → ¬ q.running.contains key = true
  dirty : ∀ key, q.dirty.contains key = true → q.running.contains key = true

theorem Orderly.empty : WorkQueue.empty.Orderly none where
  opened := rfl
  distinct := List.nodup_nil
  pending _ := iff_of_false List.not_mem_nil Bool.false_ne_true
  apart _ pending := absurd pending Bool.false_ne_true
  dirty _ dirty := absurd dirty Bool.false_ne_true

@[simp] theorem running_send (q : WorkQueue) (key : String) : (q.send key).running = q.running := by
  rw [send]
  split <;> rfl

@[simp] theorem running_enqueue (q : WorkQueue) (key : String) :
    (q.enqueue key).running = q.running := by
  rw [enqueue]
  split
  · rfl
  · exact running_send q key

/-- Receiving a key takes it off the channel and changes nothing else. -/
theorem eq_of_receive? {key : String} {q' : WorkQueue} (received : q.receive? = some (key, q')) :
    q = { q' with channel := key :: q'.channel } := by
  rcases q with ⟨_ | ⟨first, rest⟩, pending, running, dirty, failures, closed⟩
  · cases received
  · cases received
    rfl

theorem running_finish (q : WorkQueue) (key : String) (failed : Bool) :
    (q.finish key failed).running = q.running.erase key := by
  rw [finish]
  split
  · exact running_send _ key
  · rfl

/-- An idle key may be sent. -/
theorem Orderly.send (h : q.Orderly hand) {key : String}
    (idle : ¬ q.running.contains key = true) : (q.send key).Orderly hand := by
  by_cases waits : q.pending.contains key = true
  · rw [WorkQueue.send, if_pos (by simp [waits])]
    exact h
  · rw [WorkQueue.send, if_neg (by simp [waits, h.opened])]
    have fresh : key ∉ q.waiting hand := fun member => waits ((h.pending key).1 member)
    have longer : waiting { q with
        channel := q.channel ++ [key], pending := q.pending.insert key () } hand =
        q.waiting hand ++ [key] := by simp [waiting]
    refine ⟨h.opened, ?_, ?_, ?_, h.dirty⟩
    · rw [longer, ← List.concat_eq_append]
      exact List.Nodup.concat fresh h.distinct
    · intro other
      rw [longer]
      simp [h.pending other, or_comm]
    · intro other pending
      rcases (Dict.contains_insert ..).1 pending with rfl | pending
      · exact idle
      · exact h.apart other pending

theorem Orderly.enqueue (h : q.Orderly hand) (key : String) : (q.enqueue key).Orderly hand := by
  rw [WorkQueue.enqueue]
  split
  · rename_i runs
    refine ⟨h.opened, h.distinct, h.pending, h.apart, ?_⟩
    intro other dirty
    rcases (Dict.contains_insert ..).1 dirty with rfl | dirty
    · exact runs
    · exact h.dirty other dirty
  · rename_i idle
    exact h.send idle

/-- The received key is waiting as before, now in the dispatcher's hand. -/
theorem Orderly.receive (h : q.Orderly none) {key : String} {q' : WorkQueue}
    (received : q.receive? = some (key, q')) : q'.Orderly (some key) := by
  rw [eq_of_receive? received] at h
  exact ⟨h.opened, h.distinct, h.pending, h.apart, h.dirty⟩

theorem Orderly.waits {key : String} (h : q.Orderly (some key)) :
    q.pending.contains key = true :=
  (h.pending key).1 (by simp [waiting])

theorem Orderly.idle {key : String} (h : q.Orderly (some key)) :
    ¬ q.running.contains key = true :=
  h.apart key h.waits

theorem Orderly.start {key : String} (h : q.Orderly (some key)) : (q.start key).Orderly none := by
  obtain ⟨gone, distinct⟩ := List.nodup_cons.1 (show (key :: q.channel).Nodup from h.distinct)
  refine ⟨h.opened, distinct, ?_, ?_, ?_⟩
  · intro other
    have was : other = key ∨ other ∈ q.channel ↔ q.pending.contains other = true := by
      simpa [waiting] using h.pending other
    show other ∈ q.channel ↔ (q.pending.erase key).contains other = true
    rw [Dict.contains_erase, ← was]
    constructor
    · intro member
      exact ⟨fun same => gone (same ▸ member), Or.inr member⟩
    · rintro ⟨ne, same | member⟩
      · exact absurd same ne
      · exact member
  · intro other pending runs
    obtain ⟨ne, pending⟩ := (Dict.contains_erase ..).1 pending
    rcases (Dict.contains_insert ..).1 runs with same | runs
    · exact ne same
    · exact h.apart other pending runs
  · intro other dirty
    exact (Dict.contains_insert ..).2 (Or.inr (h.dirty other dirty))

theorem Orderly.finish (h : q.Orderly hand) (key : String) (failed : Bool) :
    (q.finish key failed).Orderly hand := by
  let left : WorkQueue := { q with
    running := q.running.erase key
    dirty := q.dirty.erase key
    failures :=
      if failed then q.failures.insert key (q.failuresAfter key true) else q.failures.erase key }
  have kept : left.Orderly hand := by
    refine ⟨h.opened, h.distinct, h.pending, ?_, ?_⟩
    · intro other pending runs
      exact h.apart other pending ((Dict.contains_erase ..).1 runs).2
    · intro other dirty
      obtain ⟨ne, dirty⟩ := (Dict.contains_erase ..).1 dirty
      exact (Dict.contains_erase ..).2 ⟨ne, h.dirty other dirty⟩
  show (if q.isDirty key then left.send key else left).Orderly hand
  split
  · exact kept.send (by simp [left])
  · exact kept

/-! ## Debts -/

/-- The passes that a key is owed: one while it is pending, one more while it is dirty. -/
def owed (q : WorkQueue) (key : String) : Nat :=
  (if q.pending.contains key then 1 else 0) + if q.dirty.contains key then 1 else 0

theorem owed_send_le (q : WorkQueue) (key other : String) :
    (q.send key).owed other ≤ q.owed other + [key].count other := by
  rw [send]
  split
  · omega
  · by_cases same : other = key
    · simp only [owed, Dict.contains_insert, same, true_or, if_true, List.count_singleton_self]
      omega
    · simp only [owed, Dict.contains_insert, same, false_or]
      omega

theorem owed_enqueue_le (q : WorkQueue) (key other : String) :
    (q.enqueue key).owed other ≤ q.owed other + [key].count other := by
  rw [enqueue]
  split
  · by_cases same : other = key
    · simp only [owed, Dict.contains_insert, same, true_or, if_true, List.count_singleton_self]
      omega
    · simp only [owed, Dict.contains_insert, same, false_or]
      omega
  · exact owed_send_le q key other

/-- A pending key that starts has had its pass. -/
theorem owed_start {key : String} (pending : q.pending.contains key = true) (other : String) :
    (q.start key).owed other + [key].count other = q.owed other := by
  have left : (q.start key).pending.contains other = true ↔
      other ≠ key ∧ q.pending.contains other = true := Dict.contains_erase ..
  have still : (q.start key).dirty = q.dirty := rfl
  rw [owed, owed, still]
  by_cases same : other = key
  · subst same
    simp [left, pending, Nat.add_comm]
  · simp [left, same, Ne.symm same]

/-- A dirty key that ends its pass is owed the one it is then pending for. -/
theorem owed_finish_le (q : WorkQueue) (key : String) (failed : Bool) (other : String) :
    (q.finish key failed).owed other ≤ q.owed other := by
  rw [finish]
  split
  · rename_i dirty
    refine Nat.le_trans (owed_send_le _ key other) ?_
    by_cases same : other = key
    · have : q.dirty.contains key = true := dirty
      simp [owed, same, this]
    · simp [owed, same, Ne.symm same]
  · simp only [owed, Dict.contains_erase]
    split_ifs <;> simp_all

end WorkQueue

namespace Control

namespace Activity

/-- What every activity of a controller keeps: an orderly queue, the running keys with one
pass each, and a worker, of those there are, for each pass under way or ending. -/
structure Sound (pacing : Pacing) (a : Activity) : Prop where
  paced : a.controller.pacing = pacing
  orderly : a.queue.Orderly a.controller.inHand
  single : a.busy.Nodup
  running : ∀ key, key ∈ a.busy ↔ a.queue.running.contains key = true
  workers : a.controller.started.Perm (a.busy ++ a.endings.map (·.key))
  bounded : a.controller.started.length ≤ pacing.capacity

variable {pacing : Pacing} {a : Activity}

theorem Sound.fresh (pacing : Pacing) : Sound pacing (fresh pacing) where
  paced := rfl
  orderly := .empty
  single := List.nodup_nil
  running _ := iff_of_false List.not_mem_nil Bool.false_ne_true
  workers := .nil
  bounded := Nat.zero_le _

/-- Enqueueing a key leaves the passes and their workers as they are. -/
theorem Sound.enqueue (h : Sound pacing a) (key : String) :
    Sound pacing { a with controller := a.controller.enqueue key } where
  paced := h.paced
  orderly := h.orderly.enqueue key
  single := h.single
  running other := by
    rw [h.running other]
    show _ ↔ (a.queue.enqueue key).running.contains other = true
    rw [WorkQueue.running_enqueue]
  workers := h.workers
  bounded := h.bounded

/-- The timers play no part. -/
theorem Sound.retime (h : Sound pacing a) (timers : List Timer) :
    Sound pacing { a with controller := { a.controller with timers } } :=
  ⟨h.paced, h.orderly, h.single, h.running, h.workers, h.bounded⟩

theorem Sound.enqueueAfter (h : Sound pacing a) (now : Nat) (key : String) (delay : Duration) :
    Sound pacing { a with controller := a.controller.enqueueAfter now key delay } := by
  rw [Controller.enqueueAfter]
  split
  · exact h.enqueue key
  · exact h.retime _

theorem Sound.receive (h : Sound pacing a) {c : Controller}
    (received : a.controller.receive? = some c) : Sound pacing { a with controller := c } := by
  obtain ⟨key, queue, empty, found, rfl⟩ := Controller.receive?_eq_some received
  have orderly : a.queue.Orderly none := empty ▸ h.orderly
  have before : a.queue = { queue with channel := key :: queue.channel } :=
    WorkQueue.eq_of_receive? found
  refine ⟨h.paced, orderly.receive found, h.single, ?_, h.workers, h.bounded⟩
  intro other
  have was := h.running other
  rwa [before] at was

theorem Sound.start (h : Sound pacing a) {c : Controller} {key : String}
    (started : a.controller.start? = some (key, c)) :
    Sound pacing { a with controller := c, busy := a.busy ++ [key] } := by
  obtain ⟨held, free, rfl⟩ := Controller.start?_eq_some started
  have orderly : a.queue.Orderly (some key) := held ▸ h.orderly
  have idle : key ∉ a.busy := fun member => orderly.idle ((h.running key).1 member)
  refine ⟨h.paced, orderly.start, ?_, ?_, ?_, ?_⟩
  · show (a.busy ++ [key]).Nodup
    rw [← List.concat_eq_append]
    exact List.Nodup.concat idle h.single
  · intro other
    show _ ↔ (a.queue.running.insert key ()).contains other = true
    rw [Dict.contains_insert, ← h.running other]
    simp [or_comm]
  · have one : (a.controller.started ++ [key]).Perm (a.busy ++ a.endings.map (·.key) ++ [key]) :=
      h.workers.append_right [key]
    refine one.trans ?_
    simp only [List.append_assoc]
    exact List.perm_append_comm.append_left a.busy
  · show (a.controller.started ++ [key]).length ≤ pacing.capacity
    rw [h.paced] at free
    rw [List.length_append]
    exact free

theorem Sound.finish (h : Sound pacing a) {key : String} (under : key ∈ a.busy)
    (outcome : Outcome) :
    Sound pacing ⟨a.controller.settle key outcome, a.busy.erase key,
      a.endings ++ [a.controller.followUp key outcome]⟩ := by
  refine ⟨h.paced, h.orderly.finish key _, h.single.erase key, ?_, ?_, h.bounded⟩
  · intro other
    show _ ↔ (a.queue.finish key _).running.contains other = true
    rw [WorkQueue.running_finish, Dict.contains_erase, h.single.mem_erase_iff, h.running other]
  · have taken : a.busy.Perm (key :: a.busy.erase key) := List.perm_cons_erase under
    have moved : (a.busy ++ a.endings.map (·.key)).Perm
        (a.busy.erase key ++ (a.endings.map (·.key) ++ [key])) := by
      refine (taken.append_right _).trans ?_
      rw [← List.append_assoc]
      exact (List.perm_append_singleton key _).symm
    show a.controller.started.Perm (_ ++ (a.endings ++ [a.controller.followUp key outcome]).map _)
    rw [List.map_append]
    exact h.workers.trans moved

theorem Sound.leave (h : Sound pacing a) {e : Ending} (leaving : e ∈ a.endings) (now : Nat) :
    Sound pacing { a with
      controller := a.controller.dismiss now e, endings := a.endings.erase e } := by
  have taken : (a.endings.map (·.key)).Perm (e.key :: (a.endings.erase e).map (·.key)) :=
    (List.perm_cons_erase leaving).map (·.key)
  obtain ⟨scheduled, kept, dismissed⟩ : ∃ scheduled : Controller,
      Sound pacing { a with controller := scheduled } ∧
        a.controller.dismiss now e = { scheduled with started := scheduled.started.erase e.key } := by
    unfold Controller.dismiss
    cases e.delay? with
    | none => exact ⟨_, h, rfl⟩
    | some delay => exact ⟨_, h.enqueueAfter now e.key delay, rfl⟩
  rw [dismissed]
  refine ⟨kept.paced, kept.orderly, kept.single, kept.running, ?_, ?_⟩
  · show (scheduled.started.erase e.key).Perm _
    have held : scheduled.started.Perm (e.key :: (a.busy ++ (a.endings.erase e).map (·.key))) :=
      kept.workers.trans ((taken.append_left a.busy).trans List.perm_middle)
    have freed := held.erase e.key
    rwa [List.erase_cons_head] at freed
  · exact Nat.le_trans (List.length_erase_le ..) kept.bounded

/-- Every event keeps an activity sound. -/
theorem Sound.step (h : Sound pacing a) (e : Event) : Sound pacing (a.step e) := by
  cases e with
  | enqueue key => exact h.enqueue key
  | enqueueAfter now key delay => exact h.enqueueAfter now key delay
  | fire timer =>
      rw [Activity.step]
      split
      · exact (h.retime _).enqueue timer.key
      · exact h
  | receive =>
      rw [Activity.step]
      split
      · rename_i received
        exact h.receive received
      · exact h
  | start =>
      rw [Activity.step]
      split
      · rename_i started
        exact h.start started
      · exact h
  | finish key outcome =>
      rw [Activity.step]
      split
      · rename_i under
        exact h.finish under outcome
      · exact h
  | leave now e =>
      rw [Activity.step]
      split
      · rename_i leaving
        exact h.leave leaving now
      · exact h

/-- What holds of an activity at every moment. -/
structure Exclusive (pacing : Pacing) (a : Activity) : Prop where
  /-- No key waits twice, in the channel or in the dispatcher's hand. -/
  distinct : (a.queue.waiting a.controller.inHand).Nodup
  /-- The waiting keys are the pending ones. -/
  pending : ∀ key, key ∈ a.queue.waiting a.controller.inHand ↔ a.queue.pending.contains key = true
  apart : ∀ key, a.queue.pending.contains key = true → ¬ a.queue.running.contains key = true
  dirty : ∀ key, a.queue.dirty.contains key = true → a.queue.running.contains key = true
  /-- A running key has one pass under way, any other has none. -/
  passes : a.busy.Nodup ∧ ∀ key, key ∈ a.busy ↔ a.queue.running.contains key = true
  /-- A key that can be started does not run. -/
  alone : ∀ key c, a.controller.start? = some (key, c) → ¬ a.queue.running.contains key = true
  /-- No more keys run than there are workers, or one if there are none. -/
  crew : a.queue.running.size ≤ max pacing.workers 1

theorem Sound.size_le (h : Sound pacing a) : a.queue.running.size ≤ pacing.capacity := by
  have listed : a.queue.running.keys ⊆ a.busy := by
    intro key member
    exact (h.running key).2 (a.queue.running.mem_keys.1 member)
  calc a.queue.running.size
      = a.queue.running.keys.length := (List.length_map ..).symm
    _ ≤ a.busy.length := (List.subperm_of_subset a.queue.running.nodup_keys listed).length_le
    _ ≤ a.controller.started.length := by
        rw [h.workers.length_eq, List.length_append]
        exact Nat.le_add_right _ _
    _ ≤ pacing.capacity := h.bounded

theorem Sound.exclusive (h : Sound pacing a) : Exclusive pacing a where
  distinct := h.orderly.distinct
  pending := h.orderly.pending
  apart := h.orderly.apart
  dirty := h.orderly.dirty
  passes := ⟨h.single, h.running⟩
  alone key c started := by
    obtain ⟨held, -, -⟩ := Controller.start?_eq_some started
    have orderly : a.queue.Orderly (some key) := held ▸ h.orderly
    exact orderly.idle
  crew := h.size_le

theorem Reaches.sound {b : Activity} (reached : Reaches a b) (h : Sound pacing a) :
    Sound pacing b := by
  obtain ⟨es, rfl⟩ := reached
  exact run_induction (fun _ e h => h.step e) a es h

/-- In a rehearsal, too, no key runs twice at once. -/
theorem upTo_exclusive (horizon : Nat) (pacing : Pacing) (script : Rehearsal.Script)
    (triggers : List Timer) :
    Exclusive pacing (between (Rehearsal.Run.upTo horizon pacing script triggers).controller) :=
  ((upTo_reaches horizon pacing script triggers).sound (.fresh pacing)).exclusive

/-! ## Starts and enqueues -/

/-- An event that starts a key settles a debt, and only one that enqueues it makes one. -/
theorem Sound.started_add_owed_le (h : Sound pacing a) (e : Event) (key : String) :
    (started? a e).toList.count key + (a.step e).queue.owed key ≤
      (enqueued? a e).toList.count key + a.queue.owed key := by
  have handled := step_handled a e
  generalize (a.step e).queue = q at handled ⊢
  cases handled with
  | untouched none_ aside => simp [none_, aside.unstarted]
  | @enqueued _ other names aside =>
      have := a.queue.owed_enqueue_le other key
      rw [aside.unstarted, names]
      show 0 + (a.queue.enqueue other).owed key ≤ [other].count key + a.queue.owed key
      omega
  | received found =>
      rw [WorkQueue.eq_of_receive? found]
      exact Nat.le_refl (0 + q.owed key)
  | @started other begins held =>
      have orderly : a.queue.Orderly (some other) := held ▸ h.orderly
      have := WorkQueue.owed_start orderly.waits key
      rw [begins]
      show [other].count key + (a.queue.start other).owed key ≤ 0 + a.queue.owed key
      omega
  | @ended other outcome =>
      have := a.queue.owed_finish_le other outcome.isFailure key
      show 0 + (a.queue.finish other _).owed key ≤ 0 + a.queue.owed key
      omega

/-- Along a run, the starts of a key and what it is owed at the end are paid for by its
enqueues and what it was owed before. -/
theorem Sound.starts_add_owed_le (h : Sound pacing a) (es : List Event) (key : String) :
    (along started? a es).count key + (a.run es).queue.owed key ≤
      (along enqueued? a es).count key + a.queue.owed key := by
  induction es generalizing a with
  | nil => exact Nat.le_refl _
  | cons e rest ih =>
      have first := h.started_add_owed_le e key
      have later := ih (h.step e)
      simp only [along, List.count_append]
      show _ + ((a.step e).run rest).queue.owed key ≤ _
      omega

/-- Whatever clients, timers, dispatcher and passes do, and in whatever order, every key runs
once at a time, and it is started no more often than it was enqueued. -/
theorem keys_run_alone_and_by_enqueue (pacing : Pacing) (es : List Event) :
    Exclusive pacing ((fresh pacing).run es) ∧
      ∀ key, (along started? (fresh pacing) es).count key ≤
        (along enqueued? (fresh pacing) es).count key := by
  have start : Sound pacing (fresh pacing) := .fresh pacing
  refine ⟨(Reaches.sound ⟨es, rfl⟩ start).exclusive, ?_⟩
  intro key
  have paid := start.starts_add_owed_le es key
  have free : (fresh pacing).queue.owed key = 0 := rfl
  omega

end Activity
end Control
end Cutover
