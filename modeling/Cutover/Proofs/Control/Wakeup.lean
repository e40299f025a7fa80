/-
# Cutover.Proofs.Control.Wakeup -- no trigger and no follow-up is forgotten

Here the end of a pass and the scheduling of its follow-up are one step, so a controller
moves from one state of its own to the next (`Controller.move`).  Every move is a run of the
finer steps of an `Activity` (`move_reaches`) and keeps what those keep.

A key that is wanted is pending or dirty.  It stays so until it starts, whatever else
happens (`Wanted.move`): the end of its pass turns the dirty mark into a place among the
pending keys.  A key that is due by a deadline is idle and either pending or named by a timer
that runs out in time, and stays due until it starts (`Due.move`): a timer goes only when its
key is sent.  The end of a pass drops the follow-up it was to have only if the key is sent
again at once, so the key is due in either case (`due_finish`).
-/
import Cutover.Proofs.Control.Exclusivity

namespace Cutover

set_option autoImplicit false

namespace WorkQueue

variable {q : WorkQueue} {key other : String}

/-- A pass of the key is called for: it is pending, or it runs and is dirty. -/
def Wanted (q : WorkQueue) (key : String) : Prop :=
  q.pending.contains key = true ∨ q.dirty.contains key = true

theorem pending_send (opened : q.closed = false) : (q.send key).pending.contains other = true ↔
    other = key ∨ q.pending.contains other = true := by
  rw [send]
  by_cases waits : q.pending.contains key = true
  · rw [if_pos (by simp [waits])]
    constructor
    · exact Or.inr
    · rintro (rfl | pending)
      · exact waits
      · exact pending
  · rw [if_neg (by simp [waits, opened])]
    exact Dict.contains_insert ..

@[simp] theorem dirty_send (q : WorkQueue) (key : String) : (q.send key).dirty = q.dirty := by
  rw [send]
  split <;> rfl

@[simp] theorem closed_enqueue (q : WorkQueue) (key : String) :
    (q.enqueue key).closed = q.closed := by
  rw [enqueue, send]
  split_ifs <;> rfl

/-! ## Enqueueing -/

theorem pending_enqueue_of_idle (opened : q.closed = false)
    (idle : ¬ q.running.contains key = true) : (q.enqueue key).pending.contains key = true := by
  rw [enqueue, if_neg idle]
  exact (pending_send opened).2 (Or.inl rfl)

theorem pending_enqueue (opened : q.closed = false) (pending : q.pending.contains key = true)
    (other : String) : (q.enqueue other).pending.contains key = true := by
  rw [enqueue]
  split
  · exact pending
  · exact (pending_send opened).2 (Or.inr pending)

theorem wanted_enqueue (opened : q.closed = false) (key : String) : (q.enqueue key).Wanted key := by
  by_cases runs : q.running.contains key = true
  · rw [enqueue, if_pos runs]
    exact Or.inr ((Dict.contains_insert ..).2 (Or.inl rfl))
  · exact Or.inl (pending_enqueue_of_idle opened runs)

theorem Wanted.enqueue (wanted : q.Wanted key) (opened : q.closed = false) (other : String) :
    (q.enqueue other).Wanted key := by
  rcases wanted with pending | dirty
  · exact Or.inl (pending_enqueue opened pending other)
  · refine Or.inr ?_
    rw [WorkQueue.enqueue]
    split
    · exact (Dict.contains_insert ..).2 (Or.inr dirty)
    · rwa [dirty_send]

/-- A queue that is open wants what it wanted and the key that is enqueued. -/
theorem wanted_enqueue_iff (opened : q.closed = false) :
    (q.enqueue other).Wanted key ↔ q.Wanted key ∨ key = other := by
  constructor
  · intro wanted
    unfold Wanted WorkQueue.enqueue at wanted
    split at wanted
    · rw [Dict.contains_insert] at wanted
      unfold Wanted
      tauto
    · rw [pending_send opened, dirty_send] at wanted
      unfold Wanted
      tauto
  · rintro (wanted | rfl)
    · exact wanted.enqueue opened other
    · exact wanted_enqueue opened key

/-! ## The start and the end of a pass -/

theorem pending_start (pending : q.pending.contains key = true) (ne : key ≠ other) :
    (q.start other).pending.contains key = true :=
  (Dict.contains_erase ..).2 ⟨ne, pending⟩

/-- The queue once the pass of a key has ended, before the key is sent again. -/
def retire (q : WorkQueue) (key : String) (failed : Bool) : WorkQueue := { q with
  running := q.running.erase key
  dirty := q.dirty.erase key
  failures :=
    if failed then q.failures.insert key (q.failuresAfter key true) else q.failures.erase key }

theorem finish_eq (q : WorkQueue) (key : String) (failed : Bool) : q.finish key failed =
    if q.isDirty key then (q.retire key failed).send key else q.retire key failed := rfl

theorem pending_finish (opened : q.closed = false) (pending : q.pending.contains key = true)
    (other : String) (failed : Bool) : (q.finish other failed).pending.contains key = true := by
  have opened' : (q.retire other failed).closed = false := opened
  rw [finish_eq]
  split
  · exact (pending_send opened').2 (Or.inr pending)
  · exact pending

/-- A dirty key is pending once its pass has ended, however it ends. -/
theorem pending_finish_of_dirty (opened : q.closed = false) (dirty : q.dirty.contains key = true)
    (failed : Bool) : (q.finish key failed).pending.contains key = true := by
  have opened' : (q.retire key failed).closed = false := opened
  rw [finish_eq, if_pos (show q.isDirty key = true from dirty)]
  exact (pending_send opened').2 (Or.inl rfl)

theorem Wanted.finish (wanted : q.Wanted key) (opened : q.closed = false) (other : String)
    (failed : Bool) : (q.finish other failed).Wanted key := by
  rcases wanted with pending | dirty
  · exact Or.inl (pending_finish opened pending other failed)
  · by_cases same : key = other
    · subst same
      exact Or.inl (pending_finish_of_dirty opened dirty failed)
    · have kept : (q.retire other failed).dirty.contains key = true :=
        (Dict.contains_erase ..).2 ⟨same, dirty⟩
      refine Or.inr ?_
      rw [finish_eq]
      split
      · rwa [dirty_send]
      · exact kept

end WorkQueue

namespace Control

open Activity (Sound Reaches between)

/-! ## Moves -/

/-- What happens to a controller that serves.  The end of a pass schedules its follow-up in
the same step. -/
inductive Move where
  /-- A client enqueues a key. -/
  | enqueue (key : String)
  /-- A client has a key enqueued after a delay. -/
  | enqueueAfter (now : Nat) (key : String) (delay : Duration)
  /-- A delay has run out, and its key is enqueued. -/
  | fire (timer : Timer)
  /-- The dispatcher takes the next key off the channel. -/
  | receive
  /-- The dispatcher starts the key in its hand. -/
  | start
  /-- The pass of a key ends. -/
  | finish (now : Nat) (key : String) (outcome : Outcome)

namespace Controller

/-- A move that cannot happen changes nothing, so every list of moves is a run. -/
def move (c : Controller) : Move → Controller
  | .enqueue key => c.enqueue key
  | .enqueueAfter now key delay => c.enqueueAfter now key delay
  | .fire timer =>
      if timer ∈ c.timers then { c with timers := c.timers.erase timer }.enqueue timer.key else c
  | .receive => c.receive?.getD c
  | .start => (c.start?.map (·.2)).getD c
  | .finish now key outcome => if key ∈ c.started then c.finish now key outcome else c

def run (c : Controller) (ms : List Move) : Controller := ms.foldl move c

/-- The key that a move enqueues, for a client, for a timer or for the pass that ends. -/
def enqueued? (c : Controller) : Move → Option String
  | .enqueue key => some key
  | .enqueueAfter _ key delay => if delay.nanos = 0 then some key else none
  | .fire timer => if timer ∈ c.timers then some timer.key else none
  | .finish _ key outcome =>
      if key ∈ c.started ∧ (c.followUp key outcome).delay? = some ⟨0⟩ then some key else none
  | _ => none

/-- The key that a move starts. -/
def started? (c : Controller) : Move → Option String
  | .start => c.start?.map (·.1)
  | _ => none

/-- The keys that are started along a run. -/
def startedAlong : Controller → List Move → List String
  | _, [] => []
  | c, m :: rest => (c.started? m).toList ++ startedAlong (c.move m) rest

end Controller

variable {pacing : Pacing} {c : Controller} {key : String} {deadline : Nat}

theorem move_reaches (c : Controller) (m : Move) : Reaches (between c) (between (c.move m)) := by
  cases m with
  | enqueue key => exact Activity.step_reaches (between c) (.enqueue key)
  | enqueueAfter now key delay =>
      have stepped := Activity.step_reaches (between c) (.enqueueAfter now key delay)
      have same : (between c).step (.enqueueAfter now key delay) =
          between (c.enqueueAfter now key delay) := by
        simp [Activity.step, between, Activity.started_enqueueAfter]
      rwa [same] at stepped
  | fire timer =>
      have stepped := Activity.step_reaches (between c) (.fire timer)
      have same : (between c).step (.fire timer) = between (c.move (.fire timer)) := by
        by_cases set : timer ∈ c.timers
        · simp [Activity.step, between, Controller.move, set, Controller.enqueue]
        · simp [Activity.step, between, Controller.move, set]
      rwa [same] at stepped
  | receive =>
      have stepped := Activity.step_reaches (between c) .receive
      cases found : c.receive? with
      | none =>
          simp only [Controller.move, found, Option.getD_none]
          exact Reaches.refl _
      | some c' =>
          obtain ⟨key, queue, -, -, rfl⟩ := Controller.receive?_eq_some found
          simp only [Activity.step, between, found] at stepped
          simp only [Controller.move, found, Option.getD_some]
          exact stepped
  | start =>
      have stepped := Activity.step_reaches (between c) .start
      cases found : c.start? with
      | none =>
          simp only [Controller.move, found, Option.map_none, Option.getD_none]
          exact Reaches.refl _
      | some next =>
          obtain ⟨key, c'⟩ := next
          obtain ⟨-, -, rfl⟩ := Controller.start?_eq_some found
          simp only [Activity.step, between, found] at stepped
          simp only [Controller.move, found, Option.map_some, Option.getD_some]
          exact stepped
  | finish now key outcome =>
      simp only [Controller.move]
      split
      · rename_i under
        exact Activity.finish_reaches under now outcome
      · exact Reaches.refl _

theorem sound_run (h : Sound pacing (between c)) (ms : List Move) :
    Sound pacing (between (c.run ms)) := by
  induction ms generalizing c with
  | nil => exact h
  | cons m rest ih => exact ih ((move_reaches c m).sound h)

section Sound

variable (h : Sound pacing (between c))
include h

theorem opened_of_sound : c.queue.closed = false := h.orderly.opened

theorem opened_settle (key : String) (outcome : Outcome) :
    (c.settle key outcome).queue.closed = false :=
  (h.orderly.finish key outcome.isFailure).opened

end Sound

/-! ## Wanted keys -/

theorem wanted_enqueueAfter (wanted : c.queue.Wanted key) (opened : c.queue.closed = false)
    (now : Nat) (other : String) (delay : Duration) :
    (c.enqueueAfter now other delay).queue.Wanted key := by
  rw [Controller.enqueueAfter]
  split
  · exact wanted.enqueue opened other
  · exact wanted

theorem wanted_dismiss (wanted : c.queue.Wanted key) (opened : c.queue.closed = false)
    (now : Nat) (e : Ending) : (c.dismiss now e).queue.Wanted key := by
  unfold Controller.dismiss
  cases e.delay? with
  | none => exact wanted
  | some delay => exact wanted_enqueueAfter wanted opened now e.key delay

/-- A wanted key stays wanted by every move that does not start it. -/
theorem Wanted.move (h : Sound pacing (between c)) (wanted : c.queue.Wanted key) {m : Move}
    (unstarted : c.started? m ≠ some key) : (c.move m).queue.Wanted key := by
  have opened := opened_of_sound h
  cases m with
  | enqueue other => exact wanted.enqueue opened other
  | enqueueAfter now other delay => exact wanted_enqueueAfter wanted opened now other delay
  | fire timer =>
      simp only [Controller.move]
      split
      · exact wanted.enqueue opened timer.key
      · exact wanted
  | receive =>
      cases found : c.receive? with
      | none => simpa only [Controller.move, found, Option.getD_none] using wanted
      | some c' =>
          obtain ⟨other, queue, -, taken, rfl⟩ := Controller.receive?_eq_some found
          rw [WorkQueue.eq_of_receive? taken] at wanted
          simp only [Controller.move, found, Option.getD_some]
          exact wanted
  | start =>
      cases found : c.start? with
      | none => simpa only [Controller.move, found, Option.map_none, Option.getD_none] using wanted
      | some next =>
          obtain ⟨other, c'⟩ := next
          obtain ⟨-, -, rfl⟩ := Controller.start?_eq_some found
          have ne : key ≠ other := fun same =>
            unstarted (by simp [Controller.started?, found, same])
          simp only [Controller.move, found, Option.map_some, Option.getD_some]
          exact wanted.imp_left fun pending => WorkQueue.pending_start pending ne
  | finish now other outcome =>
      simp only [Controller.move]
      split
      · rw [Activity.finish_eq]
        exact wanted_dismiss (c := c.settle other outcome)
          (wanted.finish opened other outcome.isFailure) (opened_settle h other outcome) now _
      · exact wanted

theorem Wanted.run (h : Sound pacing (between c)) (wanted : c.queue.Wanted key) {ms : List Move}
    (unstarted : key ∉ c.startedAlong ms) : (c.run ms).queue.Wanted key := by
  induction ms generalizing c with
  | nil => exact wanted
  | cons m rest ih =>
      rw [Controller.startedAlong, List.mem_append, not_or] at unstarted
      obtain ⟨here, there⟩ := unstarted
      have kept : (c.move m).queue.Wanted key :=
        Wanted.move h wanted fun same => here (by simp [same])
      exact ih ((move_reaches c m).sound h) kept there

/-! ## Due keys -/

/-- The key waits for its start: it does not run, and it is pending or a timer that runs out
by the deadline stands for it. -/
structure Due (c : Controller) (key : String) (deadline : Nat) : Prop where
  idle : ¬ c.queue.running.contains key = true
  booked : c.queue.pending.contains key = true ∨
    ∃ timer ∈ c.timers, timer.key = key ∧ timer.due ≤ deadline

theorem Due.enqueue (due : Due c key deadline) (opened : c.queue.closed = false) (other : String) :
    Due (c.enqueue other) key deadline where
  idle := by
    show ¬ (c.queue.enqueue other).running.contains key = true
    rw [WorkQueue.running_enqueue]
    exact due.idle
  booked := due.booked.imp_left fun pending => WorkQueue.pending_enqueue opened pending other

theorem Due.enqueueAfter (due : Due c key deadline) (opened : c.queue.closed = false) (now : Nat)
    (other : String) (delay : Duration) : Due (c.enqueueAfter now other delay) key deadline := by
  rw [Controller.enqueueAfter]
  split
  · exact due.enqueue opened other
  · refine ⟨due.idle, due.booked.imp_right ?_⟩
    rintro ⟨timer, set, names, early⟩
    exact ⟨timer, List.mem_append_left _ set, names, early⟩

theorem due_enqueue (opened : c.queue.closed = false)
    (idle : ¬ c.queue.running.contains key = true) : Due (c.enqueue key) key deadline where
  idle := by
    show ¬ (c.queue.enqueue key).running.contains key = true
    rw [WorkQueue.running_enqueue]
    exact idle
  booked := Or.inl (WorkQueue.pending_enqueue_of_idle opened idle)

/-- A timer that runs out leaves its key pending, and the other timers as they are. -/
theorem Due.fire (due : Due c key deadline) (opened : c.queue.closed = false) (timer : Timer) :
    Due ({ c with timers := c.timers.erase timer }.enqueue timer.key) key deadline := by
  by_cases names : timer.key = key
  · rw [names]
    exact due_enqueue (c := { c with timers := c.timers.erase timer }) opened due.idle
  · have kept : Due { c with timers := c.timers.erase timer } key deadline := by
      refine ⟨due.idle, due.booked.imp_right ?_⟩
      rintro ⟨other, set, same, early⟩
      have ne : other ≠ timer := fun e => names (e ▸ same)
      exact ⟨other, (List.mem_erase_of_ne ne).2 set, same, early⟩
    exact kept.enqueue opened timer.key

/-- A key that does not run has no part in the end of a pass. -/
theorem Due.finish (h : Sound pacing (between c)) (due : Due c key deadline) (now : Nat)
    (other : String) (outcome : Outcome) : Due (c.finish now other outcome) key deadline := by
  have settled : Due (c.settle other outcome) key deadline := by
    constructor
    · show ¬ (c.queue.finish other _).running.contains key = true
      rw [WorkQueue.running_finish, Dict.contains_erase]
      exact fun runs => due.idle runs.2
    · exact due.booked.imp_left fun pending =>
        WorkQueue.pending_finish (opened_of_sound h) pending other _
  rw [Activity.finish_eq]
  unfold Controller.dismiss
  cases (c.followUp other outcome).delay? with
  | none => exact ⟨settled.idle, settled.booked⟩
  | some delay =>
      have scheduled := settled.enqueueAfter (opened_settle h other outcome) now other delay
      exact ⟨scheduled.idle, scheduled.booked⟩

/-- A due key stays due by every move that does not start it. -/
theorem Due.move (h : Sound pacing (between c)) (due : Due c key deadline) {m : Move}
    (unstarted : c.started? m ≠ some key) : Due (c.move m) key deadline := by
  have opened := opened_of_sound h
  cases m with
  | enqueue other => exact due.enqueue opened other
  | enqueueAfter now other delay => exact due.enqueueAfter opened now other delay
  | fire timer =>
      simp only [Controller.move]
      split
      · exact due.fire opened timer
      · exact due
  | receive =>
      cases found : c.receive? with
      | none => simpa only [Controller.move, found, Option.getD_none] using due
      | some c' =>
          obtain ⟨other, queue, -, taken, rfl⟩ := Controller.receive?_eq_some found
          obtain ⟨idle, booked⟩ := due
          rw [WorkQueue.eq_of_receive? taken] at idle booked
          simp only [Controller.move, found, Option.getD_some]
          exact ⟨idle, booked⟩
  | start =>
      cases found : c.start? with
      | none => simpa only [Controller.move, found, Option.map_none, Option.getD_none] using due
      | some next =>
          obtain ⟨other, c'⟩ := next
          obtain ⟨-, -, rfl⟩ := Controller.start?_eq_some found
          have ne : key ≠ other := fun same =>
            unstarted (by simp [Controller.started?, found, same])
          simp only [Controller.move, found, Option.map_some, Option.getD_some]
          constructor
          · intro runs
            rcases (Dict.contains_insert ..).1 runs with same | runs
            · exact ne same
            · exact due.idle runs
          · exact due.booked.imp_left fun pending => WorkQueue.pending_start pending ne
  | finish now other outcome =>
      simp only [Controller.move]
      split
      · exact due.finish h now other outcome
      · exact due

theorem Due.run (h : Sound pacing (between c)) (due : Due c key deadline) {ms : List Move}
    (unstarted : key ∉ c.startedAlong ms) : Due (c.run ms) key deadline := by
  induction ms generalizing c with
  | nil => exact due
  | cons m rest ih =>
      rw [Controller.startedAlong, List.mem_append, not_or] at unstarted
      obtain ⟨here, there⟩ := unstarted
      exact ih ((move_reaches c m).sound h) (due.move h fun same => here (by simp [same])) there

/-- **The follow-up of a pass.**  A key whose pass asks to be run again after a delay is due
by then: it is sent again at once, or has a timer of its own. -/
theorem due_finish (h : Sound pacing (between c)) (now : Nat) {outcome : Outcome}
    {delay : Duration} (asks : outcome.delay? c.pacing
      (c.queue.failuresAfter key outcome.isFailure) = some delay) :
    Due (c.finish now key outcome) key (now + delay.nanos) := by
  have opened := opened_settle h key outcome
  have idle : ¬ (c.settle key outcome).queue.running.contains key = true := by
    show ¬ (c.queue.finish key _).running.contains key = true
    rw [WorkQueue.running_finish, Dict.contains_erase]
    exact fun runs => runs.1 rfl
  rw [Activity.finish_eq]
  cases dirty : c.queue.isDirty key with
  | true =>
      have none_ : (c.followUp key outcome).delay? = none := if_pos dirty
      have pending := WorkQueue.pending_finish_of_dirty (opened_of_sound h) dirty outcome.isFailure
      simp only [Controller.dismiss, none_]
      exact ⟨idle, Or.inl pending⟩
  | false =>
      have follows : (c.followUp key outcome).delay? = some delay := by
        simp [Controller.followUp, dirty, asks]
      simp only [Controller.dismiss, follows, Controller.enqueueAfter]
      split
      · have due : Due _ key (now + delay.nanos) := due_enqueue opened idle
        exact ⟨due.idle, due.booked⟩
      · have set :=
          List.mem_append_right c.timers (List.mem_singleton_self ⟨now + delay.nanos, key⟩)
        exact ⟨idle, Or.inr ⟨_, set, rfl, Nat.le_refl _⟩⟩

/-! ## Triggers -/

/-- The key that a move enqueues is wanted. -/
theorem wanted_of_enqueued (h : Sound pacing (between c)) {m : Move}
    (enqueued : c.enqueued? m = some key) : (c.move m).queue.Wanted key := by
  have opened := opened_of_sound h
  cases m with
  | enqueue other =>
      obtain rfl : other = key := Option.some.inj enqueued
      exact WorkQueue.wanted_enqueue opened other
  | enqueueAfter now other delay =>
      simp only [Controller.enqueued?, Option.ite_none_right_eq_some] at enqueued
      obtain ⟨atOnce, same⟩ := enqueued
      obtain rfl : other = key := Option.some.inj same
      simp only [Controller.move, Controller.enqueueAfter, atOnce, if_true]
      exact WorkQueue.wanted_enqueue opened other
  | fire timer =>
      simp only [Controller.enqueued?, Option.ite_none_right_eq_some] at enqueued
      obtain ⟨set, same⟩ := enqueued
      obtain rfl : timer.key = key := Option.some.inj same
      simp only [Controller.move, set, if_true]
      exact WorkQueue.wanted_enqueue opened timer.key
  | receive => cases enqueued
  | start => cases enqueued
  | finish now other outcome =>
      simp only [Controller.enqueued?, Option.ite_none_right_eq_some] at enqueued
      obtain ⟨⟨under, follows⟩, same⟩ := enqueued
      obtain rfl : other = key := Option.some.inj same
      simp only [Controller.move, under, if_true, Activity.finish_eq, Controller.dismiss, follows,
        Controller.enqueueAfter]
      exact WorkQueue.wanted_enqueue (opened_settle h other outcome) other

/-- A running key is not pending, so if it is wanted the end of its pass sends it again. -/
theorem pending_finish_of_wanted (h : Sound pacing (between c)) (wanted : c.queue.Wanted key)
    (under : key ∈ c.started) (now : Nat) (outcome : Outcome) :
    (c.finish now key outcome).queue.pending.contains key = true := by
  have dirty : c.queue.dirty.contains key = true := by
    refine wanted.resolve_left fun pending => ?_
    exact h.orderly.apart key pending ((h.running key).1 under)
  have pending := WorkQueue.pending_finish_of_dirty (opened_of_sound h) dirty outcome.isFailure
  have none_ : (c.followUp key outcome).delay? = none := if_pos dirty
  simp only [Activity.finish_eq, Controller.dismiss, none_]
  exact pending

/-- What a controller owes to its keys, wherever a run is cut in two. -/
structure Remembers (pacing : Pacing) (c : Controller) (after : List Move) : Prop where
  /-- A key that was enqueued and has not been started since is pending or dirty. -/
  triggers : ∀ key m, c.enqueued? m = some key → key ∉ (c.move m).startedAlong after →
    ((c.move m).run after).queue.pending.contains key = true ∨
      ((c.move m).run after).queue.dirty.contains key = true
  /-- A key whose pass has ended with a request to run again after a delay, or with a failure
  that is repeated, and that has not been started since, is pending or has a timer that runs out
  in time. -/
  followUps : ∀ key now outcome delay, key ∈ c.started →
    (outcome = .done (.requeue delay) ∨ (outcome = .failed true ∨ outcome = .crashed) ∧
      delay = pacing.backoff (c.queue.failuresAfter key true)) →
    key ∉ (c.finish now key outcome).startedAlong after →
    ((c.finish now key outcome).run after).queue.pending.contains key = true ∨
      ∃ timer ∈ ((c.finish now key outcome).run after).timers,
        timer.key = key ∧ timer.due ≤ now + delay.nanos
  /-- A key that was enqueued during its pass is pending when that pass ends, however it ends. -/
  reruns : ∀ key m now outcome, key ∈ c.started → c.enqueued? m = some key →
    key ∉ (c.move m).startedAlong after → key ∈ ((c.move m).run after).started →
    (((c.move m).run after).finish now key outcome).queue.pending.contains key = true

/-- **No wake-up is lost**, whatever is enqueued, started, finished and fired, in whatever
order. -/
theorem wakeups_remembered (pacing : Pacing) (before after : List Move) :
    Remembers pacing ((Controller.fresh pacing).run before) after := by
  have h : Sound pacing (between ((Controller.fresh pacing).run before)) :=
    sound_run (.fresh pacing) before
  generalize (Controller.fresh pacing).run before = c at h
  constructor
  · intro key m enqueued unstarted
    exact Wanted.run ((move_reaches c m).sound h) (wanted_of_enqueued h enqueued) unstarted
  · intro key now outcome delay under asks unstarted
    have ended : Sound pacing (between (c.finish now key outcome)) :=
      (Activity.finish_reaches under now outcome).sound h
    have asked : outcome.delay? c.pacing
        (c.queue.failuresAfter key outcome.isFailure) = some delay := by
      rcases asks with rfl | ⟨rfl | rfl, rfl⟩
      · rfl
      · rw [← h.paced]
        rfl
      · rw [← h.paced]
        rfl
    exact ((due_finish h now asked).run ended unstarted).booked
  · intro key m now outcome _ enqueued unstarted under
    have moved := (move_reaches c m).sound h
    have wanted := Wanted.run moved (wanted_of_enqueued h enqueued) unstarted
    exact pending_finish_of_wanted (sound_run moved after) wanted under now outcome

namespace Sample

/-- The pass of one key is under way. -/
def underWay : Controller :=
  (Controller.fresh .standard).run [.enqueue "web", .receive, .start]

/-- Another key is enqueued and started. -/
def meanwhile : List Move := [.enqueue "api", .receive, .start]

/-- A pass that is triggered again crashes and leaves its key pending.  One that fails leaves
a timer of a second. -/
theorem crash_and_failure_remembered :
    ((underWay.move (.enqueue "web")).run meanwhile).started = ["web", "api"] ∧
      ((((underWay.move (.enqueue "web")).run meanwhile).finish 7 "web" .crashed).queue.pending
        ).contains "web" = true ∧
      ((underWay.finish 7 "web" (.failed true)).run meanwhile).queue.pending.contains "web" =
        false ∧
      ∃ timer ∈ ((underWay.finish 7 "web" (.failed true)).run meanwhile).timers,
        timer.key = "web" ∧ timer.due ≤ 7 + 1000000000 := by
  have remembers := wakeups_remembered .standard [.enqueue "web", .receive, .start] meanwhile
  have unpending :
      ((underWay.finish 7 "web" (.failed true)).run meanwhile).queue.pending.contains "web" =
        false := by decide
  have timed := remembers.followUps "web" 7 (.failed true) ⟨1000000000⟩ (by decide) (by decide)
    (by decide)
  refine ⟨by decide, ?_, unpending, timed.resolve_left fun pending => ?_⟩
  · exact remembers.reruns "web" (.enqueue "web") 7 .crashed (by decide) (by decide) (by decide)
      (by decide)
  · exact Bool.false_ne_true (unpending.symm.trans pending)

end Sample

end Control
end Cutover
