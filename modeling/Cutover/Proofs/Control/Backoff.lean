/-
# Cutover.Proofs.Control.Backoff -- the delay after a failure tells the key's history

A queue keeps a number by key that goes up with a failed pass and back to zero with any other end
of a pass.  Of a controller's whole life (`Activity.live`) the passes of one key are a list of
outcomes, and the number is the length of its trailing run of failures, as far as 32 bits can say
it (`failures_live`): what happens to other keys, and in between, leaves it alone.

The delay that a failed pass asks for is a function of that number, so it is one of the key's
outcomes alone.  A pass that is triggered while it runs asks for none, since its key is sent again
anyway.  Whether it was is a matter of history, too: a key that starts is not dirty, and nothing
but an enqueue of the key makes it so (`dirty_live`).

With 2^32 failures in a row the number is zero, and the delay is the first one again
(`Sample.first_delay_again`).
-/
import Cutover.Proofs.Control.Life
import Mathlib.Algebra.Group.Nat.Defs
import Mathlib.Data.List.DropRight

namespace Cutover

set_option autoImplicit false

namespace WorkQueue

variable {q : WorkQueue} {key other : String}

/-- The failed passes of a key since its last one that did not fail. -/
def failuresInARow (q : WorkQueue) (key : String) : Nat := (q.failures.get? key).getD 0

@[simp] theorem failures_send (q : WorkQueue) (key : String) :
    (q.send key).failures = q.failures := by
  rw [send]
  split <;> rfl

@[simp] theorem failures_enqueue (q : WorkQueue) (key : String) :
    (q.enqueue key).failures = q.failures := by
  rw [enqueue]
  split
  · rfl
  · exact failures_send q key

/-- The end of a pass counts for its own key only. -/
theorem failuresInARow_finish (q : WorkQueue) (key other : String) (failed : Bool) :
    (q.finish key failed).failuresInARow other =
      if other = key then q.failuresAfter key failed else q.failuresInARow other := by
  have kept : (q.finish key failed).failures = (q.retire key failed).failures := by
    rw [finish_eq]
    split
    · exact failures_send ..
    · rfl
  rw [failuresInARow, kept, retire]
  by_cases same : other = key
  · subst same
    cases failed <;> simp [failuresAfter]
  · cases failed
    · simp [failuresInARow, same, Dict.get?_erase_of_ne]
    · simp [failuresInARow, same, Dict.get?_insert_of_ne]

end WorkQueue

namespace Control

namespace Pacing

variable (s : Pacing)

/-- The delay doubles with every failure, twenty times at most, and has two bounds: the longest
duration there is and the one that is asked for. -/
theorem backoff_nanos (n : Nat) : (s.backoff n).nanos =
    min s.maxBackoff.nanos (min (s.initialBackoff.nanos * 2 ^ min (n - 1) 20)
      Duration.longest.nanos) := by
  simp only [backoff, Duration.least, Duration.times, Nat.one_shiftLeft]
  exact Nat.min_comm ..

theorem backoff_le_maxBackoff (n : Nat) : (s.backoff n).nanos ≤ s.maxBackoff.nanos :=
  Nat.min_le_right ..

theorem backoff_mono {n m : Nat} (le : n ≤ m) : (s.backoff n).nanos ≤ (s.backoff m).nanos := by
  have exponents : min (n - 1) 20 ≤ min (m - 1) 20 := by omega
  have powers : 2 ^ min (n - 1) 20 ≤ 2 ^ min (m - 1) 20 := Nat.pow_le_pow_right (by decide) exponents
  have multiples := Nat.mul_le_mul_left s.initialBackoff.nanos powers
  rw [backoff_nanos, backoff_nanos]
  omega

/-- The delay after that many failures in a row, which are counted in 32 bits. -/
def delayAfter (n : Nat) : Duration := s.backoff (n % Width.bits32)

theorem delayAfter_eq {n : Nat} (counted : n < Width.bits32) : s.delayAfter n = s.backoff n := by
  rw [delayAfter, Nat.mod_eq_of_lt counted]

end Pacing

/-! ## Failures in a row -/

/-- The number of failed passes at the end of a list of passes. -/
def streak (os : List Outcome) : Nat := (os.rtakeWhile Outcome.isFailure).length

theorem streak_concat (os : List Outcome) (o : Outcome) :
    streak (os ++ [o]) = if o.isFailure then streak os + 1 else 0 := by
  rw [streak, List.rtakeWhile_concat]
  split
  · exact List.length_append
  · rfl

theorem streak_append_of_failures (os : List Outcome) {more : List Outcome}
    (fail : ∀ o ∈ more, o.isFailure = true) : streak (os ++ more) = streak os + more.length := by
  induction more using List.reverseRecOn with
  | nil => simp
  | append_singleton more o ih =>
      obtain ⟨earlier, now⟩ := List.forall_mem_append.1 fail
      rw [← List.append_assoc, streak_concat, if_pos (now o (List.mem_singleton_self o)),
        ih earlier, List.length_append, List.length_singleton, Nat.add_assoc]

namespace Activity

variable {pacing : Pacing} {a : Activity} {key : String}

theorem outcomes_concat (key : String) (a : Activity) (life : List Turn) (t : Turn) :
    outcomes key a (life ++ [t]) =
      outcomes key a life ++ (t.event?.bind (ended? key (a.live life))).toList :=
  recorded_concat ..

/-! ## The count -/

/-- An event counts for the key if it ends a pass of it, and by how that pass ends. -/
theorem failures_step (a : Activity) (e : Event) (key : String) :
    (a.step e).queue.failuresInARow key =
      match ended? key a e with
      | some o => a.queue.failuresAfter key o.isFailure
      | none => a.queue.failuresInARow key := by
  have handled := step_handled a e
  generalize (a.step e).queue = q at handled ⊢
  cases handled with
  | untouched _ aside => rw [aside.unended]
  | enqueued _ aside =>
      rw [aside.unended, WorkQueue.failuresInARow, WorkQueue.failures_enqueue]
      rfl
  | received found =>
      rw [WorkQueue.eq_of_receive? found]
      rfl
  | started => rfl
  | @ended other outcome under =>
      rw [WorkQueue.failuresInARow_finish]
      by_cases same : key = other
      · subst same
        simp [ended?, under]
      · simp [ended?, same, Ne.symm same]

theorem failures_turn (a : Activity) (t : Turn) (key : String) :
    (a.turn t).queue.failuresInARow key =
      match t.event?.bind (ended? key a) with
      | some o => a.queue.failuresAfter key o.isFailure
      | none => a.queue.failuresInARow key := by
  cases event : t.event? with
  | some e =>
      obtain rfl := Turn.eq_of_event? event
      exact failures_step a e key
  | none => rcases queue_turn event with same | same <;> rw [same] <;> rfl

/-- What is counted of a key is the run of failures at the end of its passes, in 32 bits. -/
theorem failures_live (pacing : Pacing) (key : String) (life : List Turn) :
    ((fresh pacing).live life).queue.failuresInARow key =
      streak (outcomes key (fresh pacing) life) % Width.bits32 := by
  induction life using List.reverseRecOn with
  | nil => rfl
  | append_singleton life t ih =>
      rw [live_append, outcomes_concat]
      show (((fresh pacing).live life).turn t).queue.failuresInARow key = _
      rw [failures_turn]
      cases t.event?.bind (ended? key ((fresh pacing).live life)) with
      | none =>
          rw [Option.toList_none, List.append_nil]
          exact ih
      | some o =>
          rw [Option.toList_some, streak_concat]
          show (if o.isFailure then (WorkQueue.failuresInARow _ key + 1) % _ else 0) = _
          rw [ih]
          split
          · exact Nat.mod_add_mod ..
          · rfl

/-! ## Triggers during a pass -/

/-- A key gets dirty by nothing but its own enqueue. -/
theorem dirty_step {e : Event} (dirty : (a.step e).queue.dirty.contains key = true) :
    a.queue.dirty.contains key = true ∨ enqueued? a e = some key := by
  have handled := step_handled a e
  generalize (a.step e).queue = q at handled dirty
  cases handled with
  | untouched => exact .inl dirty
  | @enqueued _ named names _ =>
      rw [WorkQueue.enqueue] at dirty
      split at dirty
      · rcases (Dict.contains_insert ..).1 dirty with rfl | dirty
        · exact .inr names
        · exact .inl dirty
      · rw [WorkQueue.dirty_send] at dirty
        exact .inl dirty
  | received found =>
      rw [WorkQueue.eq_of_receive? found]
      exact .inl dirty
  | started => exact .inl dirty
  | ended =>
      rw [WorkQueue.finish_eq] at dirty
      split at dirty
      · rw [WorkQueue.dirty_send] at dirty
        exact .inl ((Dict.contains_erase ..).1 dirty).2
      · exact .inl ((Dict.contains_erase ..).1 dirty).2

theorem dirty_turn {t : Turn} (dirty : (a.turn t).queue.dirty.contains key = true) :
    a.queue.dirty.contains key = true ∨ t.event?.bind (enqueued? a) = some key := by
  cases event : t.event? with
  | some e =>
      obtain rfl := Turn.eq_of_event? event
      exact dirty_step dirty
  | none =>
      rcases queue_turn event with same | same <;> rw [same] at dirty <;> exact .inl dirty

theorem dirty_live {life : List Turn} (dirty : (a.live life).queue.dirty.contains key = true) :
    a.queue.dirty.contains key = true ∨ key ∈ triggers a life := by
  induction life generalizing a with
  | nil => exact .inl dirty
  | cons t rest ih =>
      rw [triggers, recorded, List.mem_append, Option.mem_toList, ← or_assoc]
      exact (ih dirty).imp_left dirty_turn

/-! ## The start of a pass -/

/-- A key that starts is not dirty. -/
theorem Stage.clean_start (stage : Stage pacing a) (begins : started? a .start = some key) :
    ¬ (a.step .start).queue.dirty.contains key = true := by
  cases starts : a.controller.start? with
  | none => simp [started?, starts] at begins
  | some next =>
      obtain ⟨other, c⟩ := next
      obtain rfl : other = key := by simpa [started?, starts] using begins
      obtain ⟨held, -, rfl⟩ := Controller.start?_eq_some starts
      simp only [Activity.step, starts]
      exact stage.clean_of_held held

/-! ## The delay -/

/-- What a controller of some pacing does about the failures of a key, in the whole course of its
life. -/
structure BacksOff (pacing : Pacing) (key : String) : Prop where
  /-- A pass that fails and was not triggered meanwhile asks for a delay that goes by the number of
  passes of its key, up to itself, that have failed in a row. -/
  asked : ∀ before during outcome, started? ((fresh pacing).live before) .start = some key →
    key ∉ triggers ((fresh pacing).live (before ++ [.event .start])) during →
    let life := before ++ [.event .start] ++ during
    key ∈ ((fresh pacing).live life).busy → outcome = .failed true ∨ outcome = .crashed →
    let ended := life ++ [.event (.finish key outcome)]
    ((fresh pacing).live ended).endings = ((fresh pacing).live life).endings ++
      [⟨key, some (pacing.delayAfter (streak (outcomes key (fresh pacing) ended)))⟩]
  /-- The delay doubles with each of them, twenty times at most and within its bounds, -/
  doubles : ∀ n < Width.bits32, (pacing.delayAfter n).nanos = min pacing.maxBackoff.nanos
    (min (pacing.initialBackoff.nanos * 2 ^ min (n - 1) 20) Duration.longest.nanos)
  /-- and starts anew with the count. -/
  wraps : ∀ n, pacing.delayAfter (n + Width.bits32) = pacing.delayAfter n
  /-- Once the pass leaves, the key has a timer that runs out after just the delay it asked for; if
  that is none the key is enqueued. -/
  scheduled : ∀ life now delay, ⟨key, some delay⟩ ∈ ((fresh pacing).live life).endings →
    let a := (fresh pacing).live life
    let left := a.turn (.event (.leave now ⟨key, some delay⟩))
    (delay.nanos ≠ 0 →
      left.controller.timers = a.controller.timers ++ [⟨now + delay.nanos, key⟩]) ∧
    (delay.nanos = 0 → left.queue = a.queue.enqueue key)
  /-- A pass that succeeds, or that fails for good, starts the count anew. -/
  restarts : ∀ life outcome, key ∈ ((fresh pacing).live life).busy →
    (∃ action, outcome = .done action) ∨ outcome = .failed false →
    streak (outcomes key (fresh pacing) (life ++ [.event (.finish key outcome)])) = 0
  /-- What the queue counts of the key is that number, in 32 bits, -/
  counted : ∀ life, ((fresh pacing).live life).queue.failuresInARow key =
    streak (outcomes key (fresh pacing) life) % Width.bits32
  /-- and nothing but the end of a pass of the key changes it. -/
  apart : ∀ life t, (∀ outcome, t ≠ .event (.finish key outcome)) →
    ((fresh pacing).live (life ++ [t])).queue.failuresInARow key =
      ((fresh pacing).live life).queue.failuresInARow key
  /-- While passes of the key do nothing but fail, and can be counted, the delay does not fall. -/
  grows : ∀ life more, (∀ o ∈ outcomes key ((fresh pacing).live life) more, o.isFailure = true) →
    streak (outcomes key (fresh pacing) (life ++ more)) < Width.bits32 →
    (pacing.delayAfter (streak (outcomes key (fresh pacing) life))).nanos ≤
      (pacing.delayAfter (streak (outcomes key (fresh pacing) (life ++ more)))).nanos
  bounded : ∀ n, (pacing.delayAfter n).nanos ≤ pacing.maxBackoff.nanos

theorem ended?_finish {outcome : Outcome} (under : key ∈ a.busy) :
    ended? key a (.finish key outcome) = some outcome := if_pos ⟨rfl, under⟩

/-- The outcomes of a key whose pass ends. -/
theorem outcomes_finish {b : Activity} {life : List Turn} (under : key ∈ (b.live life).busy)
    (outcome : Outcome) : outcomes key b (life ++ [.event (.finish key outcome)]) =
      outcomes key b life ++ [outcome] := by
  rw [outcomes_concat]
  exact congrArg (_ ++ Option.toList ·) (ended?_finish under)

/-- A pass that was not triggered since its start is not to be made again at once. -/
theorem not_isDirty_of_untriggered {before during : List Turn}
    (begins : started? ((fresh pacing).live before) .start = some key)
    (untriggered : key ∉ triggers ((fresh pacing).live (before ++ [.event .start])) during) :
    ((fresh pacing).live (before ++ [.event .start] ++ during)).queue.isDirty key = false := by
  refine Bool.eq_false_iff.2 fun dirty => ?_
  rw [live_append] at dirty
  rcases dirty_live dirty with dirty | triggered
  · rw [live_append] at dirty
    exact (stage_live pacing before).clean_start begins dirty
  · exact untriggered triggered

/-- What a pass asks for that fails and is not to be made again at once. -/
theorem endings_of_failure {life : List Turn} {outcome : Outcome}
    (under : key ∈ ((fresh pacing).live life).busy)
    (clean : ((fresh pacing).live life).queue.isDirty key = false)
    (fails : outcome = .failed true ∨ outcome = .crashed) :
    let ended := life ++ [.event (.finish key outcome)]
    ((fresh pacing).live ended).endings = ((fresh pacing).live life).endings ++
      [⟨key, some (pacing.delayAfter (streak (outcomes key (fresh pacing) ended)))⟩] := by
  intro ended
  have clean' : ((fresh pacing).live life).controller.queue.isDirty key = false := clean
  have counted : (((fresh pacing).live life).queue.failuresInARow key + 1) % Width.bits32 =
      (streak (outcomes key (fresh pacing) life) + 1) % Width.bits32 := by
    rw [failures_live, Nat.mod_add_mod]
  have asks : ((fresh pacing).live life).controller.followUp key outcome =
      ⟨key, some (pacing.delayAfter (streak (outcomes key (fresh pacing) ended)))⟩ := by
    rw [outcomes_finish under, streak_concat, Controller.followUp, clean',
      (stage_live pacing life).paced]
    have same := congrArg (fun n => (⟨key, some (pacing.backoff n)⟩ : Ending)) counted
    rcases fails with rfl | rfl <;> exact same
  rw [live_append]
  show (((fresh pacing).live life).step (.finish key outcome)).endings = _
  rw [step, if_pos under, asks]

/-- A pass that leaves sets the timer it asked for, or enqueues its key if it asked for no delay. -/
theorem leave_schedules {now : Nat} {delay : Duration} (leaving : ⟨key, some delay⟩ ∈ a.endings) :
    let left := a.turn (.event (.leave now ⟨key, some delay⟩))
    (delay.nanos ≠ 0 →
      left.controller.timers = a.controller.timers ++ [⟨now + delay.nanos, key⟩]) ∧
    (delay.nanos = 0 → left.queue = a.queue.enqueue key) := by
  intro left
  have dismissed : left.controller = a.controller.dismiss now ⟨key, some delay⟩ := by
    show (a.step _).controller = _
    rw [step, if_pos leaving]
  constructor
  · intro later
    rw [dismissed]
    simp [Controller.dismiss, Controller.enqueueAfter, later]
  · intro atOnce
    rw [queue, dismissed, Controller.dismiss]
    exact (queue_enqueueAfter ..).trans (if_pos atOnce)

/-- A turn that ends no pass of the key leaves its count as it was. -/
theorem failures_turn_of_other {t : Turn} (other : ∀ outcome, t ≠ .event (.finish key outcome)) :
    (a.turn t).queue.failuresInARow key = a.queue.failuresInARow key := by
  have unended : t.event?.bind (ended? key a) = none := by
    cases t with
    | shutdown => rfl
    | halt => rfl
    | stop => rfl
    | event e =>
        cases e with
        | finish key' outcome =>
            refine if_neg ?_
            rintro ⟨rfl, -⟩
            exact other outcome rfl
        | _ => rfl
  rw [failures_turn, unended]

/-- **The delay after a failure counts the failures of its key in a row**, whatever happens to
other keys, to timers, to the dispatcher and to the controller. -/
theorem delay_by_failures_in_a_row (pacing : Pacing) (key : String) : BacksOff pacing key where
  asked _ _ _ begins untriggered := by
    intro life under fails
    exact endings_of_failure under (not_isDirty_of_untriggered begins untriggered) fails
  doubles n counted := by
    rw [pacing.delayAfter_eq counted, pacing.backoff_nanos]
  wraps n := by
    rw [Pacing.delayAfter, Nat.add_mod_right]
    rfl
  scheduled _ _ _ leaving := leave_schedules leaving
  restarts life outcome under succeeds := by
    rw [outcomes_finish under, streak_concat]
    rcases succeeds with ⟨action, rfl⟩ | rfl <;> rfl
  counted := failures_live pacing key
  apart life t other := by
    rw [live_append]
    exact failures_turn_of_other other
  grows life more fail counted := by
    have longer : streak (outcomes key (fresh pacing) life) ≤
        streak (outcomes key (fresh pacing) (life ++ more)) := by
      rw [outcomes, outcomes, recorded_append]
      show streak _ ≤ streak (_ ++ outcomes key _ more)
      rw [streak_append_of_failures _ fail]
      exact Nat.le_add_right ..
    rw [pacing.delayAfter_eq counted, pacing.delayAfter_eq (Nat.lt_of_le_of_lt longer counted)]
    exact pacing.backoff_mono longer
  bounded _ := pacing.backoff_le_maxBackoff _

namespace Sample

/-- A pass crashes, is repeated after a second, and is about to start. -/
def crashedOnce : List Turn :=
  [.event (.enqueue "web"), .event .receive, .event .start, .event (.finish "web" .crashed),
    .event (.leave 0 ⟨"web", some ⟨1000000000⟩⟩), .event (.fire ⟨1000000000, "web"⟩),
    .event .receive]

/-- Meanwhile another key starts and fails, and the controller is shut down. -/
def aside : List Turn :=
  [.event (.enqueue "api"), .event .receive, .event .start, .event (.finish "api" (.failed true)),
    .shutdown, .halt]

/-- A key that fails for the second time waits two seconds, whatever the other key did, and has a
timer for it once its pass has left. -/
theorem second_failure_waits_two_seconds :
    let life := crashedOnce ++ [.event .start] ++ aside ++ [.event (.finish "web" (.failed true))]
    let a := (fresh .standard).live life
    a.endings = [⟨"api", some ⟨1000000000⟩⟩, ⟨"web", some ⟨2000000000⟩⟩] ∧
      (a.turn (.event (.leave 7 ⟨"web", some ⟨2000000000⟩⟩))).controller.timers =
        [⟨2000000007, "web"⟩] ∧
      a.queue.failuresInARow "web" = 2 := by
  intro life a
  have backsOff := delay_by_failures_in_a_row .standard "web"
  have asked : a.endings = [⟨"api", some ⟨1000000000⟩⟩, ⟨"web", some ⟨2000000000⟩⟩] :=
    backsOff.asked crashedOnce aside (.failed true) (by decide) (by decide) (by decide) (.inl rfl)
  have member : ⟨"web", some ⟨2000000000⟩⟩ ∈ a.endings := by simp [asked]
  exact ⟨asked, (backsOff.scheduled life 7 _ member).1 (by decide), backsOff.counted life⟩

/-- A key that is pending, and has failed before in one way or another. -/
def pendingOnce (failures : Dict Nat) : Activity where
  controller := { Controller.fresh .standard with
    queue := { WorkQueue.empty with
      channel := ["web"], pending := Dict.empty.insert "web" (), failures } }
  busy := []
  endings := []

/-- A pass of the key is triggered again while it runs, and fails. -/
def again : List Turn :=
  [.event .receive, .event .start, .event (.enqueue "web"),
    .event (.finish "web" (.failed true)), .event (.leave 0 ⟨"web", none⟩)]

/-- A pass of the key is not triggered again, and fails. -/
def atLast : List Turn :=
  [.event .receive, .event .start, .event (.finish "web" (.failed true))]

/-- The key is enqueued, fails so many times and is triggered again, and fails once more. -/
def failing (n : Nat) : List Turn :=
  .event (.enqueue "web") :: ((List.replicate n again).flatten ++ atLast)

theorem again_repeated (n : Nat) (failures : Dict Nat) : ∃ failures',
    (pendingOnce failures).live (List.replicate n again).flatten = pendingOnce failures' ∧
      outcomes "web" (pendingOnce failures) (List.replicate n again).flatten =
        List.replicate n (.failed true) := by
  induction n generalizing failures with
  | zero => exact ⟨failures, rfl, rfl⟩
  | succ n ih =>
      have once : (pendingOnce failures).live again = pendingOnce (failures.insert "web"
          (((failures.get? "web").getD 0 + 1) % Width.bits32)) := rfl
      obtain ⟨failures', last, ended⟩ := ih (failures.insert "web"
        (((failures.get? "web").getD 0 + 1) % Width.bits32))
      refine ⟨failures', ?_, ?_⟩
      · rw [List.replicate_succ, List.flatten_cons, live_append, once, last]
      · rw [List.replicate_succ, List.flatten_cons, outcomes, recorded_append, once]
        exact congrArg (Outcome.failed true :: ·) ended

theorem outcomes_failing (n : Nat) :
    outcomes "web" (fresh .standard) (failing n) = List.replicate (n + 1) (.failed true) := by
  obtain ⟨failures, last, ended⟩ := again_repeated n Dict.empty
  show outcomes "web" (pendingOnce Dict.empty) ((List.replicate n again).flatten ++ atLast) = _
  rw [outcomes, recorded_append, last, List.replicate_succ']
  exact congrArg (· ++ [Outcome.failed true]) ended

theorem streak_failing (n : Nat) : streak (outcomes "web" (fresh .standard) (failing n)) = n + 1 := by
  rw [outcomes_failing, ← List.nil_append (List.replicate _ _), streak_append_of_failures]
  · simp [streak]
  · intro o member
    rw [List.eq_of_mem_replicate member]
    rfl

theorem endings_failing (n : Nat) : ((fresh .standard).live (failing n)).endings =
    [⟨"web", some (Pacing.standard.delayAfter (n + 1))⟩] := by
  have counted := failures_live .standard "web" (failing n)
  obtain ⟨failures, last, -⟩ := again_repeated n Dict.empty
  have ended : (fresh .standard).live (failing n) = (pendingOnce failures).live atLast := by
    show (pendingOnce Dict.empty).live ((List.replicate n again).flatten ++ atLast) = _
    rw [live_append, last]
  have asks : ((pendingOnce failures).live atLast).endings = [⟨"web", some (Pacing.standard.backoff
      (((failures.get? "web").getD 0 + 1) % Width.bits32))⟩] := rfl
  have count : ((pendingOnce failures).live atLast).queue.failuresInARow "web" =
      ((failures.get? "web").getD 0 + 1) % Width.bits32 := by
    show ((failures.insert "web" _).get? "web").getD 0 = _
    rw [Dict.get?_insert_self]
    rfl
  rw [ended, count, streak_failing] at counted
  rw [ended, asks, counted]
  rfl

/-- With 2^32 failures in a row the delay is a second again.  It would be a minute, by their
number. -/
theorem first_delay_again :
    streak (outcomes "web" (fresh .standard) (failing 4294967295)) = 2 ^ 32 ∧
      ((fresh .standard).live (failing 4294967295)).endings = [⟨"web", some (.ofSeconds 1)⟩] ∧
      min Pacing.standard.maxBackoff.nanos (min (Pacing.standard.initialBackoff.nanos *
        2 ^ min (2 ^ 32 - 1) 20) Duration.longest.nanos) = (Duration.ofSeconds 60).nanos := by
  refine ⟨streak_failing 4294967295, ?_, by decide⟩
  rw [endings_failing 4294967295]
  rfl

end Sample

end Activity
end Control
end Cutover
