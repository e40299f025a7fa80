/-
# Cutover.Proofs.Control.Life -- a controller from its start to its end

A controller's life goes on after it is told to shut down (`Turn`).  The dispatcher may receive and
start keys until it looks at the signal; then it halts, and passes under way end and may be sent
again, clients and timers enqueue keys, and the channel takes them all, until the workers are free
and the channel goes.  Passes that are left then end, too.

So a life has three stages (`Stage`).  While the dispatcher is at work all is as in an activity that
serves.  One that has halted goes through the events as one whose dispatcher does nothing
(`halted_step`).  Once the channel is gone the pending keys stay what they are (`Frozen.step`).

What happens to a key in the course of a life is recorded event by event (`recorded`).
-/
import Cutover.Proofs.Control.Wakeup

namespace Cutover

set_option autoImplicit false

namespace WorkQueue

variable {q : WorkQueue}

/-- A closed queue takes no key, but marks those that run. -/
theorem enqueue_of_closed (closed : q.closed = true) (key : String) :
    ∃ dirty, q.enqueue key = { q with dirty } := by
  rw [enqueue]
  split
  · exact ⟨_, rfl⟩
  · exact ⟨q.dirty, if_pos (by simp [closed])⟩

/-- When the channel is gone the end of a pass sends no key again. -/
theorem finish_of_closed (closed : q.closed = true) (key : String) (failed : Bool) :
    ∃ dirty failures,
      q.finish key failed = { q with running := q.running.erase key, dirty, failures } := by
  have closed' : (q.retire key failed).closed = true := closed
  have unsent : (q.retire key failed).send key = q.retire key failed :=
    if_pos (by simp [closed'])
  rw [finish_eq, unsent, ite_self]
  exact ⟨_, _, rfl⟩

end WorkQueue

namespace Control

namespace Activity

/-- The dispatcher has stopped. -/
def halted (a : Activity) : Activity := { a with controller := a.controller.halted }

/-- What happens in a controller's life: events, and the steps of its shutdown. -/
inductive Turn where
  | event (e : Event)
  /-- The signal is given. -/
  | shutdown
  /-- The dispatcher looks at the signal. -/
  | halt
  /-- The workers are free, and the channel goes. -/
  | stop

/-- A turn that cannot come changes nothing. -/
def turn (a : Activity) : Turn → Activity
  | .event e => a.step e
  | .shutdown => { a with controller := a.controller.shutdown }
  | .halt => { a with controller := a.controller.halt?.getD a.controller }
  | .stop => { a with controller := a.controller.stop?.getD a.controller }

def live (a : Activity) (ts : List Turn) : Activity := ts.foldl turn a

theorem live_append (a : Activity) (ts later : List Turn) :
    a.live (ts ++ later) = (a.live ts).live later := List.foldl_append

variable {pacing : Pacing} {a : Activity} {key : String}

/-! ## What the steps of a shutdown do, and when -/

theorem halt?_eq_some {c c' : Controller} (halts : c.halt? = some c') :
    c.phase = .signalled ∧ c' = c.halted := by
  simp only [Controller.halt?, Option.ite_none_right_eq_some, Option.some.injEq] at halts
  exact ⟨halts.1, halts.2.symm⟩

theorem stop?_eq_some {c c' : Controller} (stops : c.stop? = some c') :
    c.phase = .stopping ∧ c.pacing.awaited + c.started.length ≤ c.pacing.capacity ∧
      c' = { c with queue := c.queue.close, phase := .stopped } := by
  simp only [Controller.stop?, Option.ite_none_right_eq_some, Option.some.injEq] at stops
  exact ⟨stops.1.1, stops.1.2, stops.2.symm⟩

theorem turn_halt (signalled : a.controller.phase = .signalled) : a.turn .halt = a.halted := by
  have halts : a.controller.halt? = some a.controller.halted := if_pos signalled
  rw [turn, halts]
  rfl

/-! ## The dispatcher at rest -/

/-- Whether an event is one of the dispatcher. -/
def Event.isDispatch : Event → Bool
  | .receive | .start => true
  | _ => false

theorem enqueueAfter_halted (c : Controller) (now : Nat) (key : String) (delay : Duration) :
    c.halted.enqueueAfter now key delay = (c.enqueueAfter now key delay).halted := by
  unfold Controller.enqueueAfter
  split <;> rfl

theorem dismiss_halted (c : Controller) (now : Nat) (e : Ending) :
    c.halted.dismiss now e = (c.dismiss now e).halted := by
  unfold Controller.dismiss
  cases e.delay? with
  | none => rfl
  | some delay =>
      simp only [enqueueAfter_halted]
      rfl

/-- A halted controller does what it did before, but its dispatcher does nothing. -/
theorem halted_step (a : Activity) (e : Event) :
    a.halted.step e = if e.isDispatch then a.halted else (a.step e).halted := by
  cases e with
  | enqueue key => rfl
  | enqueueAfter now key delay =>
      show { a with controller := a.controller.halted.enqueueAfter now key delay } = _
      rw [enqueueAfter_halted]
      rfl
  | fire timer =>
      show (if timer ∈ a.controller.timers then (_ : Activity) else a.halted) =
        (if timer ∈ a.controller.timers then _ else a).halted
      split <;> rfl
  | receive => rfl
  | start => rfl
  | finish key outcome =>
      show (if key ∈ a.busy then (_ : Activity) else a.halted) =
        (if key ∈ a.busy then _ else a).halted
      split <;> rfl
  | leave now e =>
      show (if e ∈ a.endings then (⟨a.controller.halted.dismiss now e, a.busy, a.endings.erase e⟩ :
        Activity) else a.halted) = (if e ∈ a.endings then _ else a).halted
      rw [dismiss_halted]
      split <;> rfl

/-! ## Without a channel -/

/-- The controller has stopped: its dispatcher and its channel are gone.  Passes may be under way,
each with its running key. -/
structure Frozen (pacing : Pacing) (a : Activity) : Prop where
  paced : a.controller.pacing = pacing
  stopped : a.controller.phase = .stopped
  free : a.controller.inHand = none
  closed : a.queue.closed = true
  single : a.busy.Nodup
  running : ∀ key, key ∈ a.busy ↔ a.queue.running.contains key = true

/-- An activity has stopped that has the pending keys of another, and no pass that was not under way
there. -/
structure Lingers (pacing : Pacing) (a b : Activity) : Prop where
  frozen : Frozen pacing b
  pending : b.queue.pending = a.queue.pending
  busy : b.busy ⊆ a.busy

theorem Lingers.trans {b c : Activity} (first : Lingers pacing a b) (second : Lingers pacing b c) :
    Lingers pacing a c :=
  ⟨second.frozen, second.pending.trans first.pending, List.Subset.trans second.busy first.busy⟩

namespace Frozen

theorem lingers (h : Frozen pacing a) : Lingers pacing a a := ⟨h, rfl, List.Subset.refl _⟩

/-- Dirty keys, timers and workers make no difference. -/
theorem mark (h : Frozen pacing a) (dirty : KeySet) (started : List String) (timers : List Timer)
    (endings : List Ending) : Lingers pacing a ⟨{ a.controller with
      queue := { a.queue with dirty }, started, timers }, a.busy, endings⟩ :=
  ⟨⟨h.paced, h.stopped, h.free, h.closed, h.single, h.running⟩, rfl, List.Subset.refl _⟩

/-- Nothing is enqueued any more, now or later. -/
theorem enqueueAfter_eq (h : Frozen pacing a) (now : Nat) (key : String) (delay : Duration) :
    ∃ dirty timers, a.controller.enqueueAfter now key delay =
      { a.controller with queue := { a.queue with dirty }, timers } := by
  obtain ⟨dirty, same⟩ := WorkQueue.enqueue_of_closed h.closed key
  rw [Controller.enqueueAfter]
  split
  · exact ⟨dirty, a.controller.timers, by rw [Controller.enqueue, ← same]; rfl⟩
  · exact ⟨a.queue.dirty, _, rfl⟩

/-- Whatever happens the pending keys are the same, and no key runs that did not. -/
theorem step (h : Frozen pacing a) (e : Event) : Lingers pacing a (a.step e) := by
  cases e with
  | enqueue key =>
      obtain ⟨dirty, same⟩ := WorkQueue.enqueue_of_closed h.closed key
      have next : a.step (.enqueue key) = { a with controller := { a.controller with
          queue := { a.queue with dirty } } } := by
        rw [Activity.step, Controller.enqueue, ← same]
        rfl
      rw [next]
      exact h.mark dirty _ _ _
  | enqueueAfter now key delay =>
      obtain ⟨dirty, timers, same⟩ := h.enqueueAfter_eq now key delay
      rw [Activity.step, same]
      exact h.mark dirty _ timers _
  | fire timer =>
      rw [Activity.step]
      split
      · obtain ⟨dirty, same⟩ := WorkQueue.enqueue_of_closed h.closed timer.key
        have same : a.controller.queue.enqueue timer.key = { a.queue with dirty } := same
        simp only [Controller.enqueue, same]
        exact h.mark dirty _ _ _
      · exact h.lingers
  | receive =>
      have none_ : a.controller.receive? = none := by
        simp [Controller.receive?, h.stopped, Phase.dispatches]
      rw [Activity.step, none_]
      exact h.lingers
  | start =>
      have none_ : a.controller.start? = none := by simp [Controller.start?, h.free]
      rw [Activity.step, none_]
      exact h.lingers
  | finish key outcome =>
      rw [Activity.step]
      split
      · obtain ⟨dirty, failures, same⟩ :=
          WorkQueue.finish_of_closed h.closed key outcome.isFailure
        have same : a.controller.queue.finish key outcome.isFailure =
            { a.queue with running := a.queue.running.erase key, dirty, failures } := same
        simp only [Controller.settle, same]
        refine ⟨⟨h.paced, h.stopped, h.free, h.closed, h.single.erase key, fun other => ?_⟩, rfl,
          List.erase_subset⟩
        show other ∈ a.busy.erase key ↔ (a.queue.running.erase key).contains other = true
        rw [Dict.contains_erase, h.single.mem_erase_iff, h.running other]
      · exact h.lingers
  | leave now e =>
      rw [Activity.step]
      split
      · rcases e with ⟨key, _ | delay⟩
        · exact h.mark a.queue.dirty _ _ _
        · obtain ⟨dirty, timers, same⟩ := h.enqueueAfter_eq now key delay
          simp only [Controller.dismiss, same]
          exact h.mark dirty _ timers _
      · exact h.lingers

theorem turn (h : Frozen pacing a) (t : Turn) : Lingers pacing a (a.turn t) := by
  cases t with
  | event e => exact h.step e
  | shutdown =>
      have same : a.controller.shutdown = a.controller := if_neg (by simp [h.stopped])
      rw [Activity.turn, same]
      exact h.lingers
  | halt =>
      have none_ : a.controller.halt? = none := if_neg (by simp [h.stopped])
      rw [Activity.turn, none_]
      exact h.lingers
  | stop =>
      have none_ : a.controller.stop? = none := if_neg (by simp [h.stopped])
      rw [Activity.turn, none_]
      exact h.lingers

theorem live (h : Frozen pacing a) (ts : List Turn) : Lingers pacing a (a.live ts) := by
  induction ts generalizing a with
  | nil => exact h.lingers
  | cons t rest ih => exact (h.turn t).trans (ih (h.turn t).frozen)

end Frozen

/-! ## The stages of a life -/

/-- The dispatcher is at work, it has halted, or the channel is gone. -/
inductive Stage (pacing : Pacing) : Activity → Prop
  | dispatching {a : Activity} (atWork : a.controller.phase.dispatches = true)
      (sound : Sound pacing a) : Stage pacing a
  | stopping {a : Activity} (sound : Sound pacing a) : Stage pacing a.halted
  | stopped {a : Activity} (frozen : Frozen pacing a) : Stage pacing a

/-- The phase plays no part in what an activity keeps. -/
theorem Sound.rephase (h : Sound pacing a) (phase : Phase) :
    Sound pacing { a with controller := { a.controller with phase } } :=
  ⟨h.paced, h.orderly, h.single, h.running, h.workers, h.bounded⟩

theorem phase_enqueueAfter (c : Controller) (now : Nat) (key : String) (delay : Duration) :
    (c.enqueueAfter now key delay).phase = c.phase := by
  rw [Controller.enqueueAfter]
  split <;> rfl

/-- No event has to do with the shutdown. -/
theorem phase_step (a : Activity) (e : Event) :
    (a.step e).controller.phase = a.controller.phase := by
  cases e with
  | enqueue key => rfl
  | enqueueAfter now key delay => exact phase_enqueueAfter ..
  | fire timer =>
      rw [step]
      split <;> rfl
  | receive =>
      rw [step]
      split
      · rename_i received
        obtain ⟨key, queue, -, -, rfl⟩ := Controller.receive?_eq_some received
        rfl
      · rfl
  | start =>
      rw [step]
      split
      · rename_i started
        obtain ⟨-, -, rfl⟩ := Controller.start?_eq_some started
        rfl
      · rfl
  | finish key outcome =>
      rw [step]
      split <;> rfl
  | leave now e =>
      rw [step]
      split
      · rcases e with ⟨key, _ | delay⟩
        · rfl
        · exact phase_enqueueAfter ..
      · rfl

namespace Stage

theorem fresh (pacing : Pacing) : Stage pacing (fresh pacing) := .dispatching rfl (.fresh pacing)

theorem turn (stage : Stage pacing a) (t : Turn) : Stage pacing (a.turn t) := by
  cases stage with
  | dispatching atWork sound =>
      cases t with
      | event e =>
          refine .dispatching ?_ (sound.step e)
          rw [Activity.turn, phase_step]
          exact atWork
      | shutdown =>
          rw [Activity.turn, Controller.shutdown]
          split
          · exact .dispatching rfl (sound.rephase _)
          · exact .dispatching atWork sound
      | halt =>
          rw [Activity.turn]
          cases halts : a.controller.halt? with
          | none => exact .dispatching atWork sound
          | some c =>
              obtain ⟨-, rfl⟩ := halt?_eq_some halts
              exact .stopping sound
      | stop =>
          have none_ : a.controller.stop? = none := by
            refine if_neg fun ⟨halted, _⟩ => ?_
            rw [halted] at atWork
            cases atWork
          rw [Activity.turn, none_]
          exact .dispatching atWork sound
  | @stopping b sound =>
      cases t with
      | event e =>
          rw [Activity.turn, halted_step]
          split
          · exact .stopping sound
          · exact .stopping (sound.step e)
      | shutdown => exact .stopping sound
      | halt => exact .stopping sound
      | stop =>
          rw [Activity.turn]
          cases stops : b.halted.controller.stop? with
          | none => exact .stopping sound
          | some c =>
              obtain ⟨-, -, rfl⟩ := stop?_eq_some stops
              exact .stopped ⟨sound.paced, rfl, rfl, rfl, sound.single, sound.running⟩
  | stopped frozen => exact .stopped (frozen.turn t).frozen

theorem live (stage : Stage pacing a) (ts : List Turn) : Stage pacing (a.live ts) := by
  induction ts generalizing a with
  | nil => exact stage
  | cons t rest ih => exact ih (stage.turn t)

theorem paced (stage : Stage pacing a) : a.controller.pacing = pacing := by
  cases stage with
  | dispatching _ sound => exact sound.paced
  | stopping sound => exact sound.paced
  | stopped frozen => exact frozen.paced

/-- A dispatcher that holds a key is at work. -/
theorem sound_of_held (stage : Stage pacing a) (held : a.controller.inHand = some key) :
    Sound pacing a := by
  cases stage with
  | dispatching _ sound => exact sound
  | stopping _ => cases held
  | stopped frozen => cases frozen.free.symm.trans held

/-- A key that is about to start is not dirty: only running keys are, and it is none. -/
theorem clean_of_held (stage : Stage pacing a) (held : a.controller.inHand = some key) :
    ¬ a.queue.dirty.contains key = true := by
  have orderly : a.queue.Orderly (some key) := held ▸ (stage.sound_of_held held).orderly
  exact fun dirty => orderly.idle (orderly.dirty key dirty)

end Stage

theorem stage_live (pacing : Pacing) (life : List Turn) :
    Stage pacing ((Activity.fresh pacing).live life) := (Stage.fresh pacing).live life

/-! ## What is recorded of a life -/

def Turn.event? : Turn → Option Event
  | .event e => some e
  | _ => none

theorem Turn.eq_of_event? {t : Turn} {e : Event} (event : t.event? = some e) : t = .event e := by
  cases t with
  | event e' => exact congrArg Turn.event (Option.some.inj event)
  | _ => cases event

/-- A shutdown leaves the queue as it is until its end, which closes it. -/
theorem queue_turn {t : Turn} (silent : t.event? = none) :
    (a.turn t).queue = a.queue ∨ (a.turn t).queue = a.queue.close := by
  cases t with
  | event e => cases silent
  | shutdown =>
      rw [turn, Controller.shutdown]
      split <;> exact .inl rfl
  | halt =>
      rw [turn, Controller.halt?]
      split <;> exact .inl rfl
  | stop =>
      rw [turn, Controller.stop?]
      split
      · exact .inr rfl
      · exact .inl rfl

/-- What there is to be recorded of the events of a life, in order. -/
def recorded {α : Type} (note? : Activity → Event → Option α) : Activity → List Turn → List α
  | _, [] => []
  | a, t :: rest => (t.event?.bind (note? a)).toList ++ recorded note? (a.turn t) rest

theorem recorded_append {α : Type} (note? : Activity → Event → Option α) (a : Activity)
    (ts later : List Turn) :
    recorded note? a (ts ++ later) = recorded note? a ts ++ recorded note? (a.live ts) later := by
  induction ts generalizing a with
  | nil => rfl
  | cons t rest ih =>
      simp only [List.cons_append, recorded, ih, List.append_assoc]
      rfl

theorem recorded_concat {α : Type} (note? : Activity → Event → Option α) (a : Activity)
    (life : List Turn) (t : Turn) : recorded note? a (life ++ [t]) =
      recorded note? a life ++ (t.event?.bind (note? (a.live life))).toList := by
  rw [recorded_append]
  exact congrArg (_ ++ ·) (List.append_nil _)

/-- How the passes of a key ended in the course of a life. -/
def outcomes (key : String) (a : Activity) (life : List Turn) : List Outcome :=
  recorded (ended? key) a life

/-- The keys that were enqueued in the course of a life. -/
def triggers (a : Activity) (life : List Turn) : List String := recorded enqueued? a life

/-- The keys that were started in the course of a life. -/
def starts (a : Activity) (life : List Turn) : List String := recorded started? a life

end Activity
end Control
end Cutover
