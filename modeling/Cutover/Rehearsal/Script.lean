/-
# Cutover.Rehearsal.Script -- a controller over scripted passes

A `Script` says for each key how its passes end, one after the other, and which keys
each pass triggers while it runs; a pass beyond the script succeeds.  `Run.upTo`
drives a controller through a script and a list of triggers from outside, in virtual
time that moves only when nothing can run, and keeps the log of the passes.

In the end the controller is shut down (`Run.shutDown`).  Its dispatcher goes once more
through what there is before it looks at the signal, and the passes under way end.

A trigger leads to one pass at most and a scripted pass to one more for itself, so
`Script.passes` bounds the passes of a run.
-/
import Cutover.Control.Controller

namespace Cutover.Rehearsal

open Control

set_option autoImplicit false

/-- One scripted pass: how it ends and the keys it triggers while it runs. -/
structure Step where
  outcome : Outcome
  triggers : List String
  deriving DecidableEq

namespace Step

/-- A pass beyond the script. -/
def unscripted : Step := ⟨.done .awaitChange, []⟩

end Step

/-- The passes of each key that are still to come. -/
abbrev Script := Dict (List Step)

namespace Script

/-- The next pass of a key, and the script after it. -/
def next (s : Script) (key : String) : Step × Script :=
  match s.get? key with
  | some (step :: rest) => (step, s.insert key rest)
  | _ => (.unscripted, s)

/-- A bound on the passes that a number of triggers leads to. -/
def passes (s : Script) (triggers : Nat) : Nat :=
  s.values.flatten.foldl (fun total step => total + (1 + step.triggers.length)) triggers

end Script

/-- A pass that has run. -/
structure Entry where
  time : Nat
  key : String
  outcome : Outcome
  deriving DecidableEq

/-- A controller, what its passes are to do, what they did, and the time. -/
structure Run where
  controller : Controller
  script : Script
  log : List Entry
  now : Nat

namespace Run

def fresh (pacing : Pacing) (script : Script) : Run := ⟨.fresh pacing, script, [], 0⟩

/-- The pass of a key triggers what its script says, and ends as it says. -/
def finish (r : Run) (key : String) : Run :=
  let (step, script) := r.script.next key
  let c := step.triggers.foldl Controller.enqueue r.controller
  { r with
    controller := c.finish r.now key step.outcome
    script
    log := r.log ++ [⟨r.now, key, step.outcome⟩] }

/-- Run the pass that is next, if there is one. -/
def pass? (r : Run) : Option Run :=
  let r := { r with controller := r.controller.dispatch }
  r.controller.current?.map r.finish

/-- Run passes until none is left, or the given number of them. -/
def settleWithin : Nat → Run → Run
  | 0, r => r
  | n + 1, r =>
      match r.pass? with
      | some r => settleWithin n r
      | none => r

/-- What happens at one moment: triggers from outside, then timers, then passes. -/
def moment (r : Run) (now : Nat) (keys : List String) (bound : Nat) : Run :=
  let c := (keys.foldl Controller.enqueue r.controller).fire now
  settleWithin bound { r with controller := c, now }

/-- The next moment at which a trigger or a timer is due. -/
def nextDue? (r : Run) (triggers : List Timer) : Option Nat :=
  (r.controller.nextDue?.toList ++ triggers.map (·.due)).min?

/-- Go through the moments before the horizon, or the given number of them. -/
def advanceWithin (bound horizon : Nat) : Nat → List Timer → Run → Run
  | 0, _, r => r
  | n + 1, triggers, r =>
      match r.nextDue? triggers with
      | none => r
      | some now =>
          if now < horizon then
            let keys := (triggers.filter (·.due ≤ now)).map (·.key)
            advanceWithin bound horizon n (triggers.filter (now < ·.due)) (r.moment now keys bound)
          else r

/-- Run a script up to a horizon, under triggers from outside.  Keys that are triggered at
the horizon itself are enqueued. -/
def upTo (horizon : Nat) (pacing : Pacing) (script : Script) (triggers : List Timer) : Run :=
  let bound := script.passes triggers.length
  let r := advanceWithin bound horizon (bound + triggers.length) triggers (fresh pacing script)
  let last := (triggers.filter (·.due = horizon)).map (·.key)
  { r with controller := last.foldl Controller.enqueue r.controller, now := horizon }

/-- The controller is shut down, and the passes that its dispatcher has started when it looks at
the signal end. -/
def shutDown (r : Run) : Run :=
  let c := r.controller.shutdown.dispatch
  let c := c.halt?.getD c
  c.started.foldl finish { r with controller := c }

/-- The log up to the end; entries of one time by key where several workers ran. -/
def report (r : Run) : List Entry :=
  let log := r.shutDown.log
  if r.controller.pacing.capacity = 1 then log
  else log.mergeSort fun a b => a.time < b.time || a.time = b.time && a.key ≤ b.key

/-- The controller once it has been shut down and its passes have finished. -/
def stopped (r : Run) : Controller :=
  let c := r.shutDown.controller
  c.stop?.getD c

end Run
end Cutover.Rehearsal
