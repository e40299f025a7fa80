/-
# Cutover.Control.Daemon -- the control plane in virtual time

A `Daemon` is a store, the two controllers that work on it, the scaler, and the times
of the next resync and the next round of the scaler.  Time is counted in nanoseconds
from the start and moves only when nothing is left to do: `settle` routes every new
change and runs every pass that is due, `advance` goes from one moment at which
something becomes due to the next.

The wall clock reads whole seconds and turns half a second before each of them, so a
moment on a full second reads the same however it was reached (`clockAt`).
-/
import Cutover.Control.Triggers
import Cutover.Deployment.Pass
import Cutover.Release.Pass
import Cutover.Scaling.Evaluation

namespace Cutover.Control

set_option autoImplicit false

/-- How a pass ended, for the controller that ran it. -/
def outcomeOf {ε : Type} (isRetryable : ε → Bool) :
    EStateM.Result ε Store Action → Outcome × Store
  | .ok action s => (.done action, s)
  | .error e s => (.failed (isRetryable e), s)

/-- A control plane over its store.  `routed` counts the changes of the feed that have
been routed, `start` is the wall clock at time zero. -/
structure Daemon where
  store : Store
  controllers : Controllers
  scaler : Scaler
  routed : Nat
  now : Nat
  start : Int
  resyncEvery : Nat
  nextResync : Nat
  scaleEvery : Nat
  nextScaling : Nat

namespace Daemon

/-- The wall clock at a time; before the epoch it reads zero. -/
def clockAt (start : Int) (time : Nat) : Nat :=
  (start + ((time + Duration.perSecond / 2) / Duration.perSecond : Nat)).toNat

/-- A control plane at time zero over a store, with its pacing and the seconds
between two resyncs and two rounds of the scaler.  The first resync is due at once. -/
def fresh (store : Store) (start : Int) (pacing : Pacing) (resync scaling : Nat) : Daemon :=
  { store := { store with clock := clockAt start 0 }
    controllers := .fresh pacing
    scaler := .standard
    routed := store.feed.length
    now := 0
    start
    resyncEvery := resync * Duration.perSecond
    nextResync := 0
    scaleEvery := scaling * Duration.perSecond
    nextScaling := scaling * Duration.perSecond }

/-! ## Reacting -/

/-- Route the changes that have been committed since the last time. -/
def route (d : Daemon) : Daemon :=
  { d with
    controllers := (d.store.feed.drop d.routed).foldl (fun c e => c.route d.store e) d.controllers
    routed := d.store.feed.length }

/-- Run the deployment pass that is next, if there is one. -/
def deploymentPass? (d : Daemon) : Option Daemon :=
  let c := d.controllers.deployments.dispatch
  c.current?.map fun key =>
    let (outcome, store) := outcomeOf DeployError.isRetryable (Deployment.run key d.store.clock d.store)
    { d with store, controllers.deployments := c.finish d.now key outcome }

/-- Run the release pass that is next, if there is one. -/
def releasePass? (d : Daemon) : Option Daemon :=
  let c := d.controllers.releases.dispatch
  c.current?.map fun key =>
    let (outcome, store) := outcomeOf (fun _ => true) (ReleasePass.run key d.store.clock d.store)
    { d with store, controllers.releases := c.finish d.now key outcome }

/-- Run passes and route what they change until nothing is left to do, or the given
number of passes has run. -/
def settleWithin : Nat → Daemon → Daemon
  | 0, d => d
  | n + 1, d =>
      let d := d.route
      match d.deploymentPass? with
      | some d => settleWithin n d
      | none =>
          match d.releasePass? with
          | some d => settleWithin n d
          | none => d

/-- Passes that may run at one moment. -/
def passesPerMoment : Nat := 100000

def settle (d : Daemon) : Daemon := settleWithin passesPerMoment d

/-! ## The passing of time -/

/-- The next time at which something becomes due. -/
def nextDue (d : Daemon) : Nat :=
  let timers := d.controllers.deployments.nextDue?.toList ++ d.controllers.releases.nextDue?.toList
  timers.foldl min (min d.nextResync d.nextScaling)

/-- Move to a time, and the wall clock with it. -/
def moveTo (d : Daemon) (time : Nat) : Daemon :=
  { d with now := time, store.clock := clockAt d.start time }

/-- Start over with the resync, if it is due. -/
def resyncIfDue (d : Daemon) : Daemon :=
  if d.nextResync ≤ d.now then
    { d with
      controllers := d.controllers.resync d.store
      nextResync := d.now + d.resyncEvery }
  else d

/-- Run a round of the scaler, if it is due. -/
def scaleIfDue (d : Daemon) : Daemon :=
  if d.nextScaling ≤ d.now then
    let next := d.now + d.scaleEvery
    match Scaler.evaluateAll d.scaler d.store with
    | .ok (_, scaler) store => { d with store, scaler, nextScaling := next }
    | .error _ store => { d with store, nextScaling := next }
  else d

/-- Do what is due at the present time, and everything that follows. -/
def turn (d : Daemon) : Daemon :=
  let deployments := d.controllers.deployments.fire d.now
  let releases := d.controllers.releases.fire d.now
  (settle { d with controllers := ⟨deployments, releases⟩ }.resyncIfDue.scaleIfDue)

/-- Go through the moments before a time, or the given number of them, and then on to
that time. -/
def advanceWithin : Nat → Nat → Daemon → Daemon
  | 0, time, d => d.moveTo time
  | n + 1, time, d =>
      let due := d.nextDue
      if due < time then advanceWithin n time (d.moveTo (max due d.now)).turn
      else d.moveTo time

/-- Moments at which something is due that may lie between two writes from outside. -/
def momentsBetween : Nat := 1000000

/-- Go on to a time.  What is due at that very time is left to `turn`. -/
def advance (d : Daemon) (time : Nat) : Daemon := advanceWithin momentsBetween time d

end Daemon
end Cutover.Control
