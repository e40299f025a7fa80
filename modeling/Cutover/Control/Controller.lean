/-
# Cutover.Control.Controller -- passes over keys, with workers and backoff

A controller feeds the keys of its queue to a bounded number of workers.  Its
dispatcher receives a key, holds it until a worker is free and starts it; the pass
ends with an `Outcome`, and what follows from it happens in the same step
(`Controller.finish`): a key that was triggered while it ran is pending again, any
other is scheduled after the delay the outcome asks for.  Delays are kept as
`timers` until their time has come (`Controller.fire`).

Retryable failures and crashes are repeated after a delay that doubles with every
failure in a row (`Pacing.backoff`).

Shutting down takes three steps.  First the signal is given (`Controller.shutdown`).
The dispatcher may go on receiving and starting keys until it looks at the signal;
then it stops, and the key in its hand is dropped (`Controller.halt?`).  Passes under
way may still finish.  With as many workers free as are waited for the channel goes
too (`Controller.stop?`).
-/
import Cutover.Control.Queue
import Cutover.Duration

namespace Cutover.Control

set_option autoImplicit false

/-- The number of workers and the bounds of the delay after a failure. -/
structure Pacing where
  workers : Nat
  initialBackoff : Duration
  maxBackoff : Duration
  deriving DecidableEq

namespace Pacing

def standard : Pacing := ⟨4, .ofSeconds 1, .ofSeconds 60⟩

/-- The delay after that many failures in a row. -/
def backoff (s : Pacing) (failures : Nat) : Duration :=
  (s.initialBackoff.times (1 <<< min (failures - 1) 20)).least s.maxBackoff

/-- The number of passes that may run at once; there is always a worker. -/
def capacity (s : Pacing) : Nat := max s.workers 1

/-- The number of workers that are waited for in the end, as far as 32 bits can say
it. -/
def awaited (s : Pacing) : Nat := s.capacity % Width.bits32

end Pacing

/-- How a pass ends. -/
inductive Outcome where
  | done (action : Action)
  | failed (retryable : Bool)
  | crashed
  deriving DecidableEq

namespace Outcome

/-- Whether a pass counts as a failure of its key. -/
def isFailure : Outcome → Bool
  | failed retryable => retryable
  | crashed => true
  | done _ => false

/-- When the key of a pass is to run again, given its failures in a row. -/
def delay? (o : Outcome) (s : Pacing) (failures : Nat) : Option Duration :=
  match o with
  | done .awaitChange => none
  | done (.requeue after) => some after
  | failed true => some (s.backoff failures)
  | failed false => none
  | crashed => some (s.backoff failures)

end Outcome

/-- A key that is to be enqueued at a time, in nanoseconds. -/
structure Timer where
  due : Nat
  key : String
  deriving DecidableEq

/-- How far a controller has been shut down. -/
inductive Phase where
  | serving
  /-- The signal is given, and the dispatcher has not looked at it. -/
  | signalled
  /-- The dispatcher has stopped, and workers are waited for. -/
  | stopping
  | stopped
  deriving DecidableEq

/-- Whether the dispatcher is at work. -/
def Phase.dispatches : Phase → Bool
  | serving | signalled => true
  | stopping | stopped => false

/-- A controller: its queue, the key its dispatcher holds, the running keys in the
order they were started, the timers in the order they were set, and how far it has
been shut down. -/
structure Controller where
  pacing : Pacing
  queue : WorkQueue
  inHand : Option String
  started : List String
  timers : List Timer
  phase : Phase
  deriving DecidableEq

namespace Controller

def fresh (pacing : Pacing) : Controller := ⟨pacing, .empty, none, [], [], .serving⟩

def enqueue (c : Controller) (key : String) : Controller :=
  { c with queue := c.queue.enqueue key }

/-- Enqueue a key after a delay, at once if there is none. -/
def enqueueAfter (c : Controller) (now : Nat) (key : String) (delay : Duration) : Controller :=
  if delay.nanos = 0 then c.enqueue key
  else { c with timers := c.timers ++ [⟨now + delay.nanos, key⟩] }

/-- The dispatcher receives a key, if it is at work and holds none. -/
def receive? (c : Controller) : Option Controller :=
  match c.phase.dispatches, c.inHand, c.queue.receive? with
  | true, none, some (key, queue) => some { c with queue, inHand := some key }
  | _, _, _ => none

/-- The key in hand is started, if a worker is free. -/
def start? (c : Controller) : Option (String × Controller) :=
  match c.inHand with
  | some key =>
      if c.started.length < c.pacing.capacity then
        some (key, { c with
          queue := c.queue.start key, inHand := none, started := c.started ++ [key] })
      else none
  | none => none

/-- The pass of a key ends, and what it asks for is scheduled. -/
def finish (c : Controller) (now : Nat) (key : String) (outcome : Outcome) : Controller :=
  let failures := c.queue.failuresAfter key outcome.isFailure
  let rerun := c.queue.isDirty key
  let left := { c with
    queue := c.queue.finish key outcome.isFailure, started := c.started.erase key }
  match outcome.delay? c.pacing failures with
  | some delay => if rerun then left else left.enqueueAfter now key delay
  | none => left

/-- Enqueue the keys whose time has come, in the order of their times. -/
def fire (c : Controller) (now : Nat) : Controller :=
  let ready := c.timers.filter (·.due ≤ now)
  let ordered := ready.mergeSort fun a b => a.due ≤ b.due
  ordered.foldl (fun c timer => c.enqueue timer.key)
    { c with timers := c.timers.filter fun timer => now < timer.due }

/-- The time of the earliest timer. -/
def nextDue? (c : Controller) : Option Nat := (c.timers.map (·.due)).min?

/-- The signal to shut down is given. -/
def shutdown (c : Controller) : Controller :=
  if c.phase = .serving then { c with phase := .signalled } else c

/-- The dispatcher stops, and the key in its hand is dropped. -/
def halted (c : Controller) : Controller := { c with inHand := none, phase := .stopping }

/-- The dispatcher looks at the signal, if there is one, and stops. -/
def halt? (c : Controller) : Option Controller :=
  if c.phase = .signalled then some c.halted else none

/-- With the workers free that are waited for the channel goes. -/
def stop? (c : Controller) : Option Controller :=
  if c.phase = .stopping ∧ c.pacing.awaited + c.started.length ≤ c.pacing.capacity then
    some { c with queue := c.queue.close, phase := .stopped }
  else none

/-- Receive and start keys while there are both keys and free workers; the bound is
the number of keys that can be taken. -/
def dispatchUpTo : Nat → Controller → Controller
  | 0, c => c
  | n + 1, c =>
      let c := c.receive?.getD c
      match c.start? with
      | some (_, c) => dispatchUpTo n c
      | none => c

/-- Receive and start keys while there are both keys and free workers. -/
def dispatch (c : Controller) : Controller := dispatchUpTo (c.queue.channel.length + 1) c

/-- The key whose pass, among the running ones, ends first: the one started first. -/
def current? (c : Controller) : Option String := c.started.head?

end Controller
end Cutover.Control
