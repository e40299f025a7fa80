/-
# Cutover.Control.Queue -- a work queue in which a key runs once at a time

A key is sent to the dispatcher's channel when it becomes pending, and leaves the
pending keys for the running ones when its pass starts.  A trigger for a pending
key is absorbed; one for a running key marks it dirty, and when its pass finishes it
is pending once more.  Consecutive failures are counted by key, in 32 bits.

Once the dispatcher is gone the queue is closed: nothing can be sent, so nothing
new becomes pending.
-/
import Cutover.Dict
import Cutover.Width

namespace Cutover

set_option autoImplicit false

/-- A finite set of keys. -/
abbrev KeySet := Dict Unit

/-- The channel in the order of sending, the keys that are pending, running and
dirty, and the failures in a row of each key that has any. -/
structure WorkQueue where
  channel : List String
  pending : KeySet
  running : KeySet
  dirty : KeySet
  failures : Dict Nat
  closed : Bool
  deriving DecidableEq, Inhabited

namespace WorkQueue

def empty : WorkQueue := default

/-- Send a key, which becomes pending if the channel takes it. -/
def send (q : WorkQueue) (key : String) : WorkQueue :=
  if q.pending.contains key || q.closed then q
  else { q with channel := q.channel ++ [key], pending := q.pending.insert key () }

/-- Schedule a key for a pass as soon as a worker is free. -/
def enqueue (q : WorkQueue) (key : String) : WorkQueue :=
  if q.running.contains key then { q with dirty := q.dirty.insert key () }
  else q.send key

/-- Take the next key off the channel. -/
def receive? (q : WorkQueue) : Option (String × WorkQueue) :=
  match q.channel with
  | [] => none
  | key :: rest => some (key, { q with channel := rest })

/-- A received key starts to run. -/
def start (q : WorkQueue) (key : String) : WorkQueue :=
  { q with pending := q.pending.erase key, running := q.running.insert key () }

/-- The failures in a row of a key after a pass, as far as 32 bits can count them. -/
def failuresAfter (q : WorkQueue) (key : String) (failed : Bool) : Nat :=
  if failed then ((q.failures.get? key).getD 0 + 1) % Width.bits32 else 0

/-- Whether a key was triggered while it ran. -/
def isDirty (q : WorkQueue) (key : String) : Bool := q.dirty.contains key

/-- The pass of a key ends; if it was triggered meanwhile it is sent again. -/
def finish (q : WorkQueue) (key : String) (failed : Bool) : WorkQueue :=
  let left : WorkQueue := { q with
    running := q.running.erase key
    dirty := q.dirty.erase key
    failures :=
      if failed then q.failures.insert key (q.failuresAfter key true) else q.failures.erase key }
  if q.isDirty key then left.send key else left

/-- The dispatcher is gone, and with it what was in its channel. -/
def close (q : WorkQueue) : WorkQueue := { q with channel := [], closed := true }

/-- The number of keys that are pending or running. -/
def size (q : WorkQueue) : Nat := q.pending.size + q.running.size

def isEmpty (q : WorkQueue) : Bool := q.size = 0

end WorkQueue
end Cutover
