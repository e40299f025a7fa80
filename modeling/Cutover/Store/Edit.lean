/-
# Cutover.Store.Edit -- read, decide, write if nothing changed

Editing a stored object takes two steps that other clients may come between: a
read that settles what to do (`Intent`) and a conditional write that does it
(`Intent.perform`).  `intendApply`, `intendSpec` and `intendStatus` are the reads
of the three edits.  An edit that changes nothing intends nothing, and a client
that lost a race starts over from its read, `attempts` times at most.

`Pass` is the type of programs over a store that may fail: what was written
before a failure stays written.
-/
import Cutover.Store.Basic

namespace Cutover

set_option autoImplicit false

/-- A program over a store that may fail with an error of its own. -/
abbrev Pass (ε : Type) := EStateM ε Store

namespace Pass

variable {ε ε' α : Type}

/-- Run one write of the store, its refusal being the failure of the pass. -/
def write (op : Store → Except StoreError (α × Store)) : Pass StoreError α := fun s =>
  match op s with
  | .ok (a, s) => .ok a s
  | .error e => .error e s

/-- Run a part of a pass, its errors seen as those of the whole. -/
def within (wrap : ε → ε') (part : Pass ε α) : Pass ε' α := fun s =>
  match part s with
  | .ok a s => .ok a s
  | .error e s => .error (wrap e) s

end Pass

/-- What a client that has read the store is about to write. -/
inductive Intent (k : Kind) where
  | nothing (seen : Option (Object k))
  | create (o : Object k)
  | replaceSpec (o : Object k)
  | replaceStatus (o : Object k)

namespace Intent

variable {k : Kind}

/-- Do what was intended, if the store still allows it.  A key that was free and
has been taken since counts as a conflict. -/
def perform (s : Store) : Intent k → Except StoreError (Option (Object k) × Store)
  | nothing seen => .ok (seen, s)
  | create o =>
      match s.create o with
      | .ok (o, s) => .ok (some o, s)
      | .error (.alreadyExists kind key) => .error (.conflict kind key 0 1)
      | .error e => .error e
  | replaceSpec o => (s.updateSpec o).map fun (o, s) => (some o, s)
  | replaceStatus o => (s.updateStatus o).map fun (o, s) => (some o, s)

/-- Whether there is something to write. -/
def writes : Intent k → Bool
  | nothing _ => false
  | _ => true

end Intent

namespace Store

variable {k : Kind}

/-- Attempts at an edit before a conflict is reported. -/
def attempts : Nat := 5

/-- Whether two objects have the same spec, labels and owner. -/
def sameSpec (o p : Object k) : Bool :=
  o.spec = p.spec && o.info.labels = p.info.labels && o.info.owner = p.info.owner

/-- Bring the stored object's spec, labels and owner in line with another's, or
create it. -/
def intendApply (s : Store) (desired : Object k) : Intent k :=
  match s.getByKey k desired.key with
  | none => .create desired
  | some current =>
      if sameSpec current desired then .nothing (some current)
      else .replaceSpec { current with
        spec := desired.spec
        info.labels := desired.info.labels
        info.owner := desired.info.owner }

/-- Edit the spec, labels and owner of a stored object. -/
def intendSpec (s : Store) (ns name : String) (edit : Object k → Object k) : Intent k :=
  match s.get k ns name with
  | none => .nothing none
  | some current =>
      let edited := edit current
      if sameSpec edited current then .nothing (some current)
      else .replaceSpec { edited with info.specVersion := current.info.specVersion }

/-- Edit the status of a stored object. -/
def intendStatus (s : Store) (ns name : String) (edit : Object k → k.Status) : Intent k :=
  match s.get k ns name with
  | none => .nothing none
  | some current =>
      let status := edit current
      if status = current.status then .nothing (some current)
      else .replaceStatus { current with status }

/-- One attempt at an edit: the object after it and whether it was written. -/
def attempt (intend : Store → Intent k) : Pass StoreError (Option (Object k) × Bool) := do
  let intent := intend (← getThe Store)
  let o ← Pass.write (intent.perform ·)
  return (o, intent.writes)

/-- Read, decide and write, over again on a conflict. -/
def edit (intend : Store → Intent k) : Pass StoreError (Option (Object k) × Bool) :=
  retryOnConflict attempts (attempt intend)

/-- Store a desired object; whether anything was written. -/
def apply (desired : Object k) : Pass StoreError (Object k × Bool) := do
  let (o, changed) ← edit (·.intendApply desired)
  return (o.getD desired, changed)

def modifySpec (k : Kind) (ns name : String) (f : Object k → Object k) :
    Pass StoreError (Option (Object k)) :=
  (·.1) <$> edit (·.intendSpec ns name f)

def modifyStatus (k : Kind) (ns name : String) (f : Object k → k.Status) :
    Pass StoreError (Option (Object k)) :=
  (·.1) <$> edit (·.intendStatus ns name f)

end Store
end Cutover
