/-
# Cutover.Store.Error -- why a store refuses a write, and trying again

A write names the version it has seen, so a conflict says that somebody else
wrote first and that a fresh read may help; nothing else is worth repeating.
`retryOnConflict` repeats an action as long as it meets conflicts and has
attempts left.
-/
import Cutover.Schema.Object

namespace Cutover

set_option autoImplicit false

inductive StoreError where
  | notFound (what : String)
  | alreadyExists (kind : Kind) (key : String)
  | conflict (kind : Kind) (key : String) (observed stored : Nat)
  deriving DecidableEq

namespace StoreError

def message : StoreError → String
  | notFound what => "not found: " ++ what
  | alreadyExists kind key => kind.name ++ " " ++ key ++ " already exists"
  | conflict kind key observed stored =>
      "conflict writing " ++ kind.name ++ " " ++ key ++ ": observed version " ++
        toString observed ++ ", stored version " ++ toString stored

/-- Whether a fresh read can resolve the failure. -/
def isConflict : StoreError → Bool
  | conflict .. => true
  | _ => false

def isNotFound : StoreError → Bool
  | notFound _ => true
  | _ => false

end StoreError

section Retry

variable {σ α : Type}

/-- Run an action, and again up to that many times while it meets conflicts. -/
def retrying : Nat → EStateM StoreError σ α → EStateM StoreError σ α
  | 0, act => act
  | more + 1, act => fun s =>
      match act s with
      | .error e s => if e.isConflict then retrying more act s else .error e s
      | .ok a s => .ok a s

/-- Run an action up to that many times, and at least once, while it meets
conflicts. -/
def retryOnConflict (attempts : Nat) (act : EStateM StoreError σ α) : EStateM StoreError σ α :=
  retrying (attempts - 1) act

end Retry
end Cutover
