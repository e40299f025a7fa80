/-
# Cutover.Schema.Release -- releases

A release is one pairing of a build with a configuration and a container shape of
a descriptor.  Its role and traffic are decided by the ramp; its status follows
what runs.
-/
import Cutover.Schema.Container

namespace Cutover

set_option autoImplicit false

/-- The part a release plays.  At most one is active and serves by default, at
most one is the target of a promotion; a bad one was marked by hand. -/
inductive ReleaseRole where
  | none
  | active
  | target
  | bad
  deriving DecidableEq, Inhabited

namespace ReleaseRole

def names : List (String × ReleaseRole) :=
  [("none", .none), ("active", active), ("target", target), ("bad", bad)]

def name : ReleaseRole → String
  | .none => "none"
  | active => "active"
  | target => "target"
  | bad => "bad"

def toJson (r : ReleaseRole) : Json := .str r.name

def ofJson? : Json → Option ReleaseRole := Json.choice? names

end ReleaseRole

inductive ReleaseState where
  | new
  | canarying
  | releasing
  | released
  | retiring
  | retired
  | failed
  | bad
  | halted
  deriving DecidableEq, Inhabited

namespace ReleaseState

def names : List (String × ReleaseState) :=
  [ ("new", new), ("canarying", canarying), ("releasing", releasing), ("released", released),
    ("retiring", retiring), ("retired", retired), ("failed", failed), ("bad", bad),
    ("halted", halted) ]

def name : ReleaseState → String
  | new => "new"
  | canarying => "canarying"
  | releasing => "releasing"
  | released => "released"
  | retiring => "retiring"
  | retired => "retired"
  | failed => "failed"
  | bad => "bad"
  | halted => "halted"

def toJson (s : ReleaseState) : Json := .str s.name

def ofJson? : Json → Option ReleaseState := Json.choice? names

end ReleaseState

/-- What a release runs, and the instances and share of traffic it is given.  The
configuration is the name of a config map, empty for none. -/
structure ReleaseSpec where
  app : String
  target : String
  build : String
  config : String
  numDesired : Nat
  role : ReleaseRole
  traffic : Nat
  runtime : Runtime
  deriving DecidableEq, Inhabited

namespace ReleaseSpec

def toJson (r : ReleaseSpec) : Json :=
  .obj [
    ("app", .str r.app),
    ("target", .str r.target),
    ("build", .str r.build),
    ("config", .str r.config),
    ("num_desired", .nat r.numDesired),
    ("role", r.role.toJson),
    ("traffic_percentage", .nat r.traffic),
    ("runtime", r.runtime.toJson)]

open Json.Reader in
def ofJson? : Json → Option ReleaseSpec := read? do
  return {
    app := ← required "app" Json.text?
    target := ← required "target" Json.text?
    build := ← required "build" Json.text?
    config := ← defaulted "config" "" Json.text?
    numDesired := ← defaulted "num_desired" 0 Json.nat32?
    role := ← defaulted "role" .none ReleaseRole.ofJson?
    traffic := ← defaulted "traffic_percentage" 0 Json.nat32?
    runtime := ← defaulted "runtime" default Runtime.ofJson? }

end ReleaseSpec

/-- Why one instance is not healthy. -/
structure PodError where
  pod : String
  reason : String
  message : String
  deriving DecidableEq, Inhabited

namespace PodError

def toJson (e : PodError) : Json :=
  .obj [("pod", .str e.pod), ("reason", .str e.reason), ("message", .str e.message)]

open Json.Reader in
def ofJson? : Json → Option PodError := read? do
  return {
    pod := ← required "pod" Json.text?
    reason := ← required "reason" Json.text?
    message := ← defaulted "message" "" Json.text? }

end PodError

/-- Observed state of a release.  `stateChangedAt` is zero before the first
observation. -/
structure ReleaseStatus where
  state : ReleaseState
  stateChangedAt : Nat
  numDesired : Nat
  numReady : Nat
  numAvailable : Nat
  podErrors : List PodError
  deriving DecidableEq, Inhabited

namespace ReleaseStatus

def toJson (s : ReleaseStatus) : Json :=
  .obj ([
    ("state", s.state.toJson),
    ("state_changed_at", .nat s.stateChangedAt),
    ("num_desired", .nat s.numDesired),
    ("num_ready", .nat s.numReady),
    ("num_available", .nat s.numAvailable)] ++
    if s.podErrors.isEmpty then []
    else [("pod_errors", Json.list PodError.toJson s.podErrors)])

open Json.Reader in
def ofJson? : Json → Option ReleaseStatus := read? do
  return {
    state := ← defaulted "state" .new ReleaseState.ofJson?
    stateChangedAt := ← defaulted "state_changed_at" 0 Json.nat64?
    numDesired := ← defaulted "num_desired" 0 Json.nat32?
    numReady := ← defaulted "num_ready" 0 Json.nat32?
    numAvailable := ← defaulted "num_available" 0 Json.nat32?
    podErrors := ← defaulted "pod_errors" [] (Json.list? PodError.ofJson?) }

end ReleaseStatus
end Cutover
