/-
# Cutover.Release.Health -- lifecycle state and diagnosis

The state of a release follows from its role and the counts of its replica group
(`stateFor`):

    active   nothing desired            halted
    active   as many available          released
    active   otherwise                  releasing
    target                              releasing
    bad                                 bad
    no role  no instances wanted        retired
    no role  otherwise                  retiring

A release none of whose instances ever ran, the oldest being older than the
readiness timeout, is failed instead, and stays failed while it has no role
(`nextStatus`).  The time of the last change of state is kept while the state holds.
-/
import Cutover.Schema.Object

namespace Cutover

set_option autoImplicit false

/-- Instance counts of a release's replica group. -/
structure ObservedCounts where
  desired : Nat
  ready : Nat
  available : Nat
  deriving DecidableEq, Inhabited

/-- The counts of a group; zero where there is none. -/
def ObservedCounts.ofGroup : Option ReplicaGroup → ObservedCounts
  | some g => ⟨g.spec.replicas, g.status.readyReplicas, g.status.availableReplicas⟩
  | none => ⟨0, 0, 0⟩

/-! ## Diagnosis -/

namespace Object

def errorOf (i : Instance) (reason message : String) : PodError := ⟨i.name, reason, message⟩

/-- The reason that says no more than that a container ended badly. -/
def genericReason : String := "Error"

def unschedulableReason : String := "Unschedulable"

/-- Look at the last termination of one more container: a specific one ends the search,
a generic one takes the place of the one kept so far. -/
def weigh (kept : Option Termination) (s : ContainerStatus) :
    Except Termination (Option Termination) :=
  match s.lastTermination with
  | none => .ok kept
  | some t => if t.reason = genericReason then .ok (some t) else .error t

/-- Search an instance's containers for a specific termination.  Without one, what was
kept is the answer. -/
def searchTerminations (i : Instance) : Except Termination (Option Termination) :=
  i.status.containerStatuses.foldlM weigh none

/-- The reason and message of the first container that is waiting. -/
def waitingReason? (i : Instance) : Option (String × String) :=
  i.status.containerStatuses.findSome? fun s => match s.state with
    | .waiting reason message => some (reason, message)
    | _ => none

/-- The most useful explanation for an unhealthy instance: that it cannot be
scheduled, a specific termination, what a container waits for, or a generic
termination, the last one. -/
def podError? (i : Instance) : Option PodError :=
  match i.status.conditions.find? fun c => c.reason = unschedulableReason with
  | some c => some (i.errorOf c.reason c.message)
  | none =>
      match i.searchTerminations with
      | .error t => some (i.errorOf t.reason t.message)
      | .ok generic =>
          (i.waitingReason?.map fun (reason, message) => i.errorOf reason message).or
            (generic.map fun t => i.errorOf t.reason t.message)

/-- Whether an instance has been running. -/
def hasRun (i : Instance) : Bool :=
  i.status.phase = .running || i.status.phase = .succeeded

end Object

/-- What a release's instances tell; it is stuck if none ever ran and the oldest has
outlived the readiness timeout. -/
structure Diagnosis where
  podErrors : List PodError
  stuck : Bool
  deriving DecidableEq, Inhabited

/-- The creation time of the oldest instance. -/
def oldest? (instances : List Instance) : Option Nat :=
  (instances.map (·.info.createdAt)).min?

def diagnose (instances : List Instance) (timeout now : Nat) : Diagnosis :=
  { podErrors := instances.filterMap (·.podError?)
    stuck := !instances.any (·.hasRun) &&
      (oldest? instances).any fun created => now - created > timeout }

/-! ## State -/

namespace ReleaseSpec

/-- The state that a role and observed counts imply. -/
def stateFor (r : ReleaseSpec) (counts : ObservedCounts) : ReleaseState :=
  match r.role with
  | .active =>
      if counts.desired = 0 then .halted
      else if counts.available ≥ counts.desired then .released
      else .releasing
  | .target => .releasing
  | .bad => .bad
  | .none => if r.numDesired = 0 then .retired else .retiring

end ReleaseSpec

namespace Object

/-- The state of a release, given a diagnosis if it is short of instances. -/
def nextState (r : Release) (counts : ObservedCounts) (diagnosis : Option Diagnosis) :
    ReleaseState :=
  if r.status.state = .failed ∧ r.spec.role = .none then .failed
  else if diagnosis.any (·.stuck) ∧ r.spec.role ≠ .bad then .failed
  else r.spec.stateFor counts

/-- The next status of a release. -/
def nextStatus (r : Release) (counts : ObservedCounts) (diagnosis : Option Diagnosis)
    (now : Nat) : ReleaseStatus :=
  let state := r.nextState counts diagnosis
  { state
    stateChangedAt :=
      if state = r.status.state ∧ r.status.stateChangedAt ≠ 0 then r.status.stateChangedAt
      else now
    numDesired := counts.desired
    numReady := counts.ready
    numAvailable := counts.available
    podErrors := (diagnosis.map (·.podErrors)).getD [] }

end Object
end Cutover
