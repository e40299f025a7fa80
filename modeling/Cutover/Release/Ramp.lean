/-
# Cutover.Release.Ramp -- moving traffic from release to release

One pass of `Ramp.pass` looks at all releases of a descriptor and decides which is
active, which is the target of a promotion, how many instances each should run and
how traffic is split.

* While a promotion is under way a pass within one readiness timeout of the last
  movement changes nothing (`hold?`).
* The candidate is the newest deployable release.  Without an active release it
  becomes active at once; otherwise it is the target.
* A target is raised by a quarter of the desired count a step, over what is
  available, and its traffic follows its available share, rising by at most 25
  points a step and never falling (`targetTraffic`).  An application without ports
  is moved in one step.  With all traffic the target becomes active.
* The active release keeps the rest of the traffic and instances in proportion to
  the traffic it had (`activeCount`).
* Every other release loses its role and traffic.  A bad one is switched off; one
  whose state has not changed for a readiness timeout is drained (`isDrained`).

What the pass will do is first settled as a `Plan`, then applied to each release by
its position (`Plan.settle`).
-/
import Cutover.Deployment.Error
import Cutover.Descriptor
import Cutover.Labels
import Cutover.Release.Order
import Cutover.Width

namespace Cutover.Ramp

set_option autoImplicit false

/-- Points of traffic, and percent of the desired instances, added per step. -/
def increment : Nat := 25

/-- The largest count of 32 bits. -/
def maxCount : Nat := Width.bits32 - 1

/-- So many percent of a count, rounded down. -/
def percentOf (total percent : Nat) : Nat := min (total * percent / 100) maxCount

/-- A part as a whole percentage of a count, rounded down; zero of nothing. -/
def sharePercent (part total : Nat) : Nat :=
  if total = 0 then 0 else min (part * 100 / total) maxCount

/-- What a pass reports: when to look again, nothing if the rollout is settled, and
whether roles, traffic or the target's count moved. -/
structure Outcome where
  requeueAfter : Option Nat
  changed : Bool
  deriving DecidableEq, Inhabited

/-- The outcome, and the descriptor and releases after a pass. -/
structure Result where
  outcome : Outcome
  descriptor : Descriptor
  releases : List Release

/-! ## Before the pass -/

def activeIndex (rs : List Release) : Option Nat := rs.findIdx? (·.spec.role = .active)

/-- The position of the target; a settled active release is its own target. -/
def targetIndex (rs : List Release) : Option Nat :=
  (rs.findIdx? (·.spec.role = .target)).or (activeIndex rs)

/-- Whether a promotion is under way. -/
def isPromoting (rs : List Release) : Bool :=
  match activeIndex rs, targetIndex rs with
  | some a, some t => a != t
  | _, _ => false

/-- The seconds left until the next step of a promotion. -/
def hold? (d : Descriptor) (rs : List Release) (now : Nat) : Option Nat :=
  let elapsed := now - d.status.deployUpdatedAt
  if isPromoting rs && elapsed < d.readinessTimeout then some (d.readinessTimeout - elapsed)
  else none

/-! ## The plan -/

/-- Percent of the desired instances, and points of traffic, that one step may add. -/
def stepPercent (d : Descriptor) : Nat := if d.needsService then increment else 100

/-- The count a target is raised to: a step above what is available. -/
def raisedCount (d : Descriptor) (desired available : Nat) : Nat :=
  min (available + max (percentOf desired (stepPercent d)) 1) desired

/-- The traffic a target is given: its available share of the desired count, at
most a step above what it had and not below. -/
def targetTraffic (d : Descriptor) (desired available previous : Nat) : Nat :=
  min (max (min (sharePercent (min available desired) desired) (previous + stepPercent d))
    previous) 100

/-- What a pass settles before it touches a release: positions of the active and
the target release, traffic and count of the target, whether to look again after a
readiness timeout, and whether something moved. -/
structure Plan where
  active : Nat
  target : Nat
  traffic : Nat
  count : Nat
  again : Bool
  changed : Bool
  deriving DecidableEq, Inhabited

/-- The plan for a descriptor, the positions of the releases it had, and the
position and content of the release it should have. -/
def plan (d : Descriptor) (active? target? : Option Nat) (candidate : Nat) (r : Release) : Plan :=
  let desired := d.desiredInstances
  let active := active?.getD candidate
  let switched := active? = none || target? != some candidate
  if desired = 0 then
    { active := candidate, target := candidate, traffic := 100, count := 0, again := false
      changed := switched || r.spec.numDesired != 0 }
  else if candidate = active then
    { active, target := candidate, traffic := 100, count := desired, again := false
      changed := switched }
  else
    let raised := raisedCount d desired r.status.numAvailable
    let traffic := targetTraffic d desired r.status.numAvailable r.spec.traffic
    let complete := traffic = 100
    { active := if complete then candidate else active
      target := candidate
      traffic
      count := max r.spec.numDesired raised
      again := !complete
      changed := switched || r.spec.numDesired < raised || traffic != r.spec.traffic || complete }

/-! ## The releases -/

/-- The count of an active release that is giving way: its part of the desired
count by the traffic it had, and at least one while it has any. -/
def activeCount (desired traffic : Nat) : Nat :=
  let count := percentOf desired traffic
  if desired > 0 && count < 1 && traffic != 0 then 1 else count

/-- Whether a release without a role has had its traffic away long enough. -/
def isDrained (timeout now : Nat) (r : Release) : Bool :=
  r.spec.role != .active && now - r.status.stateChangedAt > timeout

/-- Whether a release is neither active nor target, nor bad, and keeps its instances
for now. -/
def Plan.isWaiting (p : Plan) (timeout now : Nat) (i : Nat) (r : Release) : Bool :=
  i != p.active && i != p.target && r.spec.role != .bad && !isDrained timeout now r

/-- Role, traffic and count of the release at one position. -/
def Plan.assign (p : Plan) (desired timeout now : Nat) (i : Nat) (r : Release) : Release :=
  if i = p.active then
    if i = p.target then
      { r with spec.role := .active, spec.traffic := p.traffic, spec.numDesired := p.count }
    else
      { r with
        spec.role := .active
        spec.traffic := 100 - p.traffic
        spec.numDesired := activeCount desired r.spec.traffic }
  else if i = p.target then
    { r with spec.role := .target, spec.traffic := p.traffic, spec.numDesired := p.count }
  else if r.spec.role = .bad then
    { r with spec.traffic := 0, spec.numDesired := 0 }
  else
    { r with
      spec.role := .none
      spec.traffic := 0
      spec.numDesired := if isDrained timeout now r then 0 else r.spec.numDesired }

/-- The mark of a promotion stands on its target alone. -/
def Plan.mark (p : Plan) (i : Nat) (r : Release) : Release :=
  { r with info.labels :=
      if i = p.target ∧ p.target ≠ p.active then r.info.labels.insert Label.promotionTarget "1"
      else r.info.labels.erase Label.promotionTarget }

def totalTraffic (rs : List Release) : Nat := rs.foldl (fun total r => total + r.spec.traffic) 0

/-- Put what the split lacks to all traffic, or has beyond it, on the target. -/
def Plan.absorb (p : Plan) (rs : List Release) : List Release :=
  let total := totalTraffic rs
  if total = 100 then rs
  else rs.modify p.target fun r => { r with spec.traffic := r.spec.traffic + 100 - total }

/-- All releases after the pass. -/
def Plan.settle (p : Plan) (desired timeout now : Nat) (rs : List Release) : List Release :=
  p.absorb (rs.mapIdx fun i r => p.mark i (p.assign desired timeout now i r))

/-! ## The descriptor -/

/-- The descriptor's status once the releases are settled: which release is active
and which is the target, the time of the last movement, and the counts of the
active release unless it is being replaced or no store has seen it. -/
def Plan.report (p : Plan) (d : Descriptor) (rs : List Release) (now : Nat) : DescriptorStatus :=
  let name (i : Nat) : String := (rs[i]?.map (·.name)).getD ""
  let short := rs[p.target]?.any fun r => r.status.numAvailable < r.spec.numDesired
  let status : DescriptorStatus := { d.status with
    activeRelease := name p.active
    targetRelease := name p.target
    deployUpdatedAt :=
      if p.changed || d.status.deployUpdatedAt = 0 then now else d.status.deployUpdatedAt
    phase :=
      if d.spec.deployMode = .halt then .halted
      else if p.active ≠ p.target || short then .deploying
      else .running }
  match rs[p.active]? with
  | some r =>
      if p.active = p.target ∧ r.info.isPersisted then
        { status with
          numDesired := r.status.numDesired
          numReady := r.status.numReady
          numAvailable := r.status.numAvailable }
      else status
  | none => status

/-! ## The pass -/

/-- One pass over a descriptor and all of its releases at a time. -/
def pass (d : Descriptor) (rs : List Release) (now : Nat) : Except DeployError Result :=
  if rs.isEmpty then .error (.emptyReleaseSet d.key)
  else
    match hold? d rs now with
    | some remaining =>
        .ok { outcome := ⟨some remaining, false⟩, descriptor := d, releases := rs }
    | none =>
        match Release.firstDeployable rs with
        | none => .ok { outcome := default, descriptor := d, releases := rs }
        | some candidate =>
            match rs[candidate]? with
            | none => .ok { outcome := default, descriptor := d, releases := rs }
            | some r =>
                let timeout := d.readinessTimeout
                let p := plan d (activeIndex rs) (targetIndex rs) candidate r
                let settled := p.settle d.desiredInstances timeout now rs
                let waiting := (rs.mapIdx (p.isWaiting timeout now)).any id
                .ok {
                  outcome := ⟨if p.again || waiting then some timeout else none, p.changed⟩
                  descriptor := { d with status := p.report d settled now }
                  releases := settled }

end Cutover.Ramp
