/-
# Cutover.Release.Order -- recency

The newest release comes first: releases no store has seen before stored ones,
then by falling creation time, then by falling name.  `sortNewestFirst` keeps the
order of releases that agree in all three.

`firstDeployable` is the newest release that may take traffic: never a bad one,
and a failed one only while it is active.
-/
import Cutover.Schema.Object

namespace Cutover

set_option autoImplicit false

namespace Release

/-- How two releases compare in recency; the smaller is the newer. -/
def recency (a b : Release) : Ordering :=
  (compare a.info.isPersisted.toNat b.info.isPersisted.toNat).then
    ((compare b.info.createdAt a.info.createdAt).then (compare b.info.name a.info.name))

def isNewer (a b : Release) : Bool := recency a b = .lt

def sortNewestFirst (rs : List Release) : List Release :=
  rs.mergeSort fun a b => recency a b != .gt

/-- Whether a release may be given traffic. -/
def isDeployable (r : Release) : Bool :=
  r.spec.role != .bad && (r.status.state != .failed || r.spec.role = .active)

/-- The newest of some releases with their positions, the first of several. -/
def newest : List (Release × Nat) → Option (Release × Nat)
  | [] => none
  | x :: rest =>
      match newest rest with
      | none => some x
      | some y => if isNewer y.1 x.1 then some y else some x

/-- The position of the newest release that may be given traffic. -/
def firstDeployable (rs : List Release) : Option Nat :=
  (newest (rs.zipIdx.filter fun x => isDeployable x.1)).map (·.2)

end Release
end Cutover
