/-
# Cutover.Release.Retention -- old releases are dropped

Ten releases are kept whatever their age, counted newest first, and younger ones
whatever their rank.  Of the others a stored release expires unless it is active
or the target of a promotion.
-/
import Cutover.Release.Order
import Cutover.Store.Edit

namespace Cutover.Release

set_option autoImplicit false

/-- Releases that are always kept. -/
def kept : Nat := 10

/-- Seconds for which a release is kept regardless of its rank. -/
def minAge : Nat := 48 * 60 * 60

/-- Whether a release beyond the kept ones is to go. -/
def isExpired (now : Nat) (r : Release) : Bool :=
  r.info.isPersisted && r.spec.role != .active && r.spec.role != .target &&
    now - r.info.createdAt ≥ minAge

/-- The expired releases of a list sorted newest first. -/
def expired (rs : List Release) (now : Nat) : List Release :=
  (rs.drop kept).filter (isExpired now)

/-- Delete one release; whether it was there. -/
def remove (r : Release) : Pass StoreError Bool :=
  Pass.write fun s => .ok (s.delete .releases r.info.ns r.info.name)

/-- Delete the expired releases of a list sorted newest first; how many were still
there. -/
def collectGarbage (rs : List Release) (now : Nat) : Pass StoreError Nat := do
  let removed ← (expired rs now).mapM remove
  return (removed.filter id).length

end Cutover.Release
