/-
# Cutover.Scaling.Decision -- how many instances an autoscaler wants

The wanted count is the current one times the ratio of measured to aimed-for CPU
use, rounded up, where the ratio is off by more than a tenth, and always within the
autoscaler's bounds.  A move up (down) waits until the up (down) window since the
last one of the same autoscaler has passed; nothing else is remembered.  The clock
counts whole seconds, and of a window the whole seconds are waited for.
-/
import Cutover.Duration
import Cutover.Schema.Object

namespace Cutover

set_option autoImplicit false

/-- When an autoscaler last moved up and down; zero before the first time. -/
structure ScaleTimes where
  up : Nat
  down : Nat
  deriving DecidableEq, Inhabited

/-- The time between two moves in one direction, and the moves made so far by the key
of the autoscaler. -/
structure Scaler where
  upWindow : Duration
  downWindow : Duration
  times : Dict ScaleTimes
  deriving DecidableEq

namespace Scaler

/-- A scaler that has made no move. -/
def withWindows (upWindow downWindow : Duration) : Scaler := ⟨upWindow, downWindow, ∅⟩

/-- A scaler that has made no move, with windows of whole seconds. -/
def fresh (upWindow downWindow : Nat) : Scaler :=
  withWindows (.ofSeconds upWindow) (.ofSeconds downWindow)

def standard : Scaler := fresh 0 300

/-- Utilisation within this fraction of the aim is left alone. -/
def tolerance : Float := 0.1

/-- The count that would bring the utilisation to its aim, at most what 32 bits
hold. -/
def scaledCount (current utilization target : Nat) : Nat :=
  let ratio := Float.ofNat utilization / Float.ofNat target
  if (ratio - 1.0).abs > tolerance then
    ((Float.ofNat current * ratio).ceil).toUInt32.toNat
  else current

/-- The lower bound of an autoscaler, never zero. -/
def lowerBound (a : AutoscalerSpec) : Nat := max a.minReplicas 1

/-- The upper bound of an autoscaler, never below the lower. -/
def upperBound (a : AutoscalerSpec) : Nat := max a.maxReplicas (lowerBound a)

/-- The count wanted for a current one and a measured utilisation. -/
def wanted (a : AutoscalerSpec) (current : Nat) (utilization : Option Nat) : Nat :=
  let aim := match utilization with
    | some u => if a.targetUtilization > 0 then scaledCount current u a.targetUtilization else current
    | none => current
  min (max aim (lowerBound a)) (upperBound a)

/-- The new count of one autoscaler's group, or nothing, and the scaler after it.  A
group of no instances is halted or draining and left alone. -/
def evaluate (s : Scaler) (key : String) (a : AutoscalerSpec) (current : Nat)
    (utilization : Option Nat) (now : Nat) : Option Nat × Scaler :=
  let n := wanted a current utilization
  let last := (s.times.get? key).getD default
  if current = 0 ∨ n = current then (none, s)
  else if current < n then
    if now - last.up < s.upWindow.seconds then (none, s)
    else (some n, { s with times := s.times.insert key { last with up := now } })
  else
    if now - last.down < s.downWindow.seconds then (none, s)
    else (some n, { s with times := s.times.insert key { last with down := now } })

end Scaler
end Cutover
