/-
# Cutover.Duration -- spans of time, and what to do after a pass

A duration is a whole number of nanoseconds; the longest one is what 64 bits of
seconds and the nanoseconds of one second can say, and multiplying stops there.
-/
import Cutover.Width

namespace Cutover

set_option autoImplicit false

structure Duration where
  nanos : Nat
  deriving DecidableEq, Inhabited

namespace Duration

theorem eq_zero_iff {d : Duration} : d = ⟨0⟩ ↔ d.nanos = 0 := by
  cases d
  simp

def perSecond : Nat := 1000000000

def ofSeconds (seconds : Nat) : Duration := ⟨seconds * perSecond⟩

def ofMillis (millis : Nat) : Duration := ⟨millis * 1000000⟩

def ofParts (seconds nanos : Nat) : Duration := ⟨seconds * perSecond + nanos⟩

/-- Whole seconds. -/
def seconds (d : Duration) : Nat := d.nanos / perSecond

/-- Nanoseconds beyond the whole seconds. -/
def subsecond (d : Duration) : Nat := d.nanos % perSecond

def longest : Duration := ⟨Width.bits64 * perSecond - 1⟩

/-- A multiple, or the longest duration where that is shorter. -/
def times (d : Duration) (n : Nat) : Duration := ⟨min (d.nanos * n) longest.nanos⟩

def least (d e : Duration) : Duration := ⟨min d.nanos e.nanos⟩

end Duration

/-- What is to happen to a key after a successful pass. -/
inductive Action where
  /-- Wait for the next change. -/
  | awaitChange
  /-- Look again after a while, or sooner if something changes. -/
  | requeue (after : Duration)
  deriving DecidableEq

end Cutover
