/-
# Cutover.Main -- the daemon's command line

Prints the standard settings, or runs the control plane over an empty store until it
is interrupted.  Arguments that are not understood end with code 2, settings that
cannot be read with code 1.
-/
import Cutover.CommandLine
import Cutover.Control.Daemon
import Std.Time.DateTime.Timestamp

set_option autoImplicit false

namespace Cutover

/-- The text of a file, nothing if there is no such file. -/
def fileText? (path : String) : IO (Option String) := do
  match ← (IO.FS.readFile path).toBaseIO with
  | .ok text => return some text
  | .error (.noFileOrDirectory ..) => return none
  | .error e => throw e

/-- Move a control plane along with the time since it was started. -/
partial def serve (start : Nat) (d : Control.Daemon) : IO Unit := do
  let elapsed := (← IO.monoNanosNow) - start
  let d := (d.advance elapsed).turn
  let pause := (d.nextDue - elapsed) / 1000000 + 1
  IO.sleep (UInt32.ofNat (min pause 1000))
  serve start d

/-- Run the control plane with the settings of a file and of the command line. -/
def runDaemon (config : Option String) (overrides : Overrides) : IO UInt32 := do
  let text ← match config with
    | some path => fileText? path
    | none => pure none
  match Settings.load? text with
  | none =>
      IO.eprintln "the settings cannot be read"
      return 1
  | some settings =>
      let settings := settings.override overrides
      let clock := (← Std.Time.Timestamp.now).toSecondsSinceUnixEpoch.val.toNat
      let c := settings.controller
      serve (← IO.monoNanosNow)
        (.fresh (.empty clock) clock c.pacing c.resyncInterval c.autoscaleInterval)
      return 0

end Cutover

def main (arguments : List String) : IO UInt32 := do
  match Cutover.CommandLine.parse? arguments with
  | none =>
      IO.eprintln "usage: run [options] | default-config"
      return 2
  | some .defaultConfig =>
      IO.print (Cutover.Settings.standard.toText?.getD "")
      return 0
  | some (.run config overrides) => Cutover.runDaemon config overrides
