/-
# Cutover.CommandLine -- the arguments of the daemon

There are two commands: one prints the standard settings as a file, the other runs
the control plane, with options that take a value and flags that do not.  An option
is given at most once, its value as the next argument or after an equals sign; a next
argument that starts with a hyphen and is longer than that is an option itself.  What
is not understood is refused as a whole.
-/
import Cutover.Settings
import Cutover.Width

namespace Cutover.CommandLine

set_option autoImplicit false

/-- What the daemon is asked to do. -/
inductive Command where
  | defaultConfig
  | run (config : Option String) (overrides : Overrides)
  deriving DecidableEq

/-! ## Splitting arguments -/

/-- An option or flag as it is given, a value beside it if it has one. -/
structure Given where
  name : String
  value : Option String
  deriving DecidableEq

inductive Takes where
  | value
  | nothing
  deriving DecidableEq

/-- The options of the running daemon. -/
def options : List (String × Takes) :=
  [ ("config", .value), ("data-dir", .value), ("in-memory", .nothing), ("workers", .value),
    ("resync-secs", .value), ("json-logs", .nothing) ]

def takes? (name : String) : Option Takes := (options.find? (·.1 = name)).map (·.2)

/-- The name behind two hyphens, and the value after the first equals sign. -/
def long? (argument : String) : Option Given :=
  match argument.toList with
  | '-' :: '-' :: text =>
      let name := String.ofList (text.takeWhile (· ≠ '='))
      match text.dropWhile (· ≠ '=') with
      | _ :: value => some ⟨name, some (String.ofList value)⟩
      | [] => some ⟨name, none⟩
  | _ => none

/-- Whether an argument stands for an option and not for a value. -/
def isOption (argument : String) : Bool :=
  match argument.toList with
  | '-' :: _ :: _ => true
  | _ => false

/-- The options that some arguments give, if all of them are options of ours. -/
def split? : List String → Option (List Given)
  | [] => some []
  | ["--"] => some []
  | argument :: rest => do
      let given ← long? argument
      match ← takes? given.name, given.value, rest with
      | .nothing, none, rest => return given :: (← split? rest)
      | .nothing, some _, _ => failure
      | .value, some _, rest => return given :: (← split? rest)
      | .value, none, value :: rest =>
          if isOption value then failure
          else return ⟨given.name, some value⟩ :: (← split? rest)
      | .value, none, [] => failure

/-! ## Reading values -/

/-- A count of at most 64 bits: decimal digits, perhaps after a plus sign. -/
def count? (text : String) : Option Nat :=
  let digits := match text.toList with
    | '+' :: rest => rest
    | cs => cs
  let n := digits.foldl (fun n c => n * 10 + (c.toNat - 48)) 0
  if !digits.isEmpty && digits.all Char.isDigit && n < Width.bits64 then some n else none

/-- A path may not be empty. -/
def path? (text : String) : Option String := if text = "" then none else some text

def valueOf? (given : List Given) (name : String) : Option String :=
  (given.find? (·.name = name)).bind (·.value)

def isGiven (given : List Given) (name : String) : Bool := given.any (·.name = name)

/-- The value of an option, read if it is given. -/
def read? {α : Type} (given : List Given) (name : String) (read : String → Option α) :
    Option (Option α) :=
  match valueOf? given name with
  | some text => (read text).map some
  | none => some none

def hasRepetition (given : List Given) : Bool :=
  given.any fun g => (given.filter (·.name = g.name)).length > 1

/-- The command to run with some options. -/
def runWith? (given : List Given) : Option Command := do
  if hasRepetition given then failure
  let overrides : Overrides := {
    dataDir := ← read? given "data-dir" path?
    inMemory := isGiven given "in-memory"
    workers := ← read? given "workers" count?
    resyncSeconds := ← read? given "resync-secs" count?
    jsonLogs := isGiven given "json-logs" }
  return .run (← read? given "config" path?) overrides

/-- The command that some arguments give. -/
def parse? : List String → Option Command
  | ["default-config"] => some .defaultConfig
  | ["default-config", "--"] => some .defaultConfig
  | "run" :: rest => (split? rest).bind runWith?
  | _ => none

/-! ## Answers -/

/-- What a command ends with at once: its exit code and what it prints.  Running the
control plane does not end. -/
def answer? (arguments : List String) : Option (Nat × String) :=
  match parse? arguments with
  | none => some (2, "")
  | some .defaultConfig => some (0, Settings.standard.toText?.getD "")
  | some (.run ..) => none

end Cutover.CommandLine
