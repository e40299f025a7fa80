/-
# Cutover.Settings -- how the control plane is run

Settings come in three sections: where objects are stored, how the controllers work,
and what is logged.  They are read from a TOML document in which every setting may be
left out (`Settings.ofText?`), and single ones are overridden by the command line
(`Settings.override`).

The numbers are kept as they were given; where they are used there is always a worker
and always a second (`ControllerSettings.pacing`).
-/
import Cutover.Control.Controller
import Cutover.Json.Record
import Cutover.Toml.Parser
import Cutover.Toml.Printer

namespace Cutover

set_option autoImplicit false

/-! ## Storage -/

structure StoreSettings where
  dataDir : String
  inMemory : Bool
  deriving DecidableEq

namespace StoreSettings

def standard : StoreSettings := { dataDir := "/var/lib/flotilla", inMemory := false }

def toJson (s : StoreSettings) : Json :=
  .obj [("data_dir", .str s.dataDir), ("in_memory", .bool s.inMemory)]

def ofToml? (t : Toml) : Option StoreSettings := do
  if !t.isSection then failure
  return {
    dataDir := ← t.setting "data_dir" 0 standard.dataDir Toml.text?
    inMemory := ← t.setting "in_memory" 1 standard.inMemory Toml.bool? }

def toSection (s : StoreSettings) : Toml.Section :=
  ⟨"store", [("data_dir", .str s.dataDir), ("in_memory", .bool s.inMemory)]⟩

end StoreSettings

/-! ## Controllers -/

/-- Workers of each controller, and intervals in seconds. -/
structure ControllerSettings where
  workers : Nat
  resyncSeconds : Nat
  maxBackoffSeconds : Nat
  autoscaleSeconds : Nat
  deriving DecidableEq

namespace ControllerSettings

def standard : ControllerSettings :=
  { workers := 4, resyncSeconds := 300, maxBackoffSeconds := 60, autoscaleSeconds := 30 }

def toJson (s : ControllerSettings) : Json :=
  .obj [
    ("workers", .nat s.workers),
    ("resync_interval_secs", .nat s.resyncSeconds),
    ("max_backoff_secs", .nat s.maxBackoffSeconds),
    ("autoscale_interval_secs", .nat s.autoscaleSeconds)]

open Json.Reader in
def ofJson? : Json → Option ControllerSettings := read? do
  return {
    workers := ← defaulted "workers" standard.workers Json.nat64?
    resyncSeconds := ← defaulted "resync_interval_secs" standard.resyncSeconds Json.nat64?
    maxBackoffSeconds := ← defaulted "max_backoff_secs" standard.maxBackoffSeconds Json.nat64?
    autoscaleSeconds := ← defaulted "autoscale_interval_secs" standard.autoscaleSeconds Json.nat64? }

def ofToml? (t : Toml) : Option ControllerSettings := do
  if !t.isSection then failure
  return {
    workers := ← t.setting "workers" 0 standard.workers Toml.nat64?
    resyncSeconds := ← t.setting "resync_interval_secs" 1 standard.resyncSeconds Toml.nat64?
    maxBackoffSeconds := ← t.setting "max_backoff_secs" 2 standard.maxBackoffSeconds Toml.nat64?
    autoscaleSeconds := ←
      t.setting "autoscale_interval_secs" 3 standard.autoscaleSeconds Toml.nat64? }

def toSection (s : ControllerSettings) : Toml.Section :=
  ⟨"controller", [
    ("workers", .nat s.workers),
    ("resync_interval_secs", .nat s.resyncSeconds),
    ("max_backoff_secs", .nat s.maxBackoffSeconds),
    ("autoscale_interval_secs", .nat s.autoscaleSeconds)]⟩

/-- The pacing of both controllers. -/
def pacing (s : ControllerSettings) : Control.Pacing :=
  { workers := max s.workers 1
    initialBackoff := Control.Pacing.standard.initialBackoff
    maxBackoff := .ofSeconds (max s.maxBackoffSeconds 1) }

/-- Seconds between two resyncs. -/
def resyncInterval (s : ControllerSettings) : Nat := max s.resyncSeconds 1

/-- Seconds between two rounds of the scaler. -/
def autoscaleInterval (s : ControllerSettings) : Nat := max s.autoscaleSeconds 1

end ControllerSettings

/-! ## Logs -/

inductive LogFormat where
  | text
  | json
  deriving DecidableEq

namespace LogFormat

def names : List (String × LogFormat) := [("text", text), ("json", json)]

def name : LogFormat → String
  | text => "text"
  | json => "json"

end LogFormat

structure LogSettings where
  format : LogFormat
  filter : Option String
  deriving DecidableEq

namespace LogSettings

def standard : LogSettings := { format := .text, filter := none }

/-- What is logged where no filter is given. -/
def defaultFilter : String := "info,flotillad=debug,flotilla=debug"

def effectiveFilter (s : LogSettings) : String := s.filter.getD defaultFilter

def toJson (s : LogSettings) : Json :=
  .obj (("format", .str s.format.name) :: Json.optional "filter" .str s.filter)

def ofToml? (t : Toml) : Option LogSettings := do
  if !t.isSection then failure
  return {
    format := ← t.setting "format" 0 standard.format (Toml.choice? LogFormat.names)
    filter := ← t.setting "filter" 1 standard.filter fun v => v.text?.map some }

def toSection (s : LogSettings) : Toml.Section :=
  ⟨"log", ("format", .str s.format.name) ::
    (s.filter.map fun filter => ("filter", Toml.Scalar.str filter)).toList⟩

end LogSettings

/-! ## All of them -/

structure Settings where
  store : StoreSettings
  controller : ControllerSettings
  log : LogSettings
  deriving DecidableEq

/-- Single settings given on the command line; a flag can only switch on. -/
structure Overrides where
  dataDir : Option String
  inMemory : Bool
  workers : Option Nat
  resyncSeconds : Option Nat
  jsonLogs : Bool
  deriving DecidableEq

namespace Settings

def standard : Settings := ⟨.standard, .standard, .standard⟩

def toJson (s : Settings) : Json :=
  .obj [("store", s.store.toJson), ("controller", s.controller.toJson), ("log", s.log.toJson)]

def ofToml? (t : Toml) : Option Settings := do
  return {
    store := ← t.setting "store" 0 StoreSettings.standard StoreSettings.ofToml?
    controller := ← t.setting "controller" 1 ControllerSettings.standard ControllerSettings.ofToml?
    log := ← t.setting "log" 2 LogSettings.standard LogSettings.ofToml? }

/-- The settings that the text of a file gives. -/
def ofText? (text : String) : Option Settings := (Toml.parse? text).bind ofToml?

/-- The settings of a file, if there is one, and else the standard ones. -/
def load? (text : Option String) : Option Settings :=
  match text with
  | some text => ofText? text
  | none => some standard

/-- The text of a file with these settings, unless a number is too large for it. -/
def toText? (s : Settings) : Option String :=
  Toml.write? [s.store.toSection, s.controller.toSection, s.log.toSection]

def override (s : Settings) (o : Overrides) : Settings :=
  { store := {
      dataDir := o.dataDir.getD s.store.dataDir
      inMemory := o.inMemory || s.store.inMemory }
    controller := { s.controller with
      workers := o.workers.getD s.controller.workers
      resyncSeconds := o.resyncSeconds.getD s.controller.resyncSeconds }
    log := { s.log with format := if o.jsonLogs then .json else s.log.format } }

end Settings
end Cutover
