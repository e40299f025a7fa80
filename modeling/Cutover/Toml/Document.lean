/-
# Cutover.Toml.Document -- tables built from statements

A document is a sequence of statements: the header of a table, the header of one more
table of an array, and an assignment to a key of the table opened last.  Besides its
entries a table of a document remembers how it came to be (`Origin`): by a header, on
the way to the table of a header, or through a dotted key.

A table may be given one header, and a dotted key may pass through tables of the last
two origins only and ends in one that dotted keys began.  On its way a key goes on in
the last table of an array.
-/
import Cutover.Toml.Basic

namespace Cutover.Toml

set_option autoImplicit false

/-- How a table came to be. -/
inductive Origin where
  | headed
  | passed
  | dotted
  deriving DecidableEq

/-- What a key of a document stands for. -/
inductive Node where
  | value (v : Toml)
  | table (origin : Origin) (entries : List (String × Node))
  | tables (items : List (List (String × Node)))

/-- The keys of a table under construction. -/
abbrev Entries := List (String × Node)

namespace Entries

/-- Put a node in place of what a key had. -/
def replace (entries : Entries) (key : String) (node : Node) : Entries :=
  entries.map fun entry => if entry.1 = key then (key, node) else entry

/-- Give a key that is still free a value; the path before it leads through dotted
tables. -/
def assign (v : Toml) : List String → Entries → Option Entries
  | [], _ => none
  | [key], entries =>
      if (lookup key entries).isSome then none else some (entries ++ [(key, .value v)])
  | key :: next :: rest, entries =>
      match lookup key entries with
      | none => (assign v (next :: rest) []).map fun sub => entries ++ [(key, .table .dotted sub)]
      | some (.table .dotted sub) =>
          (assign v (next :: rest) sub).map fun sub => entries.replace key (.table .dotted sub)
      | some (.table .passed sub) =>
          if rest.isEmpty then none
          else (assign v (next :: rest) sub).map fun sub => entries.replace key (.table .passed sub)
      | some (.tables items) =>
          if rest.isEmpty then none
          else do
            let sub ← assign v (next :: rest) (← items.getLast?)
            return entries.replace key (.tables (items.dropLast ++ [sub]))
      | _ => none

/-- Change the table that a path of headers leads to. -/
def update (change : Entries → Option Entries) : List String → Entries → Option Entries
  | [], entries => change entries
  | key :: rest, entries =>
      match lookup key entries with
      | none => (update change rest []).map fun sub => entries ++ [(key, .table .passed sub)]
      | some (.table origin sub) =>
          (update change rest sub).map fun sub => entries.replace key (.table origin sub)
      | some (.tables items) => do
          let sub ← update change rest (← items.getLast?)
          return entries.replace key (.tables (items.dropLast ++ [sub]))
      | some (.value _) => none

/-- Open the table of a header. -/
def begin (key : String) (entries : Entries) : Option Entries :=
  match lookup key entries with
  | none => some (entries ++ [(key, .table .headed [])])
  | some (.table .passed sub) => some (entries.replace key (.table .headed sub))
  | _ => none

/-- Open one more table of an array. -/
def append (key : String) (entries : Entries) : Option Entries :=
  match lookup key entries with
  | none => some (entries ++ [(key, .tables [[]])])
  | some (.tables items) => some (entries.replace key (.tables (items ++ [[]])))
  | _ => none

end Entries

mutual

/-- The value that a node stands for. -/
def Node.toToml : Node → Toml
  | .value v => v
  | .table _ entries => .table (fieldsOf entries)
  | .tables items => .arr (tablesOf items)

/-- The fields of a finished table. -/
def fieldsOf : List (String × Node) → List (String × Toml)
  | [] => []
  | (key, node) :: rest => (key, node.toToml) :: fieldsOf rest

/-- The tables of a finished array. -/
def tablesOf : List (List (String × Node)) → List Toml
  | [] => []
  | entries :: rest => .table (fieldsOf entries) :: tablesOf rest

end

/-- A table written on one line, from its keys and values. -/
def inlineTable? (pairs : List (List String × Toml)) : Option Toml :=
  (pairs.foldlM (fun entries pair => Entries.assign pair.2 pair.1 entries) []).map
    fun entries => .table (fieldsOf entries)

/-- One statement of a document. -/
inductive Statement where
  | table (path : List String)
  | tables (path : List String)
  | assign (path : List String) (v : Toml)

/-- A document as far as it has been read: its tables, and the path of the one opened
last. -/
structure Document where
  entries : Entries
  current : List String

namespace Document

def empty : Document := ⟨[], []⟩

/-- Open the table at the end of a path. -/
def opened (d : Document) (path : List String) (change : String → Entries → Option Entries) :
    Option Document := do
  let entries ← d.entries.update (change (← path.getLast?)) path.dropLast
  return ⟨entries, path⟩

/-- Follow one statement, if the tables allow it. -/
def follow (d : Document) : Statement → Option Document
  | .table path => d.opened path Entries.begin
  | .tables path => d.opened path Entries.append
  | .assign path v => do
      let entries ← d.entries.update (Entries.assign v path) d.current
      return { d with entries }

def toToml (d : Document) : Toml := .table (fieldsOf d.entries)

end Document

/-- The document that some statements make. -/
def ofStatements? (statements : List Statement) : Option Toml :=
  (statements.foldlM Document.follow .empty).map Document.toToml

end Cutover.Toml
