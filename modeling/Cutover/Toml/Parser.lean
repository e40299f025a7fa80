/-
# Cutover.Toml.Parser -- reading TOML text

A document has one statement a line.  A key is a path of parts, bare or quoted, with
dots between them; an array may spread over several lines, a table in braces may not.
Arrays and tables are nested less than eighty deep, and so are keys.

Each statement and each item of an array takes at least one character, so the length
of the text bounds their number, which is the fuel given to the loops.
-/
import Cutover.Toml.Document
import Cutover.Toml.Number
import Cutover.Toml.Quoted

namespace Cutover.Toml

set_option autoImplicit false

namespace Parser

open Scan

/-- Containers within containers, and parts of a key. -/
def depthLimit : Nat := 79

/-! ## Keys -/

def isBare (c : Char) : Bool := c.isAlphanum || c = '_' || c = '-'

def bareKey : Scan String := do
  let cs ← many isBare
  if cs.isEmpty then refuse
  return String.ofList cs

def keyPart : Scan String := do
  blanks
  let part ← Quoted.line <|> bareKey
  blanks
  return part

/-- The parts of a key up to the first that no dot follows. -/
def keyParts : Nat → Scan (List String)
  | 0 => refuse
  | n + 1 => do
      let part ← keyPart
      match ← optional (char '.') with
      | some _ => return part :: (← keyParts n)
      | none => return [part]

def key : Scan (List String) := keyParts depthLimit

/-! ## Values -/

def boolean : Scan Toml :=
  (do word ['t', 'r', 'u', 'e']; return .bool true) <|>
    (do word ['f', 'a', 'l', 's', 'e']; return .bool false)

def scalar : Scan Toml :=
  (do return .str (← Quoted.any)) <|> boolean <|> Number.any

/-- The items of an array up to its closing bracket. -/
def items (item : Scan Toml) : Nat → Scan (List Toml)
  | 0 => refuse
  | n + 1 => do
      gap
      match ← optional (char ']') with
      | some _ => return []
      | none =>
          let first ← item
          gap
          match ← one fun c => c = ',' || c = ']' with
          | ',' => return first :: (← items item n)
          | _ => return [first]

/-- A key and its value. -/
def pair (item : Scan Toml) : Scan (List String × Toml) := do
  let path ← key
  char '='
  blanks
  let v ← item
  return (path, v)

/-- The keys and values of a table in braces, after the first brace. -/
def pairs (item : Scan Toml) : Nat → Scan (List (List String × Toml))
  | 0 => refuse
  | n + 1 => do
      let first ← pair item
      blanks
      match ← one fun c => c = ',' || c = '\x7d' with
      | ',' => return first :: (← pairs item n)
      | _ => return [first]

def array (item : Scan Toml) : Scan Toml := do
  char '['
  let length := (← get).length
  return .arr (← items item (length + 1))

def table (item : Scan Toml) : Scan Toml := do
  char '\x7b'
  blanks
  match ← optional (char '\x7d') with
  | some _ => return .table []
  | none =>
      let length := (← get).length
      accept (inlineTable? (← pairs item length))

/-- A value with so many containers nested in it. -/
def value : Nat → Scan Toml
  | 0 => scalar
  | depth + 1 => array (value depth) <|> table (value depth) <|> scalar

/-! ## Statements -/

/-- The header of a table or of one more table of an array. -/
def header : Scan Statement := do
  match ← optional (word ['[', '[']) with
  | some _ =>
      let path ← key
      word [']', ']']
      return .tables path
  | none =>
      char '['
      let path ← key
      char ']'
      return .table path

def statement : Scan Statement := do
  match ← peek with
  | some '[' => header
  | _ =>
      let (path, v) ← pair (value depthLimit)
      return .assign path v

/-- The statements up to the end of the text. -/
def statements : Nat → Scan (List Statement)
  | 0 => refuse
  | n + 1 => do
      blanks
      match ← peek with
      | none => return []
      | some c =>
          if c = '#' ∨ c = '\n' ∨ c = '\r' then
            lineEnd
            statements n
          else
            let first ← statement
            lineEnd
            return first :: (← statements n)

/-- The text after the mark of its encoding. -/
def afterMark : List Char → List Char
  | '\ufeff' :: rest => rest
  | cs => cs

end Parser

/-- The document that a text writes. -/
def parse? (text : String) : Option Toml :=
  let cs := Parser.afterMark text.toList
  match Parser.statements (cs.length + 1) cs with
  | some (l, _) => ofStatements? l
  | none => none

end Cutover.Toml
