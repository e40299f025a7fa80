/-
# Cutover.Toml.Quoted -- the four forms of a string

A string stands between quotes, with escapes, or between apostrophes, as it is; three
of either may hold line breaks, and the first break after them does not count.

`Quoted.write` prefers the form in which nothing needs an escape: quotes, then
apostrophes, then three quotes, then three apostrophes.  A text that fits none of
them is written between quotes with escapes, three of them if it has line breaks.
-/
import Cutover.Text.Hexadecimal
import Cutover.Toml.Scan

namespace Cutover.Toml.Quoted

set_option autoImplicit false

/-! ## Reading -/

/-- The character that so many hexadecimal digits name. -/
def codePoint? (count : Nat) (cs : List Char) : Option (Char × Nat) := do
  let digits := cs.take count
  if digits.length < count then failure
  let n ← Text.hexNumber? digits
  if n.isValidChar then return (Char.ofNat n, count + 1) else failure

/-- The character that an escape names, and the length of the escape after its
backslash. -/
def escape? : List Char → Option (Char × Nat)
  | 'b' :: _ => some ('\x08', 1)
  | 't' :: _ => some ('\t', 1)
  | 'n' :: _ => some ('\n', 1)
  | 'f' :: _ => some ('\x0c', 1)
  | 'r' :: _ => some ('\r', 1)
  | '"' :: _ => some ('"', 1)
  | '\\' :: _ => some ('\\', 1)
  | 'u' :: rest => codePoint? 4 rest
  | 'U' :: rest => codePoint? 8 rest
  | _ => none

/-- The text up to a closing quote, and what follows it. -/
def basic : List Char → Option (List Char × List Char)
  | [] => none
  | '"' :: rest => some ([], rest)
  | '\\' :: rest => do
      let (c, length) ← escape? rest
      let (s, left) ← basic (rest.drop length)
      return (c :: s, left)
  | c :: rest => do
      if isPlain c then
        let (s, left) ← basic rest
        return (c :: s, left)
      else failure
termination_by cs => cs.length
decreasing_by
  · simp only [List.length_cons, List.length_drop]; omega
  · simp

/-- The text up to a closing apostrophe, and what follows it. -/
def literal : List Char → Option (List Char × List Char)
  | [] => none
  | c :: rest =>
      if c = '\'' then some ([], rest)
      else if isPlain c then (literal rest).map fun (s, left) => (c :: s, left)
      else none

/-- What follows blanks and line breaks. -/
def afterBreaks : List Char → List Char
  | ' ' :: rest => afterBreaks rest
  | '\t' :: rest => afterBreaks rest
  | '\n' :: rest => afterBreaks rest
  | '\r' :: '\n' :: rest => afterBreaks rest
  | cs => cs

theorem length_afterBreaks_le (cs : List Char) : (afterBreaks cs).length ≤ cs.length := by
  fun_induction afterBreaks cs <;> simp <;> omega

/-- What a backslash at the end of a line joins to that line; nothing if it stands
elsewhere. -/
def joined? (cs : List Char) : Option (List Char) :=
  match cs.dropWhile isBlank with
  | '\n' :: _ => some (afterBreaks cs)
  | '\r' :: '\n' :: _ => some (afterBreaks cs)
  | _ => none

theorem length_of_joined {cs rest : List Char} (h : joined? cs = some rest) :
    rest.length ≤ cs.length := by
  unfold joined? at h
  split at h
  · exact (Option.some.inj h) ▸ length_afterBreaks_le cs
  · exact (Option.some.inj h) ▸ length_afterBreaks_le cs
  · cases h

/-- A closing run of three to five marks: those beyond three are part of the text. -/
def closing? (mark : Char) (cs : List Char) : Option (List Char × List Char) :=
  let run := (cs.takeWhile (· = mark)).length
  if run < 3 then none
  else
    let inner := min (run - 3) 2
    some (List.replicate inner mark, cs.drop (inner + 3))

/-- The text up to three closing quotes, and what follows them. -/
def multilineBasic (cs : List Char) : Option (List Char × List Char) :=
  match closing? '"' cs with
  | some closed => some closed
  | none =>
      match cs with
      | '\\' :: rest =>
          match _joined : joined? rest with
          | some left => multilineBasic left
          | none => do
              let (c, length) ← escape? rest
              let (s, left) ← multilineBasic (rest.drop length)
              return (c :: s, left)
      | '\r' :: '\n' :: rest =>
          (multilineBasic rest).map fun (s, left) => ('\n' :: s, left)
      | c :: rest =>
          if isPlain c || c = '\n' then
            (multilineBasic rest).map fun (s, left) => (c :: s, left)
          else none
      | [] => none
termination_by cs.length
decreasing_by
  all_goals try simp <;> omega
  all_goals
    have := length_of_joined _joined
    simp
    omega

/-- The text up to three closing apostrophes, and what follows them. -/
def multilineLiteral (cs : List Char) : Option (List Char × List Char) :=
  match closing? '\'' cs with
  | some closed => some closed
  | none =>
      match cs with
      | '\r' :: '\n' :: rest =>
          (multilineLiteral rest).map fun (s, left) => ('\n' :: s, left)
      | c :: rest =>
          if isPlain c || c = '\n' then
            (multilineLiteral rest).map fun (s, left) => (c :: s, left)
          else none
      | [] => none

/-- What follows a line break, if there is one. -/
def afterFirstBreak : List Char → List Char
  | '\n' :: rest => rest
  | '\r' :: '\n' :: rest => rest
  | cs => cs

/-- The text of a string in one of the two forms for one line. -/
def lineText : List Char → Option (List Char × List Char)
  | '"' :: rest => basic rest
  | '\'' :: rest => literal rest
  | _ => none

/-- The text of a string in any of the four forms. -/
def anyText : List Char → Option (List Char × List Char)
  | '"' :: '"' :: '"' :: rest => multilineBasic (afterFirstBreak rest)
  | '\'' :: '\'' :: '\'' :: rest => multilineLiteral (afterFirstBreak rest)
  | cs => lineText cs

def line : Scan String := fun cs => (lineText cs).map fun (s, left) => (String.ofList s, left)

def any : Scan String := fun cs => (anyText cs).map fun (s, left) => (String.ofList s, left)

/-! ## Writing -/

/-- Whether a character can only be written as an escape. -/
def isControl (c : Char) : Bool := !isPlain c && c ≠ '\n'

/-- The length of the longest run of a character. -/
def longestRun (mark : Char) (cs : List Char) : Nat :=
  let step (lengths : Nat × Nat) (c : Char) : Nat × Nat :=
    let run := if c = mark then lengths.1 + 1 else 0
    (run, max lengths.2 run)
  (cs.foldl step (0, 0)).2

/-- A character between quotes. -/
def escaped (c : Char) : List Char :=
  let upper (n : Nat) : Char := (Text.hexDigit n).toUpper
  if c = '"' then ['\\', '"']
  else if c = '\\' then ['\\', '\\']
  else if c = '\x08' then ['\\', 'b']
  else if c = '\t' then ['\\', 't']
  else if c = '\n' then ['\\', 'n']
  else if c = '\x0c' then ['\\', 'f']
  else if c = '\r' then ['\\', 'r']
  else if isPlain c then [c]
  else ['\\', 'u', '0', '0', upper (c.toNat / 16), upper (c.toNat % 16)]

/-- A text between three quotes: breaks stay, and so do two quotes in a row. -/
def multilineEscaped : Nat → List Char → List Char
  | _, [] => []
  | run, c :: rest =>
      if c = '\n' then '\n' :: multilineEscaped 0 rest
      else if c = '"' ∧ run < 2 then '"' :: multilineEscaped (run + 1) rest
      else escaped c ++ multilineEscaped 0 rest

def basicForm (cs : List Char) : List Char := '"' :: (cs.flatMap escaped ++ ['"'])

def literalForm (cs : List Char) : List Char := '\'' :: (cs ++ ['\''])

def multilineBasicForm (cs : List Char) : List Char :=
  ['"', '"', '"', '\n'] ++ multilineEscaped 0 cs ++ ['"', '"', '"']

def multilineLiteralForm (cs : List Char) : List Char :=
  ['\'', '\'', '\'', '\n'] ++ cs ++ ['\'', '\'', '\'']

/-- The preferred form of a text. -/
def form (cs : List Char) : List Char :=
  let controls := cs.any isControl
  let breaks := cs.contains '\n'
  let backslashes := cs.contains '\\'
  let quotes := longestRun '"' cs
  let apostrophes := longestRun '\'' cs
  if !controls && !backslashes && !breaks && quotes = 0 then basicForm cs
  else if !controls && !breaks && apostrophes = 0 then literalForm cs
  else if !controls && !backslashes && quotes ≤ 2 then multilineBasicForm cs
  else if !controls && apostrophes ≤ 2 then multilineLiteralForm cs
  else if breaks then multilineBasicForm cs
  else basicForm cs

def write (s : String) : String := String.ofList (form s.toList)

end Cutover.Toml.Quoted
