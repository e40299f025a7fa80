/-
# Cutover.Toml.Scan -- reading from the front of a text

A `Scan` takes characters off the front of a text or refuses it; refusing takes
nothing, so the next alternative starts where the first one did.  Beside the general
steps stand those that every line of a document shares: blanks, line breaks, comments
and the end of a line.

Control characters other than the tab may stand nowhere; a carriage return only
before a line feed, with which it makes one line break.
-/

namespace Cutover.Toml

set_option autoImplicit false

/-- Reads from the front of a text. -/
abbrev Scan := StateT (List Char) Option

namespace Scan

variable {α : Type}

def refuse : Scan α := fun _ => none

def accept (a : Option α) : Scan α := fun cs => a.map (·, cs)

/-- The next character, which stays where it is. -/
def peek : Scan (Option Char) := fun cs => some (cs.head?, cs)

/-- The next character, if it is of a kind. -/
def one (p : Char → Bool) : Scan Char
  | c :: rest => if p c then some (c, rest) else none
  | [] => none

def char (c : Char) : Scan Unit := discard (one (· = c))

/-- The characters of a kind up to the first that is not. -/
def many (p : Char → Bool) : Scan (List Char) := fun cs => some (cs.takeWhile p, cs.dropWhile p)

/-- A given text. -/
def word (w : List Char) : Scan Unit := fun cs => (w.isPrefixOf? cs).map ((), ·)

/-- The text that a scan takes. -/
def taken (scan : Scan α) : Scan (List Char) := fun cs =>
  (scan cs).map fun (_, rest) => (cs.take (cs.length - rest.length), rest)

end Scan

/-! ## Lines -/

/-- A character that may stand in a comment. -/
def isPlain (c : Char) : Bool := c = '\t' || (c.toNat ≥ 0x20 && c.toNat ≠ 0x7f)

def isBlank (c : Char) : Bool := c = ' ' || c = '\t'

def blanks : Scan Unit := discard (Scan.many isBlank)

def lineBreak : Scan Unit := Scan.char '\n' <|> Scan.word ['\r', '\n']

def comment : Scan Unit := do
  Scan.char '#'
  discard (Scan.many isPlain)

/-- The end of the text. -/
def ending : Scan Unit
  | [] => some ((), [])
  | _ => none

/-- The rest of a line on which nothing else stands. -/
def lineEnd : Scan Unit := do
  blanks
  discard (optional comment)
  lineBreak <|> ending

theorem length_dropWhile_le (p : Char → Bool) (cs : List Char) :
    (cs.dropWhile p).length ≤ cs.length := (List.dropWhile_sublist p).length_le

/-- What follows blanks, line breaks and whole lines of comment. -/
def afterGap? : List Char → Option (List Char)
  | ' ' :: rest => afterGap? rest
  | '\t' :: rest => afterGap? rest
  | '\n' :: rest => afterGap? rest
  | '\r' :: '\n' :: rest => afterGap? rest
  | '#' :: rest =>
      match _left : rest.dropWhile isPlain with
      | '\n' :: left => afterGap? left
      | '\r' :: '\n' :: left => afterGap? left
      | _ => none
  | cs => some cs
termination_by cs => cs.length
decreasing_by
  all_goals try simp <;> omega
  all_goals
    have := length_dropWhile_le isPlain rest
    rw [_left] at this
    simp at this ⊢
    omega

/-- What may stand between the items of an array. -/
def gap : Scan Unit := fun cs => (afterGap? cs).map ((), ·)

end Cutover.Toml
