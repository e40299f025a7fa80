/-
# Cutover.Proofs.Json.Text -- reading back what was written

The compact text of a value is read as that value (`parse?_compact`) if the value is
`Plain`: its numbers are whole and no object of it gives a name twice.

The parser is followed token by token.  One character of a string is read back from its
escape whatever follows (`string_escape`).  The digits of a number are read as far as they
go, so what follows must not go on with one (`Ends`); after a value inside another stands
a comma or a closing bracket, which does not.
-/
import Cutover.Json.Parser
import Cutover.Json.Printer
import Mathlib.Data.List.Basic
import Mathlib.Data.List.Nodup

namespace Cutover.Json

set_option autoImplicit false

/-! ## Names -/

section Names

variable {name : String} {fields : List (String × Json)}

theorem lookup_eq_none (absent : name ∉ fields.map (·.1)) : lookup name fields = none := by
  induction fields with
  | nil => rfl
  | cons field rest ih =>
      rw [List.map_cons, List.mem_cons, not_or] at absent
      rw [lookup, ih absent.2, if_neg (Ne.symm absent.1)]
      rfl

theorem distinct_eq_self (once : (fields.map (·.1)).Nodup) : distinct fields = fields := by
  induction fields with
  | nil => rfl
  | cons field rest ih =>
      obtain ⟨absent, once⟩ := List.nodup_cons.1 once
      rw [distinct, lookup_eq_none absent, ih once]
      rfl

end Names

/-- Its numbers are whole and no object in it gives a name twice. -/
inductive Plain : Json → Prop
  | null : Plain .null
  | bool (b : Bool) : Plain (.bool b)
  | int (n : Int) : Plain (.int n)
  | str (s : String) : Plain (.str s)
  | arr {items : List Json} (each : ∀ j ∈ items, Plain j) : Plain (.arr items)
  | obj {fields : List (String × Json)} (once : (fields.map (·.1)).Nodup)
      (each : ∀ field ∈ fields, Plain field.2) : Plain (.obj fields)

namespace Parser

/-! ## Strings -/

theorem hexValue?_hexDigit {n : Nat} (lt : n < 16) : Text.hexValue? (Text.hexDigit n) = some n := by
  revert n
  decide

theorem hexNumber?_hexDigits {n : Nat} (lt : n < 256) :
    Text.hexNumber? ['0', '0', Text.hexDigit (n / 16), Text.hexDigit (n % 16)] = some n := by
  have high := hexValue?_hexDigit (n := n / 16) (by omega)
  have low := hexValue?_hexDigit (n := n % 16) (by omega)
  have zero : Text.hexValue? '0' = some 0 := by decide
  simp only [Text.hexNumber?, List.mapM_cons, List.mapM_nil, high, low, zero, Option.pure_def,
    Option.bind_eq_bind, Option.bind_some, Option.map_some, List.foldl_cons, List.foldl_nil]
  congr 1
  omega

theorem longEscape?_of_lt {n : Nat} (lt : n < 0xD800) (rest : List Char) :
    longEscape? n rest = some (Char.ofNat n, 0) := by
  unfold longEscape?
  rw [if_neg (by omega), if_neg (by omega)]

/-- A character that stands for itself. -/
theorem string_cons {c : Char} (quote : c ≠ '"') (backslash : c ≠ '\\') (visible : 0x20 ≤ c.toNat)
    (rest : List Char) :
    string (c :: rest) = (string rest).map fun (s, left) => (c :: s, left) := by
  rw [string]
  · rw [if_neg (by simp [backslash]; omega)]
    cases string rest <;> rfl
  all_goals simp [quote, backslash]

/-- A character is read back from the way it is written. -/
theorem string_escape (c : Char) (rest : List Char) :
    string (escape c ++ rest) = (string rest).map fun (s, left) => (c :: s, left) := by
  have short {e : Char} (named : shortEscape? e = some c) (long : e ≠ 'u') :
      string ('\\' :: e :: rest) = (string rest).map fun (s, left) => (c :: s, left) := by
    rw [string, named]
    · cases string rest <;> rfl
    · simp [long]
  unfold escape
  split_ifs with h1 h2 h3 h4 h5 h6 h7 control
  · exact short (e := '"') (by rw [h1]; rfl) (by decide)
  · exact short (e := '\\') (by rw [h2]; rfl) (by decide)
  · exact short (e := 'b') (by rw [h3]; rfl) (by decide)
  · exact short (e := 'f') (by rw [h4]; rfl) (by decide)
  · exact short (e := 'n') (by rw [h5]; rfl) (by decide)
  · exact short (e := 'r') (by rw [h6]; rfl) (by decide)
  · exact short (e := 't') (by rw [h7]; rfl) (by decide)
  · simp only [List.cons_append, List.nil_append]
    rw [string, hexNumber?_hexDigits (by omega)]
    simp only [Option.bind_eq_bind, Option.bind_some, longEscape?_of_lt (n := c.toNat) (by omega),
      List.drop_zero, Char.ofNat_toNat]
    cases string rest <;> rfl
  · exact string_cons h1 h2 (by omega) rest

theorem string_quote (s rest : List Char) :
    string (s.flatMap escape ++ '"' :: rest) = some (s, rest) := by
  induction s with
  | nil => simp [string]
  | cons c s ih => rw [List.flatMap_cons, List.append_assoc, string_escape, ih]; rfl

/-! ## Numbers -/

/-- What does not go on with a number that stands before it. -/
def Ends (rest : List Char) : Prop :=
  ∀ c ∈ rest.head?, c.isDigit = false ∧ c ≠ '.' ∧ c ≠ 'e' ∧ c ≠ 'E'

theorem ends_nil : Ends [] := by simp [Ends]

theorem ends_comma (rest : List Char) : Ends (',' :: rest) := by simp [Ends]

theorem ends_bracket (rest : List Char) : Ends (']' :: rest) := by simp [Ends]

theorem ends_brace (rest : List Char) : Ends ('\x7d' :: rest) := by simp [Ends]

theorem takeWhile_isDigit {digits rest : List Char} (all : ∀ c ∈ digits, c.isDigit = true)
    (ends : Ends rest) : (digits ++ rest).takeWhile Char.isDigit = digits := by
  rw [List.takeWhile_append_of_pos all]
  cases rest with
  | nil => simp
  | cons c rest => simp [(ends c rfl).1]

theorem dropWhile_isDigit {digits rest : List Char} (all : ∀ c ∈ digits, c.isDigit = true)
    (ends : Ends rest) : (digits ++ rest).dropWhile Char.isDigit = rest := by
  rw [List.dropWhile_append_of_pos all]
  cases rest with
  | nil => rfl
  | cons c rest => simp [(ends c rfl).1]

theorem digitsAfter_of_not_mark {isMark : Char → Bool} {rest : List Char}
    (other : ∀ c ∈ rest.head?, isMark c = false) : digitsAfter isMark rest = some ([], rest) := by
  cases rest with
  | nil => rfl
  | cons c rest => simp [digitsAfter, other c rfl]

theorem decimal_toDigits (n : Nat) : decimal (Nat.toDigits 10 n) = n := by
  have eq : decimal (Nat.toDigits 10 n) = Nat.ofDigitChars 10 (Nat.toDigits 10 n) 0 := by
    simp [decimal, Nat.ofDigitChars, Nat.mul_comm]
  rw [eq, Nat.ofDigitChars_toDigits (by decide) (by decide)]

theorem digitChar_ne_zero : ∀ n < 10, n ≠ 0 → n.digitChar ≠ '0' := by decide

/-- Only zero is written with a zero in front. -/
theorem head?_toDigits {n : Nat} (pos : n ≠ 0) : (Nat.toDigits 10 n).head? ≠ some '0' := by
  induction n using Nat.strongRecOn with
  | _ n ih =>
      by_cases lt : n < 10
      · rw [Nat.toDigits_of_lt_base lt]
        simpa using digitChar_ne_zero n lt pos
      · rw [Nat.toDigits_of_base_le (by decide) (by omega),
          List.head?_append_of_ne_nil _ Nat.toDigits_ne_nil]
        exact ih (n / 10) (by omega) (by omega)

theorem not_leading_zero (n : Nat) : ((Nat.toDigits 10 n).isEmpty ||
    ((Nat.toDigits 10 n).head? = some '0' && (Nat.toDigits 10 n).length > 1 : Bool)) = false := by
  have some_ : (Nat.toDigits 10 n).isEmpty = false := by
    rw [List.isEmpty_eq_false_iff]; exact Nat.toDigits_ne_nil
  by_cases zero : n = 0
  · rw [zero]; decide
  · simp [some_, head?_toDigits zero]

theorem isDigit_toDigits (n : Nat) : ∀ c ∈ Nat.toDigits 10 n, c.isDigit = true :=
  fun _ => Nat.isDigit_of_mem_toDigits (by decide) (by decide)

theorem exists_toDigits (n : Nat) :
    ∃ d ds, Nat.toDigits 10 n = d :: ds ∧ d.isDigit = true := by
  cases digits : Nat.toDigits 10 n with
  | nil => exact absurd digits Nat.toDigits_ne_nil
  | cons d ds => exact ⟨d, ds, rfl, isDigit_toDigits n d (by simp [digits])⟩

section Number

variable {rest : List Char}

theorem fraction_of_ends (ends : Ends rest) : digitsAfter (· = '.') rest = some ([], rest) :=
  digitsAfter_of_not_mark fun c first => by simp [(ends c first).2.1]

theorem exponent_of_ends (ends : Ends rest) :
    digitsAfter (fun c => c = 'e' || c = 'E') rest = some ([], rest) :=
  digitsAfter_of_not_mark fun c first => by simp [(ends c first).2.2]

theorem number_toDigits (n : Nat) (ends : Ends rest) :
    number (Nat.toDigits 10 n ++ rest) = some (.int n, rest) := by
  have all := isDigit_toDigits n
  have unsigned : ∀ tail, Nat.toDigits 10 n ++ rest ≠ '-' :: tail := by
    intro tail same
    obtain ⟨d, ds, digits, digit⟩ := exists_toDigits n
    rw [digits, List.cons_append] at same
    rw [(List.cons.inj same).1] at digit
    exact absurd digit (by decide)
  unfold number
  split
  rename_i negative cs same
  split at same
  · rename_i tail starts
    exact absurd starts (unsigned tail)
  · obtain ⟨rfl, rfl⟩ := Prod.mk.inj same
    simp only [takeWhile_isDigit all ends, dropWhile_isDigit all ends, not_leading_zero,
      fraction_of_ends ends, decimal_toDigits]
    simp [exponent_of_ends ends]

theorem number_neg_toDigits {n : Nat} (pos : n ≠ 0) (ends : Ends rest) :
    number ('-' :: Nat.toDigits 10 n ++ rest) = some (.int (-n), rest) := by
  have all := isDigit_toDigits n
  unfold number
  simp only [List.cons_append, takeWhile_isDigit all ends, dropWhile_isDigit all ends,
    not_leading_zero, fraction_of_ends ends, decimal_toDigits]
  simp [exponent_of_ends ends, pos]

end Number

/-! ## Values -/

theorem skip_of_visible {c : Char} (visible : isBlank c = false) (cs : List Char) :
    skip (c :: cs) = c :: cs := List.dropWhile_cons_of_neg (by simp [visible])

/-- A character that a value starts with: no blank, and not what closes an array. -/
def Opens (c : Char) : Prop := isBlank c = false ∧ c ≠ ']'

theorem opens_of_isDigit {c : Char} (digit : c.isDigit = true) : Opens c := by
  constructor
  · simp only [isBlank, Bool.or_eq_false_iff, decide_eq_false_iff_not]
    refine ⟨⟨⟨?_, ?_⟩, ?_⟩, ?_⟩ <;> rintro rfl <;> exact absurd digit (by decide)
  · rintro rfl
    exact absurd digit (by decide)

/-- The characters of a whole number. -/
theorem chars_int (n : Int) : chars (.int n) =
    if n < 0 then '-' :: Nat.toDigits 10 n.natAbs else Nat.toDigits 10 n.natAbs := by
  cases n with
  | ofNat n => simp [chars, toString, Int.repr, Nat.repr]
  | negSucc n => simp [chars, toString, Int.repr, Nat.repr, Int.negSucc_lt_zero]

/-- The start of a value's text. -/
theorem chars_opens {j : Json} (plain : j.Plain) : ∃ c cs, chars j = c :: cs ∧ Opens c := by
  cases plain with
  | null => exact ⟨_, _, rfl, by decide, by decide⟩
  | bool b => cases b <;> exact ⟨_, _, rfl, by decide, by decide⟩
  | str s => exact ⟨_, _, rfl, by decide, by decide⟩
  | arr => exact ⟨_, _, by rw [chars], by decide, by decide⟩
  | obj => exact ⟨_, _, by rw [chars], by decide, by decide⟩
  | int n =>
      rw [chars_int]
      split
      · exact ⟨_, _, rfl, by decide, by decide⟩
      · obtain ⟨d, ds, digits, digit⟩ := exists_toDigits n.natAbs
        exact ⟨d, ds, digits, opens_of_isDigit digit⟩

theorem word_append (w rest : List Char) (j : Json) : word w j (w ++ rest) = some (j, rest) := by
  simp [word]

/-- A text that starts with a sign or a digit is read as a number. -/
theorem value_number {c : Char} {cs : List Char} (starts : c = '-' ∨ c.isDigit = true)
    (fuel : Nat) : value (fuel + 1) (c :: cs) = number (c :: cs) := by
  have visible : isBlank c = false := by
    rcases starts with rfl | digit
    · decide
    · exact (opens_of_isDigit digit).1
  rw [value, skip_of_visible visible]
  split
  all_goals first
    | rfl
    | (rename_i same; rw [(List.cons.inj same).1] at starts; exact absurd starts (by decide))

section Steps

variable {fuel : Nat} {name : String} {cs rest : List Char} {j : Json}

theorem value_list {c : Char} (opens : Opens c) :
    value (fuel + 1) ('[' :: c :: cs) =
      (items fuel (c :: cs)).map fun (l, left) => (.arr l, left) := by
  rw [value, skip_of_visible (by decide)]
  simp only [skip_of_visible opens.1]
  split
  · rename_i same
    exact absurd (List.cons.inj same).1 opens.2
  · rfl

theorem value_record : value (fuel + 1) ('\x7b' :: '"' :: cs) =
    (fields fuel ('"' :: cs)).map fun (l, left) => (.obj (distinct l), left) := by
  rw [value, skip_of_visible (by decide)]
  rfl

theorem items_last (first : value fuel cs = some (j, ']' :: rest)) :
    items (fuel + 1) cs = some ([j], rest) := by
  rw [items, first]
  rfl

theorem items_next (first : value fuel cs = some (j, ',' :: rest)) :
    items (fuel + 1) cs = (items fuel rest).map fun (l, left) => (j :: l, left) := by
  rw [items, first]
  show (items fuel rest).bind _ = _
  cases items fuel rest <;> rfl

theorem fields_last (first : value fuel cs = some (j, '\x7d' :: rest)) :
    fields (fuel + 1) (quote name ++ ':' :: cs) = some ([(name, j)], rest) := by
  rw [quote, List.cons_append, fields, skip_of_visible (by decide)]
  simp only [List.append_assoc, List.cons_append, List.nil_append, string_quote]
  show (value fuel cs).bind _ = _
  rw [first]
  simp [skip_of_visible (c := '\x7d') (by decide)]

theorem fields_next (first : value fuel cs = some (j, ',' :: rest)) :
    fields (fuel + 1) (quote name ++ ':' :: cs) =
      (fields fuel rest).map fun (l, left) => ((name, j) :: l, left) := by
  rw [quote, List.cons_append, fields, skip_of_visible (by decide)]
  simp only [List.append_assoc, List.cons_append, List.nil_append, string_quote]
  show (value fuel cs).bind _ = _
  rw [first]
  simp only [Option.bind_some, skip_of_visible (c := ',') (by decide)]
  cases fields fuel rest <;> simp

end Steps

/-! ## Whole values -/

theorem itemChars_cons (j i : Json) (l : List Json) :
    itemChars (j :: i :: l) = chars j ++ ',' :: itemChars (i :: l) := by simp [itemChars]

theorem fieldChars_single (name : String) (j : Json) :
    fieldChars [(name, j)] = quote name ++ ':' :: chars j := by simp [fieldChars]

theorem fieldChars_cons (name : String) (j : Json) (field : String × Json)
    (l : List (String × Json)) : fieldChars ((name, j) :: field :: l) =
      quote name ++ ':' :: (chars j ++ ',' :: fieldChars (field :: l)) := by simp [fieldChars]

/-- A field's name opens its text. -/
theorem fieldChars_opens (field : String × Json) (l : List (String × Json)) :
    ∃ cs, fieldChars (field :: l) = '"' :: cs := by
  cases l with
  | nil => exact ⟨_, by rw [fieldChars_single, quote, List.cons_append]⟩
  | cons => exact ⟨_, by rw [fieldChars_cons, quote, List.cons_append]⟩

theorem itemChars_opens {j : Json} (plain : j.Plain) (l : List Json) :
    ∃ c cs, itemChars (j :: l) = c :: cs ∧ Opens c := by
  obtain ⟨c, cs, same, opens⟩ := chars_opens plain
  cases l with
  | nil => exact ⟨c, cs, by rw [itemChars, same], opens⟩
  | cons => exact ⟨c, _, by rw [itemChars_cons, same, List.cons_append], opens⟩

/-- With so much fuel, the text of a value is read as the value and what stands after it is
left, and so for the values of an array and the fields of an object.  Two calls a
character are enough: one for the list that a value stands in and one for the value. -/
structure Inverts (fuel : Nat) : Prop where
  value : ∀ {j : Json} {rest : List Char}, j.Plain → 2 * (chars j).length ≤ fuel → Ends rest →
    value fuel (chars j ++ rest) = some (j, rest)
  items : ∀ {j : Json} {l : List Json} {rest : List Char}, (∀ i ∈ j :: l, i.Plain) →
    2 * (itemChars (j :: l)).length + 1 ≤ fuel →
    items fuel (itemChars (j :: l) ++ ']' :: rest) = some (j :: l, rest)
  fields : ∀ {field : String × Json} {l : List (String × Json)} {rest : List Char},
    (∀ f ∈ field :: l, f.2.Plain) → 2 * (fieldChars (field :: l)).length + 1 ≤ fuel →
    fields fuel (fieldChars (field :: l) ++ '\x7d' :: rest) = some (field :: l, rest)

namespace Inverts

theorem zero : Inverts 0 where
  value plain enough _ := by
    obtain ⟨c, cs, same, -⟩ := chars_opens plain
    rw [same] at enough
    exact absurd enough (by simp)
  items _ enough := absurd enough (by omega)
  fields _ enough := absurd enough (by omega)

variable {fuel : Nat} {rest : List Char}

theorem value_int (n : Int) (ends : Ends rest) :
    Parser.value (fuel + 1) (chars (.int n) ++ rest) = some (.int n, rest) := by
  rw [chars_int]
  split
  · rename_i negative
    rw [List.cons_append, value_number (.inl rfl), ← List.cons_append,
      number_neg_toDigits (by omega) ends]
    congr 3
    omega
  · rename_i natural
    obtain ⟨d, ds, digits, digit⟩ := exists_toDigits n.natAbs
    rw [digits, List.cons_append, value_number (.inr digit), ← List.cons_append, ← digits,
      number_toDigits n.natAbs ends]
    congr 3
    omega

theorem value_str (s : String) :
    Parser.value (fuel + 1) (chars (.str s) ++ rest) = some (.str s, rest) := by
  rw [chars, quote, List.cons_append, Parser.value, skip_of_visible (by decide)]
  simp only [List.append_assoc, List.cons_append, List.nil_append, string_quote,
    Option.map_some, String.ofList_toList]

theorem value_arr (inverts : Inverts fuel) {l : List Json} (each : ∀ j ∈ l, j.Plain)
    (enough : 2 * (chars (.arr l)).length ≤ fuel + 1) :
    Parser.value (fuel + 1) (chars (.arr l) ++ rest) = some (.arr l, rest) := by
  cases l with
  | nil => rfl
  | cons j l =>
      rw [chars] at enough ⊢
      simp only [List.length_cons, List.length_append, List.length_nil] at enough
      have inside : Parser.items fuel (itemChars (j :: l) ++ ']' :: rest) = some (j :: l, rest) :=
        inverts.items each (by omega)
      obtain ⟨c, cs, same, opens⟩ := itemChars_opens (each j (by simp)) l
      simp only [List.cons_append, List.append_assoc, List.nil_append]
      rw [same] at inside ⊢
      rw [List.cons_append, value_list opens, ← List.cons_append, inside]
      rfl

theorem value_obj (inverts : Inverts fuel) {l : List (String × Json)}
    (once : (l.map (·.1)).Nodup) (each : ∀ f ∈ l, f.2.Plain)
    (enough : 2 * (chars (.obj l)).length ≤ fuel + 1) :
    Parser.value (fuel + 1) (chars (.obj l) ++ rest) = some (.obj l, rest) := by
  cases l with
  | nil => rfl
  | cons field l =>
      rw [chars] at enough ⊢
      simp only [List.length_cons, List.length_append, List.length_nil] at enough
      have inside : Parser.fields fuel (fieldChars (field :: l) ++ '\x7d' :: rest) =
          some (field :: l, rest) := inverts.fields each (by omega)
      obtain ⟨cs, same⟩ := fieldChars_opens field l
      simp only [List.cons_append, List.append_assoc, List.nil_append]
      rw [same] at inside ⊢
      rw [List.cons_append, value_record, ← List.cons_append, inside]
      simp only [Option.map_some, distinct_eq_self once]

theorem items_succ (inverts : Inverts fuel) {j : Json} {l : List Json}
    (each : ∀ i ∈ j :: l, i.Plain) (enough : 2 * (itemChars (j :: l)).length ≤ fuel) :
    Parser.items (fuel + 1) (itemChars (j :: l) ++ ']' :: rest) = some (j :: l, rest) := by
  obtain ⟨here, there⟩ := List.forall_mem_cons.1 each
  cases l with
  | nil =>
      rw [itemChars] at enough ⊢
      exact items_last (inverts.value here enough (ends_bracket rest))
  | cons i l =>
      rw [itemChars_cons] at enough ⊢
      simp only [List.length_cons, List.length_append] at enough
      rw [List.append_assoc, List.cons_append,
        items_next (inverts.value here (by omega) (ends_comma _)),
        inverts.items there (by omega)]
      rfl

theorem fields_succ (inverts : Inverts fuel) {field : String × Json} {l : List (String × Json)}
    (each : ∀ f ∈ field :: l, f.2.Plain) (enough : 2 * (fieldChars (field :: l)).length ≤ fuel) :
    Parser.fields (fuel + 1) (fieldChars (field :: l) ++ '\x7d' :: rest) =
      some (field :: l, rest) := by
  obtain ⟨name, j⟩ := field
  obtain ⟨here : j.Plain, there⟩ := List.forall_mem_cons.1 each
  cases l with
  | nil =>
      rw [fieldChars_single] at enough ⊢
      simp only [List.length_cons, List.length_append] at enough
      rw [List.append_assoc, List.cons_append]
      exact fields_last (inverts.value here (by omega) (ends_brace rest))
  | cons field l =>
      rw [fieldChars_cons] at enough ⊢
      simp only [List.length_cons, List.length_append] at enough
      simp only [List.append_assoc, List.cons_append]
      rw [fields_next (inverts.value here (by omega) (ends_comma _)),
        inverts.fields there (by omega)]
      rfl

theorem succ (inverts : Inverts fuel) : Inverts (fuel + 1) where
  value plain enough ends := by
    cases plain with
    | null => exact word_append _ _ _
    | bool b => cases b <;> exact word_append _ _ _
    | int n => exact value_int n ends
    | str s => exact value_str s
    | arr each => exact inverts.value_arr each enough
    | obj once each => exact inverts.value_obj once each enough
  items each enough := inverts.items_succ each (by omega)
  fields each enough := inverts.fields_succ each (by omega)

end Inverts

theorem inverts (fuel : Nat) : Inverts fuel := by
  induction fuel with
  | zero => exact .zero
  | succ fuel ih => exact ih.succ

end Parser

/-- **The compact text of a plain value reads as the value.** -/
theorem parse?_compact {j : Json} (plain : j.Plain) : parse? j.compact = some j := by
  have read := (Parser.inverts (2 * (chars j).length + 2)).value plain (by omega) Parser.ends_nil
  rw [List.append_nil] at read
  unfold parse? compact
  simp only [String.toList_ofList, read]
  rfl

end Cutover.Json
