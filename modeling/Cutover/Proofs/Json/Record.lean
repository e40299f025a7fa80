/-
# Cutover.Proofs.Json.Record -- writing and reading structures

`Lossless fits write read` says that every value that fits is written as plain JSON and
read back as it was.  It is built up along the types: texts, numbers of a width, lists,
dictionaries, names of a closed set, and optional values whose own form is never null.

A structure is written as a list of fields, some of them left out, and read by asking for
names.  What a reader of an object does is its look-ups, one after the other
(`ofRecord?_required`, `ofRecord?_defaulted`, `ofRecord?_optional`); a look-up in fields that
are put together from parts is the last part's that has the name (`lookup_append`).
-/
import Cutover.Json.Record
import Cutover.Proofs.Json.Text

namespace Cutover

set_option autoImplicit false

/-! ## Dictionaries from their entries -/

namespace Dict

variable {α : Type}

theorem get?_insertAll (d : Dict α) {pairs : List (String × α)}
    (ordered : pairs.Pairwise fun a b => a.1 < b.1) (key : String) :
    (d.insertAll pairs).get? key = (find key pairs).or (d.get? key) := by
  induction pairs generalizing d with
  | nil => rfl
  | cons pair pairs ih =>
      obtain ⟨first, ordered⟩ := List.pairwise_cons.1 ordered
      show ((d.insert pair.1 pair.2).insertAll pairs).get? key = _
      rw [ih _ ordered, get?_insert, find]
      split
      · rename_i same
        have absent : find key pairs = none := by
          refine Option.eq_none_iff_forall_ne_some.2 fun value found => ?_
          have below := first _ ((find_eq_some_iff ordered).1 found)
          exact String.lt_irrefl key (by rw [same] at below ⊢; exact below)
        rw [absent]
        rfl
      · rfl

theorem ofList_entries (d : Dict α) : ofList d.entries = d := by
  refine ext_get? fun key => ?_
  show (empty.insertAll d.entries).get? key = _
  rw [get?_insertAll _ d.ordered, get?_empty, Option.or_none]
  rfl

end Dict

namespace Json

/-! ## Fields -/

section Fields

variable {α : Type} {name other : String} {write : α → Json} {o : Option α}

@[simp] theorem lookup_nil : lookup name [] = none := rfl

@[simp] theorem lookup_cons (field : String × Json) (rest : List (String × Json)) :
    lookup name (field :: rest) =
      (lookup name rest).or (if field.1 = name then some field.2 else none) := rfl

@[simp] theorem lookup_append (front back : List (String × Json)) :
    lookup name (front ++ back) = (lookup name back).or (lookup name front) := by
  induction front with
  | nil => simp
  | cons field front ih => rw [List.cons_append, lookup_cons, lookup_cons, ih, Option.or_assoc]

@[simp] theorem lookup_optional :
    lookup other (optional name write o) = if name = other then o.map write else none := by
  cases o <;> simp [optional]

/-- The names of the fields of an object. -/
def names (fields : List (String × Json)) : List String := fields.map (·.1)

@[simp] theorem names_nil : names [] = [] := rfl

@[simp] theorem names_cons (field : String × Json) (rest : List (String × Json)) :
    names (field :: rest) = field.1 :: names rest := rfl

@[simp] theorem mem_names_append {front back : List (String × Json)} :
    name ∈ names (front ++ back) ↔ name ∈ names front ∨ name ∈ names back := by simp [names]

@[simp] theorem nodup_names_append {front back : List (String × Json)} :
    (names (front ++ back)).Nodup ↔
      (names front).Nodup ∧ (names back).Nodup ∧ ∀ name ∈ names front, name ∉ names back := by
  rw [names, List.map_append, List.nodup_append']
  rfl

@[simp] theorem mem_names_optional :
    other ∈ names (optional name write o) ↔ o.isSome = true ∧ other = name := by
  cases o <;> simp [optional]

@[simp] theorem nodup_names_optional : (names (optional name write o)).Nodup := by
  cases o <;> simp [optional]

/-- The values of all fields are plain. -/
def AllPlain (fields : List (String × Json)) : Prop := ∀ field ∈ fields, field.2.Plain

@[simp] theorem allPlain_nil : AllPlain [] := by simp [AllPlain]

@[simp] theorem allPlain_cons (field : String × Json) (rest : List (String × Json)) :
    AllPlain (field :: rest) ↔ field.2.Plain ∧ AllPlain rest := List.forall_mem_cons

@[simp] theorem allPlain_append (front back : List (String × Json)) :
    AllPlain (front ++ back) ↔ AllPlain front ∧ AllPlain back := List.forall_mem_append

end Fields

/-! ## Plain values -/

namespace Plain

@[simp] theorem of_str (s : String) : Plain (.str s) := .str s

@[simp] theorem of_bool (b : Bool) : Plain (.bool b) := .bool b

@[simp] theorem of_nat (n : Nat) : Plain (.nat n) := .int n

@[simp] theorem of_int (n : Int) : Plain (.int n) := .int n

/-- An object is plain if its names are distinct and its values plain. -/
@[simp] theorem obj_iff {fields : List (String × Json)} :
    Plain (.obj fields) ↔ (names fields).Nodup ∧ AllPlain fields :=
  ⟨fun | .obj once each => ⟨once, each⟩, fun ⟨once, each⟩ => .obj once each⟩

end Plain

/-! ## Reading plain values -/

section Numbers

variable {n : Nat}

@[simp] theorem nat16?_nat (lt : n < Width.bits16) : nat16? (.nat n) = some n := if_pos lt

@[simp] theorem nat32?_nat (lt : n < Width.bits32) : nat32? (.nat n) = some n := if_pos lt

@[simp] theorem nat64?_nat (lt : n < Width.bits64) : nat64? (.nat n) = some n := if_pos lt

@[simp] theorem int32?_int {n : Int} (signed : Width.isSigned Width.half32 n = true) :
    int32? (.int n) = some n := if_pos signed

end Numbers

@[simp] theorem text?_str (s : String) : text? (.str s) = some s := rfl

@[simp] theorem bool?_bool (b : Bool) : bool? (.bool b) = some b := rfl

/-! ## Lossless forms -/

/-- A list is read back item by item. -/
theorem mapM_map {α β : Type} {write : α → β} {read : β → Option α} {l : List α}
    (each : ∀ a ∈ l, read (write a) = some a) : (l.map write).mapM read = some l := by
  induction l with
  | nil => rfl
  | cons a l ih =>
      obtain ⟨here, there⟩ := List.forall_mem_cons.1 each
      rw [List.map_cons, List.mapM_cons, here, ih there]
      rfl

/-- Every value that fits is written as plain JSON and read back as it was. -/
structure Lossless {α : Type} (fits : α → Prop) (write : α → Json) (read : Json → Option α) :
    Prop where
  plain : ∀ {a}, fits a → (write a).Plain
  reads : ∀ {a}, fits a → read (write a) = some a

/-- Any value fits. -/
@[simp] abbrev Any {α : Type} (_ : α) : Prop := True

namespace Lossless

variable {α : Type} {fits : α → Prop} {write : α → Json} {read : Json → Option α}

theorem text : Lossless Any .str text? := ⟨fun _ => .str _, fun _ => rfl⟩

theorem nat32 : Lossless (· < Width.bits32) .nat nat32? := ⟨fun _ => .int _, nat32?_nat⟩

theorem nat64 : Lossless (· < Width.bits64) .nat nat64? := ⟨fun _ => .int _, nat64?_nat⟩

/-- Names of a closed set, if each value has a name of its own. -/
theorem choice {names : List (String × α)} {name : α → String}
    (own : ∀ a, named? names (name a) = some a) :
    Lossless Any (fun a => .str (name a)) (choice? names) where
  plain _ := .str _
  reads {a} _ := own a

theorem list (lossless : Lossless fits write read) :
    Lossless (fun l => ∀ a ∈ l, fits a) (list write) (list? read) where
  plain {l} each := by
    refine .arr fun j member => ?_
    obtain ⟨a, inside, rfl⟩ := List.mem_map.1 member
    exact lossless.plain (each a inside)
  reads each := mapM_map fun a inside => lossless.reads (each a inside)

theorem dict (lossless : Lossless fits write read) :
    Lossless (fun d => ∀ entry ∈ d.entries, fits entry.2) (dict write) (dict? read) where
  plain {d} each := by
    refine .obj ?_ fun field member => ?_
    · rw [List.map_map]
      exact d.nodup_keys
    · obtain ⟨entry, inside, rfl⟩ := List.mem_map.1 member
      exact lossless.plain (each entry inside)
  reads {d} each := by
    have entries : (d.entries.map fun entry => (entry.1, write entry.2)).mapM
        (fun field => (read field.2).map (field.1, ·)) = some d.entries :=
      mapM_map fun entry inside => by rw [lossless.reads (each entry inside)]; rfl
    exact (congrArg (Option.map Dict.ofList) entries).trans
      (by rw [Option.map_some, d.ofList_entries])

theorem option (lossless : Lossless fits write read) (never : ∀ a, write a ≠ .null) :
    Lossless (fun o => ∀ a ∈ o, fits a) (option write) (option? read) where
  plain {o} each := by
    cases o with
    | none => exact .null
    | some a => exact lossless.plain (each a rfl)
  reads {o} each := by
    cases o with
    | none => rfl
    | some a =>
        show option? read (write a) = _
        rw [option?.eq_2 _ _ (never a), lossless.reads (each a rfl)]
        rfl

end Lossless

/-! ## Readers of objects -/

namespace Reader

variable {α β : Type} {name : String} {read : Json → Option α} {next : α → Reader β}
  {fields : List (String × Json)}

@[simp] theorem read?_obj (reader : Reader α) :
    read? reader (.obj fields) = ofRecord? reader (.named fields) := rfl

@[simp] theorem ofRecord?_pure (a : α) : ofRecord? (pure a) (.named fields) = some a := rfl

/-- A reader that leaves the fields of an object as they are goes on with what it has found. -/
theorem bind_named {reader : Reader α} {found : Option α}
    (finds : reader (.named fields) = found.map (·, .named fields)) :
    (reader >>= next) (.named fields) = found.bind fun a => next a (.named fields) := by
  show (reader (.named fields)).bind (fun x => next x.1 x.2) = _
  rw [finds]
  cases found <;> rfl

theorem ofRecord?_bind {reader : Reader α} {found : Option α}
    (finds : reader (.named fields) = found.map (·, .named fields)) :
    ofRecord? (reader >>= next) (.named fields) =
      found.bind fun a => ofRecord? (next a) (.named fields) := by
  unfold ofRecord?
  rw [bind_named finds]
  cases found <;> rfl

/-- A reader that stops after one value. -/
theorem ofRecord?_of_finds {reader : Reader α} {found : Option α}
    (finds : reader (.named fields) = found.map (·, .named fields)) :
    ofRecord? reader (.named fields) = found := by
  unfold ofRecord?
  rw [finds]
  cases found <;> rfl

theorem field_named : field name (.named fields) =
    (some (lookup name fields)).map (·, .named fields) := rfl

theorem lift_named (found : Option α) : StateT.lift found (.named fields : Record) =
    found.map (·, .named fields) := by cases found <;> rfl

theorem required_named : required name read (.named fields) =
    ((lookup name fields).bind read).map (·, .named fields) := by
  unfold required
  rw [bind_named field_named, Option.bind_some]
  cases lookup name fields with
  | none => rfl
  | some j => exact lift_named (read j)

theorem defaulted_named (absent : α) : defaulted name absent read (.named fields) =
    ((lookup name fields).elim (some absent) read).map (·, .named fields) := by
  unfold defaulted
  rw [bind_named field_named, Option.bind_some]
  cases lookup name fields with
  | none => rfl
  | some j => exact lift_named (read j)

@[simp] theorem ofRecord?_map (f : α → β) (reader : Reader α) :
    ofRecord? (f <$> reader) (.named fields) = (ofRecord? reader (.named fields)).map f := by
  have map : (f <$> reader) (.named fields) =
      (reader (.named fields)).bind fun x => some (f x.1, x.2) := rfl
  unfold ofRecord?
  rw [map]
  cases reader (.named fields) with
  | none => rfl
  | some found =>
      rw [Option.bind_some]
      dsimp only
      split <;> rfl

@[simp] theorem ofRecord?_required_bind :
    ofRecord? (required name read >>= next) (.named fields) =
      ((lookup name fields).bind read).bind fun a => ofRecord? (next a) (.named fields) :=
  ofRecord?_bind required_named

@[simp] theorem ofRecord?_required :
    ofRecord? (required name read) (.named fields) = (lookup name fields).bind read :=
  ofRecord?_of_finds required_named

variable (absent : α)

@[simp] theorem ofRecord?_defaulted_bind :
    ofRecord? (defaulted name absent read >>= next) (.named fields) =
      ((lookup name fields).elim (some absent) read).bind fun a =>
        ofRecord? (next a) (.named fields) :=
  ofRecord?_bind (defaulted_named absent)

@[simp] theorem ofRecord?_defaulted : ofRecord? (defaulted name absent read) (.named fields) =
    (lookup name fields).elim (some absent) read :=
  ofRecord?_of_finds (defaulted_named absent)

@[simp] theorem ofRecord?_optional_bind {next : Option α → Reader β} :
    ofRecord? (optional name read >>= next) (.named fields) =
      ((lookup name fields).elim (some none) (option? read)).bind fun o =>
        ofRecord? (next o) (.named fields) :=
  ofRecord?_defaulted_bind none

@[simp] theorem ofRecord?_optional : ofRecord? (optional name read) (.named fields) =
    (lookup name fields).elim (some none) (option? read) :=
  ofRecord?_defaulted none

end Reader

/-! ## Optional fields -/

namespace Lossless

variable {α : Type} {fits : α → Prop} {write : α → Json} {read : Json → Option α} {o : Option α}

theorem allPlain (lossless : Lossless fits write read) {name : String} (each : ∀ a ∈ o, fits a) :
    AllPlain (Json.optional name write o) := by
  cases o with
  | none => simp [Json.optional]
  | some a => simp [Json.optional, lossless.plain (each a rfl)]

/-- A field that is left out when it is unset is read back as it was. -/
theorem field (lossless : Lossless fits write read) (never : ∀ a, write a ≠ .null)
    (each : ∀ a ∈ o, fits a) : (o.map write).elim (some none) (option? read) = some o := by
  cases o with
  | none => rfl
  | some a => exact (lossless.option never).reads (a := some a) each

end Lossless
end Json
end Cutover
