/-
# Cutover.Dict -- ordered dictionaries keyed by text

A `Dict α` is a finite map from text keys to values, held as its list of entries
in strictly increasing key order.  Texts are ordered by code point, which is the
order of their UTF-8 bytes, so the keys come out in byte order.

The order is a field of the type.  Two dictionaries that answer every look-up
alike are therefore equal (`Dict.ext_get?`), and what an update does is said by
its look-ups alone (`get?_insert`, `get?_erase`).
-/

namespace Cutover

set_option autoImplicit false

/-- A finite map from text keys, its entries in strictly increasing key order. -/
structure Dict (α : Type) where
  entries : List (String × α)
  ordered : entries.Pairwise fun a b => a.1 < b.1
  deriving DecidableEq

namespace Dict

variable {α : Type}

/-! ## Entries in key order -/

/-- Put a value under a key into ordered entries, in place of the value it had. -/
def put (key : String) (value : α) : List (String × α) → List (String × α)
  | [] => [(key, value)]
  | entry :: rest =>
      if key < entry.1 then (key, value) :: entry :: rest
      else if entry.1 < key then entry :: put key value rest
      else (key, value) :: rest

theorem mem_put {key : String} {value : α} {l : List (String × α)} {x : String × α}
    (h : x ∈ put key value l) : x = (key, value) ∨ x ∈ l := by
  induction l with
  | nil => simpa [put] using h
  | cons entry rest ih =>
      simp only [put] at h
      split at h
      · simpa using h
      · split at h
        · rcases List.mem_cons.1 h with rfl | h
          · simp
          · exact (ih h).imp_right (List.mem_cons_of_mem _)
        · exact (List.mem_cons.1 h).imp_right (List.mem_cons_of_mem _)

theorem eq_of_not_lt {a b : String} (h : ¬ a < b) (h' : ¬ b < a) : a = b :=
  String.le_antisymm (String.not_lt.1 h') (String.not_lt.1 h)

theorem put_ordered (key : String) (value : α) {l : List (String × α)}
    (ordered : l.Pairwise fun a b => a.1 < b.1) :
    (put key value l).Pairwise fun a b => a.1 < b.1 := by
  induction l with
  | nil => simp [put]
  | cons entry rest ih =>
      obtain ⟨first, tail⟩ := List.pairwise_cons.1 ordered
      simp only [put]
      split
      · rename_i lt
        refine List.pairwise_cons.2 ⟨fun x hx => ?_, ordered⟩
        rcases List.mem_cons.1 hx with rfl | hx
        · exact lt
        · exact String.lt_trans lt (first x hx)
      · split
        · rename_i gt
          refine List.pairwise_cons.2 ⟨fun x hx => ?_, ih tail⟩
          rcases mem_put hx with rfl | hx
          · exact gt
          · exact first x hx
        · rename_i ge le
          have same : key = entry.1 := eq_of_not_lt ge le
          exact List.pairwise_cons.2 ⟨fun x hx => same ▸ first x hx, tail⟩

/-- The value under a key. -/
def find (key : String) : List (String × α) → Option α
  | [] => none
  | entry :: rest => if key = entry.1 then some entry.2 else find key rest

theorem find_put (key other : String) (value : α) (l : List (String × α)) :
    find other (put key value l) = if other = key then some value else find other l := by
  induction l with
  | nil => simp [put, find]
  | cons entry rest ih =>
      simp only [put]
      split
      · simp [find]
      · split
        · rename_i ge gt
          simp only [find, ih]
          by_cases same : other = entry.1
          · have : other ≠ key := fun e => String.lt_irrefl _ (by rw [← same, e] at gt; exact gt)
            rw [if_pos same, if_neg this, if_pos same]
          · simp [same]
        · rename_i ge le
          have same : key = entry.1 := eq_of_not_lt ge le
          subst same
          by_cases e : other = entry.1 <;> simp [find, e]

theorem find_filter_ne (key other : String) (l : List (String × α)) :
    find other (l.filter fun entry => entry.1 != key) =
      if other = key then none else find other l := by
  induction l with
  | nil => simp [find]
  | cons entry rest ih =>
      by_cases same : entry.1 = key
      · rw [List.filter_cons_of_neg (by simp [same]), ih]
        by_cases e : other = key
        · simp [e]
        · simp [e, find, same]
      · rw [List.filter_cons_of_pos (by simpa using same)]
        simp only [find, ih]
        by_cases e : other = entry.1
        · simp [e, same]
        · simp [e]

theorem find_eq_some_iff {l : List (String × α)} (ordered : l.Pairwise fun a b => a.1 < b.1)
    {key : String} {value : α} : find key l = some value ↔ (key, value) ∈ l := by
  induction l with
  | nil => simp [find]
  | cons entry rest ih =>
      obtain ⟨first, tail⟩ := List.pairwise_cons.1 ordered
      simp only [find, List.mem_cons]
      by_cases same : key = entry.1
      · rw [if_pos same, Option.some.injEq]
        constructor
        · rintro rfl; exact Or.inl (by rw [same])
        · rintro (e | mem)
          · exact (congrArg Prod.snd e).symm
          · exact absurd (first _ mem) (by rw [same]; exact String.lt_irrefl _)
      · rw [if_neg same, ih tail]
        exact ⟨Or.inr, fun h => h.resolve_left fun e => same (congrArg Prod.fst e)⟩

/-- Ordered entries are known by their members. -/
theorem eq_of_mem_iff {l m : List (String × α)} (hl : l.Pairwise fun a b => a.1 < b.1)
    (hm : m.Pairwise fun a b => a.1 < b.1) (mem : ∀ x, x ∈ l ↔ x ∈ m) : l = m := by
  induction l generalizing m with
  | nil => exact (List.eq_nil_iff_forall_not_mem.2 fun x hx => by simpa using (mem x).2 hx).symm
  | cons x xs ih =>
      cases m with
      | nil => exact absurd ((mem x).1 (by simp)) (by simp)
      | cons y ys =>
          obtain ⟨hx, hxs⟩ := List.pairwise_cons.1 hl
          obtain ⟨hy, hys⟩ := List.pairwise_cons.1 hm
          have head : x = y := by
            rcases List.mem_cons.1 ((mem x).1 (by simp)) with e | inYs
            · exact e
            · rcases List.mem_cons.1 ((mem y).2 (by simp)) with e | inXs
              · exact e.symm
              · exact absurd (hx y inXs) (String.lt_asymm (hy x inYs))
          subst head
          rw [ih hxs hys fun z => ?_]
          constructor
          · intro hz
            rcases List.mem_cons.1 ((mem z).1 (List.mem_cons_of_mem _ hz)) with rfl | h
            · exact absurd (hx _ hz) (String.lt_irrefl _)
            · exact h
          · intro hz
            rcases List.mem_cons.1 ((mem z).2 (List.mem_cons_of_mem _ hz)) with rfl | h
            · exact absurd (hy _ hz) (String.lt_irrefl _)
            · exact h

/-! ## Operations -/

def empty : Dict α := ⟨[], List.Pairwise.nil⟩

instance : EmptyCollection (Dict α) := ⟨empty⟩
instance : Inhabited (Dict α) := ⟨empty⟩

def get? (d : Dict α) (key : String) : Option α := find key d.entries

def contains (d : Dict α) (key : String) : Bool := (d.get? key).isSome

def insert (d : Dict α) (key : String) (value : α) : Dict α :=
  ⟨put key value d.entries, put_ordered key value d.ordered⟩

def erase (d : Dict α) (key : String) : Dict α :=
  ⟨d.entries.filter fun entry => entry.1 != key, d.ordered.filter _⟩

def filter (d : Dict α) (keep : String → α → Bool) : Dict α :=
  ⟨d.entries.filter fun entry => keep entry.1 entry.2, d.ordered.filter _⟩

def keys (d : Dict α) : List String := d.entries.map (·.1)

def values (d : Dict α) : List α := d.entries.map (·.2)

def isEmpty (d : Dict α) : Bool := d.entries.isEmpty

def size (d : Dict α) : Nat := d.entries.length

/-- Insert the pairs one after the other; of two with one key the later stays. -/
def insertAll (d : Dict α) (pairs : List (String × α)) : Dict α :=
  pairs.foldl (fun d pair => d.insert pair.1 pair.2) d

def ofList (pairs : List (String × α)) : Dict α := empty.insertAll pairs

/-- Drop the keys one after the other. -/
def eraseAll (d : Dict α) (keys : List String) : Dict α := keys.foldl erase d

/-! ## Look-ups -/

@[simp] theorem get?_empty (key : String) : (empty : Dict α).get? key = none := rfl

@[simp] theorem get?_emptyCollection (key : String) : (∅ : Dict α).get? key = none := rfl

theorem get?_insert (d : Dict α) (key other : String) (value : α) :
    (d.insert key value).get? other = if other = key then some value else d.get? other :=
  find_put key other value d.entries

@[simp] theorem get?_insert_self (d : Dict α) (key : String) (value : α) :
    (d.insert key value).get? key = some value := by simp [get?_insert]

theorem get?_insert_of_ne (d : Dict α) {key other : String} (value : α) (ne : other ≠ key) :
    (d.insert key value).get? other = d.get? other := by simp [get?_insert, ne]

theorem get?_erase (d : Dict α) (key other : String) :
    (d.erase key).get? other = if other = key then none else d.get? other :=
  find_filter_ne key other d.entries

@[simp] theorem get?_erase_self (d : Dict α) (key : String) : (d.erase key).get? key = none := by
  simp [get?_erase]

theorem get?_erase_of_ne (d : Dict α) {key other : String} (ne : other ≠ key) :
    (d.erase key).get? other = d.get? other := by simp [get?_erase, ne]

theorem get?_eq_some_iff (d : Dict α) {key : String} {value : α} :
    d.get? key = some value ↔ (key, value) ∈ d.entries :=
  find_eq_some_iff d.ordered

/-! ### Keys -/

@[simp] theorem contains_emptyCollection (key : String) : (∅ : Dict α).contains key = false := rfl

@[simp] theorem contains_insert (d : Dict α) (key other : String) (value : α) :
    (d.insert key value).contains other = true ↔ other = key ∨ d.contains other = true := by
  simp only [contains, get?_insert]
  split <;> simp [*]

@[simp] theorem contains_erase (d : Dict α) (key other : String) :
    (d.erase key).contains other = true ↔ other ≠ key ∧ d.contains other = true := by
  simp only [contains, get?_erase]
  split <;> simp [*]

theorem mem_keys (d : Dict α) {key : String} : key ∈ d.keys ↔ d.contains key = true := by
  simp only [keys, contains, List.mem_map, Option.isSome_iff_exists, get?_eq_some_iff]
  constructor
  · rintro ⟨⟨_, value⟩, member, rfl⟩
    exact ⟨value, member⟩
  · rintro ⟨value, member⟩
    exact ⟨(key, value), member, rfl⟩

theorem nodup_keys (d : Dict α) : d.keys.Nodup := by
  refine (List.pairwise_map.2 d.ordered).imp ?_
  rintro key _ lt rfl
  exact String.lt_irrefl _ lt

/-! ### Equality -/

/-- A dictionary is known by its look-ups. -/
theorem ext_get? {d e : Dict α} (same : ∀ key, d.get? key = e.get? key) : d = e := by
  have entries : d.entries = e.entries := eq_of_mem_iff d.ordered e.ordered fun x => by
    rw [← get?_eq_some_iff, ← get?_eq_some_iff, same]
  cases d; cases e; simpa using entries

theorem insert_insert_self (d : Dict α) (key : String) (value later : α) :
    (d.insert key value).insert key later = d.insert key later := by
  apply ext_get?
  intro other
  simp only [get?_insert]
  split <;> rfl

theorem erase_eq_self (d : Dict α) {key : String} (free : d.get? key = none) :
    d.erase key = d := by
  apply ext_get?
  intro other
  rw [get?_erase]
  split
  · rename_i same
    rw [same, free]
  · rfl

theorem erase_erase_self (d : Dict α) (key : String) : (d.erase key).erase key = d.erase key :=
  erase_eq_self _ (get?_erase_self d key)

end Dict
end Cutover
