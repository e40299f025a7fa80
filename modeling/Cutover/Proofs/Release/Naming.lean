/-
# Cutover.Proofs.Release.Naming -- the names of derived objects

Objects that a descriptor has derived stand in the namespace of its target under its application's
name and a suffix: nothing for the traffic split, a word for the autoscaler, six digits of a hash for
a config map, a minute and five digits for a release.  Names of applications may start alike, so
that two descriptors do not meet is due to the suffixes of one kind having one width (`width?`).
That of a release has it as long as its build's date has a year of four digits.

A key then says whose object it is (`eq_of_place`), if no name has the slash that divides namespace
and name.
-/
import Cutover.Configuration
import Cutover.Proofs.Store.Index
import Cutover.Release.Name
import Cutover.Scaling.Binding
import Mathlib.Algebra.GroupWithZero.Nat

namespace Cutover

set_option autoImplicit false

/-! ## Names -/

/-- A text with neither of the characters that divide the parts of keys and of index entries. -/
def IsName (text : String) : Prop := '/' ∉ text.toList ∧ '\x1f' ∉ text.toList

instance (text : String) : Decidable (IsName text) := inferInstanceAs (Decidable (_ ∧ _))

theorem isName_append {a b : String} : IsName (a ++ b) ↔ IsName a ∧ IsName b := by
  unfold IsName
  rw [String.toList_append, List.mem_append, List.mem_append, not_or, not_or]
  exact and_and_and_comm

theorem isName_ofList {cs : List Char} : IsName (String.ofList cs) ↔ '/' ∉ cs ∧ '\x1f' ∉ cs := by
  unfold IsName
  rw [String.toList_ofList]

/-! ## Numbers and times -/

theorem toList_toString (n : Nat) : (toString n).toList = Nat.toDigits 10 n := by
  simp [toString, Nat.repr]

theorem isName_toString (n : Nat) : IsName (toString n) := by
  unfold IsName
  rw [toList_toString]
  constructor <;> intro inside
  · exact absurd (Nat.isDigit_of_mem_toDigits (by omega) (by omega) inside) (by decide)
  · exact absurd (Nat.isDigit_of_mem_toDigits (by omega) (by omega) inside) (by decide)

namespace Calendar

theorem isName_zeroPadded (width n : Nat) : IsName (zeroPadded width n) := by
  have zeros (count : Nat) : IsName (String.ofList (List.replicate count '0')) := by
    constructor <;> simp
  exact isName_append.2 ⟨zeros _, isName_toString n⟩

theorem length_zeroPadded {width n : Nat} (pos : 0 < width) (lt : n < 10 ^ width) :
    (zeroPadded width n).length = width := by
  have short : (toString n).length ≤ width := by
    rw [← String.length_toList, toList_toString]
    exact (Nat.length_toDigits_le_iff (by omega) pos).2 lt
  simp only [zeroPadded, String.length_append, String.length_ofList, List.length_replicate]
  omega

/-- Month and day of the calendar have two digits at most. -/
theorem civil_lt (days : Int) : (civil days).2.1 < 100 ∧ (civil days).2.2 < 100 := by
  have inEra : ((days + 719468) % 146097).toNat < 146097 := by omega
  simp only [civil]
  generalize ((days + 719468) % 146097).toNat = dayOfEra at *
  generalize yearOfEra : (dayOfEra - dayOfEra / 1460 + dayOfEra / 36524 - dayOfEra / 146096) / 365 =
    y
  -- a rough bound on the day of the year will do
  have inYear : dayOfEra - (365 * y + y / 4 - y / 100) < 1000 := by omega
  generalize dayOfEra - (365 * y + y / 4 - y / 100) = dayOfYear at *
  constructor
  · split <;> omega
  · omega

namespace Minute

/-- Month, day, hour and minute have two digits at most. -/
structure IsShort (m : Minute) : Prop where
  month : m.month < 100
  day : m.day < 100
  hour : m.hour < 100
  minute : m.minute < 100

theorem isShort_ofSeconds (seconds : Int) : (ofSeconds seconds).IsShort := by
  have date := civil_lt (seconds / 86400)
  simp only [ofSeconds]
  refine ⟨date.1, date.2, ?_, ?_⟩
  · show (seconds % 86400).toNat / 3600 < 100
    omega
  · show (seconds % 86400).toNat % 3600 / 60 < 100
    omega

theorem isName_stamp (m : Minute) : IsName m.stamp := by
  have year : IsName (yearText m.year) := by
    unfold yearText
    split
    · exact isName_zeroPadded _ _
    · refine isName_append.2 ⟨?_, isName_zeroPadded _ _⟩
      split <;> decide
  have hyphen : IsName "-" := by decide
  simp only [stamp, isName_append]
  exact ⟨⟨⟨⟨⟨year, isName_zeroPadded _ _⟩, isName_zeroPadded _ _⟩, hyphen⟩,
    isName_zeroPadded _ _⟩, isName_zeroPadded _ _⟩

/-- Stamps of years with four digits have one width. -/
theorem length_stamp {m : Minute} (short : m.IsShort) (year : 0 ≤ m.year ∧ m.year ≤ 9999) :
    m.stamp.length = 13 := by
  have four : (yearText m.year).length = 4 := by
    rw [yearText, if_pos year]
    exact length_zeroPadded (by omega) (by omega)
  have two {n : Nat} (lt : n < 100) : (zeroPadded 2 n).length = 2 :=
    length_zeroPadded (by omega) lt
  have hyphen : "-".length = 1 := by decide
  simp only [stamp, String.length_append, four, two short.month, two short.day, two short.hour,
    two short.minute, hyphen]

end Minute

end Calendar

/-! ## Digests -/

namespace Digest

theorem isName_hexDigit {n : Nat} (lt : n < 16) :
    Text.hexDigit n ≠ '/' ∧ Text.hexDigit n ≠ '\x1f' ∧ (Text.hexDigit n).utf8Size = 1 := by
  have all : ∀ n < 16, Text.hexDigit n ≠ '/' ∧ Text.hexDigit n ≠ '\x1f' ∧
      (Text.hexDigit n).utf8Size = 1 := by decide
  exact all n lt

theorem exists_of_mem_hex {bytes : List UInt8} {c : Char} (inside : c ∈ (hex bytes).toList) :
    ∃ n < 16, c = Text.hexDigit n := by
  rw [hex, String.toList_ofList, List.mem_flatMap] at inside
  obtain ⟨b, -, here⟩ := inside
  have below := b.toNat_lt
  simp only [List.mem_cons, List.not_mem_nil, or_false] at here
  rcases here with rfl | rfl
  · exact ⟨_, by omega, rfl⟩
  · exact ⟨_, Nat.mod_lt _ (by omega), rfl⟩

theorem length_littleEndian (count n : Nat) : (littleEndian count n).length = count := by
  induction count generalizing n with
  | zero => rfl
  | succ count ih => rw [littleEndian, List.length_cons, ih]

theorem length_sha256 (message : List UInt8) : (sha256 message).length = 32 := by
  unfold sha256
  generalize (blocks (words (padded message))).foldl State.absorb start = state
  simp [State.toList, bigEndian, length_littleEndian]

theorem length_hexOf (message : List UInt8) : (hexOf message).length = 64 := by
  have twice (bytes : List UInt8) : (hex bytes).length = 2 * bytes.length := by
    unfold hex
    rw [String.length_ofList]
    induction bytes with
    | nil => rfl
    | cons b rest ih =>
        rw [List.flatMap_cons, List.length_append, ih, List.length_cons, List.length_cons,
          List.length_cons, List.length_nil]
        omega
  rw [hexOf, twice, length_sha256]

/-- Any digits of a digest make a name. -/
theorem not_mem_hexOf {message : List UInt8} {c : Char} (inside : c ∈ (hexOf message).toList) :
    c ≠ '/' ∧ c ≠ '\x1f' ∧ c.utf8Size = 1 := by
  obtain ⟨n, lt, rfl⟩ := exists_of_mem_hex inside
  exact isName_hexDigit lt

theorem isName_hexOf (message : List UInt8) : IsName (hexOf message) :=
  ⟨fun inside => (not_mem_hexOf inside).1 rfl, fun inside => (not_mem_hexOf inside).2.1 rfl⟩

theorem isName_take_hexOf (message : List UInt8) (n : Nat) :
    IsName (String.ofList ((hexOf message).toList.take n)) :=
  isName_ofList.2 ⟨fun inside => (not_mem_hexOf (List.mem_of_mem_take inside)).1 rfl,
    fun inside => (not_mem_hexOf (List.mem_of_mem_take inside)).2.1 rfl⟩

end Digest

namespace Release

/-- Where every character has one byte, bytes are cut off like characters. -/
theorem takeBytes?_of_single {n : Nat} {cs : List Char} (single : ∀ c ∈ cs, c.utf8Size = 1)
    (enough : n ≤ cs.length) : takeBytes? n cs = some (cs.take n) := by
  induction cs generalizing n with
  | nil =>
      obtain rfl : n = 0 := Nat.le_zero.1 enough
      simp [takeBytes?]
  | cons c rest ih =>
      cases n with
      | zero => simp [takeBytes?]
      | succ n =>
          obtain ⟨here, there⟩ := List.forall_mem_cons.1 single
          have le : n ≤ rest.length := Nat.le_of_succ_le_succ enough
          simp only [takeBytes?, here, Nat.le_add_left, if_true, Nat.add_sub_cancel,
            ih there le, Option.map_some, List.take_succ_cons]

theorem leading_hexOf (message : List UInt8) : leading 5 (Digest.hexOf message) =
    String.ofList ((Digest.hexOf message).toList.take 5) := by
  have enough : 5 ≤ (Digest.hexOf message).toList.length := by
    rw [String.length_toList, Digest.length_hexOf]
    omega
  unfold leading
  rw [takeBytes?_of_single (fun c inside => (Digest.not_mem_hexOf inside).2.2) enough]

theorem isShort_minuteOf (createdAt : Nat) : (minuteOf createdAt).IsShort := by
  unfold minuteOf Calendar.Minute.ofSeconds?
  simp only
  split
  · exact Calendar.Minute.isShort_ofSeconds _
  · exact ⟨by decide, by decide, by decide, by decide⟩

end Release

/-! ## Keys -/

/-- The key of a name in a namespace is that of no other name or namespace. -/
theorem objectKey_inj {ns name ns' name' : String} (free : '/' ∉ ns.toList)
    (free_name : '/' ∉ name.toList) (free' : '/' ∉ ns'.toList) (free_name' : '/' ∉ name'.toList)
    (same : objectKey ns name = objectKey ns' name') : ns = ns' ∧ name = name' := by
  have slash {ns name : String} : (ns ++ "/" ++ name).toList = ns.toList ++ '/' :: name.toList := by
    simp
  have lists := congrArg String.toList same
  unfold objectKey at lists
  by_cases bare : ns = "" <;> by_cases bare' : ns' = ""
  · rw [if_pos bare, if_pos bare'] at lists
    exact ⟨bare.trans bare'.symm, String.toList_inj.1 lists⟩
  · rw [if_pos bare, if_neg bare', slash] at lists
    exact absurd (lists ▸ List.mem_append_right _ List.mem_cons_self) free_name
  · rw [if_neg bare, if_pos bare', slash] at lists
    exact absurd (lists ▸ List.mem_append_right _ List.mem_cons_self) free_name'
  · rw [if_neg bare, if_neg bare', slash, slash] at lists
    obtain ⟨heads, tails⟩ := Index.append_cons_cancel free free' lists
    exact ⟨String.toList_inj.1 heads, String.toList_inj.1 tails⟩

theorem separator_not_mem_objectKey {ns name : String} (free : '\x1f' ∉ ns.toList)
    (free_name : '\x1f' ∉ name.toList) : '\x1f' ∉ (objectKey ns name).toList := by
  unfold objectKey
  split
  · exact free_name
  · simp [free, free_name]

theorem separator_not_mem_of_objectKey {ns name : String}
    (free : '\x1f' ∉ (objectKey ns name).toList) : '\x1f' ∉ name.toList := by
  unfold objectKey at free
  split at free
  · exact free
  · simp only [String.toList_append, List.mem_append, not_or] at free
    exact free.2

/-! ## Places -/

/-- How many characters follow the application in the names of a kind of derived objects. -/
def Kind.width? : Kind → Option Nat
  | .releases => some 20
  | .autoscalers => some 7
  | .configMaps => some 7
  | .trafficSplits => some 0
  | _ => none

/-- The keys for objects of a kind that are derived from a descriptor of an application in a
target. -/
def Place (k : Kind) (app target key : String) : Prop :=
  ∃ suffix : String, k.width? = some suffix.length ∧ IsName suffix ∧
    key = objectKey target (app ++ suffix)

namespace Place

variable {k : Kind} {app target app' target' key : String}

/-- **A key says for whom its object was derived.** -/
theorem eq_of_place (named : IsName app) (named' : IsName target) (named_app : IsName app')
    (named_target : IsName target') (place : Place k app target key)
    (place' : Place k app' target' key) : app = app' ∧ target = target' := by
  obtain ⟨suffix, width, free, rfl⟩ := place
  obtain ⟨suffix', width', free', same⟩ := place'
  obtain ⟨rfl, names⟩ := objectKey_inj named'.1 (isName_append.2 ⟨named, free⟩).1 named_target.1
    (isName_append.2 ⟨named_app, free'⟩).1 same
  have lists := congrArg String.toList names
  rw [String.toList_append, String.toList_append] at lists
  have lengths : suffix.toList.length = suffix'.toList.length := by
    rw [String.length_toList, String.length_toList]
    exact Option.some.inj (width.symm.trans width')
  exact ⟨String.toList_inj.1 (List.append_inj_left' lists lengths), rfl⟩

theorem separator_not_mem (named : IsName app) (named' : IsName target)
    (place : Place k app target key) : '\x1f' ∉ key.toList := by
  obtain ⟨suffix, -, free, rfl⟩ := place
  exact separator_not_mem_objectKey named'.2 (isName_append.2 ⟨named, free⟩).2

/-- A release cut from a build of a year with four digits. -/
theorem release (app target : String) {createdAt : Nat}
    (year : 0 ≤ (Release.minuteOf createdAt).year ∧ (Release.minuteOf createdAt).year ≤ 9999)
    (text : String) : Place .releases app target
      (objectKey target (Release.nameFor app createdAt (Digest.hexOfText text))) := by
  refine ⟨"-" ++ (Release.minuteOf createdAt).stamp ++ "-" ++
    Release.leading 5 (Digest.hexOfText text), ?_, ?_, ?_⟩
  · have stamp := Calendar.Minute.length_stamp (Release.isShort_minuteOf createdAt) year
    have hyphen : "-".length = 1 := by decide
    rw [Digest.hexOfText, Release.leading_hexOf]
    simp only [String.length_append, stamp, hyphen, String.length_ofList, List.length_take,
      String.length_toList, Digest.length_hexOf]
    rfl
  · rw [Digest.hexOfText, Release.leading_hexOf]
    have hyphen : IsName "-" := by decide
    exact isName_append.2 ⟨isName_append.2 ⟨isName_append.2
      ⟨hyphen, Calendar.Minute.isName_stamp _⟩, hyphen⟩, Digest.isName_take_hexOf _ _⟩
  · simp only [Release.nameFor, String.append_assoc]

theorem configMap (app target : String) (data : Dict String) : Place .configMaps app target
    (objectKey target ((Configuration.ofData data).mapName app)) := by
  refine ⟨"-" ++ String.ofList ((Digest.hexOf (Configuration.bytesOf data)).toList.take 6), ?_, ?_,
    ?_⟩
  · have hyphen : "-".length = 1 := by decide
    simp only [String.length_append, hyphen, String.length_ofList, List.length_take,
      String.length_toList, Digest.length_hexOf]
    rfl
  · exact isName_append.2 ⟨by decide, Digest.isName_take_hexOf _ _⟩
  · simp only [Configuration.mapName, Configuration.ofData, String.append_assoc]

theorem autoscaler (app target : String) :
    Place .autoscalers app target (objectKey target (Binding.scalerName app)) :=
  ⟨"-scaler", by decide, by decide, rfl⟩

theorem trafficSplit (app target : String) :
    Place .trafficSplits app target (objectKey target app) :=
  ⟨"", by decide, by decide, by simp⟩

end Place
end Cutover
