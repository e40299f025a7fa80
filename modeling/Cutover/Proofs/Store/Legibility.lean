/-
# Cutover.Proofs.Store.Legibility -- whose entry a text of the index is

An entry is a label's name, an equals sign, its value, the separator and the object's key, one
after the other and nothing quoted.  Where a name or value has an equals sign of its own, or a
value or key the separator, the text can be cut at that place as well, and is the entry of another
label or object too: `RunsInto` lists the five ways in which two marks share a text, and there are
no others (`entry_eq_iff`).  Names without equals signs and values without separators are enough to
tell all entries apart (`eq_of_entry_eq_of_named`).

A mark is `Legible` if its entry cannot be cut otherwise.  The entry of a legible mark comes with
the label and goes with it, whatever clients ask of the store: one commit sees to that (`filed`),
and so does a run (`filed_after`).  Of two marks that share a text each can be lost: the other label
is dropped, the text with it, and no query finds the object by the label that it still has
(`exists_lost`, `deletion_hides_other_build`).
-/
import Cutover.Proofs.Store.Removal

namespace Cutover

set_option autoImplicit false

/-! ## Two cuts of one text -/

namespace Index

/-- Of two cuts of a list one comes first, or they are one. -/
theorem cut_or_cut {α : Type} {c c' : α} {xs ys xs' ys' : List α}
    (same : xs ++ c :: ys = xs' ++ c' :: ys') :
    (xs = xs' ∧ c = c' ∧ ys = ys') ∨ (∃ mid, xs' = xs ++ c :: mid ∧ ys = mid ++ c' :: ys') ∨
      ∃ mid, xs = xs' ++ c' :: mid ∧ ys' = mid ++ c :: ys := by
  rcases List.append_eq_append_iff.1 same with ⟨mid, rfl, rest⟩ | ⟨mid, rfl, rest⟩
  · cases mid with
    | nil =>
        obtain ⟨rfl, rfl⟩ := List.cons.inj rest
        exact .inl ⟨(List.append_nil xs).symm, rfl, rfl⟩
    | cons d mid =>
        obtain ⟨rfl, rfl⟩ := List.cons.inj rest
        exact .inr (.inl ⟨mid, rfl, rfl⟩)
  · cases mid with
    | nil =>
        obtain ⟨rfl, rfl⟩ := List.cons.inj rest
        exact .inl ⟨List.append_nil xs', rfl, rfl⟩
    | cons d mid =>
        obtain ⟨rfl, rfl⟩ := List.cons.inj rest
        exact .inr (.inr ⟨mid, rfl, rfl⟩)

end Index

namespace Mark

variable {m n : Mark}

/-! ## Marks that share a text -/

/-- The parts of two marks run together to one text.  The first mark is cut at an earlier place than
the second, at the equals sign or else at the separator. -/
inductive RunsInto : Mark → Mark → Prop
  /-- The one key ends with the other, and the one value begins with the other. -/
  | value (k : Kind) (label value more key : String) :
      RunsInto ⟨k, label, value, more ++ Index.separator ++ key⟩
        ⟨k, label, value ++ Index.separator ++ more, key⟩
  | label (k : Kind) (label more value key : String) :
      RunsInto ⟨k, label, more ++ "=" ++ value, key⟩ ⟨k, label ++ "=" ++ more, value, key⟩
  | both (k : Kind) (label more value rest key : String) :
      RunsInto ⟨k, label, more ++ "=" ++ value, rest ++ Index.separator ++ key⟩
        ⟨k, label ++ "=" ++ more, value ++ Index.separator ++ rest, key⟩
  /-- The value of the second is within the value of the first. -/
  | within (k : Kind) (label more value rest key : String) :
      RunsInto ⟨k, label, more ++ "=" ++ value ++ Index.separator ++ rest, key⟩
        ⟨k, label ++ "=" ++ more, value, rest ++ Index.separator ++ key⟩
  /-- The value of the second is within the key of the first. -/
  | beyond (k : Kind) (label value more rest key : String) :
      RunsInto ⟨k, label, value, more ++ "=" ++ rest ++ Index.separator ++ key⟩
        ⟨k, label ++ "=" ++ value ++ Index.separator ++ more, rest, key⟩

theorem toList_entry (m : Mark) : m.entry.toList = m.kind.name.toList ++ '\x1f' ::
    (m.label.toList ++ '=' :: (m.value.toList ++ '\x1f' :: m.key.toList)) := by
  simp [entry, Index.toList_entry]

theorem RunsInto.entry_eq (runs : m.RunsInto n) : m.entry = n.entry := by
  apply String.toList_inj.1
  cases runs <;> simp [toList_entry, Index.toList_separator]

theorem RunsInto.ne (runs : m.RunsInto n) : m ≠ n := by
  intro same
  have labels := congrArg (fun mark : Mark => mark.label.length) same
  have values := congrArg (fun mark : Mark => mark.value.length) same
  have one : Index.separator.length = 1 := rfl
  have one' : "=".length = 1 := rfl
  cases runs <;> simp only [String.length_append] at labels values <;> omega

/-! ### There are no others -/

/-- A text that is cut at the one character of another. -/
theorem exists_of_cut {x a mark : String} {c : Char} {mid : List Char} (single : mark.toList = [c])
    (cut : x.toList = a.toList ++ c :: mid) :
    ∃ more : String, mid = more.toList ∧ x = a ++ mark ++ more := by
  refine ⟨String.ofList mid, by simp, String.toList_inj.1 ?_⟩
  simp [cut, single]

theorem eq_of_cut {x a b mark : String} {c : Char} (single : mark.toList = [c])
    (cut : x.toList = a.toList ++ c :: b.toList) : x = a ++ mark ++ b := by
  obtain ⟨more, same, rfl⟩ := exists_of_cut single cut
  rw [String.toList_inj.1 same]

section Cuts

variable {k : Kind} {label value key label' value' key' : String} {mid : List Char}

/-- Marks of one label that are cut at different separators. -/
theorem runsInto_of_values (values : value'.toList = value.toList ++ '\x1f' :: mid)
    (keys : key.toList = mid ++ '\x1f' :: key'.toList) :
    RunsInto ⟨k, label, value, key⟩ ⟨k, label, value', key'⟩ := by
  obtain ⟨more, rfl, rfl⟩ := exists_of_cut Index.toList_separator values
  obtain rfl := eq_of_cut Index.toList_separator keys
  exact .value k label value more key'

/-- Marks that are cut at different equals signs: the first has its separator before the equals sign
of the second, or the separators are one, or either of them is the earlier. -/
theorem runsInto_of_labels (labels : label'.toList = label.toList ++ '=' :: mid)
    (rest : value.toList ++ '\x1f' :: key.toList =
      mid ++ '=' :: (value'.toList ++ '\x1f' :: key'.toList)) :
    RunsInto ⟨k, label, value, key⟩ ⟨k, label', value', key'⟩ := by
  have equals : "=".toList = ['='] := rfl
  obtain ⟨more, rfl, rfl⟩ := exists_of_cut equals labels
  rcases Index.cut_or_cut rest with ⟨-, differ, -⟩ | ⟨mid, longer, keys⟩ | ⟨mid, values, later⟩
  · exact absurd differ (by decide)
  · obtain ⟨middle, rfl, rfl⟩ := exists_of_cut Index.toList_separator longer
    obtain ⟨tail, parts, rfl⟩ := exists_of_cut equals keys
    obtain rfl := eq_of_cut Index.toList_separator parts.symm
    simpa only [String.append_assoc] using RunsInto.beyond k label value middle value' key'
  · obtain ⟨tail, rfl, rfl⟩ := exists_of_cut equals values
    rcases Index.cut_or_cut later with
      ⟨same, -, keys⟩ | ⟨mid, longer, keys⟩ | ⟨mid, longer, keys⟩
    · obtain rfl := String.toList_inj.1 same
      obtain rfl := String.toList_inj.1 keys
      exact .label k label more value' key'
    · obtain ⟨last, rfl, rfl⟩ := exists_of_cut Index.toList_separator longer
      obtain rfl := eq_of_cut Index.toList_separator keys
      simpa only [String.append_assoc] using RunsInto.within k label more value' last key
    · obtain ⟨last, rfl, rfl⟩ := exists_of_cut Index.toList_separator longer
      obtain rfl := eq_of_cut Index.toList_separator keys
      exact .both k label more tail last key'

end Cuts

/-- **Marks share an entry in these ways only.** -/
theorem entry_eq_iff : n.entry = m.entry ↔ n = m ∨ n.RunsInto m ∨ m.RunsInto n := by
  constructor
  · intro same
    have kinds := kind_eq_of_entry_eq same
    obtain ⟨k, label, value, key⟩ := m
    obtain ⟨k', label', value', key'⟩ := n
    obtain rfl : k' = k := kinds
    have lists := congrArg String.toList same
    rw [toList_entry, toList_entry] at lists
    have tails := List.cons.inj (List.append_cancel_left lists)
    rcases Index.cut_or_cut tails.2 with
      ⟨labels, -, rest⟩ | ⟨mid, longer, rest⟩ | ⟨mid, longer, rest⟩
    · obtain rfl := String.toList_inj.1 labels
      rcases Index.cut_or_cut rest with
        ⟨values, -, keys⟩ | ⟨mid, longer, keys⟩ | ⟨mid, longer, keys⟩
      · obtain rfl := String.toList_inj.1 values
        obtain rfl := String.toList_inj.1 keys
        exact .inl rfl
      · exact .inr (.inl (runsInto_of_values longer keys))
      · exact .inr (.inr (runsInto_of_values longer keys))
    · exact .inr (.inl (runsInto_of_labels longer rest))
    · exact .inr (.inr (runsInto_of_labels longer rest))
  · rintro (rfl | runs | runs)
    · rfl
    · exact runs.entry_eq
    · exact runs.entry_eq.symm

/-! ## Legible marks -/

/-- The entry can be cut in one way: neither the label's name nor its value has an equals sign, and
neither the value nor the key has the separator. -/
structure Legible (m : Mark) : Prop where
  label : '=' ∉ m.label.toList
  value : '=' ∉ m.value.toList ∧ '\x1f' ∉ m.value.toList
  key : '\x1f' ∉ m.key.toList

theorem RunsInto.earlier (runs : m.RunsInto n) :
    '=' ∈ m.value.toList ∨ '\x1f' ∈ m.key.toList := by
  cases runs <;> simp [Index.toList_separator]

theorem RunsInto.later (runs : m.RunsInto n) :
    '=' ∈ n.label.toList ∨ '\x1f' ∈ n.value.toList := by
  cases runs <;> simp [Index.toList_separator]

theorem Legible.eq_of_entry_eq (legible : m.Legible) (same : n.entry = m.entry) : n = m := by
  rcases entry_eq_iff.1 same with eq | runs | runs
  · exact eq
  · exact (runs.later.elim legible.label legible.value.2).elim
  · exact (runs.earlier.elim legible.value.1 legible.key).elim

/-- Where no name has an equals sign and no value the separator, entries are told apart, whatever
the keys are. -/
theorem eq_of_entry_eq_of_named (label : '=' ∉ m.label.toList) (value : '\x1f' ∉ m.value.toList)
    (label' : '=' ∉ n.label.toList) (value' : '\x1f' ∉ n.value.toList) (same : n.entry = m.entry) :
    n = m := by
  rcases entry_eq_iff.1 same with eq | runs | runs
  · exact eq
  · exact (runs.later.elim label value).elim
  · exact (runs.later.elim label' value').elim

/-- A text with a character can be cut there. -/
theorem exists_cut {x mark : String} {c : Char} (single : mark.toList = [c]) (has : c ∈ x.toList) :
    ∃ a b, x = a ++ mark ++ b := by
  obtain ⟨before, after, cut⟩ := List.append_of_mem has
  exact ⟨String.ofList before, String.ofList after, eq_of_cut single (by simpa using cut)⟩

theorem exists_runsInto_of_illegible (illegible : ¬ m.Legible) :
    ∃ n : Mark, n.RunsInto m ∨ m.RunsInto n := by
  have equals : "=".toList = ['='] := rfl
  obtain ⟨k, label, value, key⟩ := m
  by_cases label_has : '=' ∈ label.toList
  · obtain ⟨a, b, rfl⟩ := exists_cut equals label_has
    exact ⟨_, .inl (.label k a b value key)⟩
  by_cases value_has : '=' ∈ value.toList
  · obtain ⟨a, b, rfl⟩ := exists_cut equals value_has
    exact ⟨_, .inr (.label k label a b key)⟩
  by_cases value_cut : '\x1f' ∈ value.toList
  · obtain ⟨a, b, rfl⟩ := exists_cut Index.toList_separator value_cut
    exact ⟨_, .inl (.value k label a b key)⟩
  by_cases key_cut : '\x1f' ∈ key.toList
  · obtain ⟨a, b, rfl⟩ := exists_cut Index.toList_separator key_cut
    exact ⟨_, .inr (.value k label value a b)⟩
  exact absurd ⟨label_has, ⟨value_has, value_cut⟩, key_cut⟩ illegible

theorem eq_of_entry_eq_iff_legible : (∀ n : Mark, n.entry = m.entry → n = m) ↔ m.Legible := by
  refine ⟨fun single => ?_, fun legible n => legible.eq_of_entry_eq⟩
  by_contra illegible
  obtain ⟨n, runs | runs⟩ := exists_runsInto_of_illegible illegible
  · exact runs.ne (single n runs.entry_eq)
  · exact runs.ne (single n runs.entry_eq.symm).symm

/-- The entry of a legible mark starts with the stem of its own label only. -/
theorem stem_eq_iff_legible : (∀ k label value,
    Index.afterStem? (Index.stem k label value) m.entry ≠ none →
      k = m.kind ∧ label = m.label ∧ value = m.value) ↔ m.Legible := by
  rw [← eq_of_entry_eq_iff_legible]
  constructor
  · intro own n same
    obtain ⟨k, label, value, key⟩ := n
    have starts : Index.afterStem? (Index.stem k label value) m.entry = some key :=
      Index.afterStem?_eq_some.2 same.symm
    obtain ⟨rfl, rfl, rfl⟩ := own k label value (by simp [starts])
    have keys : m.entry = Index.stem m.kind m.label m.value ++ m.key := rfl
    rw [Index.afterStem?_eq_some.2 keys] at starts
    rw [← Option.some.inj starts]
  · intro single k label value starts
    obtain ⟨key, found⟩ := Option.ne_none_iff_exists'.1 starts
    have same := single ⟨k, label, value, key⟩ (Index.afterStem?_eq_some.1 found).symm
    rw [← same]
    exact ⟨rfl, rfl, rfl⟩

end Mark

namespace Store

variable {k : Kind} {s s' : Store} {key : String} {m n : Mark}

/-! ## Entries over a run -/

/-- The entry is in the index if the label is there, and only then. -/
def Filed (s : Store) (m : Mark) : Prop := m.entry ∈ s.index.keys ↔ s.Bears m

/-- A query by the label finds the object. -/
def Finds (s : Store) (m : Mark) : Prop :=
  ∃ o ∈ s.matching m.kind (Selector.any.require m.label m.value), o.key = m.key

theorem finds_iff (sound : s.Sound) : s.Finds m ↔ s.Bears m ∧ m.entry ∈ s.index.keys := by
  unfold Finds Bears
  simp only [mem_matching sound (Selector.entries_require m.label m.value),
    Selector.accepts_require]
  constructor
  · rintro ⟨o, ⟨found, entry, has⟩, key⟩
    rw [key] at found entry
    exact ⟨⟨o, found, has⟩, entry⟩
  · rintro ⟨⟨o, found, has⟩, entry⟩
    have key : o.key = m.key := sound.keyed m.kind m.key o found
    exact ⟨o, ⟨key ▸ found, by rw [key]; exact entry, has⟩, key⟩

/-- An object's labels make or drop a legible entry only if it is theirs. -/
theorem mem_entriesBeyond_iff (legible : m.Legible) {labels other : Dict String} :
    m.entry ∈ Index.entriesBeyond k key labels other ↔ (m.kind = k ∧ m.key = key) ∧
      labels.get? m.label = some m.value ∧ other.get? m.label ≠ some m.value := by
  rw [Index.mem_entriesBeyond]
  constructor
  · rintro ⟨label, value, has, differs, same⟩
    have own : (⟨k, label, value, key⟩ : Mark) = m := legible.eq_of_entry_eq same.symm
    subst own
    exact ⟨⟨rfl, rfl⟩, has, differs⟩
  · rintro ⟨⟨rfl, rfl⟩, has, differs⟩
    exact ⟨m.label, m.value, has, differs, rfl⟩

/-- **One commit.**  It adds or drops the entry of a legible mark with the label. -/
theorem Commits.filed {before after : Option (Object k)} {change : Change}
    (commits : s.Commits k key before change after s') (legible : m.Legible) (filed : s.Filed m) :
    s'.Filed m := by
  unfold Filed at filed ⊢
  rw [commits.index, Index.mem_keys_relabel, mem_entriesBeyond_iff legible,
    mem_entriesBeyond_iff legible, filed]
  by_cases here : m.kind = k ∧ m.key = key
  · obtain ⟨kind, label, value, key'⟩ := m
    obtain ⟨rfl, rfl⟩ := here
    rw [bears_iff_labelsOf commits.was, bears_iff_labelsOf commits.is]
    tauto
  · rw [bears_congr (commits.others m.kind m.key here)]
    tauto

/-- What commits lead to files legible marks as before. -/
theorem History.filed {events : List Event} (history : History s events s') (legible : m.Legible)
    (filed : s.Filed m) : s'.Filed m := by
  induction history with
  | nil s => exact filed
  | later clock rest ih => exact ih filed
  | commit commits told rest ih => exact ih (commits.filed legible filed)

theorem filed_empty (clock : Nat) (m : Mark) : (Store.empty clock).Filed m :=
  iff_of_false List.not_mem_nil (not_bears_of_none (getByKey_empty clock m.kind m.key))

theorem filed_after (legible : m.Legible) (clock : Nat) (rs : List Request) :
    ((Store.empty clock).after rs).Filed m := by
  obtain ⟨events, -, history⟩ := (sound_empty clock).history_after rs
  exact history.filed legible (filed_empty clock m)

/-! ## Requests that lose an entry -/

/-- A free key can be taken by an object with any labels. -/
theorem exists_created (free : s.getByKey k key = none) (labels : Dict String) :
    ∃ (r : Request) (o : Object k), o.info.labels = labels ∧
      s.Commits k key none .created (some o) (s.serve r) := by
  obtain ⟨spec⟩ : Nonempty k.Spec := by cases k <;> exact ⟨default⟩
  let o : Object k :=
    { info := { Meta.fresh "" key with labels }
      spec
      status := k.unobserved }
  have own : o.key = key := by simp [o, Object.key, Meta.key, Meta.fresh, objectKey]
  have free' : s.getByKey k o.key = none := by rwa [own]
  have served : s.serve (.create o) = s.commit (s.accepted o) ∅ .created :=
    left_write_of_ok (create_eq free')
  refine ⟨.create o, s.accepted o, rfl, ?_⟩
  rw [served, ← own]
  exact commits_created free'

/-- A stored object can be given any labels. -/
theorem exists_relabelled (sound : s.Sound) {o : Object k} (found : s.getByKey k key = some o)
    (labels : Dict String) : ∃ (r : Request) (o' : Object k), o'.info.labels = labels ∧
      s.Commits k key (some o) .specUpdated (some o') (s.serve r) := by
  let relabelled : Object k := { o with info.labels := labels }
  have own : relabelled.key = key := sound.keyed k key o found
  have found' : s.getByKey k relabelled.key = some o := by rwa [own]
  have served : s.serve (.updateSpec relabelled) =
      s.commit (respecified o relabelled) o.info.labels .specUpdated :=
    left_write_of_ok (updateSpec_eq found' rfl)
  refine ⟨.updateSpec relabelled, respecified o relabelled, rfl, ?_⟩
  rw [served]
  exact commits_written sound .spec found relabelled

section Dropped

variable {o o' : Object k} {change : Change} {label value : String}
  (commits : s.Commits k key (some o) change (some o') s')
  (labels : o'.info.labels = o.info.labels.erase label)
  (had : o.info.labels.get? label = some value)

include commits labels had

/-- With one label no other goes. -/
theorem Commits.bears_of_ne (bears : s.Bears m) (ne : m ≠ ⟨k, label, value, key⟩) : s'.Bears m := by
  by_cases here : m.kind = k ∧ m.key = key
  · obtain ⟨kind, label', value', key'⟩ := m
    obtain ⟨rfl, rfl⟩ := here
    have has : o.info.labels.get? label' = some value' := (bears_of_some commits.was).1 bears
    have other : label' ≠ label := by
      rintro rfl
      have values : value' = value := Option.some.inj (has.symm.trans had)
      exact ne (by rw [values])
    rw [bears_of_some commits.is, labels, Dict.get?_erase_of_ne _ other]
    exact has
  · exact (bears_congr (commits.others m.kind m.key here)).2 bears

/-- With a label goes the text of its entry. -/
theorem Commits.entry_dropped : Index.entry k label value key ∉ s'.index.keys := by
  have kept : labelsOf (some o') = o.info.labels.erase label := labels
  rw [commits.index, Index.mem_keys_relabel, kept]
  rintro (came | ⟨stays, -⟩)
  · obtain ⟨other, value', has, hadNot, -⟩ := Index.mem_entriesBeyond.1 came
    rw [Dict.get?_erase] at has
    split at has
    · cases has
    · exact hadNot has
  · exact stays (Index.mem_entriesBeyond.2 ⟨label, value, had, by simp, rfl⟩)

end Dropped

/-- **Of two marks that share an entry each can be lost.**  The other label is dropped and the text
with it, and the label stays without an entry. -/
theorem exists_lost (sound : s.Sound) (bears : s.Bears m) (bears' : s.Bears n) (ne : n ≠ m)
    (same : n.entry = m.entry) : ∃ r, (s.serve r).Bears m ∧ m.entry ∉ (s.serve r).index.keys := by
  obtain ⟨o, found, had⟩ := bears'
  obtain ⟨r, o', labels, commits⟩ := exists_relabelled sound found (o.info.labels.erase n.label)
  exact ⟨r, commits.bears_of_ne labels had bears ne.symm,
    same ▸ commits.entry_dropped labels had⟩

/-- Two marks that share an entry can be in one store. -/
theorem exists_bears_both (clock : Nat) (ne : n ≠ m) (same : n.entry = m.entry) :
    ∃ rs, ((Store.empty clock).after rs).Bears m ∧ ((Store.empty clock).after rs).Bears n := by
  have kinds := Mark.kind_eq_of_entry_eq same
  obtain ⟨k, label, value, key⟩ := m
  obtain ⟨k', label', value', key'⟩ := n
  obtain rfl : k' = k := kinds
  have free := getByKey_empty clock k'
  by_cases keys : key' = key
  · subst keys
    have other : label ≠ label' := by
      rintro rfl
      have values : value' = value := by
        simpa [Mark.toList_entry, String.toList_inj] using congrArg String.toList same
      exact ne (by rw [values])
    obtain ⟨r, o, labels, commits⟩ :=
      exists_created (free key') (((∅ : Dict String).insert label value).insert label' value')
    refine ⟨[r], (bears_of_some commits.is).2 ?_, (bears_of_some commits.is).2 ?_⟩
    · rw [labels, Dict.get?_insert_of_ne _ _ other, Dict.get?_insert_self]
    · rw [labels, Dict.get?_insert_self]
  · obtain ⟨r, o, labels, commits⟩ :=
      exists_created (free key) ((∅ : Dict String).insert label value)
    have free' : ((Store.empty clock).serve r).getByKey k' key' = none :=
      (commits.others k' key' fun both => keys both.2).trans (free key')
    obtain ⟨r', o', labels', commits'⟩ :=
      exists_created free' ((∅ : Dict String).insert label' value')
    refine ⟨[r, r'], ?_, (bears_of_some commits'.is).2 ?_⟩
    · refine (bears_congr (commits'.others k' key fun both => keys both.2.symm)).2 ?_
      refine (bears_of_some commits.is).2 ?_
      rw [labels, Dict.get?_insert_self]
    · rw [labels', Dict.get?_insert_self]

theorem exists_lost_after (clock : Nat) (ne : n ≠ m) (same : n.entry = m.entry) :
    ∃ rs, ((Store.empty clock).after rs).Bears m ∧
      m.entry ∉ ((Store.empty clock).after rs).index.keys := by
  obtain ⟨rs, bears, bears'⟩ := exists_bears_both clock ne same
  obtain ⟨r, kept, lost⟩ := exists_lost ((sound_empty clock).after rs) bears bears' ne same
  refine ⟨rs ++ [r], ?_⟩
  have last : (Store.empty clock).after (rs ++ [r]) = ((Store.empty clock).after rs).serve r :=
    List.foldl_append
  rw [last]
  exact ⟨kept, lost⟩

end Store

namespace Mark

/-- **An entry tells whose it is if and only if it is legible.**  Marks share an entry in the ways of
`RunsInto` and no others.  The entry of a mark is that of no other mark, and starts with the stem of
no other label, if the mark is legible and only then.  In that case, and only then, every query by the
label finds the object while it has the label, whatever clients have asked of the store. -/
theorem identified_by_entry_iff_legible (m : Mark) :
    (∀ n : Mark, n.entry = m.entry ↔ n = m ∨ n.RunsInto m ∨ m.RunsInto n) ∧
      ((∀ n : Mark, n.entry = m.entry → n = m) ↔ m.Legible) ∧
      ((∀ k label value, Index.afterStem? (Index.stem k label value) m.entry ≠ none →
        k = m.kind ∧ label = m.label ∧ value = m.value) ↔ m.Legible) ∧
      ((∀ clock rs, let s := (Store.empty clock).after rs; s.Bears m → s.Finds m) ↔ m.Legible) := by
  refine ⟨fun n => entry_eq_iff, eq_of_entry_eq_iff_legible, stem_eq_iff_legible, ?_, ?_⟩
  · intro found
    refine eq_of_entry_eq_iff_legible.1 fun n same => ?_
    by_contra ne
    obtain ⟨rs, bears, lost⟩ := Store.exists_lost_after 0 ne same
    exact lost ((Store.finds_iff ((Store.sound_empty 0).after rs)).1 (found 0 rs bears)).2
  · intro legible clock rs s bears
    have filed : s.Filed m := Store.filed_after legible clock rs
    exact (Store.finds_iff ((Store.sound_empty clock).after rs)).2 ⟨bears, filed.2 bears⟩

end Mark

namespace Store

namespace Sample

/-- Two builds.  The key of the one ends like the key of the other, and what it has more stands at
the end of the other's label. -/
def entangled : List Request := [.create (build "k\x1fv1" "web"), .create (build "v1" "web\x1fk")]

end Sample

/-- Entries collide, in the first case those of two objects.  With the one object goes the entry of
the other, and then no query finds what is still there. -/
theorem deletion_hides_other_build :
    let query := Selector.any.require Label.app "web"
    let before := (Store.empty 9).after Sample.entangled
    let after := before.serve (.delete .builds "" "v1")
    Index.entry .builds Label.app "web" "k\x1fv1" = Index.entry .builds Label.app "web\x1fk" "v1" ∧
      Index.entry .builds "a" "b=c" "v1" = Index.entry .builds "a=b" "c" "v1" ∧
      Index.afterStem? (Index.stem .builds Label.app "web")
        (Index.entry .builds Label.app "web\x1fk" "v1") = some "k\x1fv1" ∧
      (before.matching .builds query).map (·.key) = ["k\x1fv1"] ∧
      (after.scan .builds query).map (·.key) = ["k\x1fv1"] ∧ after.matching .builds query = [] := by
  decide

end Store
end Cutover
