/-
# Cutover.Proofs.Store.Query -- what a query answers

In a sound store a query by label answers with the stored objects that have an entry
under its first term and satisfy all terms (`mem_matching`), each once
(`nodup_matching`).  The two queries of the passes, by application and target and by
release, have their terms in this order.
-/
import Cutover.Proofs.Store.Write

namespace Cutover

set_option autoImplicit false

/-! ## Terms -/

namespace Selector

theorem entries_ofTarget (app target : String) :
    (ofTarget app target).terms.entries = [(Label.app, app), (Label.target, target)] := by
  have after : ¬ Label.target < Label.app := by decide
  have before : Label.app < Label.target := by decide
  show Dict.put Label.target target (Dict.put Label.app app []) = _
  simp only [Dict.put, if_neg after, if_pos before]

theorem entries_ofRelease (release : String) :
    (ofRelease release).terms.entries = [(Label.release, release)] := rfl

theorem accepts_ofTarget {app target : String} {labels : Dict String} :
    (ofTarget app target).accepts labels = true ↔
      labels.get? Label.app = some app ∧ labels.get? Label.target = some target := by
  unfold accepts
  rw [entries_ofTarget]
  simp

theorem accepts_ofRelease {release : String} {labels : Dict String} :
    (ofRelease release).accepts labels = true ↔ labels.get? Label.release = some release := by
  unfold accepts
  rw [entries_ofRelease]
  simp

theorem entries_require (label value : String) :
    (any.require label value).terms.entries = [(label, value)] := rfl

theorem accepts_require {label value : String} {labels : Dict String} :
    (any.require label value).accepts labels = true ↔ labels.get? label = some value := by
  unfold accepts
  rw [entries_require]
  simp

end Selector

/-! ## Answers -/

namespace Store

variable {k : Kind} {s : Store} {query : Selector} {label value : String}
  {rest : List (String × String)}

theorem matching_eq (first : query.terms.entries = (label, value) :: rest) :
    s.matching k query = (s.index.keysUnder (Index.stem k label value)).filterMap fun key =>
      (s.getByKey k key).filter fun o => query.accepts o.info.labels := by
  unfold matching
  rw [first]

theorem mem_matching (sound : s.Sound) (first : query.terms.entries = (label, value) :: rest)
    {o : Object k} : o ∈ s.matching k query ↔ s.getByKey k o.key = some o ∧
      Index.entry k label value o.key ∈ s.index.keys ∧ query.accepts o.info.labels = true := by
  rw [matching_eq first, List.mem_filterMap]
  constructor
  · rintro ⟨key, member, found⟩
    obtain ⟨found, accepts⟩ := Option.filter_eq_some_iff.1 found
    have same : o.key = key := sound.keyed k key o found
    subst same
    exact ⟨found, Index.mem_keysUnder.1 member, accepts⟩
  · rintro ⟨found, member, accepts⟩
    exact ⟨o.key, Index.mem_keysUnder.2 member, Option.filter_eq_some_iff.2 ⟨found, accepts⟩⟩

theorem matching_empty (clock : Nat) (k : Kind) (query : Selector) :
    (Store.empty clock).matching k query = [] := by
  unfold Store.matching
  split
  · cases k <;> rfl
  · rfl

/-- No two answers stand under one key. -/
theorem nodup_matching (sound : s.Sound) (first : query.terms.entries = (label, value) :: rest) :
    ((s.matching k query).map (·.key)).Nodup := by
  rw [matching_eq first, List.Nodup, List.pairwise_map, List.pairwise_filterMap]
  refine (Index.nodup_keysUnder s.index _).imp fun ne o found o' found' same => ne ?_
  have key := sound.keyed k _ o (Option.filter_eq_some_iff.1 found).1
  have key' := sound.keyed k _ o' (Option.filter_eq_some_iff.1 found').1
  rw [← key, ← key', same]

theorem mem_ofTarget (sound : s.Sound) {app target : String} {o : Object k} :
    o ∈ s.matching k (Selector.ofTarget app target) ↔ s.getByKey k o.key = some o ∧
      Index.entry k Label.app app o.key ∈ s.index.keys ∧
      o.label? Label.app = some app ∧ o.label? Label.target = some target := by
  rw [mem_matching sound (Selector.entries_ofTarget app target), Selector.accepts_ofTarget]
  rfl

theorem mem_ofRelease (sound : s.Sound) {release : String} {o : Object k} :
    o ∈ s.matching k (Selector.ofRelease release) ↔ s.getByKey k o.key = some o ∧
      Index.entry k Label.release release o.key ∈ s.index.keys ∧
      o.label? Label.release = some release := by
  rw [mem_matching sound (Selector.entries_ofRelease release), Selector.accepts_ofRelease]
  rfl

end Store
end Cutover
