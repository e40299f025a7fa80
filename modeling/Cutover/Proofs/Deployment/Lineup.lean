/-
# Cutover.Proofs.Deployment.Lineup -- the releases that a pass is about

A pass starts from its `lineup`, which is what the store has listed for the descriptor and
perhaps one new release (`listed_lineup`).  Of the listed releases the store has what was
listed; the new one has no traffic and no role (`Listed`).  So the lineup has the traffic of
what is stored.
-/
import Cutover.Proofs.Deployment.Persist
import Cutover.Proofs.Feedback.Settled

namespace Cutover.Deployment

set_option autoImplicit false

open Pass Store

variable {s s' : Store} {d : Descriptor} {rs : List Release}

/-- The releases stored for a descriptor. -/
def stored (s : Store) (d : Descriptor) : List Release :=
  s.scan .releases (Selector.ofTarget d.spec.app d.spec.target)

/-- The releases that a pass hands to the ramp; none without the build. -/
def lineup (s : Store) (d : Descriptor) : List Release :=
  match s.get .builds "" d.spec.build with
  | some build => candidates s d build (Feedback.configOf s d)
  | none => []

/-- Releases that a pass has listed: those that are stored, and new ones. -/
structure Listed (s : Store) (d : Descriptor) (rs : List Release) : Prop where
  labelled : ∀ o ∈ rs, (Selector.ofTarget d.spec.app d.spec.target).accepts o.info.labels = true
  known : ∀ o ∈ rs, o.info.isPersisted = true → s.getByKey .releases o.key = some o
  fresh : ∀ o ∈ rs, o.info.isPersisted = false → o.IsFresh
  apart : rs.Pairwise fun o o' =>
    o.info.isPersisted = true → o'.info.isPersisted = true → o.key ≠ o'.key
  all : ∀ o ∈ stored s d, o ∈ rs
  total : Ramp.totalTraffic rs = Ramp.totalTraffic (stored s d)

theorem Listed.perm (listed : Listed s d rs) {rs' : List Release} (perm : rs'.Perm rs) :
    Listed s d rs' where
  labelled := fun o member => listed.labelled o (perm.mem_iff.1 member)
  known := fun o member => listed.known o (perm.mem_iff.1 member)
  fresh := fun o member => listed.fresh o (perm.mem_iff.1 member)
  apart := by
    refine (perm.pairwise_iff ?_).2 listed.apart
    intro o o' apart old old' same
    exact apart old' old same.symm
  all := fun o member => perm.mem_iff.2 (listed.all o member)
  total := (totalTraffic_perm perm).trans listed.total

theorem Listed.of_agrees (listed : Listed s d rs) (agrees : Agrees .releases s s') :
    Listed s' d rs where
  labelled := listed.labelled
  known := by
    intro o member old
    rw [agrees.getByKey]
    exact listed.known o member old
  fresh := listed.fresh
  apart := listed.apart
  all := by
    intro o member
    unfold stored at member
    rw [agrees.scan] at member
    exact listed.all o member
  total := by
    unfold stored
    rw [agrees.scan]
    exact listed.total

/-- What the index finds is listed. -/
theorem listed_matching (sound : s.Sound) (indexed : s.Indexed) (d : Descriptor) :
    Listed s d (s.matching .releases (Selector.ofTarget d.spec.app d.spec.target)) := by
  have perm := matching_perm_scan sound indexed .releases d.spec.app d.spec.target
  have known : ∀ o ∈ stored s d, s.getByKey .releases o.key = some o := fun o member =>
    ((mem_scan sound).1 member).1
  refine Listed.perm ⟨fun o member => ((mem_scan sound).1 member).2,
    fun o member _ => known o member, ?_, ?_, fun o member => member, rfl⟩ perm
  · intro o member new
    rw [sound.accepted _ _ o (known o member)] at new
    cases new
  · exact (List.pairwise_map.1 (nodup_scan sound)).imp fun ne _ _ => ne

/-- A new release may be listed beside the stored ones. -/
theorem Listed.append_new (listed : Listed s d rs) {new : Release} (fresh : new.IsFresh)
    (unseen : new.info.isPersisted = false)
    (labelled : (Selector.ofTarget d.spec.app d.spec.target).accepts new.info.labels = true) :
    Listed s d (rs ++ [new]) := by
  have either {P : Release → Prop} (old : ∀ o ∈ rs, P o) (here : P new) : ∀ o ∈ rs ++ [new], P o := by
    intro o member
    rcases List.mem_append.1 member with inside | last
    · exact old o inside
    · rw [List.mem_singleton.1 last]
      exact here
  constructor
  · exact either listed.labelled labelled
  · refine either listed.known fun old => ?_
    rw [unseen] at old
    cases old
  · exact either listed.fresh fun _ => fresh
  · refine List.pairwise_append.2 ⟨listed.apart, List.pairwise_singleton .., ?_⟩
    intro o _ o' last _ old
    rw [List.mem_singleton.1 last, unseen] at old
    cases old
  · intro o member
    exact List.mem_append_left _ (listed.all o member)
  · rw [totalTraffic_append, listed.total, totalTraffic_cons, fresh.traffic]
    rfl

theorem accepts_ofTarget_self (app target : String) :
    (Selector.ofTarget app target).accepts (Label.ofTarget app target) = true := by
  rw [Selector.accepts_ofTarget]
  show (((∅ : Dict String).insert Label.app app |>.insert Label.target target).insert
      Label.managedBy Label.manager).get? Label.app = some app ∧
    (((∅ : Dict String).insert Label.app app |>.insert Label.target target).insert
      Label.managedBy Label.manager).get? Label.target = some target
  constructor
  · rw [Dict.get?_insert_of_ne _ _ (by decide), Dict.get?_insert_of_ne _ _ (by decide),
      Dict.get?_insert_self]
  · rw [Dict.get?_insert_of_ne _ _ (by decide), Dict.get?_insert_self]

theorem accepts_insert {app target : String} {labels : Dict String} (label value : String)
    (app_ne : Label.app ≠ label) (target_ne : Label.target ≠ label)
    (accepts : (Selector.ofTarget app target).accepts labels = true) :
    (Selector.ofTarget app target).accepts (labels.insert label value) = true := by
  rw [Selector.accepts_ofTarget] at accepts ⊢
  rwa [Dict.get?_insert_of_ne _ _ app_ne, Dict.get?_insert_of_ne _ _ target_ne]

/-- The release that a pass cuts has the labels of its descriptor. -/
theorem accepts_cut (d : Descriptor) (build : Build) (hash : String)
    (config : Option (String × String)) : (Selector.ofTarget d.spec.app d.spec.target).accepts
      (Release.cut d build hash config).info.labels = true := by
  have base := accepts_insert Label.targetHash hash (by decide) (by decide)
    (accepts_insert Label.build build.name (by decide) (by decide)
      (accepts_ofTarget_self d.spec.app d.spec.target))
  unfold Release.cut
  cases config with
  | none => exact base
  | some entry => exact accepts_insert _ _ (by decide) (by decide) base

/-- The release that a pass cuts if it has to. -/
def cutFor (s : Store) (d : Descriptor) (build : Build) : Release :=
  Release.cut d build d.spec.fingerprint ((Feedback.configOf s d).map fun c => (c.1.hash, c.2))

/-- The releases of a pass are the listed ones and, if none of them is current, a new one. -/
theorem lineup_eq {build : Build} (built : s.get .builds "" d.spec.build = some build) :
    lineup s d = Release.sortNewestFirst (Feedback.releasesOf s d ++
      if (Feedback.releasesOf s d).any (isCurrent d.spec.fingerprint (Feedback.configOf s d)) then []
      else [cutFor s d build]) := by
  unfold lineup
  rw [built]
  show Release.sortNewestFirst (if _ then _ else _) = _
  congr 1
  unfold Feedback.releasesOf
  split
  · rw [List.append_nil]
  · rfl

theorem mem_lineup {build : Build} (built : s.get .builds "" d.spec.build = some build)
    {o : Release} : o ∈ lineup s d ↔ o ∈ Feedback.releasesOf s d ∨
      ¬ (Feedback.releasesOf s d).any
          (isCurrent d.spec.fingerprint (Feedback.configOf s d)) = true ∧ o = cutFor s d build := by
  rw [lineup_eq built, Release.sortNewestFirst, List.mem_mergeSort, List.mem_append]
  split <;> simp [*]

theorem lineup_ne_nil {build : Build} (built : s.get .builds "" d.spec.build = some build) :
    lineup s d ≠ [] := by
  have inside : ∃ o, o ∈ lineup s d := by
    by_cases current : (Feedback.releasesOf s d).any
        (isCurrent d.spec.fingerprint (Feedback.configOf s d)) = true
    · obtain ⟨o, listed, -⟩ := List.any_eq_true.1 current
      exact ⟨o, (mem_lineup built).2 (.inl listed)⟩
    · exact ⟨_, (mem_lineup built).2 (.inr ⟨current, rfl⟩)⟩
  obtain ⟨o, member⟩ := inside
  exact List.ne_nil_of_mem member

/-- **The releases of a pass.**  They are those that are stored, unless a new one is due. -/
theorem listed_lineup (sound : s.Sound) (indexed : s.Indexed) {build : Build}
    (built : s.get .builds "" d.spec.build = some build) :
    Listed s d (lineup s d) ∧ lineup s d ≠ [] ∧
      ((s.matching .releases (Selector.ofTarget d.spec.app d.spec.target)).any
          (isCurrent d.spec.fingerprint (Feedback.configOf s d)) = true →
        ∀ o ∈ lineup s d, o.info.isPersisted = true) := by
  have listed : Listed s d (Feedback.releasesOf s d) := listed_matching sound indexed d
  refine ⟨?_, lineup_ne_nil built, fun current o member => ?_⟩
  · rw [lineup_eq built]
    refine Listed.perm ?_ (List.mergeSort_perm ..)
    split
    · rw [List.append_nil]
      exact listed
    · exact listed.append_new (Release.cut_isFresh ..) rfl (accepts_cut ..)
  · rcases (mem_lineup built).1 member with inside | ⟨none_, -⟩
    · exact sound.accepted _ _ o ((mem_ofTarget sound).1 inside).1
    · exact absurd current none_

end Cutover.Deployment
