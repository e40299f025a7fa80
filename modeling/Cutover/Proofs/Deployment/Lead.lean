/-
# Cutover.Proofs.Deployment.Lead -- how long a release that was cut stays first

A release that no store has seen comes before all stored ones.  Once it is stored its time and
its name decide: it comes before those that were created earlier, and among those that were
created in the same second before those with smaller names (`isNewer_stored_iff`).

What it has left behind it stays behind it, since nobody is renamed or dated anew.  So where the
names of that second let it come first, a later pass finds before it only what has come since
(`cut_release_leads_until_overtaken`), whatever else is done to the store in between.

Another release of the same second with a greater name takes the first place from it
(`storing_changes_first_place`).
-/
import Cutover.Proofs.Deployment.Course
import Cutover.Proofs.Deployment.Retention

namespace Cutover

set_option autoImplicit false

open Pass Store

/-! ## Before and after a release is stored -/

namespace Release

variable {s s' : Store} {f r o o' r' : Release}

theorem isNewer_iff {a b : Release} : isNewer a b = true ↔ Precedes a b := by
  rw [← recency_eq_lt_iff]
  exact decide_eq_true_iff

theorem isNewer_unseen (unseen : f.info.isPersisted = false) (seen : o.info.isPersisted = true) :
    isNewer f o = true := isNewer_iff.2 (.inl ⟨unseen, seen⟩)

/-- Of two stored releases the one that is not older is newer if it has the later time or the
greater name. -/
theorem isNewer_stored_iff (seen : r.info.isPersisted = true) (seen' : o.info.isPersisted = true)
    (past : o.info.createdAt ≤ r.info.createdAt) :
    isNewer r o = true ↔ o.info.createdAt < r.info.createdAt ∨ o.name < r.name := by
  rw [isNewer_iff, Precedes, seen, seen']
  have at_once : ¬ o.info.createdAt < r.info.createdAt → r.info.createdAt = o.info.createdAt := by
    omega
  constructor
  · rintro (⟨⟨⟩, -⟩ | ⟨-, later | ⟨-, greater⟩⟩)
    · exact .inl later
    · exact .inr greater
  · rintro (later | greater)
    · exact .inr ⟨rfl, .inl later⟩
    · by_cases later : o.info.createdAt < r.info.createdAt
      · exact .inr ⟨rfl, .inl later⟩
      · exact .inr ⟨rfl, .inr ⟨at_once later, greater⟩⟩

/-- Who is newer depends on the births of stored releases alone. -/
theorem isNewer_of_sameBirth (seen : r.info.isPersisted = r'.info.isPersisted)
    (seen' : o.info.isPersisted = o'.info.isPersisted) (birth : SameBirth r r')
    (birth' : SameBirth o o') : isNewer r' o' = isNewer r o := by
  rw [Bool.eq_iff_iff, isNewer_iff, isNewer_iff, Precedes, Precedes, birth.createdAt,
    birth.name, birth'.createdAt, birth'.name, seen, seen']

/-- What a store makes of a release that it accepts. -/
theorem created_spec (made : s.create f = .ok (r, s')) :
    r.info.isPersisted = true ∧ r.name = f.name := by
  obtain ⟨-, rfl, -⟩ := eq_of_create made
  exact ⟨rfl, rfl⟩

/-- A release comes first of those with other names if it is newer than all of them. -/
theorem head_sortNewestFirst_iff {rs os : List Release} (perm : rs.Perm (r :: os))
    (names : ∀ o ∈ os, o.name ≠ r.name) :
    (sortNewestFirst rs)[0]? = some r ↔ ∀ o ∈ os, isNewer r o = true := by
  have sorts : (sortNewestFirst rs).Perm (r :: os) := (List.mergeSort_perm ..).trans perm
  constructor
  · intro first o inside
    have older : isNewer o r = false := by
      rw [isNewer_eq_false_iff]
      have sorted := sorted_sortNewestFirst rs
      cases found : sortNewestFirst rs with
      | nil =>
          rw [found] at first
          cases first
      | cons x rest =>
          rw [found] at first sorted sorts
          cases first
          exact (List.pairwise_cons.1 sorted).1 o ((List.perm_cons r).1 sorts |>.mem_iff.2 inside)
    exact (isNewer_or_name_eq older).resolve_right (names o inside)
  · intro newer
    refine head_sortNewestFirst (perm.mem_iff.2 List.mem_cons_self) fun o inside ne => ?_
    exact of_decide_eq_true (newer o ((List.mem_cons.1 (perm.mem_iff.1 inside)).resolve_left ne))

/-- A stored release comes first of those that are no later if, of those of its second, all have
smaller names. -/
theorem head_stored_iff {rs os : List Release} (seen : r.info.isPersisted = true)
    (others : ∀ o ∈ os, o.info.isPersisted = true ∧ o.info.createdAt ≤ r.info.createdAt ∧
      o.name ≠ r.name) (perm : rs.Perm (r :: os)) :
    (sortNewestFirst rs)[0]? = some r ↔
      ∀ o ∈ os, o.info.createdAt = r.info.createdAt → o.name < r.name := by
  rw [head_sortNewestFirst_iff perm fun o inside => (others o inside).2.2]
  refine forall₂_congr fun o inside => ?_
  obtain ⟨accepted, past, -⟩ := others o inside
  rw [isNewer_stored_iff seen accepted past]
  constructor
  · exact fun first at_once => first.resolve_left (by omega)
  · intro first
    rcases Nat.lt_or_eq_of_le past with earlier | at_once
    · exact .inl earlier
    · exact .inr (first at_once)

end Release

namespace Deployment

open Feedback

variable {s s' s₁ s₂ : Store} {d : Descriptor} {xs : List Release} {now : Nat}
  {result : Ramp.Result} {build : Build} {r : Release} {events : List Event}

/-! ## After the pass that cuts it -/

theorem mem_stored_of_listed (sound : s.Sound) {o : Release} (listed : o ∈ releasesOf s d) :
    o ∈ stored s d := by
  obtain ⟨found, accepts, -⟩ := known_of_listed sound listed
  exact (mem_scan sound).2 ⟨found, accepts⟩

/-- The releases of a descriptor were created no later than now, and those of this second have
smaller names than a release. -/
def Outranked (s : Store) (d : Descriptor) (r : Release) : Prop :=
  ∀ o ∈ stored s d, o.info.createdAt ≤ s.clock ∧ (o.info.createdAt = s.clock → o.name < r.name)

/-- A release that a pass has stored under a free key is dated by the clock. -/
theorem dated_of_new (sound : s.Sound) {key : String} {action : Action}
    (done : run key now s = .ok action s') (member : r ∈ stored s' d)
    (free : s.getByKey .releases r.key = none) : r.info.createdAt = s.clock := by
  have reaches : s.Reaches s' := Leads.of_ok (proceeds_run sound key now) done
  have found := ((mem_scan (reaches.sound sound)).1 member).1
  rcases reaches.sameBirth_or_dated sound found with ⟨o, stood, -⟩ | dated
  · rw [free] at stood
    cases stood
  · exact dated

/-- It is newer than all others of its descriptor. -/
theorem Ran.isNewer_new (ran : Ran s d now s' build result s₁ xs s₂) (sound : s.Sound)
    (member : r ∈ stored s' d) (free : s.getByKey .releases r.key = none)
    (dated : r.info.createdAt = s.clock) (outranked : Outranked s d r) :
    ∀ o ∈ stored s' d, o = r ∨ Release.isNewer r o = true := by
  intro o inside
  have sound' := ran.followed.sound
  have accepted {x : Release} (there : x ∈ stored s' d) : x.info.isPersisted = true :=
    sound'.accepted _ _ x ((mem_scan sound').1 there).1
  have older {p : Release} (before : p ∈ stored s d) (time : o.info.createdAt = p.info.createdAt)
      (name : o.name = p.name) : Release.isNewer r o = true := by
    obtain ⟨past, same⟩ := outranked p before
    rw [← dated, ← time] at past same
    refine (Release.isNewer_stored_iff (accepted member) (accepted inside) past).2 ?_
    rcases Nat.lt_or_eq_of_le past with earlier | at_once
    · exact .inl earlier
    · exact .inr (name ▸ same at_once)
  rcases ran.mem_stored inside with ⟨p, zipped, held⟩ | found
  · have rework := ran.ramped.rework p zipped
    rcases (mem_lineup ran.built).1 (List.of_mem_zip zipped).2 with listed | ⟨-, cut⟩
    · have known := known_of_listed sound listed
      have seen : p.1.info.isPersisted = true := rework.isPersisted.trans known.2.2
      refine .inr (older (mem_stored_of_listed sound listed) ?_ ?_)
      · rw [held.dated seen, rework.info]
      · rw [held.name]
        unfold Object.name
        rw [rework.info]
    · obtain ⟨-, n, rework', held'⟩ := ran.eq_cut_of_new sound member free
      have same : o.key = r.key := by
        rw [held.key, rework.key, held'.key, rework'.key, cut]
      have found := ((mem_scan sound').1 inside).1
      rw [same, ((mem_scan sound').1 member).1] at found
      exact .inl (Option.some.inj found).symm
  · have accepts := ((mem_scan sound').1 inside).2
    exact .inr (older ((mem_scan sound).2 ⟨found, accepts⟩) rfl rfl)

/-! ## On the passes that follow -/

/-- A release has come since a time: it is new, it was not among the releases of the descriptor,
or something has been created under its key. -/
def CameSince (s : Store) (d : Descriptor) (events : List Event) (x : Release) : Prop :=
  x.info.isPersisted = false ∨ (∀ o ∈ stored s d, o.key ≠ x.key) ∨
    ¬ NoneCreated .releases x.key events

/-- Of some releases one is the newest but for those that have come since a time. -/
def Foremost (s : Store) (d : Descriptor) (events : List Event) (r : Release)
    (rs : List Release) : Prop :=
  ∀ x ∈ rs, x = r ∨ Release.isNewer r x = true ∨ CameSince s d events x

theorem getByKey_of_mem_lineup (sound : s.Sound) {x : Release} (inside : x ∈ lineup s d)
    (seen : x.info.isPersisted = true) : s.getByKey .releases x.key = some x := by
  cases built : s.get .builds "" d.spec.build with
  | none => simp [lineup, built] at inside
  | some build =>
      rcases (mem_lineup built).1 inside with listed | ⟨-, cut⟩
      · exact (known_of_listed sound listed).1
      · rw [cut] at seen
        cases seen

/-- What was the newest stays foremost, as long as it is there. -/
theorem foremost_lineup (sound : s.Sound) (member : r ∈ stored s d)
    (newest : ∀ o ∈ stored s d, o = r ∨ Release.isNewer r o = true)
    (history : History s events s') (sound' : s'.Sound)
    (kept : NoneCreated .releases r.key events) {r' : Release}
    (found : s'.getByKey .releases r.key = some r') (d' : Descriptor) :
    Foremost s d events r' (lineup s' d') := by
  intro x inside
  by_cases came : CameSince s d events x
  · exact .inr (.inr came)
  unfold CameSince at came
  push Not at came
  obtain ⟨seen, ⟨o, before, same⟩, none_⟩ := came
  have known := getByKey_of_mem_lineup sound' inside (by simpa using seen)
  -- both have been there since the time, under the same names and with the same times
  have birth {y y' : Release} (there : y ∈ stored s d)
      (found : s'.getByKey .releases y.key = some y')
      (kept : NoneCreated .releases y.key events) :
      SameBirth y y' ∧ y.info.isPersisted = y'.info.isPersisted := by
    obtain ⟨was, stood, birth⟩ := history.sameBirth kept found
    have here := ((mem_scan sound).1 there).1
    rw [Option.some.inj (here.symm.trans stood)]
    exact ⟨birth, (sound.accepted _ _ was stood).trans (sound'.accepted _ _ y' found).symm⟩
  rw [← same] at known none_
  rcases newest o before with rfl | newer
  · exact .inl (Option.some.inj (known.symm.trans found))
  · obtain ⟨birth_o, seen_o⟩ := birth before known none_
    obtain ⟨birth_r, seen_r⟩ := birth member found kept
    refine .inr (.inl ?_)
    rw [Release.isNewer_of_sameBirth seen_r seen_o birth_r birth_o]
    exact newer

/-- If it may be given traffic it is the candidate, unless a newcomer is. -/
theorem Foremost.candidate {rs : List Release} (foremost : Foremost s d events r rs)
    (inside : r ∈ rs) (deployable : Release.isDeployable r = true) :
    ∃ c x, Release.firstDeployable rs = some c ∧ rs[c]? = some x ∧
      (x = r ∨ CameSince s d events x) := by
  obtain ⟨i, at_⟩ := List.getElem?_of_mem inside
  obtain ⟨c, first⟩ := Option.isSome_iff_exists.1 (Release.firstDeployable_isSome at_ deployable)
  obtain ⟨x, here, -⟩ := Release.firstDeployable_spec first
  refine ⟨c, x, first, here, ?_⟩
  rcases foremost x (List.mem_of_getElem? here) with same | newer | came
  · exact .inl same
  · rw [Release.not_isNewer_firstDeployable first here r inside deployable] at newer
    cases newer
  · exact .inr came

/-- A newer release does not stand behind an older one. -/
theorem not_isNewer_of_lt {i j : Nat} {a b : Release} (lt : i < j)
    (at_ : (lineup s d)[i]? = some a) (behind : (lineup s d)[j]? = some b) :
    Release.isNewer b a = false := by
  obtain ⟨_, rfl⟩ := List.getElem?_eq_some_iff.1 at_
  obtain ⟨_, rfl⟩ := List.getElem?_eq_some_iff.1 behind
  have sorted : (lineup s d).Pairwise fun a b => (Release.recency a b).isLE := by
    unfold lineup
    split
    · exact Release.sorted_sortNewestFirst _
    · exact .nil
  exact (Release.isNewer_eq_false_iff ..).2 (List.pairwise_iff_getElem.1 sorted i j _ _ lt)

/-- The first release is the candidate if it may be given traffic. -/
theorem firstDeployable_of_head (head : (lineup s d)[0]? = some r)
    (deployable : Release.isDeployable r = true) :
    Release.firstDeployable (lineup s d) = some 0 := by
  refine Release.firstDeployable_eq_some_iff.2 ⟨r, head, deployable, fun i o at_ _ => ⟨?_, ?_⟩⟩
  · rcases Nat.eq_zero_or_pos i with rfl | pos
    · rw [Option.some.inj (at_.symm.trans head)]
      exact Release.not_isNewer_self r
    · exact not_isNewer_of_lt pos head at_
  · exact fun before => absurd before (Nat.not_lt_zero i)

theorem nodup_releases_lineup (sound : s.Sound)
    (built : s.get .builds "" d.spec.build = some build) : (lineup s d).Nodup := by
  have listed : (releasesOf s d).Nodup :=
    (nodup_matching sound (Selector.entries_ofTarget _ _)).of_map
  rw [lineup_eq built]
  refine (List.mergeSort_perm ..).nodup_iff.2 (List.nodup_append.2 ⟨listed, ?_, ?_⟩)
  · split
    · exact List.nodup_nil
    · exact List.nodup_singleton _
  · rintro o inside _ last rfl
    have seen := (known_of_listed sound inside).2.2
    split at last
    · cases last
    · rw [List.mem_singleton.1 last] at seen
      cases seen

/-- A pass that drops it has before it as many newcomers as releases are kept at any age. -/
theorem Foremost.dropped {d₂ : Descriptor} (foremost : Foremost s d events r (lineup s' d₂))
    (sound' : s'.Sound) {key : String} {action : Action}
    (described : s'.getByKey .descriptors key = some d₂)
    (found : s'.getByKey .releases r.key = some r) (done : run key now s' = .ok action s₂)
    (gone : s₂.getByKey .releases r.key = none) :
    ((lineup s' d₂).take Release.kept).length = Release.kept ∧
      ∀ x ∈ (lineup s' d₂).take Release.kept, CameSince s d events x := by
  obtain ⟨build, result, _, xs, _, ran⟩ := (leads_run_filed sound' described now).of_ok done
  obtain ⟨i, n, at_, -, beyond, -⟩ := (ran.dropped_iff sound' found).1 gone
  obtain ⟨lt, here⟩ := List.getElem?_eq_some_iff.1 at_
  refine ⟨by rw [List.length_take]; omega, fun x inside => ?_⟩
  obtain ⟨j, before, there⟩ := List.mem_take_iff_getElem.1 inside
  have apart : j < i := by omega
  rcases foremost x (there ▸ List.getElem_mem _) with same | newer | came
  · have indices := (nodup_releases_lineup sound' ran.built).getElem_inj_iff.1
      (there.trans (same.trans here.symm))
    omega
  · have order := not_isNewer_of_lt apart (List.getElem?_eq_some_iff.2 ⟨_, there⟩) at_
    rw [newer] at order
    cases order
  · exact came

/-! ## The lead of a release -/

/-- **How long a release that was cut stays first.**  A release that no store has seen comes
first of any stored ones.  Stored at the clock's time, which is past for none of them, it comes
before those that were created earlier and, of the same second, those with smaller names; it
comes first if these are all.

If so, the release that a pass cuts was the candidate of that pass, and is newer than all
others when it ends.  Whatever is done to the store then, and unless a release is created
under its key, every list that a later pass starts from has before it only releases that have
come since.  It is the candidate of the ramp as long as it may be given traffic, unless one of
these is, and a pass drops it only behind ten of them. -/
theorem cut_release_leads_until_overtaken (s : Store) :
    (∀ (f r : Release) (s' : Store) (os fs rs : List Release),
      (∀ o ∈ os, o.info.isPersisted = true ∧ o.info.createdAt ≤ s.clock ∧ o.name ≠ f.name) →
      f.info.isPersisted = false → s.create f = .ok (r, s') → r.info.createdAt = s.clock →
      fs.Perm (f :: os) → rs.Perm (r :: os) →
      (Release.sortNewestFirst fs)[0]? = some f ∧
      (∀ o ∈ os, Release.isNewer f o = true ∧ (Release.isNewer r o = true ↔
        o.info.createdAt < s.clock ∨ o.name < f.name)) ∧
      ((Release.sortNewestFirst rs)[0]? = some r ↔
        ∀ o ∈ os, o.info.createdAt = s.clock → o.name < f.name)) ∧
    ∀ (d : Descriptor) (key : String) (now : Nat) (action : Action) (s₁ : Store) (r : Release),
      s.Sound → s.getByKey .descriptors key = some d → run key now s = .ok action s₁ →
      r ∈ stored s₁ d → s.getByKey .releases r.key = none → Outranked s d r →
      (∃ f, (lineup s d)[0]? = some f ∧ f.info.isPersisted = false ∧ f.key = r.key ∧
        Release.firstDeployable (lineup s d) = some 0) ∧
      r.info.createdAt = s.clock ∧
      (∀ o ∈ stored s₁ d, o = r ∨ Release.isNewer r o = true) ∧
      ∀ (deeds : List Deed) (events : List Event) (d₂ : Descriptor) (r₂ : Release),
        (s₁.course deeds).feed = s₁.feed ++ events → NoneCreated .releases r.key events →
        (s₁.course deeds).getByKey .releases r.key = some r₂ →
        let rs := lineup (s₁.course deeds) d₂
        Foremost s₁ d events r₂ rs ∧
        (r₂ ∈ rs → Release.isDeployable r₂ = true →
          ∃ c x, Release.firstDeployable rs = some c ∧ rs[c]? = some x ∧
            (x = r₂ ∨ CameSince s₁ d events x)) ∧
        ∀ (key₂ : String) (later : Nat) (action₂ : Action) (s₂ : Store),
          (s₁.course deeds).getByKey .descriptors key₂ = some d₂ →
          run key₂ later (s₁.course deeds) = .ok action₂ s₂ →
          s₂.getByKey .releases r.key = none →
          (rs.take Release.kept).length = Release.kept ∧
            ∀ x ∈ rs.take Release.kept, CameSince s₁ d events x := by
  constructor
  · intro f r s' os fs rs others unseen made dated perm perm'
    obtain ⟨seen, name⟩ := Release.created_spec made
    have fresh : ∀ o ∈ os, Release.isNewer f o = true := fun o inside =>
      Release.isNewer_unseen unseen (others o inside).1
    have first := Release.head_sortNewestFirst_iff perm fun o inside => (others o inside).2.2
    rw [← dated, ← name] at others ⊢
    refine ⟨first.2 fresh, fun o inside => ⟨fresh o inside, ?_⟩, ?_⟩
    · exact Release.isNewer_stored_iff seen (others o inside).1 (others o inside).2.1
    · exact Release.head_stored_iff seen others perm'
  · intro d key now action s₁ r sound described done member free outranked
    obtain ⟨build, result, _, xs, _, ran⟩ := (leads_run_filed sound described now).of_ok done
    have sound₁ := ran.followed.sound
    obtain ⟨none_, n, rework, held⟩ := ran.eq_cut_of_new sound member free
    have head := head_lineup sound ran.built none_
    have dated := dated_of_new sound done member free
    have newest := ran.isNewer_new sound member free dated outranked
    refine ⟨⟨_, head, rfl, (held.key.trans rework.key).symm, ?_⟩, dated, newest, ?_⟩
    · exact firstDeployable_of_head head rfl
    · intro deeds events d₂ r₂ told kept found
      obtain ⟨sound₂, events', told', history⟩ := history_course sound₁ deeds
      obtain rfl : events = events' := List.append_cancel_left (told.symm.trans told')
      have foremost := foremost_lineup sound₁ member newest history sound₂ kept found d₂
      have same : r₂.key = r.key := sound₂.keyed _ _ r₂ found
      refine ⟨foremost, foremost.candidate, fun key₂ later action₂ s₂ described₂ done₂ gone => ?_⟩
      rw [← same] at found gone
      exact foremost.dropped sound₂ described₂ found done₂ gone

namespace Sample

open Cutover.Sample

/-- A release of another build that is in service. -/
def incumbent : Release :=
  { release "next-0" 10 .active 100 4 with info.labels := Label.ofTarget "web" "prod" }

theorem distinct_incumbent : Distinct [incumbent] where
  accepted := by simp [incumbent, release, Meta.isPersisted]
  labelled := by
    intro r member
    rw [List.mem_singleton.1 member]
    exact accepts_ofTarget_self "web" "prod"
  keys := List.nodup_singleton _

theorem stored_incumbent : stored (holding [incumbent]) described = [incumbent] :=
  List.perm_singleton.1 distinct_incumbent.scanned.2

theorem none_current_incumbent : ¬ (releasesOf (holding [incumbent]) described).any
    (isCurrent described.spec.fingerprint (configOf (holding [incumbent]) described)) = true := by
  rw [none_isCurrent_iff]
  intro o listed
  have same : o = incumbent := by simpa using distinct_incumbent.releasesOf.mem_iff.1 listed
  rintro ⟨hash, -⟩
  rw [same, show incumbent.label? Label.targetHash = none by decide] at hash
  cases hash

theorem free_cut_incumbent :
    (holding [incumbent]).getByKey .releases
      (cutFor (holding [incumbent]) described Sample.build).key = none := by
  rw [holding, List.foldl_cons, List.foldl_nil, getByKey_commit_of_ne]
  · rw [base, (agrees_commit (by decide) _ _ _ _).getByKey,
      (agrees_commit (by decide) _ _ _ _).getByKey]
    rfl
  · intro same
    have names := congrArg String.toList same
    simp [cutFor, incumbent, release, Release.cut, Release.nameFor, Object.key, Meta.key,
      Meta.fresh, objectKey, Object.name, Object.targetNamespace,
      show described.spec.app = "web" from rfl, show described.spec.target = "prod" from rfl]
      at names

/-- The release that is cut is first from then on, since the other one is of another second. -/
theorem cut_release_leads_incumbent :
    ∃ action s₁ r, run "web-prod" 100 (holding [incumbent]) = .ok action s₁ ∧
      r ∈ stored s₁ described ∧ (holding [incumbent]).getByKey .releases r.key = none ∧
      Outranked (holding [incumbent]) described r ∧ r.info.createdAt = 100 ∧
      Foremost s₁ described [] r (lineup s₁ described) := by
  have sound := distinct_incumbent.scanned.1
  have known := described_holding [incumbent]
  obtain ⟨action, s₁, done, build, result, _, xs, _, ran⟩ :=
    ends_run_free sound known (built_holding _) free_cut_incumbent 100
  obtain ⟨r, member, free⟩ := ran.exists_new sound none_current_incumbent
  have outranked : Outranked (holding [incumbent]) described r := by
    intro o before
    rw [stored_incumbent, List.mem_singleton] at before
    rw [before]
    exact ⟨by decide, fun at_once => absurd at_once (by decide)⟩
  obtain ⟨-, dated, -, later⟩ := (cut_release_leads_until_overtaken _).2 described "web-prod" 100
    action s₁ r sound known done member free outranked
  have found := ((mem_scan ran.followed.sound).1 member).1
  obtain ⟨foremost, -⟩ := later [] [] described r (List.append_nil _).symm nofun found
  exact ⟨action, s₁, r, done, member, free, outranked, dated, foremost⟩

/-- A release that was stored in the second 100. -/
def rival : Release := release "web-2" 100 .none 0 0

/-- A release that no store has seen. -/
def newcomer : Release :=
  { release "web-1" 0 .none 0 0 with info := Meta.fresh "prod" "web-1" }

end Sample

/-- A release comes first before it is stored and, stored in the second in which another one was
created that has a greater name, comes after that one. -/
theorem storing_changes_first_place :
    ∃ (s s' : Store) (f r o : Release), s.getByKey .releases o.key = some o ∧
      o.info.isPersisted = true ∧ o.info.createdAt ≤ s.clock ∧ o.name ≠ f.name ∧
      f.info.isPersisted = false ∧ s.create f = .ok (r, s') ∧ r.info.createdAt = s.clock ∧
      Release.isNewer f o = true ∧ Release.firstDeployable [f, o] = some 0 ∧
      Release.isNewer r o = false ∧ Release.firstDeployable [r, o] = some 1 :=
  ⟨(Store.empty 100).commit Sample.rival ∅ .created, _, Sample.newcomer, _, Sample.rival,
    by decide, by decide, by decide, by decide, by decide, create_eq (by decide), by decide,
    by decide, by decide, by decide, by decide⟩

end Deployment
end Cutover
