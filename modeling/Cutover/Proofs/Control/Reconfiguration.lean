/-
# Cutover.Proofs.Control.Reconfiguration -- which descriptors a change of configuration wakes

What a descriptor is configured with is found by queries for one label each: that of its
application and those of the shared configs it lists (`queries`).  An app config is published for a
descriptor if it bears one of these labels, so a write of a config that is published for it
neither before nor after leaves every query alone, and with them the configuration
(`matching_of_commits`, `resolve_congr`).

The event of a write carries the labels after it, or before a deletion, and wakes the descriptors
these are published for.  A descriptor from which an update takes a config away is
configured anew and is not woken (`reconfiguration_wakes`, `withdrawn_config_wakes_nobody`).
-/
import Cutover.Control.Triggers
import Cutover.Configuration
import Cutover.Proofs.Control.Wakeup
import Cutover.Proofs.Ramp.Rollout
import Cutover.Proofs.Store.Feed

namespace Cutover

set_option autoImplicit false

/-! ## Waking -/

namespace Control.Controllers

variable {c : Controllers} {key : String}

@[simp] theorem closed_wake (c : Controllers) (w : Wake) :
    (c.wake w).deployments.queue.closed = c.deployments.queue.closed := by
  cases w with
  | deployment key => exact WorkQueue.closed_enqueue ..
  | release key => rfl

theorem wanted_wake (opened : c.deployments.queue.closed = false) (w : Wake) :
    (c.wake w).deployments.queue.Wanted key ↔
      c.deployments.queue.Wanted key ∨ w = .deployment key := by
  cases w with
  | deployment other =>
      refine (WorkQueue.wanted_enqueue_iff opened).trans (or_congr_right ?_)
      exact ⟨fun same => same ▸ rfl, fun same => (Wake.deployment.inj same).symm⟩
  | release other => simp [wake]

theorem wanted_wakeAll (opened : c.deployments.queue.closed = false) (ws : List Wake) :
    (c.wakeAll ws).deployments.queue.Wanted key ↔
      c.deployments.queue.Wanted key ∨ .deployment key ∈ ws := by
  induction ws generalizing c with
  | nil => simp [wakeAll]
  | cons w ws ih =>
      show ((c.wake w).wakeAll ws).deployments.queue.Wanted key ↔ _
      rw [ih ((closed_wake c w).trans opened), wanted_wake opened, List.mem_cons, or_assoc,
        eq_comm (a := w)]

/-- An event of an app config calls for the descriptors that its labels are published for. -/
theorem wanted_route {s : Store} (sound : s.Sound) {d : Descriptor} (stored : d ∈ s.list .descriptors)
    (opened : c.deployments.queue.closed = false) {e : Event} (kind : e.kind = .appConfigs) :
    (c.route s e).deployments.queue.Wanted d.key ↔
      c.deployments.queue.Wanted d.key ∨ Wake.isPublishedFor e.labels d = true := by
  unfold route Wake.ofEvent
  rw [kind, wanted_wakeAll opened]
  refine or_congr_right ?_
  unfold Wake.descriptors
  simp only [List.mem_map, List.mem_filter, Wake.deployment.injEq]
  constructor
  · rintro ⟨other, ⟨stored', published⟩, same⟩
    have found := (Store.mem_list sound).1 stored
    rw [← same, (Store.mem_list sound).1 stored'] at found
    rwa [← Option.some.inj found]
  · exact fun published => ⟨d, ⟨stored, published⟩, rfl⟩

end Control.Controllers

/-! ## Queries -/

namespace Configuration

variable {s s' : Store} {d : Descriptor}

/-- The labels, with their values, by which the configs of a descriptor are found. -/
def queries (d : Descriptor) : List (String × String) :=
  (Label.app, d.spec.app) :: d.spec.configs.map (Label.sharedConfig, ·)

theorem isPublishedFor_iff {labels : Dict String} : Control.Wake.isPublishedFor labels d = true ↔
    ∃ term ∈ queries d, labels.get? term.1 = some term.2 := by
  unfold Control.Wake.isPublishedFor
  rw [Bool.or_eq_true, decide_eq_true_eq, Option.any_eq_true]
  constructor
  · rintro (has | ⟨name, has, listed⟩)
    · exact ⟨_, List.mem_cons_self, has⟩
    · exact ⟨(Label.sharedConfig, name),
        List.mem_cons_of_mem _ (List.mem_map_of_mem (List.contains_iff_mem.1 listed)), has⟩
  · rintro ⟨term, asked, has⟩
    rcases List.mem_cons.1 asked with rfl | asked
    · exact .inl has
    · obtain ⟨name, listed, rfl⟩ := List.mem_map.1 asked
      exact .inr ⟨name, has, List.contains_iff_mem.2 listed⟩

/-- A configuration is made of what the queries find. -/
theorem resolve_congr (same : ∀ term ∈ queries d,
    s'.matching .appConfigs (Selector.any.require term.1 term.2) =
      s.matching .appConfigs (Selector.any.require term.1 term.2)) :
    resolve s' d = resolve s d := by
  have app : appEntries s' d = appEntries s d := by
    unfold appEntries merged
    rw [same (Label.app, d.spec.app) List.mem_cons_self]
  have shared : sharedEntries s' d = sharedEntries s d := by
    unfold sharedEntries merged
    refine List.filterMap_congr fun name listed => ?_
    rw [same (Label.sharedConfig, name) (List.mem_cons_of_mem _ (List.mem_map_of_mem listed))]
  unfold resolve
  rw [app, shared]

end Configuration

namespace Store

variable {k : Kind} {s s' : Store} {key : String}

/-- The entry of a label that is borne before or after a commit is that of a label of another
object. -/
def Entangled (s s' : Store) (k : Kind) (key label value : String) : Prop :=
  ∃ m n : Mark, (s.Bears m ∨ s'.Bears m) ∧ m.kind = k ∧ m.key = key ∧ s.Bears n ∧ n.kind = k ∧
    n.key ≠ key ∧ n.label = label ∧ n.value = value ∧ m.entry = n.entry

theorem not_entangled_of_plain (plain : s.Plain) (plain' : s'.Plain) (label value : String) :
    ¬ Entangled s s' k key label value := by
  rintro ⟨m, n, borne, -, here, borne', -, there, -, -, same⟩
  obtain rfl := Mark.eq_of_entry_eq (borne.elim (plain m) (plain' m)) (plain n borne') same
  exact there here

/-- A query by a label that an object bears neither before nor after a commit finds what it found,
unless an entry of the object is shared with another one that it finds. -/
theorem matching_of_commits (sound : s.Sound) (sound' : s'.Sound) {before after : Option (Object k)}
    {change : Change} (commits : s.Commits k key before change after s') {label value : String}
    (absent : (labelsOf before).get? label ≠ some value)
    (absent' : (labelsOf after).get? label ≠ some value)
    (apart : ¬ Entangled s s' k key label value) :
    s'.matching k (Selector.any.require label value) =
      s.matching k (Selector.any.require label value) := by
  have first := Selector.entries_require label value
  refine eq_of_ordered (matching_ordered sound' k _) (matching_ordered sound k _) fun o => ?_
  rw [mem_matching sound' first, mem_matching sound first, Selector.accepts_require]
  by_cases here : o.key = key
  · -- neither version of the object bears the label
    have without {t : Store} {held : Option (Object k)} (holds : t.getByKey k key = held)
        (lacks : (labelsOf held).get? label ≠ some value) :
        ¬ (t.getByKey k o.key = some o ∧ o.info.labels.get? label = some value) := by
      rintro ⟨found, has⟩
      rw [here, holds] at found
      subst found
      exact lacks has
    have gone := without commits.was absent
    have gone' := without commits.is absent'
    tauto
  · rw [commits.others k o.key fun both => here both.2]
    refine and_congr_right fun found => ?_
    by_cases has : o.info.labels.get? label = some value
    · have borne : s.Bears ⟨k, label, value, o.key⟩ := (bears_of_some found).2 has
      have foreign {t : Store} {held : Option (Object k)} (other : Dict String)
          (holds : t.getByKey k key = held) (among : ∀ m, t.Bears m → s.Bears m ∨ s'.Bears m) :
          Index.entry k label value o.key ∉
            Index.entriesBeyond k key (labelsOf held) other := by
        intro member
        obtain ⟨label', value', has', -, same⟩ := Index.mem_entriesBeyond.1 member
        exact apart ⟨⟨k, label', value', key⟩, ⟨k, label, value, o.key⟩,
          among _ ((bears_iff_labelsOf holds).2 has'), rfl, rfl, borne, rfl, here, rfl, rfl,
          same.symm⟩
      have dropped := foreign (labelsOf after) commits.was fun _ => .inl
      have added := foreign (labelsOf before) commits.is fun _ => .inr
      rw [commits.index, Index.mem_keys_relabel]
      simp [dropped, added]
    · simp [has]

end Store

/-! ## Writes of app configs -/

namespace Control

open Store

variable {s s' : Store}

/-- A write of an app config that the store has accepted. -/
inductive Reconfigures (s s' : Store) : Prop
  | created (config made : AppConfig) (done : s.create config = .ok (made, s'))
  | updated (config made : AppConfig) (done : s.updateSpec config = .ok (made, s'))
  | deleted (ns name : String) (done : s.delete .appConfigs ns name = (true, s'))

theorem Reconfigures.sound (write : Reconfigures s s') (sound : s.Sound) : s'.Sound := by
  cases write with
  | created config made done => exact sound.next (next_create done)
  | updated config made done => exact sound.next (next_updateSpec done)
  | deleted ns name done =>
      have next := next_delete s .appConfigs ns name
      rw [done] at next
      exact sound.next next

theorem Reconfigures.commits (write : Reconfigures s s') (sound : s.Sound) :
    ∃ key before change after, s.Commits .appConfigs key before change after s' := by
  cases write with
  | created config made done =>
      obtain ⟨free, -, rfl⟩ := eq_of_create done
      exact ⟨_, _, _, _, commits_created free⟩
  | updated config made done =>
      obtain ⟨before, commits⟩ := commits_updateSpec sound done
      exact ⟨_, _, _, _, commits⟩
  | deleted ns name done =>
      rcases all_or_nothing_delete sound .appConfigs ns name with none_ | ⟨-, gone, commits⟩
      · rw [done] at none_
        cases none_
      · rw [done] at commits
        exact ⟨_, _, _, _, commits⟩

/-- An update takes a config away from a descriptor that it was published for. -/
def Withdraws (s : Store) (e : Event) (d : Descriptor) : Prop :=
  e.change = .specUpdated ∧ Wake.isPublishedFor e.labels d = false ∧
    ∃ config, s.getByKey .appConfigs e.key = some config ∧
      Wake.isPublishedFor config.info.labels d = true

/-- What stood under a key had no label that what stands there now lacks, unless it was updated. -/
theorem withdraws_of_commits {key : String} {before after : Option AppConfig} {change : Change}
    (commits : s.Commits .appConfigs key before change after s') {o : AppConfig}
    (told : after.or before = some o) {d : Descriptor}
    (was : Wake.isPublishedFor (labelsOf before) d = true)
    (is_ : Wake.isPublishedFor o.info.labels d = false) :
    Withdraws s ⟨.appConfigs, key, o.info.labels, o.info.owner, change⟩ d := by
  have found := commits.was
  cases commits.became with
  | created first =>
      obtain ⟨term, -, has⟩ := Configuration.isPublishedFor_iff.1 was
      cases has
  | written h current new =>
      cases told
      cases h with
      | spec => exact ⟨rfl, is_, current, found, was⟩
      | status => exact absurd was (Bool.eq_false_iff.1 is_)
  | deleted current =>
      cases told
      exact absurd was (Bool.eq_false_iff.1 is_)

/-- **Which descriptors a write of an app config wakes.**  Its event calls for passes over the
descriptors that the labels it carries are published for, and over no others.  Every descriptor
whose configuration becomes another one is among them, unless the write is an update that takes
the config away from it, or an entry of the config in the index is that of another config of
the descriptor. -/
theorem reconfiguration_wakes (sound : s.Sound) (write : Reconfigures s s') (c : Controllers)
    (opened : c.deployments.queue.closed = false) :
    ∃ e : Event, s'.feed = s.feed ++ [e] ∧ ∀ d ∈ s'.list .descriptors,
      ((c.route s' e).deployments.queue.Wanted d.key ↔
        c.deployments.queue.Wanted d.key ∨ Wake.isPublishedFor e.labels d = true) ∧
      (Configuration.resolve s' d ≠ Configuration.resolve s d →
        Wake.isPublishedFor e.labels d = true ∨ Withdraws s e d ∨
          ∃ term ∈ Configuration.queries d,
            Entangled s s' .appConfigs e.key term.1 term.2) := by
  have sound' := write.sound sound
  obtain ⟨key, before, change, after, commits⟩ := write.commits sound
  obtain ⟨o, told, feed⟩ := commits.feed
  refine ⟨_, feed, fun d stored => ⟨Controllers.wanted_route sound' stored opened rfl, ?_⟩⟩
  intro differs
  by_contra nobody
  obtain ⟨unpublished, kept, apart⟩ := not_or.1 nobody |>.imp_right not_or.1
  have is_ : Wake.isPublishedFor o.info.labels d = false := Bool.eq_false_iff.2 unpublished
  have was : ¬ Wake.isPublishedFor (labelsOf before) d = true := fun was =>
    kept (withdraws_of_commits commits told was is_)
  -- the labels after the write are the event's, or there are none
  have is' : ¬ Wake.isPublishedFor (labelsOf after) d = true := by
    cases after with
    | none =>
        intro published
        obtain ⟨term, -, has⟩ := Configuration.isPublishedFor_iff.1 published
        cases has
    | some x =>
        cases told
        exact unpublished
  refine differs (Configuration.resolve_congr fun term asked => ?_)
  refine matching_of_commits sound sound' commits (fun has => ?_) (fun has => ?_) fun shared => ?_
  · exact was (Configuration.isPublishedFor_iff.2 ⟨term, asked, has⟩)
  · exact is' (Configuration.isPublishedFor_iff.2 ⟨term, asked, has⟩)
  · exact apart ⟨term, asked, shared⟩

namespace Sample

open Cutover.Sample

/-- A config of an application. -/
def published (app : String) : AppConfig :=
  { info := { Meta.fresh "" "base" with
      labels := Dict.ofList [(Label.app, app)], specVersion := 1, statusVersion := 1 }
    spec := ⟨.app, Dict.ofList [("MODE", "fast")]⟩
    status := () }

/-- The descriptor with a config that is published for its application. -/
def configuredBy : Store :=
  ((Store.empty 9).commit (descriptor 4) ∅ .created).commit (published "web") ∅ .created

theorem sound_configuredBy : configuredBy.Sound :=
  ((sound_empty 9).commit rfl ∅ .created).commit rfl ∅ .created

/-- The config is published for another application. -/
def republished : Store :=
  configuredBy.commit (respecified (published "web") (published "api")) (published "web").info.labels
    .specUpdated

theorem updated_republished : configuredBy.updateSpec (published "api") =
    .ok (respecified (published "web") (published "api"), republished) := rfl

theorem resolve_republished : Configuration.resolve republished (descriptor 4) ≠
    Configuration.resolve configuredBy (descriptor 4) := by
  have gone : Configuration.resolve republished (descriptor 4) = none := rfl
  have there : (Configuration.resolve configuredBy (descriptor 4)).isSome = true := rfl
  intro same
  rw [← same, gone] at there
  cases there

/-- The descriptor is configured anew, not by a shared entry, and so the config was withdrawn. -/
theorem withdrawn_from_web : configuredBy.Sound ∧ Reconfigures configuredBy republished ∧
    (Controllers.fresh .standard).deployments.queue.closed = false ∧
    ∃ e : Event, republished.feed = configuredBy.feed ++ [e] ∧
      Withdraws configuredBy e (descriptor 4) := by
  have write : Reconfigures configuredBy republished := .updated _ _ updated_republished
  refine ⟨sound_configuredBy, write, rfl, ?_⟩
  obtain ⟨e, feed, wakes⟩ :=
    reconfiguration_wakes sound_configuredBy write (.fresh .standard) rfl
  obtain rfl : e = event (respecified (published "web") (published "api")) .specUpdated :=
    (List.singleton_inj.1 (List.append_cancel_left feed)).symm
  refine ⟨_, feed, ?_⟩
  have stored : descriptor 4 ∈ republished.list .descriptors := by decide +kernel
  have plain : configuredBy.Plain := by decide +kernel
  have plain' : republished.Plain := by decide +kernel
  rcases (wakes _ stored).2 resolve_republished with published | withdrawn | ⟨term, -, shared⟩
  · exact absurd published (by decide)
  · exact withdrawn
  · exact absurd shared (not_entangled_of_plain plain plain' _ _)

end Sample

/-- The only config of an application is published for another one instead: the descriptor has no
configuration any more, and its key is not on the queue. -/
theorem withdrawn_config_wakes_nobody :
    ∃ (s s' : Store) (d : Descriptor) (e : Event), s.Sound ∧
      (∃ config made : AppConfig, s.updateSpec config = .ok (made, s')) ∧ s'.feed = s.feed ++ [e] ∧
      d ∈ s'.list .descriptors ∧ Configuration.resolve s' d ≠ Configuration.resolve s d ∧
      ¬ ((Controllers.fresh .standard).route s' e).deployments.queue.Wanted d.key := by
  refine ⟨Sample.configuredBy, Sample.republished, Sample.descriptor 4, _,
    Sample.sound_configuredBy, ⟨_, _, Sample.updated_republished⟩, rfl, by decide +kernel,
    Sample.resolve_republished, ?_⟩
  unfold WorkQueue.Wanted
  decide +kernel

end Control
end Cutover
