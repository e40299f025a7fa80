/-
# Cutover.Proofs.Store.Feed -- the feed tells exactly what was committed

`Commits` is one committed change: what stands under one key of one kind, the index entries of
that key and one event at the end of the feed, and nothing besides.  A call of the store was
refused or had nothing to do, and then the store is the one it was called on, or it made one commit
of the object that it answers with (`AllOrNothing`).  An edit that tries again after a conflict is no
exception, since an attempt that failed has left the store alone (`leads_edit`).

A run is therefore the sequence of the commits its feed names (`History`).  The feed alone says
which keys are taken and how often each half of an object was written (`feed_is_exact`).
-/
import Cutover.Proofs.Store.Mirror
import Cutover.Proofs.Store.Versions

namespace Cutover

set_option autoImplicit false

namespace Half

variable {k : Kind}

@[simp] theorem written_key (h : Half) (current o : Object k) :
    (h.written current o).key = current.key := by cases h <;> rfl

end Half

/-- A write of the status of some object; or some time passes. -/
def Request.OnlyStatus : Request → Prop
  | .updateStatus _ => True
  | .modifyStatus _ _ _ _ => True
  | .wait _ => True
  | _ => False

namespace Store

variable {k : Kind} {s s' s'' : Store} {key : String}

/-! ## One commit -/

/-- The labels of what stands under a key. -/
def labelsOf (held : Option (Object k)) : Dict String := (held.map (·.info.labels)).getD ∅

theorem bears_iff_labelsOf {held : Option (Object k)} (holds : s.getByKey k key = held)
    {label value : String} :
    s.Bears ⟨k, label, value, key⟩ ↔ (labelsOf held).get? label = some value := by
  cases held with
  | none => exact iff_of_false (not_bears_of_none holds) (by simp [labelsOf])
  | some o => exact bears_of_some holds

/-- What stands under a key becomes something else, by a change of that name.  A write of one half
leaves the other one, and the time of creation, as they are (`Half.written`). -/
inductive Became : Option (Object k) → Change → Option (Object k) → Prop
  | created {o : Object k} (first : ∀ h : Half, h.version o.info = 1) :
      Became none .created (some o)
  | written (h : Half) (current o : Object k) :
      Became (some current) h.change (some (h.written current o))
  | deleted (current : Object k) : Became (some current) .deleted none

/-- One key of one kind has changed, in the table and in the index, and the feed has got one event
that says so. -/
structure Commits (s : Store) (k : Kind) (key : String) (before : Option (Object k))
    (change : Change) (after : Option (Object k)) (s' : Store) : Prop where
  was : s.getByKey k key = before
  is : s'.getByKey k key = after
  became : Became before change after
  others : ∀ (j : Kind) (other : String), ¬ (j = k ∧ other = key) →
    s'.getByKey j other = s.getByKey j other
  index : s'.index = s.index.relabel k key (labelsOf before) (labelsOf after)
  entries : ∀ text, (∀ label value, text ≠ Index.entry k label value key) →
    (text ∈ s'.index.keys ↔ text ∈ s.index.keys)
  /-- The event carries labels and owner of the object after the change, or before a deletion. -/
  feed : ∃ o, after.or before = some o ∧
    s'.feed = s.feed ++ [⟨k, key, o.info.labels, o.info.owner, change⟩]
  clock : s'.clock = s.clock

/-- A change of one object's labels leaves all texts that are no entries of it. -/
theorem mem_keys_relabel_elsewhere {text : String} {before after : Dict String} {index : Index}
    (foreign : ∀ label value, text ≠ Index.entry k label value key) :
    text ∈ (index.relabel k key before after).keys ↔ text ∈ index.keys := by
  have none_ (labels other : Dict String) : text ∉ Index.entriesBeyond k key labels other := by
    intro member
    obtain ⟨label, value, -, -, same⟩ := Index.mem_entriesBeyond.1 member
    exact foreign label value same
  rw [Index.mem_keys_relabel]
  simp [none_]

theorem commits_commit {o : Object k} {before : Option (Object k)} {change : Change}
    (was : s.getByKey k o.key = before) (became : Became before change (some o)) :
    s.Commits k o.key before change (some o) (s.commit o (labelsOf before) change) where
  was := was
  is := getByKey_commit_self s o _ change
  became := became
  others j other away := by
    by_cases same : j = k
    · subst same
      exact getByKey_commit_of_ne s o _ change fun e => away ⟨rfl, e⟩
    · exact (agrees_commit same s o _ change).getByKey other
  index := rfl
  entries _ foreign := mem_keys_relabel_elsewhere foreign
  feed := ⟨o, rfl, rfl⟩
  clock := rfl

theorem commits_created {o : Object k} (free : s.getByKey k o.key = none) :
    s.Commits k o.key none .created (some (s.accepted o))
      (s.commit (s.accepted o) ∅ .created) :=
  commits_commit (o := s.accepted o) free (.created fun h => by cases h <;> rfl)

theorem commits_written (sound : s.Sound) (h : Half) {current : Object k}
    (found : s.getByKey k key = some current) (o : Object k) :
    s.Commits k key (some current) h.change (some (h.written current o))
      (s.commit (h.written current o) current.info.labels h.change) := by
  obtain rfl := sound.keyed k key current found
  have here : s.getByKey k (h.written current o).key = some current := by
    rw [Half.written_key]
    exact found
  have commits := commits_commit here (.written h current o)
  rwa [Half.written_key] at commits

theorem commits_deleted (sound : s.Sound) {ns name : String} {current : Object k}
    (found : s.getByKey k (objectKey ns name) = some current) :
    s.Commits k (objectKey ns name) (some current) .deleted none (s.delete k ns name).2 where
  was := found
  is := by rw [getByKey_delete, if_pos rfl]
  became := .deleted current
  others j other away := by
    by_cases same : j = k
    · subst same
      rw [getByKey_delete, if_neg fun e => away ⟨rfl, e⟩]
    · exact (agrees_delete same s ns name).getByKey other
  index := index_delete_of_some found
  entries _ foreign := by
    rw [index_delete_of_some found]
    exact mem_keys_relabel_elsewhere foreign
  feed := by
    refine ⟨current, rfl, ?_⟩
    rw [← sound.keyed k _ current found]
    unfold delete
    simp only [found]
    rfl
  clock := by
    unfold delete
    simp only [found]

/-! ## Every call commits once or not at all -/

/-- A call was refused, or had nothing to do, and the store is as it was; or it made one commit,
and what it answers is the object of that commit. -/
def AllOrNothing (s : Store) : Request → Prop
  | @Request.create k o => Pass.Leads (Pass.write (·.create o)) s
      (fun made s' => s.Commits k o.key none .created (some made) s')
      (fun _ s' => s' = s)
  | @Request.updateSpec k o => Pass.Leads (Pass.write (·.updateSpec o)) s
      (fun written s' => ∃ before, s.Commits k o.key (some before) .specUpdated (some written) s')
      (fun _ s' => s' = s)
  | @Request.updateStatus k o => Pass.Leads (Pass.write (·.updateStatus o)) s
      (fun written s' => ∃ before, s.Commits k o.key (some before) .statusUpdated (some written) s')
      (fun _ s' => s' = s)
  | .delete k ns name =>
      s.delete k ns name = (false, s) ∨ (s.delete k ns name).1 = true ∧
        ∃ gone, s.Commits k (objectKey ns name) (some gone) .deleted none (s.delete k ns name).2
  | @Request.apply k desired => Pass.Leads (apply desired) s
      (fun answer s' =>
        answer.2 = false ∧ s.getByKey k desired.key = some answer.1 ∧ s' = s ∨
        answer.2 = true ∧ ∃ before change,
          s.Commits k desired.key before change (some answer.1) s')
      (fun _ s' => s' = s)
  | .modifySpec k ns name f => Pass.Leads (modifySpec k ns name f) s
      (fun answer s' => answer = s.get k ns name ∧ s' = s ∨ ∃ read before written,
        s.get k ns name = some read ∧ answer = some written ∧
          s.Commits k (f read).key (some before) .specUpdated (some written) s')
      (fun _ s' => s' = s)
  | .modifyStatus k ns name f => Pass.Leads (modifyStatus k ns name f) s
      (fun answer s' => answer = s.get k ns name ∧ s' = s ∨ ∃ before written,
        answer = some written ∧
          s.Commits k (objectKey ns name) (some before) .statusUpdated (some written) s')
      (fun _ s' => s' = s)
  | .wait clock => s.serve (.wait clock) = { s with clock }

/-! ### Edits -/

/-- An edit was refused and has left the store alone, or it has done what it intended. -/
theorem leads_edit (intend : Store → Intent k) (s : Store) :
    Pass.Leads (edit intend) s
      (fun answer s' => answer.2 = (intend s).writes ∧
        (intend s).perform s = .ok (answer.1, s'))
      (fun _ s' => s' = s) := by
  unfold Pass.Leads
  rw [edit_eq]
  cases (intend s).perform s with
  | ok answer => exact ⟨rfl, rfl⟩
  | error e => exact rfl

theorem all_or_nothing_create (s : Store) (o : Object k) : s.AllOrNothing (.create o) := by
  refine Pass.leads_write (fun made s' done => ?_) fun _ _ => rfl
  obtain ⟨free, rfl, rfl⟩ := eq_of_create done
  exact commits_created free

theorem all_or_nothing_delete (sound : s.Sound) (k : Kind) (ns name : String) :
    s.AllOrNothing (.delete k ns name) := by
  cases found : s.getByKey k (objectKey ns name) with
  | none =>
      refine .inl ?_
      unfold delete
      simp only [found]
  | some gone =>
      refine .inr ⟨?_, gone, commits_deleted sound found⟩
      unfold delete
      simp only [found]

theorem commits_updateSpec (sound : s.Sound) {o o' : Object k}
    (done : s.updateSpec o = .ok (o', s')) :
    ∃ before, s.Commits k o.key (some before) .specUpdated (some o') s' := by
  obtain ⟨before, found, -, rfl, rfl⟩ := eq_of_updateSpec done
  exact ⟨before, commits_written sound .spec found o⟩

theorem commits_updateStatus (sound : s.Sound) {o o' : Object k}
    (done : s.updateStatus o = .ok (o', s')) :
    ∃ before, s.Commits k o.key (some before) .statusUpdated (some o') s' := by
  obtain ⟨before, found, -, rfl, rfl⟩ := eq_of_updateStatus done
  exact ⟨before, commits_written sound .status found o⟩

theorem all_or_nothing_updateSpec (sound : s.Sound) (o : Object k) :
    s.AllOrNothing (.updateSpec o) :=
  Pass.leads_write (fun _ _ done => commits_updateSpec sound done) fun _ _ => rfl

theorem all_or_nothing_updateStatus (sound : s.Sound) (o : Object k) :
    s.AllOrNothing (.updateStatus o) :=
  Pass.leads_write (fun _ _ done => commits_updateStatus sound done) fun _ _ => rfl

/-- A performed intent to write a half has written it. -/
theorem ok_of_replaceSpec {o : Object k} {answer : Option (Object k)}
    (done : (Intent.replaceSpec o).perform s = .ok (answer, s')) :
    ∃ written, answer = some written ∧ s.updateSpec o = .ok (written, s') := by
  simp only [Intent.perform] at done
  cases written : s.updateSpec o with
  | error e =>
      rw [written] at done
      cases done
  | ok result =>
      rw [written] at done
      cases done
      exact ⟨_, rfl, rfl⟩

theorem ok_of_replaceStatus {o : Object k} {answer : Option (Object k)}
    (done : (Intent.replaceStatus o).perform s = .ok (answer, s')) :
    ∃ written, answer = some written ∧ s.updateStatus o = .ok (written, s') := by
  simp only [Intent.perform] at done
  cases written : s.updateStatus o with
  | error e =>
      rw [written] at done
      cases done
  | ok result =>
      rw [written] at done
      cases done
      exact ⟨_, rfl, rfl⟩

theorem all_or_nothing_apply (sound : s.Sound) (desired : Object k) :
    s.AllOrNothing (.apply desired) := by
  have edited := leads_edit (·.intendApply desired) s
  refine Pass.Leads.map (edited.mono ?_ fun _ _ same => same)
  rintro ⟨o, changed⟩ s' ⟨wrote, done⟩
  simp only at wrote done ⊢
  unfold intendApply at wrote done
  split at done
  · rename_i free
    simp only [free] at wrote
    rw [Intent.perform, create_eq free] at done
    cases done
    exact .inr ⟨wrote, none, .created, commits_created free⟩
  · rename_i current found
    simp only [found] at wrote
    split at done
    · rename_i same
      rw [if_pos same] at wrote
      cases done
      exact .inl ⟨wrote, found, rfl⟩
    · rename_i differs
      rw [if_neg differs] at wrote
      obtain ⟨written, rfl, updated⟩ := ok_of_replaceSpec done
      obtain ⟨before, commits⟩ := commits_updateSpec sound updated
      have here : s.Commits k current.key (some before) .specUpdated (some written) s' := commits
      rw [sound.keyed k _ current found] at here
      exact .inr ⟨wrote, some before, .specUpdated, here⟩

theorem all_or_nothing_modifySpec (sound : s.Sound) (k : Kind) (ns name : String)
    (f : Object k → Object k) : s.AllOrNothing (.modifySpec k ns name f) := by
  have edited := leads_edit (·.intendSpec ns name f) s
  refine Pass.Leads.map (edited.mono ?_ fun _ _ same => same)
  rintro ⟨answer, wrote⟩ s' ⟨-, done⟩
  simp only at done ⊢
  unfold intendSpec at done
  split at done
  · rename_i free
    cases done
    exact .inl ⟨free.symm, rfl⟩
  · rename_i read found
    simp only at done
    split at done
    · cases done
      exact .inl ⟨found.symm, rfl⟩
    · obtain ⟨written, rfl, updated⟩ := ok_of_replaceSpec done
      obtain ⟨before, commits⟩ := commits_updateSpec sound updated
      exact .inr ⟨read, before, written, found, rfl, commits⟩

theorem all_or_nothing_modifyStatus (sound : s.Sound) (k : Kind) (ns name : String)
    (f : Object k → k.Status) : s.AllOrNothing (.modifyStatus k ns name f) := by
  have edited := leads_edit (·.intendStatus ns name f) s
  refine Pass.Leads.map (edited.mono ?_ fun _ _ same => same)
  rintro ⟨answer, wrote⟩ s' ⟨-, done⟩
  simp only at done ⊢
  unfold intendStatus at done
  split at done
  · rename_i free
    cases done
    exact .inl ⟨free.symm, rfl⟩
  · rename_i read found
    simp only at done
    split at done
    · cases done
      exact .inl ⟨found.symm, rfl⟩
    · obtain ⟨written, rfl, updated⟩ := ok_of_replaceStatus done
      obtain ⟨before, commits⟩ := commits_updateStatus sound updated
      have here : s.Commits k read.key (some before) .statusUpdated (some written) s' := commits
      rw [sound.keyed k _ read found] at here
      exact .inr ⟨before, written, rfl, here⟩

/-- **Every call is all or nothing.** -/
theorem all_or_nothing (sound : s.Sound) (r : Request) : s.AllOrNothing r := by
  cases r with
  | create o => exact all_or_nothing_create s o
  | updateSpec o => exact all_or_nothing_updateSpec sound o
  | updateStatus o => exact all_or_nothing_updateStatus sound o
  | delete k ns name => exact all_or_nothing_delete sound k ns name
  | apply desired => exact all_or_nothing_apply sound desired
  | modifySpec k ns name f => exact all_or_nothing_modifySpec sound k ns name f
  | modifyStatus k ns name f => exact all_or_nothing_modifyStatus sound k ns name f
  | wait clock => exact rfl

/-- An applied object is stored, and all others of its kind are as they were. -/
theorem ends_apply_alone (sound : s.Sound) (desired : Object k) :
    Pass.Ends (apply desired) s fun r s' => r.1.spec = desired.spec ∧
      s'.getByKey k desired.key = some r.1 ∧ (∀ j, j ≠ k → Agrees j s s') ∧ s'.Sound ∧
      ∀ other, other ≠ desired.key → s'.getByKey k other = s.getByKey k other := by
  obtain ⟨r, s', done, same, found, others, sound'⟩ := ends_apply sound desired
  refine ⟨r, s', done, same, found, others, sound', fun other ne => ?_⟩
  have told := all_or_nothing_apply sound desired
  obtain ⟨-, -, rfl⟩ | ⟨-, before, change, commits⟩ := told.of_ok done
  · rfl
  · exact commits.others k other fun both => ne both.2

/-! ### Writes of statuses -/

/-- A stored object has got another status, if anything has happened. -/
inductive Restates (s : Store) : Store → Prop
  | same : Restates s s
  | later (clock : Nat) : Restates s { s with clock }
  | written {s' : Store} {k : Kind} {key : String} {current : Object k} (status : k.Status)
      (commits : s.Commits k key (some current) .statusUpdated (some (restated current status)) s') :
      Restates s s'

theorem exists_of_statusUpdated {current written : Object k} {change : Change}
    (became : Became (some current) change (some written)) (kind : change = .statusUpdated) :
    ∃ status, written = restated current status := by
  cases became with
  | written h _ o =>
      cases h with
      | spec => cases kind
      | status => exact ⟨o.status, rfl⟩

theorem Commits.restates {current written : Object k}
    (commits : s.Commits k key (some current) .statusUpdated (some written) s') :
    s.Restates s' := by
  obtain ⟨status, rfl⟩ := exists_of_statusUpdated commits.became rfl
  exact .written status commits

theorem restates_serve (sound : s.Sound) {r : Request} (only : r.OnlyStatus) :
    s.Restates (s.serve r) := by
  have told := all_or_nothing sound r
  cases r with
  | updateStatus o =>
      show s.Restates ((Pass.write (·.updateStatus o)).left s)
      unfold Pass.left
      cases done : Pass.write (·.updateStatus o) s with
      | ok written s' =>
          obtain ⟨before, commits⟩ := told.of_ok done
          exact commits.restates
      | error e s' =>
          obtain rfl : s' = s := told.of_error done
          exact .same
  | modifyStatus k ns name f =>
      show s.Restates ((modifyStatus k ns name f).left s)
      unfold Pass.left
      cases done : modifyStatus k ns name f s with
      | ok answer s' =>
          obtain ⟨-, rfl⟩ | ⟨before, written, -, commits⟩ := told.of_ok done
          · exact .same
          · exact commits.restates
      | error e s' =>
          obtain rfl : s' = s := told.of_error done
          exact .same
  | wait clock => exact .later clock
  | _ => exact only.elim

/-! ## The feed is the sequence of commits -/

/-- One store became another by the commits that some events tell of, in their order; otherwise
only time has passed. -/
inductive History : Store → List Event → Store → Prop
  | nil (s : Store) : History s [] s
  | later {s s' : Store} {events : List Event} (clock : Nat)
      (rest : History { s with clock } events s') : History s events s'
  | commit {s s' s'' : Store} {e : Event} {events : List Event}
      {before after : Option (Object e.kind)}
      (commits : s.Commits e.kind e.key before e.change after s')
      (told : s'.feed = s.feed ++ [e]) (rest : History s' events s'') :
      History s (e :: events) s''

namespace History

variable {events more : List Event}

theorem trans (first : History s events s') (second : History s' more s'') :
    History s (events ++ more) s'' := by
  induction first with
  | nil s => exact second
  | later clock rest ih => exact .later clock (ih second)
  | commit commits told rest ih => exact .commit commits told (ih second)

theorem of_commits {before after : Option (Object k)} {change : Change}
    (commits : s.Commits k key before change after s') :
    ∃ events, s'.feed = s.feed ++ events ∧ History s events s' := by
  obtain ⟨o, -, told⟩ := commits.feed
  exact ⟨_, told, .commit commits told (.nil s')⟩

end History

/-- What becomes of a store in one step, its feed tells. -/
theorem Next.history (next : s.Next s') (sound : s.Sound) :
    ∃ events, s'.feed = s.feed ++ events ∧ History s events s' := by
  cases next with
  | same => exact ⟨[], (List.append_nil _).symm, .nil s⟩
  | later clock => exact ⟨[], (List.append_nil _).symm, .later clock (.nil _)⟩
  | created free => exact History.of_commits (commits_created free)
  | respecified found o => exact History.of_commits (commits_written sound .spec found o)
  | @restated k key current found status =>
      exact History.of_commits (commits_written sound .status found { current with status })
  | deleted found => exact History.of_commits (commits_deleted sound found)

theorem Sound.history_after (sound : s.Sound) (rs : List Request) :
    ∃ events, (s.after rs).feed = s.feed ++ events ∧ History s events (s.after rs) := by
  induction rs generalizing s with
  | nil => exact ⟨[], (List.append_nil _).symm, .nil s⟩
  | cons r rest ih =>
      have next := next_serve s r
      obtain ⟨events, told, history⟩ := next.history sound
      obtain ⟨more, told', history'⟩ := ih (sound.next next)
      refine ⟨events ++ more, ?_, history.trans history'⟩
      show ((s.serve r).after rest).feed = _
      rw [told', told, List.append_assoc]

/-! ## What the feed says about a key -/

/-- All changes of the object of a kind under a key that the feed tells of. -/
def changes (s : Store) (k : Kind) (key : String) : List Change :=
  (s.feed.filter (Event.about k key)).map (·.change)

end Store

namespace Life

variable {h : Half} {u v : Option Nat} {n : Nat} {changes : List Change}

/-- Creations and deletions take turns. -/
theorem balance (life : Life h u changes v) : changes.count .created + u.toList.length =
    changes.count .deleted + v.toList.length := by
  induction life with
  | nil v => rfl
  | created rest ih =>
      simp only [List.count_cons_self, List.count_cons_of_ne, Option.toList, List.length_cons,
        List.length_nil, ne_eq, reduceCtorEq, not_false_eq_true] at ih ⊢
      omega
  | written rest ih => simpa [List.count_cons] using ih
  | aside rest ih => simpa [List.count_cons] using ih
  | deleted rest ih =>
      simp only [List.count_cons_self, List.count_cons_of_ne, Option.toList, List.length_cons,
        List.length_nil, ne_eq, reduceCtorEq, not_false_eq_true] at ih ⊢
      omega

/-- An object that is there, and was not at first, has been created, and its version counts the
writes since it was last created. -/
theorem of_last_creation (life : Life h none changes (some n)) :
    ∃ earlier since, changes = earlier ++ .created :: since ∧ .created ∉ since ∧
      n = 1 + since.count h.change := by
  have kept {later : List Change} (alive : Life h none later (some n)) (last : .deleted ∉ later) :
      ∃ since, later = .created :: since ∧ .created ∉ since ∧ n = 1 + since.count h.change := by
    cases alive with
    | @created _ since rest =>
        obtain ⟨once, counted⟩ := rest.of_not_deleted fun gone => last (List.mem_cons_of_mem _ gone)
        exact ⟨since, rfl, once, Option.some.inj counted⟩
  by_cases gone : .deleted ∈ changes
  · obtain ⟨earlier, later, rfl, last⟩ := exists_last_deletion gone
    obtain ⟨_, -, ends⟩ := life.split
    obtain ⟨since, rfl, once, counted⟩ := kept ends.of_deleted last
    exact ⟨earlier ++ [.deleted], since, by simp, once, counted⟩
  · obtain ⟨since, rfl, once, counted⟩ := kept life gone
    exact ⟨[], since, rfl, once, counted⟩

end Life

namespace Store

theorem life_after (clock : Nat) (rs : List Request) (h : Half) (k : Kind) (key : String) :
    Life h none (((Store.empty clock).after rs).changes k key)
      (((Store.empty clock).after rs).version? h k key) := by
  have lives := ((sound_empty clock).lives_after rs h k key).2
  have free : (Store.empty clock).version? h k key = none :=
    version?_of_free (getByKey_empty clock k key)
  rwa [free] at lives

/-- A key is taken if its object was created more often than deleted. -/
theorem taken_iff_after (clock : Nat) (rs : List Request) (k : Kind) (key : String) :
    (∃ o, ((Store.empty clock).after rs).getByKey k key = some o) ↔
      (((Store.empty clock).after rs).changes k key).count .deleted <
        (((Store.empty clock).after rs).changes k key).count .created := by
  have balance := (life_after clock rs .spec k key).balance
  cases found : ((Store.empty clock).after rs).getByKey k key with
  | none =>
      rw [version?_of_free found] at balance
      simp only [Option.toList, List.length_nil, Nat.add_zero] at balance
      refine iff_of_false ?_ (by omega)
      rintro ⟨o, there⟩
      cases there
  | some o =>
      rw [version?_of_found found] at balance
      simp only [Option.toList, List.length_nil, List.length_cons] at balance
      exact iff_of_true ⟨o, rfl⟩ (by omega)

/-- **The feed is exact.**  Every call leaves the store as it was or makes one commit, of one key,
that the feed tells of by one event.  After any calls of an empty store the feed is the sequence of
the commits: a key is taken if it was created more often than deleted, and the version of a half
of an object counts the writes of that half since the last creation. -/
theorem feed_is_exact :
    (∀ s : Store, s.Sound → ∀ r, s.AllOrNothing r) ∧
    ∀ (clock : Nat) (rs : List Request),
      let s := (Store.empty clock).after rs
      s.Sound ∧ History (Store.empty clock) s.feed s ∧ ∀ (k : Kind) (key : String),
        ((∃ o, s.getByKey k key = some o) ↔
          (s.changes k key).count .deleted < (s.changes k key).count .created) ∧
        ∀ o, s.getByKey k key = some o → ∀ h : Half, ∃ earlier since,
          s.changes k key = earlier ++ .created :: since ∧ .created ∉ since ∧
          h.version o.info = 1 + since.count h.change := by
  refine ⟨fun s sound r => all_or_nothing sound r, fun clock rs => ?_⟩
  refine ⟨(sound_empty clock).after rs, ?_, fun k key => ⟨taken_iff_after clock rs k key, ?_⟩⟩
  · obtain ⟨events, told, history⟩ := (sound_empty clock).history_after rs
    rwa [show _ = events from told]
  · intro o found h
    have life := life_after clock rs h k key
    rw [version?_of_found found] at life
    exact life.of_last_creation

namespace Sample

/-- The creation in vain is not told of. -/
theorem relabelling_told :
    ((Store.empty 9).after relabelling).feed.map (fun e => (e.key, e.change)) =
      [("v1", .created), ("v2", .created), ("v1", .specUpdated), ("v2", .deleted)] ∧
    History (Store.empty 9) ((Store.empty 9).after relabelling).feed
      ((Store.empty 9).after relabelling) :=
  ⟨by decide, (feed_is_exact.2 9 relabelling).2.1⟩

end Sample

end Store
end Cutover
