/-
# Cutover.Proofs.Store.Request -- what clients ask of a store

A `Request` is one call by some client, whatever comes of it, and a list of requests is what
many clients ask in the order in which the store serves them.  A refused request changes
nothing.

Every request leaves the store as it was or makes one of the four changes of `Store.Next`, and
an edit that reads, decides and tries again is no exception (`next_serve`).  What holds of an
empty store and is kept by `Next` therefore holds of every store that requests lead to.
-/
import Cutover.Proofs.Store.Write

namespace Cutover

set_option autoImplicit false

/-- A call of the store by some client; or some time in which there is none. -/
inductive Request where
  | create {k : Kind} (o : Object k)
  | updateSpec {k : Kind} (o : Object k)
  | updateStatus {k : Kind} (o : Object k)
  | delete (k : Kind) (ns name : String)
  | apply {k : Kind} (desired : Object k)
  | modifySpec (k : Kind) (ns name : String) (f : Object k → Object k)
  | modifyStatus (k : Kind) (ns name : String) (f : Object k → k.Status)
  /-- The wall clock has come to a time. -/
  | wait (clock : Nat)

/-- The store that a pass leaves, whether it succeeds or fails. -/
def Pass.left {ε α : Type} (part : Pass ε α) (s : Store) : Store :=
  match part s with
  | .ok _ s' => s'
  | .error _ s' => s'

/-! ## Programs by what they leave -/

namespace Pass

variable {ε ε' α β : Type} {s : Store} {mid post : Store → Prop} {part : Pass ε α}

/-- Whatever comes of a program, something holds of the store it leaves. -/
def Leaves (part : Pass ε α) (s : Store) (post : Store → Prop) : Prop :=
  Leads part s (fun _ s' => post s') fun _ s' => post s'

theorem left_of_ok {a : α} {s' : Store} (done : part s = .ok a s') : part.left s = s' := by
  unfold Pass.left
  rw [done]

theorem Leaves.left (leaves : part.Leaves s post) : post (part.left s) := by
  unfold Pass.left
  cases done : part s with
  | ok a s' => exact Leads.of_ok leaves done
  | error e s' => exact Leads.of_error leaves done

theorem Leaves.mono (leaves : part.Leaves s mid) (weaker : ∀ s', mid s' → post s') :
    part.Leaves s post :=
  Leads.mono leaves (fun _ s' => weaker s') fun _ s' => weaker s'

theorem Ends.leaves {holds : α → Store → Prop} (ends : Ends part s holds)
    (weaker : ∀ a s', holds a s' → post s') : part.Leaves s post :=
  (ends.mono weaker).leads

/-- A part that fails leaves what the whole leaves. -/
theorem Leaves.bind {next : α → Pass ε β} (leaves : part.Leaves s mid)
    (weaker : ∀ s', mid s' → post s') (rest : ∀ a s', mid s' → (next a).Leaves s' post) :
    (part >>= next).Leaves s post :=
  (Leads.mono leaves (fun _ _ holds => holds) fun _ s' => weaker s').bind rest

theorem Leaves.chain {next : α → Pass ε β} (leaves : part.Leaves s post)
    (rest : ∀ a s', post s' → (next a).Leaves s' post) : (part >>= next).Leaves s post :=
  leaves.bind (fun _ holds => holds) rest

theorem Leaves.map (leaves : part.Leaves s post) (f : α → β) : (f <$> part).Leaves s post :=
  Leads.map leaves

theorem Leaves.within (leaves : part.Leaves s post) (wrap : ε → ε') :
    (part.within wrap).Leaves s post := Leads.within leaves

theorem leaves_pure (holds : post s) (a : α) : (pure a : Pass ε α).Leaves s post := holds

theorem leaves_throw (holds : post s) (e : ε) : (throw e : Pass ε α).Leaves s post := holds

theorem leaves_write {op : Store → Except StoreError (α × Store)} (holds : post s)
    (done : ∀ a s', op s = .ok (a, s') → post s') : (Pass.write op).Leaves s post :=
  leads_write done fun _ _ => holds

theorem leaves_mapM {part : β → Pass ε α} {xs : List β}
    (each : ∀ x ∈ xs, ∀ s, mid s → (part x).Leaves s mid) (start : mid s) :
    (xs.mapM part).Leaves s mid := by
  induction xs generalizing s with
  | nil => exact start
  | cons x xs ih =>
      obtain ⟨here, there⟩ := List.forall_mem_cons.1 each
      rw [List.mapM_cons]
      refine (here s start).chain fun y s₁ kept => ?_
      exact (ih there kept).chain fun ys s₂ kept => leaves_pure kept _

end Pass

namespace Store

variable {k : Kind} {s s' : Store}

def serve (s : Store) : Request → Store
  | .create o => (Pass.write (·.create o)).left s
  | .updateSpec o => (Pass.write (·.updateSpec o)).left s
  | .updateStatus o => (Pass.write (·.updateStatus o)).left s
  | .delete k ns name => (s.delete k ns name).2
  | .apply desired => (apply desired).left s
  | .modifySpec k ns name f => (modifySpec k ns name f).left s
  | .modifyStatus k ns name f => (modifyStatus k ns name f).left s
  | .wait clock => { s with clock }

/-- The store once it has served some requests one after the other. -/
def after (s : Store) (rs : List Request) : Store := rs.foldl serve s

/-! ## What a request may do -/

/-- What may become of a store in one step. -/
inductive Next (s : Store) : Store → Prop
  | same : Next s s
  | later (clock : Nat) : Next s { s with clock }
  | created {k : Kind} {o : Object k} (free : s.getByKey k o.key = none) :
      Next s (s.commit (s.accepted o) ∅ .created)
  | respecified {k : Kind} {key : String} {current : Object k}
      (found : s.getByKey k key = some current) (o : Object k) :
      Next s (s.commit (respecified current o) current.info.labels .specUpdated)
  | restated {k : Kind} {key : String} {current : Object k}
      (found : s.getByKey k key = some current) (status : k.Status) :
      Next s (s.commit (restated current status) current.info.labels .statusUpdated)
  | deleted {k : Kind} {ns name : String} {current : Object k}
      (found : s.getByKey k (objectKey ns name) = some current) :
      Next s (s.delete k ns name).2

/-! ## Writes that were accepted -/

theorem eq_of_create {o o' : Object k} (done : s.create o = .ok (o', s')) :
    s.getByKey k o.key = none ∧ o' = s.accepted o ∧ s' = s.commit (s.accepted o) ∅ .created := by
  unfold Store.create at done
  simp only at done
  split at done
  · cases done
  · rename_i free
    cases done
    exact ⟨free, rfl, rfl⟩

theorem eq_of_updateSpec {o o' : Object k} (done : s.updateSpec o = .ok (o', s')) :
    ∃ current, s.getByKey k o.key = some current ∧
      current.info.specVersion = o.info.specVersion ∧ o' = respecified current o ∧
      s' = s.commit (respecified current o) current.info.labels .specUpdated := by
  unfold Store.updateSpec at done
  split at done
  · cases done
  · rename_i current found
    split at done
    · cases done
    · rename_i seen
      cases done
      exact ⟨current, found, not_not.1 seen, rfl, rfl⟩

theorem eq_of_updateStatus {o o' : Object k} (done : s.updateStatus o = .ok (o', s')) :
    ∃ current, s.getByKey k o.key = some current ∧
      current.info.statusVersion = o.info.statusVersion ∧ o' = restated current o.status ∧
      s' = s.commit (restated current o.status) current.info.labels .statusUpdated := by
  unfold Store.updateStatus at done
  split at done
  · cases done
  · rename_i current found
    split at done
    · cases done
    · rename_i seen
      cases done
      exact ⟨current, found, not_not.1 seen, rfl, rfl⟩

/-! ## Requests -/

theorem next_create {o o' : Object k} (done : s.create o = .ok (o', s')) : s.Next s' := by
  obtain ⟨free, -, rfl⟩ := eq_of_create done
  exact .created free

theorem next_updateSpec {o o' : Object k} (done : s.updateSpec o = .ok (o', s')) : s.Next s' := by
  obtain ⟨current, found, -, -, rfl⟩ := eq_of_updateSpec done
  exact .respecified found o

theorem next_updateStatus {o o' : Object k} (done : s.updateStatus o = .ok (o', s')) :
    s.Next s' := by
  obtain ⟨current, found, -, -, rfl⟩ := eq_of_updateStatus done
  exact .restated found o.status

theorem next_delete (s : Store) (k : Kind) (ns name : String) : s.Next (s.delete k ns name).2 := by
  cases found : s.getByKey k (objectKey ns name) with
  | none =>
      unfold Store.delete
      simp only [found]
      exact .same
  | some current => exact .deleted found

theorem next_perform {intent : Intent k} {o : Option (Object k)}
    (done : intent.perform s = .ok (o, s')) : s.Next s' := by
  cases intent with
  | nothing seen =>
      cases done
      exact .same
  | create new =>
      simp only [Intent.perform] at done
      split at done
      · rename_i created
        cases done
        exact next_create created
      · cases done
      · cases done
  | replaceSpec new =>
      cases written : s.updateSpec new with
      | error e =>
          rw [Intent.perform, written] at done
          cases done
      | ok result =>
          rw [Intent.perform, written] at done
          cases done
          exact next_updateSpec written
  | replaceStatus new =>
      cases written : s.updateStatus new with
      | error e =>
          rw [Intent.perform, written] at done
          cases done
      | ok result =>
          rw [Intent.perform, written] at done
          cases done
          exact next_updateStatus written

theorem next_write {α : Type} {op : Store → Except StoreError (α × Store)}
    (next : ∀ a s', op s = .ok (a, s') → s.Next s') : s.Next ((Pass.write op).left s) := by
  unfold Pass.left Pass.write
  cases done : op s with
  | error e => exact .same
  | ok result => exact next result.1 result.2 done

theorem left_write_of_ok {α : Type} {op : Store → Except StoreError (α × Store)} {a : α}
    (done : op s = .ok (a, s')) : (Pass.write op).left s = s' := by
  unfold Pass.left Pass.write
  rw [done]

theorem left_write_of_error {α : Type} {op : Store → Except StoreError (α × Store)} {e : StoreError}
    (failed : op s = .error e) : (Pass.write op).left s = s := by
  unfold Pass.left Pass.write
  rw [failed]

theorem exists_left_of_ends {ε α : Type} {part : Pass ε α} {post : α → Store → Prop}
    (ends : Pass.Ends part s post) : ∃ a, post a (part.left s) := by
  obtain ⟨a, s', done, holds⟩ := ends
  unfold Pass.left
  rw [done]
  exact ⟨a, holds⟩

theorem left_map {ε α β : Type} (part : Pass ε α) (f : α → β) (s : Store) :
    (f <$> part : Pass ε β).left s = part.left s := by
  show Pass.left (EStateM.map f part) s = _
  unfold Pass.left EStateM.map
  cases part s <;> rfl

/-- One attempt at an edit: what it answers, and the store. -/
theorem attempt_eq (intend : Store → Intent k) (s : Store) : attempt intend s =
    match (intend s).perform s with
    | .ok (o, s') => .ok (o, (intend s).writes) s'
    | .error e => .error e s := by
  have written : attempt intend s = EStateM.bind (Pass.write ((intend s).perform ·))
      (fun o => pure (o, (intend s).writes)) s := rfl
  rw [written]
  simp only [EStateM.bind, Pass.write]
  cases (intend s).perform s <;> rfl

theorem next_attempt (intend : Store → Intent k) (s : Store) :
    s.Next ((attempt intend).left s) := by
  unfold Pass.left
  rw [attempt_eq]
  cases done : (intend s).perform s with
  | ok result => exact next_perform done
  | error e => exact .same

/-- A refused attempt changes nothing. -/
theorem eq_of_attempt_error {intend : Store → Intent k} {e : StoreError}
    (refused : attempt intend s = .error e s') : s' = s := by
  rw [attempt_eq] at refused
  cases done : (intend s).perform s with
  | ok result =>
      rw [done] at refused
      cases refused
  | error e' =>
      rw [done] at refused
      cases refused
      rfl

/-- An attempt that failed has left the store alone, and the next one fails like it. -/
theorem edit_eq_attempt (intend : Store → Intent k) (s : Store) :
    edit intend s = attempt intend s := by
  unfold edit retryOnConflict
  induction attempts - 1 with
  | zero => rfl
  | succ more ih =>
      simp only [retrying]
      cases done : attempt intend s with
      | ok a s' => rfl
      | error e s' =>
          obtain rfl := eq_of_attempt_error done
          simp only
          split
          · rw [ih, done]
          · rfl

/-- What comes of an edit: what was intended on the store as it is. -/
theorem edit_eq (intend : Store → Intent k) (s : Store) : edit intend s =
    match (intend s).perform s with
    | .ok (o, s') => .ok (o, (intend s).writes) s'
    | .error e => .error e s :=
  (edit_eq_attempt intend s).trans (attempt_eq intend s)

/-- An edit that lost its races has changed nothing when it gives up, and one that was accepted
has made one change. -/
theorem next_edit (intend : Store → Intent k) (s : Store) : s.Next ((edit intend).left s) := by
  have next := next_attempt intend s
  unfold Pass.left at next ⊢
  rwa [edit_eq_attempt]

/-- **Whatever is asked of a store, one thing happens to it or none.** -/
theorem next_serve (s : Store) (r : Request) : s.Next (s.serve r) := by
  cases r with
  | create o => exact next_write fun _ _ done => next_create done
  | updateSpec o => exact next_write fun _ _ done => next_updateSpec done
  | updateStatus o => exact next_write fun _ _ done => next_updateStatus done
  | delete k ns name => exact next_delete s k ns name
  | apply desired =>
      have same : (apply desired).left s = (edit (·.intendApply desired)).left s := left_map ..
      show s.Next ((apply desired).left s)
      rw [same]
      exact next_edit _ s
  | modifySpec k ns name f =>
      show s.Next ((modifySpec k ns name f).left s)
      rw [modifySpec, left_map]
      exact next_edit _ s
  | modifyStatus k ns name f =>
      show s.Next ((modifyStatus k ns name f).left s)
      rw [modifyStatus, left_map]
      exact next_edit _ s
  | wait clock => exact .later clock

/-! ## Runs -/

theorem Sound.next (sound : s.Sound) (next : s.Next s') : s'.Sound := by
  cases next with
  | same => exact sound
  | later clock => exact ⟨sound.keyed, sound.accepted⟩
  | created free => exact sound.commit rfl _ _
  | respecified found o => exact sound.commit (decide_eq_true (Nat.succ_pos _)) _ _
  | @restated k key current found status =>
      have accepted : (restated current status).info.isPersisted = true :=
        sound.accepted k key current found
      exact sound.commit accepted _ _
  | deleted found => exact sound.delete _ _ _

theorem Sound.after (sound : s.Sound) (rs : List Request) : (s.after rs).Sound := by
  induction rs generalizing s with
  | nil => exact sound
  | cons r rest ih => exact ih (sound.next (next_serve s r))

end Store
end Cutover
