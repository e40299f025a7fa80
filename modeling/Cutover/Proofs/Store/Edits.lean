/-
# Cutover.Proofs.Store.Edits -- edits of one object and chains of commits

An `Edit` is what a client does to one half of the object of a key.  A `Commit` records what the
client had read, what stood there when it wrote, and what it left.  In a `Chain` every commit starts
from the object that the one before it left, and its client has read an object that is the same
but for the other half (`Edit.Commits`).

Chains count versions, so a write finds the version that was read if and only if no commit since
has touched its half.  `outcome_of_chain` says what comes of a write that a chain separates from
its read.
-/
import Cutover.Proofs.Store.Versions

namespace Cutover

set_option autoImplicit false

/-! ## Halves of two objects -/

namespace Half

variable {k : Kind}

/-- An object with one half of another, version included. -/
def graft (h : Half) (o donor : Object k) : Object k :=
  match h with
  | spec => { o with
      spec := donor.spec
      info.labels := donor.info.labels
      info.owner := donor.info.owner
      info.specVersion := donor.info.specVersion }
  | status => { o with
      status := donor.status
      info.statusVersion := donor.info.statusVersion }

/-- Two objects differ in the other half at most. -/
def Same (h : Half) (o p : Object k) : Prop := h.other.graft o p = p

theorem Same.refl (h : Half) (o : Object k) : h.Same o o := by cases h <;> rfl

theorem Same.written {h g : Half} {o p : Object k} (same : h.Same o p) (ne : g ≠ h)
    (new : Object k) : h.Same o (g.written p new) := by
  unfold Same at same ⊢
  cases h <;> cases g
  · exact absurd rfl ne
  · rw [← same]
    rfl
  · rw [← same]
    rfl
  · exact absurd rfl ne

def replace (h : Half) (o : Object k) : Intent k :=
  match h with
  | spec => .replaceSpec o
  | status => .replaceStatus o

theorem version_written (h g : Half) (o new : Object k) : h.version (g.written o new).info =
    h.version o.info + if g = h then 1 else 0 := by cases h <;> cases g <;> rfl

theorem key_written (h : Half) (o new : Object k) : (h.written o new).key = o.key := by
  cases h <;> rfl

theorem writes_replace (h : Half) (o : Object k) : (h.replace o).writes = true := by
  cases h <;> rfl

end Half

namespace Contention

/-! ## Edits -/

/-- An edit of the object of a kind under a name: of its spec, labels and owner, of its status, or
one that brings the spec in line with a desired object's. -/
inductive Edit (k : Kind) (ns name : String) where
  | spec (f : Object k → Object k) (stays : ∀ o, (f o).key = o.key)
  | status (f : Object k → k.Status)
  | apply (desired : Object k) (here : desired.key = objectKey ns name)

namespace Edit

variable {k : Kind} {ns name : String}

def half : Edit k ns name → Half
  | spec .. => .spec
  | status _ => .status
  | apply .. => .spec

/-- What a client is about to write that has read a store. -/
def intend (e : Edit k ns name) (s : Store) : Intent k :=
  match e with
  | spec f _ => s.intendSpec ns name f
  | status f => s.intendStatus ns name f
  | apply desired _ => s.intendApply desired

/-- An object whose edited half is as the edit wants it. -/
def of (e : Edit k ns name) (o : Object k) : Object k :=
  match e with
  | spec f _ => f o
  | status f => { o with status := f o }
  | apply desired _ => desired

/-- Whether the edit has nothing to change about an object. -/
def leaves (e : Edit k ns name) (o : Object k) : Bool :=
  match e with
  | spec f _ => Store.sameSpec (f o) o
  | status f => f o = o.status
  | apply desired _ => Store.sameSpec o desired

/-- What an edit may commit, by the object that its client has read and the one that stands under
the key.  The two are the same but for the half that the edit leaves alone. -/
inductive Commits (e : Edit k ns name) : Option (Object k) → Option (Object k) → Object k → Prop
  | created {desired : Object k} {here : desired.key = objectKey ns name}
      (made : e = .apply desired here) (s : Store) : Commits e none none (s.accepted desired)
  | rewritten {seen now : Object k} (same : e.half.Same seen now)
      (changed : e.leaves seen = false) :
      Commits e (some seen) (some now) (e.half.written now (e.of seen))

/-- What a read leads to. -/
theorem intend_cases (e : Edit k ns name) {s : Store} (sound : s.Sound) :
    (e.intend s = .nothing (s.get k ns name) ∧ ∀ o, s.get k ns name = some o → e.leaves o) ∨
    (∃ desired here, e = .apply desired here ∧ s.get k ns name = none ∧
      e.intend s = .create desired) ∨
    ∃ o new, s.get k ns name = some o ∧ e.leaves o = false ∧ e.intend s = e.half.replace new ∧
      new.key = objectKey ns name ∧ e.half.version new.info = e.half.version o.info ∧
      ∀ now, e.half.written now new = e.half.written now (e.of o) := by
  cases e with
  | spec f stays =>
      cases found : s.get k ns name with
      | none => exact .inl ⟨by simp [intend, Store.intendSpec, found], by simp⟩
      | some o =>
          cases same : Store.sameSpec (f o) o with
          | true =>
              refine .inl ⟨by simp [intend, Store.intendSpec, found, same], ?_⟩
              rintro _ ⟨⟩
              exact same
          | false =>
              refine .inr (.inr ⟨o, { f o with info.specVersion := o.info.specVersion }, rfl, same,
                by simp [intend, Store.intendSpec, found, same, half, Half.replace], ?_, rfl,
                fun _ => rfl⟩)
              exact (stays o).trans (sound.keyed k _ o found)
  | status f =>
      cases found : s.get k ns name with
      | none => exact .inl ⟨by simp [intend, Store.intendStatus, found], by simp⟩
      | some o =>
          by_cases same : f o = o.status
          · refine .inl ⟨by simp [intend, Store.intendStatus, found, same], ?_⟩
            rintro _ ⟨⟩
            exact decide_eq_true same
          · exact .inr (.inr ⟨o, { o with status := f o }, rfl, decide_eq_false same,
              by simp [intend, Store.intendStatus, found, same, half, Half.replace],
              sound.keyed k _ o found, rfl, fun _ => rfl⟩)
  | apply desired here =>
      cases found : s.get k ns name with
      | none =>
          have free : s.getByKey k desired.key = none := here ▸ found
          exact .inr (.inl ⟨desired, here, rfl, rfl, by simp [intend, Store.intendApply, free]⟩)
      | some o =>
          have there : s.getByKey k desired.key = some o := here ▸ found
          cases same : Store.sameSpec o desired with
          | true =>
              refine .inl ⟨by simp [intend, Store.intendApply, there, same], ?_⟩
              rintro _ ⟨⟩
              exact same
          | false =>
              exact .inr (.inr ⟨o, { o with
                  spec := desired.spec
                  info.labels := desired.info.labels
                  info.owner := desired.info.owner }, rfl, same,
                by simp [intend, Store.intendApply, there, same, half, Half.replace],
                sound.keyed k _ o found, rfl, fun _ => rfl⟩)

end Edit

/-! ## Chains of commits -/

/-- A commit of a client: what it has read, what stood there, and what stands there now. -/
structure Commit (k : Kind) where
  client : Nat
  seen : Option (Object k)
  before : Option (Object k)
  after : Object k
  deriving DecidableEq

section Chain

variable {k : Kind} {ns name : String} {edits : Nat → Edit k ns name} {h : Half}

/-- Whether a commit has changed a half of the object.  A creation has changed both. -/
def touches (edits : Nat → Edit k ns name) (h : Half) (c : Commit k) : Bool :=
  c.before.isNone || (edits c.client).half = h

/-- The version of a half, zero if there is no object. -/
def versionOf (h : Half) (o : Option (Object k)) : Nat := (o.map (h.version ·.info)).getD 0

/-- Commits, each from what the one before it has left. -/
inductive Chain (edits : Nat → Edit k ns name) (first : Option (Object k)) :
    List (Commit k) → Option (Object k) → Prop
  | nil : Chain edits first [] first
  | snoc {log : List (Commit k)} {now : Option (Object k)} {c : Commit k}
      (past : Chain edits first log now) (before : c.before = now)
      (made : (edits c.client).Commits c.seen c.before c.after) :
      Chain edits first (log ++ [c]) (some c.after)

theorem Edit.Commits.version_eq {e : Edit k ns name} {seen before : Option (Object k)}
    {after : Object k} (made : e.Commits seen before after) (h : Half) : h.version after.info =
      versionOf h before + if before.isNone || e.half = h then 1 else 0 := by
  cases made with
  | created made s => cases h <;> rfl
  | rewritten same changed => simp [Half.version_written, versionOf]

/-- Both versions count the commits of their halves. -/
theorem Chain.counted {first now : Option (Object k)} {log : List (Commit k)}
    (chain : Chain edits first log now) (h : Half) :
    versionOf h now = versionOf h first + log.countP (touches edits h) := by
  induction chain with
  | nil => rfl
  | @snoc log now c past before made ih =>
      have after := made.version_eq h
      rw [before, ih] at after
      rw [List.countP_append, List.countP_singleton, ← Nat.add_assoc]
      rw [← before] at after
      exact after

theorem Chain.exists_object {o : Object k} {now : Option (Object k)} {log : List (Commit k)}
    (chain : Chain edits (some o) log now) : ∃ p, now = some p := by
  cases chain with
  | nil => exact ⟨o, rfl⟩
  | snoc past before made => exact ⟨_, rfl⟩

/-- Where there was no object, an edit of the spec has created it. -/
theorem Chain.exists_creation {now : Option (Object k)} {log : List (Commit k)}
    (chain : Chain edits none log now) (there : now ≠ none) :
    ∃ c ∈ log, (edits c.client).half = .spec := by
  induction chain with
  | nil => exact absurd rfl there
  | @snoc log now c past before made ih =>
      by_cases free : now = none
      · rw [before, free] at made
        generalize c.seen = seen, c.after = after at made
        cases made with
        | created made s => exact ⟨c, by simp, by rw [made]; rfl⟩
      · obtain ⟨c', inside, created⟩ := ih free
        exact ⟨c', List.mem_append_left _ inside, created⟩

/-- An object that is there is not created. -/
theorem Chain.half_of_touches {o : Object k} {now : Option (Object k)} {log : List (Commit k)}
    (chain : Chain edits (some o) log now) {c : Commit k} (inside : c ∈ log)
    (touched : touches edits h c = true) : (edits c.client).half = h := by
  induction chain with
  | nil => cases inside
  | @snoc log now c' past before made ih =>
      rcases List.mem_append.1 inside with earlier | last
      · exact ih earlier
      · obtain rfl := List.mem_singleton.1 last
        obtain ⟨p, rfl⟩ := past.exists_object
        simpa [touches, before] using touched

/-- Commits of the other half leave a half as it is. -/
theorem Chain.same {o p : Object k} {now : Option (Object k)} {log : List (Commit k)}
    (chain : Chain edits (some o) log now) (there : now = some p)
    (untouched : ∀ c ∈ log, touches edits h c = false) : h.Same o p := by
  induction chain generalizing p with
  | nil =>
      cases there
      exact .refl h o
  | @snoc log now c past before made ih =>
      obtain ⟨q, rfl⟩ := past.exists_object
      have same : h.Same o q := ih rfl fun c inside => untouched c (List.mem_append_left _ inside)
      have other : touches edits h c = false := untouched c (by simp)
      cases there
      rw [before] at made
      simp only [touches, Bool.or_eq_false_iff, decide_eq_false_iff_not] at other
      generalize c.seen = seen, c.after = after at made
      cases made with
      | rewritten _ _ => exact same.written other.2 _

end Chain

/-! ## Conditional writes -/

section Perform

variable {k : Kind} {ns name : String} {edits : Nat → Edit k ns name}

theorem perform_replace (h : Half) (new : Object k) (s : Store) : (h.replace new).perform s =
    match s.getByKey k new.key with
    | none => .error (.notFound (k.name ++ " " ++ new.key))
    | some now =>
        if h.version now.info = h.version new.info then .ok (some (h.written now new),
          s.commit (h.written now new) now.info.labels h.change)
        else .error (.conflict k new.key (h.version new.info) (h.version now.info)) := by
  have written : (h.replace new).perform s = (h.write s new).map fun r => (some r.1, r.2) := by
    cases h <;> rfl
  rw [written, Store.write_eq]
  cases s.getByKey k new.key with
  | none => rfl
  | some now =>
      simp only
      split <;> rfl

theorem isPersisted_written {s : Store} (sound : s.Sound) {p : Object k}
    (now : s.get k ns name = some p) (h : Half) (new : Object k) :
    (h.written p new).info.isPersisted = true := by
  cases h
  · exact decide_eq_true (Nat.succ_pos _)
  · exact sound.accepted k _ p now

/-- What comes of a client's write to a store later than the one it has read. -/
inductive Outcome (edits : Nat → Edit k ns name) (i : Nat) (met : List (Commit k))
    (read s : Store) : Prop
  /-- The edit changes nothing of what was read. -/
  | idle (writes : ((edits i).intend read).writes = false)
      (performed : ((edits i).intend read).perform s = .ok (read.get k ns name, s))
      (leaves : ∀ o, read.get k ns name = some o → (edits i).leaves o)
  | committed {o : Object k} {s' : Store} (writes : ((edits i).intend read).writes = true)
      (performed : ((edits i).intend read).perform s = .ok (some o, s')) (sound : s'.Sound)
      (stored : s'.get k ns name = some o)
      (made : (edits i).Commits (read.get k ns name) (s.get k ns name) o)
  /-- The half of the edit was committed in between. -/
  | beaten {e : StoreError} (performed : ((edits i).intend read).perform s = .error e)
      (conflict : e.isConflict = true)
      (raced : ∃ c ∈ met, (edits c.client).half = (edits i).half)

section Outcome

variable {read s : Store} {met : List (Commit k)} {i : Nat}

theorem outcome_create {desired : Object k} {here : desired.key = objectKey ns name}
    (made : edits i = .apply desired here) (free : read.get k ns name = none)
    (intent : (edits i).intend read = .create desired) (sound : s.Sound)
    (chain : Chain edits none met (s.get k ns name)) : Outcome edits i met read s := by
  cases now : s.get k ns name with
  | none =>
      have free_now : s.getByKey k desired.key = none := here ▸ now
      have performed : ((edits i).intend read).perform s =
          .ok (some (s.accepted desired), s.commit (s.accepted desired) ∅ .created) := by
        rw [intent, Intent.perform, Store.create_eq free_now]
      refine .committed (by rw [intent]; rfl) performed (sound.commit rfl _ _) ?_ ?_
      · unfold Store.get
        rw [← here]
        exact Store.getByKey_commit_self ..
      · rw [free, now]
        exact .created made s
  | some p =>
      have taken : s.getByKey k desired.key = some p := here ▸ now
      have performed : ((edits i).intend read).perform s =
          .error (.conflict k desired.key 0 1) := by
        rw [intent, Intent.perform, Store.create_taken taken]
      obtain ⟨c, inside, created⟩ := chain.exists_creation (by simp [now])
      exact .beaten performed rfl ⟨c, inside, by rw [created, made]; rfl⟩

theorem outcome_replace {o new : Object k} (seen : read.get k ns name = some o)
    (changed : (edits i).leaves o = false)
    (intent : (edits i).intend read = (edits i).half.replace new)
    (key : new.key = objectKey ns name)
    (version : (edits i).half.version new.info = (edits i).half.version o.info)
    (written : ∀ now, (edits i).half.written now new = (edits i).half.written now ((edits i).of o))
    (sound : s.Sound) (chain : Chain edits (some o) met (s.get k ns name)) :
    Outcome edits i met read s := by
  obtain ⟨p, now⟩ := chain.exists_object
  have counted : (edits i).half.version p.info =
      (edits i).half.version o.info + met.countP (touches edits (edits i).half) := by
    have := chain.counted (edits i).half
    rwa [now] at this
  have there : s.getByKey k new.key = some p := key ▸ now
  have performed := perform_replace (edits i).half new s
  simp only [there, version, counted] at performed
  rw [← intent] at performed
  -- the version that the write finds has counted the commits of its half since the read
  by_cases untouched : met.countP (touches edits (edits i).half) = 0
  · rw [if_pos (by omega)] at performed
    have same : (edits i).half.Same o p := chain.same now fun c inside =>
      Bool.eq_false_iff.2 (List.countP_eq_zero.1 untouched c inside)
    have writes : ((edits i).intend read).writes = true := by
      rw [intent, Half.writes_replace]
    have keyed : ((edits i).half.written p new).key = objectKey ns name :=
      ((edits i).half.key_written p new).trans (sound.keyed k _ p now)
    refine .committed writes performed (sound.commit (isPersisted_written sound now _ _) _ _) ?_ ?_
    · unfold Store.get
      rw [← keyed]
      exact Store.getByKey_commit_self ..
    · rw [seen, now, written]
      exact .rewritten same changed
  · rw [if_neg (by omega)] at performed
    obtain ⟨c, inside, touched⟩ := List.countP_pos_iff.1 (Nat.pos_of_ne_zero untouched)
    exact .beaten performed rfl ⟨c, inside, chain.half_of_touches inside touched⟩

/-- **A write is refused only if its half was committed since the read.** -/
theorem outcome_of_chain (sound_read : read.Sound) (sound : s.Sound)
    (chain : Chain edits (read.get k ns name) met (s.get k ns name)) :
    Outcome edits i met read s := by
  rcases (edits i).intend_cases sound_read with
    ⟨intent, leaves⟩ | ⟨desired, here, made, free, intent⟩ |
      ⟨o, new, seen, changed, intent, key, version, written⟩
  · exact .idle (by rw [intent]; rfl) (by rw [intent]; rfl) leaves
  · rw [free] at chain
    exact outcome_create made free intent sound chain
  · rw [seen] at chain
    exact outcome_replace seen changed intent key version written sound chain

end Outcome

end Perform

end Contention
end Cutover
