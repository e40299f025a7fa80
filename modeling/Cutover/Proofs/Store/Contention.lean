/-
# Cutover.Proofs.Store.Contention -- clients that edit one object at once

Any number of clients edit the object of one key.  Each of them reads the store, and in a later
turn of its own writes what it has decided, if the store still allows it.  A client that was
refused reads again, up to `attempts` times.  Other requests come between, as long as they
leave the object alone.

The `Arena` keeps a record: the log of commits, for each client what was committed since its
read, and the refusals.  `Orderly` says that the log is a chain, and so is what was committed
since a client's read, and where each client may stand.  Every turn keeps the record in order
(`Orderly.turn`), and so no edit is lost (`edits_lossless`).

A client that is alone goes through the attempts of `Store.edit` (`edit_alone`).
-/
import Cutover.Proofs.Store.Edits
import Mathlib.Logic.Function.Basic

namespace Cutover

set_option autoImplicit false

namespace Contention

/-! ## Clients -/

/-- How far a client has come with an attempt. -/
inductive Phase (k : Kind) where
  | reading
  | writing (read : Store)
  | done (result : Except StoreError (Option (Object k) × Bool))

/-- A client has lost some races. -/
structure Client (k : Kind) where
  lost : Nat
  phase : Phase k

/-- A client's write was refused, and what was committed since it read. -/
structure Refusal (k : Kind) where
  client : Nat
  met : List (Commit k)

/-- Clients with an edit each, the store, and a record of what has happened. -/
structure Arena (k : Kind) (ns name : String) where
  edits : Nat → Edit k ns name
  clients : Nat → Client k
  store : Store
  log : List (Commit k)
  /-- For each client the commits since its read. -/
  met : Nat → List (Commit k)
  refusals : List (Refusal k)

/-- Whose turn it is. -/
inductive Turn where
  | client (i : Nat)
  | elsewhere (r : Request)

namespace Arena

variable {k : Kind} {ns name : String}

/-- Clients that have not begun, before a store. -/
def fresh (edits : Nat → Edit k ns name) (s : Store) : Arena k ns name where
  edits := edits
  clients _ := ⟨0, .reading⟩
  store := s
  log := []
  met _ := []
  refusals := []

/-- The object that all clients edit. -/
def object (a : Arena k ns name) : Option (Object k) := a.store.get k ns name

def goOn (a : Arena k ns name) (i : Nat) (c : Client k) : Arena k ns name :=
  { a with clients := Function.update a.clients i c }

/-- A client reads the store. -/
def read (a : Arena k ns name) (i : Nat) : Arena k ns name :=
  { a.goOn i { a.clients i with phase := .writing a.store } with
    met := Function.update a.met i [] }

/-- A client is done and had nothing to write. -/
def answer (a : Arena k ns name) (i : Nat) (s : Store) (o : Option (Object k)) : Arena k ns name :=
  { a.goOn i { a.clients i with phase := .done (.ok (o, false)) } with store := s }

/-- A client is done and has written an object. -/
def commit (a : Arena k ns name) (i : Nat) (read s : Store) (o : Object k) : Arena k ns name :=
  let c : Commit k := ⟨i, read.get k ns name, a.object, o⟩
  { a.goOn i { a.clients i with phase := .done (.ok (some o, true)) } with
    store := s
    log := a.log ++ [c]
    met := fun j => a.met j ++ [c] }

/-- A client's write is refused.  It starts over if it may. -/
def refuse (a : Arena k ns name) (i : Nat) (e : StoreError) : Arena k ns name :=
  let lost := (a.clients i).lost + 1
  let phase := if e.isConflict && lost < Store.attempts then .reading else .done (.error e)
  { a.goOn i ⟨lost, phase⟩ with refusals := a.refusals ++ [⟨i, a.met i⟩] }

/-- What a turn does.  A request from elsewhere is served if it leaves the object alone. -/
def turn (a : Arena k ns name) : Turn → Arena k ns name
  | .client i =>
      match (a.clients i).phase with
      | .reading => a.read i
      | .writing read =>
          let intent := (a.edits i).intend read
          match intent.perform a.store with
          | .ok (some o, s) =>
              if intent.writes then a.commit i read s o else a.answer i s (some o)
          | .ok (none, s) => a.answer i s none
          | .error e => a.refuse i e
      | .done _ => a
  | .elsewhere r =>
      let s := a.store.serve r
      if s.get k ns name = a.object then { a with store := s } else a

def run (a : Arena k ns name) (turns : List Turn) : Arena k ns name := turns.foldl turn a

variable {a : Arena k ns name} {i : Nat}

theorem turn_reading (reading : (a.clients i).phase = .reading) :
    a.turn (.client i) = a.read i := by simp only [turn, reading]

theorem turn_writing {read : Store} (writing : (a.clients i).phase = .writing read) :
    a.turn (.client i) = match ((a.edits i).intend read).perform a.store with
      | .ok (some o, s) =>
          if ((a.edits i).intend read).writes then a.commit i read s o else a.answer i s (some o)
      | .ok (none, s) => a.answer i s none
      | .error e => a.refuse i e := by simp only [turn, writing]

theorem turn_done {result : Except StoreError (Option (Object k) × Bool)}
    (done : (a.clients i).phase = .done result) : a.turn (.client i) = a := by
  simp only [turn, done]

/-- The commits of one client. -/
def own (a : Arena k ns name) (i : Nat) : List (Commit k) := a.log.filter (·.client = i)

end Arena

/-! ## Order in an arena -/

section Orderly

variable {k : Kind} {ns name : String} {edits : Nat → Edit k ns name}

/-- Where a client may stand: what it has committed, what was committed since its read, how many
races it has lost, and how far it has come. -/
inductive Standing (edits : Nat → Edit k ns name) (now : Option (Object k)) (i : Nat)
    (own met : List (Commit k)) (lost : Nat) : Phase k → Prop
  | reading (idle : own = []) (few : lost < Store.attempts) :
      Standing edits now i own met lost .reading
  | writing {read : Store} (idle : own = []) (few : lost < Store.attempts) (sound : read.Sound)
      (chain : Chain edits (read.get k ns name) met now) (others : ∀ c ∈ met, c.client ≠ i) :
      Standing edits now i own met lost (.writing read)
  | unchanged {o : Option (Object k)} (idle : own = [])
      (leaves : ∀ p, o = some p → (edits i).leaves p) :
      Standing edits now i own met lost (.done (.ok (o, false)))
  | changed {c : Commit k} (once : own = [c]) :
      Standing edits now i own met lost (.done (.ok (some c.after, true)))
  | beaten {e : StoreError} (idle : own = []) (all : lost = Store.attempts)
      (conflict : e.isConflict = true) : Standing edits now i own met lost (.done (.error e))

/-- A client keeps its place when another one commits. -/
theorem Standing.extend {now : Option (Object k)} {i lost : Nat} {own met : List (Commit k)}
    {phase : Phase k} (standing : Standing edits now i own met lost phase) {c : Commit k}
    (other : c.client ≠ i) (before : c.before = now)
    (made : (edits c.client).Commits c.seen c.before c.after) :
    Standing edits (some c.after) i own (met ++ [c]) lost phase := by
  cases standing with
  | reading idle few => exact .reading idle few
  | writing idle few sound chain others =>
      refine .writing idle few sound (chain.snoc before made) fun c' inside => ?_
      rcases List.mem_append.1 inside with earlier | last
      · exact others c' earlier
      · rwa [List.mem_singleton.1 last]
  | unchanged idle leaves => exact .unchanged idle leaves
  | changed once => exact .changed once
  | beaten idle all conflict => exact .beaten idle all conflict

/-- The record of an arena is in order. -/
structure Orderly (first : Option (Object k)) (a : Arena k ns name) : Prop where
  sound : a.store.Sound
  chain : Chain a.edits first a.log a.object
  standing : ∀ i, Standing a.edits a.object i (a.own i) (a.met i) (a.clients i).lost
    (a.clients i).phase
  counted : ∀ i, a.refusals.countP (·.client = i) = (a.clients i).lost
  raced : ∀ r ∈ a.refusals, ∃ c ∈ r.met, c.client ≠ r.client ∧
    (a.edits c.client).half = (a.edits r.client).half

variable {a : Arena k ns name} {first : Option (Object k)} {i : Nat}

theorem clients_goOn (a : Arena k ns name) (i j : Nat) (c : Client k) :
    (a.goOn i c).clients j = if j = i then c else a.clients j := Function.update_apply ..

theorem lost_goOn (a : Arena k ns name) (i j : Nat) (phase : Phase k) :
    ((a.goOn i { a.clients i with phase }).clients j).lost = (a.clients j).lost := by
  rw [clients_goOn]
  split
  · rename_i same
    rw [same]
  · rfl

/-- A client that is about to write has committed nothing, and what was committed since its read
is a chain of others' commits. -/
theorem Orderly.of_writing (orderly : Orderly first a) {read : Store}
    (writing : (a.clients i).phase = .writing read) :
    a.own i = [] ∧ (a.clients i).lost < Store.attempts ∧ read.Sound ∧
      Chain a.edits (read.get k ns name) (a.met i) a.object ∧ ∀ c ∈ a.met i, c.client ≠ i := by
  have standing := orderly.standing i
  rw [writing] at standing
  cases standing with
  | writing idle few sound chain others => exact ⟨idle, few, sound, chain, others⟩

theorem Orderly.read (orderly : Orderly first a) (reading : (a.clients i).phase = .reading) :
    Orderly first (a.read i) where
  sound := orderly.sound
  chain := orderly.chain
  standing j := by
    have standing := orderly.standing j
    by_cases same : j = i
    · subst same
      rw [reading] at standing
      cases standing with
      | reading idle few =>
          simp only [Arena.read, clients_goOn, Function.update_self, if_true]
          exact .writing idle few orderly.sound .nil (by simp)
    · simp only [Arena.read, clients_goOn, Function.update_of_ne same, if_neg same]
      exact standing
  counted j := by
    have lost : ((a.read i).clients j).lost = (a.clients j).lost := lost_goOn ..
    rw [lost]
    exact orderly.counted j
  raced := orderly.raced

theorem Orderly.answer (orderly : Orderly first a) {read : Store} {o : Option (Object k)}
    (writing : (a.clients i).phase = .writing read)
    (leaves : ∀ p, o = some p → (a.edits i).leaves p) :
    Orderly first (a.answer i a.store o) where
  sound := orderly.sound
  chain := orderly.chain
  standing j := by
    have idle := (orderly.of_writing writing).1
    by_cases same : j = i
    · subst same
      simp only [Arena.answer, clients_goOn, if_true]
      exact .unchanged idle leaves
    · simp only [Arena.answer, clients_goOn, if_neg same]
      exact orderly.standing j
  counted j := by
    have lost : ((a.answer i a.store o).clients j).lost = (a.clients j).lost := lost_goOn ..
    rw [lost]
    exact orderly.counted j
  raced := orderly.raced

theorem Orderly.commit (orderly : Orderly first a) {read s : Store} {o : Object k}
    (writing : (a.clients i).phase = .writing read) (sound : s.Sound)
    (stored : s.get k ns name = some o)
    (made : (a.edits i).Commits (read.get k ns name) a.object o) :
    Orderly first (a.commit i read s o) := by
  have object : (a.commit i read s o).object = some o := stored
  refine ⟨sound, ?_, fun j => ?_, fun j => ?_, orderly.raced⟩
  · rw [object]
    exact orderly.chain.snoc (c := ⟨i, read.get k ns name, a.object, o⟩) rfl made
  · rw [object]
    by_cases same : j = i
    · subst same
      have once : (a.commit j read s o).own j = [⟨j, read.get k ns name, a.object, o⟩] := by
        have idle := (orderly.of_writing writing).1
        unfold Arena.own at idle ⊢
        simp [Arena.commit, idle]
      simp only [Arena.commit, clients_goOn, if_true]
      exact .changed once
    · have own : (a.commit i read s o).own j = a.own j := by
        simp [Arena.own, Arena.commit, Ne.symm same]
      rw [own]
      -- what the other clients have read is one commit older now
      simp only [Arena.commit, clients_goOn, if_neg same]
      exact (orderly.standing j).extend (c := ⟨i, read.get k ns name, a.object, o⟩)
        (Ne.symm same) rfl made
  · have lost : ((a.commit i read s o).clients j).lost = (a.clients j).lost := lost_goOn ..
    rw [lost]
    exact orderly.counted j

theorem Orderly.refuse (orderly : Orderly first a) {read : Store} {e : StoreError}
    (writing : (a.clients i).phase = .writing read) (conflict : e.isConflict = true)
    (raced : ∃ c ∈ a.met i, (a.edits c.client).half = (a.edits i).half) :
    Orderly first (a.refuse i e) := by
  obtain ⟨idle, few, -, -, others⟩ := orderly.of_writing writing
  refine ⟨orderly.sound, orderly.chain, fun j => ?_, fun j => ?_, fun r inside => ?_⟩
  · by_cases same : j = i
    · subst same
      simp only [Arena.refuse, clients_goOn, if_true, conflict, Bool.true_and, decide_eq_true_eq]
      split
      · rename_i more
        exact .reading idle more
      · exact .beaten idle (by omega) conflict
    · simp only [Arena.refuse, clients_goOn, if_neg same]
      exact orderly.standing j
  · have counted := orderly.counted j
    by_cases same : j = i
    · subst same
      simp [Arena.refuse, clients_goOn, counted]
    · simp [Arena.refuse, clients_goOn, same, Ne.symm same, counted]
  · rcases List.mem_append.1 inside with earlier | last
    · exact orderly.raced r earlier
    · obtain rfl := List.mem_singleton.1 last
      obtain ⟨c, met, same⟩ := raced
      exact ⟨c, met, others c met, same⟩

/-- **Every turn keeps the record in order.** -/
theorem Orderly.turn (orderly : Orderly first a) (t : Turn) : Orderly first (a.turn t) := by
  cases t with
  | client i =>
      cases phase : (a.clients i).phase with
      | reading =>
          rw [Arena.turn_reading phase]
          exact orderly.read phase
      | done result => rwa [Arena.turn_done phase]
      | writing read =>
          obtain ⟨-, -, sound, chain, -⟩ := orderly.of_writing phase
          rw [Arena.turn_writing phase]
          cases outcome_of_chain (i := i) sound orderly.sound chain with
          | idle writes performed leaves =>
              rw [performed, writes]
              cases seen : read.get k ns name with
              | none => exact orderly.answer phase (by simp)
              | some o => exact orderly.answer phase (seen ▸ leaves)
          | committed writes performed sound' stored made =>
              rw [performed, writes]
              exact orderly.commit phase sound' stored made
          | beaten performed conflict raced =>
              rw [performed]
              exact orderly.refuse phase conflict raced
  | elsewhere r =>
      unfold Arena.turn
      simp only
      split
      · rename_i same
        have object : a.object = ({ a with store := a.store.serve r } : Arena k ns name).object :=
          same.symm
        exact ⟨orderly.sound.next (Store.next_serve _ r), object ▸ orderly.chain,
          object ▸ orderly.standing, orderly.counted, orderly.raced⟩
      · exact orderly

theorem Orderly.run (orderly : Orderly first a) (turns : List Turn) :
    Orderly first (a.run turns) := by
  induction turns generalizing a with
  | nil => exact orderly
  | cons t rest ih => exact ih (orderly.turn t)

theorem orderly_fresh (edits : Nat → Edit k ns name) {s : Store} (sound : s.Sound) :
    Orderly (s.get k ns name) (Arena.fresh edits s) where
  sound := sound
  chain := .nil
  standing _ := .reading rfl (Nat.succ_pos 4)
  counted _ := rfl
  raced _ inside := absurd inside List.not_mem_nil

end Orderly

/-! ## A client that is alone -/

section Alone

variable {k : Kind} {ns name : String} {a : Arena k ns name} {i : Nat}

/-- A client is done, with the result of a pass and in the store that the pass leaves. -/
def Ended (a : Arena k ns name) (i : Nat) :
    EStateM.Result StoreError Store (Option (Object k) × Bool) → Prop
  | .ok r s => (a.clients i).phase = .done (.ok r) ∧ a.store = s
  | .error e s => (a.clients i).phase = .done (.error e) ∧ a.store = s

theorem writes_of_none {intent : Intent k} {s s' : Store}
    (performed : intent.perform s = .ok (none, s')) : intent.writes = false := by
  cases intent with
  | nothing seen => rfl
  | create new =>
      simp only [Intent.perform] at performed
      split at performed <;> cases performed
  | replaceSpec new =>
      simp only [Intent.perform] at performed
      cases written : s.updateSpec new <;> rw [written] at performed <;> cases performed
  | replaceStatus new =>
      simp only [Intent.perform] at performed
      cases written : s.updateStatus new <;> rw [written] at performed <;> cases performed

theorem run_of_done {result : Except StoreError (Option (Object k) × Bool)}
    (done : (a.clients i).phase = .done result) (n : Nat) :
    a.run (List.replicate n (.client i)) = a := by
  induction n with
  | zero => rfl
  | succ n ih =>
      have still : a.run (List.replicate (n + 1) (.client i)) =
          (a.turn (.client i)).run (List.replicate n (.client i)) := rfl
      rw [still, Arena.turn_done done, ih]

/-- Two turns in a row are one attempt at the edit. -/
theorem run_attempt (reading : (a.clients i).phase = .reading) (n : Nat) :
    match Store.attempt (a.edits i).intend a.store with
    | .ok r s => Ended (a.run (List.replicate (n + 2) (.client i))) i (.ok r s)
    | .error e _ => a.run (List.replicate (n + 2) (.client i)) =
        ((a.read i).refuse i e).run (List.replicate n (.client i)) := by
  have parts : a.run (List.replicate (n + 2) (.client i)) =
      ((a.turn (.client i)).turn (.client i)).run (List.replicate n (.client i)) := rfl
  have writing : ((a.read i).clients i).phase = .writing a.store := by
    simp [Arena.read, clients_goOn]
  have same : (a.read i).store = a.store ∧ (a.read i).edits = a.edits := ⟨rfl, rfl⟩
  rw [parts, Arena.turn_reading reading, Arena.turn_writing writing, Store.attempt_eq, same.1,
    same.2]
  cases performed : ((a.edits i).intend a.store).perform a.store with
  | error e => rfl
  | ok result =>
      obtain ⟨o, s⟩ := result
      cases o with
      | none =>
          have done : (((a.read i).answer i s none).clients i).phase =
              .done (.ok (none, false)) := by simp [Arena.answer, clients_goOn]
          simp only [writes_of_none performed, run_of_done done]
          exact ⟨done, rfl⟩
      | some o =>
          cases writes : ((a.edits i).intend a.store).writes with
          | false =>
              have done : (((a.read i).answer i s (some o)).clients i).phase =
                  .done (.ok (some o, false)) := by simp [Arena.answer, clients_goOn]
              simp only [Bool.false_eq_true, if_false, run_of_done done]
              exact ⟨done, rfl⟩
          | true =>
              have done : (((a.read i).commit i a.store s o).clients i).phase =
                  .done (.ok (some o, true)) := by simp [Arena.commit, clients_goOn]
              simp only [if_true, run_of_done done]
              exact ⟨done, rfl⟩

theorem refused_phase (a : Arena k ns name) (i : Nat) (e : StoreError) :
    (((a.read i).refuse i e).clients i).phase =
      if e.isConflict = true ∧ (a.clients i).lost + 1 < Store.attempts then .reading
      else .done (.error e) := by
  simp [Arena.refuse, Arena.read, clients_goOn]

/-- **A client that is alone does what an edit does.** -/
theorem run_alone {more : Nat} (reading : (a.clients i).phase = .reading)
    (left : (a.clients i).lost + more + 1 = Store.attempts) :
    Ended (a.run (List.replicate (2 * (more + 1)) (.client i))) i
      (retrying more (Store.attempt (a.edits i).intend) a.store) := by
  -- on the attempts left: a refusal has changed nothing, so the next one meets the same store
  induction more generalizing a with
  | zero =>
      have attempted := run_attempt reading 0
      cases done : Store.attempt (a.edits i).intend a.store with
      | ok r s =>
          rw [done] at attempted
          rw [retrying, done]
          exact attempted
      | error e s =>
          obtain rfl := Store.eq_of_attempt_error done
          rw [done] at attempted
          have last : ¬ (a.clients i).lost + 1 < Store.attempts := by omega
          have gave_up : (((a.read i).refuse i e).clients i).phase = .done (.error e) := by
            simp [refused_phase, last]
          rw [retrying, done, attempted]
          exact ⟨gave_up, rfl⟩
  | succ more ih =>
      have attempted := run_attempt reading (2 * (more + 1))
      cases done : Store.attempt (a.edits i).intend a.store with
      | ok r s =>
          rw [done] at attempted
          simp only [retrying, done]
          exact attempted
      | error e s =>
          obtain rfl := Store.eq_of_attempt_error done
          rw [done] at attempted
          rw [Nat.mul_succ, attempted]
          simp only [retrying, done]
          by_cases conflict : e.isConflict = true
          · have again : (((a.read i).refuse i e).clients i).phase = .reading := by
              have few : (a.clients i).lost + 1 < Store.attempts := by omega
              simp [refused_phase, few, conflict]
            have lost : (((a.read i).refuse i e).clients i).lost = (a.clients i).lost + 1 := by
              simp [Arena.refuse, Arena.read, clients_goOn]
            rw [if_pos conflict]
            exact ih again (by omega)
          · have gave_up : (((a.read i).refuse i e).clients i).phase = .done (.error e) := by
              simp [refused_phase, conflict]
            rw [run_of_done gave_up, if_neg conflict]
            exact ⟨gave_up, rfl⟩

/-- An edit is what its client does before anybody else comes. -/
theorem edit_alone (edits : Nat → Edit k ns name) (s : Store) (i : Nat) :
    Ended ((Arena.fresh edits s).run (List.replicate (2 * Store.attempts) (.client i))) i
      (Store.edit (edits i).intend s) := by
  have left : ((Arena.fresh edits s).clients i).lost + 4 + 1 = Store.attempts := rfl
  exact run_alone rfl left

end Alone

/-! ## No edit is lost -/

section Lossless

variable {k : Kind} {ns name : String}

/-- Every edit has its effect once, or none and its client is told. -/
structure Lossless (first : Option (Object k)) (a : Arena k ns name) : Prop where
  /-- The log leads from the first object to the stored one.  Every commit is its client's edit of
  an object with the spec, labels and owner, or the status, that the commit before it left. -/
  chained : Chain a.edits first a.log a.object
  /-- Either version counts the commits of its half. -/
  counted : ∀ h, versionOf h a.object = versionOf h first + a.log.countP (touches a.edits h)
  /-- An edit that had nothing to change has written nothing. -/
  quiet : ∀ i o, (a.clients i).phase = .done (.ok (o, false)) →
    a.own i = [] ∧ ∀ p, o = some p → (a.edits i).leaves p
  once : ∀ i o, (a.clients i).phase = .done (.ok (o, true)) →
    ∃ c, a.own i = [c] ∧ o = some c.after
  /-- A client has to try again only because another one has committed the same half since it
  read. -/
  raced : ∀ r ∈ a.refusals, ∃ c ∈ r.met, c.client ≠ r.client ∧
    (a.edits c.client).half = (a.edits r.client).half
  /-- A client that gives up has lost all its races and has written nothing. -/
  beaten : ∀ i e, (a.clients i).phase = .done (.error e) → e.isConflict = true ∧ a.own i = [] ∧
    a.refusals.countP (·.client = i) = Store.attempts

/-- **No edit is lost.**  Whatever requests have led to a store, any number of clients may edit one
of its objects in any order of their reads and writes. -/
theorem edits_lossless (clock : Nat) (requests : List Request) (edits : Nat → Edit k ns name)
    (turns : List Turn) : Lossless (((Store.empty clock).after requests).get k ns name)
      ((Arena.fresh edits ((Store.empty clock).after requests)).run turns) := by
  have sound : ((Store.empty clock).after requests).Sound :=
    (Store.sound_empty clock).after requests
  have orderly := (orderly_fresh edits sound).run turns
  refine ⟨orderly.chain, orderly.chain.counted, ?_, ?_, orderly.raced, ?_⟩
  · intro i o done
    have standing := orderly.standing i
    rw [done] at standing
    cases standing with
    | unchanged idle leaves => exact ⟨idle, leaves⟩
  · intro i o done
    have standing := orderly.standing i
    rw [done] at standing
    cases standing with
    | changed once => exact ⟨_, once, rfl⟩
  · intro i e done
    have standing := orderly.standing i
    rw [done] at standing
    cases standing with
    | beaten idle all conflict => exact ⟨conflict, idle, (orderly.counted i).trans all⟩

namespace Sample

def release : Release :=
  { info := Meta.fresh "prod" "web-1", spec := { (default : ReleaseSpec) with numDesired := 3 }
    status := default }

/-- The first client wants one instance more than are ready, the second has seen five. -/
def edits : Nat → Edit .releases "prod" "web-1"
  | 0 => .spec (fun o => { o with spec.numDesired := o.status.numReady + 1 }) fun _ => rfl
  | _ => .status fun o => { o.status with numReady := 5 }

def created : Release := (Store.empty 9).accepted release

def observed : Release := Store.restated created { created.status with numReady := 5 }

def sized (count : Nat) : Release :=
  Store.respecified observed { observed with spec.numDesired := count }

/-- The second client commits between the first one's read and write. -/
def turns : List Turn := [.client 0, .client 1, .client 1, .client 0]

end Sample

/-- The status that an edit of the spec looks at may be older than the object it is committed to.
A release is given one instance by the status that was read, not the six of the status stored. -/
theorem spec_edited_by_older_status :
    ¬ ∀ (clock : Nat) (requests : List Request) (k : Kind) (ns name : String)
      (edits : Nat → Edit k ns name) (turns : List Turn) (c : Commit k) (before : Object k),
      c ∈ ((Arena.fresh edits ((Store.empty clock).after requests)).run turns).log →
      c.before = some before →
      c.after = (edits c.client).half.written before ((edits c.client).of before) := by
  intro claimed
  let commit : Commit .releases :=
    ⟨0, some Sample.created, some Sample.observed, Sample.sized 1⟩
  have logged : commit ∈ ((Arena.fresh Sample.edits
      ((Store.empty 9).after [.create Sample.release])).run Sample.turns).log := by decide
  have same : Sample.sized 1 = Sample.sized 6 :=
    claimed 9 [.create Sample.release] .releases "prod" "web-1" Sample.edits Sample.turns _ _ logged
      rfl
  exact absurd same (by decide)

end Lossless
end Contention
end Cutover
