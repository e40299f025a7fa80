/-
# Cutover.Proofs.Feedback.Copies -- a count that is read back

Two passes keep one instance count in three places.  The pass over the descriptor wants
of the release what the descriptor last mirrored, within bounds, and mirrors what the
release has seen; the pass over the release sees what is wanted of it, and sizes its
group by it.  `Copies` is that and no more; the bounds are a function that leaves alone
what is within them.

If the three copies agree within the bounds, one change at most settles them, in every
order of passes (`changes_wanted_le`, `changes_group_le`).  If they do not, passes that
take turns hand the difference round for ever (`exists_changes`).
-/
namespace Cutover.Feedback

set_option autoImplicit false

/-- A pass over the descriptor or over its active release, at a time. -/
inductive Turn where
  | deployment (now : Nat)
  | release (now : Nat)

/-- The copies of one count: wanted of the release, seen by it, mirrored by its
descriptor, and the size of its group. -/
structure Copies where
  wanted : Nat
  seen : Nat
  mirrored : Nat
  group : Nat
  deriving DecidableEq

/-- How often a value is not the one before it. -/
def changes : List Nat → Nat
  | x :: y :: rest => (if x = y then 0 else 1) + changes (y :: rest)
  | _ => 0

namespace Copies

variable (bound : Nat → Nat)

def turn (c : Copies) : Turn → Copies
  | .deployment _ => { c with wanted := bound c.mirrored, mirrored := c.seen }
  | .release _ => { c with seen := c.wanted, group := c.wanted }

/-- The copies before and after each of some turns. -/
def trace : Copies → List Turn → List Copies
  | c, [] => [c]
  | c, t :: rest => c :: trace (c.turn bound t) rest

section Steps

variable (f : Copies → Nat) (c : Copies) (t : Turn) (turns : List Turn)

theorem trace_eq_cons : ∃ rest, c.trace bound turns = c :: rest := by
  cases turns with
  | nil => exact ⟨[], rfl⟩
  | cons t turns => exact ⟨_, rfl⟩

/-- The first step of a trace counts if it changes the value. -/
theorem changes_trace_cons : changes ((c.trace bound (t :: turns)).map f) =
    (if f c = f (c.turn bound t) then 0 else 1) +
      changes (((c.turn bound t).trace bound turns).map f) := by
  obtain ⟨rest, same⟩ := trace_eq_cons bound (c.turn bound t) turns
  show changes (f c :: ((c.turn bound t).trace bound turns).map f) = _
  rw [same]
  rfl

theorem changes_trace_of_same (same : f c = f (c.turn bound t)) :
    changes ((c.trace bound (t :: turns)).map f) =
      changes (((c.turn bound t).trace bound turns).map f) := by
  rw [changes_trace_cons, if_pos same, Nat.zero_add]

theorem changes_trace_of_ne (ne : f c ≠ f (c.turn bound t)) :
    changes ((c.trace bound (t :: turns)).map f) =
      1 + changes (((c.turn bound t).trace bound turns).map f) := by
  rw [changes_trace_cons, if_neg ne]

theorem changes_trace_cons_le : changes ((c.trace bound (t :: turns)).map f) ≤
    1 + changes (((c.turn bound t).trace bound turns).map f) := by
  rw [changes_trace_cons]
  split <;> omega

theorem le_changes_trace_cons : changes (((c.turn bound t).trace bound turns).map f) ≤
    changes ((c.trace bound (t :: turns)).map f) := by
  rw [changes_trace_cons]
  omega

end Steps

/-- The copies agree, as far as the bounds let them differ. -/
def Agree (c : Copies) : Prop := bound c.wanted = bound c.seen ∧ bound c.seen = bound c.mirrored

instance (c : Copies) : Decidable (c.Agree bound) := by
  unfold Agree
  infer_instance

/-- Within the bounds all copies are `v`. -/
structure Within (v : Nat) (c : Copies) : Prop where
  wanted : bound c.wanted = v
  seen : bound c.seen = v
  mirrored : bound c.mirrored = v

variable {bound} {c : Copies} {v : Nat} {turns : List Turn}

theorem Agree.within (agree : c.Agree bound) : c.Within bound (bound c.wanted) :=
  ⟨rfl, agree.1.symm, (agree.1.trans agree.2).symm⟩

theorem Within.turn (idem : ∀ n, bound (bound n) = bound n) (within_ : c.Within bound v)
    (t : Turn) : (c.turn bound t).Within bound v := by
  obtain ⟨wanted, seen, mirrored⟩ := within_
  cases t with
  | deployment now => exact ⟨(idem _).trans mirrored, seen, seen⟩
  | release now => exact ⟨wanted, wanted, mirrored⟩

/-! ## Copies that agree -/

section Agree

variable (idem : ∀ n, bound (bound n) = bound n)

include idem

/-- Once what is wanted is within the bounds, it stays. -/
theorem changes_wanted_of_bounded (within_ : c.Within bound v) (bounded : c.wanted = v) :
    changes ((c.trace bound turns).map wanted) = 0 := by
  induction turns generalizing c with
  | nil => rfl
  | cons t turns ih =>
      have next : (c.turn bound t).wanted = v := by
        cases t with
        | deployment now => exact within_.mirrored
        | release now => exact bounded
      rw [changes_trace_of_same _ _ _ _ _ (bounded.trans next.symm), ih (within_.turn idem t) next]

theorem changes_wanted_le (within_ : c.Within bound v) :
    changes ((c.trace bound turns).map wanted) ≤ 1 := by
  induction turns generalizing c with
  | nil => exact Nat.zero_le 1
  | cons t turns ih =>
      cases t with
      | deployment now =>
          have rest : changes
              (((c.turn bound (.deployment now)).trace bound turns).map wanted) = 0 :=
            changes_wanted_of_bounded idem (within_.turn idem _) within_.mirrored
          have := changes_trace_cons_le bound wanted c (.deployment now) turns
          omega
      | release now =>
          rw [changes_trace_of_same _ _ _ _ _ rfl]
          exact ih (within_.turn idem (.release now))

/-- A group that has the size within the bounds keeps it. -/
theorem changes_group_of_bounded (within_ : c.Within bound v) (bounded : c.wanted = v)
    (sized : c.group = v) : changes ((c.trace bound turns).map group) = 0 := by
  induction turns generalizing c with
  | nil => rfl
  | cons t turns ih =>
      cases t with
      | deployment now =>
          rw [changes_trace_of_same _ _ _ _ _ rfl]
          exact ih (within_.turn idem (.deployment now)) within_.mirrored sized
      | release now =>
          have same : c.group = (c.turn bound (.release now)).group := sized.trans bounded.symm
          rw [changes_trace_of_same _ _ _ _ _ same]
          exact ih (within_.turn idem (.release now)) bounded bounded

theorem changes_group_of_wanted (within_ : c.Within bound v) (bounded : c.wanted = v) :
    changes ((c.trace bound turns).map group) ≤ 1 := by
  induction turns generalizing c with
  | nil => exact Nat.zero_le 1
  | cons t turns ih =>
      cases t with
      | deployment now =>
          rw [changes_trace_of_same _ _ _ _ _ rfl]
          exact ih (within_.turn idem (.deployment now)) within_.mirrored
      | release now =>
          have rest : changes (((c.turn bound (.release now)).trace bound turns).map group) = 0 :=
            changes_group_of_bounded idem (within_.turn idem _) bounded bounded
          have := changes_trace_cons_le bound group c (.release now) turns
          omega

/-- A group that has the size that is wanted changes at most with it. -/
theorem changes_group_of_sized (within_ : c.Within bound v) (sized : c.group = c.wanted) :
    changes ((c.trace bound turns).map group) ≤ 1 := by
  induction turns generalizing c with
  | nil => exact Nat.zero_le 1
  | cons t turns ih =>
      cases t with
      | deployment now =>
          rw [changes_trace_of_same _ _ _ _ _ rfl]
          exact changes_group_of_wanted idem (within_.turn idem (.deployment now)) within_.mirrored
      | release now =>
          rw [changes_trace_of_same _ _ _ _ _ sized]
          exact ih (within_.turn idem (.release now)) rfl

theorem changes_group_le (within_ : c.Within bound v) :
    changes ((c.trace bound turns).map group) ≤ 2 := by
  cases turns with
  | nil => exact Nat.zero_le 2
  | cons t turns =>
      cases t with
      | deployment now =>
          rw [changes_trace_of_same _ _ _ _ _ rfl]
          exact Nat.le_succ_of_le (changes_group_of_wanted idem
            (within_.turn idem (.deployment now)) within_.mirrored)
      | release now =>
          have rest : changes (((c.turn bound (.release now)).trace bound turns).map group) ≤ 1 :=
            changes_group_of_sized idem (within_.turn idem _) rfl
          have := changes_trace_cons_le bound group c (.release now) turns
          omega

end Agree

/-! ## Copies that do not agree -/

/-- A pass over the descriptor and then one over the release, so many times. -/
def beats (now : Nat) : Nat → List Turn
  | 0 => []
  | n + 1 => .deployment now :: .release now :: beats now n

section Apart

variable (idem : ∀ n, bound (bound n) = bound n)

include idem

/-- One count stands in three places and another is mirrored: they change places at
every beat. -/
theorem le_changes_beats (now n : Nat) (seen : c.seen = c.wanted) (sized : c.group = c.wanted)
    (bounded : bound c.wanted = c.wanted) (apart : c.wanted ≠ bound c.mirrored) :
    n ≤ changes ((c.trace bound (beats now n)).map wanted) ∧
      n ≤ changes ((c.trace bound (beats now n)).map group) := by
  induction n generalizing c with
  | zero => exact ⟨Nat.zero_le _, Nat.zero_le _⟩
  | succ n ih =>
      obtain ⟨wants, sizes⟩ := @ih ((c.turn bound (.deployment now)).turn bound (.release now)) rfl
        rfl (idem _) (by
          show bound c.mirrored ≠ bound c.seen
          rw [seen, bounded]
          exact apart.symm)
      have resized : c.group ≠ bound c.mirrored := sized ▸ apart
      constructor
      · rw [beats, changes_trace_of_ne _ _ _ _ _ apart]
        have := le_changes_trace_cons bound wanted (c.turn bound (.deployment now))
          (.release now) (beats now n)
        omega
      · rw [beats, changes_trace_of_same _ _ _ _ _ rfl, changes_trace_of_ne _ _ _ _ _ resized]
        omega

theorem exists_changes_of_apart (now n : Nat) (apart : bound c.seen ≠ bound c.mirrored) :
    ∃ turns, n ≤ changes ((c.trace bound turns).map wanted) ∧
      n ≤ changes ((c.trace bound turns).map group) := by
  obtain ⟨wants, sizes⟩ := @le_changes_beats bound
    ((c.turn bound (.deployment now)).turn bound (.release now)) idem now n rfl rfl (idem _)
    apart.symm
  refine ⟨.deployment now :: .release now :: beats now n, ?_, ?_⟩
  · exact Nat.le_trans wants (Nat.le_trans (le_changes_trace_cons ..) (le_changes_trace_cons ..))
  · exact Nat.le_trans sizes (Nat.le_trans (le_changes_trace_cons ..) (le_changes_trace_cons ..))

/-- **Copies that do not agree never settle.** -/
theorem exists_changes (now n : Nat) (apart : ¬ c.Agree bound) :
    ∃ turns, n ≤ changes ((c.trace bound turns).map wanted) ∧
      n ≤ changes ((c.trace bound turns).map group) := by
  by_cases same : bound c.seen = bound c.mirrored
  · -- What was seen is what was mirrored: seeing what is wanted sets them apart.
    have apart' : bound (c.turn bound (.release now)).seen ≠
        bound (c.turn bound (.release now)).mirrored := fun same' =>
      apart ⟨same'.trans same.symm, same⟩
    obtain ⟨turns, wants, sizes⟩ := exists_changes_of_apart idem now n apart'
    exact ⟨.release now :: turns, Nat.le_trans wants (le_changes_trace_cons ..),
      Nat.le_trans sizes (le_changes_trace_cons ..)⟩
  · exact exists_changes_of_apart idem now n same

end Apart

end Copies
end Cutover.Feedback
