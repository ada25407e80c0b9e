import Mathlib.Logic.Function.Basic
import Mathlib.Data.List.Basic

/-! # Messages sent in a transaction

A broker keeps the half message of a send from its consumers until a verdict about it arrives. A
verdict travels on its own and can be lost; of several the first to arrive decides. The verdicts are
truthful when each says whether the transaction of its message was done, and then so does every
decision.
-/

namespace Messaging

inductive Verdict where
  | commit
  | rollback
deriving DecidableEq

inductive Half where
  | undecided
  | visible
  | discarded
deriving DecidableEq

namespace Verdict

def outcome : Verdict → Half
  | commit => .visible
  | rollback => .discarded

/-- What the verdict says about the transaction. -/
def Agrees (done : Prop) : Verdict → Prop
  | commit => done
  | rollback => ¬ done

@[simp] theorem agrees_commit (done : Prop) : commit.Agrees done = done := rfl

@[simp] theorem agrees_rollback (done : Prop) : rollback.Agrees done = ¬ done := rfl

@[simp] theorem outcome_ne_undecided (verdict : Verdict) : verdict.outcome ≠ .undecided := by
  cases verdict <;> decide

theorem outcome_injective : Function.Injective outcome := by
  intro first second same
  cases first <;> cases second <;> first | rfl | exact absurd same (by decide)

end Verdict

/-- The half messages by their senders, and the verdicts on their way. -/
structure Broker (M : Type*) where
  halves : M → Option Half := fun _ => none
  verdicts : List (M × Verdict) := []

namespace Broker

variable {M : Type*} [DecidableEq M]

def store (b : Broker M) (m : M) : Broker M :=
  { b with halves := Function.update b.halves m (some .undecided) }

def send (b : Broker M) (m : M) (verdict : Verdict) : Broker M :=
  { b with verdicts := (m, verdict) :: b.verdicts }

def lose (b : Broker M) (m : M) (verdict : Verdict) : Broker M :=
  { b with verdicts := b.verdicts.erase (m, verdict) }

/-- A verdict arrives; it decides only what is still undecided. -/
def arrive (b : Broker M) (m : M) (verdict : Verdict) : Broker M :=
  if b.halves m = some .undecided then
    { b.lose m verdict with halves := Function.update b.halves m (some verdict.outcome) }
  else
    b.lose m verdict

@[simp] theorem store_self (b : Broker M) (m : M) : (b.store m).halves m = some .undecided := by
  simp [store]

theorem store_of_ne (b : Broker M) {m other : M} (differ : other ≠ m) :
    (b.store m).halves other = b.halves other :=
  Function.update_of_ne differ _ _

theorem halves_arrive (b : Broker M) (m : M) (verdict : Verdict) :
    (b.arrive m verdict).halves =
      if b.halves m = some .undecided then Function.update b.halves m (some verdict.outcome)
      else b.halves := by
  unfold arrive
  split <;> rfl

theorem verdicts_arrive (b : Broker M) (m : M) (verdict : Verdict) :
    (b.arrive m verdict).verdicts = (b.lose m verdict).verdicts := by
  unfold arrive
  split <;> rfl

/-- A message that the broker holds is never dropped again. -/
theorem stored_store {b : Broker M} {m : M} (stored : b.halves m ≠ none) (other : M) :
    (b.store other).halves m ≠ none := by
  by_cases same : m = other
  · subst same
    rw [store_self]
    exact Option.some_ne_none _
  · rwa [store_of_ne b same]

theorem stored_arrive {b : Broker M} {m : M} (stored : b.halves m ≠ none) (other : M)
    (verdict : Verdict) : (b.arrive other verdict).halves m ≠ none := by
  rw [halves_arrive]
  split
  · by_cases same : m = other
    · subst same
      rw [Function.update_self]
      exact Option.some_ne_none _
    · rwa [Function.update_of_ne same]
  · exact stored

/-- No rollback of the message was given so far. -/
def Open (b : Broker M) (m : M) : Prop :=
  b.halves m ≠ some .discarded ∧ (m, Verdict.rollback) ∉ b.verdicts

instance (b : Broker M) (m : M) : Decidable (b.Open m) := inferInstanceAs (Decidable (_ ∧ _))

/-- Every decision and every verdict on its way says what became of the transaction. -/
structure Truthful (done : M → Prop) (b : Broker M) : Prop where
  decided : ∀ m (verdict : Verdict), b.halves m = some verdict.outcome → verdict.Agrees (done m)
  given : ∀ m (verdict : Verdict), (m, verdict) ∈ b.verdicts → verdict.Agrees (done m)

namespace Truthful

variable {done : M → Prop} {b : Broker M}

omit [DecidableEq M] in
theorem empty : Truthful done ({} : Broker M) where
  decided m verdict found := by cases found
  given m verdict member := by cases member

theorem store (truthful : Truthful done b) (m : M) : Truthful done (b.store m) where
  decided other verdict found := by
    by_cases same : other = m
    · subst same
      rw [store_self, Option.some.injEq] at found
      exact absurd found.symm verdict.outcome_ne_undecided
    · rw [store_of_ne b same] at found
      exact truthful.decided other verdict found
  given := truthful.given

omit [DecidableEq M] in
theorem send (truthful : Truthful done b) {m : M} {verdict : Verdict}
    (agrees : verdict.Agrees (done m)) : Truthful done (b.send m verdict) where
  decided := truthful.decided
  given other given member := by
    rcases List.mem_cons.mp member with same | older
    · cases same
      exact agrees
    · exact truthful.given other given older

theorem lose (truthful : Truthful done b) (m : M) (verdict : Verdict) :
    Truthful done (b.lose m verdict) where
  decided := truthful.decided
  given other given member := truthful.given other given (List.mem_of_mem_erase member)

theorem arrive (truthful : Truthful done b) {m : M} {verdict : Verdict}
    (given : (m, verdict) ∈ b.verdicts) : Truthful done (b.arrive m verdict) where
  decided other decided found := by
    rw [halves_arrive] at found
    split at found
    · by_cases same : other = m
      · subst same
        rw [Function.update_self, Option.some.injEq] at found
        rw [← Verdict.outcome_injective found]
        exact truthful.given other verdict given
      · rw [Function.update_of_ne same] at found
        exact truthful.decided other decided found
    · exact truthful.decided other decided found
  given other given member := by
    rw [verdicts_arrive] at member
    exact (truthful.lose m verdict).given other given member

/-- A transaction that is done late contradicts no verdict if none was a rollback. -/
theorem finish (truthful : Truthful done b) {m : M} {done' : M → Prop} (opened : b.Open m)
    (finished : done' m) (others : ∀ other, other ≠ m → (done' other ↔ done other)) :
    Truthful done' b where
  decided other verdict found := by
    by_cases same : other = m
    · subst same
      cases verdict with
      | commit => exact finished
      | rollback => exact absurd found opened.1
    · have agrees := truthful.decided other verdict found
      cases verdict with
      | commit => exact (others other same).mpr agrees
      | rollback => exact fun now => agrees ((others other same).mp now)
  given other verdict member := by
    by_cases same : other = m
    · subst same
      cases verdict with
      | commit => exact finished
      | rollback => exact absurd member opened.2
    · have agrees := truthful.given other verdict member
      cases verdict with
      | commit => exact (others other same).mpr agrees
      | rollback => exact fun now => agrees ((others other same).mp now)

end Truthful

end Broker

end Messaging
