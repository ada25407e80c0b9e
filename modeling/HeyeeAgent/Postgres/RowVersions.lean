import Mathlib.Data.List.Basic
import Mathlib.Data.List.Count

/-! # Row versions under read committed

A table keeps each row with the transaction that inserted it and the one that deleted it. A
statement sees what was committed when it started and what its own transaction wrote. A `DELETE`
waits for a row that a running transaction has deleted and passes over it once that transaction has
committed. Of transactions that delete once and then insert, the history of a table says which rows
are left when all have ended.
-/

namespace Postgres

/-- The transactions that have ended, those that committed in their order. -/
structure Log (T : Type*) where
  committed : List T := []
  aborted : List T := []

/-- A row with the transactions that inserted and deleted it; a row without the first is old. -/
structure Version (T R : Type*) where
  row : R
  xmin : Option T := none
  xmax : Option T := none

abbrev Table (T R : Type*) := List (Version T R)

variable {T R : Type*} [DecidableEq T]

namespace Version

/-- A statement of the transaction `own` sees the row, with what was committed when it started. -/
def visible (seen : List T) (own : Option T) (v : Version T R) : Bool :=
  v.xmin.all (fun t => t ∈ seen || own = some t) && !v.xmax.any fun t => t ∈ seen || own = some t

/-- Another transaction has deleted the row and is still running. -/
def locked (log : Log T) (own : T) (v : Version T R) : Bool :=
  v.xmax.any fun t => t ≠ own && t ∉ log.committed && t ∉ log.aborted

/-- The row was deleted for good. -/
def dead (log : Log T) (v : Version T R) : Bool := v.xmax.any fun t => t ∈ log.committed

/-- A `DELETE` of the rows with the property takes the row, once it is not locked. -/
def taken (log : Log T) (seen : List T) (own : T) (property : R → Bool) (v : Version T R) : Bool :=
  v.visible seen (some own) && property v.row && !v.dead log

def take (log : Log T) (seen : List T) (own : T) (property : R → Bool) (v : Version T R) :
    Version T R :=
  if v.taken log seen own property then { v with xmax := some own } else v

variable {log : Log T} {seen : List T} {own : T} {property : R → Bool} {v : Version T R}

@[simp] theorem take_row : (v.take log seen own property).row = v.row := by
  unfold take
  split <;> rfl

@[simp] theorem take_xmin : (v.take log seen own property).xmin = v.xmin := by
  unfold take
  split <;> rfl

theorem take_xmax : (v.take log seen own property).xmax =
    if v.taken log seen own property then some own else v.xmax := by
  unfold take
  split <;> rfl

/-- What a statement sees was committed before, or is its own. -/
theorem xmin_of_visible {i : T} (visible : v.visible seen (some own) = true)
    (xmin : v.xmin = some i) : i ∈ seen ∨ i = own := by
  simp only [Version.visible, xmin, Option.all_some, Bool.and_eq_true, Bool.or_eq_true,
    decide_eq_true_eq, Option.some.injEq] at visible
  exact visible.1.imp_right Eq.symm

/-- A row whose insertion a statement sees is visible unless its deletion is seen as well. -/
theorem xmax_of_not_visible (sees : ∀ i, v.xmin = some i → i ∈ seen)
    (hidden : ¬ v.visible seen (some own) = true) :
    ∃ k, v.xmax = some k ∧ (k ∈ seen ∨ k = own) := by
  have inserted : v.xmin.all (fun t => decide (t ∈ seen) || decide (some own = some t)) = true := by
    cases xmin : v.xmin with
    | none => rfl
    | some i => simp [sees i xmin]
  rw [visible, inserted, Bool.true_and, Bool.not_eq_true', Bool.not_eq_false] at hidden
  obtain ⟨k, xmax, seen⟩ := (Option.any_eq_true _ _).mp hidden
  refine ⟨k, xmax, ?_⟩
  rcases Bool.or_eq_true_iff.mp seen with known | same
  · exact .inl (of_decide_eq_true known)
  · exact .inr (Option.some.inj (of_decide_eq_true same)).symm

end Version

namespace Table

/-- A `DELETE` of the rows with the property at the time it gets them; `none` while it waits. -/
def delete (table : Table T R) (log : Log T) (seen : List T) (own : T) (property : R → Bool) :
    Option (Table T R) :=
  if table.any fun v => v.visible seen (some own) && property v.row && v.locked log own then none
  else some (table.map (Version.take log seen own property))

def insert (table : Table T R) (own : T) (rows : List R) : Table T R :=
  table ++ rows.map fun row => { row, xmin := some own }

/-- What a new transaction sees. -/
def contents (table : Table T R) (log : Log T) : List R :=
  (table.filter (Version.visible log.committed none)).map Version.row

/-- The versions that a transaction inserted. -/
def insertedBy (table : Table T R) (t : T) : List R :=
  (table.filter fun v => v.xmin = some t).map Version.row

end Table

/-- What transactions that delete the rows with a property once and then insert have made of a table:
the snapshots of their deletes, the transactions whose delete is done, and their rows. -/
structure History (log : Log T) (property : R → Bool) (snapshot : T → List T) (deleted : T → Prop)
    (rows : T → List R) (table : Table T R) : Prop where
  inserted : ∀ t, t ∉ log.aborted → table.insertedBy t = rows t
  removed : ∀ v ∈ table, ∀ k, v.xmax = some k →
    deleted k ∧ property v.row = true ∧ ∀ i, v.xmin = some i → i ∈ snapshot k
  covered : ∀ j, deleted j → j ∉ log.aborted → ∀ v ∈ table, property v.row = true →
    (∀ i, v.xmin = some i → i ∈ snapshot j) → ∃ k, v.xmax = some k ∧ (k = j ∨ k ∈ log.committed)

namespace History

variable {log : Log T} {property : R → Bool} {snapshot : T → List T} {deleted : T → Prop}
  {rows : T → List R} {table table' : Table T R}

/-- A table of old rows. -/
theorem old (initial : List R) (never : ∀ t, ¬ deleted t) (none : ∀ t, rows t = []) :
    History log property snapshot deleted rows
      (initial.map fun row => ({ row } : Version T R)) where
  inserted t _ := by
    rw [none, Table.insertedBy, List.map_eq_nil_iff, List.filter_eq_nil_iff]
    intro v member
    obtain ⟨row, -, rfl⟩ := List.mem_map.mp member
    simp
  removed v member k xmax := by
    obtain ⟨row, -, rfl⟩ := List.mem_map.mp member
    cases xmax
  covered j done := absurd done (never j)

/-- A statement starts: its snapshot is not used by any delete that is done. -/
theorem snap (history : History log property snapshot deleted rows table)
    {snapshot' : T → List T} (same : ∀ t, deleted t → snapshot' t = snapshot t) :
    History log property snapshot' deleted rows table where
  inserted := history.inserted
  removed v member k xmax := by
    obtain ⟨done, has, sees⟩ := history.removed v member k xmax
    rw [same k done]
    exact ⟨done, has, sees⟩
  covered j done running v member has sees := by
    rw [same j done] at sees
    exact history.covered j done running v member has sees

/-- A commit adds to what is deleted for good. -/
theorem commit (history : History log property snapshot deleted rows table) (t : T) :
    History { log with committed := log.committed ++ [t] } property snapshot deleted rows table where
  inserted := history.inserted
  removed := history.removed
  covered j done running v member has sees := by
    obtain ⟨k, xmax, ended⟩ := history.covered j done running v member has sees
    exact ⟨k, xmax, ended.imp_right fun ended => List.mem_append_left _ ended⟩

/-- A rollback gives up what the transaction has done. -/
theorem rollback (history : History log property snapshot deleted rows table) {t : T}
    {rows' : T → List R} {deleted' : T → Prop} (others : ∀ other, other ≠ t → rows' other = rows other)
    (keeps : ∀ other, deleted other → deleted' other)
    (same : ∀ other, other ≠ t → deleted' other → deleted other) :
    History { log with aborted := t :: log.aborted } property snapshot deleted' rows' table where
  inserted other running := by
    obtain ⟨differ, running⟩ := not_or.mp (List.mem_cons.not.mp running)
    rw [others other differ]
    exact history.inserted other running
  removed v member k xmax := by
    obtain ⟨done, rest⟩ := history.removed v member k xmax
    exact ⟨keeps k done, rest⟩
  covered j done running v member has sees := by
    obtain ⟨differ, running⟩ := not_or.mp (List.mem_cons.not.mp running)
    exact history.covered j (same j differ done) running v member has sees

/-- The rows that a running transaction inserts are in no snapshot. -/
theorem insert (history : History log property snapshot deleted rows table) {t : T} {new : List R}
    {rows' : T → List R} (running : ∀ j, deleted j → t ∉ snapshot j)
    (fresh : rows t = []) (own : rows' t = new)
    (others : ∀ other, other ≠ t → rows' other = rows other) :
    History log property snapshot deleted rows' (table.insert t new) where
  inserted other alive := by
    simp only [Table.insertedBy, Table.insert, List.filter_append, List.map_append]
    have before := history.inserted other alive
    rw [Table.insertedBy] at before
    rw [before, List.filter_map]
    by_cases same : other = t
    · subst same
      simp [fresh, own, Function.comp_def]
    · simp [others other same, Function.comp_def, Ne.symm same]
  removed v member k xmax := by
    rcases List.mem_append.mp member with older | newer
    · exact history.removed v older k xmax
    · obtain ⟨row, -, rfl⟩ := List.mem_map.mp newer
      cases xmax
  covered j done alive v member has sees := by
    rcases List.mem_append.mp member with older | newer
    · exact history.covered j done alive v older has sees
    · obtain ⟨row, -, rfl⟩ := List.mem_map.mp newer
      exact absurd (sees t rfl) (running j done)

/-- A delete that gets all its rows. -/
theorem delete (history : History log property snapshot deleted rows table) {t : T}
    {deleted' : T → Prop} (took : table.delete log (snapshot t) t property = some table')
    (first : ¬ deleted t) (alive : t ∉ log.aborted) (before : rows t = [])
    (past : ∀ i ∈ snapshot t, i ∈ log.committed) (now : ∀ j, deleted' j ↔ deleted j ∨ j = t) :
    History log property snapshot deleted' rows table' := by
  unfold Table.delete at took
  split at took
  case isTrue => cases took
  case isFalse free =>
    rw [Option.some.injEq] at took
    subst took
    have unlocked : ∀ v ∈ table, v.visible (snapshot t) (some t) = true → property v.row = true →
        ¬ v.locked log t = true := by
      intro v member visible has locked
      exact free (List.any_eq_true.mpr ⟨v, member, by simp [visible, has, locked]⟩)
    have foreign : ∀ v ∈ table, v.xmin ≠ some t := by
      intro v member xmin
      have none := (history.inserted t alive).trans before
      rw [Table.insertedBy, List.map_eq_nil_iff, List.filter_eq_nil_iff] at none
      exact none v member (by simp [xmin])
    constructor
    · intro i running
      rw [← history.inserted i running]
      simp only [Table.insertedBy, List.filter_map, List.map_map, Function.comp_def,
        Version.take_xmin, Version.take_row]
    · intro v' member k xmax
      obtain ⟨v, old, rfl⟩ := List.mem_map.mp member
      simp only [Version.take_row, Version.take_xmin]
      rw [Version.take_xmax] at xmax
      split at xmax
      case isTrue took =>
        obtain rfl := Option.some.inj xmax
        simp only [Version.taken, Bool.and_eq_true] at took
        refine ⟨(now t).mpr (.inr rfl), took.1.2, fun i xmin => ?_⟩
        rcases Version.xmin_of_visible took.1.1 xmin with seen | rfl
        · exact seen
        · exact absurd xmin (foreign v old)
      case isFalse =>
        obtain ⟨done, rest⟩ := history.removed v old k xmax
        exact ⟨(now k).mpr (.inl done), rest⟩
    · intro j done running v' member has sees
      obtain ⟨v, old, rfl⟩ := List.mem_map.mp member
      simp only [Version.take_row, Version.take_xmin] at has sees
      rw [Version.take_xmax]
      by_cases same : j = t
      · subst same
        split
        case isTrue => exact ⟨j, rfl, .inl rfl⟩
        case isFalse spared =>
          simp only [Version.taken, has, Bool.and_true, Bool.and_eq_true, Bool.not_eq_true',
            not_and, Bool.not_eq_false] at spared
          by_cases visible : v.visible (snapshot j) (some j) = true
          · obtain ⟨k, xmax, ended⟩ := (Option.any_eq_true _ _).mp (spared visible)
            exact ⟨k, xmax, .inr (of_decide_eq_true ended)⟩
          · obtain ⟨k, xmax, seen | rfl⟩ := Version.xmax_of_not_visible sees visible
            · exact ⟨k, xmax, .inr (past k seen)⟩
            · exact absurd (history.removed v old k xmax).1 first
      · obtain ⟨k, xmax, ended⟩ :=
          history.covered j (((now j).mp done).resolve_right same) running v old has sees
        rw [if_neg]
        · exact ⟨k, xmax, ended⟩
        · intro took
          simp only [Version.taken, Bool.and_eq_true, Bool.not_eq_true', Version.dead, xmax,
            Option.any_some, decide_eq_false_iff_not] at took
          obtain rfl := ended.resolve_right took.2
          apply unlocked v old took.1.1 has
          simp [Version.locked, xmax, same, took.2, running]

section Ended

/-- A version of a committed transaction stays if no committed delete has seen it. -/
theorem visible_of_unseen (history : History log property snapshot deleted rows table) {i : T}
    (committed : i ∈ log.committed)
    (unseen : ∀ k ∈ log.committed, deleted k → i ∉ snapshot k) {v : Version T R}
    (member : v ∈ table) (xmin : v.xmin = some i) :
    v.visible log.committed none = true := by
  cases xmax : v.xmax with
  | none => simp [Version.visible, xmin, xmax, committed]
  | some k =>
    obtain ⟨done, -, sees⟩ := history.removed v member k xmax
    have running : k ∉ log.committed := fun ended => unseen k ended done (sees i xmin)
    simp [Version.visible, xmin, xmax, committed, running]

/-- A version that a committed delete has seen is gone. -/
theorem not_visible_of_seen (history : History log property snapshot deleted rows table) {j : T}
    (committed : j ∈ log.committed) (alive : j ∉ log.aborted) (done : deleted j)
    {v : Version T R} (member : v ∈ table) (has : property v.row = true)
    (sees : ∀ i, v.xmin = some i → i ∈ snapshot j) :
    ¬ v.visible log.committed none = true := by
  obtain ⟨k, xmax, ended⟩ := history.covered j done alive v member has sees
  have gone : k ∈ log.committed := by
    rcases ended with rfl | ended
    · exact committed
    · exact ended
  simp [Version.visible, xmax, gone]

/-- The rows with the property are those of one transaction, if all that committed before it and
left rows were seen by some committed delete. -/
theorem contents_of_last (history : History log property snapshot deleted rows table) {last : T}
    (committed : last ∈ log.committed) (apart : ∀ i ∈ log.committed, i ∉ log.aborted)
    (done : ∀ i ∈ log.committed, deleted i)
    (unseen : ∀ k ∈ log.committed, last ∉ snapshot k)
    (seen : ∀ i ∈ log.committed, i ≠ last → rows i ≠ [] → ∃ j ∈ log.committed, i ∈ snapshot j)
    (own : ∀ row ∈ rows last, property row = true) :
    (table.contents log).filter property = rows last := by
  rw [← history.inserted last (apart last committed), Table.contents, Table.insertedBy,
    List.filter_map, List.filter_filter]
  congr 1
  apply List.filter_congr
  intro v member
  rw [Bool.eq_iff_iff, Bool.and_eq_true, decide_eq_true_eq]
  constructor
  · rintro ⟨has, visible⟩
    cases xmin : v.xmin with
    | none =>
      exact absurd visible (history.not_visible_of_seen committed (apart last committed)
        (done last committed) member has (by simp [xmin]))
    | some i =>
      have ended : i ∈ log.committed := by
        simp only [Version.visible, xmin, Option.all_some, Bool.and_eq_true, Bool.or_eq_true,
          decide_eq_true_eq, reduceCtorEq, or_false] at visible
        exact visible.1
      by_contra differ
      have differ : i ≠ last := fun same => differ (congrArg some same)
      have left : rows i ≠ [] := by
        intro none
        have inserted := (history.inserted i (apart i ended)).trans none
        rw [Table.insertedBy, List.map_eq_nil_iff, List.filter_eq_nil_iff] at inserted
        exact inserted v member (by simp [xmin])
      obtain ⟨j, later, sees⟩ := seen i ended differ left
      refine history.not_visible_of_seen later (apart j later) (done j later) member has ?_ visible
      intro i' xmin'
      rw [xmin, Option.some.injEq] at xmin'
      exact xmin' ▸ sees
  · intro xmin
    refine ⟨?_, history.visible_of_unseen committed (fun k ended _ => unseen k ended) member xmin⟩
    apply own
    rw [← history.inserted last (apart last committed)]
    exact List.mem_map_of_mem (List.mem_filter.mpr ⟨member, by simp [xmin]⟩)

omit [DecidableEq T] in
private theorem countP_add_le {α : Type*} {p q r : α → Bool} {l : List α}
    (apart : ∀ v ∈ l, ¬ (p v = true ∧ q v = true))
    (implies : ∀ v ∈ l, p v = true ∨ q v = true → r v = true) :
    l.countP p + l.countP q ≤ l.countP r := by
  induction l with
  | nil => simp
  | cons v l ih =>
    have rest := ih (fun w member => apart w (List.mem_cons_of_mem v member))
      fun w member => implies w (List.mem_cons_of_mem v member)
    have both := apart v List.mem_cons_self
    have covers := implies v List.mem_cons_self
    simp only [List.countP_cons]
    cases first : p v <;> cases second : q v <;> cases third : r v <;> simp_all <;> omega

/-- Two transactions that no committed delete has seen leave all their rows. -/
theorem length_of_unseen (history : History log property snapshot deleted rows table) {i k : T}
    (differ : i ≠ k) (alive : i ∉ log.aborted ∧ k ∉ log.aborted)
    (committed : i ∈ log.committed ∧ k ∈ log.committed)
    (unseen : ∀ j ∈ log.committed, i ∉ snapshot j ∧ k ∉ snapshot j)
    (own : ∀ row, row ∈ rows i ∨ row ∈ rows k → property row = true) :
    (rows i).length + (rows k).length ≤ ((table.contents log).filter property).length := by
  rw [← history.inserted i alive.1, ← history.inserted k alive.2, Table.contents, Table.insertedBy,
    Table.insertedBy, List.filter_map, List.filter_filter, List.length_map, List.length_map,
    List.length_map, ← List.countP_eq_length_filter, ← List.countP_eq_length_filter,
    ← List.countP_eq_length_filter]
  apply countP_add_le
  · intro v _ both
    simp only [decide_eq_true_eq] at both
    exact differ (Option.some.inj (both.1.symm.trans both.2))
  · intro v member one
    simp only [decide_eq_true_eq] at one
    rw [Bool.and_eq_true]
    constructor
    · apply own v.row
      refine one.imp ?_ ?_
      · intro xmin
        rw [← history.inserted i alive.1]
        exact List.mem_map_of_mem (List.mem_filter.mpr ⟨member, by simp [xmin]⟩)
      · intro xmin
        rw [← history.inserted k alive.2]
        exact List.mem_map_of_mem (List.mem_filter.mpr ⟨member, by simp [xmin]⟩)
    · rcases one with xmin | xmin
      · exact history.visible_of_unseen committed.1 (fun j ended _ => (unseen j ended).1) member xmin
      · exact history.visible_of_unseen committed.2 (fun j ended _ => (unseen j ended).2) member xmin

end Ended

end History

end Postgres
