import HeyeeAgent.Knowledge.ReplaceStatements
import Mathlib.Data.List.Nodup

/-! # The rows that replacements leave

The history of the two tables is kept by every statement, whatever the interleaving. When all
transactions have ended, the rows are those of the last commit exactly if every earlier one that left
rows was seen by a later delete of each table; otherwise the rows of two calls stand side by side and
the count of the document is too small.
-/

namespace HeyeeAgent.Knowledge.ReplaceStatements

open Python Machine Postgres

variable {T : Type} [DecidableEq T] {docId : Str} {runs : T → Replacement docId}

namespace Phase

/-- The `DELETE` of the chunks is done, or will not be. -/
def pastChunks : Phase → Bool
  | idle | deletingChunks => false
  | _ => true

def pastVectors : Phase → Bool
  | idle | deletingChunks | chunksDeleted | deletingVectors => false
  | _ => true

/-- The `INSERT` of the chunks is done, or there is none. -/
def holdsChunks : Phase → Bool
  | chunksInserted | vectorsInserted | documentUpdated | committed => true
  | _ => false

def holdsVectors : Phase → Bool
  | vectorsInserted | documentUpdated | committed => true
  | _ => false

end Phase

section Tables

variable {R : Type}

/-- The rows that a transaction holds in a table, by the phases that have inserted them. -/
def rowsIn (holds : Phase → Bool) (rows : T → List R) (phases : T → Phase) (t : T) : List R :=
  if holds (phases t) then rows t else []

/-- What every interleaving keeps of a table, by the phases that are past the `DELETE` and those that
hold their rows. -/
abbrev TableHistory (past holds : Phase → Bool) (rows : T → List R) (property : R → Bool)
    (log : Log T) (snapshot : T → List T) (phases : T → Phase) (table : Table T R) : Prop :=
  History log property snapshot (fun t => past (phases t) = true) (rowsIn holds rows phases) table

variable {past holds : Phase → Bool} {rows : T → List R} {property : R → Bool} {log : Log T}
  {snapshot : T → List T} {phases : T → Phase} {table table' : Table T R} {t : T} {phase : Phase}

theorem flag_update {flag : Phase → Bool} (same : flag phase = flag (phases t)) (u : T) :
    flag (Function.update phases t phase u) = flag (phases u) := by
  by_cases equal : u = t
  · subst equal
    rw [Function.update_self, same]
  · rw [Function.update_of_ne equal]

theorem rowsIn_self : rowsIn holds rows (Function.update phases t phase) t =
    if holds phase then rows t else [] := by
  simp only [rowsIn, Function.update_self]

theorem rowsIn_of_ne {u : T} (differ : u ≠ t) :
    rowsIn holds rows (Function.update phases t phase) u = rowsIn holds rows phases u := by
  simp only [rowsIn, Function.update_of_ne differ]

theorem rowsIn_update (same : (if holds phase then rows t else []) = rowsIn holds rows phases t) :
    rowsIn holds rows (Function.update phases t phase) = rowsIn holds rows phases := by
  funext u
  by_cases equal : u = t
  · subst equal
    rw [rowsIn_self, same]
  · exact rowsIn_of_ne equal

namespace TableHistory

/-- A transaction goes on without a write to the table. -/
theorem enter (history : TableHistory past holds rows property log snapshot phases table)
    (samePast : past phase = past (phases t))
    (same : (if holds phase then rows t else []) = rowsIn holds rows phases t) :
    TableHistory past holds rows property log snapshot (Function.update phases t phase) table := by
  unfold TableHistory
  simp only [flag_update samePast, rowsIn_update same]
  exact history

/-- The statement of a transaction that has deleted nothing starts. -/
theorem snap (history : TableHistory past holds rows property log snapshot phases table)
    (first : past (phases t) = false) (seen : List T) :
    TableHistory past holds rows property log (Function.update snapshot t seen) phases table := by
  refine History.snap history fun u done => Function.update_of_ne ?_ _ _
  rintro rfl
  rw [first] at done
  cases done

/-- The `DELETE` of a transaction gets its rows. -/
theorem delete (history : TableHistory past holds rows property log snapshot phases table)
    (took : table.delete log (snapshot t) t property = some table')
    (first : past (phases t) = false) (then_ : past phase = true)
    (before : rowsIn holds rows phases t = []) (after : holds phase = false)
    (alive : t ∉ log.aborted) (seen : ∀ i ∈ snapshot t, i ∈ log.committed) :
    TableHistory past holds rows property log snapshot (Function.update phases t phase) table' := by
  unfold TableHistory
  have same : (if holds phase then rows t else []) = rowsIn holds rows phases t := by
    rw [before, after]
    rfl
  rw [rowsIn_update same]
  apply History.delete history took _ alive before seen
  · intro j
    by_cases equal : j = t
    · subst equal
      simp [then_]
    · simp [equal]
  · simp [first]

/-- The `INSERT` of a transaction that no snapshot knows. -/
theorem insert (history : TableHistory past holds rows property log snapshot phases table)
    (samePast : past phase = past (phases t)) (before : rowsIn holds rows phases t = [])
    (after : holds phase = true) (unknown : ∀ j, t ∉ snapshot j) :
    TableHistory past holds rows property log snapshot (Function.update phases t phase)
      (table.insert t (rows t)) := by
  unfold TableHistory
  simp only [flag_update samePast]
  apply History.insert history (fun j _ => unknown j) before
  · rw [rowsIn_self, after]
    rfl
  · exact fun other differ => rowsIn_of_ne differ

theorem commit (history : TableHistory past holds rows property log snapshot phases table)
    (samePast : past phase = past (phases t))
    (same : (if holds phase then rows t else []) = rowsIn holds rows phases t) :
    TableHistory past holds rows property { log with committed := log.committed ++ [t] } snapshot
      (Function.update phases t phase) table :=
  TableHistory.enter (History.commit history t) samePast same

theorem rollback (history : TableHistory past holds rows property log snapshot phases table)
    (ended : past phase = true) :
    TableHistory past holds rows property { log with aborted := t :: log.aborted } snapshot
      (Function.update phases t phase) table := by
  apply History.rollback history
  · exact fun other differ => rowsIn_of_ne differ
  · intro other done
    by_cases equal : other = t
    · subst equal
      rw [Function.update_self, ended]
    · rwa [Function.update_of_ne equal]
  · intro other differ done
    rwa [Function.update_of_ne differ] at done

end TableHistory

end Tables

section Invariant

variable (runs)

abbrev ChunkHistory (log : Log T) (snapshot : T → List T) (phases : T → Phase)
    (table : Table T ChunkRow) : Prop :=
  TableHistory Phase.pastChunks Phase.holdsChunks (fun t => (runs t).chunkRows)
    (fun row => decide (row.docId = docId)) log snapshot phases table

abbrev VectorHistory (log : Log T) (snapshot : T → List T) (phases : T → Phase)
    (table : Table T VectorRow) : Prop :=
  TableHistory Phase.pastVectors Phase.holdsVectors (fun t => (runs t).vectorRows)
    (fun row => decide (row.docId = docId)) log snapshot phases table

/-- The transactions that have ended, in their order, with what they have seen. -/
structure Ends (log : Log T) (phases : T → Phase) (chunkSnapshot vectorSnapshot : T → List T) :
    Prop where
  committed : ∀ t, t ∈ log.committed ↔ phases t = .committed
  aborted : ∀ t, t ∈ log.aborted ↔ phases t = .rolledBack
  nodup : log.committed.Nodup
  past : ∀ t, (∀ i ∈ chunkSnapshot t, i ∈ log.committed) ∧ ∀ i ∈ vectorSnapshot t, i ∈ log.committed
  before : ∀ t ∈ log.committed, (∀ i ∈ chunkSnapshot t, Precedes log.committed i t) ∧
    ∀ i ∈ vectorSnapshot t, Precedes log.committed i t

/-- The row of the document and its lock. -/
structure DocumentHistory (log : Log T) (phases : T → Phase) (document : DocumentRow)
    (lock : Option (T × DocumentRow)) : Prop where
  present : document.deleted = false
  held : ∀ t row, lock = some (t, row) → phases t = .documentUpdated ∧ row.deleted = false ∧
    row.chunkCount = (runs t).chunks.length
  updated : ∀ t, phases t = .documentUpdated → ∃ row, lock = some (t, row)
  count : ∀ pre t, log.committed = pre ++ [t] → document.chunkCount = (runs t).chunks.length

structure Inv (s : State T) : Prop where
  chunks : ChunkHistory runs s.log s.chunkSnapshot s.phases s.chunks
  vectors : VectorHistory runs s.log s.vectorSnapshot s.phases s.vectors
  ends : Ends s.log s.phases s.chunkSnapshot s.vectorSnapshot
  document : DocumentHistory runs s.log s.phases s.document s.lock
  lengths : ∀ t, s.phases t ≠ .idle → (runs t).chunks.length = (runs t).vectors.length

end Invariant

section Updates

variable {phases : T → Phase} {t : T} {phase : Phase}

/-- A transaction goes on without an end. -/
theorem Ends.enter {log : Log T} {chunkSnapshot vectorSnapshot : T → List T}
    (ends : Ends log phases chunkSnapshot vectorSnapshot)
    (open_ : phases t ≠ .committed ∧ phases t ≠ .rolledBack)
    (still : phase ≠ .committed ∧ phase ≠ .rolledBack) :
    Ends log (Function.update phases t phase) chunkSnapshot vectorSnapshot := by
  refine { ends with committed := fun u => ?_, aborted := fun u => ?_ }
  · rw [ends.committed]
    by_cases equal : u = t
    · subst equal
      simp [still.1, open_.1]
    · rw [Function.update_of_ne equal]
  · rw [ends.aborted]
    by_cases equal : u = t
    · subst equal
      simp [still.2, open_.2]
    · rw [Function.update_of_ne equal]

/-- A transaction goes on without the lock of the document. -/
theorem DocumentHistory.enter {log : Log T} {document : DocumentRow}
    {lock : Option (T × DocumentRow)} (history : DocumentHistory runs log phases document lock)
    (before : phases t ≠ .documentUpdated) (after : phase ≠ .documentUpdated) :
    DocumentHistory runs log (Function.update phases t phase) document lock := by
  refine { history with held := fun u row held => ?_, updated := fun u now => ?_ }
  · obtain ⟨updated, rest⟩ := history.held u row held
    have differ : u ≠ t := by
      rintro rfl
      exact before updated
    exact ⟨by rwa [Function.update_of_ne differ], rest⟩
  · by_cases equal : u = t
    · subst equal
      rw [Function.update_self] at now
      exact absurd now after
    · rw [Function.update_of_ne equal] at now
      exact history.updated u now

theorem lengths_enter (lengths : ∀ u, phases u ≠ .idle →
      (runs u).chunks.length = (runs u).vectors.length)
    (own : (runs t).chunks.length = (runs t).vectors.length) :
    ∀ u, Function.update phases t phase u ≠ .idle →
      (runs u).chunks.length = (runs u).vectors.length := by
  intro u begun
  by_cases equal : u = t
  · subst equal
    exact own
  · rw [Function.update_of_ne equal] at begun
    exact lengths u begun

end Updates

section Steps

variable {s t' : State T} {t : T}

/-- A statement starts with what is committed as its snapshot. -/
theorem past_snapshot {snapshot : T → List T} {committed : List T}
    (past : ∀ u, ∀ i ∈ snapshot u, i ∈ committed) (u : T) :
    ∀ i ∈ Function.update snapshot t committed u, i ∈ committed := by
  by_cases equal : u = t
  · subst equal
    simp
  · rw [Function.update_of_ne equal]
    exact past u

theorem Ends.snapChunks {log : Log T} {phases : T → Phase} {chunkSnapshot vectorSnapshot : T → List T}
    (ends : Ends log phases chunkSnapshot vectorSnapshot) (open_ : phases t ≠ .committed) :
    Ends log phases (Function.update chunkSnapshot t log.committed) vectorSnapshot := by
  refine { ends with past := fun u => ⟨past_snapshot (fun u => (ends.past u).1) u, (ends.past u).2⟩,
                     before := fun u ended => ?_ }
  have differ : u ≠ t := by
    rintro rfl
    exact open_ ((ends.committed u).mp ended)
  rw [Function.update_of_ne differ]
  exact ends.before u ended

theorem Ends.snapVectors {log : Log T} {phases : T → Phase}
    {chunkSnapshot vectorSnapshot : T → List T}
    (ends : Ends log phases chunkSnapshot vectorSnapshot) (open_ : phases t ≠ .committed) :
    Ends log phases chunkSnapshot (Function.update vectorSnapshot t log.committed) := by
  refine { ends with past := fun u => ⟨(ends.past u).1, past_snapshot (fun u => (ends.past u).2) u⟩,
                     before := fun u ended => ?_ }
  have differ : u ≠ t := by
    rintro rfl
    exact open_ ((ends.committed u).mp ended)
  rw [Function.update_of_ne differ]
  exact ends.before u ended

/-- The last of a longer list of commits. -/
theorem Ends.commit {log : Log T} {phases : T → Phase} {chunkSnapshot vectorSnapshot : T → List T}
    (ends : Ends log phases chunkSnapshot vectorSnapshot) (updated : phases t = .documentUpdated) :
    Ends { log with committed := log.committed ++ [t] } (Function.update phases t .committed)
      chunkSnapshot vectorSnapshot where
  committed u := by
    rw [List.mem_append, List.mem_singleton, ends.committed]
    by_cases equal : u = t
    · subst equal
      simp
    · simp [equal]
  aborted u := by
    rw [ends.aborted]
    by_cases equal : u = t
    · subst equal
      simp [updated]
    · simp [equal]
  nodup := by
    refine List.nodup_append.mpr ⟨ends.nodup, List.nodup_singleton t, ?_⟩
    rintro u member v last rfl
    rw [List.mem_singleton] at last
    subst last
    have now := (ends.committed u).mp member
    rw [updated] at now
    cases now
  past u := by
    constructor
    · exact fun i seen => List.mem_append_left _ ((ends.past u).1 i seen)
    · exact fun i seen => List.mem_append_left _ ((ends.past u).2 i seen)
  before u ended := by
    simp only [precedes_append_singleton]
    rcases List.mem_append.mp ended with earlier | last
    · constructor
      · exact fun i seen => .inl ((ends.before u earlier).1 i seen)
      · exact fun i seen => .inl ((ends.before u earlier).2 i seen)
    · obtain rfl := List.mem_singleton.mp last
      constructor
      · exact fun i seen => .inr ⟨rfl, (ends.past u).1 i seen⟩
      · exact fun i seen => .inr ⟨rfl, (ends.past u).2 i seen⟩

theorem Ends.rollback {log : Log T} {phases : T → Phase}
    {chunkSnapshot vectorSnapshot : T → List T}
    (ends : Ends log phases chunkSnapshot vectorSnapshot) (open_ : phases t ≠ .committed) :
    Ends { log with aborted := t :: log.aborted } (Function.update phases t .rolledBack)
      chunkSnapshot vectorSnapshot where
  committed u := by
    rw [ends.committed]
    by_cases equal : u = t
    · subst equal
      simp [open_]
    · simp [equal]
  aborted u := by
    rw [List.mem_cons, ends.aborted]
    by_cases equal : u = t
    · subst equal
      simp
    · simp [equal]
  nodup := ends.nodup
  past := ends.past
  before := ends.before

theorem DocumentHistory.commit {log : Log T} {phases : T → Phase} {document row : DocumentRow}
    (history : DocumentHistory runs log phases document (some (t, row))) :
    DocumentHistory runs { log with committed := log.committed ++ [t] }
      (Function.update phases t .committed) row none where
  present := (history.held t row rfl).2.1
  held u row held := by cases held
  updated u now := by
    by_cases equal : u = t
    · subst equal
      rw [Function.update_self] at now
      cases now
    · rw [Function.update_of_ne equal] at now
      obtain ⟨row', held⟩ := history.updated u now
      simp only [Option.some.injEq, Prod.mk.injEq] at held
      exact absurd held.1.symm equal
  count pre u same := by
    obtain ⟨-, last⟩ := List.append_inj' same rfl
    rw [← (List.cons.inj last).1]
    exact (history.held t row rfl).2.2

theorem DocumentHistory.update {log : Log T} {phases : T → Phase} {document : DocumentRow}
    (history : DocumentHistory runs log phases document none) :
    DocumentHistory runs log (Function.update phases t .documentUpdated) document
      (some (t, (runs t).success document)) where
  present := history.present
  held u row held := by
    simp only [Option.some.injEq, Prod.mk.injEq] at held
    obtain ⟨rfl, rfl⟩ := held
    exact ⟨Function.update_self .., history.present, rfl⟩
  updated u now := by
    by_cases equal : u = t
    · subst equal
      exact ⟨_, rfl⟩
    · rw [Function.update_of_ne equal] at now
      obtain ⟨row, held⟩ := history.updated u now
      cases held
  count := history.count

theorem DocumentHistory.rollback {log : Log T} {phases : T → Phase} {document : DocumentRow}
    {lock : Option (T × DocumentRow)} (history : DocumentHistory runs log phases document lock) :
    DocumentHistory runs { log with aborted := t :: log.aborted }
      (Function.update phases t .rolledBack) document (lock.filter fun held => held.1 ≠ t) where
  present := history.present
  held u row held := by
    obtain ⟨before, differ⟩ := Option.filter_eq_some_iff.mp held
    obtain ⟨updated, rest⟩ := history.held u row before
    exact ⟨by rwa [Function.update_of_ne (of_decide_eq_true differ)], rest⟩
  updated u now := by
    by_cases equal : u = t
    · subst equal
      rw [Function.update_self] at now
      cases now
    · rw [Function.update_of_ne equal] at now
      obtain ⟨row, held⟩ := history.updated u now
      exact ⟨row, Option.filter_eq_some_iff.mpr ⟨held, decide_eq_true equal⟩⟩
  count := history.count

omit [DecidableEq T] in
theorem unknown_of_open (ends : Ends s.log s.phases s.chunkSnapshot s.vectorSnapshot)
    (open_ : s.phases t ≠ .committed) (j : T) : t ∉ s.chunkSnapshot j ∧ t ∉ s.vectorSnapshot j := by
  constructor
  · exact fun seen => open_ ((ends.committed t).mp ((ends.past j).1 t seen))
  · exact fun seen => open_ ((ends.committed t).mp ((ends.past j).2 t seen))

omit [DecidableEq T] in
theorem rowsIn_eq_nil {R : Type} {holds : Phase → Bool} {rows : T → List R} {phases : T → Phase}
    (before : holds (phases t) = false) : rowsIn holds rows phases t = [] := by
  rw [rowsIn, before]
  rfl

theorem inv_step {e : Event T} (inv : Inv runs s) (taken : step runs s e = some t') :
    Inv runs t' := by
  obtain ⟨chunks, vectors, ends, document, lengths⟩ := inv
  cases e with
  | deleteChunks t =>
    simp only [step] at taken
    split at taken
    case isFalse => cases taken
    case isTrue ready =>
      obtain ⟨idle, own⟩ := ready
      rw [Option.some.injEq] at taken
      subst taken
      have snapped : ChunkHistory runs s.log (Function.update s.chunkSnapshot t s.log.committed)
          s.phases s.chunks := chunks.snap (by rw [idle]; rfl) _
      constructor
      · exact snapped.enter (by rw [idle]; rfl) (by rw [rowsIn, idle]; rfl)
      · exact vectors.enter (by rw [idle]; rfl) (by rw [rowsIn, idle]; rfl)
      · exact (ends.snapChunks (by simp [idle])).enter (by simp [idle]) (by simp)
      · exact document.enter (by simp [idle]) (by simp)
      · exact lengths_enter lengths own
  | chunksDeleted t =>
    simp only [step] at taken
    split at taken
    case isFalse => cases taken
    case isTrue phase =>
      obtain ⟨table, took, rfl⟩ := Option.map_eq_some_iff.mp taken
      have alive : t ∉ s.log.aborted := by simp [ends.aborted, phase]
      constructor
      · exact chunks.delete took (by rw [phase]; rfl) rfl (rowsIn_eq_nil (by rw [phase]; rfl)) rfl
          alive (ends.past t).1
      · exact vectors.enter (by rw [phase]; rfl) (by rw [rowsIn, phase]; rfl)
      · exact ends.enter (by simp [phase]) (by simp)
      · exact document.enter (by simp [phase]) (by simp)
      · exact lengths_enter lengths (lengths t (by simp [phase]))
  | deleteVectors t =>
    simp only [step] at taken
    split at taken
    case isFalse => cases taken
    case isTrue phase =>
      rw [Option.some.injEq] at taken
      subst taken
      have snapped : VectorHistory runs s.log (Function.update s.vectorSnapshot t s.log.committed)
          s.phases s.vectors := vectors.snap (by rw [phase]; rfl) _
      constructor
      · exact chunks.enter (by rw [phase]; rfl) (by rw [rowsIn, phase]; rfl)
      · exact snapped.enter (by rw [phase]; rfl) (by rw [rowsIn, phase]; rfl)
      · exact (ends.snapVectors (by simp [phase])).enter (by simp [phase]) (by simp)
      · exact document.enter (by simp [phase]) (by simp)
      · exact lengths_enter lengths (lengths t (by simp [phase]))
  | vectorsDeleted t =>
    simp only [step] at taken
    split at taken
    case isFalse => cases taken
    case isTrue phase =>
      obtain ⟨table, took, rfl⟩ := Option.map_eq_some_iff.mp taken
      have alive : t ∉ s.log.aborted := by simp [ends.aborted, phase]
      constructor
      · exact chunks.enter (by rw [phase]; rfl) (by rw [rowsIn, phase]; rfl)
      · exact vectors.delete took (by rw [phase]; rfl) rfl (rowsIn_eq_nil (by rw [phase]; rfl)) rfl
          alive (ends.past t).2
      · exact ends.enter (by simp [phase]) (by simp)
      · exact document.enter (by simp [phase]) (by simp)
      · exact lengths_enter lengths (lengths t (by simp [phase]))
  | insertChunks t =>
    simp only [step] at taken
    split at taken
    case isFalse => cases taken
    case isTrue ready =>
      obtain ⟨phase, -⟩ := ready
      rw [Option.some.injEq] at taken
      subst taken
      constructor
      · exact chunks.insert (by rw [phase]; rfl) (rowsIn_eq_nil (by rw [phase]; rfl)) rfl
          fun j => (unknown_of_open ends (by simp [phase]) j).1
      · exact vectors.enter (by rw [phase]; rfl) (by rw [rowsIn, phase]; rfl)
      · exact ends.enter (by simp [phase]) (by simp)
      · exact document.enter (by simp [phase]) (by simp)
      · exact lengths_enter lengths (lengths t (by simp [phase]))
  | insertVectors t =>
    simp only [step] at taken
    split at taken
    case isFalse => cases taken
    case isTrue phase =>
      rw [Option.some.injEq] at taken
      subst taken
      constructor
      · exact chunks.enter (by rw [phase]; rfl) (by rw [rowsIn, phase]; rfl)
      · exact vectors.insert (by rw [phase]; rfl) (rowsIn_eq_nil (by rw [phase]; rfl)) rfl
          fun j => (unknown_of_open ends (by simp [phase]) j).2
      · exact ends.enter (by simp [phase]) (by simp)
      · exact document.enter (by simp [phase]) (by simp)
      · exact lengths_enter lengths (lengths t (by simp [phase]))
  | updateDocument t =>
    simp only [step] at taken
    split at taken
    case isFalse => cases taken
    case isTrue ready =>
      obtain ⟨inserted, free⟩ := ready
      rw [Option.some.injEq, if_neg (by simp [document.present])] at taken
      subst taken
      rw [free] at document
      have begun : s.phases t ≠ .idle := by rcases inserted with phase | ⟨phase, -⟩ <;> simp [phase]
      have open_ : s.phases t ≠ .committed ∧ s.phases t ≠ .rolledBack := by
        rcases inserted with phase | ⟨phase, -⟩ <;> simp [phase]
      constructor
      · apply chunks.enter
        · rcases inserted with phase | ⟨phase, -⟩ <;> rw [phase] <;> rfl
        · rcases inserted with phase | ⟨phase, none⟩
          · rw [rowsIn, phase]
            rfl
          · simp [rowsIn, phase, Phase.holdsChunks, Replacement.chunkRows, none]
      · apply vectors.enter
        · rcases inserted with phase | ⟨phase, -⟩ <;> rw [phase] <;> rfl
        · rcases inserted with phase | ⟨phase, none⟩
          · rw [rowsIn, phase]
            rfl
          · have none' : (runs t).vectors = [] := by
              rw [← List.length_eq_zero_iff, ← lengths t begun, none]
              rfl
            simp [rowsIn, phase, Phase.holdsVectors, Replacement.vectorRows, Knowledge.vectorRows,
              none']
      · exact ends.enter open_ (by simp)
      · exact document.update
      · exact lengths_enter lengths (lengths t begun)
  | commit t =>
    simp only [step] at taken
    split at taken
    case isFalse => cases taken
    case isTrue phase =>
      obtain ⟨row, held⟩ := document.updated t phase
      rw [held] at document
      simp only [held, if_true, Option.some.injEq] at taken
      subst taken
      constructor
      · exact chunks.commit (by rw [phase]; rfl) (by rw [rowsIn, phase]; rfl)
      · exact vectors.commit (by rw [phase]; rfl) (by rw [rowsIn, phase]; rfl)
      · exact ends.commit phase
      · exact document.commit
      · exact lengths_enter lengths (lengths t (by simp [phase]))
  | rollback t =>
    simp only [step] at taken
    split at taken
    case isFalse => cases taken
    case isTrue running =>
      rw [Option.some.injEq] at taken
      subst taken
      have begun : s.phases t ≠ .idle ∧ s.phases t ≠ .committed := by
        constructor <;> (intro phase; rw [phase] at running; cases running)
      constructor
      · exact chunks.rollback rfl
      · exact vectors.rollback rfl
      · exact ends.rollback begun.2
      · exact document.rollback
      · exact lengths_enter lengths (lengths t begun.1)

theorem inv_initial {document : DocumentRow} (present : document.deleted = false)
    (chunks : List ChunkRow) (vectors : List VectorRow) :
    Inv runs (initial document chunks vectors : State T) where
  chunks := History.old chunks (fun t past => by cases past) fun t => rfl
  vectors := History.old vectors (fun t past => by cases past) fun t => rfl
  ends := by
    constructor
    · exact fun t => by simp [initial]
    · exact fun t => by simp [initial]
    · exact List.nodup_nil
    · exact fun t => ⟨fun i seen => (List.not_mem_nil seen).elim,
        fun i seen => (List.not_mem_nil seen).elim⟩
    · intro t ended
      simp [initial] at ended
  document := by
    constructor
    · exact present
    · intro t row held
      cases held
    · intro t updated
      cases updated
    · intro pre t same
      simp [initial] at same
  lengths t begun := absurd rfl begun

end Steps

section Traces

variable {s t' : State T}

/-- What a step adds to the commits and the snapshots. -/
theorem step_log {e : Event T} (taken : step runs s e = some t') :
    (t'.log.committed = match e with
      | .commit u => s.log.committed ++ [u]
      | _ => s.log.committed) ∧
    (t'.chunkSnapshot = match e with
      | .deleteChunks u => Function.update s.chunkSnapshot u s.log.committed
      | _ => s.chunkSnapshot) ∧
    t'.vectorSnapshot = match e with
      | .deleteVectors u => Function.update s.vectorSnapshot u s.log.committed
      | _ => s.vectorSnapshot := by
  cases e with
  | commit u =>
    simp only [step] at taken
    split at taken
    case isFalse => cases taken
    case isTrue =>
      split at taken
      · split at taken <;> cases taken <;> exact ⟨rfl, rfl, rfl⟩
      · cases taken
        exact ⟨rfl, rfl, rfl⟩
  | chunksDeleted u =>
    simp only [step] at taken
    split at taken
    case isFalse => cases taken
    case isTrue =>
      obtain ⟨table, -, rfl⟩ := Option.map_eq_some_iff.mp taken
      exact ⟨rfl, rfl, rfl⟩
  | vectorsDeleted u =>
    simp only [step] at taken
    split at taken
    case isFalse => cases taken
    case isTrue =>
      obtain ⟨table, -, rfl⟩ := Option.map_eq_some_iff.mp taken
      exact ⟨rfl, rfl, rfl⟩
  | _ =>
    simp only [step] at taken
    split at taken
    · cases taken
      exact ⟨rfl, rfl, rfl⟩
    · cases taken

/-- The commits and the snapshots of a state, read off the events that led to it. -/
structure Traces (es : List (Event T)) (s : State T) : Prop where
  commits : ∀ i, i ∈ s.log.committed ↔ .commit i ∈ es
  order : ∀ i k, Precedes s.log.committed i k ↔ Precedes es (.commit i) (.commit k)
  chunks : ∀ i j, i ∈ s.chunkSnapshot j ↔ Precedes es (.commit i) (.deleteChunks j)
  vectors : ∀ i j, i ∈ s.vectorSnapshot j ↔ Precedes es (.commit i) (.deleteVectors j)

theorem Traces.step {es : List (Event T)} {e : Event T} (traces : Traces es s)
    (taken : step runs s e = some t') : Traces (es ++ [e]) t' := by
  obtain ⟨committed, chunks, vectors⟩ := step_log taken
  constructor
  · intro i
    rw [committed, List.mem_append, List.mem_singleton]
    cases e <;> simp [traces.commits, eq_comm]
  · intro i k
    rw [committed, precedes_append_singleton]
    cases e <;> simp [precedes_append_singleton, traces.order, traces.commits]
  · intro i j
    rw [chunks, precedes_append_singleton, ← traces.chunks, ← traces.commits]
    cases e with
    | deleteChunks u =>
      by_cases equal : j = u
      · subst equal
        simp only [Function.update_self, true_and]
        constructor
        · exact .inr
        · rintro (seen | seen)
          · exact (traces.commits i).mpr ((traces.chunks i j).mp seen).mem
          · exact seen
      · simp [Function.update_of_ne equal, Ne.symm equal]
    | _ => simp
  · intro i j
    rw [vectors, precedes_append_singleton, ← traces.vectors, ← traces.commits]
    cases e with
    | deleteVectors u =>
      by_cases equal : j = u
      · subst equal
        simp only [Function.update_self, true_and]
        constructor
        · exact .inr
        · rintro (seen | seen)
          · exact (traces.commits i).mpr ((traces.vectors i j).mp seen).mem
          · exact seen
      · simp [Function.update_of_ne equal, Ne.symm equal]
    | _ => simp

theorem traces_run {document : DocumentRow} {chunks : List ChunkRow} {vectors : List VectorRow}
    {es : List (Event T)} (run : runFrom (step runs) (initial document chunks vectors) es = some s) :
    Traces es s := by
  have start : Traces [] (initial document chunks vectors : State T) := by
    constructor
    · intro i
      simp [initial]
    all_goals
      intro i k
      simp [initial, not_precedes_nil]
  exact history_runFrom (fun _ _ _ _ traces taken => traces.step taken) start run

end Traces

section Ended

variable {s : State T} {es : List (Event T)} {last : T}

theorem docId_chunkRows (r : Replacement docId) {row : ChunkRow} (member : row ∈ r.chunkRows) :
    row.docId = docId := by
  obtain ⟨chunk, -, rfl⟩ := List.mem_map.mp member
  exact r.same

theorem docId_vectorRows (r : Replacement docId) {row : VectorRow} (member : row ∈ r.vectorRows) :
    row.docId = docId :=
  (Knowledge.docId_vectorRows r.doc r.vectors r.updatedBy r.ids member).trans r.same

@[simp] theorem length_chunkRows (r : Replacement docId) : r.chunkRows.length = r.chunks.length :=
  List.length_map _

@[simp] theorem length_vectorRows (r : Replacement docId) :
    r.vectorRows.length = r.vectors.length :=
  List.length_mapIdx

omit [DecidableEq T] in
theorem rowsIn_committed {R : Type} {holds : Phase → Bool} (own : holds .committed = true) {t : T}
    (committed : s.phases t = .committed) (rows : T → List R) :
    rowsIn holds rows s.phases t = rows t := by
  rw [rowsIn, committed, own]
  rfl

omit [DecidableEq T] in
/-- What committed last was seen by none that has committed. -/
theorem unseen_last {log : Log T} {phases : T → Phase} {chunkSnapshot vectorSnapshot : T → List T}
    (ends : Ends log phases chunkSnapshot vectorSnapshot) {pre : List T}
    (order : log.committed = pre ++ [last]) {k : T} (committed : k ∈ log.committed) :
    last ∉ chunkSnapshot k ∧ last ∉ vectorSnapshot k := by
  have late : ∀ k, ¬ Precedes log.committed last k := by
    intro k precedes
    have nodup := ends.nodup
    rw [order] at nodup precedes
    have member : last ∈ pre := by
      rcases precedes_append_singleton.mp precedes with earlier | ⟨-, member⟩
      · exact earlier.mem
      · exact member
    exact (List.nodup_append.mp nodup).2.2 last member last (List.mem_singleton_self last) rfl
  constructor
  · exact fun seen => late k ((ends.before k committed).1 last seen)
  · exact fun seen => late k ((ends.before k committed).2 last seen)

omit [DecidableEq T] in
theorem apart (ends : Ends s.log s.phases s.chunkSnapshot s.vectorSnapshot) {t : T}
    (committed : t ∈ s.log.committed) : t ∉ s.log.aborted := by
  intro aborted
  have first := (ends.committed t).mp committed
  rw [(ends.aborted t).mp aborted] at first
  cases first

/-- Every earlier call that left chunks was seen: only the rows of the last one are left. -/
theorem oneRun_of_ordered (inv : Inv runs s) (traces : Traces es s) {pre : List T}
    (order : s.log.committed = pre ++ [last]) (ordered : Ordered runs es) : s.OneRun runs := by
  obtain ⟨chunks, vectors, ends, document, lengths⟩ := inv
  have committed : last ∈ s.log.committed := by
    rw [order]
    exact List.mem_append_right _ (List.mem_singleton_self last)
  have phase := (ends.committed last).mp committed
  have seen : ∀ i ∈ s.log.committed, i ≠ last → (runs i).chunks ≠ [] →
      (∃ j ∈ s.log.committed, i ∈ s.chunkSnapshot j) ∧
        ∃ j ∈ s.log.committed, i ∈ s.vectorSnapshot j := by
    intro i member differ left
    have earlier : i ∈ pre := by
      rw [order, List.mem_append, List.mem_singleton] at member
      exact member.resolve_right differ
    have precedes : Precedes s.log.committed i last := ⟨pre, [], order, earlier⟩
    obtain ⟨⟨j, ends', deletes⟩, k, ends'', deletes'⟩ :=
      ordered i last ((traces.order i last).mp precedes) left
    exact ⟨⟨j, (traces.commits j).mpr ends', (traces.chunks i j).mpr deletes⟩,
      k, (traces.commits k).mpr ends'', (traces.vectors i k).mpr deletes'⟩
  have chunksLeft : s.chunksOf docId = (runs last).chunkRows := by
    have own : Phase.holdsChunks .committed = true := rfl
    have committedRows := rowsIn_committed (s := s) own phase fun t => (runs t).chunkRows
    rw [← committedRows]
    apply History.contents_of_last chunks committed fun i => apart ends
    · intro i member
      rw [(ends.committed i).mp member]
      rfl
    · exact fun k member => (unseen_last ends order member).1
    · intro i member differ left
      apply (seen i member differ _).1
      rintro none
      rw [rowsIn_committed rfl ((ends.committed i).mp member) _, Replacement.chunkRows, none] at left
      exact left rfl
    · intro row member
      rw [rowsIn_committed rfl phase _] at member
      exact decide_eq_true (docId_chunkRows _ member)
  have vectorsLeft : s.vectorsOf docId = (runs last).vectorRows := by
    have own : Phase.holdsVectors .committed = true := rfl
    have committedRows := rowsIn_committed (s := s) own phase fun t => (runs t).vectorRows
    rw [← committedRows]
    apply History.contents_of_last vectors committed fun i => apart ends
    · intro i member
      rw [(ends.committed i).mp member]
      rfl
    · exact fun k member => (unseen_last ends order member).2
    · intro i member differ left
      apply (seen i member differ _).2
      rintro none
      have ended := (ends.committed i).mp member
      have none' : (runs i).vectors = [] := by
        rw [← List.length_eq_zero_iff, ← lengths i (by simp [ended]), none]
        rfl
      rw [rowsIn_committed rfl ended, Replacement.vectorRows, none'] at left
      exact left rfl
    · intro row member
      rw [rowsIn_committed rfl phase _] at member
      exact decide_eq_true (docId_vectorRows _ member)
  refine ⟨last, phase, chunksLeft, vectorsLeft, ?_⟩
  rw [document.count pre last order, chunksLeft, length_chunkRows]

/-- Two calls of which neither was seen leave the chunks of both. -/
theorem length_chunksOf (inv : Inv runs s) {i k : T} (differ : i ≠ k)
    (committed : i ∈ s.log.committed ∧ k ∈ s.log.committed)
    (unseen : ∀ j ∈ s.log.committed, i ∉ s.chunkSnapshot j ∧ k ∉ s.chunkSnapshot j) :
    (runs i).chunks.length + (runs k).chunks.length ≤ (s.chunksOf docId).length := by
  have first := (inv.ends.committed i).mp committed.1
  have second := (inv.ends.committed k).mp committed.2
  have all := History.length_of_unseen inv.chunks differ
    ⟨apart inv.ends committed.1, apart inv.ends committed.2⟩ committed unseen
  rw [rowsIn_committed rfl first, rowsIn_committed rfl second, length_chunkRows,
    length_chunkRows] at all
  apply all
  rintro row (member | member) <;> exact decide_eq_true (docId_chunkRows _ member)

theorem length_vectorsOf (inv : Inv runs s) {i k : T} (differ : i ≠ k)
    (committed : i ∈ s.log.committed ∧ k ∈ s.log.committed)
    (unseen : ∀ j ∈ s.log.committed, i ∉ s.vectorSnapshot j ∧ k ∉ s.vectorSnapshot j) :
    (runs i).vectors.length + (runs k).vectors.length ≤ (s.vectorsOf docId).length := by
  have first := (inv.ends.committed i).mp committed.1
  have second := (inv.ends.committed k).mp committed.2
  have all := History.length_of_unseen inv.vectors differ
    ⟨apart inv.ends committed.1, apart inv.ends committed.2⟩ committed unseen
  rw [rowsIn_committed rfl first, rowsIn_committed rfl second, length_vectorRows,
    length_vectorRows] at all
  apply all
  rintro row (member | member) <;> exact decide_eq_true (docId_vectorRows _ member)

/-- The rows of one call, counted by the document: every earlier one was seen. -/
theorem ordered_of_oneRun (inv : Inv runs s) (traces : Traces es s) {pre : List T}
    (order : s.log.committed = pre ++ [last]) (one : s.OneRun runs) : Ordered runs es := by
  obtain ⟨t, phase, chunksLeft, vectorsLeft, count⟩ := one
  have counted := inv.document.count pre last order
  have committed : last ∈ s.log.committed := by
    rw [order]
    exact List.mem_append_right _ (List.mem_singleton_self last)
  have chunkTotal : (s.chunksOf docId).length = (runs last).chunks.length := count.symm.trans counted
  have vectorTotal : (s.vectorsOf docId).length = (runs last).vectors.length := by
    rw [← inv.lengths last (by simp [(inv.ends.committed last).mp committed]), ← chunkTotal,
      chunksLeft, vectorsLeft, length_chunkRows, length_vectorRows,
      inv.lengths t (by simp [phase])]
  intro i k precedes left
  have earlier := (traces.order i k).mpr precedes
  have differ : i ≠ last := by
    rintro rfl
    have nodup := inv.ends.nodup
    rw [order] at nodup earlier
    have member : i ∈ pre := by
      rcases precedes_append_singleton.mp earlier with before | ⟨-, member⟩
      · exact before.mem
      · exact member
    exact (List.nodup_append.mp nodup).2.2 i member i (List.mem_singleton_self i) rfl
  have both : i ∈ s.log.committed ∧ last ∈ s.log.committed := ⟨earlier.mem, committed⟩
  have some_ : 0 < (runs i).chunks.length := List.length_pos_iff.mpr left
  have begun : s.phases i ≠ .idle := by simp [(inv.ends.committed i).mp both.1]
  constructor
  · by_contra none
    have all := length_chunksOf inv differ both fun j member => ⟨fun seen => none
      ⟨j, (traces.commits j).mp member, (traces.chunks i j).mp seen⟩,
      (unseen_last inv.ends order member).1⟩
    omega
  · by_contra none
    have all := length_vectorsOf inv differ both fun j member => ⟨fun seen => none
      ⟨j, (traces.commits j).mp member, (traces.vectors i j).mp seen⟩,
      (unseen_last inv.ends order member).2⟩
    have same := inv.lengths i begun
    omega

end Ended

/-- Once a transaction has committed, the rows of the document are those of one call and counted
exactly if each call that left rows before another commit was seen by a later delete of each table. -/
theorem oneRun_iff {document : DocumentRow} (present : document.deleted = false)
    {chunks : List ChunkRow} {vectors : List VectorRow} {es : List (Event T)} {s : State T}
    (run : runFrom (step runs) (initial document chunks vectors) es = some s)
    (some_ : ∃ t, s.phases t = .committed) :
    s.OneRun runs ↔ Ordered runs es := by
  have inv : Inv runs s :=
    invariant_runFrom (fun _ _ _ inv taken => inv_step inv taken)
      (inv_initial present chunks vectors) run
  have traces := traces_run run
  obtain ⟨t, phase⟩ := some_
  have nonempty : s.log.committed ≠ [] := List.ne_nil_of_mem ((inv.ends.committed t).mpr phase)
  obtain ⟨pre, last, order⟩ : ∃ pre last, s.log.committed = pre ++ [last] :=
    ⟨_, _, (List.dropLast_append_getLast nonempty).symm⟩
  constructor
  · exact ordered_of_oneRun inv traces order
  · exact oneRun_of_ordered inv traces order

section Runs

private def manual : DocumentRow where
  kbId := .lit "kb-1"
  docName := .lit "manual.txt"
  fileUrl := .lit "s3://kb/doc.txt"
  fileType := .lit "txt"
  fileSize := some 9
  status := .running
  sourceType := .lit "FILE"
  chunkStrategy := .lit "fixed_size"
  chunkConfig := none
  createdBy := none
  updatedBy := none

/-- Each call has one chunk of its own. -/
private def delivery (t : ℕ) : Replacement (.lit "doc-1") where
  doc :=
    { id := .lit "doc-1"
      kbId := .lit "kb-1"
      docName := .lit "manual.txt"
      fileUrl := .lit "s3://kb/doc.txt"
      processMode := .lit "CHUNK"
      status := .running
      chunkStrategy := .lit "fixed_size"
      chunkConfig := []
      createdBy := .lit "agent" }
  chunks := [⟨[t], 0, .lit "a", [], 1, 1, []⟩]
  vectors := [⟨[t], .lit "doc-1", .lit "kb-1", 0, .lit "a", [.lit "0.1"], []⟩]
  updatedBy := .lit "agent"
  ids index := [t, index]
  same := rfl

/-- A call from its first statement to its commit. -/
private def whole (t : ℕ) : List (Event ℕ) :=
  [.deleteChunks t, .chunksDeleted t, .deleteVectors t, .vectorsDeleted t, .insertChunks t,
    .insertVectors t, .updateDocument t, .commit t]

theorem whole_oneRun :
    ∃ s, runFrom (step delivery) (initial manual [] []) (whole 0 ++ whole 1) = some s ∧
      (s.OneRun delivery ↔ Ordered delivery (whole 0 ++ whole 1)) := by
  have ends : ((runFrom (step delivery) (initial manual [] []) (whole 0 ++ whole 1)).any fun s =>
      s.phases 1 = .committed) = true := by decide +kernel
  obtain ⟨s, run, committed⟩ := (Option.any_eq_true _ _).mp ends
  exact ⟨s, run, oneRun_iff rfl run ⟨1, of_decide_eq_true committed⟩⟩

/-- Two deliveries of a document without chunks delete before either inserts. -/
private def crossed : List (Event ℕ) :=
  [.deleteChunks 0, .chunksDeleted 0] ++ [.deleteChunks 1, .chunksDeleted 1] ++ (whole 0).drop 2 ++
    (whole 1).drop 2

theorem crossed_not_oneRun :
    ∃ s, runFrom (step delivery) (initial manual [] []) crossed = some s ∧
      s.phases 0 = .committed ∧ s.phases 1 = .committed ∧
      (s.chunksOf (.lit "doc-1")).length = 2 ∧ s.document.chunkCount = 1 ∧ ¬ s.OneRun delivery := by
  have ends : ((runFrom (step delivery) (initial manual [] []) crossed).any fun s =>
      decide (s.phases 0 = .committed ∧ s.phases 1 = .committed ∧
        (s.chunksOf (.lit "doc-1")).length = 2 ∧ s.document.chunkCount = 1)) = true := by
    decide +kernel
  obtain ⟨s, run, left⟩ := (Option.any_eq_true _ _).mp ends
  obtain ⟨first, second, chunks, count⟩ := of_decide_eq_true left
  refine ⟨s, run, first, second, chunks, count, ?_⟩
  rintro ⟨t, -, -, -, counted⟩
  omega

end Runs

end HeyeeAgent.Knowledge.ReplaceStatements
