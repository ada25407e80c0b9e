import HeyeeAgent.StreamCancellation.Ownership

/-! # The registry over whole runs

Calls of `register` that overlap at their awaits, and the other operations between their segments,
on one registry. What the environment decides is in the events: when the clock moves, what the
backend answers to a registration, and which handle is bound or cancelled. Beside the registry a
state records what its laws speak of: the calls of `register`, which of them put an entry in, when a
task was stopped, and the handles that were cancelled or refused.
-/

namespace HeyeeAgent

namespace StreamTaskManager

open StreamCancellation (Every)

variable {H : Type} {m : StreamTaskManager H} {now : ℚ} {taskId : String}

/-- What a registration does: it only purges, or it puts a new entry under a free id. -/
theorem register_cases (m : StreamTaskManager H) (now : ℚ) (taskId : String)
    (ownerId : Option String) :
    m.register now taskId ownerId = (m.purgeExpired now, false) ∨
      ∃ owner, (m.purgeExpired now).tasks.lookup taskId = none ∧
        (m.purgeExpired now).tasks.entries.length < m.maxTasks ∧
        m.register now taskId ownerId =
          ({ m.purgeExpired now with
              tasks := (m.purgeExpired now).tasks.insert taskId { ownerId := owner } }, true) := by
  unfold register
  dsimp only
  split_ifs with occupied
  · exact .inl rfl
  · obtain ⟨free, room⟩ := not_or.mp occupied
    refine .inr ⟨_, ?_, not_le.mp room, rfl⟩
    rw [AList.lookup_eq_none]
    exact free

/-- What `cancel_local` does: it only purges, or it stops a live task and calls its handle. -/
theorem cancelLocal_cases (m : StreamTaskManager H) (now : ℚ) (taskId : String) :
    m.cancelLocal now taskId = (m.purgeExpired now, false, none) ∨
      ∃ info, (m.purgeExpired now).tasks.lookup taskId = some info ∧ info.cancelled = false ∧
        m.cancelLocal now taskId =
          ({ m.purgeExpired now with
              tasks := (m.purgeExpired now).tasks.insert taskId
                { info with cancelled := true, expiresAt := some (now + m.cancelledTtlSeconds) } },
            true, info.handle) := by
  unfold cancelLocal
  dsimp only
  split
  · exact .inl rfl
  · next info found =>
    split_ifs with already
    · exact .inl rfl
    · exact .inr ⟨info, found, Bool.eq_false_iff.mpr already, rfl⟩

theorem isCancelled_of_lookup {info : StreamTaskInfo H}
    (found : (m.purgeExpired now).tasks.lookup taskId = some info) :
    m.isCancelled now taskId = info.cancelled := by
  unfold isCancelled
  rw [found]
  rfl

/-- What `finalize` does: it only purges, it stamps a tombstone again, or it takes the task out. -/
theorem finalize_cases (m : StreamTaskManager H) (now : ℚ) (taskId : String) :
    (m.isCancelled now taskId = false ∧ m.finalize now taskId = m.purgeExpired now) ∨
      (∃ info, (m.purgeExpired now).tasks.lookup taskId = some info ∧ info.cancelled = true ∧
        m.finalize now taskId =
          { m.purgeExpired now with
            tasks := (m.purgeExpired now).tasks.insert taskId
              { info with handle := none, expiresAt := some (now + m.cancelledTtlSeconds) } }) ∨
      (m.isCancelled now taskId = false ∧ m.finalize now taskId =
        { m.purgeExpired now with tasks := (m.purgeExpired now).tasks.erase taskId }) := by
  unfold finalize
  dsimp only
  split
  · next missing =>
    refine .inl ⟨?_, rfl⟩
    unfold isCancelled
    rw [missing]
    rfl
  · next info found =>
    split_ifs with cancelled
    · exact .inr (.inl ⟨info, found, cancelled, rfl⟩)
    · refine .inr (.inr ⟨?_, rfl⟩)
      rw [isCancelled_of_lookup found]
      exact Bool.eq_false_iff.mpr cancelled

/-- What `bind` does: nothing, or it puts the handle into the entry. -/
theorem bind_cases (m : StreamTaskManager H) (taskId : String) (handle : H) :
    (m.tasks.lookup taskId = none ∧ m.bind taskId handle = (m, false, none)) ∨
      ∃ info, m.tasks.lookup taskId = some info ∧ m.bind taskId handle =
        ({ m with tasks := m.tasks.insert taskId { info with handle := some handle } },
          !info.cancelled, if info.cancelled then some handle else none) := by
  cases found : m.tasks.lookup taskId with
  | none =>
    refine .inl ⟨rfl, ?_⟩
    unfold bind
    rw [found]
  | some info => exact .inr ⟨info, rfl, bind_found found handle⟩

section Length

theorem length_erase_le (tasks : AList fun _ : String => StreamTaskInfo H) (taskId : String) :
    (tasks.erase taskId).entries.length ≤ tasks.entries.length :=
  (List.kerase_sublist taskId tasks.entries).length_le

theorem length_insert_le (tasks : AList fun _ : String => StreamTaskInfo H) (taskId : String)
    (info : StreamTaskInfo H) :
    (tasks.insert taskId info).entries.length ≤ tasks.entries.length + 1 := by
  have erased := length_erase_le tasks taskId
  have cons : (tasks.insert taskId info).entries.length = (tasks.erase taskId).entries.length + 1 :=
    rfl
  omega

/-- An entry that replaces another one takes no more room. -/
theorem length_insert_of_lookup {tasks : AList fun _ : String => StreamTaskInfo H}
    {info : StreamTaskInfo H} (found : tasks.lookup taskId = some info)
    (info' : StreamTaskInfo H) :
    (tasks.insert taskId info').entries.length = tasks.entries.length := by
  have member : taskId ∈ tasks.entries.keys := AList.lookup_isSome.mp (by simp [found])
  have size (entries : List (Sigma fun _ : String => StreamTaskInfo H)) :
      entries.keys.length = entries.length := List.length_map _
  have keys := congrArg List.length (List.keys_kerase (a := taskId) (l := tasks.entries))
  rw [List.length_erase_of_mem member, size, size] at keys
  have filled := List.length_pos_of_mem member
  rw [size] at filled
  have cons : (tasks.insert taskId info').entries.length =
      (List.kerase taskId tasks.entries).length + 1 := rfl
  omega

theorem length_purgeExpired_le (m : StreamTaskManager H) (now : ℚ) :
    (m.purgeExpired now).tasks.entries.length ≤ m.tasks.entries.length := by
  have erased (ids : List String) : ∀ tasks : AList fun _ : String => StreamTaskInfo H,
      (ids.foldl (fun tasks taskId => tasks.erase taskId) tasks).entries.length ≤
        tasks.entries.length := by
    induction ids with
    | nil => exact fun tasks => le_refl _
    | cons id ids ih => exact fun tasks => (ih _).trans (length_erase_le tasks id)
  exact erased _ m.tasks

end Length

/-- A new entry under one id, while what is asked of the others does not grow. -/
theorem every_insert {Q Q' : String → StreamTaskInfo H → Prop} (every : Every Q m)
    {info : StreamTaskInfo H} (others : ∀ other info, other ≠ taskId → Q other info → Q' other info)
    (new : Q' taskId info) : Every Q' { m with tasks := m.tasks.insert taskId info } := by
  intro other info' found
  by_cases same : other = taskId
  · subst same
    rw [AList.lookup_insert, Option.mem_some_iff] at found
    exact found ▸ new
  · rw [AList.lookup_insert_ne same] at found
    exact others other info' same (every other info' found)

end StreamTaskManager

namespace TaskRegistry

open StreamCancellation (Every)
open StreamTaskManager

/-- How a call of `register` that put its entry in goes on. -/
inductive RegisterStatus where
  /-- at an await of the backend -/
  | pending
  | returned (registered : Bool)
  | raised
deriving DecidableEq

structure RegisterCall where
  taskId : String
  /-- an owner is stored in the backend first -/
  owned : Bool
  status : RegisterStatus
deriving DecidableEq

structure State (H : Type) where
  manager : StreamTaskManager H := {}
  now : ℚ := 0
  calls : List RegisterCall := []
  /-- the last call that put an entry under the id -/
  holder : String → Option ℕ := fun _ => none
  /-- when the task was last cancelled, or finalized with its tombstone live -/
  stopped : String → Option ℚ := fun _ => none
  /-- the handles whose `cancel()` was called -/
  cancelled : List H := []
  /-- the handles for which `bind` has returned false -/
  refused : List H := []

inductive Event (H : Type) where
  | register (taskId : String) (ownerId : Option String)
  /-- the backend has answered: the owner was stored or is the same, a marker was found -/
  | registerAnswered (call : ℕ) (ownerStored remotelyCancelled : Bool)
  | registerRaised (call : ℕ)
  | bind (taskId : String) (handle : H)
  /-- `cancel_local`, for a broadcast or at the end of `cancel` -/
  | cancelLocal (taskId : String)
  | finalize (taskId : String)
  /-- `is_cancelled`, `contains` and `is_owned_by` -/
  | purge
  /-- a caller calls `handle.cancel()` itself -/
  | cancelHandle (handle : H)
  | elapse (seconds : ℚ)

variable {H : Type}

namespace State

def register (s : State H) (taskId : String) (ownerId : Option String) : State H :=
  let (manager, free) := s.manager.register s.now taskId ownerId
  if free then
    let status := if manager.distributedEnabled then .pending else .returned true
    { s with
      manager
      calls := s.calls ++ [⟨taskId, (ownerId.filter (· ≠ "")).isSome, status⟩]
      holder := Function.update s.holder taskId (some s.calls.length) }
  else { s with manager }

/-- `cancel_local`, with the call of the bound handle. -/
def cancelLocal (s : State H) (taskId : String) : State H :=
  let (manager, cancelled, handle) := s.manager.cancelLocal s.now taskId
  { s with
    manager
    stopped := if cancelled then Function.update s.stopped taskId (some s.now) else s.stopped
    cancelled := handle.toList ++ s.cancelled }

/-- `self._tasks.pop(task_id, None)` -/
def pop (s : State H) (taskId : String) : State H :=
  { s with manager := { s.manager with tasks := s.manager.tasks.erase taskId } }

def bind (s : State H) (taskId : String) (handle : H) : State H :=
  let (manager, bound, called) := s.manager.bind taskId handle
  { s with
    manager
    cancelled := called.toList ++ s.cancelled
    refused := if bound then s.refused else handle :: s.refused }

def finalize (s : State H) (taskId : String) : State H :=
  { s with
    manager := s.manager.finalize s.now taskId
    stopped := if s.manager.isCancelled s.now taskId then
        Function.update s.stopped taskId (some s.now) else s.stopped }

def purge (s : State H) : State H := { s with manager := s.manager.purgeExpired s.now }

/-- A call of `register` ends. -/
def setStatus (s : State H) (call : ℕ) (status : RegisterStatus) : State H :=
  { s with calls := s.calls.modify call fun record => { record with status } }

end State

def step (s : State H) : Event H → Option (State H)
  | .register taskId ownerId => some (s.register taskId ownerId)
  | .registerAnswered call ownerStored remotelyCancelled =>
    match s.calls[call]? with
    | some ⟨taskId, owned, .pending⟩ =>
      if owned && !ownerStored then some ((s.pop taskId).setStatus call (.returned false))
      else
        let s := if remotelyCancelled then s.cancelLocal taskId else s
        some (s.setStatus call (.returned true))
    | _ => none
  | .registerRaised call =>
    match s.calls[call]? with
    | some ⟨_, _, .pending⟩ => some (s.setStatus call .raised)
    | _ => none
  | .bind taskId handle => some (s.bind taskId handle)
  | .cancelLocal taskId => some (s.cancelLocal taskId)
  | .finalize taskId => some (s.finalize taskId)
  | .purge => some s.purge
  | .cancelHandle handle => some { s with cancelled := handle :: s.cancelled }
  | .elapse seconds => if 0 ≤ seconds then some { s with now := s.now + seconds } else none

/-- A registry at startup. -/
def initial (now : ℚ) (manager : StreamTaskManager H) : State H where
  manager := { manager with tasks := ∅ }
  now := now

/-- What every operation keeps, every step keeps. -/
theorem step_keeps {I : State H → Prop} (registers : ∀ s taskId ownerId, I s →
      I (s.register taskId ownerId))
    (cancels : ∀ s taskId, I s → I (s.cancelLocal taskId)) (pops : ∀ s taskId, I s → I (s.pop taskId))
    (sets : ∀ s call status, I s → I (s.setStatus call status))
    (binds : ∀ s taskId handle, I s → I (s.bind taskId handle))
    (finalizes : ∀ s taskId, I s → I (s.finalize taskId)) (purges : ∀ s, I s → I s.purge)
    (calls : ∀ s handle, I s → I { s with cancelled := handle :: s.cancelled })
    (elapses : ∀ s seconds, I s → I { s with now := s.now + seconds })
    (s : State H) (e : Event H) (t : State H) (kept : I s) (taken : step s e = some t) : I t := by
  cases e with
  | register taskId ownerId => cases taken; exact registers s taskId ownerId kept
  | registerAnswered call ownerStored remotelyCancelled =>
    simp only [step] at taken
    split at taken
    · next taskId owned _ =>
      split_ifs at taken <;> cases taken
      · exact sets _ _ _ (pops s taskId kept)
      · exact sets _ _ _ (cancels s taskId kept)
      · exact sets _ _ _ kept
    · cases taken
  | registerRaised call =>
    simp only [step] at taken
    split at taken <;> cases taken
    exact sets s call _ kept
  | bind taskId handle => cases taken; exact binds s taskId handle kept
  | cancelLocal taskId => cases taken; exact cancels s taskId kept
  | finalize taskId => cases taken; exact finalizes s taskId kept
  | purge => cases taken; exact purges s kept
  | cancelHandle handle => cases taken; exact calls s handle kept
  | elapse seconds =>
    simp only [step] at taken
    split_ifs at taken
    cases taken
    exact elapses s seconds kept

end TaskRegistry

end HeyeeAgent
