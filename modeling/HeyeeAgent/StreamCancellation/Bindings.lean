import HeyeeAgent.StreamCancellation.TaskRegistry

/-! # A refused handle is a cancelled handle

`stream` binds one handle after the other and ends as soon as `bind` answers false: it takes the
handle for cancelled then. An entry that is cancelled calls every handle it is bound to; without an
entry `bind` answers false and calls nothing.
-/

namespace HeyeeAgent.TaskRegistry

open Machine StreamTaskManager
open StreamCancellation (Every)

variable {H : Type} {s : State H} {taskId : String}

/-- The handle of every cancelled entry was cancelled. -/
def HandlesCalled (s : State H) : Prop :=
  Every (fun _ info => info.cancelled = true → ∀ handle ∈ info.handle, handle ∈ s.cancelled)
    s.manager

/-- Every handle that `bind` refused was cancelled. -/
def RefusalsCalled (s : State H) : Prop := ∀ handle ∈ s.refused, handle ∈ s.cancelled

section HandlesCalled

theorem HandlesCalled.purge (called : HandlesCalled s) : HandlesCalled s.purge :=
  Every.purgeExpired called s.now

/-- A new entry has no handle. -/
theorem HandlesCalled.register (called : HandlesCalled s) (taskId : String)
    (ownerId : Option String) : HandlesCalled (s.register taskId ownerId) := by
  have purged : Every _ (s.manager.purgeExpired s.now) := called.purge
  unfold State.register
  rcases register_cases s.manager s.now taskId ownerId with same | ⟨owner, -, -, new⟩
  · rw [same]
    exact purged
  · rw [new]
    exact purged.insert fun cancelled => absurd cancelled Bool.false_ne_true

/-- A task is stopped together with its handle. -/
theorem HandlesCalled.cancelLocal (called : HandlesCalled s) (taskId : String) :
    HandlesCalled (s.cancelLocal taskId) := by
  have purged : Every _ (s.manager.purgeExpired s.now) := called.purge
  unfold State.cancelLocal
  rcases cancelLocal_cases s.manager s.now taskId with same | ⟨info, -, -, stopped⟩
  · rw [same]
    exact purged
  · rw [stopped]
    refine every_insert purged ?_ ?_
    · intro other info' _ before cancelled handle bound
      exact List.mem_append_right _ (before cancelled handle bound)
    · intro _ handle bound
      exact List.mem_append_left _ (Option.mem_toList.mpr bound)

/-- A handle that comes too late is cancelled as it is bound. -/
theorem HandlesCalled.bind (called : HandlesCalled s) (taskId : String) (handle : H) :
    HandlesCalled (s.bind taskId handle) := by
  unfold State.bind
  rcases bind_cases s.manager taskId handle with ⟨-, same⟩ | ⟨info, -, bound⟩
  · rw [same]
    exact called
  · rw [bound]
    refine every_insert called ?_ ?_
    · intro other info' _ before cancelled handle' bound'
      exact List.mem_append_right _ (before cancelled handle' bound')
    · intro cancelled handle' bound'
      apply List.mem_append_left
      rw [if_pos cancelled]
      exact Option.mem_toList.mpr bound'

/-- A tombstone lets go of its handle. -/
theorem HandlesCalled.finalize (called : HandlesCalled s) (taskId : String) :
    HandlesCalled (s.finalize taskId) := by
  have purged : Every _ (s.manager.purgeExpired s.now) := called.purge
  unfold State.finalize
  rcases finalize_cases s.manager s.now taskId with ⟨-, same⟩ | ⟨info, -, -, stamped⟩ | ⟨-, out⟩
  · rw [same]
    exact purged
  · rw [stamped]
    refine purged.insert fun _ handle bound => ?_
    cases bound
  · rw [out]
    exact purged.erase taskId

/-- The registry never holds a cancelled entry whose handle was not cancelled. -/
theorem HandlesCalled.step (s : State H) (e : Event H) (t : State H) (called : HandlesCalled s)
    (taken : TaskRegistry.step s e = some t) : HandlesCalled t := by
  apply step_keeps (I := HandlesCalled) ?_ ?_ ?_ ?_ ?_ ?_ ?_ ?_ ?_ s e t called taken
  · exact fun s taskId ownerId called => called.register taskId ownerId
  · exact fun s taskId called => called.cancelLocal taskId
  · exact fun s taskId called => Every.erase called taskId
  · exact fun s call status called => called
  · exact fun s taskId handle called => called.bind taskId handle
  · exact fun s taskId called => called.finalize taskId
  · exact fun s called => called.purge
  · intro s handle called taskId info found cancelled handle' bound
    exact List.mem_cons_of_mem handle (called taskId info found cancelled handle' bound)
  · exact fun s seconds called => called

end HandlesCalled

section Refusals

/-- A binding finds an entry, or brings a handle that was cancelled before. -/
def FindsEntry (s : State H) : Event H → Prop
  | .bind taskId handle => taskId ∈ s.manager.tasks ∨ handle ∈ s.cancelled
  | _ => True

/-- Nothing but a binding refuses a handle, and no call of a handle is undone. -/
theorem refused_step {e : Event H} {t : State H} (taken : step s e = some t)
    (other : ∀ taskId handle, e ≠ .bind taskId handle) :
    t.refused = s.refused ∧ s.cancelled ⊆ t.cancelled := by
  have cancels (s : State H) (taskId : String) : (s.cancelLocal taskId).refused = s.refused ∧
      s.cancelled ⊆ (s.cancelLocal taskId).cancelled :=
    ⟨rfl, List.subset_append_right _ _⟩
  cases e with
  | register taskId ownerId =>
    cases taken
    unfold State.register
    dsimp only
    split_ifs <;> exact ⟨rfl, List.Subset.refl _⟩
  | registerAnswered call ownerStored remotelyCancelled =>
    simp only [step] at taken
    split at taken
    · next taskId _ _ =>
      split_ifs at taken <;> cases taken
      · exact ⟨rfl, List.Subset.refl _⟩
      · exact cancels s taskId
      · exact ⟨rfl, List.Subset.refl _⟩
    · cases taken
  | registerRaised call =>
    simp only [step] at taken
    split at taken <;> cases taken
    exact ⟨rfl, List.Subset.refl _⟩
  | bind taskId handle => exact absurd rfl (other taskId handle)
  | cancelLocal taskId => cases taken; exact cancels s taskId
  | finalize taskId => cases taken; exact ⟨rfl, List.Subset.refl _⟩
  | purge => cases taken; exact ⟨rfl, List.Subset.refl _⟩
  | cancelHandle handle => cases taken; exact ⟨rfl, List.subset_cons_self _ _⟩
  | elapse seconds =>
    simp only [step] at taken
    split_ifs at taken
    cases taken
    exact ⟨rfl, List.Subset.refl _⟩

/-- A refusal goes with a call of the handle exactly when an entry is found. -/
theorem refusalsCalled_bind (called : RefusalsCalled s) (taskId : String) (handle : H) :
    RefusalsCalled (s.bind taskId handle) ↔
      taskId ∈ s.manager.tasks ∨ handle ∈ s.cancelled := by
  unfold State.bind
  rcases bind_cases s.manager taskId handle with ⟨missing, same⟩ | ⟨info, found, bound⟩
  · have absent : taskId ∉ s.manager.tasks := AList.lookup_eq_none.mp missing
    rw [same, or_iff_right absent]
    exact List.forall_mem_cons.trans (and_iff_left called)
  · have present : taskId ∈ s.manager.tasks := AList.lookup_isSome.mp (by simp [found])
    rw [bound, iff_true_right (.inl present)]
    cases cancelled : info.cancelled with
    | false => exact called
    | true =>
      intro handle' refused
      rcases List.mem_cons.mp refused with rfl | before
      · exact List.mem_cons_self
      · exact List.mem_cons_of_mem _ (called handle' before)

theorem refusalsCalled_step {e : Event H} {t : State H} (called : RefusalsCalled s)
    (taken : step s e = some t) : RefusalsCalled t ↔ FindsEntry s e := by
  by_cases binds : ∃ taskId handle, e = .bind taskId handle
  · obtain ⟨taskId, handle, rfl⟩ := binds
    cases taken
    exact refusalsCalled_bind called taskId handle
  · have other : ∀ taskId handle, e ≠ .bind taskId handle := fun taskId handle same =>
      binds ⟨taskId, handle, same⟩
    obtain ⟨same, more⟩ := refused_step taken other
    have free : FindsEntry s e := by
      cases e with
      | bind taskId handle => exact absurd rfl (other taskId handle)
      | _ => trivial
    refine iff_of_true (fun handle refused => more ?_) free
    rw [same] at refused
    exact called handle refused

end Refusals

/-- In every run, the cancelled entries have called their handles, and the refused handles were
cancelled exactly as long as every binding finds an entry under its id, or brings a handle that was
cancelled before. -/
theorem refused_handles_cancelled_iff (now : ℚ) (manager : StreamTaskManager H)
    (es : List (Event H)) :
    Always step (fun s => RefusalsCalled s ∧ HandlesCalled s) (initial now manager) es ↔
      Along step FindsEntry (initial now manager) es := by
  have startup : HandlesCalled (initial now manager) := fun taskId info found => by cases found
  have unrefused : RefusalsCalled (initial now manager) := fun handle refused => by cases refused
  refine always_iff_along HandlesCalled.step ?_ startup ⟨unrefused, startup⟩
  intro s e t called kept taken
  rw [and_iff_left (called.step s e t taken)]
  exact refusalsCalled_step kept.1 taken

/-- A tombstone that has expired before the handle comes: the handle is refused and goes on. -/
theorem expired_tombstone_loses_handle :
    ∃ s, runFrom step (initial 0 {} : State ℕ)
        [.register "task" none, .cancelLocal "task", .elapse 1800, .purge, .bind "task" 7] = some s ∧
      7 ∈ s.refused ∧ 7 ∉ s.cancelled := by
  refine ⟨_, rfl, ?_, ?_⟩
  · decide +kernel
  · decide +kernel

end HeyeeAgent.TaskRegistry
