import HeyeeAgent.Python.Text
import Mathlib.Data.List.AList
import Mathlib.Algebra.Order.Ring.Rat
import Mathlib.Data.Rat.Defs
import Mathlib.Tactic.Linarith

/-! # The registry of running stream tasks

The local dictionary of `StreamTaskManager` with its expiring tombstones. The Redis backend is
awaited between the segments of a method, so its answers are arguments of the segment that
follows. Calling `cancel()` on a bound handle is an effect outside the registry: a segment returns
the handle it calls.
-/

namespace HeyeeAgent

structure StreamTaskInfo (H : Type*) where
  ownerId : Option String := none
  cancelled : Bool := false
  handle : Option H := none
  expiresAt : Option ℚ := none

structure StreamTaskManager (H : Type*) where
  tasks : AList fun _ : String => StreamTaskInfo H := ∅
  cancelledTtlSeconds : ℚ := 1800
  maxTasks : ℕ := 10000
  /-- a backend is configured and was reachable at startup -/
  distributedEnabled : Bool := false

namespace StreamTaskManager

variable {H : Type*}

def Expired (now : ℚ) (info : StreamTaskInfo H) : Prop :=
  ∃ expiresAt ∈ info.expiresAt, expiresAt ≤ now

instance (now : ℚ) (info : StreamTaskInfo H) : Decidable (Expired now info) :=
  match h : info.expiresAt with
  | none => isFalse (by simp [Expired, h])
  | some expiresAt => decidable_of_iff (expiresAt ≤ now) (by simp [Expired, h])

/-- `_purge_expired`: collect the expired ids, then pop each of them. -/
def purgeExpired (m : StreamTaskManager H) (now : ℚ) : StreamTaskManager H :=
  let expired := (m.tasks.entries.filter fun entry => decide (Expired now entry.2)).map Sigma.fst
  { m with tasks := expired.foldl (fun tasks taskId => tasks.erase taskId) m.tasks }

/-- `register` up to the first await of the backend. -/
def register (m : StreamTaskManager H) (now : ℚ) (taskId : String) (ownerId : Option String) :
    StreamTaskManager H × Bool :=
  let m := m.purgeExpired now
  if taskId ∈ m.tasks ∨ m.maxTasks ≤ m.tasks.entries.length then (m, false)
  else
    let normalizedOwner := (ownerId.filter (· ≠ "")).map Python.strip
    ({ m with tasks := m.tasks.insert taskId { ownerId := normalizedOwner } }, true)

/-- `cancel_local`, with the handle that is cancelled. -/
def cancelLocal (m : StreamTaskManager H) (now : ℚ) (taskId : String) :
    StreamTaskManager H × Bool × Option H :=
  let m := m.purgeExpired now
  match m.tasks.lookup taskId with
  | none => (m, false, none)
  | some info =>
    if info.cancelled then (m, false, none)
    else
      let info := { info with cancelled := true, expiresAt := some (now + m.cancelledTtlSeconds) }
      ({ m with tasks := m.tasks.insert taskId info }, true, info.handle)

/-- The rest of `register` with a backend, once the owner is stored and the marker has been read. -/
def registerAnswered (m : StreamTaskManager H) (now : ℚ) (taskId : String)
    (ownerStored remotelyCancelled : Bool) : StreamTaskManager H × Bool :=
  if !ownerStored then ({ m with tasks := m.tasks.erase taskId }, false)
  else if remotelyCancelled then ((m.cancelLocal now taskId).1, true)
  else (m, true)

/-- `cancel` after the backend has answered; without one both answers are false. -/
def cancel (m : StreamTaskManager H) (now : ℚ) (taskId : String) (persisted published : Bool) :
    StreamTaskManager H × Bool × Option H :=
  let (m, cancelled, handle) := m.cancelLocal now taskId
  (m, cancelled || m.distributedEnabled && (persisted || published), handle)

/-- `bind`, with the handle that is cancelled. -/
def bind (m : StreamTaskManager H) (taskId : String) (handle : H) :
    StreamTaskManager H × Bool × Option H :=
  match m.tasks.lookup taskId with
  | none => (m, false, none)
  | some info =>
    let m := { m with tasks := m.tasks.insert taskId { info with handle := some handle } }
    if info.cancelled then (m, false, some handle) else (m, true, none)

theorem bind_found {m : StreamTaskManager H} {taskId : String} {info : StreamTaskInfo H}
    (found : m.tasks.lookup taskId = some info) (handle : H) :
    m.bind taskId handle =
      ({ m with tasks := m.tasks.insert taskId { info with handle := some handle } },
        !info.cancelled, if info.cancelled then some handle else none) := by
  unfold bind
  rw [found]
  cases cancelled : info.cancelled <;> simp [cancelled]

/-- Purging takes away the expired entries and nothing else. -/
theorem lookup_purgeExpired (m : StreamTaskManager H) (now : ℚ) (taskId : String) :
    (m.purgeExpired now).tasks.lookup taskId =
      (m.tasks.lookup taskId).filter fun info => ¬ Expired now info := by
  have erased (ids : List String) : ∀ tasks : AList fun _ : String => StreamTaskInfo H,
      (ids.foldl (fun tasks id => tasks.erase id) tasks).lookup taskId =
        if taskId ∈ ids then none else tasks.lookup taskId := by
    induction ids with
    | nil => exact fun tasks => by simp
    | cons id ids ih =>
      intro tasks
      rw [List.foldl_cons, ih]
      by_cases same : taskId = id
      · subst same
        simp [AList.lookup_erase]
      · simp [same, AList.lookup_erase_ne same]
  have listed : taskId ∈ (m.tasks.entries.filter fun entry =>
      decide (Expired now entry.2)).map Sigma.fst ↔
        ∃ info ∈ m.tasks.lookup taskId, Expired now info := by
    simp only [List.mem_map, List.mem_filter, decide_eq_true_eq]
    constructor
    · rintro ⟨⟨id, info⟩, ⟨member, expired⟩, rfl⟩
      exact ⟨info, AList.mem_lookup_iff.mpr member, expired⟩
    · rintro ⟨info, member, expired⟩
      exact ⟨⟨taskId, info⟩, ⟨AList.mem_lookup_iff.mp member, expired⟩, rfl⟩
  refine (erased _ m.tasks).trans ?_
  rw [if_congr listed rfl rfl]
  cases found : m.tasks.lookup taskId with
  | none => simp
  | some info => by_cases expired : Expired now info <;> simp [expired, Option.filter]

/-- The registry holds an unexpired entry that has not been cancelled. -/
def Live (m : StreamTaskManager H) (now : ℚ) (taskId : String) : Prop :=
  ∃ info ∈ (m.purgeExpired now).tasks.lookup taskId, info.cancelled = false

theorem cancelLocal_iff {m : StreamTaskManager H} {now : ℚ} {taskId : String} :
    (m.cancelLocal now taskId).2.1 = true ↔ m.Live now taskId := by
  unfold cancelLocal Live
  dsimp only
  cases (m.purgeExpired now).tasks.lookup taskId with
  | none => simp
  | some info => by_cases already : info.cancelled = true <;> simp [already]

/-- `cancel` succeeds when a live entry is there, or when the backend took the marker or the
broadcast. -/
theorem cancel_iff {m : StreamTaskManager H} {now : ℚ} {taskId : String}
    {persisted published : Bool} :
    (m.cancel now taskId persisted published).2.1 = true ↔
      m.Live now taskId ∨ m.distributedEnabled = true ∧ (persisted = true ∨ published = true) := by
  have same : (m.cancelLocal now taskId).1.distributedEnabled = m.distributedEnabled := by
    unfold cancelLocal
    dsimp only
    split
    · rfl
    · split_ifs <;> rfl
  simp [cancel, ← cancelLocal_iff, same]

def isCancelled (m : StreamTaskManager H) (now : ℚ) (taskId : String) : Bool :=
  ((m.purgeExpired now).tasks.lookup taskId).any (·.cancelled)

/-- `finalize` up to the first await of the backend. -/
def finalize (m : StreamTaskManager H) (now : ℚ) (taskId : String) : StreamTaskManager H :=
  let m := m.purgeExpired now
  match m.tasks.lookup taskId with
  | none => m
  | some info =>
    if info.cancelled then
      let info := { info with handle := none, expiresAt := some (now + m.cancelledTtlSeconds) }
      { m with tasks := m.tasks.insert taskId info }
    else { m with tasks := m.tasks.erase taskId }

/-- An entry that is not cancelled does not expire. -/
def Unexpiring (info : StreamTaskInfo H) : Prop := info.cancelled = false → info.expiresAt = none

theorem lookup_register (m : StreamTaskManager H) (now : ℚ) (taskId : String)
    (ownerId : Option String) (free : (m.register now taskId ownerId).2 = true) :
    ∀ info ∈ (m.register now taskId ownerId).1.tasks.lookup taskId, Unexpiring info := by
  unfold register at free ⊢
  dsimp only at free ⊢
  split_ifs at free ⊢ with occupied
  intro info found
  rw [AList.lookup_insert, Option.mem_some_iff] at found
  subst found
  exact fun _ => rfl

theorem lookup_bind (m : StreamTaskManager H) (taskId : String) (handle : H)
    (unexpiring : ∀ info ∈ m.tasks.lookup taskId, Unexpiring info) :
    ∀ info ∈ (m.bind taskId handle).1.tasks.lookup taskId, Unexpiring info := by
  intro info found
  unfold bind at found
  cases entry : m.tasks.lookup taskId with
  | none => simp [entry] at found
  | some info' =>
    have bound : info = { info' with handle := some handle } := by
      rw [entry] at found
      dsimp only at found
      split_ifs at found <;> simpa [AList.lookup_insert, eq_comm] using found
    subst bound
    exact unexpiring info' entry

/-- What `finalize` leaves under its own id. -/
theorem lookup_finalize (m : StreamTaskManager H) (now : ℚ) (taskId : String) :
    ∀ info ∈ (m.finalize now taskId).tasks.lookup taskId,
      info.cancelled = true ∧ info.expiresAt.isSome = true := by
  intro info found
  unfold finalize at found
  dsimp only at found
  cases entry : (m.purgeExpired now).tasks.lookup taskId with
  | none => simp [entry] at found
  | some info' =>
    rw [entry] at found
    dsimp only at found
    split_ifs at found with cancelled
    · rw [AList.lookup_insert, Option.mem_some_iff] at found
      subst found
      exact ⟨cancelled, rfl⟩
    · simp [AList.lookup_erase] at found

section Carries

variable {m : StreamTaskManager H} {now : ℚ} {taskId taskId' : String}

/-- The unexpired entry under the id is still there, and still cancelled if it has been. -/
def Carries (now : ℚ) (m m' : StreamTaskManager H) (taskId : String) : Prop :=
  ∀ info ∈ m.tasks.lookup taskId, ¬ Expired now info →
    ∃ info' ∈ m'.tasks.lookup taskId, ¬ Expired now info' ∧
      (info.cancelled = true → info'.cancelled = true)

theorem lookup_purge_live {info : StreamTaskInfo H} (found : m.tasks.lookup taskId = some info)
    (fresh : ¬ Expired now info) : (m.purgeExpired now).tasks.lookup taskId = some info := by
  rw [lookup_purgeExpired, found]
  simp [Option.filter, fresh]

theorem carries_purge : Carries now m (m.purgeExpired now) taskId := by
  intro info found fresh
  exact ⟨info, lookup_purge_live found fresh, fresh, id⟩

theorem isCancelled_iff : m.isCancelled now taskId = true ↔
    ∃ info ∈ m.tasks.lookup taskId, ¬ Expired now info ∧ info.cancelled = true := by
  unfold isCancelled
  rw [lookup_purgeExpired]
  cases m.tasks.lookup taskId with
  | none => simp
  | some info => by_cases expired : Expired now info <;> simp [Option.filter, expired]

/-- A registration takes a free id, and leaves the others alone. -/
theorem carries_register {ownerId : Option String} :
    Carries now m (m.register now taskId ownerId).1 taskId' := by
  intro info found fresh
  have kept := lookup_purge_live found fresh
  unfold register
  dsimp only
  split_ifs with occupied
  · exact ⟨info, kept, fresh, id⟩
  · have other : taskId' ≠ taskId := by
      rintro rfl
      apply occupied
      exact .inl (AList.lookup_isSome.mp (by simp [kept]))
    exact ⟨info, (AList.lookup_insert_ne other).trans kept, fresh, id⟩

/-- A registration that succeeds has found no unexpired entry, and leaves one. -/
theorem register_free {ownerId : Option String}
    (free : (m.register now taskId ownerId).2 = true) :
    (¬ ∃ info ∈ m.tasks.lookup taskId, ¬ Expired now info) ∧
      ∃ info ∈ (m.register now taskId ownerId).1.tasks.lookup taskId, ¬ Expired now info := by
  unfold register at free ⊢
  dsimp only at free ⊢
  split_ifs at free ⊢ with occupied
  constructor
  · rintro ⟨info, found, fresh⟩
    have kept := lookup_purge_live found fresh
    apply occupied
    exact .inl (AList.lookup_isSome.mp (by simp [kept]))
  · refine ⟨_, AList.lookup_insert _, ?_⟩
    rintro ⟨expiresAt, set, -⟩
    cases set

/-- A tombstone is set for the future. -/
theorem carries_cancelLocal (ttl : 0 < m.cancelledTtlSeconds) :
    Carries now m (m.cancelLocal now taskId).1 taskId' := by
  intro info found fresh
  have kept := lookup_purge_live found fresh
  unfold cancelLocal
  dsimp only
  cases entry : (m.purgeExpired now).tasks.lookup taskId with
  | none => exact ⟨info, kept, fresh, id⟩
  | some info' =>
    dsimp only
    split_ifs with already
    · exact ⟨info, kept, fresh, id⟩
    · by_cases same : taskId' = taskId
      · subst same
        refine ⟨_, AList.lookup_insert _, ?_, fun _ => rfl⟩
        rintro ⟨expiresAt, set, passed⟩
        cases set
        have later : now < now + m.cancelledTtlSeconds := by linarith
        exact absurd passed (not_le.mpr later)
      · exact ⟨info, (AList.lookup_insert_ne same).trans kept, fresh, id⟩

/-- A stop reaches an unexpired entry. -/
theorem isCancelled_cancelLocal (ttl : 0 < m.cancelledTtlSeconds)
    (there : ∃ info ∈ m.tasks.lookup taskId, ¬ Expired now info) :
    (m.cancelLocal now taskId).1.isCancelled now taskId = true := by
  obtain ⟨info, found, fresh⟩ := there
  have kept := lookup_purge_live found fresh
  rw [isCancelled_iff]
  unfold cancelLocal
  dsimp only
  rw [kept]
  dsimp only
  split_ifs with already
  · exact ⟨info, kept, fresh, already⟩
  · refine ⟨_, AList.lookup_insert _, ?_, rfl⟩
    rintro ⟨expiresAt, set, passed⟩
    cases set
    have later : now < now + m.cancelledTtlSeconds := by linarith
    exact absurd passed (not_le.mpr later)

theorem carries_bind {handle : H} : Carries now m (m.bind taskId handle).1 taskId' := by
  intro info found fresh
  by_cases same : taskId' = taskId
  · subst same
    rw [bind_found found]
    exact ⟨_, AList.lookup_insert _, fresh, id⟩
  · refine ⟨info, ?_, fresh, id⟩
    unfold bind
    split
    · exact found
    · dsimp only
      split_ifs <;> exact (AList.lookup_insert_ne same).trans found

theorem carries_erase (other : taskId' ≠ taskId) :
    Carries now m { m with tasks := m.tasks.erase taskId } taskId' := by
  intro info found fresh
  exact ⟨info, (AList.lookup_erase_ne other).trans found, fresh, id⟩

theorem carries_finalize (other : taskId' ≠ taskId) :
    Carries now m (m.finalize now taskId) taskId' := by
  intro info found fresh
  have kept := lookup_purge_live found fresh
  refine ⟨info, ?_, fresh, id⟩
  unfold finalize
  dsimp only
  split
  · exact kept
  · split_ifs
    · exact (AList.lookup_insert_ne other).trans kept
    · exact (AList.lookup_erase_ne other).trans kept

@[simp] theorem ttl_purgeExpired :
    (m.purgeExpired now).cancelledTtlSeconds = m.cancelledTtlSeconds := rfl

@[simp] theorem ttl_register {ownerId : Option String} :
    (m.register now taskId ownerId).1.cancelledTtlSeconds = m.cancelledTtlSeconds := by
  unfold register
  dsimp only
  split_ifs <;> rfl

@[simp] theorem ttl_cancelLocal :
    (m.cancelLocal now taskId).1.cancelledTtlSeconds = m.cancelledTtlSeconds := by
  unfold cancelLocal
  dsimp only
  split
  · rfl
  · split_ifs <;> rfl

@[simp] theorem ttl_bind {handle : H} :
    (m.bind taskId handle).1.cancelledTtlSeconds = m.cancelledTtlSeconds := by
  unfold bind
  split
  · rfl
  · dsimp only
    split_ifs <;> rfl

@[simp] theorem ttl_finalize :
    (m.finalize now taskId).cancelledTtlSeconds = m.cancelledTtlSeconds := by
  unfold finalize
  dsimp only
  split
  · rfl
  · split_ifs <;> rfl

end Carries

/-- The answer of `is_owned_by`; `remoteOwner` is the owner that the backend has stored. -/
def isOwnedBy (m : StreamTaskManager H) (now : ℚ) (taskId ownerId : String)
    (remoteOwner : Option String) : Bool :=
  match (m.purgeExpired now).tasks.lookup taskId with
  | some info => info.ownerId.all (· == Python.strip ownerId)
  | none => m.distributedEnabled && remoteOwner == some (Python.strip ownerId)

end StreamTaskManager

end HeyeeAgent
