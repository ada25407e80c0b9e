import HeyeeAgent.Machine.Run
import HeyeeAgent.Redis.SortedSet
import HeyeeAgent.StreamQueueLimiter.Types
import Mathlib.Data.Finset.Card
import Mathlib.Data.String.Basic

/-! # The keys of the limiter in Redis and the commands on them

Redis executes one command at a time, and a Lua script is one command. A key that holds an entry
marker disappears when its time to live is over, which is a step of its own here because the
server's clock is not the clients'. Publishing wakes waiters up and changes no key. Scores are
integers: sequence numbers, and deadlines in milliseconds.
-/

namespace HeyeeAgent.StreamQueueLimiter

open Redis

/-- The keys under one prefix; `entries` are the task ids whose entry marker exists. -/
structure RedisState where
  sequence : ℤ := 0
  queue : SortedSet String ℤ := ∅
  entries : Finset String := ∅
  permits : SortedSet String ℤ := ∅

/-- The stale members that the loop of the claim script removes. -/
def removeStale (entries : Finset String) (queue : SortedSet String ℤ) (scanned : List String) :
    SortedSet String ℤ :=
  scanned.foldl (fun queue member => if member ∈ entries then queue else queue.zrem member) queue

/-- `_CLAIM_SCRIPT` up to the rank test. -/
def sweep (r : RedisState) (nowMs : ℤ) (scanLimit : ℕ) : RedisState :=
  { r with
    permits := r.permits.zremrangebyscore nowMs
    queue := removeStale r.entries r.queue (r.queue.zrange scanLimit) }

/-- `_CLAIM_SCRIPT`, with the number it returns. -/
def claimScript (r : RedisState) (taskId permitId : String) (maxConcurrent : ℕ)
    (nowMs leaseUntilMs : ℤ) (scanLimit : ℕ) : RedisState × ℕ :=
  let r := sweep r nowMs scanLimit
  match r.queue.zrank taskId with
  | none => (r, 0)
  | some rank =>
    if maxConcurrent ≤ rank then (r, 0)
    else if maxConcurrent ≤ r.permits.zcard then (r, 0)
    else
      ({ r with
        queue := r.queue.zrem taskId
        entries := r.entries.erase taskId
        permits := r.permits.zadd leaseUntilMs permitId }, 1)

/-- `_ENQUEUE_SCRIPT`: `SET NX` of the entry marker, then a sequence number as score. -/
def enqueueScript (r : RedisState) (taskId : String) : RedisState × ℕ :=
  if taskId ∈ r.entries then (r, 0)
  else
    let score := r.sequence + 1
    ({ r with
      entries := insert taskId r.entries
      sequence := score
      queue := r.queue.zadd score taskId }, 1)

/-- What instances send, and the expiry of a marker by the server. -/
inductive Command where
  | enqueue (taskId : String)
  | claim (taskId permitId : String) (nowMs leaseUntilMs : ℤ)
  /-- `ZADD permits XX CH` -/
  | renew (permitId : String) (leaseUntilMs : ℤ)
  /-- `ZREM permits`, sent by `release` -/
  | release (permitId : String)
  /-- `ZREM queue`, sent when a waiter leaves and by `close` -/
  | removeWaiters (taskIds : List String)
  /-- `DEL` of entry markers -/
  | deleteEntries (taskIds : List String)
  /-- `PUBLISH` on the notify channel; the number of receivers is not modelled -/
  | publish (message : String)
  | expireEntry (taskId : String)
deriving DecidableEq

/-- `self._max_concurrent + 16`, the last index of the scan. -/
def scanLimit (maxConcurrent : ℕ) : ℕ := maxConcurrent + 16

/-- One command, with its reply. -/
def execute (maxConcurrent : ℕ) (r : RedisState) : Command → RedisState × ℕ
  | .enqueue taskId => enqueueScript r taskId
  | .claim taskId permitId nowMs leaseUntilMs =>
    claimScript r taskId permitId maxConcurrent nowMs leaseUntilMs (scanLimit maxConcurrent)
  | .renew permitId leaseUntilMs =>
    ({ r with permits := r.permits.zaddXX leaseUntilMs permitId },
      if ∃ k ∈ r.permits.entries, k.1 = permitId ∧ k.2 ≠ leaseUntilMs then 1 else 0)
  | .release permitId =>
    ({ r with permits := r.permits.zrem permitId }, if permitId ∈ r.permits then 1 else 0)
  | .removeWaiters taskIds =>
    ({ r with queue := taskIds.foldl SortedSet.zrem r.queue },
      (taskIds.dedup.filter (· ∈ r.queue)).length)
  | .deleteEntries taskIds =>
    ({ r with entries := r.entries \ taskIds.toFinset }, (r.entries ∩ taskIds.toFinset).card)
  | .publish _ => (r, 0)
  | .expireEntry taskId => ({ r with entries := r.entries.erase taskId }, 0)

section Sweep

variable {r : RedisState} {nowMs : ℤ} {scan : ℕ}

theorem mem_entries_removeStale {entries : Finset String} {queue : SortedSet String ℤ}
    {scanned : List String} {e : String × ℤ} :
    e ∈ (removeStale entries queue scanned).entries ↔
      e ∈ queue.entries ∧ (e.1 ∈ scanned → e.1 ∈ entries) := by
  induction scanned generalizing queue with
  | nil => simp [removeStale]
  | cons member scanned ih =>
    have unfolded : removeStale entries queue (member :: scanned) =
        removeStale entries (if member ∈ entries then queue else queue.zrem member) scanned := rfl
    rw [unfolded, ih]
    split_ifs with marked
    · constructor
      · rintro ⟨old, kept⟩
        refine ⟨old, fun listed => ?_⟩
        rcases List.mem_cons.mp listed with same | later
        · exact same ▸ marked
        · exact kept later
      · rintro ⟨old, kept⟩
        exact ⟨old, fun listed => kept (List.mem_cons_of_mem _ listed)⟩
    · rw [SortedSet.mem_entries_zrem]
      constructor
      · rintro ⟨⟨old, other⟩, kept⟩
        refine ⟨old, fun listed => ?_⟩
        rcases List.mem_cons.mp listed with same | later
        · exact absurd same other
        · exact kept later
      · rintro ⟨old, kept⟩
        refine ⟨⟨old, fun same => ?_⟩, fun listed => kept (List.mem_cons_of_mem _ listed)⟩
        exact marked (same ▸ kept (by simp [same]))

/-- Sweeping keeps every queue entry outside the scan window, and inside it those with a marker. -/
theorem mem_sweep_queue {e : String × ℤ} :
    e ∈ (sweep r nowMs scan).queue.entries ↔
      e ∈ r.queue.entries ∧ (e.1 ∈ r.queue.zrange scan → e.1 ∈ r.entries) :=
  mem_entries_removeStale

theorem sweep_zcard_le : (sweep r nowMs scan).permits.zcard ≤ r.permits.zcard :=
  r.permits.zcard_zremrangebyscore_le nowMs

end Sweep

/-- The two tests of the claim script, read after the sweep. -/
def Grants (r : RedisState) (taskId : String) (maxConcurrent : ℕ) (nowMs : ℤ) (scan : ℕ) : Prop :=
  (∃ rank ∈ (sweep r nowMs scan).queue.zrank taskId, rank < maxConcurrent) ∧
    (sweep r nowMs scan).permits.zcard < maxConcurrent

instance (r : RedisState) (taskId : String) (maxConcurrent : ℕ) (nowMs : ℤ) (scan : ℕ) :
    Decidable (Grants r taskId maxConcurrent nowMs scan) :=
  match found : (sweep r nowMs scan).queue.zrank taskId with
  | none => isFalse fun granted => by
    obtain ⟨⟨rank, member, -⟩, -⟩ := granted
    simp [found] at member
  | some rank =>
    decidable_of_iff (rank < maxConcurrent ∧ (sweep r nowMs scan).permits.zcard < maxConcurrent)
      (by simp [Grants, found])

/-- What a granted claim leaves. -/
def claimed (r : RedisState) (taskId permitId : String) (nowMs leaseUntilMs : ℤ) (scan : ℕ) :
    RedisState :=
  { sweep r nowMs scan with
    queue := (sweep r nowMs scan).queue.zrem taskId
    entries := r.entries.erase taskId
    permits := (sweep r nowMs scan).permits.zadd leaseUntilMs permitId }

/-- The claim script either grants or only sweeps. -/
theorem claimScript_cases (r : RedisState) (taskId permitId : String) (n : ℕ)
    (nowMs leaseUntilMs : ℤ) (scan : ℕ) :
    Grants r taskId n nowMs scan ∧ claimScript r taskId permitId n nowMs leaseUntilMs scan =
        (claimed r taskId permitId nowMs leaseUntilMs scan, 1) ∨
      ¬ Grants r taskId n nowMs scan ∧ claimScript r taskId permitId n nowMs leaseUntilMs scan =
        (sweep r nowMs scan, 0) := by
  unfold claimScript Grants
  dsimp only
  cases found : (sweep r nowMs scan).queue.zrank taskId with
  | none => exact .inr ⟨by simp, rfl⟩
  | some rank =>
    dsimp only
    split_ifs with outside full
    · exact .inr ⟨by simp; omega, rfl⟩
    · exact .inr ⟨by simp; omega, rfl⟩
    · exact .inl ⟨⟨⟨rank, rfl, by omega⟩, by omega⟩, rfl⟩

/-- When a claim is executed with reply 1, and what it leaves. -/
theorem execute_claim_one {r after : RedisState} {taskId permitId : String} {n : ℕ}
    {nowMs leaseUntilMs : ℤ} :
    execute n r (.claim taskId permitId nowMs leaseUntilMs) = (after, 1) ↔
      Grants r taskId n nowMs (scanLimit n) ∧
        after = claimed r taskId permitId nowMs leaseUntilMs (scanLimit n) := by
  change claimScript r taskId permitId n nowMs leaseUntilMs (scanLimit n) = _ ↔ _
  rcases claimScript_cases r taskId permitId n nowMs leaseUntilMs (scanLimit n) with
    ⟨granted, result⟩ | ⟨refused, result⟩
  · simp [result, granted, eq_comm]
  · simp [result, refused]

/-- The task that is granted was queued. -/
theorem Grants.queued {r : RedisState} {taskId : String} {n : ℕ} {nowMs : ℤ} {scan : ℕ}
    (granted : Grants r taskId n nowMs scan) :
    ∃ k, (taskId, k) ∈ (sweep r nowMs scan).queue.entries := by
  obtain ⟨⟨rank, found, -⟩, -⟩ := granted
  exact SortedSet.mem_iff.mp (SortedSet.mem_of_zrank found)

end HeyeeAgent.StreamQueueLimiter
