import HeyeeAgent.StreamQueueLimiter.RedisScripts
import Mathlib.Algebra.Order.Floor.Ring
import Mathlib.Data.Rat.Floor
import Mathlib.Tactic.Linarith
import Mathlib.Tactic.NormNum

/-! # The lease of a permit and its renewals

All instances read one clock, and a command is executed at the time it is sent. The stream that was
granted a permit renews it from `_maintain_queue_lease`, each time exactly when its sleep is over: the
clock does not pass a renewal that is due. Deadlines are whole milliseconds, and a claim removes a
permit already in the millisecond of its deadline.
-/

namespace HeyeeAgent.StreamQueueLimiter

open Machine Redis

namespace Config

/-- What `Settings` accepts: the bounds of the fields, and `validate_stream_queue_lease`. -/
structure Accepted (cfg : Config) : Prop where
  max_concurrent : 1 ≤ cfg.maxConcurrent ∧ cfg.maxConcurrent ≤ 1000
  max_wait : 0 < cfg.maxWaitSeconds ∧ cfg.maxWaitSeconds ≤ 3600
  lease : 0 < cfg.leaseSeconds ∧ cfg.leaseSeconds ≤ 86400
  outlasts : ¬ (cfg.enabled = true ∧ cfg.leaseSeconds ≤ cfg.maxWaitSeconds * 3)

/-- `interval_seconds` of `_maintain_queue_lease` -/
def intervalSeconds (cfg : Config) : ℚ := max 1 (min (cfg.leaseSeconds / 3) 60)

/-- `int(seconds * 1000)` of a time after the epoch -/
def toMs (seconds : ℚ) : ℤ := ⌊seconds * 1000⌋

/-- `_lease_deadline_ms` at a time -/
def leaseDeadlineMs (cfg : Config) (now : ℚ) : ℤ := toMs (now + cfg.leaseSeconds)

end Config

namespace PermitLease

open Config

/-- A stream with its permit, and the time of its next renewal; `none` once the lease was lost. -/
structure Lease where
  permitId : String
  renewAt : Option ℚ
deriving DecidableEq

/-- `leases` are the permits between their grant and their release, `issued` the permits that were
granted so far. -/
structure State where
  redis : RedisState
  now : ℚ
  leases : List Lease := []
  issued : List String

inductive Event where
  | elapse (seconds : ℚ)
  /-- of any instance; `served` unless the call that sent it is gone -/
  | claim (taskId permitId : String) (served : Bool)
  | renew (permitId : String)
  | release (permitId : String)
  /-- a command on the queue and the entry markers -/
  | queue (command : Command)

/-- The commands that no permit is in. -/
def onQueue : Command → Bool
  | .enqueue _ | .removeWaiters _ | .deleteEntries _ | .publish _ | .expireEntry _ => true
  | .claim .. | .renew .. | .release _ => false

def step (cfg : Config) (s : State) : Event → Option State
  | .elapse seconds =>
    if 0 ≤ seconds ∧ ∀ lease ∈ s.leases, ∀ renewAt ∈ lease.renewAt, s.now + seconds ≤ renewAt then
      some { s with now := s.now + seconds }
    else none
  | .claim taskId permitId served =>
    -- `uuid4` never repeats a value, and a disabled limiter claims nothing
    if !cfg.enabled || decide (permitId ∈ s.issued) then none
    else
      let (redis, reply) := execute cfg.maxConcurrent s.redis
        (.claim taskId permitId (toMs s.now) (cfg.leaseDeadlineMs s.now))
      if reply = 1 then
        let lease : Lease := ⟨permitId, some (s.now + cfg.intervalSeconds)⟩
        some { s with
          redis
          leases := if served then lease :: s.leases else s.leases
          issued := permitId :: s.issued }
      else some { s with redis }
  | .renew permitId =>
    if (⟨permitId, some s.now⟩ : Lease) ∈ s.leases then
      let (redis, reply) := execute cfg.maxConcurrent s.redis
        (.renew permitId (cfg.leaseDeadlineMs s.now))
      let renewAt := if reply = 1 then some (s.now + cfg.intervalSeconds) else none
      some { s with
        redis
        leases := s.leases.map fun lease =>
          if lease.permitId = permitId then { lease with renewAt } else lease }
    else none
  | .release permitId =>
    some { s with
      redis := (execute cfg.maxConcurrent s.redis (.release permitId)).1
      leases := s.leases.filter fun lease => lease.permitId ≠ permitId }
  | .queue command =>
    if onQueue command then
      some { s with redis := (execute cfg.maxConcurrent s.redis command).1 }
    else none

/-- No stream is running; the server may hold the permits of instances that are gone. -/
def initial (now : ℚ) (redis : RedisState) : State where
  redis := redis
  now := now
  issued := redis.permits.entries.map Prod.fst

/-- Every stream has its permit. -/
def Kept (s : State) : Prop := ∀ lease ∈ s.leases, lease.permitId ∈ s.redis.permits

section Milliseconds

/-- A millisecond later is a later millisecond. -/
theorem toMs_lt {a b : ℚ} (later : a + 1 / 1000 ≤ b) : toMs a < toMs b := by
  unfold toMs
  rw [Int.floor_lt]
  have below := Int.lt_floor_add_one (b * 1000)
  have above : a * 1000 + 1 ≤ b * 1000 := by linarith
  linarith

theorem intervalSeconds_pos (cfg : Config) : 1 ≤ cfg.intervalSeconds := le_max_left _ _

/-- The renewal comes in time exactly if the lease is longer than the shortest sleep. -/
theorem intervalSeconds_lt_iff (cfg : Config) :
    cfg.intervalSeconds + 1 / 1000 ≤ cfg.leaseSeconds ↔ 1001 / 1000 ≤ cfg.leaseSeconds := by
  unfold intervalSeconds
  constructor
  · intro covered
    have least := le_max_left (1 : ℚ) (min (cfg.leaseSeconds / 3) 60)
    linarith
  · intro long
    rcases max_cases (1 : ℚ) (min (cfg.leaseSeconds / 3) 60) with ⟨same, -⟩ | ⟨same, larger⟩
    · rw [same]
      linarith
    · rw [same]
      have third := min_le_left (cfg.leaseSeconds / 3) 60
      linarith

end Milliseconds

section Renewals

variable {cfg : Config} {s t : State}

/-- The next renewal is to come, and the permit has the deadline that the last one set. -/
def Held (cfg : Config) (s : State) (lease : Lease) : Prop :=
  ∃ renewAt, lease.renewAt = some renewAt ∧ s.now ≤ renewAt ∧
    (lease.permitId, cfg.leaseDeadlineMs (renewAt - cfg.intervalSeconds)) ∈ s.redis.permits.entries

structure Inv (cfg : Config) (s : State) : Prop where
  held : ∀ lease ∈ s.leases, Held cfg s lease
  issued : ∀ lease ∈ s.leases, lease.permitId ∈ s.issued

/-- A renewal sets a later deadline. -/
theorem leaseDeadlineMs_lt (cfg : Config) (now : ℚ) :
    cfg.leaseDeadlineMs (now - cfg.intervalSeconds) < cfg.leaseDeadlineMs now := by
  apply toMs_lt
  have pos := intervalSeconds_pos cfg
  linarith

/-- Until its next renewal, a deadline is in the future. -/
theorem toMs_lt_deadline (covered : cfg.intervalSeconds + 1 / 1000 ≤ cfg.leaseSeconds)
    {now renewAt : ℚ} (due : now ≤ renewAt) :
    toMs now < cfg.leaseDeadlineMs (renewAt - cfg.intervalSeconds) := by
  apply toMs_lt
  linarith

theorem Inv.kept (inv : Inv cfg s) : Kept s := by
  intro lease member
  obtain ⟨renewAt, -, -, entry⟩ := inv.held lease member
  exact SortedSet.mem_iff.mpr ⟨_, entry⟩

/-- A sweep takes no permit that is renewed in time. -/
theorem Held.sweep (covered : cfg.intervalSeconds + 1 / 1000 ≤ cfg.leaseSeconds) {lease : Lease}
    (held : Held cfg s lease) (scan : ℕ) :
    Held cfg { s with redis := sweep s.redis (toMs s.now) scan } lease := by
  obtain ⟨renewAt, next, due, entry⟩ := held
  exact ⟨renewAt, next, due,
    SortedSet.mem_entries_zremrangebyscore.mpr ⟨entry, toMs_lt_deadline covered due⟩⟩

theorem Held.zadd {lease : Lease} (held : Held cfg s lease) {permitId : String} (deadline : ℤ)
    (other : lease.permitId ≠ permitId) {redis : RedisState}
    (permits : redis.permits = s.redis.permits.zadd deadline permitId) :
    Held cfg { s with redis } lease := by
  obtain ⟨renewAt, next, due, entry⟩ := held
  refine ⟨renewAt, next, due, ?_⟩
  change _ ∈ redis.permits.entries
  rw [permits, SortedSet.mem_entries_zadd]
  exact .inr ⟨entry, other⟩

/-- What a claim does to the streams and the permits. -/
theorem claim_cases {taskId permitId : String} {served : Bool}
    (taken : step cfg s (.claim taskId permitId served) = some t) :
    t = { s with redis := sweep s.redis (toMs s.now) (scanLimit cfg.maxConcurrent) } ∨
      permitId ∉ s.issued ∧
        t = { s with
          redis := claimed s.redis taskId permitId (toMs s.now) (cfg.leaseDeadlineMs s.now)
            (scanLimit cfg.maxConcurrent)
          leases := if served then
              ⟨permitId, some (s.now + cfg.intervalSeconds)⟩ :: s.leases else s.leases
          issued := permitId :: s.issued } := by
  simp only [step] at taken
  split at taken
  · cases taken
  · next unclaimed =>
    rw [Bool.or_eq_true, not_or, decide_eq_true_eq] at unclaimed
    rcases claimScript_cases s.redis taskId permitId cfg.maxConcurrent (toMs s.now)
        (cfg.leaseDeadlineMs s.now) (scanLimit cfg.maxConcurrent) with ⟨-, result⟩ | ⟨-, result⟩
    · simp only [execute, result, if_true] at taken
      cases taken
      exact .inr ⟨unclaimed.2, rfl⟩
    · simp only [execute, result] at taken
      cases taken
      exact .inl rfl

theorem enabled_of_claim {taskId permitId : String} {served : Bool}
    (taken : step cfg s (.claim taskId permitId served) = some t) : cfg.enabled = true := by
  simp only [step] at taken
  split at taken
  · cases taken
  · next unclaimed =>
    rw [Bool.or_eq_true, not_or, Bool.not_eq_true', Bool.not_eq_false] at unclaimed
    exact unclaimed.1

theorem inv_claim (covered : cfg.intervalSeconds + 1 / 1000 ≤ cfg.leaseSeconds) (inv : Inv cfg s)
    {taskId permitId : String} {served : Bool}
    (taken : step cfg s (.claim taskId permitId served) = some t) : Inv cfg t := by
  rcases claim_cases taken with rfl | ⟨fresh, rfl⟩
  · exact ⟨fun lease member => (inv.held lease member).sweep covered _, inv.issued⟩
  · have others : ∀ lease ∈ s.leases, lease.permitId ≠ permitId := by
      rintro lease member rfl
      exact fresh (inv.issued lease member)
    have kept : ∀ lease ∈ s.leases, Held cfg { s with
        redis := claimed s.redis taskId permitId (toMs s.now) (cfg.leaseDeadlineMs s.now)
          (scanLimit cfg.maxConcurrent) } lease := fun lease member =>
      ((inv.held lease member).sweep covered _).zadd _ (others lease member) rfl
    have new : Held cfg { s with
        redis := claimed s.redis taskId permitId (toMs s.now) (cfg.leaseDeadlineMs s.now)
          (scanLimit cfg.maxConcurrent) } ⟨permitId, some (s.now + cfg.intervalSeconds)⟩ := by
      have pos := intervalSeconds_pos cfg
      refine ⟨_, rfl, by linarith, ?_⟩
      rw [add_sub_cancel_right]
      exact SortedSet.mem_entries_zadd.mpr (.inl rfl)
    constructor
    · intro lease member
      dsimp only at member
      split_ifs at member
      · rcases List.mem_cons.mp member with rfl | old
        · exact new
        · exact kept lease old
      · exact kept lease member
    · intro lease member
      dsimp only at member
      split_ifs at member
      · rcases List.mem_cons.mp member with rfl | old
        · exact List.mem_cons_self
        · exact List.mem_cons_of_mem _ (inv.issued lease old)
      · exact List.mem_cons_of_mem _ (inv.issued lease member)

/-- A renewal that is due finds its permit, and moves the deadline. -/
theorem inv_renew (inv : Inv cfg s) {permitId : String}
    (taken : step cfg s (.renew permitId) = some t) : Inv cfg t := by
  simp only [step] at taken
  split at taken
  · next due =>
    obtain ⟨renewAt, same, -, entry⟩ := inv.held _ due
    obtain rfl : s.now = renewAt := Option.some_inj.mp same
    have present : permitId ∈ s.redis.permits := SortedSet.mem_iff.mpr ⟨_, entry⟩
    have moved : ∃ k ∈ s.redis.permits.entries,
        k.1 = permitId ∧ k.2 ≠ cfg.leaseDeadlineMs s.now :=
      ⟨_, entry, rfl, (leaseDeadlineMs_lt cfg s.now).ne⟩
    simp only [execute, if_pos moved, if_true] at taken
    cases taken
    constructor
    · intro lease member
      obtain ⟨old, known, rfl⟩ := List.mem_map.mp member
      split_ifs with own
      · have pos := intervalSeconds_pos cfg
        refine ⟨_, rfl, by dsimp only; linarith, ?_⟩
        dsimp only
        rw [add_sub_cancel_right, SortedSet.zaddXX, if_pos present, own]
        exact SortedSet.mem_entries_zadd.mpr (.inl rfl)
      · refine (inv.held old known).zadd (cfg.leaseDeadlineMs s.now) own ?_
        exact if_pos present
    · intro lease member
      obtain ⟨old, known, rfl⟩ := List.mem_map.mp member
      split_ifs
      · exact inv.issued old known
      · exact inv.issued old known
  · cases taken

theorem inv_step (covered : cfg.enabled = true → cfg.intervalSeconds + 1 / 1000 ≤ cfg.leaseSeconds)
    (s : State) (e : Event) (t : State) (inv : Inv cfg s) (taken : step cfg s e = some t) :
    Inv cfg t := by
  cases e with
  | elapse seconds =>
    simp only [step] at taken
    split at taken
    · next waits =>
      cases taken
      refine ⟨fun lease member => ?_, inv.issued⟩
      obtain ⟨renewAt, next, -, entry⟩ := inv.held lease member
      exact ⟨renewAt, next, waits.2 lease member renewAt next, entry⟩
    · cases taken
  | claim taskId permitId served => exact inv_claim (covered (enabled_of_claim taken)) inv taken
  | renew permitId => exact inv_renew inv taken
  | release permitId =>
    cases taken
    constructor
    · intro lease member
      obtain ⟨known, other⟩ := List.mem_filter.mp member
      obtain ⟨renewAt, next, due, entry⟩ := inv.held lease known
      refine ⟨renewAt, next, due, SortedSet.mem_entries_zrem.mpr ⟨entry, ?_⟩⟩
      exact of_decide_eq_true other
    · exact fun lease member => inv.issued lease (List.mem_filter.mp member).1
  | queue command =>
    simp only [step] at taken
    split at taken
    · next onQueue =>
      cases taken
      have same : (execute cfg.maxConcurrent s.redis command).1.permits = s.redis.permits := by
        cases command with
        | enqueue taskId =>
          simp only [execute, enqueueScript]
          split_ifs <;> rfl
        | removeWaiters taskIds => rfl
        | deleteEntries taskIds => rfl
        | publish message => rfl
        | expireEntry taskId => rfl
        | claim taskId permitId nowMs leaseUntilMs => cases onQueue
        | renew permitId leaseUntilMs => cases onQueue
        | release permitId => cases onQueue
      refine ⟨fun lease member => ?_, inv.issued⟩
      obtain ⟨renewAt, next, due, entry⟩ := inv.held lease member
      exact ⟨renewAt, next, due, same.symm ▸ entry⟩
    · cases taken

end Renewals

section LateRenewal

variable {cfg : Config}

/-- One task is queued, and no permit is granted. -/
def queuedAlone (taskId : String) : RedisState where
  sequence := 1
  queue := (∅ : SortedSet String ℤ).zadd 1 taskId
  entries := {taskId}

theorem sweep_queuedAlone (taskId : String) (nowMs : ℤ) (scan : ℕ) :
    sweep (queuedAlone taskId) nowMs scan = queuedAlone taskId := by
  have entries : (queuedAlone taskId).queue.entries = [(taskId, 1)] := rfl
  have listed : (queuedAlone taskId).queue.zrange scan = [taskId] := by
    unfold SortedSet.zrange
    rw [entries]
    simp
  unfold sweep
  rw [listed]
  simp only [removeStale, queuedAlone, List.foldl_cons, List.foldl_nil, Finset.mem_singleton,
    if_true]
  rfl

theorem grants_queuedAlone {n : ℕ} (room : 1 ≤ n) (taskId : String) (nowMs : ℤ) (scan : ℕ) :
    Grants (queuedAlone taskId) taskId n nowMs scan := by
  have entries : (queuedAlone taskId).queue.entries = [(taskId, 1)] := rfl
  have member : (taskId, (1 : ℤ)) ∈ (queuedAlone taskId).queue.entries := List.mem_singleton_self _
  have first : ¬ Precedes (taskId, (1 : ℤ)) (taskId, 1) := fun before => before.asymm before
  unfold Grants
  rw [sweep_queuedAlone]
  refine ⟨⟨0, ?_, room⟩, room⟩
  rw [SortedSet.zrank_eq_countP member, entries, List.countP_cons_of_neg]
  · rfl
  · rw [decide_eq_true_eq]
    exact first

/-- A stream waits for its first renewal while another instance claims. -/
def lateRenewal : List Event :=
  [.queue (.enqueue "task"), .claim "task" "permit" true, .elapse 1, .claim "other" "next" true]

theorem exists_claim {s : State} {permitId : String} (enabled : cfg.enabled = true)
    (fresh : permitId ∉ s.issued) (taskId : String) (served : Bool) :
    ∃ t, step cfg s (.claim taskId permitId served) = some t := by
  have claims : ¬ (!cfg.enabled || decide (permitId ∈ s.issued)) = true := by
    simp [enabled, fresh]
  simp only [step, if_neg claims]
  split
  · exact ⟨_, rfl⟩
  · exact ⟨_, rfl⟩

theorem step_claim_of_grants {s : State} {taskId permitId : String} (enabled : cfg.enabled = true)
    (fresh : permitId ∉ s.issued)
    (grants : Grants s.redis taskId cfg.maxConcurrent (toMs s.now) (scanLimit cfg.maxConcurrent)) :
    step cfg s (.claim taskId permitId true) = some { s with
      redis := claimed s.redis taskId permitId (toMs s.now) (cfg.leaseDeadlineMs s.now)
        (scanLimit cfg.maxConcurrent)
      leases := ⟨permitId, some (s.now + cfg.intervalSeconds)⟩ :: s.leases
      issued := permitId :: s.issued } := by
  have claims : ¬ (!cfg.enabled || decide (permitId ∈ s.issued)) = true := by
    simp [enabled, fresh]
  have executed := execute_claim_one.mpr
    (And.intro grants (Eq.refl (claimed s.redis taskId permitId (toMs s.now)
      (cfg.leaseDeadlineMs s.now) (scanLimit cfg.maxConcurrent))))
  simp only [step, if_neg claims, executed, if_true]

/-- A claim in the millisecond of the deadline, or later, removes the permit. -/
theorem notMem_of_claim {s t : State} {taskId permitId other : String} {served : Bool}
    (taken : step cfg s (.claim taskId other served) = some t) (distinct : permitId ≠ other)
    (passed : ∀ deadline, (permitId, deadline) ∈ s.redis.permits.entries → deadline ≤ toMs s.now) :
    permitId ∉ t.redis.permits := by
  have swept : permitId ∉ (sweep s.redis (toMs s.now) (scanLimit cfg.maxConcurrent)).permits := by
    intro member
    obtain ⟨deadline, entry⟩ := SortedSet.mem_iff.mp member
    obtain ⟨known, later⟩ := SortedSet.mem_entries_zremrangebyscore.mp entry
    exact absurd later (not_lt.mpr (passed deadline known))
  rcases claim_cases taken with rfl | ⟨-, rfl⟩
  · exact swept
  · intro member
    rcases SortedSet.mem_zadd.mp member with same | old
    · exact distinct same
    · exact swept old

/-- The stream has its permit, and its first renewal may still be to come. -/
def waiting (cfg : Config) : State where
  redis := claimed (queuedAlone "task") "task" "permit" (toMs 0) (cfg.leaseDeadlineMs 0)
    (scanLimit cfg.maxConcurrent)
  now := 0 + 1
  leases := [⟨"permit", some (0 + cfg.intervalSeconds)⟩]
  issued := ["permit"]

/-- With a lease that is over before the first renewal, the second claim removes the permit. -/
theorem lateRenewal_not_kept (enabled : cfg.enabled = true) (room : 1 ≤ cfg.maxConcurrent)
    (short : cfg.leaseSeconds < 1001 / 1000) :
    ¬ Always (step cfg) Kept (initial 0 {}) lateRenewal := by
  intro always
  have interval := intervalSeconds_pos cfg
  have elapses : (0 : ℚ) ≤ 1 ∧ ∀ lease ∈ (waiting cfg).leases, ∀ renewAt ∈ lease.renewAt,
      (0 : ℚ) + 1 ≤ renewAt := by
    refine ⟨by norm_num, fun lease member renewAt next => ?_⟩
    rw [List.mem_singleton.mp member, Option.mem_some_iff] at next
    linarith
  have fresh : "next" ∉ (waiting cfg).issued := by
    change "next" ∉ ["permit"]
    decide
  obtain ⟨t, taken⟩ := exists_claim (s := waiting cfg) enabled fresh "other" true
  have run : runFrom (step cfg) (initial 0 {}) lateRenewal = some t := by
    refine runFrom_cons_some.mpr ⟨_, rfl, runFrom_cons_some.mpr ⟨_, step_claim_of_grants enabled
      List.not_mem_nil (grants_queuedAlone room "task" _ _), runFrom_cons_some.mpr
      ⟨waiting cfg, if_pos elapses, runFrom_cons_some.mpr ⟨t, taken, rfl⟩⟩⟩⟩
  have passed : ∀ deadline, ("permit", deadline) ∈ (waiting cfg).redis.permits.entries →
      deadline ≤ toMs (waiting cfg).now := by
    intro deadline entry
    rcases SortedSet.mem_entries_zadd.mp entry with same | ⟨-, other⟩
    · rw [(Prod.mk.inj same).2]
      have soon : cfg.leaseDeadlineMs 0 < 1001 := by
        apply Int.floor_lt.mpr
        push_cast
        linarith
      have claims : toMs (waiting cfg).now = 1000 := by
        change ⌊((0 : ℚ) + 1) * 1000⌋ = 1000
        norm_num
      omega
    · exact absurd rfl other
  have removed := notMem_of_claim taken (by decide : "permit" ≠ "next") passed
  apply removed
  have served : (⟨"permit", some (0 + cfg.intervalSeconds)⟩ : Lease) ∈ t.leases := by
    rcases claim_cases taken with rfl | ⟨-, rfl⟩
    · exact List.mem_singleton_self _
    · exact List.mem_cons_of_mem _ (List.mem_singleton_self _)
  exact (always.last run) _ served

end LateRenewal

theorem inv_initial (cfg : Config) (now : ℚ) (redis : RedisState) : Inv cfg (initial now redis) where
  held lease member := by cases member
  issued lease member := by cases member

theorem accepted_default : ({} : Config).Accepted where
  max_concurrent := by decide
  max_wait := by norm_num
  lease := by norm_num
  outlasts := by norm_num

/-- A lease of half a second passes the validator. -/
def briefLease : Config where
  maxWaitSeconds := 1 / 10
  leaseSeconds := 1 / 2

end PermitLease

end HeyeeAgent.StreamQueueLimiter
