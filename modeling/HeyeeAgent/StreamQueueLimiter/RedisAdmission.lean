import HeyeeAgent.StreamQueueLimiter.RedisScripts

/-! # Capacity and order of the Redis queue under any interleaving of commands

A run is the sequence of commands as the server executes them, whoever sent them and whatever
clock values they carry; all instances are configured with the same `max_concurrent`. The history
counts successful enqueues and granted claims of each task.
-/

namespace HeyeeAgent.StreamQueueLimiter

open Machine Redis

structure Server where
  redis : RedisState := {}
  enqueued : List String := []
  granted : List String := []

/-- The server executes the next command; the history notes the replies of the two scripts. -/
def serverStep (n : ℕ) (s : Server) (command : Command) : Option Server :=
  let (redis, reply) := execute n s.redis command
  match command with
  | .enqueue taskId =>
    some { s with redis, enqueued := if reply = 1 then taskId :: s.enqueued else s.enqueued }
  | .claim taskId _ _ _ =>
    some { s with redis, granted := if reply = 1 then taskId :: s.granted else s.granted }
  | _ => some { s with redis }

section Commands

variable {n : ℕ} {r : RedisState}

/-- A claim that grants needs a free permit, and every other command keeps the number of permits
or lowers it. -/
theorem execute_zcard (command : Command) (bounded : r.permits.zcard ≤ n) :
    (execute n r command).1.permits.zcard ≤ n := by
  cases command with
  | enqueue taskId =>
    simp only [execute, enqueueScript]
    split_ifs <;> exact bounded
  | claim taskId permitId nowMs leaseUntilMs =>
    simp only [execute]
    rcases claimScript_cases r taskId permitId n nowMs leaseUntilMs (scanLimit n) with
      ⟨⟨-, free⟩, result⟩ | ⟨-, result⟩
    · rw [result]
      have grown := SortedSet.zcard_zadd_le (sweep r nowMs (scanLimit n)).permits leaseUntilMs
        permitId
      simp only [claimed]
      omega
    · rw [result]
      exact sweep_zcard_le.trans bounded
  | renew permitId leaseUntilMs =>
    simp only [execute, SortedSet.zcard_zaddXX]
    exact bounded
  | release permitId => exact (r.permits.zcard_zrem_le permitId).trans bounded
  | removeWaiters taskIds => exact bounded
  | deleteEntries taskIds => exact bounded
  | publish message => exact bounded
  | expireEntry taskId => exact bounded

/-- Only a granted claim adds a permit, and only its own. -/
theorem execute_appears {command : Command} {permitId : String} (absent : permitId ∉ r.permits)
    (present : permitId ∈ (execute n r command).1.permits) :
    ∃ taskId nowMs leaseUntilMs, command = .claim taskId permitId nowMs leaseUntilMs ∧
      (execute n r command).2 = 1 := by
  cases command with
  | enqueue taskId =>
    simp only [execute, enqueueScript] at present
    split_ifs at present <;> exact absurd present absent
  | claim taskId own nowMs leaseUntilMs =>
    simp only [execute] at present ⊢
    rcases claimScript_cases r taskId own n nowMs leaseUntilMs (scanLimit n) with
      ⟨-, result⟩ | ⟨-, result⟩
    · rw [result] at present ⊢
      rcases SortedSet.mem_zadd.mp present with rfl | old
      · exact ⟨taskId, nowMs, leaseUntilMs, rfl, rfl⟩
      · exact absurd (SortedSet.mem_of_mem_zremrangebyscore old) absent
    · rw [result] at present
      exact absurd (SortedSet.mem_of_mem_zremrangebyscore present) absent
  | renew own leaseUntilMs => exact absurd (SortedSet.mem_zaddXX.mp present) absent
  | release own => exact absurd (SortedSet.mem_zrem.mp present).1 absent
  | removeWaiters taskIds => exact absurd present absent
  | deleteEntries taskIds => exact absurd present absent
  | publish message => exact absurd present absent
  | expireEntry taskId => exact absurd present absent

theorem mem_foldl_zrem {taskIds : List String} {queue : SortedSet String ℤ} {taskId : String}
    (member : taskId ∈ taskIds.foldl SortedSet.zrem queue) : taskId ∈ queue := by
  induction taskIds generalizing queue with
  | nil => exact member
  | cons head rest ih => exact (SortedSet.mem_zrem.mp (ih member)).1

theorem mem_sweep {nowMs : ℤ} {scan : ℕ} {taskId : String} :
    taskId ∈ (sweep r nowMs scan).queue ↔
      taskId ∈ r.queue ∧ (taskId ∈ r.queue.zrange scan → taskId ∈ r.entries) := by
  constructor
  · intro member
    obtain ⟨k, kept⟩ := SortedSet.mem_iff.mp member
    obtain ⟨queued, marked⟩ := mem_sweep_queue.mp kept
    exact ⟨SortedSet.mem_iff.mpr ⟨k, queued⟩, marked⟩
  · rintro ⟨member, marked⟩
    obtain ⟨k, queued⟩ := SortedSet.mem_iff.mp member
    exact SortedSet.mem_iff.mpr ⟨k, mem_sweep_queue.mpr ⟨queued, marked⟩⟩

/-- What a granted claim does to the waiting and to the permit set. -/
theorem claimed_mem {taskId : String} (permitId : String) {nowMs : ℤ} (leaseUntilMs : ℤ)
    (granted : Grants r taskId n nowMs (scanLimit n)) :
    let after := claimed r taskId permitId nowMs leaseUntilMs (scanLimit n)
    taskId ∈ r.queue ∧
      (∀ other, other ∈ after.queue ↔ other ∈ r.queue ∧ other ≠ taskId ∧
        (other ∈ r.queue.zrange (scanLimit n) → other ∈ r.entries)) ∧
      ∀ permit, permit ∈ after.permits ↔
        permit = permitId ∨ permit ∈ r.permits.zremrangebyscore nowMs := by
  refine ⟨?_, fun other => ?_, fun permit => SortedSet.mem_zadd⟩
  · obtain ⟨k, queued⟩ := granted.queued
    exact (mem_sweep.mp (SortedSet.mem_iff.mpr ⟨k, queued⟩)).1
  · change other ∈ (sweep r nowMs (scanLimit n)).queue.zrem taskId ↔ _
    rw [SortedSet.mem_zrem, mem_sweep]
    constructor
    · rintro ⟨⟨queued, kept⟩, different⟩
      exact ⟨queued, different, kept⟩
    · rintro ⟨queued, different, kept⟩
      exact ⟨⟨queued, kept⟩, different⟩

/-- A claim overtakes fewer than `n` waiting tasks, and only tasks that it could have granted. -/
theorem grants_overtakes {taskId : String} (permitId : String) {nowMs : ℤ} (leaseUntilMs : ℤ)
    (granted : Grants r taskId n nowMs (scanLimit n)) :
    let after := claimed r taskId permitId nowMs leaseUntilMs (scanLimit n)
    ∃ score, (taskId, score) ∈ r.queue.entries ∧
      after.queue.entries.countP (fun e => e.2 < score) < n ∧
      ∀ e ∈ after.queue.entries, e.2 < score → e.1 ∈ after.entries →
        Grants r e.1 n nowMs (scanLimit n) := by
  obtain ⟨score, queued⟩ := granted.queued
  obtain ⟨⟨rank, found, inside⟩, free⟩ := granted
  refine ⟨score, (mem_sweep_queue.mp queued).1, ?_, ?_⟩
  · have ahead := SortedSet.countP_score_lt_le queued found
    have fewer : ((sweep r nowMs (scanLimit n)).queue.zrem taskId).entries.countP
        (fun e => e.2 < score) ≤ (sweep r nowMs (scanLimit n)).queue.entries.countP
        (fun e => e.2 < score) := List.Sublist.countP_le List.filter_sublist
    simp only [claimed]
    omega
  · intro e waiting lower _
    have member := (SortedSet.mem_entries_zrem.mp waiting).1
    have earlier := SortedSet.zrank_eq_countP member
    have below := SortedSet.zrank_le_zrank member queued lower earlier found
    exact ⟨⟨_, earlier, by omega⟩, free⟩

end Commands

/-- Capacity, what a granted claim changes, one grant for an enqueue, and no permit that appears
otherwise. -/
structure AdmissionBound (n : ℕ) (s : Server) : Prop where
  bounded : s.redis.permits.zcard ≤ n
  once : ∀ taskId, s.granted.count taskId ≤ s.enqueued.count taskId
  /-- a granted claim removes its own task and what the scan finds without a marker -/
  claims : ∀ taskId permitId nowMs leaseUntilMs after,
    execute n s.redis (.claim taskId permitId nowMs leaseUntilMs) = (after, 1) →
      taskId ∈ s.redis.queue ∧
      (∀ other, other ∈ after.queue ↔ other ∈ s.redis.queue ∧ other ≠ taskId ∧
        (other ∈ s.redis.queue.zrange (scanLimit n) → other ∈ s.redis.entries)) ∧
      ∀ permit, permit ∈ after.permits ↔
        permit = permitId ∨ permit ∈ s.redis.permits.zremrangebyscore nowMs
  /-- a permit that is not there comes back by a granted claim only -/
  appears : ∀ command permitId, permitId ∉ s.redis.permits →
    permitId ∈ (execute n s.redis command).1.permits →
    ∃ taskId nowMs leaseUntilMs, command = .claim taskId permitId nowMs leaseUntilMs ∧
      (execute n s.redis command).2 = 1

/-- A waiting task has been enqueued once more than it has been granted. -/
structure Counted (n : ℕ) (s : Server) : Prop where
  bounded : s.redis.permits.zcard ≤ n
  grants : ∀ taskId, s.granted.count taskId + (if taskId ∈ s.redis.queue then 1 else 0) ≤
    s.enqueued.count taskId

theorem Counted.shrink {n : ℕ} {s : Server} (counted : Counted n s) {redis : RedisState}
    (bounded : redis.permits.zcard ≤ n)
    (fewer : ∀ taskId, taskId ∈ redis.queue → taskId ∈ s.redis.queue) :
    Counted n { s with redis } := by
  refine ⟨bounded, fun taskId => ?_⟩
  have before := counted.grants taskId
  have kept := fewer taskId
  dsimp only
  split_ifs at before ⊢ with now was was
  · exact before
  · exact absurd (kept now) was
  · omega
  · exact before

theorem counted_step {n : ℕ} {s : Server} {command : Command} {t : Server}
    (counted : Counted n s) (taken : serverStep n s command = some t) : Counted n t := by
  have bounded := execute_zcard command counted.bounded
  cases command with
  | enqueue taskId =>
    by_cases marked : taskId ∈ s.redis.entries
    · simp only [serverStep, execute, enqueueScript, if_pos marked] at taken bounded
      cases taken
      exact counted.shrink bounded fun _ member => member
    · simp only [serverStep, execute, enqueueScript, if_neg marked] at taken bounded
      cases taken
      refine ⟨bounded, fun other => ?_⟩
      have before := counted.grants other
      simp only [SortedSet.mem_zadd, List.count_cons, beq_iff_eq, if_true]
      by_cases same : other = taskId
      · subst same
        simp only [true_or, if_true]
        omega
      · simp only [same, Ne.symm same, false_or, if_false]
        exact before
  | claim taskId permitId nowMs leaseUntilMs =>
    have executed : execute n s.redis (.claim taskId permitId nowMs leaseUntilMs) =
        claimScript s.redis taskId permitId n nowMs leaseUntilMs (scanLimit n) := rfl
    rcases claimScript_cases s.redis taskId permitId n nowMs leaseUntilMs (scanLimit n) with
      ⟨granted, result⟩ | ⟨-, result⟩ <;>
      simp only [serverStep, executed, result] at taken bounded <;> cases taken
    · refine ⟨bounded, fun other => ?_⟩
      obtain ⟨queued, queue, -⟩ := claimed_mem permitId leaseUntilMs granted
      have before := counted.grants other
      simp only [queue, List.count_cons, beq_iff_eq, if_true]
      by_cases same : other = taskId
      · subst same
        simp only [queued, if_true, ne_eq, not_true_eq_false, false_and, and_false, if_false]
          at before ⊢
        omega
      · simp only [Ne.symm same, if_false]
        split_ifs at before ⊢ with kept was was
        · exact before
        · exact absurd kept.1 was
        · omega
        · exact before
    · exact counted.shrink bounded fun _ member => (mem_sweep.mp member).1
  | renew permitId leaseUntilMs =>
    cases taken
    exact counted.shrink bounded fun _ member => member
  | release permitId =>
    cases taken
    exact counted.shrink bounded fun _ member => member
  | removeWaiters taskIds =>
    cases taken
    exact counted.shrink bounded fun _ => mem_foldl_zrem
  | deleteEntries taskIds =>
    cases taken
    exact counted.shrink bounded fun _ member => member
  | publish message =>
    cases taken
    exact counted.shrink bounded fun _ member => member
  | expireEntry taskId =>
    cases taken
    exact counted.shrink bounded fun _ member => member

theorem Counted.admissionBound {n : ℕ} {s : Server} (counted : Counted n s) :
    AdmissionBound n s where
  bounded := counted.bounded
  once taskId := (Nat.le_add_right ..).trans (counted.grants taskId)
  claims taskId permitId nowMs leaseUntilMs after granted := by
    obtain ⟨grants, rfl⟩ := execute_claim_one.mp granted
    exact claimed_mem _ _ grants
  appears _ _ := execute_appears

/-- Admission in every state that the server goes through, whatever the interleaving. -/
theorem always_admissionBound (n : ℕ) (commands : List Command) :
    Always (serverStep n) (AdmissionBound n) {} commands :=
  (always_of_preserved (fun _ _ _ => counted_step) ⟨Nat.zero_le n, by simp⟩ commands).mono
    fun _ => Counted.admissionBound

/-- A claim of one task also removes another one whose marker has expired. -/
theorem staleRun_removes_another :
    ∃ s, runFrom (serverStep 2) {} [.enqueue "a", .expireEntry "a", .enqueue "b"] = some s ∧
      (execute 2 s.redis (.claim "b" "p" 0 600000)).2 = 1 ∧
      "a" ∈ s.redis.queue ∧ "a" ∉ (execute 2 s.redis (.claim "b" "p" 0 600000)).1.queue := by
  have ends : (runFrom (serverStep 2) {} [.enqueue "a", .expireEntry "a", .enqueue "b"]).map
      (fun s => ((execute 2 s.redis (.claim "b" "p" 0 600000)).2,
        decide ("a" ∈ s.redis.queue),
        decide ("a" ∈ (execute 2 s.redis (.claim "b" "p" 0 600000)).1.queue))) =
      some (1, true, false) := by
    decide +kernel
  obtain ⟨s, run, observed⟩ := Option.map_eq_some_iff.mp ends
  obtain ⟨granted, queued, removed⟩ := by simpa only [Prod.mk.injEq] using observed
  exact ⟨s, run, granted, of_decide_eq_true queued, of_decide_eq_false removed⟩

/-- When a task is granted, fewer than `n` tasks with a smaller score stay behind it, and each of
those that has its marker would have been granted in its place. -/
def OvertakesWithinWindow (n : ℕ) (s : Server) : Prop :=
  ∀ taskId permitId nowMs leaseUntilMs after,
    execute n s.redis (.claim taskId permitId nowMs leaseUntilMs) = (after, 1) →
    ∃ score, (taskId, score) ∈ s.redis.queue.entries ∧
      after.queue.entries.countP (fun e => e.2 < score) < n ∧
      ∀ e ∈ after.queue.entries, e.2 < score → e.1 ∈ after.entries →
        ∃ after', execute n s.redis (.claim e.1 permitId nowMs leaseUntilMs) = (after', 1)

/-- With one slot, this is first in, first out. -/
theorem always_overtakesWithinWindow (n : ℕ) (commands : List Command) :
    Always (serverStep n) (OvertakesWithinWindow n) {} commands := by
  have window : ∀ s : Server, OvertakesWithinWindow n s := by
    intro s taskId permitId nowMs leaseUntilMs after granted
    obtain ⟨grants, rfl⟩ := execute_claim_one.mp granted
    obtain ⟨score, queued, fewer, others⟩ := grants_overtakes permitId leaseUntilMs grants
    refine ⟨score, queued, fewer, fun e waiting lower marked => ?_⟩
    exact ⟨_, execute_claim_one.mpr ⟨others e waiting lower marked, rfl⟩⟩
  exact always_of_preserved (fun _ _ t _ _ => window t) (window {}) commands

/-- With two free slots the second waiter claims before the first. -/
theorem secondClaimRun_overtakes :
    ∃ s, runFrom (serverStep 2) {} [.enqueue "a", .enqueue "b"] = some s ∧
      ∃ score, ("b", score) ∈ s.redis.queue.entries ∧
      (execute 2 s.redis (.claim "b" "p" 0 600000)).2 = 1 ∧
      ∃ e ∈ (execute 2 s.redis (.claim "b" "p" 0 600000)).1.queue.entries,
        e.1 = "a" ∧ e.2 < score ∧
        "a" ∈ (execute 2 s.redis (.claim "b" "p" 0 600000)).1.entries := by
  have ends : (runFrom (serverStep 2) {} [.enqueue "a", .enqueue "b"]).map
      (fun s => (s.redis.queue.entries, (execute 2 s.redis (.claim "b" "p" 0 600000)).2,
        (execute 2 s.redis (.claim "b" "p" 0 600000)).1.queue.entries,
        decide ("a" ∈ (execute 2 s.redis (.claim "b" "p" 0 600000)).1.entries))) =
      some ([("a", 1), ("b", 2)], 1, [("a", 1)], true) := by
    decide +kernel
  obtain ⟨s, run, observed⟩ := Option.map_eq_some_iff.mp ends
  obtain ⟨before, granted, after, marked⟩ := by simpa only [Prod.mk.injEq] using observed
  refine ⟨s, run, 2, by simp [before], granted, ("a", 1), by simp [after], rfl, by simp, ?_⟩
  exact of_decide_eq_true marked

end HeyeeAgent.StreamQueueLimiter
