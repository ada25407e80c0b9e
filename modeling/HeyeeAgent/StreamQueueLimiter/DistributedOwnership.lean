import HeyeeAgent.StreamQueueLimiter.DistributedPermits

/-! # Permits stay owned along a run

Each event keeps the accounts, under the condition that no grant is lost: the start of a call, the
execution of a command, and each way in which a suspended call resumes.
-/

namespace HeyeeAgent.StreamQueueLimiter.Distributed

open Machine Redis State

namespace Accounts

variable {s t : State} {c : CallId}

/-- An acquire moves on without a permit. -/
theorem acquireMove (acc : Accounts s) {a : AcquireArgs} {pc : AcquirePc}
    {flight : Option Flight} (found : s.calls c = some ⟨.acquire a pc, flight⟩)
    (executing : pc.Executing) (absent : a.permitId ∉ s.redis.permits)
    (moved : AcquireMove s c a t) : Accounts t := by
  obtain ⟨⟨pc', flight', calls, ok⟩, redis, permitIds, released⟩ := moved
  refine acc.move _ calls redis ok ?_ ?_ (fun _ => permitIds ▸ id) ?_
    (by rintro _ _ _ ⟨⟩) (fun _ now => .inl (released ▸ now))
  · intro permitId member old was holding
    rw [found] at was
    cases was
    cases holding with
    | answered a' command own => exact absurd (own ▸ member) absent
    | returned a' flight' own => exact executing.elim
  · rintro permitId ⟨a', flight', was, -⟩
    rw [found] at was
    cases was
    exact executing
  · rintro a' pc'' flight'' same
    cases same
    exact .inl ⟨pc, flight, found⟩

theorem otherMove (acc : Accounts s) (unreturned : ∀ permitId, ¬ Returned s c permitId)
    (unheld : ∀ permitId old, s.calls c = some old → ¬ Holds permitId old)
    (moved : OtherMove s c t) : Accounts t := by
  obtain ⟨⟨call, calls, ok, other⟩, redis, permitIds, released⟩ := moved
  refine acc.move _ calls redis ok ?_ unreturned (fun _ => permitIds ▸ id) ?_ ?_
    (fun _ now => .inl (released ▸ now))
  · exact fun permitId _ old was holding => absurd holding (unheld permitId old was)
  · rintro a pc flight rfl
    exact other.elim
  · rintro permit pc flight rfl
    exact other.elim

/-- A release moves on past its `ZREM`, or ends. -/
theorem releaseMove (acc : Accounts s) {permit : StreamQueuePermit} {pc pc' : ReleasePc}
    {flight flight' : Option Flight} (found : s.calls c = some ⟨.release permit pc, flight⟩)
    (absent : permit.permitId ∉ s.redis.permits)
    (calls : t.calls = Function.update s.calls c (some ⟨.release permit pc', flight'⟩))
    (later : pc' ≠ .removing) (plain : Plain flight') (redis : t.redis = s.redis)
    (permitIds : t.permitIds = s.permitIds)
    (released : ∀ permitId ∈ t.released, permitId = permit.permitId ∨ permitId ∈ s.released) :
    Accounts t := by
  have ok : Ok s.redis.permits ⟨.release permit pc', flight'⟩ := by
    cases pc' with
    | removing => exact absurd rfl later
    | publishing | returned | raised => exact ⟨absent, plain⟩
  refine acc.move _ calls redis ok ?_ ?_ (fun _ => permitIds ▸ id)
    (by rintro _ _ _ ⟨⟩) ?_ ?_
  · intro permitId member old was holding
    rw [found] at was
    cases was
    cases holding
  · rintro permitId ⟨a', flight', was, -⟩
    rw [found] at was
    cases was
  · rintro permit' pc'' flight'' same
    cases same
    exact acc.lent c permit pc flight found
  · intro permitId now
    rcases released permitId now with rfl | before
    · exact .inr ⟨absent, acc.lent c permit pc flight found⟩
    · exact .inl before

/-- The reply that grants is read. -/
theorem grant (acc : Accounts s) {a : AcquireArgs} {flight : Option Flight}
    (found : s.calls c = some ⟨.acquire a .claiming, flight⟩) :
    Accounts ((s.unlock a.inst).leave c a (.returns ⟨.granted, some a.permit⟩)) := by
  refine acc.move ⟨.acquire a (.returned ⟨.granted, some a.permit⟩), none⟩ rfl rfl
    ⟨.inr rfl, rfl⟩ ?_ ?_ (fun _ => id) ?_ (by rintro _ _ _ ⟨⟩) (fun _ => .inl)
  · intro permitId member old was holding
    rw [found] at was
    cases was
    cases holding with
    | answered a command own => exact .returned a none own
  · rintro permitId ⟨a', flight', was, -⟩
    rw [found] at was
    cases was
  · rintro a' pc' flight' same
    cases same
    exact .inl ⟨.claiming, flight, found⟩

/-- A new acquire, with a permit id that was never drawn before. -/
theorem start (acc : Accounts s) {a : AcquireArgs} {pc : AcquirePc} {flight : Option Flight}
    (idle : s.calls c = none) (fresh : a.permitId ∉ s.permitIds)
    (calls : t.calls = Function.update s.calls c (some ⟨.acquire a pc, flight⟩))
    (ok : AcquireOk a flight pc) (redis : t.redis = s.redis)
    (permitIds : t.permitIds = a.permitId :: s.permitIds) (released : t.released = s.released) :
    Accounts t := by
  refine acc.move _ calls redis ok ?_ ?_ ?_ ?_ (by rintro _ _ _ ⟨⟩)
    (fun _ now => .inl (released ▸ now))
  · intro permitId member old was
    rw [idle] at was
    cases was
  · rintro permitId ⟨a', flight', was, -⟩
    rw [idle] at was
    cases was
  · intro permitId known
    rw [permitIds]
    exact List.mem_cons_of_mem _ known
  · rintro a' pc' flight' same
    cases same
    exact .inr ⟨fresh, permitIds ▸ List.mem_cons_self ..⟩

theorem startAcquire (acc : Accounts s) {a : AcquireArgs} (idle : s.calls c = none)
    (taken : Distributed.startAcquire s c a = some t) : Accounts t := by
  unfold Distributed.startAcquire at taken
  by_cases drawn : a.permitId ∈ s.permitIds
  · simp only [drawn, if_true, reduceCtorEq] at taken
  simp only [drawn, if_false] at taken
  split at taken
  · rename_i result route
    cases taken
    have bare : result.permit = none := by
      simp only [StreamQueueLimiter.acquire, Bool.not_true, Bool.false_eq_true, if_false] at route
      split_ifs at route
      cases route
      rfl
    exact acc.start idle drawn rfl ⟨.inl bare, rfl⟩ rfl rfl rfl
  · cases taken
  · split_ifs at taken
    · cases taken
      exact acc.start idle drawn rfl ⟨.inl rfl, rfl⟩ rfl rfl rfl
    · cases taken
      exact acc.start idle drawn rfl (by simp [AcquireOk, NoClaim]) rfl rfl rfl

theorem startRelease (acc : Accounts s) {acquired : CallId} {n : ℕ} (idle : s.calls c = none)
    (keeps : KeepsAccount n s (.release c acquired))
    (taken : Distributed.startRelease s c acquired = some t) : Accounts t := by
  unfold Distributed.startRelease at taken
  split at taken
  · rename_i a status permit flight found
    simp only [KeepsAccount, found] at keeps
    have granted : (⟨status, some permit⟩ : QueueAcquireResult) = ⟨.granted, some a.permit⟩ :=
      (acc.ok _ _ found).1.resolve_left (by rintro ⟨⟩)
    cases granted
    have lent : ∃ c', Returned s c' a.permit.permitId := ⟨acquired, a, flight, found, rfl⟩
    have unreturned : ∀ permitId, ¬ Returned s c permitId := by
      rintro permitId ⟨a', flight', was, -⟩
      rw [idle] at was
      cases was
    have unheld (call : Call) : ∀ permitId ∈ s.redis.permits, ∀ old, s.calls c = some old →
        Holds permitId old → Holds permitId call := by
      intro permitId member old was
      rw [idle] at was
      cases was
    split_ifs at taken with local_ dropped
    · cases taken
      have absent : a.permit.permitId ∉ s.redis.permits :=
        keeps.resolve_left fun there => by simp [there] at dropped
      refine acc.move ⟨.release a.permit .returned, none⟩ rfl rfl ⟨absent, plain_none⟩
        (unheld _) unreturned (fun _ => id) (by rintro a pc other ⟨⟩) (fun _ _ _ same => ?_)
        (fun permitId now => ?_)
      · cases same; exact lent
      · rcases List.mem_cons.mp now with rfl | before
        · exact .inr ⟨absent, lent⟩
        · exact .inl before
    · cases taken
      refine acc.move ⟨.release a.permit .removing, _⟩ rfl rfl ⟨none, rfl, by rintro ⟨⟩⟩
        (unheld _) unreturned (fun _ => id) (by rintro a pc other ⟨⟩) (fun _ _ _ same => ?_)
        (fun _ => .inl)
      cases same
      exact lent
  · cases taken

theorem plain_of_ok {permits : SortedSet String ℤ} {body : Body} {f : Flight}
    (ok : Ok permits ⟨body, some f⟩) (other : ∀ a, body ≠ .acquire a .claiming) :
    NoClaim f.command := by
  cases body with
  | acquire a pc =>
    cases pc with
    | claiming => exact absurd rfl (other a)
    | removing rest ending => exact plain_some.mp ok.2.2
    | returned result => exact nomatch ok.2
    | enqueueing | polling | locking | waiting | raised => exact plain_some.mp ok
  | release permit pc =>
    cases pc with
    | removing =>
      obtain ⟨reply, sent, -⟩ := ok
      cases sent
      trivial
    | publishing | returned | raised => exact plain_some.mp ok.2
  | cancel inst pc =>
    cases pc with
    | removing rest => exact plain_some.mp ok.2
    | returned | raised => exact plain_some.mp ok
  | close inst pc =>
    cases pc with
    | removing rest => exact plain_some.mp ok.2
    | condition | listener | pubsub | aclose | returned | raised => exact plain_some.mp ok

/-- A reply changes what is known of a release only. -/
theorem ok_answered {n : ℕ} {r after : RedisState} {body : Body} {command : Command} {reply : ℕ}
    (ok : Ok r.permits ⟨body, some ⟨command, none⟩⟩) (other : ∀ a, body ≠ .acquire a .claiming)
    (fewer : ∀ permitId ∈ after.permits, permitId ∈ r.permits)
    (executed : (StreamQueueLimiter.execute n r command).1 = after) :
    Ok after.permits ⟨body, some ⟨command, some reply⟩⟩ := by
  have plain := plain_of_ok ok other
  cases body with
  | acquire a pc =>
    cases pc with
    | claiming => exact absurd rfl (other a)
    | removing rest ending => exact ⟨ok.1, ok.2.1, plain_some.mpr plain⟩
    | returned result => exact nomatch ok.2
    | enqueueing | polling | locking | waiting | raised => exact plain_some.mpr plain
  | release permit pc =>
    cases pc with
    | removing =>
      obtain ⟨reply', sent, -⟩ := ok
      cases sent
      refine ⟨some reply, rfl, fun _ member => ?_⟩
      rw [← executed] at member
      exact (SortedSet.mem_zrem.mp member).2 rfl
    | publishing | returned | raised =>
      exact ⟨fun member => ok.1 (fewer _ member), plain_some.mpr plain⟩
  | cancel inst pc =>
    cases pc with
    | removing rest => exact ⟨ok.1, plain_some.mpr plain⟩
    | returned | raised => exact plain_some.mpr plain
  | close inst pc =>
    cases pc with
    | removing rest => exact ⟨ok.1, plain_some.mpr plain⟩
    | condition | listener | pubsub | aclose | returned | raised => exact plain_some.mpr plain

/-- The server executes the command of a suspended call. -/
theorem execute (acc : Accounts s) {n : ℕ} {body : Body} {command : Command}
    (found : s.calls c = some ⟨body, some ⟨command, none⟩⟩) :
    let (redis, reply) := StreamQueueLimiter.execute n s.redis command
    let call : Call := ⟨body, some ⟨command, some reply⟩⟩
    Accounts { s with redis, calls := Function.update s.calls c (some call) } := by
  -- the reply alone, over keys from which permits have only been taken away
  have answer (redis : RedisState) (reply : ℕ)
      (fewer : ∀ permitId ∈ redis.permits, permitId ∈ s.redis.permits)
      (ok : Ok redis.permits ⟨body, some ⟨command, some reply⟩⟩) :
      Accounts { s with
        redis
        calls := Function.update s.calls c (some ⟨body, some ⟨command, some reply⟩⟩) } := by
    have returned_idle : ∀ a result, body ≠ .acquire a (.returned result) := by
      rintro a result rfl
      exact nomatch (acc.ok c _ found).2
    refine (acc.shrink fewer).move ⟨body, some ⟨command, some reply⟩⟩ rfl rfl ok ?_ ?_
      (fun _ => id) ?_ ?_ (fun _ => .inl)
    · intro permitId member old was holding
      change s.calls c = some old at was
      rw [found] at was
      cases was
      cases holding with
      | returned a flight own => exact absurd rfl (returned_idle a _)
    · rintro permitId ⟨a, flight, was, -⟩
      change s.calls c = _ at was
      rw [found] at was
      cases was
      exact returned_idle a _ rfl
    · rintro a pc flight same
      cases same
      exact .inl ⟨pc, _, found⟩
    · rintro permit pc flight same
      cases same
      exact acc.lent c permit pc _ found
  have ok := acc.ok c _ found
  by_cases claiming : ∃ a, body = .acquire a .claiming
  · obtain ⟨a, rfl⟩ := claiming
    obtain ⟨nowMs, leaseUntilMs, reply, sent⟩ := ok
    cases sent
    have executed : StreamQueueLimiter.execute n s.redis
        (.claim a.taskId a.permitId nowMs leaseUntilMs) = claimScript s.redis a.taskId a.permitId n
          nowMs leaseUntilMs (scanLimit n) := rfl
    rcases claimScript_cases s.redis a.taskId a.permitId n nowMs leaseUntilMs (scanLimit n) with
      ⟨granted, result⟩ | ⟨-, result⟩
    · simp only [executed, result]
      have waiting := answer s.redis 1 (fun _ => id) ⟨_, _, _, rfl⟩
      refine waiting.grow (a := a) (Function.update_self ..) fun permitId member => ?_
      rw [(claimed_mem a.permitId leaseUntilMs granted).2.2] at member
      exact member.imp id SortedSet.mem_of_mem_zremrangebyscore
    · simp only [executed, result]
      exact answer _ _ (fun _ => SortedSet.mem_of_mem_zremrangebyscore) ⟨_, _, _, rfl⟩
  · have other : ∀ a, body ≠ .acquire a .claiming := fun a same => claiming ⟨a, same⟩
    have fewer : ∀ permitId ∈ (StreamQueueLimiter.execute n s.redis command).1.permits,
        permitId ∈ s.redis.permits := by
      intro permitId member
      by_contra absent
      obtain ⟨taskId, nowMs, leaseUntilMs, rfl, -⟩ := execute_appears absent member
      exact plain_of_ok ok other
    exact answer _ _ fewer (ok_answered ok other fewer rfl)

theorem otherMoves (acc : Accounts s) {body : Body} {flight : Option Flight}
    (found : s.calls c = some ⟨body, flight⟩) (other : body.Other) (moved : OtherMove s c t) :
    Accounts t := by
  refine acc.otherMove ?_ ?_ moved
  · rintro permitId ⟨a, flight', was, -⟩
    rw [found] at was
    cases was
    exact other
  · intro permitId old was holding
    rw [found] at was
    cases was
    cases holding <;> exact other

/-- The segment of a call that has just left its await runs in the state `t`. -/
theorem after (acc : Accounts s) (same : SameCalls s t) : Accounts t where
  ok c call found := same.redis ▸ acc.ok c call (same.calls ▸ found)
  held permitId member := by
    obtain ⟨unspent, held⟩ := acc.held permitId (same.redis ▸ member)
    exact ⟨same.released ▸ unspent, same.calls ▸ held⟩
  known c a pc flight found := same.permitIds ▸ acc.known c a pc flight (same.calls ▸ found)
  unique c c' a a' pc pc' flight flight' found found' :=
    acc.unique c c' a a' pc pc' flight flight' (same.calls ▸ found) (same.calls ▸ found')
  spent permitId now := by
    unfold Returned
    rw [same.calls]
    exact acc.spent permitId (same.released ▸ now)
  lent c permit pc flight found := by
    unfold Returned
    rw [same.calls]
    exact acc.lent c permit pc flight (same.calls ▸ found)

/-- An error at an await leaves no permit behind, under the condition. -/
theorem raise (acc : Accounts s) {call : Call} (found : s.calls c = some call)
    (acquiring : ∀ a command, call = ⟨.acquire a .claiming, some ⟨command, some 1⟩⟩ →
      a.permitId ∉ s.redis.permits)
    (releasing : ∀ permit command, call = ⟨.release permit .removing, some ⟨command, none⟩⟩ →
      permit.permitId ∉ s.redis.permits)
    (taken : failed s c call.body = some t ∨ interrupted s c call.body = some t) :
    Accounts t := by
  obtain ⟨body, flight⟩ := call
  have ok := acc.ok c _ found
  cases body with
  | acquire a pc =>
    obtain ⟨executing, moved⟩ : pc.Executing ∧ AcquireMove s c a t :=
      taken.elim (failed_move ok) interrupted_move
    refine acc.acquireMove found executing ?_ moved
    by_cases holding : Holds a.permitId ⟨.acquire a pc, flight⟩
    · cases holding with
      -- the grant is never read
      | answered => exact acquiring a _ rfl
      | returned => exact executing.elim
    · exact acc.unheld found holding
  | release permit pc =>
    have absent : permit.permitId ∉ s.redis.permits := by
      cases pc with
      | removing =>
        obtain ⟨reply, rfl, gone⟩ := ok
        cases reply with
        | none => exact releasing permit _ rfl
        | some reply => exact gone rfl
      | publishing => exact ok.1
      | returned => exact ok.1
      | raised => exact ok.1
    have ended {pc'} (later : pc' ≠ .removing) : Accounts (s.endRelease c permit pc') :=
      acc.releaseMove found absent rfl later plain_none rfl rfl fun _ => List.mem_cons.mp
    cases pc <;> rcases taken with taken | taken <;> cases taken <;> exact ended nofun
  | cancel inst pc =>
    exact acc.otherMoves found trivial
      (cancel_resumed 0 ok (.inr taken))
  | close inst pc =>
    refine acc.otherMoves found trivial
      (close_resumed 0 ok (.inr ?_))
    exact taken.imp id .inl

/-- A reply is read; the reply that grants is the acquire's. -/
theorem reply (acc : Accounts s) {body : Body} {command : Command} {answer : ℕ}
    (found : s.calls c = some ⟨body, some ⟨command, some answer⟩⟩)
    (taken : replied s c answer body = some t) : Accounts t := by
  have ok := acc.ok c _ found
  cases body with
  | acquire a pc =>
    obtain ⟨executing, ⟨moved, refused⟩ | ⟨rfl, rfl⟩⟩ := replied_move ok taken
    · refine acc.acquireMove found executing (acc.unheld found fun holding => ?_) moved
      cases holding with
      | answered a command own => exact refused rfl rfl
      | returned a flight own => exact executing.elim
    · exact acc.grant found
  | release permit pc =>
    cases pc with
    | removing =>
      obtain ⟨reply', sent, gone⟩ := ok
      cases sent
      cases taken
      exact acc.releaseMove found (gone rfl) rfl nofun (plain_some.mpr trivial) rfl rfl
        fun _ => .inr
    | publishing =>
      cases taken
      exact acc.releaseMove found ok.1 rfl nofun plain_none rfl rfl fun _ => List.mem_cons.mp
    | returned => cases taken
    | raised => cases taken
  | cancel inst pc =>
    exact acc.otherMoves found trivial
      (cancel_resumed _ ok (.inl taken))
  | close inst pc =>
    exact acc.otherMoves found trivial
      (close_resumed _ ok (.inl taken))

/-- An acquire whose await is not a claim's moves on. -/
theorem quiet (acc : Accounts s) {a : AcquireArgs} {pc : AcquirePc} {flight : Option Flight}
    (found : s.calls c = some ⟨.acquire a pc, flight⟩) (executing : pc.Executing)
    (unclaimed : pc ≠ .claiming) (moved : AcquireMove s c a t) : Accounts t := by
  refine acc.acquireMove found executing (acc.unheld found fun holding => ?_) moved
  cases holding with
  | answered a command own => exact unclaimed rfl
  | returned a flight own => exact executing

theorem wake (acc : Accounts s) {call : Call} (found : s.calls c = some call)
    (taken : woken s c call.body = some t) : Accounts t := by
  obtain ⟨body, flight⟩ := call
  cases body with
  | acquire a pc =>
    obtain ⟨rfl, moved⟩ := woken_move taken
    exact acc.quiet found trivial nofun moved
  | close inst pc =>
    exact acc.otherMoves found trivial
      (close_resumed 0 (acc.ok c _ found) (.inr (.inr (.inr taken))))
  | release permit pc => cases taken
  | cancel inst pc => cases taken

/-- The call has not been started. -/
theorem idle_other (acc : Accounts s) (idle : s.calls c = none) (moved : OtherMove s c t) :
    Accounts t := by
  refine acc.otherMove ?_ ?_ moved
  · rintro permitId ⟨a, flight, was, -⟩
    rw [idle] at was
    cases was
  · intro permitId old was
    rw [idle] at was
    cases was

/-- The step lemma. -/
theorem step (acc : Accounts s) {n : ℕ} {e : Event} (keeps : KeepsAccount n s e)
    (taken : distributedStep n s e = some t) : Accounts t := by
  cases e with
  | acquire c a =>
    simp only [distributedStep] at taken
    split_ifs at taken with busy
    exact acc.startAcquire (by simpa using busy) taken
  | cancel c inst taskId =>
    simp only [distributedStep] at taken
    split_ifs at taken with busy
    cases taken
    exact acc.idle_other (by simpa using busy) startCancel_other
  | release c acquired =>
    simp only [distributedStep] at taken
    split_ifs at taken with busy
    exact acc.startRelease (by simpa using busy) keeps taken
  | close c inst =>
    simp only [distributedStep] at taken
    split_ifs at taken with busy
    cases taken
    exact acc.idle_other (by simpa using busy)
      (.after (same_modify _ _) (put_other trivial plain_none))
  | execute c =>
    simp only [distributedStep] at taken
    split at taken
    · rename_i body command found
      cases taken
      exact acc.execute found
    · cases taken
  | executeOrphan index =>
    obtain ⟨command, found, rfl⟩ := Option.map_eq_some_iff.mp taken
    refine (acc.after (t := { s with orphans := s.orphans.eraseIdx index })
      ⟨rfl, rfl, rfl, rfl⟩).shrink fun permitId member => ?_
    by_contra absent
    obtain ⟨taskId, nowMs, leaseUntilMs, rfl, one⟩ := execute_appears absent member
    simp only [KeepsAccount, found] at keeps
    exact keeps (execute_claim_one.mp (Prod.ext rfl one)).1
  | renew permitId leaseUntilMs =>
    cases taken
    exact acc.shrink fun _ => SortedSet.mem_zaddXX.mp
  | expireEntry taskId =>
    cases taken
    exact acc.shrink fun _ => id
  | reply c =>
    simp only [distributedStep] at taken
    split at taken
    · rename_i body command answer found
      exact acc.reply found taken
    · cases taken
  | fail c =>
    obtain ⟨call, found, taken⟩ := Option.bind_eq_some_iff.mp taken
    have same := same_abandon (s := s) call
    refine (acc.after same).raise (same.calls ▸ found) ?_ ?_ (.inl taken)
    · rintro a command rfl
      simpa [KeepsAccount, found, same.redis] using keeps
    · rintro permit command rfl
      simpa [KeepsAccount, found, same.redis] using keeps
  | interrupt c =>
    obtain ⟨call, found, taken⟩ := Option.bind_eq_some_iff.mp taken
    have same := same_abandon (s := s) call
    refine (acc.after same).raise (same.calls ▸ found) ?_ ?_ (.inr taken)
    · rintro a command rfl
      simpa [KeepsAccount, found, same.redis] using keeps
    · rintro permit command rfl
      simpa [KeepsAccount, found, same.redis] using keeps
  | wake c =>
    obtain ⟨call, found, taken⟩ := Option.bind_eq_some_iff.mp taken
    exact acc.wake found taken
  | poll c shouldCancel late =>
    obtain ⟨⟨body, flight⟩, found, taken⟩ := Option.bind_eq_some_iff.mp taken
    cases body with
    | acquire a pc =>
      obtain ⟨rfl, moved⟩ := polled_move taken
      exact acc.quiet found trivial (by rintro ⟨⟩) moved
    | cancel | release | close => cases taken
  | lock c nowMs leaseUntilMs =>
    obtain ⟨⟨body, flight⟩, found, taken⟩ := Option.bind_eq_some_iff.mp taken
    cases body with
    | acquire a pc =>
      obtain ⟨rfl, moved⟩ := locked_move taken
      exact acc.quiet found trivial (by rintro ⟨⟩) moved
    | cancel | release | close => cases taken

end Accounts

/-- Before any call: no permit, whatever the limiters are. -/
theorem accounts_initial (instances : InstanceId → Instance) : Accounts { instances } where
  ok c call found := by cases found
  held permitId member := absurd member (SortedSet.notMem_empty permitId)
  known c a pc flight found := by cases found
  unique c c' a a' pc pc' flight flight' found := by cases found
  spent permitId member := absurd member List.not_mem_nil
  lent c permit pc flight found := by cases found

/-- In a run whose steps meet the condition, every permit stays owned. -/
theorem always_owned (n : ℕ) (instances : InstanceId → Instance) (es : List Event)
    (kept : Along (distributedStep n) (KeepsAccount n) { instances } es) :
    Always (distributedStep n) Owned { instances } es :=
  (always_of_along (fun _ _ _ acc keeps taken => acc.step keeps taken)
    (accounts_initial instances) kept).mono fun _ => Accounts.owned

/-- One request is granted and releases its permit; another one then is granted. -/
def servedRun : List Event :=
  [.acquire 0 ⟨0, "a", "p"⟩, .execute 0, .reply 0, .poll 0 false false, .lock 0 0 600000,
    .execute 0, .reply 0, .acquire 1 ⟨1, "b", "q"⟩, .execute 1, .reply 1, .poll 1 false false,
    .lock 1 0 600000, .release 2 0, .execute 2, .execute 1, .reply 1, .reply 2, .execute 2,
    .reply 2]

theorem servedRun_owned : Always (distributedStep 1) Owned {} servedRun :=
  always_owned 1 _ _ (by decide +kernel)

/-- The reply that grants is lost to a cancellation, and the removal of the waiter ends the
acquire with its permit in the set. -/
def lostReplyRun : List Event :=
  [.acquire 0 ⟨0, "a", "p"⟩, .execute 0, .reply 0, .poll 0 false false, .lock 0 0 600000,
    .execute 0, .interrupt 0, .execute 0, .reply 0, .execute 0, .reply 0, .execute 0, .reply 0]

theorem lostReplyRun_leaks :
    ∃ s, runFrom (distributedStep 1) {} lostReplyRun = some s ∧ ¬ Owned s := by
  have ends : (runFrom (distributedStep 1) {} lostReplyRun).map
      (fun s => (decide ("p" ∈ s.redis.permits), s.calls 0)) =
      some (true, some ⟨.acquire ⟨0, "a", "p"⟩ .raised, none⟩) := by
    decide +kernel
  obtain ⟨s, run, observed⟩ := Option.map_eq_some_iff.mp ends
  obtain ⟨leased, raised⟩ := by simpa only [Prod.mk.injEq] using observed
  refine ⟨s, run, fun owned => ?_⟩
  obtain ⟨c, a, pc, flight, found, -, state⟩ := owned "p" (of_decide_eq_true leased)
  cases c with
  | zero =>
    rw [raised] at found
    cases found
    rcases state with executing | ⟨same, -⟩
    · exact executing
    · cases same
  | succ c =>
    have single : (runFrom (distributedStep 1) {} lostReplyRun).map (fun s => s.calls (c + 1)) =
        some none := rfl
    simp only [run, Option.map_some, Option.some.injEq] at single
    rw [single] at found
    cases found

end HeyeeAgent.StreamQueueLimiter.Distributed
