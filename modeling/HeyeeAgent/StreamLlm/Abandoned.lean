import HeyeeAgent.StreamLlm.Attempts

/-! # Abandoned candidates

Each candidate that is given up is recorded as a failure by `start` itself. A suppressed callback
still takes a first chunk for visible output: an error that follows it is recorded a second time.
-/

namespace HeyeeAgent.StreamLlm

open InfraAi Machine StartState

variable {targets : List StreamTarget} {s t : StartState} {i j : ℕ} {log : List HealthRecord}

/-- One failure of the candidate is recorded, and no success. -/
def FailedOnce (log : List HealthRecord) (i : ℕ) : Prop :=
  ∃ now, log.filter (fun record => record.candidate == i) = [⟨i, true, now⟩]

/-- All handles but the returned one are cancelled, no callback of another candidate reaches the
delegate, and unless `start` was cancelled the candidates it has given up before any output have
failed once. -/
def ShutDown (s : StartState × List HealthRecord) : Prop :=
  (∀ i ∈ s.1.handles, s.1.pc ≠ .returned i → i ∈ s.1.cancelledHandles) ∧
    (∀ i r event, s.1.routed i = some r → s.1.pc ≠ .returned i → (r.receive event).2.1 = false) ∧
    ((∀ i, s.1.pc ≠ .cancelled i) → ∀ i, (s.1.routed i).isSome = true → s.1.pc ≠ .returned i →
      Silent s.1 i → FailedOnce s.2 i)

/-- No error of a candidate that was abandoned before any output runs after one of its chunks. -/
def NoLateFailure (s : StartState) : StartEvent → Prop
  | .callback i (.error _) _ => s.pc.candidate ≠ some i → Silent s i →
      ∀ r ∈ s.routed i, r.visibleOutput = true → r.completed = true ∨ r.failedAfterOutput = true
  | _ => True

instance (s : StartState) : DecidablePred (NoLateFailure s)
  | .callback _ (.error _) _ => inferInstanceAs (Decidable (_ → _ → ∀ r ∈ s.routed _, _))
  | .callback _ (.content _) _ | .callback _ (.thinking _) _ | .callback _ .complete _ =>
    inferInstanceAs (Decidable True)
  | .streamReturns _ | .streamRaises _ _ | .timer | .resume _ | .cancel =>
    inferInstanceAs (Decidable True)

section Accounts

/-- While no late failure runs, a candidate has no record before it is given up, and one failure
after. -/
structure Accounts (s : StartState) (log : List HealthRecord) : Prop where
  untried : ∀ i, s.routed i = none → ∀ record ∈ log, record.candidate ≠ i
  current : ∀ i, s.pc.attempt = some i → Silent s i → ∀ record ∈ log, record.candidate ≠ i
  abandoned : ∀ i r, s.routed i = some r → s.pc.candidate ≠ some i → Silent s i → FailedOnce log i

theorem FailedOnce.append {records : List HealthRecord} (once : FailedOnce log i)
    (others : ∀ record ∈ records, record.candidate ≠ i) : FailedOnce (log ++ records) i := by
  obtain ⟨now, only⟩ := once
  refine ⟨now, ?_⟩
  rw [List.filter_append, only, List.filter_eq_nil_iff.mpr, List.append_nil]
  intro record member
  rw [beq_iff_eq]
  exact others record member

/-- The failure that is recorded as the candidate is given up. -/
theorem failedOnce_append {now : ℚ} (unrecorded : ∀ record ∈ log, record.candidate ≠ i) :
    FailedOnce (log ++ [⟨i, true, now⟩]) i := by
  refine ⟨now, ?_⟩
  rw [List.filter_append, List.filter_eq_nil_iff.mpr, List.nil_append]
  · exact List.filter_cons_of_pos (beq_self_eq_true i)
  · intro record member
    rw [beq_iff_eq]
    exact unrecorded record member

theorem accounts_initial (targets : List StreamTarget) (health : ModelHealthStore) :
    Accounts (startInitial targets health) [] := by
  constructor
  · intro i _ record member
    cases member
  · intro i _ _ record member
    cases member
  · intro i r found other
    unfold startInitial at found other
    rcases tryFrom_cases targets { health, pc := .modelUnavailable "" } 0 with
      ⟨k, -, next⟩ | ⟨message, last⟩
    · rw [next] at found other
      have distinct : i ≠ k := by
        rintro rfl
        exact other rfl
      rcases setRouted_cases found with ⟨same, -⟩ | ⟨-, before⟩
      · exact absurd same distinct
      · cases before
    · rw [last] at found
      cases found

/-- In a run without late failures, a callback of a candidate that has shown nothing records nothing,
whether it is waited for or abandoned. -/
theorem Attempts.unrecorded {r : FirstTokenStreamCallback} {event : CallbackEvent} {now : ℚ}
    (attempts : Attempts s) (found : s.routed i = some r)
    (timely : NoLateFailure s (.callback i event now)) (silent : Silent s i)
    (place : s.pc.attempt = some i ∨ s.pc.candidate ≠ some i) : (r.receive event).2.2 = false := by
  rw [Bool.eq_false_iff]
  intro records
  obtain ⟨⟨error, rfl⟩, visible, incomplete, unfailed⟩ := receive_records records
  rcases place with current | other
  · exact attempts.shown i r found (attempts.heard i r found (.inl current)) visible silent
  · rcases timely other silent r found visible with completed | failed
    · exact absurd completed (incomplete ▸ Bool.false_ne_true)
    · exact absurd failed (unfailed ▸ Bool.false_ne_true)

theorem Accounts.callback {r : FirstTokenStreamCallback} {event : CallbackEvent} {now : ℚ}
    {health : ModelHealthStore} (accounts : Accounts s log) (attempts : Attempts s)
    (found : s.routed i = some r) (timely : NoLateFailure s (.callback i event now)) :
    Accounts { s.setRouted i (r.receive event).1 with
        health
        forwarded := if (r.receive event).2.1 then s.forwarded ++ [(i, event)] else s.forwarded }
      (log ++ if (r.receive event).2.2 then [⟨i, true, now⟩] else []) := by
  have before {calls : List (ℕ × CallbackEvent)} {j : ℕ}
      (silent : Silent { s with
        forwarded := if (r.receive event).2.1 then s.forwarded ++ calls else s.forwarded } j) :
      Silent s j := by
    split_ifs at silent
    · exact silent_of_append silent
    · exact silent
  have nothing {j : ℕ} (silent : Silent s j)
      (place : s.pc.attempt = some j ∨ s.pc.candidate ≠ some j) :
      ∀ record ∈ if (r.receive event).2.2 then [⟨i, true, now⟩] else ([] : List HealthRecord),
        record.candidate ≠ j := by
    intro record member
    split_ifs at member with records
    · rw [List.mem_singleton.mp member]
      rintro rfl
      rw [attempts.unrecorded found timely silent place] at records
      cases records
    · cases member
  constructor
  · intro j untried record member
    change (s.setRouted i _).routed j = none at untried
    have distinct : j ≠ i := by
      rintro rfl
      rw [setRouted_self] at untried
      cases untried
    rw [setRouted_of_ne s _ distinct] at untried
    rcases List.mem_append.mp member with old | new
    · exact accounts.untried j untried record old
    · split_ifs at new
      · rw [List.mem_singleton.mp new]
        exact distinct.symm
      · cases new
  · intro j current silent record member
    rcases List.mem_append.mp member with old | new
    · exact accounts.current j current (before silent) record old
    · exact nothing (before silent) (.inl current) record new
  · intro j r' found' other silent
    obtain ⟨r'', known⟩ : ∃ r'', s.routed j = some r'' := by
      rcases setRouted_cases found' with ⟨same, -⟩ | ⟨-, before⟩
      · exact ⟨r, same ▸ found⟩
      · exact ⟨r', before⟩
    exact (accounts.abandoned j r'' known other (before silent)).append
      (nothing (before silent) (.inr other))

/-- What was tried before a fall back is not tried again, and it has failed. -/
theorem Accounts.fallBack {handles : List ℕ} {pc : StartPc} {now : ℚ} {error : String}
    (accounts : Accounts s log) (attempts : Attempts s) (current : s.pc.attempt = some i) :
    Accounts (StartState.fallBack targets { s with handles, pc } i now error)
      (log ++ [⟨i, true, now⟩]) := by
  obtain ⟨own, tried⟩ := attempts.tried i current
  have untried {j : ℕ} (unknown : s.routed j = none) :
      ∀ record ∈ log ++ [⟨i, true, now⟩], record.candidate ≠ j := by
    intro record member
    rcases List.mem_append.mp member with old | new
    · exact accounts.untried j unknown record old
    · rw [List.mem_singleton.mp new]
      rintro rfl
      rw [tried] at unknown
      cases unknown
  have failed {j : ℕ} (known : s.routed j ≠ none) (silent : Silent s j) :
      FailedOnce (log ++ [⟨i, true, now⟩]) j := by
    by_cases same : j = i
    · subst same
      exact failedOnce_append (accounts.current j current silent)
    · obtain ⟨r, before⟩ := Option.ne_none_iff_exists'.mp known
      refine (accounts.abandoned j r before ?_ silent).append ?_
      · rw [StartPc.candidate_of_attempt current]
        exact fun eq => same (Option.some_inj.mp eq).symm
      · intro record member
        rw [List.mem_singleton.mp member]
        exact fun eq => same eq.symm
  obtain ⟨forwarded, ⟨k, later, place, again, routed⟩ | ⟨⟨message, place⟩, routed⟩⟩ :=
    fallBack_cases targets s handles pc i now error
  · have fresh : s.routed k = none := by
      rw [Option.eq_none_iff_forall_not_mem]
      intro r found
      have := attempts.earlier k r i found current
      omega
    constructor
    · intro j unknown
      by_cases same : j = k
      · exact untried (same ▸ fresh)
      · exact untried ((routed j same).mp unknown)
    · intro j waits silent
      rw [place] at waits
      cases waits
      exact untried fresh
    · intro j r known other silent
      have distinct : j ≠ k := by
        rintro rfl
        rw [place] at other
        exact other rfl
      apply failed
      · rw [ne_eq, ← routed j distinct, known]
        exact Option.some_ne_none r
      · exact fun call member => silent call (forwarded.symm ▸ member)
  · constructor
    · exact fun j unknown => untried ((routed j).mp unknown)
    · intro j waits
      rw [place] at waits
      cases waits
    · intro j r known _ silent
      apply failed
      · rw [ne_eq, ← routed j, known]
        exact Option.some_ne_none r
      · exact fun call member => silent call (forwarded.symm ▸ member)

theorem Accounts.turn {e : StartEvent} {records : List HealthRecord} (accounts : Accounts s log)
    (attempts : Attempts s) (timely : NoLateFailure s e) (turn : Turn targets s e t records) :
    Accounts t (log ++ records) := by
  cases turn with
  | callback found => exact accounts.callback attempts found timely
  | @waits _ i handles pc current obtained next =>
    rw [List.append_nil]
    constructor
    · exact accounts.untried
    · exact fun j place => accounts.current j (current.trans (next.symm.trans place))
    · intro j r found other
      apply accounts.abandoned j r found
      rw [StartPc.candidate_of_attempt current]
      rw [StartPc.candidate_of_attempt next] at other
      exact other
  | fallsBack current obtained => exact accounts.fallBack attempts current
  | @returns _ i handles health _ current obtained own =>
    obtain ⟨r, tried⟩ := attempts.tried i current
    constructor
    · intro j untried record member
      rcases List.mem_append.mp member with old | new
      · exact accounts.untried j untried record old
      · rw [own record new]
        rintro rfl
        have unknown : s.routed i = none := untried
        rw [tried] at unknown
        cases unknown
    · rintro j ⟨⟩
    · intro j r found other silent
      refine (accounts.abandoned j r found ?_ silent).append ?_
      · rw [StartPc.candidate_of_attempt current]
        exact other
      · intro record member same
        exact other (by rw [← same, own record member]; rfl)
  | @cancels _ i current =>
    rw [List.append_nil]
    constructor
    · intro j unknown
      change ((StartState.suppress s i).cancelHandle i).routed j = none at unknown
      rw [cancelHandle_routed, suppress_routed_none] at unknown
      exact accounts.untried j unknown
    · rintro j ⟨⟩
    · intro j r found other silent
      change ((StartState.suppress s i).cancelHandle i).routed j = some r at found
      rw [cancelHandle_routed] at found
      obtain ⟨r', before, -⟩ := suppress_routed found
      apply accounts.abandoned j r' before
      · rw [StartPc.candidate_of_attempt current]
        exact other
      · have calls : ((StartState.suppress s i).cancelHandle i).forwarded = s.forwarded := by
          rw [cancelHandle_forwarded]
          rfl
        exact fun call member => silent call (calls.symm ▸ member)

end Accounts

section Late

/-- A candidate that was abandoned without output, and has two records. -/
structure Doubled (s : StartState) (log : List HealthRecord) (i : ℕ) : Prop where
  tried : ∃ r, s.routed i = some r
  other : s.pc.candidate ≠ some i
  silent : Silent s i
  twice : 2 ≤ (log.filter fun record => record.candidate == i).length

theorem not_noLateFailure {e : StartEvent} (late : ¬ NoLateFailure s e) :
    ∃ i error now, e = .callback i (.error error) now ∧ s.pc.candidate ≠ some i ∧ Silent s i ∧
      ∃ r, s.routed i = some r ∧ r.visibleOutput = true ∧
        (r.receive (.error error)).2.2 = true := by
  cases e with
  | callback i event now =>
    cases event with
    | error error =>
      simp only [NoLateFailure, not_forall, not_or] at late
      obtain ⟨other, silent, r, found, visible, incomplete, unfailed⟩ := late
      refine ⟨i, error, now, rfl, other, silent, r, found, visible, ?_⟩
      simp [FirstTokenStreamCallback.receive, visible, incomplete, unfailed]
    | content text => exact absurd trivial late
    | thinking text => exact absurd trivial late
    | complete => exact absurd trivial late
  | streamReturns now => exact absurd trivial late
  | streamRaises error now => exact absurd trivial late
  | timer => exact absurd trivial late
  | resume now => exact absurd trivial late
  | cancel => exact absurd trivial late

/-- A late failure is the second record of its candidate. -/
theorem doubled_of_late {e : StartEvent} (attempts : Attempts s) (accounts : Accounts s log)
    (late : ¬ NoLateFailure s e) (taken : startStep targets s e = some t) :
    ∃ i, Doubled t (log ++ s.records e) i := by
  obtain ⟨i, error, now, rfl, other, silent, r, found, visible, fails⟩ := not_noLateFailure late
  have quiet : (r.receive (.error error)).2.1 = false := by
    rw [Bool.eq_false_iff]
    intro forwards
    exact attempts.shown i r found (receive_forwards_not_suppressed forwards) visible silent
  obtain ⟨before, once⟩ := accounts.abandoned i r found other silent
  simp only [startStep, found, Option.map_some, Option.some_inj] at taken
  subst taken
  refine ⟨i, ⟨_, setRouted_self _ _ _⟩, other, ?_, ?_⟩
  · rw [quiet]
    exact silent
  · simp only [StartState.records, found, Option.any_some, fails, if_true]
    rw [List.filter_append, once]
    simp

/-- Nothing takes the second record back. -/
theorem Doubled.turn {e : StartEvent} {records : List HealthRecord} (doubled : Doubled s log i)
    (attempts : Attempts s) (turn : Turn targets s e t records) :
    Doubled t (log ++ records) i := by
  obtain ⟨⟨r, found⟩, other, silent, twice⟩ := doubled
  obtain ⟨tried, elsewhere, quiet⟩ := turn.keeps_abandoned attempts found other silent
  refine ⟨tried, elsewhere, quiet, ?_⟩
  rw [List.filter_append, List.length_append]
  omega

end Late

section Law

variable {health : ModelHealthStore} {es : List StartEvent} {ended : StartState × List HealthRecord}

theorem attempts_logged (run : runFrom (loggedStep targets) (startInitial targets health, []) es =
    some ended) : Attempts ended.1 := by
  apply invariant_runFrom (I := fun s => Attempts s.1) ?_ (attempts_initial targets health) run
  intro s e t attempts taken
  obtain ⟨records, turn, -⟩ := turn_of_logged taken
  exact attempts.turn turn

/-- What holds of the handles and the callbacks when `start` has ended, in any run. -/
theorem Attempts.shut {s : StartState} (attempts : Attempts s) (finished : s.pc.attempt = none) :
    (∀ i ∈ s.handles, s.pc ≠ .returned i → i ∈ s.cancelledHandles) ∧
      ∀ i r event, s.routed i = some r → s.pc ≠ .returned i → (r.receive event).2.1 = false := by
  have idle (i : ℕ) : s.pc.attempt ≠ some i := by
    rw [finished]
    exact (Option.some_ne_none i).symm
  constructor
  · exact fun i held unreturned => attempts.stopped i held (idle i) unreturned
  · intro i r event found unreturned
    rw [Bool.eq_false_iff]
    intro forwards
    have suppressed := attempts.quiet i r found (idle i) unreturned
    rw [receive_forwards_not_suppressed forwards] at suppressed
    cases suppressed

/-- Whenever `start` has ended, every handle but the returned one is cancelled and no callback of
another candidate reaches the delegate; and unless `start` was cancelled, the candidates that were
given up before any output have failed exactly once if and only if no error of such a candidate has
run after one of its chunks. -/
theorem abandoned_shut_down_iff
    (run : runFrom (loggedStep targets) (startInitial targets health, []) es = some ended)
    (finished : ended.1.pc.attempt = none) :
    ShutDown ended ↔ (∃ i, ended.1.pc = .cancelled i) ∨
      Along (loggedStep targets) (fun s e => NoLateFailure s.1 e) (startInitial targets health, [])
        es := by
  have attempts := attempts_logged run
  obtain ⟨handles, callbacks⟩ := attempts.shut finished
  have accounts {es : List StartEvent} {s : StartState × List HealthRecord}
      (run : runFrom (loggedStep targets) (startInitial targets health, []) es = some s)
      (along : Along (loggedStep targets) (fun s e => NoLateFailure s.1 e)
        (startInitial targets health, []) es) : Attempts s.1 ∧ Accounts s.1 s.2 := by
    apply invariant_along (I := fun s => Attempts s.1 ∧ Accounts s.1 s.2) ?_
      ⟨attempts_initial targets health, accounts_initial targets health⟩ along run
    rintro s e t ⟨attempts, accounts⟩ timely taken
    obtain ⟨records, turn, log⟩ := turn_of_logged taken
    rw [log]
    exact ⟨attempts.turn turn, accounts.turn attempts timely turn⟩
  constructor
  · rintro ⟨-, -, failed⟩
    by_cases cancelled : ∃ i, ended.1.pc = .cancelled i
    · exact .inl cancelled
    refine .inr (by_contra fun broken => ?_)
    obtain ⟨first, e, rest, middle, next, rfl, reached, along, late, taken, finish⟩ :=
      exists_break run broken
    obtain ⟨attempts, accounts⟩ := accounts reached along
    obtain ⟨t, moved, rfl⟩ := Option.map_eq_some_iff.mp taken
    obtain ⟨i, doubled⟩ := doubled_of_late attempts accounts late moved
    -- the second record stays to the end
    obtain ⟨-, doubled⟩ : Attempts ended.1 ∧ Doubled ended.1 ended.2 i := by
      apply invariant_runFrom (I := fun s => Attempts s.1 ∧ Doubled s.1 s.2 i) ?_
        ⟨attempts.turn (step_turn moved).1, doubled⟩ finish
      rintro s e t ⟨attempts, doubled⟩ taken
      obtain ⟨records, turn, log⟩ := turn_of_logged taken
      rw [log]
      exact ⟨attempts.turn turn, doubled.turn attempts turn⟩
    obtain ⟨r, found⟩ := doubled.tried
    have unreturned : ended.1.pc ≠ .returned i := by
      intro returned
      have other := doubled.other
      rw [returned] at other
      exact other rfl
    obtain ⟨now, once⟩ := failed (not_exists.mp cancelled) i (found ▸ rfl) unreturned doubled.silent
    have twice := doubled.twice
    rw [once, List.length_singleton] at twice
    omega
  · rintro (⟨i, cancelled⟩ | along)
    · exact ⟨handles, callbacks, fun uncancelled => absurd cancelled (uncancelled i)⟩
    · refine ⟨handles, callbacks, fun uncancelled i tried unreturned silent => ?_⟩
      obtain ⟨r, found⟩ := Option.isSome_iff_exists.mp tried
      refine (accounts run along).2.abandoned i r found ?_ silent
      cases place : ended.1.pc with
      | streaming k => rw [place] at finished; cases finished
      | awaitingFirstPacket k timedOut => rw [place] at finished; cases finished
      | returned k =>
        rintro ⟨⟩
        exact unreturned place
      | cancelled k => exact absurd place (uncancelled k)
      | modelUnavailable message => exact (Option.some_ne_none i).symm

/-- The first candidate stays silent until the timer fires, and the second answers. -/
theorem silentFirstRun_shutDown :
    ∃ ended, runFrom (loggedStep [⟨"first", true⟩, ⟨"second", true⟩])
        (startInitial [⟨"first", true⟩, ⟨"second", true⟩] getModelHealthStore, [])
        silentFirstRun = some ended ∧ ShutDown ended := by
  have ends : (runFrom (loggedStep [⟨"first", true⟩, ⟨"second", true⟩])
      (startInitial [⟨"first", true⟩, ⟨"second", true⟩] getModelHealthStore, [])
      silentFirstRun).map (fun ended => ended.1.pc) = some (.returned 1) := by decide +kernel
  obtain ⟨ended, run, place⟩ := Option.map_eq_some_iff.mp ends
  refine ⟨ended, run, (abandoned_shut_down_iff run (by rw [place]; rfl)).mpr (.inr ?_)⟩
  decide +kernel

/-- The timer of the first candidate fires; its client brings a chunk and an error after that, before
the second answers. -/
def lateFailureRun : List StartEvent :=
  [.streamReturns 0, .timer, .resume 60, .callback 0 (.content "A") 61,
    .callback 0 (.error "connection lost") 62, .streamReturns 63, .callback 1 (.content "B") 64,
    .resume 64]

/-- The first candidate has shown nothing and has failed twice. -/
theorem lateFailureRun_counts_twice :
    ∃ ended, runFrom (loggedStep [⟨"first", true⟩, ⟨"second", true⟩])
        (startInitial [⟨"first", true⟩, ⟨"second", true⟩] getModelHealthStore, [])
        lateFailureRun = some ended ∧ ended.1.pc = .returned 1 ∧ ¬ ShutDown ended := by
  have ends : (runFrom (loggedStep [⟨"first", true⟩, ⟨"second", true⟩])
      (startInitial [⟨"first", true⟩, ⟨"second", true⟩] getModelHealthStore, [])
      lateFailureRun).map (fun ended => (ended.1.pc, ended.1.forwarded, ended.2,
        (ended.1.routed 0).isSome)) =
        some (.returned 1, [(1, .content "B")],
          [⟨0, true, 60⟩, ⟨0, true, 62⟩, ⟨1, false, 64⟩], true) := by decide +kernel
  obtain ⟨ended, run, observed⟩ := Option.map_eq_some_iff.mp ends
  simp only [Prod.mk.injEq] at observed
  obtain ⟨place, forwarded, log, tried⟩ := observed
  refine ⟨ended, run, place, fun shutDown => ?_⟩
  obtain ⟨now, once⟩ := shutDown.2.2 (by simp [place]) 0 tried (by simp [place])
    (by simp [Silent, forwarded])
  rw [log] at once
  have lengths := congrArg List.length once
  simp at lengths

end Law

end HeyeeAgent.StreamLlm
