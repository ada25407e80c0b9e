import HeyeeAgent.StreamLlm.HealthRecords

/-! # The candidates that are no longer waited for

Every way out of an attempt suppresses its callback and cancels its handle. So the candidate that
`start` waits for, or has returned, is the only one that is heard; the others keep calling back and
are not forwarded.
-/

namespace HeyeeAgent.StreamLlm

open InfraAi Machine StartState

variable {targets : List StreamTarget} {s t : StartState} {i j : ℕ}

/-- Nothing of the candidate has reached the delegate. -/
def Silent (s : StartState) (i : ℕ) : Prop := ∀ call ∈ s.forwarded, call.1 ≠ i

instance : Decidable (Silent s i) := inferInstanceAs (Decidable (∀ call ∈ s.forwarded, call.1 ≠ i))

theorem StartPc.candidate_of_attempt {pc : StartPc} (current : pc.attempt = some i) :
    pc.candidate = some i := by
  cases pc with
  | streaming k => exact current
  | awaitingFirstPacket k timedOut => exact current
  | returned k => cases current
  | cancelled k => cases current
  | modelUnavailable message => cases current

/-- While a candidate is waited for, none has been returned. -/
theorem StartPc.ne_returned {pc : StartPc} (current : pc.attempt = some i) (j : ℕ) :
    pc ≠ .returned j := by
  rintro rfl
  cases current

theorem StartPc.attempt_ne {pc : StartPc} (current : pc.attempt = some i) (other : j ≠ i) :
    pc.attempt ≠ some j := by
  rw [current]
  exact fun same => other (Option.some_inj.mp same).symm

/-- The handle that an attempt obtains is its own. -/
theorem mem_of_obtained {handles : List ℕ} (obtained : handles ⊆ s.handles ++ [i])
    (held : j ∈ handles) (other : j ≠ i) : j ∈ s.handles := by
  have member := obtained held
  rwa [List.mem_append, List.mem_singleton, or_iff_left other] at member

section Receive

variable {r : FirstTokenStreamCallback} {event : CallbackEvent}

open FirstTokenStreamCallback

/-- A chunk that shows a candidate that is heard is forwarded. -/
theorem receive_shows (hidden : ¬ r.visibleOutput = true) (heard : r.suppressed = false)
    (visible : (r.receive event).1.visibleOutput = true) : (r.receive event).2.1 = true := by
  cases event <;> simp only [receive, markFirstPacket] at visible ⊢ <;> split_ifs at visible ⊢ <;>
    simp_all

/-- A callback records a failure for an error after visible output, once and not when complete. -/
theorem receive_records (records : (r.receive event).2.2 = true) :
    (∃ error, event = .error error) ∧ r.visibleOutput = true ∧ r.completed = false ∧
      r.failedAfterOutput = false := by
  cases event with
  | error error =>
    simp only [receive] at records
    split_ifs at records with hidden counted
    simp only [Bool.not_eq_true', Bool.not_eq_false, Bool.and_eq_true] at hidden counted
    exact ⟨⟨error, rfl⟩, hidden, counted⟩
  | _ =>
    simp only [receive] at records
    split_ifs at records

end Receive

section Attempts

/-- The candidate that `start` waits for is the last one tried and is heard; the others are not, and
their handles are cancelled. -/
structure Attempts (s : StartState) : Prop where
  tried : ∀ i, s.pc.attempt = some i → ∃ r, s.routed i = some r
  heard : ∀ i r, s.routed i = some r → s.pc.attempt = some i ∨ s.pc = .returned i →
    r.suppressed = false
  quiet : ∀ i r, s.routed i = some r → s.pc.attempt ≠ some i → s.pc ≠ .returned i →
    r.suppressed = true
  earlier : ∀ j r i, s.routed j = some r → s.pc.attempt = some i → j ≤ i
  stopped : ∀ i ∈ s.handles, s.pc.attempt ≠ some i → s.pc ≠ .returned i → i ∈ s.cancelledHandles
  shown : ∀ i r, s.routed i = some r → r.suppressed = false → r.visibleOutput = true → ¬ Silent s i

/-- The loop goes on with a later candidate, or ends. -/
theorem tryFrom_cases (targets : List StreamTarget) (s : StartState) (k : ℕ) :
    (∃ i, k ≤ i ∧ s.tryFrom targets k = { s.setRouted i {} with pc := .streaming i }) ∨
      ∃ message, s.tryFrom targets k = { s with pc := .modelUnavailable message } := by
  unfold tryFrom
  split
  · next i found =>
    have fits := List.find?_some found
    rw [Bool.and_eq_true, decide_eq_true_eq] at fits
    exact .inl ⟨i, fits.1, rfl⟩
  · exact .inr ⟨_, rfl⟩

/-- Once everything tried so far is shut down, the next candidate may be tried. -/
theorem attempts_tryFrom {k : ℕ} (quiet : ∀ i r, s.routed i = some r → r.suppressed = true)
    (earlier : ∀ i r, s.routed i = some r → i < k)
    (stopped : ∀ i ∈ s.handles, i ∈ s.cancelledHandles) : Attempts (s.tryFrom targets k) := by
  rcases tryFrom_cases targets s k with ⟨i, later, next⟩ | ⟨message, last⟩
  · rw [next]
    constructor
    · rintro j ⟨⟩
      exact ⟨{}, setRouted_self s i {}⟩
    · rintro j r found (⟨⟨⟩⟩ | ⟨⟨⟩⟩)
      rcases setRouted_cases found with ⟨-, rfl⟩ | ⟨other, -⟩
      · rfl
      · exact absurd rfl other
    · intro j r found other _
      rcases setRouted_cases found with ⟨rfl, -⟩ | ⟨-, before⟩
      · exact absurd rfl other
      · exact quiet j r before
    · rintro j r k' found ⟨⟩
      rcases setRouted_cases found with ⟨rfl, -⟩ | ⟨-, before⟩
      · exact le_refl _
      · have := earlier j r before
        omega
    · exact fun j held _ _ => stopped j held
    · intro j r found heard visible
      rcases setRouted_cases found with ⟨-, rfl⟩ | ⟨-, before⟩
      · cases visible
      · rw [quiet j r before] at heard
        cases heard
  · rw [last]
    constructor
    · rintro j ⟨⟩
    · rintro j r found (⟨⟨⟩⟩ | ⟨⟨⟩⟩)
    · exact fun j r found _ _ => quiet j r found
    · rintro j r k' found ⟨⟩
    · exact fun j held _ _ => stopped j held
    · intro j r found heard visible
      rw [quiet j r found] at heard
      cases heard

theorem attempts_initial (targets : List StreamTarget) (health : ModelHealthStore) :
    Attempts (startInitial targets health) := by
  apply attempts_tryFrom
  · rintro i r ⟨⟩
  · rintro i r ⟨⟩
  · intro i held
    cases held

theorem mem_cancelHandle {i j : ℕ} (cancelled : j ∈ s.cancelledHandles ∨ j = i ∧ i ∈ s.handles) :
    j ∈ (s.cancelHandle i).cancelledHandles := by
  unfold cancelHandle
  rcases cancelled with before | ⟨rfl, held⟩
  · split_ifs
    · exact List.mem_append_left _ before
    · exact before
  · rw [if_pos held]
    exact List.mem_append_right _ (List.mem_singleton_self j)

@[simp] theorem suppress_routed_none :
    (s.suppress i).routed j = none ↔ s.routed j = none := by
  unfold StartState.suppress
  dsimp only
  by_cases same : j = i
  · subst same
    rw [Function.update_self, Option.map_eq_none_iff]
  · rw [Function.update_of_ne same]

@[simp] theorem cancelHandle_handles (s : StartState) (i : ℕ) :
    (s.cancelHandle i).handles = s.handles := by
  unfold cancelHandle
  split_ifs <;> rfl

/-- Shutting the current candidate down leaves nobody heard and every handle cancelled. -/
theorem Attempts.shutDown {handles : List ℕ} (pc : StartPc) (attempts : Attempts s)
    (current : s.pc.attempt = some i) (obtained : handles ⊆ s.handles ++ [i]) :
    let gone := (StartState.suppress { s with handles, pc } i).cancelHandle i
    (∀ j r, gone.routed j = some r → r.suppressed = true ∧ j ≤ i) ∧
      ∀ j ∈ gone.handles, j ∈ gone.cancelledHandles := by
  constructor
  · intro j r found
    rw [cancelHandle_routed] at found
    obtain ⟨r', before, rfl⟩ := suppress_routed found
    refine ⟨?_, attempts.earlier j r' i before current⟩
    split_ifs with same
    · rfl
    · exact attempts.quiet j r' before (StartPc.attempt_ne current same)
        (StartPc.ne_returned current j)
  · intro j held
    rw [cancelHandle_handles] at held
    apply mem_cancelHandle
    by_cases same : j = i
    · exact .inr ⟨same, same ▸ held⟩
    · exact .inl (attempts.stopped j (mem_of_obtained obtained held same)
        (StartPc.attempt_ne current same) (StartPc.ne_returned current j))

theorem silent_of_append {calls : List (ℕ × CallbackEvent)}
    (silent : Silent { s with forwarded := s.forwarded ++ calls } i) : Silent s i :=
  fun call member => silent call (List.mem_append_left calls member)

/-- A callback is routed as before, after one more call. -/
theorem Attempts.callback {r : FirstTokenStreamCallback} {event : CallbackEvent}
    {health : ModelHealthStore} (attempts : Attempts s) (found : s.routed i = some r) :
    Attempts { s.setRouted i (r.receive event).1 with
      health
      forwarded := if (r.receive event).2.1 then s.forwarded ++ [(i, event)] else s.forwarded } := by
  have routed {j : ℕ} {r' : FirstTokenStreamCallback}
      (found' : (s.setRouted i (r.receive event).1).routed j = some r') :
      ∃ before, s.routed j = some before ∧ r'.suppressed = before.suppressed := by
    rcases setRouted_cases found' with ⟨rfl, rfl⟩ | ⟨-, before⟩
    · exact ⟨r, found, receive_suppressed⟩
    · exact ⟨r', before, rfl⟩
  constructor
  · intro j current
    obtain ⟨r', before⟩ := attempts.tried j current
    by_cases same : j = i
    · subst same
      exact ⟨_, setRouted_self _ _ _⟩
    · exact ⟨r', (setRouted_of_ne s _ same).trans before⟩
  · intro j r' found' current
    obtain ⟨before, known, same⟩ := routed found'
    exact same.trans (attempts.heard j before known current)
  · intro j r' found' other unreturned
    obtain ⟨before, known, same⟩ := routed found'
    exact same.trans (attempts.quiet j before known other unreturned)
  · intro j r' k found' current
    obtain ⟨before, known, -⟩ := routed found'
    exact attempts.earlier j before k known current
  · exact attempts.stopped
  · intro j r' found' heard visible silent
    have quiet : Silent s j := by
      split_ifs at silent
      · exact silent_of_append silent
      · exact silent
    rcases setRouted_cases found' with ⟨rfl, rfl⟩ | ⟨-, before⟩
    · rw [receive_suppressed] at heard
      by_cases before : r.visibleOutput = true
      · exact attempts.shown j r found heard before quiet
      · -- the chunk that shows the candidate is forwarded
        have forwards := receive_shows before heard visible
        rw [if_pos forwards] at silent
        exact silent (j, event) (List.mem_append_right _ (List.mem_singleton_self _)) rfl
    · exact attempts.shown j r' before heard visible quiet

theorem Attempts.turn {e : StartEvent} {records : List HealthRecord} (attempts : Attempts s)
    (turn : Turn targets s e t records) : Attempts t := by
  cases turn with
  | callback found => exact attempts.callback found
  | @waits _ i handles pc current obtained next =>
    have same : pc.attempt = s.pc.attempt := next.trans current.symm
    constructor
    · exact fun j place => attempts.tried j (same.symm.trans place)
    · rintro j r found (place | rfl)
      · exact attempts.heard j r found (.inl (same.symm.trans place))
      · cases next
    · intro j r found other _
      exact attempts.quiet j r found (same ▸ other) (StartPc.ne_returned current j)
    · exact fun j r k found place => attempts.earlier j r k found (same.symm.trans place)
    · intro j held other _
      have distinct : j ≠ i := by
        rintro rfl
        exact other next
      exact attempts.stopped j (mem_of_obtained obtained held distinct) (same ▸ other)
        (StartPc.ne_returned current j)
    · exact attempts.shown
  | fallsBack current obtained =>
    obtain ⟨quiet, stopped⟩ := attempts.shutDown _ current obtained
    apply attempts_tryFrom
    · exact fun j r found => (quiet j r found).1
    · exact fun j r found => Nat.lt_succ_of_le (quiet j r found).2
    · exact stopped
  | @returns _ i handles health _ current obtained own =>
    constructor
    · rintro j ⟨⟩
    · rintro j r found (⟨⟨⟩⟩ | ⟨⟨⟩⟩)
      exact attempts.heard i r found (.inl current)
    · intro j r found _ other
      have distinct : j ≠ i := fun same => other (by rw [same])
      exact attempts.quiet j r found (StartPc.attempt_ne current distinct)
        (StartPc.ne_returned current j)
    · rintro j r k found ⟨⟩
    · intro j held _ other
      have distinct : j ≠ i := fun same => other (by rw [same])
      exact attempts.stopped j (mem_of_obtained obtained held distinct)
        (StartPc.attempt_ne current distinct) (StartPc.ne_returned current j)
    · exact attempts.shown
  | @cancels _ i current =>
    obtain ⟨quiet, stopped⟩ :=
      attempts.shutDown s.pc current (List.subset_append_left s.handles [i])
    constructor
    · rintro j ⟨⟩
    · rintro j r found (⟨⟨⟩⟩ | ⟨⟨⟩⟩)
    · exact fun j r found _ _ => (quiet j r found).1
    · rintro j r k found ⟨⟩
    · exact fun j held _ _ => stopped j held
    · intro j r found heard
      rw [(quiet j r found).1] at heard
      cases heard

@[simp] theorem tryFrom_forwarded (k : ℕ) :
    (s.tryFrom targets k).forwarded = s.forwarded := by
  unfold tryFrom
  split <;> rfl

/-- A fall back forwards nothing and forgets nobody; it goes on with a later candidate, or ends. -/
theorem fallBack_cases (targets : List StreamTarget) (s : StartState) (handles : List ℕ) (pc : StartPc)
    (i : ℕ) (now : ℚ) (error : String) :
    let next := StartState.fallBack targets { s with handles, pc } i now error
    next.forwarded = s.forwarded ∧
      ((∃ k, i < k ∧ next.pc = .streaming k ∧ (∃ r, next.routed k = some r) ∧
          ∀ j, j ≠ k → (next.routed j = none ↔ s.routed j = none)) ∨
        (∃ message, next.pc = .modelUnavailable message) ∧
          ∀ j, next.routed j = none ↔ s.routed j = none) := by
  unfold StartState.fallBack
  dsimp only
  set gone := (StartState.suppress { s with handles, pc } i).cancelHandle i with left
  have routed (j : ℕ) : gone.routed j = none ↔ s.routed j = none := by
    rw [left, cancelHandle_routed, suppress_routed_none]
  constructor
  · rw [tryFrom_forwarded]
    change gone.forwarded = s.forwarded
    rw [left, cancelHandle_forwarded]
    rfl
  · rcases tryFrom_cases targets
        { gone with
          health := gone.health.recordFailure now (targetId targets i)
          lastError := some error } (i + 1) with ⟨k, later, next⟩ | ⟨message, last⟩
    · rw [next]
      refine .inl ⟨k, later, rfl, ⟨{}, setRouted_self _ k {}⟩, fun j distinct => ?_⟩
      rw [← routed j]
      exact iff_of_eq (congrArg (· = none) (setRouted_of_ne gone {} distinct))
    · rw [last]
      exact .inr ⟨⟨message, rfl⟩, routed⟩

theorem suppress_routed_some {r : FirstTokenStreamCallback} (found : s.routed j = some r) :
    ∃ r', (s.suppress i).routed j = some r' := by
  rw [← Option.ne_none_iff_exists', ne_eq, suppress_routed_none, found]
  exact Option.some_ne_none r

/-- An abandoned candidate stays abandoned, and nothing of it is forwarded any more. -/
theorem Turn.keeps_abandoned {e : StartEvent} {records : List HealthRecord} (attempts : Attempts s)
    (turn : Turn targets s e t records) {r : FirstTokenStreamCallback}
    (found : s.routed j = some r) (other : s.pc.candidate ≠ some j) (silent : Silent s j) :
    (∃ r', t.routed j = some r') ∧ t.pc.candidate ≠ some j ∧ Silent t j := by
  have unplaced {k : ℕ} (current : s.pc.attempt = some k) : j ≠ k := by
    rintro rfl
    exact other (StartPc.candidate_of_attempt current)
  have elsewhere {k : ℕ} (distinct : j ≠ k) : (some k : Option ℕ) ≠ some j := fun same =>
    distinct (Option.some_inj.mp same).symm
  cases turn with
  | @callback k event now r' found' =>
    by_cases same : j = k
    · subst same
      obtain rfl : r = r' := Option.some_inj.mp (found.symm.trans found')
      refine ⟨⟨_, setRouted_self _ _ _⟩, other, ?_⟩
      have suppressed : r.suppressed = true := by
        apply attempts.quiet j r found
        · exact fun current => other (StartPc.candidate_of_attempt current)
        · intro returned
          rw [returned] at other
          exact other rfl
      have quiet : ¬ (r.receive event).2.1 = true := by
        intro forwards
        rw [receive_forwards_not_suppressed forwards] at suppressed
        cases suppressed
      rw [if_neg quiet]
      exact silent
    · refine ⟨⟨r, (setRouted_of_ne s _ same).trans found⟩, other, ?_⟩
      split_ifs
      · intro call member
        rcases List.mem_append.mp member with old | new
        · exact silent call old
        · rw [List.mem_singleton.mp new]
          exact fun eq => same eq.symm
      · exact silent
  | @waits _ k handles pc current obtained next =>
    refine ⟨⟨r, found⟩, ?_, silent⟩
    rw [StartPc.candidate_of_attempt next]
    exact elsewhere (unplaced current)
  | @fallsBack _ k handles pc now error current obtained =>
    have known : s.routed j ≠ none := by
      rw [found]
      exact Option.some_ne_none r
    obtain ⟨forwarded, ⟨k', later, place, again, routed⟩ | ⟨⟨message, place⟩, routed⟩⟩ :=
      fallBack_cases targets s handles pc k now error
    · have distinct : j ≠ k' := by
        have := attempts.earlier j r k found current
        omega
      refine ⟨Option.ne_none_iff_exists'.mp ?_, ?_, ?_⟩
      · exact fun unknown => known ((routed j distinct).mp unknown)
      · rw [place]
        exact elsewhere distinct
      · exact fun call member => silent call (forwarded ▸ member)
    · refine ⟨Option.ne_none_iff_exists'.mp ?_, ?_, ?_⟩
      · exact fun unknown => known ((routed j).mp unknown)
      · rw [place]
        exact (Option.some_ne_none j).symm
      · exact fun call member => silent call (forwarded ▸ member)
  | @returns _ k handles health _ current obtained own =>
    exact ⟨⟨r, found⟩, elsewhere (unplaced current), silent⟩
  | @cancels _ k current =>
    obtain ⟨r', left⟩ := suppress_routed_some (i := k) found
    refine ⟨⟨r', ?_⟩, elsewhere (unplaced current), ?_⟩
    · change ((s.suppress k).cancelHandle k).routed j = some r'
      rw [cancelHandle_routed]
      exact left
    · change Silent ((s.suppress k).cancelHandle k) j
      unfold Silent
      rw [cancelHandle_forwarded]
      exact silent

end Attempts

end HeyeeAgent.StreamLlm
