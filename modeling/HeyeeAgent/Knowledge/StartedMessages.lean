import HeyeeAgent.Knowledge.StartChunking

/-! # The messages of started documents

A message and its document agree as long as every verdict is truthful: a check is answered by a
producer that knows as much as the call asked about, a rollback is not given before the conditional
update, and nothing raises between the commit and the verdict. A run over two calls shows that the
holder of another call answers a check wrongly.
-/

namespace HeyeeAgent.Knowledge.StartChunking

open Python Machine Messaging

variable {C : Type} [DecidableEq C]

section Lookups

@[simp] theorem calls_call_self (s : State C) (c : C) (call : Call) :
    (s.call c call).calls c = some call := by
  simp [State.call]

theorem calls_call_of_ne (s : State C) {c other : C} (call : Call) (differ : other ≠ c) :
    (s.call c call).calls other = s.calls other :=
  Function.update_of_ne differ _ _

omit [DecidableEq C] in
theorem moved_of_found {s : State C} {c : C} {call : Call} (found : s.calls c = some call) :
    s.Moved c ↔ call.moved = true := by
  simp [State.Moved, found]

theorem moved_call_of_ne (s : State C) {c other : C} (call : Call) (differ : other ≠ c) :
    (s.call c call).Moved other ↔ s.Moved other := by
  simp only [State.Moved, calls_call_of_ne s call differ]

/-- A call that is written back without a move leaves the moves as they were. -/
theorem moved_call {s : State C} {c : C} {call : Call} (same : call.moved = true ↔ s.Moved c) :
    (s.call c call).Moved = s.Moved := by
  funext other
  by_cases equal : other = c
  · subst equal
    rw [moved_of_found (calls_call_self s other call), eq_iff_iff]
    exact same
  · exact propext (moved_call_of_ne s call equal)

end Lookups

section Invariant

/-- What the stage of a call says about its move and its message. -/
def Call.Fits (half : Option Half) (call : Call) : Prop :=
  match call.stage with
  | .starting | .sending => call.moved = false
  | .executing => call.moved = false ∧ half ≠ none
  | .validating _ => call.moved = true
  | .answering verdict => verdict.Agrees (call.moved = true)
  | .closing _ | .responded _ | .raised | .stopped => True

structure Inv (s : State C) : Prop where
  truthful : s.broker.Truthful s.Moved
  stored : ∀ c, s.Moved c → s.broker.halves c ≠ none
  fits : ∀ c call, s.calls c = some call → call.Fits (s.broker.halves c)

theorem Call.Fits.of_stored {half half' : Option Half} {call : Call} (fits : call.Fits half)
    (stored : half ≠ none → half' ≠ none) : call.Fits half' := by
  unfold Call.Fits at fits ⊢
  split <;> simp_all only [ne_eq, not_false_eq_true, and_self]

omit [DecidableEq C] in
theorem inv_initial (db : Database) : Inv (initial db : State C) where
  truthful := .empty
  stored c moved := by
    obtain ⟨call, found, -⟩ := moved
    cases found
  fits c call found := by cases found

/-- Writing a call back keeps the invariant if the call fits and has not just moved. -/
theorem Inv.call {s : State C} (inv : Inv s) {c : C} {call : Call}
    (same : call.moved = true ↔ s.Moved c) (fits : call.Fits (s.broker.halves c)) :
    Inv (s.call c call) where
  truthful := by
    rw [moved_call same]
    exact inv.truthful
  stored other moved := by
    rw [moved_call same] at moved
    exact inv.stored other moved
  fits other found was := by
    by_cases equal : other = c
    · subst equal
      rw [calls_call_self, Option.some.injEq] at was
      subst was
      exact fits
    · rw [calls_call_of_ne s call equal] at was
      exact inv.fits other found was

/-- A call goes on to a stage that it fits, without moving its document. -/
theorem Inv.resume {s : State C} (inv : Inv s) {c : C} {call next : Call}
    (found : s.calls c = some call) (fits : next.Fits (s.broker.halves c))
    (same : next.moved = call.moved := by rfl) : Inv (s.call c next) := by
  apply inv.call _ fits
  rw [moved_of_found found, same]

omit [DecidableEq C] in
/-- A change of the broker keeps the invariant if it is truthful and drops no message. -/
theorem Inv.broker {s : State C} (inv : Inv s) {b : Broker C} (truthful : b.Truthful s.Moved)
    (stored : ∀ c, s.broker.halves c ≠ none → b.halves c ≠ none) :
    Inv { s with broker := b } where
  truthful := truthful
  stored c moved := stored c (inv.stored c moved)
  fits c call found := (inv.fits c call found).of_stored (stored c)

omit [DecidableEq C] in
/-- The other tables do not matter. -/
theorem Inv.db {s : State C} (inv : Inv s) (db : Database) : Inv { s with db } where
  truthful := inv.truthful
  stored := inv.stored
  fits := inv.fits

/-- The conditional update takes effect before any rollback of its message was given. -/
theorem Inv.move {s : State C} (inv : Inv s) {c : C} {call : Call}
    (opened : s.broker.Open c) (stored : s.broker.halves c ≠ none) (moved : call.moved = true)
    (fits : call.Fits (s.broker.halves c)) : Inv (s.call c call) where
  truthful := inv.truthful.finish opened ((moved_of_found (calls_call_self s c call)).mpr moved)
    fun other differ => moved_call_of_ne s call differ
  stored other now := by
    by_cases equal : other = c
    · subst equal
      exact stored
    · exact inv.stored other ((moved_call_of_ne s call equal).mp now)
  fits other found was := by
    by_cases equal : other = c
    · subst equal
      rw [calls_call_self, Option.some.injEq] at was
      subst was
      exact fits
    · rw [calls_call_of_ne s call equal] at was
      exact inv.fits other found was

omit [DecidableEq C] in
/-- In every state of the invariant the decided messages are right. -/
theorem Inv.agreed {s : State C} (inv : Inv s) : Agreed s := by
  intro c
  cases held : s.broker.halves c with
  | none => exact fun moved => inv.stored c moved held
  | some half =>
    cases half with
    | undecided => trivial
    | visible => exact inv.truthful.decided c .commit held
    | discarded => exact inv.truthful.decided c .rollback held

end Invariant

section Steps

/-- What the conditional update of one attempt leaves, by whether it takes effect. -/
theorem localTransaction_of_returned {cfg : Config} {db : Database} {call : Call}
    (effect : takesEffect db call .returned) :
    ∃ db' target, localTransaction cfg db call .returned = (db',
      { call with
        stage := .validating target
        transactionState := some target
        transactionHolder := some target
        moved := true }) := by
  obtain ⟨row, found⟩ := Option.isSome_iff_exists.mp (Bool.and_eq_true_iff.mp effect).2
  simp only [localTransaction, markDocumentChunkRunningCas, found]
  exact ⟨_, _, rfl⟩

theorem localTransaction_without_effect {cfg : Config} {db : Database} {call : Call}
    {commit : Commit} (idle : takesEffect db call commit = false) (unmoved : call.moved = false) :
    (localTransaction cfg db call commit).2 = { call with stage := .answering .rollback } := by
  cases commit with
  | failed => rfl
  | returned =>
    have missing : db.pendingDocument call.documentId = none := by
      simpa [takesEffect] using idle
    simp only [localTransaction, markDocumentChunkRunningCas, missing]
  | unacknowledged =>
    have missing : db.pendingDocument call.documentId = none := by
      simpa [takesEffect] using idle
    simp only [localTransaction, markDocumentChunkRunningCas, missing, Option.isSome_none, unmoved]

theorem inv_localTransaction {cfg : Config} {s t : State C} {c : C} {commit : Commit}
    (inv : Inv s) (met : Meets cfg s (.localTransaction c commit))
    (taken : step cfg s (.localTransaction c commit) = some t) : Inv t := by
  simp only [step] at taken
  split at taken
  case h_2 => cases taken
  case h_1 call found =>
    split at taken
    case h_2 => cases taken
    case h_1 stage =>
      rw [Option.some.injEq] at taken
      subst taken
      have fits := inv.fits c call found
      simp only [Call.Fits, stage] at fits
      obtain ⟨unmoved, stored⟩ := fits
      cases effect : takesEffect s.db call commit with
      | true =>
        obtain ⟨rfl, opened⟩ := met call found effect
        have written := @localTransaction_of_returned cfg _ _ effect
        obtain ⟨db', target, result⟩ := written
        rw [result]
        exact (inv.db db').move opened stored rfl rfl
      | false =>
        rw [localTransaction_without_effect effect unmoved]
        refine (inv.db _).resume found ?_
        simp [Call.Fits, unmoved]

theorem inv_validate {cfg : Config} {s t : State C} {c : C} (inv : Inv s)
    (met : Meets cfg s (.validate c)) (taken : step cfg s (.validate c) = some t) : Inv t := by
  simp only [step] at taken
  split at taken
  case h_2 => cases taken
  case h_1 call found =>
    split at taken
    case h_2 => cases taken
    case h_1 target stage =>
      rw [Option.some.injEq] at taken
      subst taken
      have moved := inv.fits c call found
      simp only [Call.Fits, stage] at moved
      have dumped := met call found
      simp only [Call.dumps, stage] at dumped
      obtain ⟨text, dumped⟩ := Option.isSome_iff_exists.mp dumped
      refine inv.resume found ?_
      simp only [Call.Fits, validate, dumped, Verdict.agrees_commit]
      exact moved

theorem inv_check {cfg : Config} {s t : State C} {asked producer : C} (inv : Inv s)
    (met : Meets cfg s (.check asked producer)) (taken : step cfg s (.check asked producer) = some t) :
    Inv t := by
  simp only [step] at taken
  split at taken
  case h_2 => cases taken
  case h_1 call found =>
    split at taken
    case isFalse => cases taken
    case isTrue =>
      rw [Option.some.injEq] at taken
      subst taken
      have knows := met call found
      apply inv.broker
      · apply inv.truthful.send
        unfold Call.checkCallback
        split
        case isTrue holds => exact knows.mp holds
        case isFalse lacks => exact fun moved => lacks (knows.mpr moved)
      · exact fun c stored => stored

theorem inv_step {cfg : Config} {s t : State C} {e : Event C} (inv : Inv s) (met : Meets cfg s e)
    (taken : step cfg s e = some t) : Inv t := by
  cases e with
  | localTransaction c commit => exact inv_localTransaction inv met taken
  | validate c => exact inv_validate inv met taken
  | check asked producer => exact inv_check inv met taken
  | start c documentId =>
    simp only [step] at taken
    split at taken
    case h_1 => cases taken
    case h_2 missing =>
      rw [Option.some.injEq] at taken
      subst taken
      apply inv.call
      · simp [State.Moved, missing]
      · by_cases blank : documentId.strip = [] <;> simp [Call.Fits, blank]
  | producerStart c started =>
    simp only [step] at taken
    split at taken
    case h_2 => cases taken
    case h_1 call found =>
      split at taken
      case h_2 => cases taken
      case h_1 stage =>
        rw [Option.some.injEq] at taken
        subst taken
        have unmoved := inv.fits c call found
        simp only [Call.Fits, stage] at unmoved
        refine inv.resume found ?_
        cases started <;> simp [Call.Fits, unmoved]
  | half c stored accepted =>
    simp only [step] at taken
    split at taken
    case h_2 => cases taken
    case h_1 call found =>
      split at taken
      case h_2 => cases taken
      case h_1 stage =>
        split at taken
        case isTrue => cases taken
        case isFalse possible =>
          rw [Option.some.injEq] at taken
          subst taken
          have unmoved := inv.fits c call found
          simp only [Call.Fits, stage] at unmoved
          cases stored with
          | true =>
            have kept : Inv { s with broker := s.broker.store c } :=
              inv.broker (inv.truthful.store c) fun other was => Broker.stored_store was c
            refine kept.resume found ?_
            cases accepted <;> simp [Call.Fits, unmoved]
          | false =>
            have refused : accepted = false := by simpa using possible
            subst refused
            exact inv.resume found trivial
  | endTransaction c sent returned =>
    simp only [step] at taken
    split at taken
    case h_2 => cases taken
    case h_1 call found =>
      split at taken
      case h_2 => cases taken
      case h_1 verdict stage =>
        rw [Option.some.injEq] at taken
        subst taken
        have agrees := inv.fits c call found
        simp only [Call.Fits, stage] at agrees
        cases sent with
        | true =>
          have kept : Inv { s with broker := s.broker.send c verdict } := by
            apply inv.broker
            · apply inv.truthful.send
              rwa [propext (moved_of_found found)]
            · exact fun other was => was
          exact kept.resume found trivial
        | false => exact inv.resume found trivial
  | shutdown c messageId =>
    simp only [step] at taken
    split at taken
    case h_2 => cases taken
    case h_1 call found =>
      split at taken
      case h_2 => cases taken
      case h_1 returned stage =>
        rw [Option.some.injEq] at taken
        subst taken
        refine inv.resume found ?_
        unfold respond
        split <;> trivial
  | arrive c verdict =>
    simp only [step] at taken
    split at taken
    case isFalse => cases taken
    case isTrue given =>
      rw [Option.some.injEq] at taken
      subst taken
      exact inv.broker (inv.truthful.arrive given)
        fun other was => Broker.stored_arrive was c verdict
  | lose c verdict =>
    simp only [step] at taken
    split at taken
    case isFalse => cases taken
    case isTrue =>
      rw [Option.some.injEq] at taken
      subst taken
      exact inv.broker (inv.truthful.lose c verdict) fun other was => was
  | change docId row =>
    cases taken
    exact inv.db _
  | stop c =>
    simp only [step] at taken
    split at taken
    case h_2 => cases taken
    case h_1 call found =>
      rw [Option.some.injEq] at taken
      subst taken
      exact inv.resume found trivial

end Steps

/-- Along every run whose steps meet the condition, from any tables, the message of each call is
visible exactly if its own update moved the document. -/
theorem always_agreed (cfg : Config) (db : Database) (es : List (Event C))
    (along : Along (step cfg) (Meets cfg) (initial db) es) :
    Always (step cfg) Agreed (initial db) es :=
  (always_of_along (fun _ _ _ inv met taken => inv_step inv met taken) (inv_initial db) along).mono
    fun _ inv => inv.agreed

section Runs

private def manual : Database where
  documents docId :=
    if docId = .lit "doc-1" then
      some
        { kbId := .lit "kb-1"
          docName := .lit "manual.pdf"
          fileUrl := .lit "s3://bucket/manual.pdf"
          fileType := .lit "pdf"
          fileSize := some 123
          sourceType := .lit "FILE"
          chunkStrategy := .lit "fixed_size"
          chunkConfig := none
          createdBy := none
          updatedBy := none }
    else none

private def plain : Config where
  dumps _ := some []

/-- A call up to its verdict, with the broker and the database answering. -/
private def executed (c : ℕ) : List (Event ℕ) :=
  [.start c (.lit "doc-1"), .producerStart c true, .half c true true, .localTransaction c .returned]

/-- Two calls for one document; the first is asked about its own message. -/
private def answeredRun : List (Event ℕ) :=
  executed 0 ++ [.check 0 0, .validate 0, .arrive 0 .commit, .endTransaction 0 true true] ++
    executed 1 ++ [.endTransaction 1 true true, .arrive 1 .rollback, .shutdown 0 none, .shutdown 1 none]

theorem answeredRun_agreed :
    ((runFrom (step plain) (initial manual) answeredRun).any fun s =>
      s.broker.halves 0 = some .visible && s.broker.halves 1 = some .discarded) = true ∧
    Always (step plain) Agreed (initial manual) answeredRun :=
  ⟨by decide +kernel, always_agreed plain manual answeredRun (by decide +kernel)⟩

/-- The second call finds the document running, and the producer of the first answers for it. -/
private def crossedRun : List (Event ℕ) :=
  executed 0 ++ executed 1 ++ [.check 1 0, .arrive 1 .commit]

theorem crossedRun_disagrees :
    ∃ s, runFrom (step plain) (initial manual) crossedRun = some s ∧
      s.broker.halves 1 = some .visible ∧ ¬ s.Moved 1 ∧ ¬ Agreed s := by
  have ends : ((runFrom (step plain) (initial manual) crossedRun).any fun s =>
      s.broker.halves 1 = some .visible && !decide (s.Moved 1)) = true := by decide +kernel
  obtain ⟨s, run, parted⟩ := (Option.any_eq_true _ _).mp ends
  simp only [Bool.and_eq_true, decide_eq_true_eq, Bool.not_eq_true', decide_eq_false_iff_not]
    at parted
  refine ⟨s, run, parted.1, parted.2, fun agreed => ?_⟩
  have moved := agreed 1
  rw [parted.1] at moved
  exact parted.2 moved

end Runs

end HeyeeAgent.Knowledge.StartChunking
