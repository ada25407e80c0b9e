import HeyeeAgent.StreamChat.Children

/-! # From the callbacks to the `message` events

The callback side schedules, pushes and drops; the stream takes from the queue and sends. As long
as nothing has been dropped, the events called are those taken, queued and scheduled, in order;
from the first drop on nothing is added to the queue any more. So the deltas sent are a prefix of
those called, and a stream that has taken `complete`, the last event called, has sent them all.
-/

namespace HeyeeAgent.StreamChat.Lifecycle

open Python StreamQueueLimiter Coroutine

/-- The data of the `message` event for a delta. -/
def StreamEvent.delta : StreamEvent → Option Json
  | .thinking delta => some (deltaData "think" delta)
  | .content delta => some (deltaData "response" delta)
  | _ => none

def deltas (events : List StreamEvent) : List Json := events.filterMap StreamEvent.delta

/-- The data of the `message` events sent. -/
def messages (s : State) : List Json :=
  s.emitted.filterMap fun event => if event.name = "message" then some event.data else none

/-- The events of this name have been sent. -/
def Sent (s : State) (name : String) : Prop := ∃ event ∈ s.emitted, event.name = name

/-- The called events are those taken, those queued and the rest; the rest is on its way until
something is dropped. -/
def Flow (s : State) : Prop := ∃ rest, s.called = s.taken ++ s.queue ++ rest ∧
  (s.overflowed = false → rest = s.scheduled) ∧ (s.overflowed = true → rest ≠ [])

/-- The callback side. With a handle bound, an overflow has cancelled it. -/
structure Piped (s : State) : Prop where
  flow : Flow s
  unstarted : s.modelStartTask.isNone = true → s.called = []
  started : s.callbackHandle = true → s.Attended .modelStart
  cancelled : s.callbackHandle = true → s.overflowed = true → s.Attended .modelStream
  bound : s.handle = true → s.callbackHandle = true

section Actions

variable {cfg : Config} {s t : State} {e : Action}

/-- The queue between the callbacks and the stream. -/
structure SamePipe (s t : State) : Prop where
  scheduled : t.scheduled = s.scheduled
  queue : t.queue = s.queue
  called : t.called = s.called
  overflowed : t.overflowed = s.overflowed

theorem pipe_cancelHandle (s : State) (tasks : StreamTaskManager ChildRef)
    (handle : Option ChildRef) : SamePipe s ({ s with tasks }.cancelHandle handle) := by
  cases handle with
  | none => exact ⟨rfl, rfl, rfl, rfl⟩
  | some ref => cases ref <;> exact ⟨rfl, rfl, rfl, rfl⟩

theorem pipe_cancelChild (s : State) (ref : ChildRef) : SamePipe s (s.cancelChild ref) := by
  cases ref <;> exact ⟨rfl, rfl, rfl, rfl⟩

/-- Only the callbacks and their pushes write the queue. -/
theorem act_pipe (taken : act cfg s e = some t) : SamePipe s t ∨
    (∃ event, s.modelStartTask.isSome = true ∧
      t = { s with called := s.called ++ [event] }.schedule event) ∨ s.push cfg = some t := by
  cases e with
  | callback event =>
    simp only [act] at taken
    split_ifs at taken with started
    cases taken
    exact .inr (.inl ⟨event, started, rfl⟩)
  | push => exact .inr (.inr taken)
  | cancel => cases taken; exact .inl (pipe_cancelHandle s _ _)
  | interruptModelStart => cases taken; exact .inl (pipe_cancelChild s _)
  | purge | closeLimiter => cases taken; exact .inl ⟨rfl, rfl, rfl, rfl⟩
  | elapse seconds | entry taskId info =>
    simp only [act] at taken
    split_ifs at taken
    cases taken
    exact .inl ⟨rfl, rfl, rfl, rfl⟩
  | preparationEnds result | leaseEnds cancelled | modelStartEnds result | modelStreamEnds |
    executeZrem =>
    simp only [act] at taken
    split at taken <;> cases taken
    all_goals exact .inl ⟨rfl, rfl, rfl, rfl⟩

theorem schedule_overflowed (s : State) (event : StreamEvent) :
    (s.schedule event).overflowed = s.overflowed := by
  unfold State.schedule
  split_ifs <;> rfl

theorem flow_callback (flow : Flow s) (event : StreamEvent) :
    Flow ({ s with called := s.called ++ [event] }.schedule event) := by
  obtain ⟨rest, called, scheduled, -⟩ := flow
  unfold State.schedule
  refine ⟨rest ++ [event], ?_, ?_, by simp⟩
  · split_ifs <;> simp [called]
  · split_ifs with flooded
    · exact fun fits => (Bool.eq_false_iff.mp fits flooded).elim
    · exact fun fits => by simp [scheduled fits]

theorem flow_push (taken : s.push cfg = some t) (flow : Flow s) : Flow t := by
  obtain ⟨rest, called, scheduled, dropped⟩ := flow
  unfold State.push at taken
  cases next : s.scheduled with
  | nil => simp [next] at taken
  | cons event later =>
    rw [next] at taken
    dsimp only at taken
    split_ifs at taken with flooded full bound <;> cases taken
    · exact ⟨rest, called, by simp [flooded], dropped⟩
    · refine ⟨rest, called, nofun, fun _ => ?_⟩
      rw [scheduled (by simpa using flooded), next]
      exact List.cons_ne_nil _ _
    · refine ⟨rest, called, nofun, fun _ => ?_⟩
      rw [scheduled (by simpa using flooded), next]
      exact List.cons_ne_nil _ _
    · refine ⟨later, ?_, fun _ => rfl, fun flooded' => absurd flooded' flooded⟩
      rw [called, scheduled (by simpa using flooded), next]
      simp

theorem called_push (taken : s.push cfg = some t) : t.called = s.called := by
  unfold State.push at taken
  split at taken
  · cases taken
  · dsimp only at taken
    split_ifs at taken <;> cases taken <;> rfl

/-- A push that drops an event cancels the stream behind a bound handle. -/
theorem overflowed_push (taken : s.push cfg = some t) (bound : s.callbackHandle = true)
    (flooded : t.overflowed = true) : s.overflowed = true ∨ t.Attended .modelStream := by
  unfold State.push at taken
  split at taken
  · cases taken
  · dsimp only at taken
    split_ifs at taken with earlier <;> cases taken
    · exact .inl earlier
    · exact .inr (attended_cancelChild _ _)
    · exact .inl flooded

theorem Piped.act (piped : Piped s) (taken : Lifecycle.act cfg s e = some t) : Piped t := by
  have same := act_locals taken
  have started (bound : t.callbackHandle = true) : t.Attended .modelStart :=
    attended_act taken (piped.started (same.callbackHandle ▸ bound)) nofun
  have cancelled (bound : t.callbackHandle = true) (flooded : s.overflowed = true) :
      t.Attended .modelStream :=
    attended_act taken (piped.cancelled (same.callbackHandle ▸ bound) flooded) fun _ =>
      piped.started (same.callbackHandle ▸ bound)
  have bound (handle : t.handle = true) : t.callbackHandle = true :=
    same.callbackHandle ▸ piped.bound (same.handle ▸ handle)
  have idle (unstarted : t.modelStartTask.isNone = true) : s.called = [] :=
    piped.unstarted (same.starting ▸ unstarted)
  rcases act_pipe taken with pipe | ⟨event, running, rfl⟩ | pushed
  · refine ⟨?_, fun unstarted => pipe.called.trans (idle unstarted), started, ?_, bound⟩
    · unfold Flow
      rw [pipe.called, pipe.queue, same.taken, pipe.overflowed, pipe.scheduled]
      exact piped.flow
    · exact fun bound flooded => cancelled bound (pipe.overflowed ▸ flooded)
  · refine ⟨flow_callback piped.flow event, fun unstarted => ?_, started, fun bound flooded => ?_,
      bound⟩
    · rw [same.starting] at unstarted
      simp [Option.isNone_iff_eq_none.mp unstarted] at running
    · exact cancelled bound
        (.trans (schedule_overflowed { s with called := s.called ++ [event] } event).symm flooded)
  · refine ⟨flow_push pushed piped.flow, fun unstarted => (called_push pushed).trans (idle unstarted),
      started, fun bound flooded => ?_, bound⟩
    rcases overflowed_push pushed (same.callbackHandle ▸ bound) flooded with earlier | attended
    · exact cancelled bound earlier
    · exact attended

end Actions

/-- The start of the model has ended, and the stream behind it is bound or attended. -/
def Settled (s : State) : Prop :=
  s.callbackHandle = true ∨ s.Attended .modelStart ∧ s.Attended .modelStream

/-- The callback side, and under `q` no stream that is left behind an interrupted start. -/
structure Held (q : Prop) (s : State) : Prop extends Piped s where
  settled : q → Settled s

/-- The generator is not cancelled between the end of the model start and the binding of its
handle. -/
def Received : Visit State Point Raised Reply → Prop
  | ⟨.modelStart, s, .error _⟩ => s.modelStartTask ≠ some (.ended (.ok ()))
  | _ => True

/-- What the stream has taken and sent, and whether it has the handle. -/
structure SameProgress (s t : State) : Prop where
  shown : messages t = messages s
  finish : Sent t "finish" → Sent s "finish"
  taken : t.taken = s.taken
  starting : t.modelStartTask.isNone = s.modelStartTask.isNone
  callbackHandle : t.callbackHandle = s.callbackHandle

/-- At any time the deltas sent are the first of those taken, and a `finish` follows the last. -/
def Delivered (s : State) : Prop :=
  messages s <+: deltas s.taken ∧ (Sent s "finish" → messages s = deltas s.taken ∧
    (s.modelStartTask.isNone = true ∨ ∃ earlier, s.taken = earlier ++ [.complete]))

/-- What holds while the generator is suspended. -/
def Flowing (s : State) : Prop := Piped s ∧ Delivered s

/-- Every delta taken has been sent, and the answer goes on. -/
def Level (s : State) : Prop := messages s = deltas s.taken ∧ ¬ Sent s "finish"

/-- The model has not been started. -/
def Waiting (s : State) : Prop :=
  Level s ∧ s.modelStartTask.isNone = true ∧ s.callbackHandle = false

section Framed

variable {cfg : Config} {q : Prop} {s t : State} {K : State → Prop}

theorem Settled.act (settled : Settled s) {e : Action} (taken : Lifecycle.act cfg s e = some t) :
    Settled t :=
  settled.imp (fun bound => (act_locals taken).callbackHandle.trans bound) fun ⟨start, stream⟩ =>
    ⟨attended_act taken start nofun, attended_act taken stream fun _ => start⟩

theorem Settled.cancelChild (settled : Settled s) (ref : ChildRef) : Settled (s.cancelChild ref) :=
  settled.imp (fun bound => (locals_cancelChild s ref).callbackHandle.trans bound)
    fun ⟨start, stream⟩ => ⟨start.cancelChild ref, stream.cancelChild ref⟩

theorem Piped.cancelChild (piped : Piped s) (ref : ChildRef) : Piped (s.cancelChild ref) := by
  have same := locals_cancelChild s ref
  have pipe := pipe_cancelChild s ref
  refine ⟨?_, fun unstarted => ?_, fun bound => ?_, fun bound flooded => ?_, fun handle => ?_⟩
  · unfold Flow
    rw [pipe.called, pipe.queue, same.taken, pipe.overflowed, pipe.scheduled]
    exact piped.flow
  · exact pipe.called.trans (piped.unstarted (same.starting ▸ unstarted))
  · exact (piped.started (same.callbackHandle ▸ bound)).cancelChild ref
  · exact (piped.cancelled (same.callbackHandle ▸ bound) (pipe.overflowed ▸ flooded)).cancelChild ref
  · exact same.callbackHandle.trans (piped.bound (same.handle ▸ handle))

theorem SameProgress.of_locals (same : SameLocals s t) : SameProgress s t := by
  refine ⟨?_, ?_, same.taken, same.starting, same.callbackHandle⟩
  · unfold messages
    rw [same.emitted]
  · unfold Sent
    rw [same.emitted]
    exact id

theorem messages_append (s : State) (data : Json) {name : String} (other : name ≠ "message") :
    messages { s with emitted := s.emitted ++ [⟨name, data⟩] } = messages s := by
  simp [messages, other]

theorem sent_append (s : State) (data : Json) {name name' : String} (other : name ≠ name')
    (sent : Sent { s with emitted := s.emitted ++ [⟨name, data⟩] } name') : Sent s name' := by
  obtain ⟨event, member, named⟩ := sent
  rcases List.mem_append.mp member with earlier | last
  · exact ⟨event, earlier, named⟩
  · rw [List.mem_singleton.mp last] at named
    exact absurd named other

theorem Piped.same (piped : Piped s) (emitted : List SseEvent) : Piped { s with emitted } :=
  ⟨piped.flow, piped.unstarted, piped.started, piped.cancelled, piped.bound⟩

variable (respects : ∀ s t, SameProgress s t → K s → K t)
include respects

theorem framed_held (delivered : ∀ s, K s → Delivered s) :
    Framed cfg Flowing (fun s => Held q s ∧ K s) where
  waits s holds := ⟨holds.1.toPiped, delivered s holds.2⟩
  act s _ t holds taken := ⟨⟨holds.1.toPiped.act taken, fun known => (holds.1.settled known).act taken⟩,
    respects s t (.of_locals (act_locals taken)) holds.2⟩
  cancelChild s ref holds := ⟨⟨holds.1.toPiped.cancelChild ref, fun known =>
    (holds.1.settled known).cancelChild ref⟩,
    respects s _ (.of_locals (locals_cancelChild s ref)) holds.2⟩
  registry s _ _ _ holds := ⟨⟨⟨holds.1.flow, holds.1.unstarted, holds.1.started,
    holds.1.cancelled, holds.1.bound⟩, holds.1.settled⟩, respects s _ ⟨rfl, id, rfl, rfl, rfl⟩ holds.2⟩
  lease s holds := ⟨⟨⟨holds.1.flow, holds.1.unstarted, holds.1.started, holds.1.cancelled,
    holds.1.bound⟩, holds.1.settled⟩, respects s _ ⟨rfl, id, rfl, rfl, rfl⟩ holds.2⟩

theorem persists_held : Persists fun s => Held q s ∧ K s := fun s _ _ _ holds =>
  ⟨⟨⟨holds.1.flow, holds.1.unstarted, holds.1.started, holds.1.cancelled, holds.1.bound⟩,
    holds.1.settled⟩, respects s _ ⟨rfl, id, rfl, rfl, rfl⟩ holds.2⟩

theorem emits_held {name : String} (message : name ≠ "message") (finish : name ≠ "finish") :
    Emits (fun s => Held q s ∧ K s) name := fun s data holds =>
  ⟨⟨holds.1.toPiped.same _, holds.1.settled⟩, respects s _ ⟨messages_append s data message,
    sent_append s data finish, rfl, rfl, rfl⟩ holds.2⟩

theorem emitsEnds_held : EmitsEnds fun s => Held q s ∧ K s :=
  ⟨emits_held respects (by decide) (by decide), emits_held respects (by decide) (by decide),
    emits_held respects (by decide) (by decide)⟩

end Framed

section Parts

variable {cfg : Config} {q : Prop} {s t : State}

theorem delivered_respects (s t : State) (same : SameProgress s t) (delivered : Delivered s) :
    Delivered t := by
  unfold Delivered
  rw [same.shown, same.taken, same.starting]
  exact ⟨delivered.1, fun finished => delivered.2 (same.finish finished)⟩

theorem level_respects (s t : State) (same : SameProgress s t) (level : Level s) : Level t := by
  unfold Level
  rw [same.shown, same.taken]
  exact ⟨level.1, fun finished => level.2 (same.finish finished)⟩

theorem waiting_respects (s t : State) (same : SameProgress s t) (waiting : Waiting s) :
    Waiting t := by
  unfold Waiting
  rw [same.starting, same.callbackHandle]
  exact ⟨level_respects s t same waiting.1, waiting.2⟩

theorem Level.delivered (level : Level s) : Delivered s :=
  ⟨level.1 ▸ List.prefix_refl _, fun finished => absurd finished level.2⟩

/-- What ends or raises inside the generator. -/
def Ending (q : Prop) (s : State) : Prop := Held q s ∧ Delivered s

theorem framed_ending : Framed cfg Flowing (Ending q) :=
  framed_held delivered_respects fun _ => id

theorem framed_level : Framed cfg Flowing fun s => Held q s ∧ Level s :=
  framed_held level_respects fun _ => Level.delivered

theorem framed_waiting : Framed cfg Flowing fun s => Held q s ∧ Waiting s :=
  framed_held waiting_respects fun _ waiting => waiting.1.delivered

/-- The condition along the run. -/
def Bindable (q : Prop) (v : Visit State Point Raised Reply) : Prop := q → Received v

/-- A run that keeps some assertion may raise in it. -/
theorem raises_ending {α : Type} {m : StreamCo α} {K : State → Prop}
    {C : Visit State Point Raised Reply → Prop}
    (delivered : ∀ s, K s → Delivered s)
    (keeps : Keeps C Flowing (fun s => Held q s ∧ K s) m) :
    Triple C Flowing (fun s => Held q s ∧ K s) m
      (fun _ s => Held q s ∧ K s) (fun _ => Ending q) :=
  keeps.weaken_exc fun _ s holds => ⟨holds.1, delivered s holds.2⟩

/-- The event just taken is not sent yet. -/
def Taken (event : StreamEvent) (s : State) : Prop :=
  ∃ earlier, s.taken = earlier ++ [event] ∧ messages s = deltas earlier ∧ ¬ Sent s "finish"

theorem Taken.delivered {event : StreamEvent} (holds : Taken event s) : Delivered s := by
  obtain ⟨earlier, taken, shown, unfinished⟩ := holds
  refine ⟨?_, fun finished => absurd finished unfinished⟩
  rw [taken, shown, deltas, deltas, List.filterMap_append]
  exact List.prefix_append _ _

theorem taken_respects (event : StreamEvent) (s t : State) (same : SameProgress s t)
    (holds : Taken event s) : Taken event t := by
  unfold Taken
  rw [same.shown, same.taken]
  obtain ⟨earlier, taken, shown, unfinished⟩ := holds
  exact ⟨earlier, taken, shown, fun finished => unfinished (same.finish finished)⟩

/-- The answer is complete, whether or not its `finish` has been sent. -/
def Completed (s : State) : Prop :=
  messages s = deltas s.taken ∧ ∃ earlier, s.taken = earlier ++ [.complete]

theorem Completed.delivered (completed : Completed s) : Delivered s :=
  ⟨completed.1 ▸ List.prefix_refl _, fun _ => ⟨completed.1, .inr completed.2⟩⟩

theorem completed_respects (s t : State) (same : SameProgress s t) (completed : Completed s) :
    Completed t := by
  unfold Completed
  rw [same.shown, same.taken]
  exact completed

theorem framed_completed :
    Framed cfg Flowing fun s => Held q s ∧ Completed s :=
  framed_held completed_respects fun _ => Completed.delivered

theorem Taken.completed (holds : Taken .complete s) : Completed s := by
  obtain ⟨earlier, taken, shown, -⟩ := holds
  refine ⟨?_, earlier, taken⟩
  rw [shown, taken, deltas, deltas, List.filterMap_append]
  simp [StreamEvent.delta]

theorem emits_completed {name : String} (other : name ≠ "message") :
    Emits (fun s => Held q s ∧ Completed s) name := fun s data ⟨held, shown, complete⟩ =>
  ⟨⟨held.toPiped.same _, held.settled⟩, (messages_append s data other).trans shown, complete⟩

/-- The delta taken is sent. -/
theorem delivers_delta {event : StreamEvent} {data : Json} (delta : event.delta = some data) :
    Triple (Bindable q) Flowing (fun s => Held q s ∧ Taken event s)
      (yieldEvent cfg "message" data) (fun _ s => Held q s ∧ Level s) (fun _ => Ending q) := by
  unfold yieldEvent
  refine .ite (fun _ => .bind (fun _ s => Held q s ∧ Level s) (.modify ?_) fun _ =>
    raises_ending (fun _ => Level.delivered) (keeps_await framed_level _))
    fun _ => .raise fun s holds => ⟨holds.1, holds.2.delivered⟩
  rintro s ⟨held, earlier, taken, shown, unfinished⟩
  refine ⟨⟨held.toPiped.same _, held.settled⟩, ?_, fun finished => ?_⟩
  · rw [taken, deltas, List.filterMap_append]
    simp only [messages, List.filterMap_append] at shown ⊢
    rw [shown]
    simp [deltas, delta]
  · exact unfinished (sent_append s data (by decide) finished)

theorem delivers_answerComplete (preparation : ChatPreparation) :
    Triple (Bindable q) Flowing (fun s => Held q s ∧ Taken .complete s)
      (answerComplete cfg preparation) (fun _ => Ending q) (fun _ => Ending q) := by
  have emits {name : String} (other : name ≠ "message") := emits_completed (q := q) other
  have kept : Keeps (Bindable q) Flowing (fun s => Held q s ∧ Completed s)
      (answerComplete cfg preparation) := by
    refine .bind .get fun _ => .ite (keeps_yieldTwo framed_completed (emits (by decide))
      (emits (by decide)) _ _) (.bind (keeps_completePreparation framed_completed
      (persists_held completed_respects).stores _ _ _ _) fun _ => ?_)
    exact keeps_yieldTwo framed_completed (emits (by decide)) (emits (by decide)) _ _
  exact kept.conseq (fun s holds => ⟨holds.1, holds.2.completed⟩)
    (fun _ s holds => ⟨holds.1, holds.2.delivered⟩) fun _ s holds => ⟨holds.1, holds.2.delivered⟩

theorem keeps_ending_answerError :
    Keeps (Bindable q) Flowing (Ending q) (answerError cfg) :=
  keeps_answerError framed_ending (persists_held delivered_respects)
    (emitsEnds_held delivered_respects)

/-- What a round leaves: the next round, or the end. -/
def Turned (q : Prop) (next : Option Unit) (s : State) : Prop :=
  if next.isSome then Ending q s else Held q s ∧ Level s

theorem delivers_consumeEvent (preparation : ChatPreparation) (event : StreamEvent) :
    Triple (Bindable q) Flowing (fun s => Held q s ∧ Taken event s)
      (consumeEvent cfg preparation event) (Turned q) (fun _ => Ending q) := by
  cases event with
  | thinking delta => exact .bind _ (delivers_delta rfl) fun _ => .pure fun _ => id
  | content delta =>
    refine .bind (fun _ s => Held q s ∧ Taken (.content delta) s) (.modify fun s holds => ?_)
      fun _ => .bind _ (delivers_delta rfl) fun _ => .pure fun _ => id
    exact ⟨⟨⟨holds.1.flow, holds.1.unstarted, holds.1.started, holds.1.cancelled, holds.1.bound⟩,
      holds.1.settled⟩, taken_respects _ s _ ⟨rfl, id, rfl, rfl, rfl⟩ holds.2⟩
  | complete =>
    exact .bind _ (delivers_answerComplete preparation) fun _ => .pure fun _ => id
  | error message =>
    exact .bind _ (keeps_ending_answerError.strengthen_pre fun s holds =>
      ⟨holds.1, holds.2.delivered⟩) fun _ => .pure fun _ => id

/-- What `wait_for(queue.get())` leaves. -/
def Fetched (q : Prop) : Option StreamEvent → State → Prop
  | some event, s => Held q s ∧ Taken event s
  | none, s => Held q s ∧ Level s

/-- An event moves from the queue to the stream. -/
theorem delivers_queueGet :
    Triple (Bindable q) Flowing (fun s => Held q s ∧ Level s)
      (queueGet cfg) (Fetched q) (fun _ => Ending q) := by
  refine .tryCatch (fun _ s => Held q s ∧ Level s) (.bind _ (keeps_await framed_level _) fun _ =>
    .bind (fun s t => s = t ∧ Held q t ∧ Level t) (.get fun s holds => ⟨rfl, holds⟩)
    fun s => ?_) fun x => .ite (fun _ => .pure fun _ => id)
    fun _ => .raise fun s holds => ⟨holds.1, holds.2.delivered⟩
  split
  · rename_i event queue next
    refine .bind (fun _ s => Held q s ∧ Taken event s) (.modify ?_) fun _ => .pure fun _ => id
    rintro t ⟨rfl, held, shown, unfinished⟩
    obtain ⟨rest, called, scheduled, dropped⟩ := held.flow
    refine ⟨⟨⟨⟨rest, ?_, scheduled, dropped⟩, held.unstarted, held.started, held.cancelled,
      held.bound⟩, held.settled⟩, s.taken, rfl, shown, unfinished⟩
    rw [called, next]
    simp
  · exact .raise fun t holds => holds.2

theorem delivers_consumeRound (preparation : ChatPreparation) :
    Triple (Bindable q) Flowing (fun s => Held q s ∧ Level s)
      (consumeRound cfg preparation) (Turned q) (fun _ => Ending q) := by
  have level {α : Type} {m : StreamCo α}
      (keeps : Keeps (Bindable q) Flowing (fun s => Held q s ∧ Level s) m) :=
    raises_ending (fun _ => Level.delivered) keeps
  have frame : Framed cfg Flowing fun s => Held q s ∧ Level s := framed_level
  have ends := emitsEnds_held (q := q) level_respects
  have stops {m : StreamCo Unit}
      (keeps : Keeps (Bindable q) Flowing (fun s => Held q s ∧ Level s) m) :
      Triple (Bindable q) Flowing (fun s => Held q s ∧ Level s)
        (m >>= fun _ => pure (some ())) (Turned q) (fun _ => Ending q) :=
    .bind _ (level keeps) fun _ => .pure fun s holds => ⟨holds.1, holds.2.delivered⟩
  refine .bind (fun _ s => Held q s ∧ Level s) (.get fun _ => id) fun s => .ite (fun _ => ?overflowed)
    fun _ => .bind _ (level (keeps_disconnected frame)) fun gone => .ite (fun _ => ?gone)
    fun _ => .bind _ (level (keeps_isCancelled frame)) fun cancelled => .ite
    (fun _ => stops (keeps_yieldCancel frame (persists_held level_respects) ends)) fun _ =>
    .bind _ delivers_queueGet fun event => ?event
  case overflowed =>
    exact .bind _ (level (.modify fun s holds => frame.cancelChild s _ holds)) fun _ =>
      .bind _ (level (keeps_yieldEvent frame ends.error _)) fun _ =>
      stops (keeps_yieldEvent frame ends.done _)
  case gone =>
    exact .bind _ (level (keeps_taskManagerCancel frame)) fun _ => .bind _
      (level (keeps_cancelledPayload frame (persists_held level_respects))) fun _ =>
      .pure fun s holds => ⟨holds.1, holds.2.delivered⟩
  case event =>
    cases event with
    | none => exact .pure fun _ => id
    | some event => exact delivers_consumeEvent preparation event

end Parts

section Start

variable {cfg : Config} {q : Prop} {s t : State} {e : Action}

theorem ended_cancelChild {result : Except Raised Unit}
    (ended : s.modelStartTask = some (.ended result)) (ref : ChildRef) :
    (s.cancelChild ref).modelStartTask = some (.ended result) := by
  cases ref with
  | modelStart => simp [State.cancelChild, ended, Child.cancel]
  | preparation | modelStream | foreign => exact ended

/-- A start that has ended keeps its result. -/
theorem ended_act {result : Except Raised Unit} (taken : act cfg s e = some t)
    (ended : s.modelStartTask = some (.ended result)) : t.modelStartTask = some (.ended result) := by
  cases e with
  | modelStartEnds result => simp [act, ended] at taken
  | interruptModelStart => cases taken; exact ended_cancelChild ended _
  | cancel =>
    cases taken
    unfold State.cancelLocal State.cancelHandle
    dsimp only
    split
    · exact ended_cancelChild (s := { s with tasks := (s.tasks.cancelLocal s.now cfg.taskId).1 })
        ended _
    · exact ended
  | purge | closeLimiter => cases taken; exact ended
  | elapse seconds | entry taskId info =>
    simp only [act] at taken
    split_ifs at taken
    cases taken
    exact ended
  | callback event =>
    simp only [act] at taken
    split_ifs at taken
    cases taken
    unfold State.schedule
    split_ifs <;> exact ended
  | push =>
    simp only [act, State.push] at taken
    split at taken
    · cases taken
    · split_ifs at taken <;> cases taken
      all_goals exact ended
  | preparationEnds result | leaseEnds cancelled | modelStreamEnds | executeZrem =>
    simp only [act] at taken
    split at taken <;> cases taken
    all_goals exact ended

/-- While the start runs, no stream is there. -/
structure Launching (q : Prop) (s : State) : Prop where
  piped : Piped s
  level : Level s
  streamless : q → s.Attended .modelStream ∨ s.modelStartTask = some (.ended (.ok ()))

theorem Launching.act (launching : Launching q s) (taken : Lifecycle.act cfg s e = some t) :
    Launching q t where
  piped := launching.piped.act taken
  level := level_respects s t (.of_locals (act_locals taken)) launching.level
  streamless holds := by
    rcases launching.streamless holds with attended | ended
    · exact (attended_or_started taken attended).imp id fun started => started.2.2
    · exact .inr (ended_act taken ended)

/-- The start begins. -/
theorem delivers_begin {exc : Raised → State → Prop} :
    Triple (Bindable q) Flowing (fun s => Held q s ∧ Waiting s)
      (Co.modify fun s => { s with
        answerStartedAt := some s.now
        modelStartTask := some (.running false) } : StreamCo Unit)
      (fun _ s => Piped s ∧ Level s ∧ (q → s.Attended .modelStream)) exc := by
  refine .modify ?_
  rintro s ⟨held, level, -, unbound⟩
  refine ⟨⟨held.flow, nofun, fun bound => ?_, fun bound => ?_, held.bound⟩, level, fun holds => ?_⟩
  · simp [unbound] at bound
  · simp [unbound] at bound
  · exact ((held.settled holds).resolve_left (by simp [unbound])).2

/-- Its handle is offered to the registry before anything else can run. -/
theorem delivers_offer {exc : Raised → State → Prop} :
    Triple (Bindable q) Flowing (fun s => Piped s ∧ Level s ∧ (q → s.Attended .modelStream))
      (Lifecycle.bind cfg .modelStart)
      (fun _ s => Piped s ∧ Level s ∧ (q → s.Attended .modelStream)) exc := by
  refine .bind (fun s t => t = s ∧ Piped t ∧ Level t ∧ (q → t.Attended .modelStream))
    (.get fun s holds => ⟨rfl, holds⟩) fun s => .bind (fun _ s => Piped s ∧ Level s ∧
    (q → s.Attended .modelStream)) (.modify ?_) fun _ => .pure fun _ => id
  rintro t ⟨rfl, piped, level, streamless⟩
  let bound := t.tasks.bind cfg.taskId .modelStart
  change Piped ({ t with tasks := bound.1 }.cancelHandle bound.2.2) ∧
    Level ({ t with tasks := bound.1 }.cancelHandle bound.2.2) ∧
    (q → State.Attended ({ t with tasks := bound.1 }.cancelHandle bound.2.2) .modelStream)
  have kept : Piped { t with tasks := bound.1 } :=
    ⟨piped.flow, piped.unstarted, piped.started, piped.cancelled, piped.bound⟩
  cases bound.2.2 with
  | none => exact ⟨kept, level, streamless⟩
  | some ref =>
    refine ⟨kept.cancelChild ref, ?_, fun holds => State.Attended.cancelChild ?_ ref⟩
    · exact level_respects t _ (.of_locals (locals_registry t _ (some ref))) level
    · exact streamless holds

/-- The start ends with a stream, or the generator is interrupted there. -/
theorem delivers_start :
    Triple (Bindable q) Flowing (fun s => Piped s ∧ Level s ∧ (q → s.Attended .modelStream))
      (await cfg .modelStart)
      (fun _ s => Piped s ∧ Level s ∧ s.modelStartTask = some (.ended (.ok ())))
      (fun _ => Ending q) := by
  have awaited : Triple (Bindable q) Flowing (Launching q) (await cfg .modelStart)
      (fun _ s => Piped s ∧ Level s ∧ s.modelStartTask = some (.ended (.ok ())))
      (fun _ => Ending q) := by
    refine .await (fun s launching => ⟨launching.piped, launching.level.delivered⟩)
      (fun s e t launching taken => launching.act taken) ?_ ?_
    · intro s reply launching admitted _
      simp only [world, admits] at admitted
      split at admitted
      · rename_i ended
        exact ⟨launching.piped, launching.level, ended⟩
      · cases admitted
    · intro s x launching admitted received
      refine ⟨⟨launching.piped, fun holds => .inr ⟨attended_of_admitted admitted, ?_⟩⟩,
        launching.level.delivered⟩
      exact (launching.streamless holds).resolve_right (received holds)
  apply awaited.conseq
  · rintro s ⟨piped, level, streamless⟩
    exact ⟨piped, level, fun holds => .inl (streamless holds)⟩
  · exact fun _ _ => id
  · exact fun _ _ => id

/-- From now on an overflow cancels the stream, and one before has just done so. -/
theorem delivers_bindHandle {exc : Raised → State → Prop} :
    Triple (Bindable q) Flowing
      (fun s => Piped s ∧ Level s ∧ s.modelStartTask = some (.ended (.ok ()))) bindHandle
      (fun _ s => Held q s ∧ Level s) exc := by
  refine .modify fun s ⟨piped, level, ended⟩ => ?_
  have started : s.Attended .modelStart := by
    simp [State.Attended, State.unattended, ended, Child.unattended]
  dsimp only
  split_ifs with flooded
  · refine ⟨⟨⟨piped.flow, piped.unstarted, fun _ => started, fun _ _ => ?_, fun _ => rfl⟩,
      fun _ => .inl rfl⟩, level⟩
    exact attended_cancelChild _ _
  · exact ⟨⟨⟨piped.flow, piped.unstarted, fun _ => started, fun _ dropped => absurd dropped flooded,
      fun _ => rfl⟩, fun _ => .inl rfl⟩, level⟩

theorem delivers_answer (preparation : ChatPreparation) :
    Triple (Bindable q) Flowing (fun s => Held q s ∧ Waiting s) (answer cfg preparation)
      (fun _ => Ending q) (fun _ => Ending q) := by
  have frame : Framed cfg Flowing fun s => Held q s ∧ Level s := framed_level
  have opened : Keeps (Bindable q) Flowing (fun s => Held q s ∧ Waiting s) (yieldEvent cfg "meta"
      (.obj [("taskId", .text cfg.taskId), ("phase", .text "answering"),
        ("conversationId", .str preparation.conversationId),
        ("ragIntent", .ofOption preparation.ragIntent),
        ("sources", .arr preparation.retrievedSources)])) :=
    keeps_yieldEvent framed_waiting (emits_held waiting_respects (by decide) (by decide)) _
  have stops : Triple (Bindable q) Flowing (fun s => Held q s ∧ Level s) (yieldCancel cfg)
      (fun _ => Ending q) (fun _ => Ending q) :=
    (raises_ending (fun _ => Level.delivered) (keeps_yieldCancel frame
      (persists_held level_respects) (emitsEnds_held level_respects))).weaken_post
        fun _ s holds => ⟨holds.1, holds.2.delivered⟩
  refine .bind _ (raises_ending (fun _ waiting => waiting.1.delivered) opened) fun _ =>
    .bind _ delivers_begin fun _ => .bind _ delivers_offer fun bound =>
    .ite (fun _ => ?refused) fun _ => ?accepted
  case refused =>
    refine .bind (fun _ s => Held q s ∧ Level s) (.modify fun s ⟨piped, level, streamless⟩ => ?_)
      fun _ => .bind _ (raises_ending (fun _ => Level.delivered)
        (keeps_passCancelled (keeps_await frame _))) fun _ => stops
    refine ⟨⟨piped.cancelChild _, fun holds => .inr ⟨attended_cancelChild s _, ?_⟩⟩, ?_⟩
    · exact (streamless holds).cancelChild _
    · exact level_respects s _ (.of_locals (locals_cancelChild s _)) level
  case accepted =>
    refine .bind _ delivers_start fun _ => .bind _ delivers_bindHandle fun _ => .bind _
      (raises_ending (fun _ => Level.delivered) (keeps_bind frame _)) fun bound => .ite
      (fun _ => stops) fun _ => .repeatUntil frame.waits ?_
    refine (delivers_consumeRound preparation).weaken_post fun next s turned => ?_
    cases next <;> exact turned

/-- A rejection answers a stream that has no model. -/
def Rejecting (s : State) : Prop :=
  messages s = deltas s.taken ∧ s.modelStartTask.isNone = true

theorem Rejecting.delivered (rejecting : Rejecting s) : Delivered s :=
  ⟨rejecting.1 ▸ List.prefix_refl _, fun _ => ⟨rejecting.1, .inl rejecting.2⟩⟩

theorem rejecting_respects (s t : State) (same : SameProgress s t) (rejecting : Rejecting s) :
    Rejecting t := by
  unfold Rejecting
  rw [same.shown, same.taken, same.starting]
  exact rejecting

theorem delivers_yieldRejection :
    Triple (Bindable q) Flowing (fun s => Held q s ∧ Waiting s) (yieldRejection cfg)
      (fun _ => Ending q) (fun _ => Ending q) := by
  have frame : Framed cfg Flowing fun s => Held q s ∧ Rejecting s :=
    framed_held rejecting_respects fun _ => Rejecting.delivered
  have emits {name : String} (other : name ≠ "message") :
      Emits (fun s => Held q s ∧ Rejecting s) name := fun s data ⟨held, shown, idle⟩ =>
    ⟨⟨held.toPiped.same _, held.settled⟩, (messages_append s data other).trans shown, idle⟩
  have kept : Keeps (Bindable q) Flowing (fun s => Held q s ∧ Rejecting s) (yieldRejection cfg) :=
    .bind (keeps_recordQueueRejection frame (persists_held rejecting_respects)) fun _ =>
      .bind (keeps_yieldEvent frame (emits (by decide)) _) fun _ =>
        keeps_yieldTwo frame (emits (by decide)) (emits (by decide)) _ _
  exact kept.conseq (fun s ⟨held, level, idle⟩ => ⟨held, level.1, idle.1⟩)
    (fun _ s holds => ⟨holds.1, holds.2.delivered⟩) fun _ s holds => ⟨holds.1, holds.2.delivered⟩

/-- Before the model start, a part keeps the wait or ends with it. -/
theorem delivers_waiting {α : Type} {m : StreamCo α}
    (keeps : Keeps (Bindable q) Flowing (fun s => Held q s ∧ Waiting s) m) :
    Triple (Bindable q) Flowing (fun s => Held q s ∧ Waiting s) m
      (fun _ s => Held q s ∧ Waiting s) (fun _ => Ending q) :=
  raises_ending (fun _ waiting => waiting.1.delivered) keeps

theorem delivers_over {m : StreamCo Unit}
    (keeps : Keeps (Bindable q) Flowing (fun s => Held q s ∧ Waiting s) m) :
    Triple (Bindable q) Flowing (fun s => Held q s ∧ Waiting s) m (fun _ => Ending q)
      (fun _ => Ending q) :=
  (delivers_waiting keeps).weaken_post fun _ _ holds => ⟨holds.1, holds.2.1.delivered⟩

theorem delivers_stop :
    Triple (Bindable q) Flowing (fun s => Held q s ∧ Waiting s) (yieldCancel cfg)
      (fun _ => Ending q) (fun _ => Ending q) :=
  delivers_over (keeps_yieldCancel framed_waiting (persists_held waiting_respects)
    (emitsEnds_held waiting_respects))

theorem delivers_meta (data : Json) :
    Triple (Bindable q) Flowing (fun s => Held q s ∧ Waiting s) (yieldEvent cfg "meta" data)
      (fun _ s => Held q s ∧ Waiting s) (fun _ => Ending q) :=
  delivers_waiting (keeps_yieldEvent framed_waiting
    (emits_held waiting_respects (by decide) (by decide)) _)

/-- The callback side reads none of the other locals. -/
theorem Held.same (held : Held q s) (flow : Flow t) (called : t.called = s.called)
    (started : t.modelStartTask = s.modelStartTask) (stream : t.modelStream = s.modelStream)
    (bound : t.callbackHandle = s.callbackHandle) (handle : t.handle = s.handle)
    (overflowed : t.overflowed = s.overflowed) : Held q t := by
  refine ⟨⟨flow, ?_, ?_, ?_, ?_⟩, ?_⟩
  · rw [called, started]
    exact held.unstarted
  · simp only [bound, State.Attended, State.unattended, started]
    exact held.started
  · simp only [bound, overflowed, State.Attended, State.unattended, stream]
    exact held.cancelled
  · rw [bound, handle]
    exact held.bound
  · simp only [Settled, bound, State.Attended, State.unattended, started, stream]
    exact held.settled

theorem delivers_prepare (permit : StreamQueuePermit) :
    Triple (Bindable q) Flowing (fun s => Held q s ∧ Waiting s) (prepare cfg permit)
      (fun _ => Ending q) (fun _ => Ending q) := by
  have frame : Framed cfg Flowing fun s => Held q s ∧ Waiting s := framed_waiting
  refine .bind (fun _ s => Held q s ∧ Waiting s) (.modify fun _ holds => ?granted) fun _ =>
    .bind _ (delivers_meta _) fun _ => .bind (fun _ s => Held q s ∧ Waiting s)
    (.modify fun _ holds => ?preparing) fun _ => .bind _ (delivers_waiting (keeps_bind frame _))
    fun bound => .ite (fun _ => delivers_stop) fun _ => .bind _
    (delivers_waiting (keeps_awaitPreparation frame)) fun preparation =>
    .bind (fun _ s => Held q s ∧ Waiting s) (.modify fun _ holds => ?prepared) fun _ =>
    .bind _ (delivers_waiting (keeps_isCancelled frame)) fun _ => .ite (fun _ => delivers_stop)
    fun _ => delivers_answer preparation
  all_goals
    exact ⟨holds.1.same holds.1.flow rfl rfl rfl rfl rfl rfl,
      waiting_respects _ _ ⟨rfl, id, rfl, rfl, rfl⟩ holds.2⟩

theorem delivers_tryBlock :
    Triple (Bindable q) Flowing (fun s => Held q s ∧ Waiting s) (tryBlock cfg)
      (fun _ => Ending q) (fun _ => Ending q) := by
  have frame : Framed cfg Flowing fun s => Held q s ∧ Waiting s := framed_waiting
  refine .bind _ (delivers_meta _) fun _ => .bind _ (delivers_waiting (keeps_isCancelled frame))
    fun _ => .ite (fun _ => delivers_stop) fun _ => .bind _ (delivers_waiting (keeps_await frame _))
    fun admission => ?_
  split
  · exact delivers_stop
  · exact delivers_yieldRejection
  · exact delivers_prepare _
  · exact delivers_over (keeps_yieldUnavailable frame (emitsEnds_held waiting_respects))

theorem delivers_stream :
    Triple (Bindable q) Flowing (fun s => Held q s ∧ Waiting s) (stream cfg) (fun _ => Ending q)
      (fun _ => Ending q) := by
  have frame : Framed cfg Flowing fun s => Held q s ∧ Waiting s := framed_waiting
  have ends := emitsEnds_held (q := q) waiting_respects
  have clean : Keeps (Bindable q) Flowing (Ending q) (cleanup cfg) :=
    keeps_cleanup framed_ending fun s _ _ ending =>
      ⟨ending.1.same ending.1.flow rfl rfl rfl rfl rfl rfl, ending.2⟩
  refine .bind _ (delivers_waiting (keeps_register frame)) fun registered => .ite
    (fun _ => delivers_over (keeps_yieldTwo frame ends.error ends.done _ _)) fun _ =>
    .bind (fun _ s => Held q s ∧ Waiting s) (.modify fun s holds => ?_) fun _ => ?_
  · exact ⟨holds.1.same holds.1.flow rfl rfl rfl rfl rfl rfl,
      waiting_respects s _ ⟨rfl, id, rfl, rfl, rfl⟩ holds.2⟩
  · exact .tryFinally (fun _ => Ending q) (fun _ => Ending q) (.tryCatch _ delivers_tryBlock fun x =>
      keeps_handleRaised framed_ending (persists_held delivered_respects)
        (emitsEnds_held delivered_respects) x) (fun _ => clean) fun _ => clean

end Start

/-- The callback that ends an answer. -/
def StreamEvent.terminal : StreamEvent → Bool
  | .complete | .error _ => true
  | _ => false

/-- Nothing is called after `on_complete` or `on_error`. -/
def EndsOnce (called : List StreamEvent) : Prop := ∀ event ∈ called.dropLast, event.terminal = false

instance (called : List StreamEvent) : Decidable (EndsOnce called) :=
  inferInstanceAs (Decidable (∀ event ∈ _, _))

/-- An event has been dropped: it is neither taken, nor queued, nor on its way to the queue. -/
def Dropped (s : State) : Prop := s.called ≠ s.taken ++ s.queue ++ s.scheduled

theorem EndsOnce.last {called earlier later : List StreamEvent} {event : StreamEvent}
    (once : EndsOnce called) (split : called = earlier ++ [event] ++ later)
    (terminal : event.terminal = true) : later = [] := by
  by_contra more
  have member : event ∈ called.dropLast := by
    rw [split, List.dropLast_append_of_ne_nil more]
    simp
  simp [once event member] at terminal

theorem Piped.overflowed_of_dropped {s : State} (piped : Piped s) (dropped : Dropped s) :
    s.overflowed = true := by
  obtain ⟨rest, called, scheduled, -⟩ := piped.flow
  by_contra fits
  exact dropped (scheduled (by simpa using fits) ▸ called)

/-- What has been taken is the beginning of what has been called. -/
theorem Piped.taken_begins {s : State} (piped : Piped s) : deltas s.taken <+: deltas s.called := by
  obtain ⟨rest, called, -, -⟩ := piped.flow
  rw [called, List.append_assoc, deltas, deltas, List.filterMap_append]
  exact List.prefix_append _ _

/-- A stream that has sent `finish` has taken every event, and none has been dropped. -/
theorem Flowing.finished {s : State} (flowing : Flowing s) (once : EndsOnce s.called)
    (finish : Sent s "finish") : messages s = deltas s.called ∧ s.overflowed = false := by
  obtain ⟨piped, -, finished⟩ := flowing
  obtain ⟨shown, ending⟩ := finished finish
  obtain ⟨rest, called, scheduled, dropped⟩ := piped.flow
  have none_left : s.queue ++ rest = [] := by
    rcases ending with idle | ⟨earlier, complete⟩
    · rw [piped.unstarted idle, List.append_assoc] at called
      exact (List.append_eq_nil_iff.mp called.symm).2
    · exact once.last (by rw [called, complete, List.append_assoc]) rfl
  obtain ⟨-, rfl⟩ := List.append_eq_nil_iff.mp none_left
  refine ⟨?_, ?_⟩
  · rw [shown, called, List.append_assoc, none_left, List.append_nil]
  · by_contra flooded
    exact dropped (by simpa using flooded) rfl

theorem held_initial (q : Prop) (now : ℚ) (tasks : StreamTaskManager ChildRef) :
    Held q (initial now tasks) ∧ Waiting (initial now tasks) :=
  ⟨⟨⟨⟨[], rfl, fun _ => rfl, nofun⟩, fun _ => rfl, nofun, nofun, nofun⟩, fun _ => .inr ⟨rfl, rfl⟩⟩,
    ⟨rfl, fun ⟨_, member, _⟩ => nomatch member⟩, rfl, rfl⟩

/-- The events flow in order wherever a run stands. -/
theorem stream_flowing (cfg : Config) (now : ℚ) (tasks : StreamTaskManager ChildRef)
    (tape : List (Turn Action Point Raised Reply)) :
    Flowing (stream cfg (initial now tasks) tape).state := by
  refine Triple.always ((delivers_stream (q := False)).conseq (fun _ => id)
    (fun _ s ending => ⟨ending.1.toPiped, ending.2⟩) fun _ s ending =>
      ⟨ending.1.toPiped, ending.2⟩) (held_initial False now tasks) fun _ _ => False.elim

/-- Wherever a run stands, the deltas sent are the first of those called, in order; with a `finish`
they are all of them; and once an event has been dropped no `finish` is sent, and the model stream
has ended or is cancelled as soon as the stream has its handle, and also when a run ends that was
not cancelled just before it would have got it. -/
theorem stream_delivers (cfg : Config) (now : ℚ) (tasks : StreamTaskManager ChildRef)
    (tape : List (Turn Action Point Raised Reply))
    (once : EndsOnce (stream cfg (initial now tasks) tape).state.called) :
    let r := stream cfg (initial now tasks) tape
    messages r.state <+: deltas r.state.called ∧
      (Sent r.state "finish" → messages r.state = deltas r.state.called) ∧
      (Dropped r.state → ¬ Sent r.state "finish" ∧
        (r.state.handle = true ∨ r.outcome.Finished ∧ (∀ v ∈ r.visits, Received v) →
          r.state.Attended .modelStream)) := by
  intro r
  have flowing : Flowing r.state := stream_flowing cfg now tasks tape
  refine ⟨flowing.2.1.trans flowing.1.taken_begins, fun finish => (flowing.finished once finish).1,
    fun dropped => ?_⟩
  have flooded := flowing.1.overflowed_of_dropped dropped
  refine ⟨fun finish => ?_, fun handed => ?_⟩
  · simp [(flowing.finished once finish).2] at flooded
  · rcases handed with handle | ⟨finished, received⟩
    · exact flowing.1.cancelled (flowing.1.bound handle) flooded
    · have settled := (delivers_stream (q := True)).finished (held_initial True now tasks)
        (fun v member _ => received v member) finished
      rcases settled.1.settled trivial with bound | attended
      · exact settled.1.cancelled bound flooded
      · exact attended.2

theorem answeredRun_delivers :
    let r := stream exampleConfig (initial 0 {}) answeredRun
    messages r.state <+: deltas r.state.called ∧
      (Sent r.state "finish" → messages r.state = deltas r.state.called) ∧
      (Dropped r.state → ¬ Sent r.state "finish" ∧
        (r.state.handle = true ∨ r.outcome.Finished ∧ (∀ v ∈ r.visits, Received v) →
          r.state.Attended .modelStream)) :=
  stream_delivers exampleConfig 0 {} answeredRun (by decide +kernel)

end HeyeeAgent.StreamChat.Lifecycle
