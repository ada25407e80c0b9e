import HeyeeAgent.StreamLlm.Start

/-! # One answer from one candidate

The decision to forward reads `_suppressed`, the decision to fall back reads the result of the wait.
Between the two lies the time in which a first chunk runs after the timer, or after an error or an
empty completion: it is forwarded, and the next candidate is started on top of it. Where no such
chunk runs, whatever the delegate has received comes from the candidate that `start` is at.
-/

namespace HeyeeAgent.StreamLlm

open Machine StartState

/-- Everything the delegate has received is from the candidate that `start` is at, or whose handle
it has returned; a candidate that was given up has forwarded nothing. -/
def OneAnswer (s : StartState) : Prop :=
  ∀ i event, (i, event) ∈ s.forwarded → s.pc.candidate = some i

/-- A chunk of an answer. -/
def CallbackEvent.IsChunk : CallbackEvent → Prop
  | .content text | .thinking text => text ≠ ""
  | _ => False

instance : DecidablePred CallbackEvent.IsChunk
  | .content text | .thinking text => inferInstanceAs (Decidable (text ≠ ""))
  | .complete | .error _ => inferInstanceAs (Decidable False)

def StartState.firstPacketStatus (s : StartState) (i : ℕ) : Option FirstPacketStatus :=
  (s.routed i).bind (·.firstPacketStatus)

/-- The wait for this candidate can no longer end with a first token: its timer has fired, or an
error or an empty completion was marked before any chunk. -/
def WaitLost (s : StartState) (i : ℕ) : Prop :=
  s.pc.attempt = some i ∧ (s.pc = .awaitingFirstPacket i true ∨
    s.firstPacketStatus i = some .empty ∨ s.firstPacketStatus i = some .error)

instance (s : StartState) (i : ℕ) : Decidable (WaitLost s i) := inferInstanceAs (Decidable (_ ∧ _))

/-- The first token of this candidate is marked. -/
def FirstToken (s : StartState) (i : ℕ) : Prop := s.firstPacketStatus i = some .firstToken

instance (s : StartState) (i : ℕ) : Decidable (FirstToken s i) := inferInstanceAs (Decidable (_ = _))

/-- No chunk runs once the wait is lost, and once a first token is marked neither does the timer fire
before `start` resumes nor does `stream(...)` raise. -/
def WaitDecides (s : StartState) : StartEvent → Prop
  | .callback i event _ => event.IsChunk → ¬ WaitLost s i
  | .timer | .streamRaises _ _ => ∀ i ∈ s.pc.attempt, ¬ FirstToken s i
  | _ => True

instance (s : StartState) : DecidablePred (WaitDecides s)
  | .callback _ _ _ => inferInstanceAs (Decidable (_ → _))
  | .timer | .streamRaises _ _ => inferInstanceAs (Decidable (∀ i ∈ s.pc.attempt, _))
  | .streamReturns _ | .resume _ | .cancel => inferInstanceAs (Decidable True)

theorem firstToken_iff_routed {s : StartState} {i : ℕ} :
    FirstToken s i ↔ ∃ r, s.routed i = some r ∧ r.firstPacketStatus = some .firstToken :=
  Option.bind_eq_some_iff

/-- Callbacks other than that of the current candidate are suppressed, and what the current one has
forwarded came after its first token, which the wait will find. -/
structure StartInv (s : StartState) : Prop where
  one : OneAnswer s
  others : ∀ i r, s.routed i = some r → s.pc.candidate ≠ some i → r.suppressed = true
  visible : ∀ i r, s.routed i = some r →
    (r.visibleOutput = true ↔ r.firstPacketStatus = some .firstToken)
  tried : ∀ i, s.pc.candidate = some i → ∃ r, s.routed i = some r
  first : ∀ i event, (i, event) ∈ s.forwarded → FirstToken s i
  untimed : ∀ i, s.pc = .awaitingFirstPacket i true → ¬ FirstToken s i
  chosen : ∀ i, s.pc = .returned i → FirstToken s i
  stopped : ∀ i, s.pc = .cancelled i → ∀ r, s.routed i = some r → r.suppressed = true

/-! ### One callback -/

section Receive

variable {r : FirstTokenStreamCallback} {event : CallbackEvent}

open FirstTokenStreamCallback

theorem receive_suppressed : (r.receive event).1.suppressed = r.suppressed := by
  cases event <;> simp only [receive, markFirstPacket] <;> split_ifs <;> rfl

/-- A suppressed callback forwards nothing. -/
theorem receive_forwards_not_suppressed (forwards : (r.receive event).2.1 = true) :
    r.suppressed = false := by
  cases event <;> simp only [receive, markFirstPacket] at forwards <;> split_ifs at forwards <;>
    simpa using forwards

theorem receive_visible
    (visible : r.visibleOutput = true ↔ r.firstPacketStatus = some .firstToken) :
    (r.receive event).1.visibleOutput = true ↔
      (r.receive event).1.firstPacketStatus = some .firstToken := by
  cases event <;> simp only [receive, markFirstPacket] <;> split_ifs <;> simp_all

/-- The first token stays marked. -/
theorem receive_keeps (marked : r.firstPacketStatus = some .firstToken) :
    (r.receive event).1.firstPacketStatus = some .firstToken := by
  cases event <;> simp only [receive, markFirstPacket] <;> split_ifs <;> simp_all

/-- Only a chunk marks the first token. -/
theorem receive_marks (marked : (r.receive event).1.firstPacketStatus = some .firstToken) :
    r.firstPacketStatus = some .firstToken ∨ r.firstPacketStatus = none ∧ event.IsChunk := by
  cases event <;> simp only [receive, markFirstPacket] at marked <;> split_ifs at marked <;>
    simp_all [CallbackEvent.IsChunk]

/-- What is forwarded comes at or after the first token, or is a chunk after an error or an empty
completion. -/
theorem receive_forwards (visible : r.visibleOutput = true ↔ r.firstPacketStatus = some .firstToken)
    (forwards : (r.receive event).2.1 = true) :
    (r.receive event).1.firstPacketStatus = some .firstToken ∨
      event.IsChunk ∧ (r.firstPacketStatus = some .empty ∨ r.firstPacketStatus = some .error) := by
  have decided : r.firstPacketStatus.isSome = true → r.firstPacketStatus = some .firstToken ∨
      r.firstPacketStatus = some .empty ∨ r.firstPacketStatus = some .error := by
    intro marked
    obtain ⟨status, marked⟩ := Option.isSome_iff_exists.mp marked
    cases status <;> simp [marked]
  cases event <;> simp only [receive, markFirstPacket] at forwards ⊢ <;> split_ifs at forwards ⊢ <;>
    simp_all [CallbackEvent.IsChunk]

end Receive

/-! ### The steps of `start` -/

section Steps

variable {targets : List StreamTarget} {s t : StartState} {i : ℕ}

/-- A new candidate starts with nothing forwarded and every earlier callback suppressed. -/
theorem tryFrom_inv (k : ℕ) (nothing : s.forwarded = [])
    (quiet : ∀ i r, s.routed i = some r → r.suppressed = true)
    (visible : ∀ i r, s.routed i = some r →
      (r.visibleOutput = true ↔ r.firstPacketStatus = some .firstToken)) :
    StartInv (s.tryFrom targets k) := by
  unfold tryFrom
  split
  · next i _ =>
    refine ⟨?_, fun j r found other => ?_, fun j r found => ?_, ?_, ?_, by simp, by simp, by simp⟩
    · simp [OneAnswer, setRouted, nothing]
    · have distinct : j ≠ i := by
        rintro rfl
        exact other rfl
      exact quiet j r ((setRouted_of_ne s {} distinct).symm.trans found)
    · rcases setRouted_cases found with ⟨-, rfl⟩ | ⟨-, before⟩
      · simp
      · exact visible j r before
    · simp [setRouted, StartPc.candidate]
    · simp [setRouted, nothing]
  · refine ⟨?_, fun j r found _ => quiet j r found, visible, ?_, ?_, by simp, by simp, by simp⟩
    · simp [OneAnswer, nothing]
    · simp [StartPc.candidate]
    · simp [nothing]

/-- A current candidate without a marked first token has forwarded nothing. -/
theorem StartInv.nothing (inv : StartInv s) (current : s.pc.candidate = some i)
    (unmarked : ¬ FirstToken s i) : s.forwarded = [] := by
  refine List.eq_nil_iff_forall_not_mem.mpr ?_
  rintro ⟨j, event⟩ member
  have same : some j = some i := (inv.one j event member).symm.trans current
  cases same
  exact unmarked (inv.first i event member)

theorem suppress_routed {j : ℕ} {r : FirstTokenStreamCallback}
    (found : (s.suppress i).routed j = some r) :
    ∃ r', s.routed j = some r' ∧ r = if j = i then r'.suppress else r' := by
  by_cases same : j = i
  · subst same
    simp only [StartState.suppress, Function.update_self, Option.map_eq_some_iff] at found
    obtain ⟨r', found, rfl⟩ := found
    exact ⟨r', found, by simp⟩
  · simp only [StartState.suppress, Function.update_of_ne same] at found
    exact ⟨r, found, by simp [same]⟩

/-- Falling back from a candidate that has no first token loses nothing. -/
theorem fallBack_inv (inv : StartInv s) (current : s.pc.candidate = some i)
    (unmarked : ¬ FirstToken s i) (now : ℚ) (error : String) :
    StartInv (s.fallBack targets i now error) := by
  have routed {j : ℕ} {r : FirstTokenStreamCallback}
      (found : ((s.suppress i).cancelHandle i).routed j = some r) :
      ∃ r', s.routed j = some r' ∧ r = if j = i then r'.suppress else r' :=
    suppress_routed (by simpa using found)
  refine tryFrom_inv (i + 1) ?_ ?_ ?_
  · simpa using inv.nothing current unmarked
  · intro j r found
    obtain ⟨r', before, rfl⟩ := routed found
    split_ifs with same
    · rfl
    · refine inv.others j r' before ?_
      rw [current]
      exact fun eq => same (Option.some.inj eq).symm
  · intro j r found
    obtain ⟨r', before, rfl⟩ := routed found
    split_ifs
    · exact inv.visible j r' before
    · exact inv.visible j r' before

/-- `start` decides on the status that the wait has found. -/
theorem decided_inv {now : ℚ} {status : Option FirstPacketStatus} {error : Option String}
    (inv : StartInv s) (current : s.pc.candidate = some i)
    (found : FirstToken s i ↔ status = some .firstToken) :
    StartInv (s.decided targets i now status error) := by
  unfold decided
  split
  · refine ⟨fun j event member => ?_, fun j r routed other => ?_, inv.visible, fun j same => ?_,
      inv.first, by simp, fun j same => ?_, by simp⟩
    · exact current.symm.trans (inv.one j event member) ▸ rfl
    · refine inv.others j r routed ?_
      rw [current]
      exact other
    · cases same
      exact inv.tried i current
    · cases same
      exact found.mpr rfl
  · next other =>
    exact fallBack_inv inv current (fun marked => other (found.mp marked)) now _

theorem startInv_initial (targets : List StreamTarget) (health : InfraAi.ModelHealthStore) :
    StartInv (startInitial targets health) :=
  tryFrom_inv 0 rfl (by simp) (by simp)

/-- A step that only moves `start` on at its candidate. -/
theorem moved_inv {pc : StartPc} (inv : StartInv s) (same : s.pc.candidate = pc.candidate)
    (untimed : ∀ i, pc = .awaitingFirstPacket i true → ¬ FirstToken s i)
    (unchosen : ∀ i, pc ≠ .returned i) (running : ∀ i, pc ≠ .cancelled i) :
    StartInv { s with pc := pc } where
  one j event member := same.symm.trans (inv.one j event member)
  others j r found other := inv.others j r found (same ▸ other)
  visible := inv.visible
  tried j current := inv.tried j (same.trans current)
  first := inv.first
  untimed := untimed
  chosen j returned := absurd returned (unchosen j)
  stopped j cancelled := absurd cancelled (running j)

theorem cancelled_inv (inv : StartInv s) (current : s.pc.candidate = some i) :
    StartInv { (s.suppress i).cancelHandle i with pc := .cancelled i } := by
  have kept {j : ℕ} (marked : FirstToken s j) : FirstToken (s.suppress i) j := by
    obtain ⟨r, found, first⟩ := firstToken_iff_routed.mp marked
    refine firstToken_iff_routed.mpr ?_
    by_cases same : j = i
    · subst same
      exact ⟨r.suppress, by simp [StartState.suppress, found], first⟩
    · exact ⟨r, by simp [StartState.suppress, Function.update_of_ne same, found], first⟩
  refine ⟨fun j event member => ?_, fun j r found other => ?_, fun j r found => ?_, fun j same => ?_,
    fun j event member => ?_, by simp, by simp, fun j same r found => ?_⟩
  · exact current.symm.trans (inv.one j event (by simpa using member))
  · obtain ⟨r', before, rfl⟩ := suppress_routed (by simpa using found)
    rw [if_neg (by rintro rfl; exact other rfl)]
    exact inv.others j r' before (current ▸ other)
  · obtain ⟨r', before, rfl⟩ := suppress_routed (by simpa using found)
    split_ifs <;> exact inv.visible j r' before
  · cases same
    obtain ⟨r, found⟩ := inv.tried i current
    exact ⟨r.suppress, by simp [StartState.suppress, found]⟩
  · have marked := kept (inv.first j event (by simpa using member))
    simpa [FirstToken, StartState.firstPacketStatus] using marked
  · cases same
    obtain ⟨r', before, rfl⟩ := suppress_routed (by simpa using found)
    simp [FirstTokenStreamCallback.suppress]

theorem callback_inv {r : FirstTokenStreamCallback} {event : CallbackEvent}
    {health : InfraAi.ModelHealthStore} (inv : StartInv s) (found : s.routed i = some r)
    (decides : event.IsChunk → ¬ WaitLost s i) :
    StartInv { s.setRouted i (r.receive event).1 with
      health
      forwarded := if (r.receive event).2.1 then s.forwarded ++ [(i, event)] else s.forwarded } := by
  have kept {j : ℕ} (marked : FirstToken s j) :
      ∃ r', (s.setRouted i (r.receive event).1).routed j = some r' ∧
        r'.firstPacketStatus = some .firstToken := by
    obtain ⟨r', found', first⟩ := firstToken_iff_routed.mp marked
    by_cases same : j = i
    · subst same
      rw [found] at found'
      cases found'
      exact ⟨_, setRouted_self .., receive_keeps first⟩
    · exact ⟨r', by rw [setRouted_of_ne s _ same, found'], first⟩
  have current (forwards : (r.receive event).2.1 = true) : s.pc.candidate = some i := by
    by_contra other
    have suppressed := inv.others i r found other
    rw [receive_forwards_not_suppressed forwards] at suppressed
    cases suppressed
  have heard {j : ℕ} {event' : CallbackEvent}
      (member : (j, event') ∈ if (r.receive event).2.1 then s.forwarded ++ [(i, event)]
        else s.forwarded) :
      (j, event') ∈ s.forwarded ∨ j = i ∧ (r.receive event).2.1 = true := by
    split_ifs at member with forwards
    · rcases List.mem_append.mp member with old | new
      · exact .inl old
      · cases List.mem_singleton.mp new
        exact .inr ⟨rfl, forwards⟩
    · exact .inl member
  refine ⟨fun j event' member => ?_, fun j r' found' other => ?_, fun j r' found' => ?_,
    fun j same => ?_, fun j event' member => ?_, fun j place => ?_, fun j place => ?_,
    fun j place r' found' => ?_⟩
  · rcases heard member with old | ⟨rfl, forwards⟩
    · exact inv.one j event' old
    · exact current forwards
  · rcases setRouted_cases found' with ⟨rfl, rfl⟩ | ⟨-, before⟩
    · rw [receive_suppressed]
      exact inv.others j r found other
    · exact inv.others j r' before other
  · rcases setRouted_cases found' with ⟨rfl, rfl⟩ | ⟨-, before⟩
    · exact receive_visible (inv.visible j r found)
    · exact inv.visible j r' before
  · obtain ⟨r', before⟩ := inv.tried j same
    by_cases own : j = i
    · subst own
      exact ⟨_, setRouted_self ..⟩
    · exact ⟨r', (setRouted_of_ne s _ own).trans before⟩
  · rcases heard member with old | ⟨rfl, forwards⟩
    · exact firstToken_iff_routed.mpr (kept (inv.first j event' old))
    · rcases receive_forwards (inv.visible j r found) forwards with marked | ⟨chunk, lost⟩
      · exact firstToken_iff_routed.mpr ⟨_, setRouted_self .., marked⟩
      · -- a chunk after an error or an empty completion of the candidate that `start` is at
        have status : s.firstPacketStatus j = r.firstPacketStatus := by
          simp [StartState.firstPacketStatus, found]
        refine absurd ⟨?_, .inr (status ▸ lost)⟩ (decides chunk)
        have place := current forwards
        cases pc : s.pc with
        | streaming k | awaitingFirstPacket k _ =>
          rw [pc] at place
          exact place
        | returned k =>
          obtain rfl : k = j := by simpa [pc, StartPc.candidate] using place
          have first := inv.chosen k pc
          rw [FirstToken, status] at first
          rcases lost with lost | lost <;> rw [lost] at first <;> cases first
        | cancelled k =>
          obtain rfl : k = j := by simpa [pc, StartPc.candidate] using place
          have suppressed := inv.stopped k pc r found
          rw [receive_forwards_not_suppressed forwards] at suppressed
          cases suppressed
        | modelUnavailable _ => simp [pc, StartPc.candidate] at place
  · intro marked
    obtain ⟨r', found', first⟩ := firstToken_iff_routed.mp marked
    rcases setRouted_cases found' with ⟨rfl, rfl⟩ | ⟨-, before⟩
    · rcases receive_marks first with marked | ⟨-, chunk⟩
      · exact inv.untimed j place (firstToken_iff_routed.mpr ⟨r, found, marked⟩)
      · have current : s.pc = .awaitingFirstPacket j true := place
        exact decides chunk ⟨by rw [current]; rfl, .inl current⟩
    · exact inv.untimed j place (firstToken_iff_routed.mpr ⟨r', before, first⟩)
  · exact firstToken_iff_routed.mpr (kept (inv.chosen j place))
  · rcases setRouted_cases found' with ⟨rfl, rfl⟩ | ⟨-, before⟩
    · rw [receive_suppressed]
      exact inv.stopped j place r found
    · exact inv.stopped j place r' before

/-- Only the wait for the current candidate can be decided, and it is decided by what its callback
has marked. -/
theorem startStep_inv {e : StartEvent} (inv : StartInv s) (decides : WaitDecides s e)
    (taken : startStep targets s e = some t) : StartInv t := by
  cases e with
  | callback i event now =>
    obtain ⟨r, found, rfl⟩ := Option.map_eq_some_iff.mp taken
    exact callback_inv inv found decides
  | streamReturns now =>
    simp only [startStep] at taken
    split at taken
    · next i place =>
      have current : s.pc.candidate = some i := by rw [place]; rfl
      have inv' : StartInv { s with handles := s.handles ++ [i] } :=
        ⟨inv.one, inv.others, inv.visible, inv.tried, inv.first, inv.untimed, inv.chosen, inv.stopped⟩
      split at taken
      · next status marked =>
        cases taken
        exact decided_inv inv' current (by rw [FirstToken, StartState.firstPacketStatus, marked])
      · cases taken
        exact moved_inv inv' (current.trans rfl) (by simp) (by simp) (by simp)
    · cases taken
  | streamRaises error now =>
    simp only [startStep] at taken
    split at taken
    · next i place =>
      cases taken
      exact fallBack_inv inv (by rw [place]; rfl) (decides i (by rw [place]; rfl)) now error
    · cases taken
  | timer =>
    simp only [startStep] at taken
    split at taken
    · next i place =>
      cases taken
      refine moved_inv inv (by rw [place]; rfl) ?_ (by simp) (by simp)
      rintro j same
      cases same
      exact decides i (by rw [place]; rfl)
    · cases taken
  | resume now =>
    simp only [startStep] at taken
    split at taken
    · next i place =>
      cases taken
      exact decided_inv inv (by rw [place]; rfl)
        (iff_of_false (inv.untimed i place) (by simp))
    · next i place =>
      obtain ⟨status, marked, rfl⟩ := Option.map_eq_some_iff.mp taken
      exact decided_inv inv (by rw [place]; rfl)
        (by rw [FirstToken, StartState.firstPacketStatus, marked])
    · cases taken
  | cancel =>
    simp only [startStep] at taken
    split at taken
    · next i place =>
      cases taken
      exact cancelled_inv inv (by rw [place]; rfl)
    · next i timedOut place =>
      cases taken
      exact cancelled_inv inv (by rw [place]; rfl)
    · cases taken

end Steps

/-- In every run in which each wait is decided by what its candidate really does, the delegate
receives everything from one candidate, the one that `start` returns. -/
theorem always_oneAnswer (targets : List StreamTarget) (health : InfraAi.ModelHealthStore)
    (es : List StartEvent)
    (decides : Along (startStep targets) WaitDecides (startInitial targets health) es) :
    Always (startStep targets) OneAnswer (startInitial targets health) es :=
  (always_of_along (fun _ _ _ inv met taken => startStep_inv inv met taken)
    (startInv_initial targets health) decides).mono fun _ inv => inv.one

/-- The first candidate stays silent until the timer fires, and the second answers. -/
def silentFirstRun : List StartEvent :=
  [.streamReturns 0, .timer, .resume 60, .streamReturns 60, .callback 1 (.content "B") 61, .resume 61]

theorem silentFirstRun_oneAnswer :
    Always (startStep [⟨"first", true⟩, ⟨"second", true⟩]) OneAnswer
      (startInitial [⟨"first", true⟩, ⟨"second", true⟩] InfraAi.getModelHealthStore)
      silentFirstRun :=
  always_oneAnswer _ _ _ (by decide +kernel)

/-- The timer of the first candidate fires, its first chunk runs before `start` resumes, and the
second candidate answers. -/
def lateChunkRun : List StartEvent :=
  [.streamReturns 0, .timer, .callback 0 (.content "A") 0, .resume 0, .streamReturns 0,
    .callback 1 (.content "B") 0, .resume 0]

/-- The delegate receives chunks of both. -/
theorem lateChunkRun_mixes :
    ¬ Always (startStep [⟨"first", true⟩, ⟨"second", true⟩]) OneAnswer
      (startInitial [⟨"first", true⟩, ⟨"second", true⟩] InfraAi.getModelHealthStore)
      lateChunkRun := by
  intro always
  have ends : (runFrom (startStep [⟨"first", true⟩, ⟨"second", true⟩])
      (startInitial [⟨"first", true⟩, ⟨"second", true⟩] InfraAi.getModelHealthStore)
      lateChunkRun).map (fun s => (s.forwarded, s.pc)) =
        some ([(0, .content "A"), (1, .content "B")], .returned 1) := by decide +kernel
  obtain ⟨s, run, observed⟩ := Option.map_eq_some_iff.mp ends
  obtain ⟨forwarded, pc⟩ := by simpa only [Prod.mk.injEq] using observed
  have first := always.last run 0 (.content "A") (by simp [forwarded])
  rw [pc] at first
  exact absurd first (by decide)

end HeyeeAgent.StreamLlm
