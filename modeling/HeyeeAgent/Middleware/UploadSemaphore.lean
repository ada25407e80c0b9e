import HeyeeAgent.Middleware.UploadRateLimit
import Mathlib.Tactic.Linarith

/-! # Permits of running uploads

The script never leaves more permits than the limit. A later grant moves the expiry of the key
forward, so the key outlasts every lease in it, and the scores that a script removes are over on the
one clock. A permit is then held from its grant to the release of its own request or to the end of
its lease, and the request sends one release however its handler ends.
-/

namespace HeyeeAgent.Middleware

open Machine Redis

variable {settings : Settings} {s t : State} {event : Event} {events past : List Event}
  {token token' : String} {command : Command} {ending : Ending} {deadline wakeAt : ℚ}
  {score nowMs : ℤ}

section Steps

/-- The client waits for a permit. -/
def Phase.Waiting : Phase → Prop
  | .evaluating _ | .answered _ _ | .sleeping _ _ => True
  | _ => False

/-- What a step can do. -/
inductive Steps (settings : Settings) (s : State) : Event → State → Prop where
  | elapse {seconds : ℚ} (forward : 0 ≤ seconds) :
    Steps settings s (.elapse seconds) { s with now := s.now + seconds }
  | expire : Steps settings s .expire { s with key := s.key.live s.nowMs }
  | arrive {token : String} {deadline : ℚ} (absent : s.phase token = .absent) :
    Steps settings s (.arrive token) (s.send token (.evaluating deadline) (.acquire s.nowMs))
  | serve {token : String} {command : Command} (pending : s.sent token = some command) :
    Steps settings s (.serve token command)
      { s.goTo token ((s.phase token).replied (execute settings s token command).2) with
        key := (execute settings s token command).1
        sent := Function.update s.sent token none }
  | acquired {token : String} {deadline : ℚ} (answered : s.phase token = .answered deadline true) :
    Steps settings s (.receive token) (s.goTo token .running)
  | refused {token : String} {deadline : ℚ} (answered : s.phase token = .answered deadline false) :
    Steps settings s (.receive token) (s.goTo token .refused)
  | waits {token : String} {deadline wakeAt : ℚ}
    (answered : s.phase token = .answered deadline false) :
    Steps settings s (.receive token) (s.goTo token (.sleeping deadline wakeAt))
  | wake {token : String} {deadline wakeAt : ℚ} (sleeping : s.phase token = .sleeping deadline wakeAt) :
    Steps settings s (.wake token) (s.send token (.evaluating deadline) (.acquire s.nowMs))
  | finish {token : String} {ending : Ending} (running : s.phase token = .running) :
    Steps settings s (.finish token ending) (s.send token (.releasing ending) .release)
  | cancel {token : String} (waiting : (s.phase token).Waiting) :
    Steps settings s (.cancel token) (s.goTo token .abandoned)
  | unavailable {token : String} (waiting : (s.phase token).Waiting) :
    Steps settings s (.fail token) (s.goTo token .unavailable)
  | unreleased {token : String} {ending : Ending} (releasing : s.phase token = .releasing ending) :
    Steps settings s (.fail token) (s.goTo token (.unreleased ending))

theorem steps_of_step (taken : step settings s event = some t) : Steps settings s event t := by
  cases event with
  | elapse seconds =>
    obtain ⟨forward, same⟩ := Option.ite_none_right_eq_some.mp taken
    cases same
    exact .elapse forward
  | expire =>
    cases taken
    exact .expire
  | arrive token =>
    simp only [step] at taken
    split at taken
    case h_1 absent =>
      cases taken
      exact .arrive absent
    case h_2 => cases taken
  | serve token command =>
    obtain ⟨pending, same⟩ := Option.ite_none_right_eq_some.mp taken
    cases same
    exact .serve pending
  | receive token =>
    simp only [step] at taken
    split at taken
    case h_1 deadline answered =>
      cases taken
      exact .acquired answered
    case h_2 deadline answered =>
      split_ifs at taken
      · cases taken
        exact .refused answered
      · cases taken
        exact .refused answered
      · cases taken
        exact .waits answered
    case h_3 => cases taken
  | wake token =>
    simp only [step] at taken
    split at taken
    case h_1 deadline wakeAt sleeping =>
      obtain ⟨-, same⟩ := Option.ite_none_right_eq_some.mp taken
      cases same
      exact .wake sleeping
    case h_2 => cases taken
  | finish token ending =>
    simp only [step] at taken
    split at taken
    case h_1 running =>
      cases taken
      exact .finish running
    case h_2 => cases taken
  | cancel token =>
    simp only [step] at taken
    split at taken
    case h_4 => cases taken
    all_goals
      rename_i waiting
      cases taken
      exact .cancel (by rw [waiting]; trivial)
  | fail token =>
    simp only [step] at taken
    split at taken
    case h_3 ending releasing =>
      cases taken
      exact .unreleased releasing
    case h_4 => cases taken
    all_goals
      rename_i waiting
      cases taken
      exact .unavailable (by rw [waiting]; trivial)

end Steps

section Script

variable {key : Key} {serverMs leaseMs : ℤ} {limit : ℕ}

/-- The script clears what is over, and then adds its token where there is room. -/
theorem acquireScript_cases (key : Key) (serverMs nowMs leaseMs : ℤ) (limit : ℕ) (token : String) :
    ∃ swept : Key, swept = (key.live serverMs).zremrangebyscore nowMs ∧
      (swept.set.zcard < limit ∧ acquireScript key serverMs nowMs leaseMs limit token =
          ((swept.zadd (nowMs + leaseMs) token).pexpire (serverMs + leaseMs), true) ∨
        acquireScript key serverMs nowMs leaseMs limit token = (swept, false)) := by
  refine ⟨_, rfl, ?_⟩
  unfold acquireScript
  dsimp only
  split_ifs with room
  · exact .inl ⟨room, rfl⟩
  · exact .inr rfl

theorem zcard_acquireScript_le (bounded : key.set.zcard ≤ limit) :
    (acquireScript key serverMs nowMs leaseMs limit token).1.set.zcard ≤ limit := by
  obtain ⟨swept, same, ⟨room, granted⟩ | refused⟩ :=
    acquireScript_cases key serverMs nowMs leaseMs limit token
  · rw [granted]
    exact (SortedSet.zcard_zadd_le _ _ _).trans room
  · rw [refused, same]
    exact ((key.live serverMs).zcard_zremrangebyscore_le nowMs).trans
      ((key.zcard_live_le serverMs).trans bounded)

/-- No lease ends later than one that is granted at the time of the server. -/
theorem scores_acquireScript (read : nowMs ≤ serverMs)
    (scores : ∀ e ∈ key.set.entries, e.2 ≤ serverMs + leaseMs) :
    ∀ e ∈ (acquireScript key serverMs nowMs leaseMs limit token).1.set.entries,
      e.2 ≤ serverMs + leaseMs := by
  have kept {e : String × ℤ}
      (member : e ∈ ((key.live serverMs).zremrangebyscore nowMs).set.entries) :
      e.2 ≤ serverMs + leaseMs :=
    scores e (ExpiringSet.mem_entries_of_live (ExpiringSet.mem_entries_zremrangebyscore.mp member).1)
  intro e member
  obtain ⟨swept, rfl, ⟨-, granted⟩ | refused⟩ :=
    acquireScript_cases key serverMs nowMs leaseMs limit token
  · rw [granted] at member
    rcases SortedSet.mem_entries_zadd.mp member with rfl | ⟨old, -⟩
    · exact Int.add_le_add_right read leaseMs
    · exact kept old
  · rw [refused] at member
    exact kept member

theorem outlasts_acquireScript (read : nowMs ≤ serverMs)
    (scores : ∀ e ∈ key.set.entries, e.2 ≤ serverMs + leaseMs) (outlasts : key.Outlasts) :
    (acquireScript key serverMs nowMs leaseMs limit token).1.Outlasts := by
  have later : ∀ e ∈ (acquireScript key serverMs nowMs leaseMs limit token).1.set.entries,
      e.2 ≤ serverMs + leaseMs := scores_acquireScript read scores
  obtain ⟨swept, rfl, ⟨-, granted⟩ | refused⟩ :=
    acquireScript_cases key serverMs nowMs leaseMs limit token
  · rw [granted] at later ⊢
    intro expiresAt ends e member
    cases ends
    exact later e member
  · rw [refused]
    exact (outlasts.live serverMs).shrunk fun e member =>
      (SortedSet.mem_entries_zremrangebyscore.mp member).1

theorem mem_of_acquireScript
    (acquired : (acquireScript key serverMs nowMs leaseMs limit token).2 = true) :
    (token, nowMs + leaseMs) ∈
      (acquireScript key serverMs nowMs leaseMs limit token).1.set.entries := by
  obtain ⟨swept, rfl, ⟨-, granted⟩ | refused⟩ :=
    acquireScript_cases key serverMs nowMs leaseMs limit token
  · rw [granted]
    exact SortedSet.mem_entries_zadd.mpr (.inl rfl)
  · rw [refused] at acquired
    cases acquired

/-- A grant to the own token of a lease that is not over gives it another one. -/
theorem mem_or_of_acquireScript (held : (token, score) ∈ (key.live serverMs).set.entries)
    (leased : nowMs < score) (limit : ℕ) (later : 0 ≤ leaseMs) :
    (token, score) ∈ (acquireScript key serverMs nowMs leaseMs limit token).1.set.entries ∨
      (token, nowMs + leaseMs) ∈
        ((acquireScript key serverMs nowMs leaseMs limit token).1.live serverMs).set.entries := by
  have kept := ExpiringSet.mem_entries_zremrangebyscore.mpr ⟨held, leased⟩
  obtain ⟨swept, rfl, ⟨-, granted⟩ | refused⟩ :=
    acquireScript_cases key serverMs nowMs leaseMs limit token
  · right
    rw [granted]
    refine ExpiringSet.mem_live_pexpire (le_add_of_nonneg_right later) ?_
    exact SortedSet.mem_entries_zadd.mpr (.inl rfl)
  · left
    rw [refused]
    exact kept

/-- The script keeps a lease of another token that is not over. -/
theorem mem_acquireScript (held : (token', score) ∈ (key.live serverMs).set.entries)
    (leased : nowMs < score) (other : token' ≠ token) :
    (token', score) ∈ (acquireScript key serverMs nowMs leaseMs limit token).1.set.entries := by
  have kept := ExpiringSet.mem_entries_zremrangebyscore.mpr ⟨held, leased⟩
  obtain ⟨swept, rfl, ⟨-, granted⟩ | refused⟩ :=
    acquireScript_cases key serverMs nowMs leaseMs limit token
  · rw [granted]
    exact SortedSet.mem_entries_zadd.mpr (.inr ⟨kept, other⟩)
  · rw [refused]
    exact kept

end Script

section Permits

theorem sent_send (s : State) (token : String) (phase : Phase) (command : Command) :
    (s.send token phase command).sent = Function.update s.sent token (some command) := rfl

theorem phase_goTo (s : State) (token : String) (phase : Phase) :
    (s.goTo token phase).phase = Function.update s.phase token phase := rfl

theorem phase_send (s : State) (token : String) (phase : Phase) (command : Command) :
    (s.send token phase command).phase = Function.update s.phase token phase := rfl

/-- What holds of the key, and of the clocks that are read for the scripts on their way. -/
structure Inv (settings : Settings) (s : State) : Prop where
  bounded : s.key.set.zcard ≤ settings.permits
  scores : ∀ e ∈ s.key.set.entries, e.2 ≤ s.nowMs + settings.leaseMs
  outlasts : s.key.Outlasts
  read : ∀ token nowMs, s.sent token = some (.acquire nowMs) → nowMs ≤ s.nowMs

theorem inv_initial (settings : Settings) (now : ℚ) : Inv settings (initial now) where
  bounded := Nat.zero_le _
  scores e member := absurd member List.not_mem_nil
  outlasts expiresAt ends := absurd ends (Option.not_mem_none expiresAt)
  read token nowMs sent := by cases sent

/-- The clock may go on, and scripts are sent with the time at which they are. -/
theorem Inv.client (inv : Inv settings s) (key : t.key = s.key) (clock : s.nowMs ≤ t.nowMs)
    (read : ∀ token nowMs, t.sent token = some (.acquire nowMs) →
      s.sent token = some (.acquire nowMs) ∨ nowMs ≤ t.nowMs) : Inv settings t where
  bounded := key ▸ inv.bounded
  scores e member := (inv.scores e (key ▸ member)).trans (Int.add_le_add_right clock _)
  outlasts := key ▸ inv.outlasts
  read token nowMs sent := (read token nowMs sent).elim
    (fun before => (inv.read token nowMs before).trans clock) id

theorem Inv.goTo (inv : Inv settings s) (token : String) (phase : Phase) :
    Inv settings (s.goTo token phase) :=
  inv.client rfl le_rfl fun _ _ sent => .inl sent

/-- A script carries the time at which it is sent. -/
theorem Inv.send (inv : Inv settings s) (token : String) (phase : Phase)
    (now : ∀ nowMs, command = .acquire nowMs → nowMs ≤ s.nowMs) :
    Inv settings (s.send token phase command) := by
  refine inv.client rfl le_rfl fun token' nowMs sent => ?_
  by_cases other : token' = token
  · subst other
    rw [sent_send, Function.update_self] at sent
    exact .inr (now nowMs (Option.some.inj sent))
  · rw [sent_send, Function.update_of_ne other] at sent
    exact .inl sent

theorem nowMs_mono {seconds : ℚ} (forward : 0 ≤ seconds) :
    s.nowMs ≤ ({ s with now := s.now + seconds } : State).nowMs := by
  apply Int.floor_mono
  dsimp only
  linarith

theorem inv_execute (inv : Inv settings s) (pending : s.sent token = some command) :
    (execute settings s token command).1.set.zcard ≤ settings.permits ∧
      (∀ e ∈ (execute settings s token command).1.set.entries,
        e.2 ≤ s.nowMs + settings.leaseMs) ∧
      (execute settings s token command).1.Outlasts := by
  cases command with
  | acquire nowMs =>
    have read := inv.read token nowMs pending
    exact ⟨zcard_acquireScript_le inv.bounded, scores_acquireScript read inv.scores,
      outlasts_acquireScript read inv.scores inv.outlasts⟩
  | release =>
    refine ⟨?_, fun e member => ?_, ?_⟩
    · exact ((s.key.live s.nowMs).zcard_zrem_le token).trans
        ((s.key.zcard_live_le s.nowMs).trans inv.bounded)
    · have found := (ExpiringSet.mem_entries_zrem.mp member).1
      exact inv.scores e (ExpiringSet.mem_entries_of_live found)
    · exact (inv.outlasts.live s.nowMs).shrunk fun e member =>
        (SortedSet.mem_entries_zrem.mp member).1

theorem inv_step (inv : Inv settings s) (taken : step settings s event = some t) :
    Inv settings t := by
  cases steps_of_step taken with
  | elapse forward => exact inv.client rfl (nowMs_mono forward) fun _ _ sent => .inl sent
  | expire =>
    constructor
    · exact (s.key.zcard_live_le s.nowMs).trans inv.bounded
    · exact fun e member => inv.scores e (ExpiringSet.mem_entries_of_live member)
    · exact inv.outlasts.live s.nowMs
    · exact inv.read
  | serve pending =>
    obtain ⟨bounded, scores, outlasts⟩ := inv_execute inv pending
    refine ⟨bounded, scores, outlasts, fun token' nowMs sent => ?_⟩
    rename_i served command
    dsimp only at sent
    by_cases other : token' = served
    · subst other
      rw [Function.update_self] at sent
      cases sent
    · rw [Function.update_of_ne other] at sent
      exact inv.read token' nowMs sent
  | arrive | wake =>
    apply inv.send
    rintro nowMs same
    cases same
    exact le_rfl
  | finish =>
    apply inv.send
    rintro nowMs same
    cases same
  | acquired | refused | waits | cancel | unavailable | unreleased => apply inv.goTo

/-- A lease that is not over stays in the set, but for a release of its own request or a later
grant to its own token. -/
theorem kept_step (inv : Inv settings s) (taken : step settings s event = some t)
    (held : (token, score) ∈ s.zset.entries) (leased : t.nowMs < score)
    (other : ∀ command, event ≠ .serve token command) : (token, score) ∈ t.zset.entries := by
  have stored := ExpiringSet.mem_entries_of_live held
  have alive (key : t.key = s.key) : (token, score) ∈ t.zset.entries := by
    rw [State.zset, key]
    exact inv.outlasts.mem_entries_live stored leased.le
  cases steps_of_step taken with
  | expire =>
    have once : (s.key.live s.nowMs).live s.nowMs = s.key.live s.nowMs :=
      ExpiringSet.live_live le_rfl
    change (token, score) ∈ ((s.key.live s.nowMs).live s.nowMs).set.entries
    rw [once]
    exact held
  | serve pending =>
    rename_i token' command
    have outlasts := (inv_execute inv pending).2.2
    apply outlasts.mem_entries_live ?_ leased.le
    have foreign : token ≠ token' := fun same => other command (by rw [same])
    cases command with
    | acquire nowMs =>
      exact mem_acquireScript held ((inv.read _ nowMs pending).trans_lt leased) foreign
    | release => exact ExpiringSet.mem_entries_zrem.mpr ⟨held, foreign⟩
  | elapse | arrive | wake | finish | acquired | refused | waits | cancel | unavailable | unreleased =>
    exact alive rfl

end Permits

section Requests

/-- The releases of the token that the server has run -/
def releases (past : List Event) (token : String) : ℕ := past.count (.serve token .release)

/-- The script has granted a permit, which is in the set until its lease is over. -/
def Held (settings : Settings) (past : List Event) (s : State) (token : String) : Prop :=
  ∃ nowMs, .serve token (.acquire nowMs) ∈ past ∧
    (s.nowMs < nowMs + settings.leaseMs → (token, nowMs + settings.leaseMs) ∈ s.zset.entries)

/-- What the past says of a request, by its phase and its command on the way. -/
def Tracks (settings : Settings) (past : List Event) (s : State) (token : String) :
    Phase → Option Command → Prop
  | .absent, sent | .sleeping _ _, sent | .refused, sent => sent = none ∧ releases past token = 0
  | .evaluating _, sent => (∃ nowMs, sent = some (.acquire nowMs)) ∧ releases past token = 0
  | .answered _ acquired, sent =>
    sent = none ∧ releases past token = 0 ∧ (acquired = true → Held settings past s token)
  | .unavailable, sent | .abandoned, sent => sent ≠ some .release ∧ releases past token = 0
  | .running, sent => sent = none ∧ releases past token = 0 ∧ Held settings past s token
  | .releasing ending, sent =>
    sent = some .release ∧ releases past token = 0 ∧ .finish token ending ∈ past
  | .closed ending, sent => sent = none ∧ releases past token = 1 ∧ .finish token ending ∈ past
  | .unreleased ending, sent =>
    .fail token ∈ past ∧ .finish token ending ∈ past ∧
      (sent = some .release ∧ releases past token = 0 ∨ sent = none ∧ releases past token = 1)

/-- The request that an event is about -/
def Event.request : Event → Option String
  | .elapse _ | .expire => none
  | .arrive token | .serve token _ | .receive token | .wake token | .finish token _
  | .cancel token | .fail token => some token

theorem releases_append (past : List Event) (event : Event) (token : String) :
    releases (past ++ [event]) token =
      releases past token + if event = .serve token .release then 1 else 0 := by
  rw [releases, List.count_append, List.count_singleton, releases]
  simp only [beq_iff_eq]

theorem releases_append_of_ne (other : event ≠ .serve token .release) :
    releases (past ++ [event]) token = releases past token := by
  rw [releases_append, if_neg other, Nat.add_zero]

theorem nowMs_le_of_step (taken : step settings s event = some t) : s.nowMs ≤ t.nowMs := by
  cases steps_of_step taken with
  | elapse forward => exact nowMs_mono forward
  | expire | arrive | serve | wake | finish | acquired | refused | waits | cancel | unavailable
  | unreleased => exact le_rfl

theorem held_step (inv : Inv settings s) (taken : step settings s event = some t)
    (held : Held settings past s token) (other : ∀ command, event ≠ .serve token command) :
    Held settings (past ++ [event]) t token := by
  obtain ⟨nowMs, granted, present⟩ := held
  refine ⟨nowMs, List.mem_append_left _ granted, fun leased => ?_⟩
  exact kept_step inv taken (present ((nowMs_le_of_step taken).trans_lt leased)) leased other

/-- An event of another request leaves the request where it is. -/
theorem foreign_step (taken : step settings s event = some t) (other : event.request ≠ some token) :
    t.phase token = s.phase token ∧ t.sent token = s.sent token := by
  have untouched {token' : String} (event : event.request = some token') : token ≠ token' :=
    fun same => other (by rw [event, same])
  cases steps_of_step taken with
  | elapse | expire => exact ⟨rfl, rfl⟩
  | serve | arrive | wake | finish =>
    exact ⟨Function.update_of_ne (untouched rfl) _ _, Function.update_of_ne (untouched rfl) _ _⟩
  | acquired | refused | waits | cancel | unavailable | unreleased =>
    exact ⟨Function.update_of_ne (untouched rfl) _ _, rfl⟩

theorem tracks_foreign (inv : Inv settings s) (taken : step settings s event = some t)
    (other : event.request ≠ some token) {phase : Phase} {sent : Option Command}
    (tracks : Tracks settings past s token phase sent) :
    Tracks settings (past ++ [event]) t token phase sent := by
  have unserved (command : Command) : event ≠ .serve token command :=
    fun same => other (by rw [same]; rfl)
  have count : releases (past ++ [event]) token = releases past token :=
    releases_append_of_ne (unserved .release)
  have held (before : Held settings past s token) := held_step inv taken before unserved
  cases phase with
  | absent | sleeping | refused | evaluating | unavailable | abandoned =>
    rwa [Tracks, count]
  | answered =>
    rw [Tracks, count]
    exact ⟨tracks.1, tracks.2.1, fun acquired => held (tracks.2.2 acquired)⟩
  | running =>
    rw [Tracks, count]
    exact ⟨tracks.1, tracks.2.1, held tracks.2.2⟩
  | releasing | closed =>
    rw [Tracks, count]
    exact ⟨tracks.1, tracks.2.1, List.mem_append_left _ tracks.2.2⟩
  | unreleased =>
    rw [Tracks, count]
    exact ⟨List.mem_append_left _ tracks.1, List.mem_append_left _ tracks.2.1, tracks.2.2⟩

/-- The reply of a script that grants a permit comes while the permit is in the set. -/
theorem held_of_serve (inv : Inv settings s)
    (taken : step settings s (.serve token (.acquire nowMs)) = some t)
    (acquired : (execute settings s token (.acquire nowMs)).2 = true) :
    Held settings (past ++ [.serve token (.acquire nowMs)]) t token := by
  refine ⟨nowMs, List.mem_append_right _ (List.mem_singleton_self _), fun leased => ?_⟩
  have outlasts := (inv_step inv taken).outlasts
  cases steps_of_step taken with
  | serve pending => exact outlasts.mem_entries_live (mem_of_acquireScript acquired) leased.le

/-- A command that the server runs -/
theorem tracks_serve (inv : Inv settings s) (taken : step settings s (.serve token command) = some t)
    (tracks : Tracks settings past s token (s.phase token) (some command)) :
    Tracks settings (past ++ [.serve token command]) t token
      ((s.phase token).replied (execute settings s token command).2) none := by
  generalize s.phase token = phase at tracks ⊢
  have count := releases_append past (.serve token command) token
  cases phase with
  | absent | sleeping | refused | answered | running | closed => cases tracks.1
  | evaluating deadline =>
    obtain ⟨⟨nowMs, same⟩, unreleased⟩ := tracks
    cases same
    rw [if_neg (by rintro ⟨⟩), Nat.add_zero] at count
    exact ⟨rfl, count.trans unreleased, held_of_serve inv taken⟩
  | unavailable | abandoned =>
    have other : (Event.serve token command) ≠ .serve token .release := by
      rintro ⟨⟩
      exact tracks.1 rfl
    rw [if_neg other, Nat.add_zero] at count
    exact ⟨Option.some_ne_none _ |>.symm, count.trans tracks.2⟩
  | releasing ending =>
    obtain ⟨same, unreleased, finished⟩ := tracks
    cases same
    rw [if_pos rfl, unreleased] at count
    exact ⟨rfl, count, List.mem_append_left _ finished⟩
  | unreleased ending =>
    obtain ⟨failed, finished, ⟨same, unreleased⟩ | ⟨same, -⟩⟩ := tracks
    · cases same
      rw [if_pos rfl, unreleased] at count
      exact ⟨List.mem_append_left _ failed, List.mem_append_left _ finished, .inr ⟨rfl, count⟩⟩
    · cases same

/-- A request that waits has not released anything. -/
theorem unreleased_of_waiting {phase : Phase} {sent : Option Command} (waiting : phase.Waiting)
    (tracks : Tracks settings past s token phase sent) :
    sent ≠ some .release ∧ releases past token = 0 := by
  cases phase with
  | evaluating =>
    obtain ⟨⟨nowMs, rfl⟩, unreleased⟩ := tracks
    exact ⟨by rintro ⟨⟩, unreleased⟩
  | answered => exact ⟨by rw [tracks.1]; rintro ⟨⟩, tracks.2.1⟩
  | sleeping => exact ⟨by rw [tracks.1]; rintro ⟨⟩, tracks.2⟩
  | absent | refused | unavailable | abandoned | running | releasing | closed | unreleased =>
    exact waiting.elim

/-- What a step of the client leaves of the past -/
theorem tracks_client (inv : Inv settings s) (taken : step settings s event = some t)
    (own : event.request = some token) (unserved : ∀ command, event ≠ .serve token command)
    (tracks : Tracks settings past s token (s.phase token) (s.sent token)) :
    Tracks settings (past ++ [event]) t token (t.phase token) (t.sent token) := by
  have count : releases (past ++ [event]) token = releases past token :=
    releases_append_of_ne (unserved .release)
  have held (before : Held settings past s token) := held_step inv taken before unserved
  have added : event ∈ past ++ [event] := List.mem_append_right _ (List.mem_singleton_self _)
  cases steps_of_step taken with
  | elapse | expire => cases own
  | serve =>
    cases own
    exact absurd rfl (unserved _)
  | arrive absent =>
    cases own
    rw [absent] at tracks
    rw [sent_send, phase_send, Function.update_self, Function.update_self]
    exact ⟨⟨_, rfl⟩, count.trans tracks.2⟩
  | acquired answered =>
    cases own
    rw [answered] at tracks
    rw [phase_goTo, Function.update_self]
    exact ⟨tracks.1, count.trans tracks.2.1, held (tracks.2.2 rfl)⟩
  | refused answered | waits answered =>
    cases own
    rw [answered] at tracks
    rw [phase_goTo, Function.update_self]
    exact ⟨tracks.1, count.trans tracks.2.1⟩
  | wake sleeping =>
    cases own
    rw [sleeping] at tracks
    rw [sent_send, phase_send, Function.update_self, Function.update_self]
    exact ⟨⟨_, rfl⟩, count.trans tracks.2⟩
  | finish running =>
    cases own
    rw [running] at tracks
    rw [sent_send, phase_send, Function.update_self, Function.update_self]
    exact ⟨rfl, count.trans tracks.2.1, added⟩
  | cancel waiting | unavailable waiting =>
    cases own
    rw [phase_goTo, Function.update_self]
    obtain ⟨unsent, unreleased⟩ := unreleased_of_waiting waiting tracks
    exact ⟨unsent, count.trans unreleased⟩
  | unreleased releasing =>
    cases own
    rw [releasing] at tracks
    rw [phase_goTo, Function.update_self]
    exact ⟨added, List.mem_append_left _ tracks.2.2, .inl ⟨tracks.1, count.trans tracks.2.1⟩⟩

theorem tracks_step (inv : Inv settings s) (taken : step settings s event = some t)
    (tracks : Tracks settings past s token (s.phase token) (s.sent token)) :
    Tracks settings (past ++ [event]) t token (t.phase token) (t.sent token) := by
  by_cases own : event.request = some token
  · by_cases served : ∃ command, event = .serve token command
    · obtain ⟨command, rfl⟩ := served
      have taken' := taken
      cases steps_of_step taken with
      | serve pending =>
        rw [pending] at tracks
        dsimp only
        rw [Function.update_self, phase_goTo, Function.update_self]
        exact tracks_serve inv taken' tracks
    · exact tracks_client inv taken own (fun command same => served ⟨command, same⟩) tracks
  · obtain ⟨phase, sent⟩ := foreign_step taken own
    rw [phase, sent]
    exact tracks_foreign inv taken own tracks

end Requests

section Semaphore

/-- Redis answers every command, and no release is cancelled. -/
def RedisReachable (events : List Event) : Prop := ∀ token, .fail token ∉ events

/-- Where the handler of a request is that has been started: it runs, the release has been sent and
the server takes it, or the server has run it. -/
inductive Releases (settings : Settings) (events : List Event) (s : State) (token : String) :
    Phase → Prop where
  | running (before : releases events token = 0)
    (ends : ∀ ending, ∃ t, step settings s (.finish token ending) = some t ∧
      t.phase token = .releasing ending) : Releases settings events s token .running
  | releasing {ending : Ending} (before : releases events token = 0)
    (served : ∃ t, step settings s (.serve token .release) = some t ∧
      t.phase token = .closed ending) : Releases settings events s token (.releasing ending)
  | closed {ending : Ending} (once : releases events token = 1) :
    Releases settings events s token (.closed ending)

/-- The handler of the request has been started. -/
def Phase.Started : Phase → Prop
  | .running | .releasing _ | .closed _ | .unreleased _ => True
  | _ => False

structure Guarantees (settings : Settings) (events : List Event) (s : State) : Prop where
  bounded : s.zset.zcard ≤ settings.permits
  /-- Only the release of its own request takes a permit from the set whose lease is not over. -/
  leased : ∀ event t token score, step settings s event = some t → (token, score) ∈ s.zset.entries →
    t.nowMs < score → token ∈ t.zset ∨ event = .serve token .release
  /-- A release is sent at the end of a handler, and the server runs it once at most. -/
  own : ∀ token, releases events token ≤ 1 ∧
    (releases events token = 1 → ∃ ending, .finish token ending ∈ events)
  released : RedisReachable events → ∀ token, (s.phase token).Started →
    Releases settings events s token (s.phase token)
  /-- A handler runs with a granted permit that nothing has released. -/
  permitted : ∀ token, s.phase token = .running →
    Held settings events s token ∧ releases events token = 0

/-- Every run from an empty key, whatever the order of its steps, keeps the guarantees. -/
def Guarded (settings : Settings) : Prop :=
  ∀ start events s, runFrom (step settings) (initial start) events = some s →
    Guarantees settings events s

/-- A grant to the own token leaves it in the set. -/
theorem mem_step (inv : Inv settings s) (taken : step settings s event = some t)
    (held : (token, score) ∈ s.zset.entries) (leased : t.nowMs < score) :
    token ∈ t.zset ∨ event = .serve token .release := by
  by_cases served : ∃ command, event = .serve token command
  · obtain ⟨command, rfl⟩ := served
    cases command with
    | release => exact .inr rfl
    | acquire nowMs =>
      have outlasts := (inv_step inv taken).outlasts
      cases steps_of_step taken with
      | serve pending =>
        left
        have read := inv.read token nowMs pending
        rcases mem_or_of_acquireScript held (read.trans_lt leased) settings.permits
          settings.leaseMs_nonneg with kept | granted
        · exact SortedSet.mem_iff.mpr ⟨score, outlasts.mem_entries_live kept leased.le⟩
        · exact SortedSet.mem_iff.mpr ⟨_, granted⟩
  · exact .inl (SortedSet.mem_iff.mpr ⟨score, kept_step inv taken held leased fun command same =>
      served ⟨command, same⟩⟩)

theorem tracks_run {start : ℚ} (run : runFrom (step settings) (initial start) events = some s) :
    Inv settings s ∧ ∀ token, Tracks settings events s token (s.phase token) (s.sent token) := by
  have initially : Inv settings (initial start) ∧ ∀ token, Tracks settings [] (initial start) token
      ((initial start).phase token) ((initial start).sent token) :=
    ⟨inv_initial settings start, fun token => ⟨rfl, rfl⟩⟩
  have extends_ (past : List Event) (s : State) (event : Event) (t : State)
      (before : Inv settings s ∧
        ∀ token, Tracks settings past s token (s.phase token) (s.sent token))
      (taken : step settings s event = some t) : Inv settings t ∧
        ∀ token, Tracks settings (past ++ [event]) t token (t.phase token) (t.sent token) :=
    ⟨inv_step before.1 taken, fun token => tracks_step before.1 taken (before.2 token)⟩
  exact history_runFrom (H := fun past s => Inv settings s ∧
    ∀ token, Tracks settings past s token (s.phase token) (s.sent token)) extends_ initially run

/-- Only a handler that has ended is released, and once. -/
theorem releases_of_tracks {phase : Phase} {sent : Option Command}
    (tracks : Tracks settings events s token phase sent) : releases events token ≤ 1 ∧
      (releases events token = 1 → ∃ ending, .finish token ending ∈ events) := by
  have none_yet (unreleased : releases events token = 0) : releases events token ≤ 1 ∧
      (releases events token = 1 → ∃ ending, .finish token ending ∈ events) := by
    rw [unreleased]
    exact ⟨Nat.zero_le 1, fun same => absurd same Nat.zero_ne_one⟩
  cases phase with
  | absent | sleeping | refused | evaluating | unavailable | abandoned => exact none_yet tracks.2
  | answered | running | releasing => exact none_yet tracks.2.1
  | closed ending => exact ⟨tracks.2.1.le, fun _ => ⟨ending, tracks.2.2⟩⟩
  | unreleased ending =>
    obtain ⟨-, finished, ⟨-, unreleased⟩ | ⟨-, once⟩⟩ := tracks
    · exact none_yet unreleased
    · exact ⟨once.le, fun _ => ⟨ending, finished⟩⟩

theorem released_of_tracks (reachable : RedisReachable events) (started : (s.phase token).Started)
    (tracks : Tracks settings events s token (s.phase token) (s.sent token)) :
    Releases settings events s token (s.phase token) := by
  cases phase : s.phase token with
  | running =>
    rw [phase] at tracks
    refine .running tracks.2.1 fun ending => ?_
    simp only [step, phase]
    exact ⟨_, rfl, Function.update_self ..⟩
  | releasing ending =>
    rw [phase] at tracks
    refine .releasing tracks.2.1 ?_
    simp only [step, tracks.1, if_pos, phase]
    exact ⟨_, rfl, Function.update_self ..⟩
  | closed ending =>
    rw [phase] at tracks
    exact .closed tracks.2.1
  | unreleased ending =>
    rw [phase] at tracks
    exact absurd tracks.1 (reachable token)
  | absent | evaluating | answered | sleeping | refused | unavailable | abandoned =>
    rw [phase] at started
    exact started.elim

end Semaphore

end HeyeeAgent.Middleware
