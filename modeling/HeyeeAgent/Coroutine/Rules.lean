import HeyeeAgent.Coroutine.Basic

/-! # Rules for coroutines

A triple relates a precondition to what holds when the coroutine returns, when it raises and while
it is suspended, under a condition on the resumptions it sees. An assertion survives a suspension
when every action of the world keeps it.
-/

namespace Coroutine

open Machine

variable {σ ε P X : Type} {Reply : P → Type} {α β : Type}
variable {C : Visit σ P X Reply → Prop} {S : σ → Prop}

/-- What an outcome has to satisfy. -/
def Ends (S : σ → Prop) (post : α → σ → Prop) (exc : X → σ → Prop) (s : σ) : Outcome X α → Prop
  | .returned value => post value s
  | .raised x => exc x s
  | .suspended => S s

/-- Under `C`, a run from `pre` waits in `S`, ends in `post` when it returns, and in `exc` when it
raises. -/
def Triple (C : Visit σ P X Reply → Prop) (S : σ → Prop) (pre : σ → Prop) (m : Co σ ε P X Reply α)
    (post : α → σ → Prop) (exc : X → σ → Prop) : Prop :=
  ∀ s tape, pre s → (∀ v ∈ (m s tape).visits, C v) →
    Ends S post exc (m s tape).state (m s tape).outcome

namespace Triple

variable {pre pre' : σ → Prop} {m : Co σ ε P X Reply α} {post post' : α → σ → Prop}
  {exc exc' : X → σ → Prop}

/-- The rule of consequence. -/
theorem conseq (triple : Triple C S pre m post exc) (stronger : ∀ s, pre' s → pre s)
    (returns : ∀ a s, post a s → post' a s) (raises : ∀ x s, exc x s → exc' x s) :
    Triple C S pre' m post' exc' := by
  intro s tape holds visited
  have ends := triple s tape (stronger s holds) visited
  cases outcome : (m s tape).outcome with
  | returned a => exact returns a _ (by rwa [outcome] at ends)
  | raised x => exact raises x _ (by rwa [outcome] at ends)
  | suspended => rwa [outcome] at ends

theorem strengthen_pre (triple : Triple C S pre m post exc) (stronger : ∀ s, pre' s → pre s) :
    Triple C S pre' m post exc := triple.conseq stronger (fun _ _ => id) fun _ _ => id

theorem weaken_post (triple : Triple C S pre m post exc) (returns : ∀ a s, post a s → post' a s) :
    Triple C S pre m post' exc := triple.conseq (fun _ => id) returns fun _ _ => id

theorem weaken_exc (triple : Triple C S pre m post exc) (raises : ∀ x s, exc x s → exc' x s) :
    Triple C S pre m post exc' := triple.conseq (fun _ => id) (fun _ _ => id) raises

theorem done {outcome : Outcome X α} (ends : ∀ s, pre s → Ends S post exc s outcome) :
    Triple C S pre (Co.done outcome : Co σ ε P X Reply α) post exc := fun s _ holds _ => ends s holds

theorem pure {a : α} (returns : ∀ s, pre s → post a s) :
    Triple C S pre (Pure.pure a : Co σ ε P X Reply α) post exc := done returns

theorem raise {x : X} (raises : ∀ s, pre s → exc x s) :
    Triple C S pre (Co.raise x : Co σ ε P X Reply α) post exc := done raises

theorem get {post : σ → σ → Prop} (returns : ∀ s, pre s → post s s) :
    Triple C S pre (Co.get : Co σ ε P X Reply σ) post exc := fun s _ holds _ => returns s holds

theorem modify {change : σ → σ} {post : Unit → σ → Prop}
    (returns : ∀ s, pre s → post () (change s)) :
    Triple C S pre (Co.modify change : Co σ ε P X Reply Unit) post exc :=
  fun s _ holds _ => returns s holds

/-- The common rule behind sequencing and the two kinds of `try`. -/
theorem andThen {next : Outcome X α → Co σ ε P X Reply β} (mid : α → σ → Prop)
    (mid_exc : X → σ → Prop) {post : β → σ → Prop} (first : Triple C S pre m mid mid_exc)
    (returned : ∀ a, Triple C S (mid a) (next (.returned a)) post exc)
    (raised : ∀ x, Triple C S (mid_exc x) (next (.raised x)) post exc)
    (stuck : next .suspended = Co.done .suspended) :
    Triple C S pre (m.andThen next) post exc := by
  intro s tape holds visited
  have first_visits : ∀ v ∈ (m s tape).visits, C v :=
    fun v member => visited v (List.mem_append_left _ member)
  have later_visits : ∀ v ∈ (next (m s tape).outcome (m s tape).state (m s tape).rest).visits, C v :=
    fun v member => visited v (List.mem_append_right _ member)
  have ends := first s tape holds first_visits
  change Ends S post exc (next (m s tape).outcome (m s tape).state (m s tape).rest).state
    (next (m s tape).outcome (m s tape).state (m s tape).rest).outcome
  cases outcome : (m s tape).outcome with
  | returned a =>
    rw [outcome] at ends later_visits
    exact returned a _ _ ends later_visits
  | raised x =>
    rw [outcome] at ends later_visits
    exact raised x _ _ ends later_visits
  | suspended =>
    rw [outcome] at ends
    rw [stuck]
    exact ends

theorem bind {f : α → Co σ ε P X Reply β} (mid : α → σ → Prop) {post : β → σ → Prop}
    (first : Triple C S pre m mid exc) (next : ∀ a, Triple C S (mid a) (f a) post exc) :
    Triple C S pre (m >>= f) post exc :=
  andThen mid exc first next (fun _ => .raise fun _ => id) rfl

theorem tryCatch {handler : X → Co σ ε P X Reply α} (caught : X → σ → Prop)
    (body : Triple C S pre m post caught)
    (handled : ∀ x, Triple C S (caught x) (handler x) post exc) :
    Triple C S pre (m.tryCatch handler) post exc :=
  andThen post caught body (fun _ => .pure fun _ => id) handled rfl

theorem tryFinally {cleanup : Co σ ε P X Reply Unit} (mid : α → σ → Prop) (caught : X → σ → Prop)
    (body : Triple C S pre m mid caught)
    (returned : ∀ a, Triple C S (mid a) cleanup (fun _ => post a) exc)
    (raised : ∀ x, Triple C S (caught x) cleanup (fun _ => exc x) exc) :
    Triple C S pre (m.tryFinally cleanup) post exc := by
  refine andThen mid caught body (fun a => ?_) (fun x => ?_) rfl
  · exact bind (fun _ => post a) (returned a) fun _ => .pure fun _ => id
  · exact bind (fun _ => exc x) (raised x) fun _ => .raise fun _ => id

/-- A fact of the precondition that is not about the state. -/
theorem given {fact : Prop} (triple : fact → Triple C S pre m post exc) :
    Triple C S (fun s => fact ∧ pre s) m post exc :=
  fun s tape holds visited => triple holds.1 s tape holds.2 visited

theorem each {ι : Type} {pre : ι → σ → Prop} (triple : ∀ i, Triple C S (pre i) m post exc) :
    Triple C S (fun s => ∃ i, pre i s) m post exc :=
  fun s tape ⟨i, holds⟩ visited => triple i s tape holds visited

theorem either (first : Triple C S pre m post exc) (second : Triple C S pre' m post exc) :
    Triple C S (fun s => pre s ∨ pre' s) m post exc :=
  fun s tape holds visited => holds.elim (first s tape · visited) (second s tape · visited)

/-- No state meets the precondition. -/
theorem unreachable (never : ∀ s, ¬ pre s) : Triple C S pre m post exc := fun s _ holds _ =>
  (never s holds).elim

/-- Both branches of a conditional. -/
theorem ite {c : Prop} [Decidable c] {m' : Co σ ε P X Reply α}
    (yes : c → Triple C S pre m post exc) (no : ¬ c → Triple C S pre m' post exc) :
    Triple C S pre (if c then m else m') post exc := by
  split_ifs with holds
  · exact yes holds
  · exact no holds

theorem onlyIf {c : Bool} {m : Co σ ε P X Reply Unit} {post : Unit → σ → Prop}
    (yes : c = true → Triple C S pre m post exc) (no : c = false → ∀ s, pre s → post () s) :
    Triple C S pre (Co.onlyIf c m) post exc :=
  ite yes fun other => .pure (no (by simpa using other))

/-- A suspension: the precondition survives the actions, and the signal is admitted. -/
theorem await [DecidableEq P] {W : World σ ε P X Reply} {p : P} {post : Reply p → σ → Prop}
    (waits : ∀ s, pre s → S s) (stable : ∀ s e t, pre s → W.act s e = some t → pre t)
    (returns : ∀ s reply, pre s → W.admits p s (.ok reply) = true → C ⟨p, s, .ok reply⟩ →
      post reply s)
    (raises : ∀ s x, pre s → W.admits p s (.error x) = true → C ⟨p, s, .error x⟩ → exc x s) :
    Triple C S pre (Co.await W p) post exc := by
  intro s tape holds visited
  cases tape with
  | nil => exact waits s holds
  | cons turn rest =>
    obtain ⟨actions, point, signal⟩ := turn
    simp only [Co.await] at visited ⊢
    split_ifs at visited ⊢ with here
    · subst here
      cases run : runFrom W.act s actions with
      | none => exact waits s holds
      | some t =>
        have kept : pre t := invariant_runFrom stable holds run
        simp only [run] at visited
        dsimp only at visited ⊢
        split_ifs at visited ⊢ with admitted
        · cases signal with
          | ok reply => exact returns t reply kept admitted (visited _ (List.mem_singleton_self _))
          | error x => exact raises t x kept admitted (visited _ (List.mem_singleton_self _))
        · exact waits s holds
    · exact waits s holds

/-- A call that answers at once. -/
theorem call [DecidableEq P] {W : World σ ε P X Reply} {p : P} {post : Reply p → σ → Prop}
    (waits : ∀ s, pre s → S s)
    (returns : ∀ s reply, pre s → W.admits p s (.ok reply) = true → C ⟨p, s, .ok reply⟩ →
      post reply s)
    (raises : ∀ s x, pre s → W.admits p s (.error x) = true → C ⟨p, s, .error x⟩ → exc x s) :
    Triple C S pre (Co.call W p) post exc :=
  await waits (fun _ _ _ _ taken => nomatch taken) returns raises

/-- A loop keeps its invariant from round to round. -/
theorem repeatUntil {I : σ → Prop} {body : Co σ ε P X Reply (Option β)} {post : β → σ → Prop}
    (waits : ∀ s, I s → S s) (round : Triple C S I body
      (fun | some value => post value | none => I) exc) :
    Triple C S I (Co.repeatUntil body) post exc := by
  have bounded : ∀ fuel, Triple C S I (Co.rounds body fuel) post exc := by
    intro fuel
    induction fuel with
    | zero => exact .done waits
    | succ fuel ih =>
      refine bind _ round fun result => ?_
      cases result with
      | some value => exact .pure fun _ => id
      | none => exact ih
  exact fun s tape => bounded (tape.length + 1) s tape

/-- What a triple says of a run that has ended. -/
theorem finished {Q : σ → Prop} (triple : Triple C S pre m (fun _ => Q) (fun _ => Q)) {s : σ}
    {tape : List (Turn ε P X Reply)} (holds : pre s) (visited : ∀ v ∈ (m s tape).visits, C v)
    (finished : (m s tape).outcome.Finished) : Q (m s tape).state := by
  have ends := triple s tape holds visited
  cases outcome : (m s tape).outcome with
  | returned a => rwa [outcome] at ends
  | raised x => rwa [outcome] at ends
  | suspended => exact absurd finished (outcome ▸ id)

/-- What a triple says of a run wherever it stands. -/
theorem always {Q : σ → Prop} (triple : Triple C Q pre m (fun _ => Q) (fun _ => Q)) {s : σ}
    {tape : List (Turn ε P X Reply)} (holds : pre s) (visited : ∀ v ∈ (m s tape).visits, C v) :
    Q (m s tape).state := by
  have ends := triple s tape holds visited
  cases outcome : (m s tape).outcome <;> rwa [outcome] at ends

end Triple

/-- The assertion holds again however the coroutine ends. -/
def Keeps (C : Visit σ P X Reply → Prop) (S : σ → Prop) (I : σ → Prop) (m : Co σ ε P X Reply α) :
    Prop :=
  Triple C S I m (fun _ => I) fun _ => I

namespace Keeps

variable {I : σ → Prop} {m m' : Co σ ε P X Reply α}

theorem pure {a : α} : Keeps C S I (Pure.pure a : Co σ ε P X Reply α) := Triple.pure fun _ => id

theorem raise {x : X} : Keeps C S I (Co.raise x : Co σ ε P X Reply α) := Triple.raise fun _ => id

theorem get : Keeps C S I (Co.get : Co σ ε P X Reply σ) := Triple.get fun _ => id

theorem modify {change : σ → σ} (kept : ∀ s, I s → I (change s)) :
    Keeps C S I (Co.modify change : Co σ ε P X Reply Unit) := Triple.modify kept

theorem bind {f : α → Co σ ε P X Reply β} (first : Keeps C S I m) (next : ∀ a, Keeps C S I (f a)) :
    Keeps C S I (m >>= f) := Triple.bind _ first next

theorem ite {c : Prop} [Decidable c] (yes : Keeps C S I m) (no : Keeps C S I m') :
    Keeps C S I (if c then m else m') := Triple.ite (fun _ => yes) fun _ => no

theorem onlyIf {c : Bool} {m : Co σ ε P X Reply Unit} (yes : Keeps C S I m) :
    Keeps C S I (Co.onlyIf c m) := Triple.onlyIf (fun _ => yes) fun _ _ => id

theorem tryCatch {handler : X → Co σ ε P X Reply α} (body : Keeps C S I m)
    (handled : ∀ x, Keeps C S I (handler x)) : Keeps C S I (m.tryCatch handler) :=
  Triple.tryCatch _ body handled

theorem repeatUntil {body : Co σ ε P X Reply (Option β)} (waits : ∀ s, I s → S s)
    (round : Keeps C S I body) : Keeps C S I (Co.repeatUntil body) :=
  Triple.repeatUntil waits (round.weaken_post fun a _ => by cases a <;> exact id)

theorem await [DecidableEq P] {W : World σ ε P X Reply} {p : P} (waits : ∀ s, I s → S s)
    (stable : ∀ s e t, I s → W.act s e = some t → I t) : Keeps C S I (Co.await W p) :=
  Triple.await waits stable (fun _ _ holds _ _ => holds) fun _ _ holds _ _ => holds

theorem call [DecidableEq P] {W : World σ ε P X Reply} {p : P} (waits : ∀ s, I s → S s) :
    Keeps C S I (Co.call W p) :=
  Triple.call waits (fun _ _ holds _ _ => holds) fun _ _ holds _ _ => holds

end Keeps

end Coroutine
