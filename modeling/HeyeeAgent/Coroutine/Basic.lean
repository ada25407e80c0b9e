import HeyeeAgent.Machine.Run

/-! # Coroutines over an interactive world

A coroutine runs without interruption from one suspension to the next. At a suspension the world
takes any number of actions on the shared state and then resumes the coroutine with a reply or with
an exception, both admissible for the point where it is suspended. The choices of the world are a
tape, so a coroutine is a function of the first state and the tape, and a property of every run is
a property for every tape. A tape that is too short leaves the coroutine suspended.
-/

namespace Coroutine

open Machine

variable {σ ε P X : Type} {Reply : P → Type} {α β : Type}

/-- What the world does at one suspension: its actions, the point, and how it resumes there. -/
structure Turn (ε P X : Type) (Reply : P → Type) where
  actions : List ε
  point : P
  signal : Except X (Reply point)

/-- A resumption as the coroutine sees it. -/
structure Visit (σ P X : Type) (Reply : P → Type) where
  point : P
  state : σ
  signal : Except X (Reply point)

inductive Outcome (X α : Type) where
  | returned (value : α)
  | raised (x : X)
  | suspended
deriving DecidableEq

/-- The coroutine has ended. -/
def Outcome.Finished : Outcome X α → Prop
  | .suspended => False
  | _ => True

instance : DecidablePred (Outcome.Finished : Outcome X α → Prop)
  | .suspended => isFalse id
  | .returned _ => isTrue trivial
  | .raised _ => isTrue trivial

structure Result (σ ε P X : Type) (Reply : P → Type) (α : Type) where
  outcome : Outcome X α
  state : σ
  rest : List (Turn ε P X Reply)
  visits : List (Visit σ P X Reply)

/-- Coroutines that return an `α`. -/
def Co (σ ε P X : Type) (Reply : P → Type) (α : Type) : Type :=
  σ → List (Turn ε P X Reply) → Result σ ε P X Reply α

/-- The actions the world can take, and the signals a point can be resumed with. -/
structure World (σ ε P X : Type) (Reply : P → Type) where
  act : σ → ε → Option σ
  admits : (p : P) → σ → Except X (Reply p) → Bool

namespace Co

/-- Ends at once, without a suspension. -/
def done (outcome : Outcome X α) : Co σ ε P X Reply α := fun s tape => ⟨outcome, s, tape, []⟩

/-- Goes on with the outcome of the first part; the visits are those of both parts. -/
def andThen (first : Co σ ε P X Reply α) (next : Outcome X α → Co σ ε P X Reply β) :
    Co σ ε P X Reply β := fun s tape =>
  let r := first s tape
  let r' := next r.outcome r.state r.rest
  { r' with visits := r.visits ++ r'.visits }

instance : Monad (Co σ ε P X Reply) where
  pure value := done (.returned value)
  bind first next := first.andThen fun
    | .returned value => next value
    | .raised x => done (.raised x)
    | .suspended => done .suspended

def raise (x : X) : Co σ ε P X Reply α := done (.raised x)

def get : Co σ ε P X Reply σ := fun s tape => ⟨.returned s, s, tape, []⟩

def modify (change : σ → σ) : Co σ ε P X Reply Unit := fun s tape =>
  ⟨.returned (), change s, tape, []⟩

/-- `if c: ...` without an `else`. -/
def onlyIf (c : Bool) (m : Co σ ε P X Reply Unit) : Co σ ε P X Reply Unit := if c then m else pure ()

/-- `try ... except`; the handler raises again what it does not catch. -/
def tryCatch (body : Co σ ε P X Reply α) (handler : X → Co σ ε P X Reply α) :
    Co σ ε P X Reply α :=
  body.andThen fun
    | .returned value => done (.returned value)
    | .raised x => handler x
    | .suspended => done .suspended

/-- `try ... finally`: an exception of the cleanup replaces the outcome of the body. -/
def tryFinally (body : Co σ ε P X Reply α) (cleanup : Co σ ε P X Reply Unit) :
    Co σ ε P X Reply α :=
  body.andThen fun
    | .returned value => cleanup >>= fun _ => pure value
    | .raised x => cleanup >>= fun _ => raise x
    | .suspended => done .suspended

/-- A suspension at the point `p`. -/
def await [DecidableEq P] (W : World σ ε P X Reply) (p : P) : Co σ ε P X Reply (Reply p)
  | s, [] => ⟨.suspended, s, [], []⟩
  | s, turn :: rest =>
    if here : turn.point = p then
      match runFrom W.act s turn.actions with
      | none => ⟨.suspended, s, [], []⟩
      | some t =>
        let signal : Except X (Reply p) := here ▸ turn.signal
        if W.admits p t signal then
          match signal with
          | .ok reply => ⟨.returned reply, t, rest, [⟨p, t, .ok reply⟩]⟩
          | .error x => ⟨.raised x, t, rest, [⟨p, t, .error x⟩]⟩
        else ⟨.suspended, s, [], []⟩
    else ⟨.suspended, s, [], []⟩

/-- A call of the world that answers at once: no action can come before its answer. -/
def call [DecidableEq P] (W : World σ ε P X Reply) (p : P) : Co σ ε P X Reply (Reply p) :=
  await { W with act := fun _ _ => none } p

/-- At most so many rounds of `while True`. -/
def rounds (body : Co σ ε P X Reply (Option β)) : ℕ → Co σ ε P X Reply β
  | 0 => done .suspended
  | fuel + 1 => body >>= fun
    | some value => pure value
    | none => rounds body fuel

/-- `while True`, left with a value. Each round of the loops below takes a turn of the tape, so the
tape bounds the number of rounds. -/
def repeatUntil (body : Co σ ε P X Reply (Option β)) : Co σ ε P X Reply β := fun s tape =>
  rounds body (tape.length + 1) s tape

end Co

end Coroutine
