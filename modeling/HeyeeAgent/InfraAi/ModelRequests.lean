import HeyeeAgent.InfraAi.LegacyConfig

/-! # Requests to the providers of models

What the clients for embeddings and for reranking share: one POST to the address of the target, and
the checks of the reply. The server is a parameter. The clients differ by a label in their errors.
-/

namespace HeyeeAgent.InfraAi.Models

open Python

/-- The exceptions of a client -/
inductive ClientError where
  | modelUnavailable (message : Str)
  /-- An error of `int` or `float`, for a value that they do not convert. -/
  | conversion

structure HttpRequest where
  url : Str
  body : Json
  authorization : Option Str
  timeout : ℚ

/-- How a POST ends; `raised` is an `httpx.HTTPError` or a `ValueError`. -/
inductive HttpReply where
  | raised (message : Str)
  | response (isError : Bool) (statusCode : ℕ) (text : Str) (json : Option Object)

/-- `timeout_seconds or` the timeout of the settings -/
def timeoutOf (target : ModelTarget) (default : ℚ) : ℚ :=
  match target.candidate.timeoutSeconds with
  | none => default
  | some timeout => if timeout = 0 then default else timeout

/-- The text of a status code -/
def digitsOf (n : ℕ) : Str := .lit (toString n)

/-- The POST of a client, up to the JSON of its response. -/
def postJson (label : String) (post : HttpRequest → HttpReply) (target : ModelTarget) (body : Json)
    (authorization : Option Str) (timeout : ℚ) : Except ClientError Object :=
  match resolveModelUrl target with
  | .error message => .error (.modelUnavailable (.lit message))
  | .ok url =>
    match post { url, body, authorization, timeout } with
    | .raised message => .error (.modelUnavailable message)
    | .response isError statusCode text json =>
      if isError then
        .error (.modelUnavailable (.lit target.provider.name ++ .lit (" " ++ label.toLower) ++
          .lit " API failed: HTTP " ++ digitsOf statusCode ++ .lit " body=" ++ text.take 500))
      else
        match json with
        | none => .error (.modelUnavailable (.lit (label ++ " API returned invalid JSON")))
        | some data => .ok data

/-- `str(error.get(field) or "unknown")` -/
def errorField (repr : Object → Str) (error : Dict Str Object) (field : String) : Str :=
  ((Object.get error (.lit field)).orElse (.str (.lit "unknown"))).text repr

/-- The object of a response that reports no error. -/
def responseObject (label : String) (repr : Object → Str) (data : Object) :
    Except ClientError (Dict Str Object) :=
  match data with
  | .dict entries =>
    match Object.get entries (.lit "error") with
    | .dict error => .error (.modelUnavailable (.lit (label ++ " provider error: ") ++
        errorField repr error "code" ++ .lit " - " ++ errorField repr error "message"))
    | _ => .ok entries
  | _ => .error (.modelUnavailable (.lit (label ++ " API response must be a JSON object")))

end HeyeeAgent.InfraAi.Models
