import HeyeeAgent.Rag.IntentModels
import HeyeeAgent.Rag.LlmResponseCleaner
import HeyeeAgent.Rag.QueryTermMapping

/-! # Query rewriting

A reply of the model is read for the rewritten question and its parts; where anything raises, the
rules split the question. The validator of the result drops blank parts, but it does not look whether
the rewritten question is blank, which takes their place if there are none.
-/

namespace HeyeeAgent.Rag

open Python

section Splitting

def questionEndings : Str := .lit "?？"

def separators : Str := .lit ";；\n"

/-- `_append_part` -/
def appendPart (parts : List Str) (value : Str) (keepEmpty : Bool) : List Str :=
  let cleaned := value.strip
  if cleaned ≠ [] ∨ keepEmpty then parts ++ [cleaned] else parts

/-- A turn of the loop of `split_query`, with the parts and the current one -/
def splitChar (state : List Str × Str) (char : ℕ) : List Str × Str :=
  let (parts, current) := state
  if isIn char separators then (appendPart parts current false, [])
  else if isIn char questionEndings then (appendPart parts (current ++ [char]) false, [])
  else (parts, current ++ [char])

def splitQuery (question : Str) : List Str :=
  let original := question.strip
  if original = [] then []
  else
    let (parts, current) := original.foldl splitChar ([], [])
    let parts := appendPart parts current false
    if 1 < parts.length then parts else [original]

/-- `items[:stop]` -/
def sliceTo (items : List Str) (stop : ℤ) : List Str :=
  items.take (if 0 ≤ stop then stop.toNat else (items.length + stop).toNat)

end Splitting

/-- The service; a library decides which texts a result may hold. -/
structure QueryRewriteService where
  termMappingService : QueryTermMappingService
  enabled : Bool
  hasLlm : Bool
  maxSubQuestions : ℤ
  /-- Whether `pydantic` takes the text for a `str` -/
  accepts : Str → Bool
  repr : Object → Str

/-- `normalize_sub_questions` -/
def RewriteResult.normalizeSubQuestions (result : RewriteResult) : RewriteResult :=
  let rewritten := result.rewrittenQuestion.strip
  let cleaned := (result.subQuestions.map Str.strip).filter fun item => item ≠ []
  { result with
    rewrittenQuestion := rewritten
    subQuestions := if cleaned = [] then [rewritten] else cleaned }

namespace QueryRewriteService

variable (service : QueryRewriteService)

/-- `RewriteResult(...)`; none where it raises. -/
def newResult (original rewritten : Str) (subQuestions : List Str) : Option RewriteResult :=
  if service.accepts original && service.accepts rewritten && subQuestions.all service.accepts then
    some (RewriteResult.normalizeSubQuestions ⟨original, rewritten, subQuestions⟩)
  else none

def fallbackResult (question : Str) : Option RewriteResult :=
  let normalized := service.termMappingService.normalize question
  service.newResult question normalized (sliceTo (splitQuery normalized) service.maxSubQuestions)

def coerceSubQuestions : Object → List Str
  | .list items => (items.map fun item => (item.text service.repr).strip).filter fun item => item ≠ []
  | _ => []

def subQuestionsFromResponse (parsed : Dict Str Object) (rewrittenQuestion : Str) : List Str :=
  match Object.get parsed (.lit "should_split") with
  | .bool false => [rewrittenQuestion]
  | _ =>
    let subQuestions := service.coerceSubQuestions (Object.get parsed (.lit "sub_questions"))
    if subQuestions = [] then splitQuery rewrittenQuestion else subQuestions

/-- The rewritten question of a response, or else that of the fallback -/
def rewrittenOf (parsed : Dict Str Object) (fallback : Str) : Str :=
  ((Object.get parsed (.lit "rewritten_question")).orElse
    ((Object.get parsed (.lit "rewrite")).orElse (.str fallback))).text service.repr |>.strip

/-- What a reply is read to; none where something raises. -/
def readReply (question : Str) (fallback : RewriteResult) (reply : Str) : Option RewriteResult := do
  let parsed ← parseJsonObject reply
  let rewrittenQuestion := service.rewrittenOf parsed fallback.rewrittenQuestion
  let subQuestions := service.subQuestionsFromResponse parsed rewrittenQuestion
  service.newResult question rewrittenQuestion (sliceTo subQuestions service.maxSubQuestions)

/-- `rewrite` with the reply of the model, none where the call raises. -/
def rewrite (question : Str) (reply : Option Str) : Option RewriteResult := do
  let fallback ← service.fallbackResult question
  if !service.enabled || !service.hasLlm then return fallback
  else return (reply.bind (service.readReply question fallback)).getD fallback

end QueryRewriteService

/-- Nothing of the result is blank, and there are some parts but not too many. -/
structure RewriteResult.Usable (limit : ℤ) (result : RewriteResult) : Prop where
  rewritten : result.rewrittenQuestion.strip ≠ []
  present : 1 ≤ result.subQuestions.length
  few : result.subQuestions.length ≤ limit
  subQuestions : ∀ item ∈ result.subQuestions, Str.strip item ≠ []

section Result

variable {items : List Str} {stop limit : ℤ} {original rewritten : Str}

theorem length_sliceTo (positive : 1 ≤ stop) : (sliceTo items stop).length ≤ stop := by
  have bound := List.length_take_le stop.toNat items
  rw [sliceTo, if_pos (by omega)]
  omega

/-- The validator keeps a result usable whose rewritten question is not blank. -/
theorem usable_normalizeSubQuestions (visible : rewritten.strip ≠ []) (positive : 1 ≤ limit)
    (few : items.length ≤ limit) :
    (RewriteResult.normalizeSubQuestions ⟨original, rewritten, items⟩).Usable limit := by
  have still : rewritten.strip.strip ≠ [] := by rwa [Str.strip_strip]
  rw [RewriteResult.normalizeSubQuestions]
  by_cases empty : ((items.map Str.strip).filter fun item => item ≠ []) = []
  · refine ⟨still, ?_, ?_, fun item member => ?_⟩
    · rw [if_pos empty, List.length_singleton]
    · rw [if_pos empty, List.length_singleton]
      exact positive
    · rw [if_pos empty] at member
      rwa [List.mem_singleton.mp member]
  · have shorter := List.length_filter_le (fun item => decide (item ≠ [])) (items.map Str.strip)
    rw [List.length_map] at shorter
    refine ⟨still, ?_, ?_, fun item member => ?_⟩
    · rw [if_neg empty]
      exact List.length_pos_iff.mpr empty
    · rw [if_neg empty]
      exact (Int.ofNat_le.mpr shorter).trans few
    · rw [if_neg empty] at member
      obtain ⟨listed, kept⟩ := List.mem_filter.mp member
      obtain ⟨before, -, rfl⟩ := List.mem_map.mp listed
      rw [Str.strip_strip]
      exact of_decide_eq_true kept

/-- The validator does not fill in a blank question. -/
theorem not_usable_of_blank (blank : rewritten.strip = []) :
    ¬ (RewriteResult.normalizeSubQuestions ⟨original, rewritten, items⟩).Usable limit := by
  intro usable
  refine usable.rewritten ?_
  rw [RewriteResult.normalizeSubQuestions, Str.strip_strip]
  exact blank

end Result

namespace QueryRewriteService

variable {service : QueryRewriteService} {question original rewritten : Str} {reply : Option Str}
  {items : List Str} {result : RewriteResult}

/-- The result that is returned is usable. -/
def Robust (service : QueryRewriteService) (question : Str) (reply : Option Str) : Prop :=
  ∃ result, service.rewrite question reply = some result ∧ result.Usable service.maxSubQuestions

/-- Some part is allowed, the question is a text for the library, and so is no reply with a blank
rewritten question. -/
structure Sound (service : QueryRewriteService) (question : Str) (reply : Option Str) : Prop where
  limit : 1 ≤ service.maxSubQuestions
  accepted : service.accepts question = true ∧
    ∀ part ∈ sliceTo (splitQuery question) service.maxSubQuestions, service.accepts part = true
  answered : service.enabled = true → service.hasLlm = true → ∀ text parsed, reply = some text →
    parseJsonObject text = some parsed → service.rewrittenOf parsed question.strip = [] →
      ¬ (service.accepts [] = true ∧
        ∀ part ∈ sliceTo (service.subQuestionsFromResponse parsed []) service.maxSubQuestions,
          service.accepts part = true)

theorem newResult_some_iff : service.newResult original rewritten items = some result ↔
    (service.accepts original = true ∧ service.accepts rewritten = true ∧
      ∀ part ∈ items, service.accepts part = true) ∧
    RewriteResult.normalizeSubQuestions ⟨original, rewritten, items⟩ = result := by
  rw [newResult, Option.ite_none_right_eq_some, Bool.and_eq_true, Bool.and_eq_true,
    List.all_eq_true, Option.some_inj, and_assoc (a := service.accepts original = true)]

theorem normalize_plain (plain : service.termMappingService.mappings = []) (question : Str) :
    service.termMappingService.normalize question = question := by
  rw [QueryTermMappingService.normalize, QueryTermMappingService.orderedMappings, plain,
    List.mergeSort_nil, List.foldl_nil]

/-- Without mappings a question that is no text for the library is refused, and no other one. -/
theorem fallbackResult_some_iff (plain : service.termMappingService.mappings = []) :
    service.fallbackResult question = some result ↔
      (service.accepts question = true ∧
        ∀ part ∈ sliceTo (splitQuery question) service.maxSubQuestions,
          service.accepts part = true) ∧
      RewriteResult.normalizeSubQuestions ⟨question, question,
        sliceTo (splitQuery question) service.maxSubQuestions⟩ = result := by
  rw [fallbackResult, normalize_plain plain, newResult_some_iff, and_self_left]

/-- The question of the fallback is the stripped one. -/
theorem fallback_rewritten (plain : service.termMappingService.mappings = [])
    (made : service.fallbackResult question = some result) :
    result.rewrittenQuestion = question.strip := by
  rw [← ((fallbackResult_some_iff plain).mp made).2]
  rfl

theorem rewrite_eq {fallback : RewriteResult}
    (made : service.fallbackResult question = some fallback) : service.rewrite question reply =
      some (if service.enabled && service.hasLlm then
        (reply.bind (service.readReply question fallback)).getD fallback else fallback) := by
  rw [rewrite, made]
  cases service.enabled <;> cases service.hasLlm <;> rfl

theorem readReply_some_iff {fallback : RewriteResult} {text : Str} :
    service.readReply question fallback text = some result ↔ ∃ parsed,
      parseJsonObject text = some parsed ∧
      service.newResult question (service.rewrittenOf parsed fallback.rewrittenQuestion)
        (sliceTo (service.subQuestionsFromResponse parsed
          (service.rewrittenOf parsed fallback.rewrittenQuestion)) service.maxSubQuestions) =
        some result :=
  Option.bind_eq_some_iff

/-- A usable result is returned exactly if the rewritten question of the reply is not blank. -/
theorem robust_rewrite_iff (plain : service.termMappingService.mappings = [])
    (visible : question.strip ≠ []) :
    service.Robust question reply ↔ service.Sound question reply := by
  constructor
  · rintro ⟨result, returned, usable⟩
    obtain ⟨fallback, made, -⟩ := Option.bind_eq_some_iff.mp returned
    refine ⟨(Int.ofNat_le.mpr usable.present).trans usable.few,
      ((fallbackResult_some_iff plain).mp made).1, ?_⟩
    rintro enabled llm text parsed rfl loaded blank ⟨accepts_nil, accepts_parts⟩
    -- the reply is read to a result with a blank question
    have blank' : service.rewrittenOf parsed fallback.rewrittenQuestion = [] := by
      rw [fallback_rewritten plain made, blank]
    have read : service.readReply question fallback text =
        some (RewriteResult.normalizeSubQuestions ⟨question, [], sliceTo
          (service.subQuestionsFromResponse parsed []) service.maxSubQuestions⟩) := by
      refine readReply_some_iff.mpr ⟨parsed, loaded, ?_⟩
      rw [blank']
      have accepted := ((fallbackResult_some_iff plain).mp made).1.1
      exact newResult_some_iff.mpr ⟨⟨accepted, accepts_nil, accepts_parts⟩, rfl⟩
    rw [rewrite_eq made, enabled, llm, Bool.and_self, if_pos rfl, Option.bind_some, read,
      Option.getD_some] at returned
    cases returned
    exact not_usable_of_blank rfl usable
  · intro sound
    have made := (fallbackResult_some_iff plain).mpr ⟨sound.accepted, rfl⟩
    refine ⟨_, rewrite_eq made, ?_⟩
    have usable := @usable_normalizeSubQuestions _ _ question question visible sound.limit
      (@length_sliceTo (splitQuery question) _ sound.limit)
    split_ifs with asked
    · rw [Bool.and_eq_true] at asked
      cases read : reply.bind (service.readReply question (RewriteResult.normalizeSubQuestions
          ⟨question, question, sliceTo (splitQuery question) service.maxSubQuestions⟩)) with
      | none => exact usable
      | some result =>
        obtain ⟨text, rfl, read⟩ := Option.bind_eq_some_iff.mp read
        obtain ⟨parsed, loaded, new⟩ := readReply_some_iff.mp read
        obtain ⟨accepted, rfl⟩ := newResult_some_iff.mp new
        refine usable_normalizeSubQuestions (fun blank => ?_) sound.limit (length_sliceTo sound.limit)
        rw [rewrittenOf, Str.strip_strip, ← rewrittenOf, fallback_rewritten plain made] at blank
        rw [fallback_rewritten plain made, blank] at accepted
        exact sound.answered asked.1 asked.2 text parsed rfl loaded blank accepted.2
    · exact usable

section Replies

/-- A service that asks its model, with a library that takes every text. -/
def askingService : QueryRewriteService where
  termMappingService := ⟨[], List.nodup_nil⟩
  enabled := true
  hasLlm := true
  maxSubQuestions := 5
  accepts _ := true
  repr _ := []

def warrantyQuestion : Str := .lit "How long is the warranty?"

def plainReply : Str := .lit "\x7b\"rewrite\": \"warranty\"\x7d"

def blankReply : Str := .lit "\x7b\"rewrite\": \" \"\x7d"

theorem plainReply_robust : askingService.Robust warrantyQuestion (some plainReply) := by
  refine (robust_rewrite_iff rfl (by decide)).mpr ⟨by decide, ⟨rfl, fun _ _ => rfl⟩, ?_⟩
  rintro - - text parsed ⟨⟩ loaded blank
  have visible : ((parseJsonObject plainReply).any fun parsed =>
      askingService.rewrittenOf parsed warrantyQuestion.strip = []) = false := by decide +kernel
  rw [loaded, Option.any_some, decide_eq_true blank] at visible
  cases visible

/-- A reply with a blank question makes the question blank. -/
theorem blankReply_not_robust : ¬ ∀ (service : QueryRewriteService) question reply,
    service.termMappingService.mappings = [] → 1 ≤ service.maxSubQuestions →
      question.strip ≠ [] → service.Robust question reply := by
  intro all
  obtain ⟨result, returned, usable⟩ :=
    all askingService warrantyQuestion (some blankReply) rfl (by decide) (by decide)
  have blank : ((askingService.rewrite warrantyQuestion (some blankReply)).any fun result =>
      result.rewrittenQuestion.strip = []) = true := by decide +kernel
  rw [returned, Option.any_some, decide_eq_true_eq] at blank
  exact usable.rewritten blank

end Replies

end QueryRewriteService

end HeyeeAgent.Rag
