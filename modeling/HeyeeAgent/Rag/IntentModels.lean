import HeyeeAgent.Python.Text

/-! # Recognised intents

The nodes of the intent tree with their scores, and the dictionary that a recognition result gives
to the answer and to the events of a stream. The fields of a node that only a prompt reads are left
out.
-/

namespace HeyeeAgent.Rag

open Python

inductive IntentLevel where
  | domain
  | category
  | topic
deriving DecidableEq

inductive IntentKind where
  | kb
  | system
  | mcp
deriving DecidableEq

inductive GuidanceAction where
  | none
  | prompt
deriving DecidableEq

def IntentLevel.name : IntentLevel → String
  | .domain => "DOMAIN"
  | .category => "CATEGORY"
  | .topic => "TOPIC"

def IntentKind.name : IntentKind → String
  | .kb => "KB"
  | .system => "SYSTEM"
  | .mcp => "MCP"

def GuidanceAction.name : GuidanceAction → String
  | .none => "NONE"
  | .prompt => "PROMPT"

structure IntentNode where
  id : Str
  name : Str
  level : IntentLevel
  fullPath : Str := []
  kind : IntentKind := .kb
  collectionName : Option Str := none
  mcpToolId : Option Str := none
  topK : Option ℤ := none
  paramPromptTemplate : Option Str := none
deriving DecidableEq

structure NodeScore where
  node : IntentNode
  score : PyFloat
  reason : Option Str := none
deriving DecidableEq

structure SubQuestionIntent where
  subQuestion : Str
  nodeScores : List NodeScore
deriving DecidableEq

structure GuidanceDecision where
  action : GuidanceAction
  prompt : Option Str := none

structure RewriteResult where
  originalQuestion : Str
  rewrittenQuestion : Str
  subQuestions : List Str

structure IntentRecognitionResult where
  rewriteResult : RewriteResult
  subIntents : List SubQuestionIntent
  guidance : GuidanceDecision
  kbIntents : List NodeScore
  mcpIntents : List NodeScore
  isSystemOnly : Bool

/-- `_score_to_dict` -/
def NodeScore.toDict (score : NodeScore) : Json := .obj [
  ("id", .str score.node.id),
  ("name", .str score.node.name),
  ("kind", .text score.node.kind.name),
  ("level", .text score.node.level.name),
  ("score", .float score.score),
  ("reason", .ofOption (score.reason.map .str)),
  ("fullPath", .str score.node.fullPath),
  ("collectionName", .ofOption (score.node.collectionName.map .str)),
  ("mcpToolId", .ofOption (score.node.mcpToolId.map .str)),
  ("topK", .ofOption (score.node.topK.map .int))]

/-- `_sub_intent_to_dict` -/
def SubQuestionIntent.toDict (subIntent : SubQuestionIntent) : Json := .obj [
  ("subQuestion", .str subIntent.subQuestion),
  ("intents", .arr (subIntent.nodeScores.map NodeScore.toDict))]

/-- `to_response_dict` -/
def IntentRecognitionResult.toResponseDict (result : IntentRecognitionResult) : Json := .obj [
  ("originalQuestion", .str result.rewriteResult.originalQuestion),
  ("rewrittenQuestion", .str result.rewriteResult.rewrittenQuestion),
  ("subQuestions", .arr (result.rewriteResult.subQuestions.map .str)),
  ("subIntents", .arr (result.subIntents.map SubQuestionIntent.toDict)),
  ("kbIntents", .arr (result.kbIntents.map NodeScore.toDict)),
  ("mcpIntents", .arr (result.mcpIntents.map NodeScore.toDict)),
  ("isSystemOnly", .bool result.isSystemOnly),
  ("guidance", .obj [("action", .text result.guidance.action.name),
    ("prompt", .ofOption (result.guidance.prompt.map .str))])]

end HeyeeAgent.Rag
