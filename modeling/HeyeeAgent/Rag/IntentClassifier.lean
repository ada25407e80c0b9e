import HeyeeAgent.Rag.IntentModels
import HeyeeAgent.Rag.LlmResponseCleaner

/-! # Scores of intents

The reply of a model is an array of ids with scores. Entries that name no node of the tree or have
no number as their score are passed by; nothing looks at whether an id comes twice.
-/

namespace HeyeeAgent.Rag

open Python

structure IntentClassifier where
  /-- `id_to_node` of the tree -/
  idToNode : Dict Str IntentNode
  /-- `repr`, of what is no text -/
  repr : Object → Str
  /-- `float` of a text; none where it raises. -/
  floatOf : Str → Option PyFloat
  sorting : FloatSort

namespace IntentClassifier

variable (classifier : IntentClassifier)

/-- `float(score)`: none for an `OverflowError`, `some none` for an error that is caught. -/
def float : Object → Option (Option PyFloat)
  | .bool value => some (some (.finite (if value then 1 else 0)))
  | .int value =>
    match PyFloat.ofRat value with
    | .finite value => some (some (.finite value))
    | _ => none
  | .float value => some (some value)
  | .str text => some (classifier.floatOf text)
  | _ => some none

/-- What an entry of the array gives; none where it raises. -/
def parseScore (item : Dict Str Object) : Option (Option NodeScore) :=
  match Object.get item (Str.lit "id"), Object.get item (Str.lit "score") with
  | .none, _ | _, .none => some none
  | nodeId, score =>
    match classifier.idToNode.get (nodeId.text classifier.repr) with
    | none => some none
    | some node =>
      let reason := Object.get item (Str.lit "reason")
      (classifier.float score).map fun value => value.map fun score =>
        { node, score
          reason := if reason.truthy then some (reason.text classifier.repr) else none }

/-- `_parse_scores`; none where it raises. -/
def parseScores (reply : Str) : Option (List NodeScore) :=
  (parseJsonArray reply).bind fun items =>
    (items.mapM classifier.parseScore).map fun scores => scores.filterMap id

/-- `classify_targets` with the model's reply, if it does not fail; none where it raises. -/
def classifyTargets (reply : Option Str) : Option (List NodeScore) :=
  (reply.bind classifier.parseScores).map (classifier.sorting.run NodeScore.score)

end IntentClassifier

end HeyeeAgent.Rag
