import HeyeeAgent.Python.JsonEncoder
import HeyeeAgent.Python.Utf8

/-! # The bytes of an event

`_encode_event` writes a frame of two lines and a blank one. Only a lone surrogate keeps a frame
from being encoded, and that is the test `yieldEvent` makes.
-/

namespace HeyeeAgent.StreamChat

open Python JsonEncoder

/-- The arguments of `_encode_event`. -/
structure Event where
  name : Str
  data : List (String × Json)

namespace Event

variable (repr : FloatRepr) (event : Event)

def body : Str := dumps repr (.obj event.data)

/-- The frame without the blank line that ends it. -/
def content : Str := Str.lit "event: " ++ event.name ++ Str.lit "\ndata: " ++ event.body repr

def frame : Str := event.content repr ++ Str.lit "\n\n"

/-- `_encode_event`; none where it raises `UnicodeEncodeError`. -/
def encode : Option Utf8.Bytes := Utf8.encode (event.frame repr)

theorem body_eq : ∃ inside, event.body repr = Str.lit "\x7b" ++ inside ++ Str.lit "\x7d" :=
  ⟨dumpsFields repr event.data, by rw [body, dumps]⟩

theorem newline_not_mem_body : 10 ∉ event.body repr := fun member =>
  absurd ((written_dumps repr (.obj event.data)).shown 10 member) (by decide)

/-- A frame is encoded exactly when the data and the name have no lone surrogate. -/
theorem encodes_frame : (event.frame repr).encodes =
    (event.name.encodes && (Json.obj event.data).encodes) := by
  have body := (written_dumps repr (.obj event.data)).encodes
  have parts : ∀ text text' : Str, (text ++ text').encodes = (text.encodes && text'.encodes) :=
    fun text text' => List.all_append
  rw [frame, content, parts, parts, parts, parts, Event.body, body]
  simp only [Str.encodes_lit, Bool.true_and, Bool.and_true]

/-- The test of `yieldEvent` on one of the names that the service uses. -/
theorem isSome_encode_lit (name : String) (data : List (String × Json)) :
    (encode repr ⟨Str.lit name, data⟩).isSome = (Json.obj data).encodes := by
  have encodes := encodes_frame repr ⟨Str.lit name, data⟩
  rw [Str.encodes_lit, Bool.true_and] at encodes
  rw [encode, Utf8.encode, encodes]
  cases (Json.obj data).encodes <;> rfl

/-- The frames of a stream are the encoding of one text. -/
theorem encode_flatMap_frame {events : List Event} {frames : List Utf8.Bytes}
    (sent : events.mapM (encode repr) = some frames) :
    Utf8.encode (events.flatMap (frame repr)) = some frames.flatten := by
  induction events generalizing frames with
  | nil =>
    cases sent
    rfl
  | cons event events ih =>
    rw [List.mapM_cons] at sent
    obtain ⟨first, encoded, sent⟩ := Option.bind_eq_some_iff.mp sent
    obtain ⟨others, sent', same⟩ := Option.bind_eq_some_iff.mp sent
    cases same
    rw [List.flatMap_cons, List.flatten_cons]
    exact Utf8.encode_append encoded (ih sent')

end Event

end HeyeeAgent.StreamChat
