import HeyeeAgent.Python.Text
import HeyeeAgent.Streaming.Peeler

/-! # UTF-8

The bytes of a text, and the characters that an incremental decoder reads off what has arrived. The
first byte of a character tells how many follow. A byte is a number below 256.
-/

namespace Python.Utf8

open Streaming

abbrev Bytes := List ℕ

def encodeCode (c : ℕ) : Bytes :=
  if c < 0x80 then [c]
  else if c < 0x800 then [0xc0 + c / 0x40, 0x80 + c % 0x40]
  else if c < 0x10000 then [0xe0 + c / 0x1000, 0x80 + c / 0x40 % 0x40, 0x80 + c % 0x40]
  else [0xf0 + c / 0x40000, 0x80 + c / 0x1000 % 0x40, 0x80 + c / 0x40 % 0x40, 0x80 + c % 0x40]

/-- `str.encode()`; none where it raises. -/
def encode (text : Str) : Option Bytes :=
  if text.encodes then some (text.flatMap encodeCode) else none

theorem encode_append {text text' : Str} {bytes bytes' : Bytes} (encoded : encode text = some bytes)
    (encoded' : encode text' = some bytes') : encode (text ++ text') = some (bytes ++ bytes') := by
  unfold encode at encoded encoded' ⊢
  split_ifs at encoded encoded' with sendable sendable'
  cases encoded
  cases encoded'
  have joined : (text ++ text').encodes = true := by
    rw [Str.encodes, List.all_append]
    exact Bool.and_eq_true_iff.mpr ⟨sendable, sendable'⟩
  rw [if_pos joined, List.flatMap_append]

/-- The character of two bytes. -/
def join2 (a b : ℕ) : ℕ := (a - 0xc0) * 0x40 + (b - 0x80)

def join3 (a b c : ℕ) : ℕ := (a - 0xe0) * 0x1000 + (b - 0x80) * 0x40 + (c - 0x80)

def join4 (a b c d : ℕ) : ℕ :=
  (a - 0xf0) * 0x40000 + (b - 0x80) * 0x1000 + (c - 0x80) * 0x40 + (d - 0x80)

/-- The next character, once all its bytes have arrived. -/
def nextCode : Bytes → Option (ℕ × Bytes)
  | [] => none
  | a :: rest =>
    if a < 0x80 then some (a, rest)
    else if a < 0xe0 then
      match rest with
      | b :: rest => some (join2 a b, rest)
      | _ => none
    else if a < 0xf0 then
      match rest with
      | b :: c :: rest => some (join3 a b c, rest)
      | _ => none
    else
      match rest with
      | b :: c :: d :: rest => some (join4 a b c d, rest)
      | _ => none

/-- The bytes of the next character are cut off, and what follows them has no part in it. -/
theorem nextCode_split {input rest : Bytes} {c : ℕ} (found : nextCode input = some (c, rest)) :
    ∃ a word, input = a :: word ++ rest ∧
      ∀ more, nextCode (a :: word ++ more) = some (c, more) := by
  cases input with
  | nil => cases found
  | cons a input =>
    unfold nextCode at found
    dsimp only at found
    split_ifs at found with one two three
    · obtain ⟨rfl, rfl⟩ := Prod.mk.inj (Option.some.inj found)
      exact ⟨a, [], rfl, fun more => by simp [nextCode, one]⟩
    · split at found
      next b tail =>
        obtain ⟨rfl, rfl⟩ := Prod.mk.inj (Option.some.inj found)
        exact ⟨a, [b], rfl, fun more => by simp [nextCode, one, two]⟩
      next => cases found
    · split at found
      next b c' tail =>
        obtain ⟨rfl, rfl⟩ := Prod.mk.inj (Option.some.inj found)
        exact ⟨a, [b, c'], rfl, fun more => by simp [nextCode, one, two, three]⟩
      next => cases found
    · split at found
      next b c' d tail =>
        obtain ⟨rfl, rfl⟩ := Prod.mk.inj (Option.some.inj found)
        exact ⟨a, [b, c', d], rfl, fun more => by simp [nextCode, one, two, three]⟩
      next => cases found

/-- A decoder that has not seen a malformed byte. -/
def decoder : Peeler ℕ ℕ where
  next := nextCode
  shorter found := by
    obtain ⟨a, word, rfl, -⟩ := nextCode_split found
    simp only [List.cons_append, List.length_cons, List.length_append]
    omega
  append more found := by
    obtain ⟨a, word, rfl, reads⟩ := nextCode_split found
    rw [List.append_assoc]
    exact reads _

theorem nextCode_encodeCode (c : ℕ) : nextCode (encodeCode c) = some (c, []) := by
  unfold encodeCode
  split_ifs with one two three
  · simp only [nextCode, if_pos one]
  · have lead : ¬ 0xc0 + c / 0x40 < 0x80 := by omega
    have kind : 0xc0 + c / 0x40 < 0xe0 := by omega
    have joined : join2 (0xc0 + c / 0x40) (0x80 + c % 0x40) = c := by unfold join2; omega
    simp only [nextCode, if_neg lead, if_pos kind, joined]
  · have lead : ¬ 0xe0 + c / 0x1000 < 0x80 := by omega
    have kind : ¬ 0xe0 + c / 0x1000 < 0xe0 := by omega
    have kind' : 0xe0 + c / 0x1000 < 0xf0 := by omega
    have joined : join3 (0xe0 + c / 0x1000) (0x80 + c / 0x40 % 0x40) (0x80 + c % 0x40) = c := by
      unfold join3
      omega
    simp only [nextCode, if_neg lead, if_neg kind, if_pos kind', joined]
  · have lead : ¬ 0xf0 + c / 0x40000 < 0x80 := by omega
    have kind : ¬ 0xf0 + c / 0x40000 < 0xe0 := by omega
    have kind' : ¬ 0xf0 + c / 0x40000 < 0xf0 := by omega
    have joined : join4 (0xf0 + c / 0x40000) (0x80 + c / 0x1000 % 0x40) (0x80 + c / 0x40 % 0x40)
        (0x80 + c % 0x40) = c := by
      unfold join4
      omega
    simp only [nextCode, if_neg lead, if_neg kind, if_neg kind', joined]

/-- A decoder reads back the text. -/
theorem peel_flatMap_encodeCode (text : Str) :
    decoder.peel (text.flatMap encodeCode) = (text, []) := by
  have read : decoder.peel (text.flatMap encodeCode) = (text.map id, []) :=
    decoder.peel_flatMap fun c _ => nextCode_encodeCode c
  rwa [List.map_id] at read

end Python.Utf8
