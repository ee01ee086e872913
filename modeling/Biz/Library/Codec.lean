import Mathlib

/-!
# Text codecs

An encoder that may refuse a value and a decoder that recovers every value the
encoder accepted. Nothing is assumed of texts that no value encodes to.
-/

namespace Biz

universe u

structure Codec (Value : Type u) where
  encode : Value → Option String
  decode : String → Option Value
  round : ∀ value text, encode value = some text → decode text = some value

/-- Values with one text are equal. -/
theorem Codec.encode_inj {Value : Type u} (codec : Codec Value) {a b : Value} {text : String}
    (left : codec.encode a = some text) (right : codec.encode b = some text) : a = b := by
  have same := codec.round a text left
  rw [codec.round b text right, Option.some.injEq] at same
  exact same.symm

/-- The codec of finitely many values: a value is written as its position. -/
def Codec.ofList {Value : Type u} [DecidableEq Value] (values : List Value) : Codec Value where
  encode value := (values.findIdx? (· = value)).map fun n => String.ofList (List.replicate n '|')
  decode text := values[text.length]?
  round value text encoded := by
    obtain ⟨n, position, rfl⟩ := Option.map_eq_some_iff.mp encoded
    obtain ⟨inside, here, -⟩ := List.findIdx?_eq_some_iff_getElem.mp position
    have same : values[n] = value := by simpa using here
    rw [String.length_ofList, List.length_replicate, List.getElem?_eq_getElem inside, same]

end Biz
