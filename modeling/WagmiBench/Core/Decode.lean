import WagmiBench.Core.Config
import WagmiBench.Lib.JsonParser

/-!
# Strict decoding

The readers of packs and bundles decode bytes the same way: strict UTF-8, then one JSON document
without fractions, non-finite constants or repeated keys. They differ in what they raise, which is
a `Decoder`; the interpreter's own limits escape as the exceptions they are.
-/

namespace WagmiBench.Core

open WagmiBench.Lib

/-- What a reader raises for bytes it cannot decode. -/
structure Decoder where
  invalidUtf8 : PyError
  invalidJson : PyError
  refused : Json.Refusal → PyError

/-- `_decode_json` -/
def Decoder.decode (decoder : Decoder) (limits : Json.Limits) (raw : Bytes) : Py Json :=
  match utf8Decode false raw with
  | none => .error decoder.invalidUtf8
  | some text =>
    match Json.loads limits Json.strictHooks text with
    | .ok value => .ok value
    | .error .decode => .error decoder.invalidJson
    | .error (.hook refusal) => .error (decoder.refused refusal)
    | .error .recursion => .error .recursionError
    | .error .digits => .error (.valueError "Exceeds the limit for integer string conversion")

/-- What strict decoding reads does not depend on what the reader would have raised. -/
def strictJson (limits : Json.Limits) (raw : Bytes) : Option Json :=
  (utf8Decode false raw).bind fun text => (Json.loads limits Json.strictHooks text).toOption

theorem Decoder.decode_eq_ok {decoder : Decoder} {limits : Json.Limits} {raw : Bytes}
    {value : Json} : decoder.decode limits raw = .ok value ↔ strictJson limits raw = some value := by
  unfold Decoder.decode strictJson
  cases utf8Decode false raw with
  | none => simp
  | some text =>
    simp only [Option.bind_some]
    cases h : Json.loads limits Json.strictHooks text with
    | ok v => simp [Except.toOption]
    | error e => cases e <;> simp [Except.toOption]

/-- Members of an object in the order of `sorted(mapping.items())`. -/
def sortedItems (members : List (Text × Json)) : List (Text × Json) :=
  members.insertionSort fun a b => textLe a.1 b.1 = true

end WagmiBench.Core
