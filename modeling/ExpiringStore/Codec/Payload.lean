import ExpiringStore.Codec.Encode
import ExpiringStore.Codec.Target

/-!
# Payloads

Every stored value stands in an envelope, so that the marker for a stored null
cannot be mistaken for a value.

    encode v     =  {"v": stored form of v}        for every other value
    encode null  =  {"null": true}
-/

namespace ExpiringStore.Payload

def valueField : String := "v"

def nullField : String := "null"

def null : Json := .object [(nullField, .bool true)]

def isNull : Value → Bool
  | .none => true
  | .nullMarker => true
  | _ => false

/-- The envelope of a value. -/
def encode (v : Value) (key : Option Key := Option.none) : Except Failure Json :=
  if isNull v then .ok null
  else
    match v.toJson? with
    | .ok j => .ok (.object [(valueField, j)])
    | .error reason => refuse (.unencodable v.typeName reason) "encode" key

def isNullEnvelope : Value → Bool
  | .dict [(k, .bool true)] => k.text? == some nullField
  | _ => false

/-- The value in an envelope, in the shape of the target if there is one. -/
def decode (payload : Value) (target : Option Target := Option.none)
    (key : Option Key := Option.none) : Except Failure Value :=
  if isNullEnvelope payload then .ok .nullMarker
  else
    match payload with
    | .dict entries =>
      match Value.entry? valueField entries with
      | none => refuse .malformedPayload "decode" key
      | some raw =>
        match target with
        | none => .ok raw
        | some t =>
          match t.shape.read raw with
          | .ok v => .ok v
          | .error n => refuse (.typeMismatch t.name n) "decode" key
    | _ => refuse .malformedPayload "decode" key

end ExpiringStore.Payload
