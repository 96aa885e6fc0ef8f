import AgentsRemember.Lib.Dict
import Mathlib.Algebra.GroupWithZero.Nat

/-!
# Clipping an evidence payload

The values of a JSON document over strings of code points, which may hold a lone
surrogate, their serialisation, and the clip of a payload to a number of bytes:
by the text of its strings first, then as an envelope around a shrinking preview.
-/

namespace AgentsRemember.Evidence

open Lib

abbrev Text := List Nat

def text (s : String) : Text := s.toList.map Char.toNat

inductive Payload
  | null
  | bool (value : Bool)
  | number (digits : String)
  | str (value : Text)
  | arr (items : List Payload)
  | obj (fields : List (Text × Payload))

abbrev Fields := List (Text × Payload)

/-! ## Serialisation -/

def hexDigit (n : Nat) : Nat := if n < 10 then 48 + n else 87 + n

def escapeCode (c : Nat) : Text :=
  if c = 34 then text "\\\"" else if c = 92 then text "\\\\" else if c = 8 then text "\\b" else if c = 12 then text "\\f"
  else if c = 10 then text "\\n" else if c = 13 then text "\\r" else if c = 9 then text "\\t"
  else if c < 32 then text "\\u00" ++ [hexDigit (c / 16), hexDigit (c % 16)] else [c]

def quoted (s : Text) : Text := 34 :: s.flatMap escapeCode ++ [34]

mutual
def dumps : Payload → Text
  | .null => text "null"
  | .bool value => text (if value then "true" else "false")
  | .number digits => text digits
  | .str value => quoted value
  | .arr items => 91 :: dumpsItems items ++ [93]
  | .obj fields => 123 :: dumpsFields fields ++ [125]
  termination_by structural v => v
def dumpsItems : List Payload → Text
  | [] => []
  | v :: items => dumps v ++ if items.isEmpty then [] else 44 :: dumpsItems items
  termination_by structural items => items
def dumpsFields : Fields → Text
  | [] => []
  | (key, v) :: fields => quoted key ++ 58 :: dumps v ++ if fields.isEmpty then [] else 44 :: dumpsFields fields
  termination_by structural fields => fields
end

def encodable (c : Nat) : Bool := !(decide (0xD800 ≤ c) && decide (c ≤ 0xDFFF))

def utf8Length (c : Nat) : Nat := if c < 0x80 then 1 else if c < 0x800 then 2 else if c < 0x10000 then 3 else 4

/-- `len(s.encode("utf-8"))`; a lone surrogate is a `UnicodeEncodeError`. -/
def encodedLength (s : Text) : Option Nat := if s.all encodable then some (s.map utf8Length).sum else none

def serializedSize (fields : Fields) : Option Nat := encodedLength (dumps (.obj fields))

/-! ## What survives a clip -/

def maxPreservedEvidenceScalarChars : Nat := 256

def boundedIdentityScalar : Option Payload → Option Text
  | some (.str value) => if value.length ≤ maxPreservedEvidenceScalarChars then some value else none
  | _ => none

def boundedIdentityScalars (source : Fields) (keys : List String) : Fields :=
  keys.filterMap fun key => (boundedIdentityScalar (Dict.lookupIn (text key) source)).map fun scalar => (text key, .str scalar)

def nestedIdentityScalars (payload : Fields) (path : String) (keys : List String) : Fields :=
  match Dict.lookupIn (text path) payload with
  | some (.obj nested) =>
    if (boundedIdentityScalars nested keys).isEmpty then [] else [(text path, .obj (boundedIdentityScalars nested keys))]
  | _ => []

def topLevelIdentityKeys : List String := ["type", "subtype", "terminal_reason", "arTerminalOutcome"]

def preservedEvidenceIdentity (payload : Fields) : Fields :=
  boundedIdentityScalars payload topLevelIdentityKeys ++
    (nestedIdentityScalars payload "message" ["stopReason"] ++ nestedIdentityScalars payload "turn" ["id", "status"])

/-! ## The clip -/

def evidenceTruncationMarker : Text := text "…[truncated]"

def truncatedString (limit : Nat) (value : Text) : Text :=
  if value.length ≤ limit then value
  else value.take limit ++ evidenceTruncationMarker ++ text " [" ++ text (toString (value.length - limit)) ++ text " chars omitted]"

mutual
def truncateStringLeaves (limit : Nat) : Payload → Payload
  | .str value => .str (truncatedString limit value)
  | .arr items => .arr (truncateItems limit items)
  | .obj fields => .obj (truncateFields limit fields)
  | v => v
  termination_by structural v => v
def truncateItems (limit : Nat) : List Payload → List Payload
  | [] => []
  | v :: items => truncateStringLeaves limit v :: truncateItems limit items
  termination_by structural items => items
def truncateFields (limit : Nat) : Fields → Fields
  | [] => []
  | (key, v) :: fields => (key, truncateStringLeaves limit v) :: truncateFields limit fields
  termination_by structural fields => fields
end

inductive Fault
  | control (message : String)
  | unicodeEncodeError

def contentTruncationLimits : List Nat := [65536, 16384, 4096, 1024, 320]

def clippedContent (payload : Fields) (originalBytes limit : Nat) : Fields :=
  Dict.setIn (text "originalBytes") (.number (toString originalBytes))
    (Dict.setIn (text "arEvidenceContentTruncated") (.bool true) (truncateFields limit payload))

def truncationEnvelope (payload : Fields) (originalBytes : Nat) (preview : Text) : Fields :=
  [(text "arEvidenceTruncated", .bool true), (text "originalBytes", .number (toString originalBytes)),
    (text "preview", .str (preview ++ evidenceTruncationMarker))] ++ preservedEvidenceIdentity payload

def previews : Nat → Text → List Text
  | 0, _ => []
  | n + 1, preview => preview :: previews n (preview.take (preview.length / 2))

def candidates (payload : Fields) (originalBytes : Nat) : List Fields :=
  contentTruncationLimits.map (clippedContent payload originalBytes) ++
    (previews 64 (dumps (.obj payload))).map (truncationEnvelope payload originalBytes)

def firstFitting (maxBytes : Int) : List Fields → Except Fault (Option Fields)
  | [] => .ok none
  | clipped :: rest =>
    match serializedSize clipped with
    | none => .error .unicodeEncodeError
    | some size => if size ≤ maxBytes then .ok (some clipped) else firstFitting maxBytes rest

def clipEvidencePayload (payload : Fields) (maxBytes : Int) : Except Fault Fields :=
  if maxBytes < 1 then .error (.control "evidence payload clip requires a positive byte budget")
  else
    match serializedSize payload with
    | none => .error .unicodeEncodeError
    | some originalBytes =>
      if originalBytes ≤ maxBytes then .ok payload
      else
        match firstFitting maxBytes (candidates payload originalBytes) with
        | .error e => .error e
        | .ok (some clipped) => .ok clipped
        | .ok none => .error (.control "evidence payload clip budget is below the truncation envelope")

end AgentsRemember.Evidence
