/-
# Decoding records and variants

A record is decoded from an object, by the names of its fields, or from an array,
by their order. Unknown fields are ignored. Of several faults the one that comes
first in the document is reported, an absent field after all faults of present
ones. A variant is decoded from its name, or from an object with its name as the
only key. A record read from a text with a field given twice is refused; in a
value no field occurs twice.

Key definitions: `Json.DecodeError`, `Json.DecodeError.message`, `Json.Slots`,
`Json.Slots.of`, `Json.Slots.required`, `Json.Slots.withDefault`, `Json.variant`.
-/
import Stepwise.Text.Quoted
import Stepwise.Json.Printer

namespace Stepwise
namespace Json

/-- Where a value that is decoded comes from. -/
inductive Source where
  /-- A text, with its fields as written. -/
  | text
  /-- A canonical value. -/
  | value
  deriving DecidableEq

/-- What was found where something else was expected. -/
inductive Found where
  | json (v : Json)
  /-- The bare name of a variant. -/
  | unitVariant
  deriving DecidableEq

/-- Why a value cannot be decoded. -/
inductive DecodeError where
  | missingField (name : String)
  | duplicateField (name : String)
  | wrongType (found : Found) (expected : String)
  | wrongValue (found : Found) (expected : String)
  | wrongLength (length : Nat) (expected : String)
  | unknownVariant (name : String) (allowed : List String)
  | wrongTime (reason : String)
  deriving DecidableEq

/-- How a value is named in a message. -/
def Found.message : Found → String
  | .unitVariant => "unit variant"
  | .json .null => "null"
  | .json (.bool true) => "boolean `true`"
  | .json (.bool false) => "boolean `false`"
  | .json (.num (.int i)) => "integer `" ++ Number.text (.int i) ++ "`"
  | .json (.num (.float d)) => "floating point `" ++ Number.text (.float d) ++ "`"
  | .json (.str s) => "string " ++ Text.quoted s
  | .json (.arr _) => "sequence"
  | .json (.obj _) => "map"

/-- A name between backticks. -/
def ticked (s : String) : String := "`" ++ s ++ "`"

/-- A choice of names. -/
def choice : List String → String
  | [] => "there are no variants"
  | [a] => "expected " ++ ticked a
  | [a, b] => "expected " ++ ticked a ++ " or " ++ ticked b
  | names => "expected one of " ++ String.intercalate ", " (names.map ticked)

/-- The words for an error. -/
def DecodeError.message : DecodeError → String
  | .missingField name => "missing field " ++ ticked name
  | .duplicateField name => "duplicate field " ++ ticked name
  | .wrongType found expected => "invalid type: " ++ found.message ++ ", expected " ++ expected
  | .wrongValue found expected => "invalid value: " ++ found.message ++ ", expected " ++ expected
  | .wrongLength n expected => "invalid length " ++ toString n ++ ", expected " ++ expected
  | .unknownVariant name allowed =>
    if allowed.isEmpty then "unknown variant " ++ ticked name ++ ", " ++ choice []
    else "unknown variant " ++ ticked name ++ ", " ++ choice allowed
  | .wrongTime reason => reason

/-- A value of another type than expected. -/
def mismatch {α : Type} (v : Json) (expected : String) : Except DecodeError α :=
  .error (.wrongType (.json v) expected)

/-- Any value, in canonical form. -/
def decodeValue (v : Json) : Except DecodeError Json := .ok v.canonical

/-- A string. -/
def decodeString : Json → Except DecodeError String
  | .str s => .ok s
  | v => mismatch v "a string"

/-- A natural number below `2 ^ 64`; `expected` names it. -/
def decodeNat (expected : String) : Json → Except DecodeError Nat
  | .num (.int i) =>
    if 0 ≤ i ∧ i < 18446744073709551616 then .ok i.toNat
    else .error (.wrongValue (.json (.num (.int i))) expected)
  | v => mismatch v expected

/-- `none` from null, and otherwise what `decode` gives. -/
def decodeOption {α : Type} (decode : Json → Except DecodeError α) :
    Json → Except DecodeError (Option α)
  | .null => .ok none
  | v => (decode v).map some

/-- Every item of an array. -/
def decodeList {α : Type} (decode : Json → Except DecodeError α) :
    Json → Except DecodeError (List α)
  | .arr items => items.mapM decode
  | v => mismatch v "a sequence"

/-- A fault of a record, with its rank: the fault of lowest rank is reported. -/
structure Fault where
  rank : Nat
  error : DecodeError

/-- Two parts of a record. The fault of lower rank wins. -/
def both {α β : Type} : Except Fault α → Except Fault β → Except Fault (α × β)
  | .ok a, .ok b => .ok (a, b)
  | .error e, .ok _ => .error e
  | .ok _, .error e => .error e
  | .error e, .error e' => .error (if e'.rank < e.rank then e' else e)

/-- The fields of a record as they were found. -/
structure Slots where
  /-- For each declared field its value, if it is present, and the rank of its faults. -/
  found : List (Option (Nat × Json))
  /-- The fault of a declared field that is absent, by its number and name. -/
  absent : Nat → String → Fault
  /-- A fault of the record as a whole. -/
  spoilt : Option Fault

namespace Slots

/-- The plural in the expected length of a record. -/
def elements (n : Nat) : String :=
  if n = 1 then "1 element" else toString n ++ " elements"

/-- The position and value of the first field with a key. -/
def locate (key : String) : Nat → Fields → Option (Nat × Json)
  | _, [] => none
  | n, (k, v) :: rest => if k = key then some (n, v) else locate key (n + 1) rest

/-- The first declared field that occurs a second time. -/
def duplicate (names : List String) : Nat → List String → Fields → Option Fault
  | _, _, [] => none
  | n, seen, (k, _) :: rest =>
    if seen.contains k && names.contains k then some ⟨n, .duplicateField k⟩
    else duplicate names (n + 1) (k :: seen) rest

/-- The fields of the record `name` in an object or an array. -/
def of (source : Source) (name : String) (names : List String) :
    Json → Except DecodeError Slots
  | .obj fields =>
    .ok
      { found := names.map fun key => locate key 0 fields
        absent := fun i key => ⟨fields.length + i, .missingField key⟩
        spoilt := if source = .text then duplicate names 0 [] fields else none }
  | .arr items =>
    .ok
      { found := names.mapIdx fun i _ => items[i]?.map (i, ·)
        absent := fun i _ =>
          ⟨i, .wrongLength i ("struct " ++ name ++ " with " ++ elements names.length)⟩
        spoilt :=
          if names.length < items.length then
            some ⟨names.length, .wrongLength items.length "fewer elements in array"⟩
          else none }
  | v => mismatch v ("struct " ++ name)

/-- The field with number `i`, decoded if it is present. -/
def optional {α : Type} (s : Slots) (i : Nat) (decode : Json → Except DecodeError α) :
    Except Fault (Option α) :=
  match s.found[i]?.join with
  | none => .ok none
  | some (rank, v) =>
    match decode v with
    | .ok a => .ok (some a)
    | .error e => .error ⟨rank, e⟩

/-- The field with number `i`, which must be present. -/
def required {α : Type} (s : Slots) (i : Nat) (name : String)
    (decode : Json → Except DecodeError α) : Except Fault α :=
  match s.optional i decode with
  | .ok (some a) => .ok a
  | .ok none => .error (s.absent i name)
  | .error e => .error e

/-- The field with number `i`, or a default if it is absent. -/
def withDefault {α : Type} (s : Slots) (i : Nat) (default : α)
    (decode : Json → Except DecodeError α) : Except Fault α :=
  (s.optional i decode).map (·.getD default)

/-- The record, once all its parts are decoded. -/
def finish {α β : Type} (s : Slots) (parts : Except Fault α) (make : α → β) :
    Except DecodeError β :=
  let whole : Except Fault Unit := match s.spoilt with
    | some fault => .error fault
    | none => .ok ()
  match both parts whole with
  | .ok (a, _) => .ok (make a)
  | .error fault => .error fault.error

end Slots

/-- The name of a variant and what it carries, if it stands in an object. -/
def variant : Json → Except DecodeError (String × Option Json)
  | .str name => .ok (name, none)
  | .obj [(name, v)] => .ok (name, some v)
  | .obj fields => .error (.wrongValue (.json (.obj fields)) "map with a single key")
  | v => mismatch v "string or map"

/-- A variant that carries nothing. -/
def unitVariant : Option Json → Except DecodeError Unit
  | none | some .null => .ok ()
  | some v => mismatch v "unit"

/-- A variant that carries the fields of a record. In a value they stand in an
object; in a text an array does as well. -/
def recordVariant (source : Source) : Option Json → Except DecodeError Json
  | none => .error (.wrongType .unitVariant "struct variant")
  | some (.obj fields) => .ok (.obj fields)
  | some v => if source = .text then .ok v else mismatch v "struct variant"

/-- A variant without content, by the first of `table` that lists its name. -/
def decodeEnum {α : Type} (table : List (α × List String)) (v : Json) :
    Except DecodeError α := do
  let (name, content) ← variant v
  match table.find? (·.2.contains name) with
  | none => .error (.unknownVariant name (table.flatMap (·.2)))
  | some (a, _) => (unitVariant content).map fun _ => a

end Json
end Stepwise
