/-
# JSON values

A `Json` is a JSON text without its blanks: numbers are whole numbers or doubles,
and an object is the list of its fields as written. Two texts mean the same if
their canonical forms agree: there, the keys of every object increase strictly,
and of several fields with one key the last stays. Every value that the library
reads, stores or passes on is canonical; the order of fields matters only where
a record is written.

Key definitions: `Json`, `Json.Number`, `Json.canonical`, `Json.Canonical`,
`Json.same`, `Json.get?`, `Json.at?`.
-/
import Stepwise.Decimal.Double
import Stepwise.Named

namespace Stepwise

namespace Json

/-- A number: a whole number, or a double. A whole number is never equal to a
double. -/
inductive Number where
  | int (i : Int)
  | float (d : Double)
  deriving DecidableEq, Repr

/-- Whole numbers from `-2 ^ 63` up to `2 ^ 64` are written as such. -/
def Number.InRange : Number → Prop
  | .int i => -9223372036854775808 ≤ i ∧ i < 18446744073709551616
  | .float d => d.isFinite = true

instance : DecidablePred Number.InRange := fun n => by
  cases n <;> unfold Number.InRange <;> infer_instance

/-- Whether two numbers are equal as numbers of their sort. -/
def Number.same : Number → Number → Bool
  | .int i, .int j => i = j
  | .float a, .float b => a.sameValue b
  | _, _ => false

end Json

/-- A JSON value. -/
inductive Json where
  | null
  | bool (b : Bool)
  | num (n : Json.Number)
  | str (s : String)
  | arr (items : List Json)
  | obj (fields : List (String × Json))
  deriving Inhabited, Repr

namespace Json

/-- The fields of an object or of a part of one. -/
abbrev Fields := Named Json

mutual

/-- Equality of values is decided constructor by constructor. -/
def decEq : (a b : Json) → Decidable (a = b)
  | .null, .null => isTrue rfl
  | .bool a, .bool b => if h : a = b then isTrue (by rw [h]) else isFalse (by simpa using h)
  | .num a, .num b => if h : a = b then isTrue (by rw [h]) else isFalse (by simpa using h)
  | .str a, .str b => if h : a = b then isTrue (by rw [h]) else isFalse (by simpa using h)
  | .arr a, .arr b =>
    match decEqList a b with
    | isTrue h => isTrue (by rw [h])
    | isFalse h => isFalse (by simpa using h)
  | .obj a, .obj b =>
    match decEqFields a b with
    | isTrue h => isTrue (by rw [h])
    | isFalse h => isFalse (by simpa using h)
  | .null, .bool _ | .null, .num _ | .null, .str _ | .null, .arr _ | .null, .obj _
  | .bool _, .null | .bool _, .num _ | .bool _, .str _ | .bool _, .arr _ | .bool _, .obj _
  | .num _, .null | .num _, .bool _ | .num _, .str _ | .num _, .arr _ | .num _, .obj _
  | .str _, .null | .str _, .bool _ | .str _, .num _ | .str _, .arr _ | .str _, .obj _
  | .arr _, .null | .arr _, .bool _ | .arr _, .num _ | .arr _, .str _ | .arr _, .obj _
  | .obj _, .null | .obj _, .bool _ | .obj _, .num _ | .obj _, .str _ | .obj _, .arr _ =>
    isFalse (by simp)

/-- Equality of lists of values. -/
def decEqList : (a b : List Json) → Decidable (a = b)
  | [], [] => isTrue rfl
  | [], _ :: _ | _ :: _, [] => isFalse (by simp)
  | x :: xs, y :: ys =>
    match decEq x y, decEqList xs ys with
    | isTrue h, isTrue h' => isTrue (by rw [h, h'])
    | isFalse h, _ => isFalse (by simp [h])
    | _, isFalse h' => isFalse (by simp [h'])

/-- Equality of lists of fields. -/
def decEqFields : (a b : Fields) → Decidable (a = b)
  | [], [] => isTrue rfl
  | [], _ :: _ | _ :: _, [] => isFalse (by simp)
  | (k, x) :: xs, (l, y) :: ys =>
    if hk : k = l then
      match decEq x y, decEqFields xs ys with
      | isTrue h, isTrue h' => isTrue (by rw [hk, h, h'])
      | isFalse h, _ => isFalse (by simp [h])
      | _, isFalse h' => isFalse (by simp [h'])
    else isFalse (by simp [hk])

end

instance : DecidableEq Json := decEq

/-- Adds a field in front of the first greater key, unless the key is present. -/
def insertNew (k : String) (v : Json) : Fields → Fields
  | [] => [(k, v)]
  | (l, w) :: rest =>
    if k = l then (l, w) :: rest
    else if k < l then (k, v) :: (l, w) :: rest
    else (l, w) :: insertNew k v rest

/-- Sets a field of a sorted list of fields. -/
def insert (k : String) (v : Json) : Fields → Fields
  | [] => [(k, v)]
  | (l, w) :: rest =>
    if k = l then (k, v) :: rest
    else if k < l then (k, v) :: (l, w) :: rest
    else (l, w) :: insert k v rest

mutual

/-- The value with the keys of every object sorted, the last of equal keys kept. -/
def canonical : Json → Json
  | .arr items => .arr (canonicalList items)
  | .obj fields => .obj (canonicalFields fields)
  | v => v

/-- The canonical forms of the items. -/
def canonicalList : List Json → List Json
  | [] => []
  | v :: vs => canonical v :: canonicalList vs

/-- The sorted fields with canonical values. -/
def canonicalFields : Fields → Fields
  | [] => []
  | (k, v) :: rest => insertNew k (canonical v) (canonicalFields rest)

end

mutual

/-- All numbers are in range and all keys of an object increase strictly. -/
def Canonical : Json → Prop
  | .num n => n.InRange
  | .arr items => CanonicalList items
  | .obj fields => fields.Pairwise (·.1 < ·.1) ∧ CanonicalFields fields
  | _ => True

/-- Every item is canonical. -/
def CanonicalList : List Json → Prop
  | [] => True
  | v :: vs => Canonical v ∧ CanonicalList vs

/-- Every field's value is canonical. -/
def CanonicalFields : Fields → Prop
  | [] => True
  | (_, v) :: rest => Canonical v ∧ CanonicalFields rest

end

mutual

/-- Whether two canonical values are equal, the two zeros counting as one. -/
def same : Json → Json → Bool
  | .null, .null => true
  | .bool a, .bool b => a = b
  | .num a, .num b => a.same b
  | .str a, .str b => a = b
  | .arr a, .arr b => sameList a b
  | .obj a, .obj b => sameFields a b
  | _, _ => false

/-- Whether two lists agree item by item. -/
def sameList : List Json → List Json → Bool
  | [], [] => true
  | x :: xs, y :: ys => same x y && sameList xs ys
  | _, _ => false

/-- Whether two lists of fields agree field by field. -/
def sameFields : Fields → Fields → Bool
  | [], [] => true
  | (k, x) :: xs, (l, y) :: ys => k = l && same x y && sameFields xs ys
  | _, _ => false

end

/-- The object with no fields. -/
def empty : Json := .obj []

/-- A whole number. -/
def int (i : Int) : Json := .num (.int i)

/-- A natural number. -/
def nat (n : Nat) : Json := .num (.int n)

/-- The value under a key of an object. -/
def get? (key : String) : Json → Option Json
  | .obj fields => Named.get? fields key
  | _ => none

/-- The text of a string. -/
def string? : Json → Option String
  | .str s => some s
  | _ => none

/-- Whether the value is an object. -/
def isObject : Json → Bool
  | .obj _ => true
  | _ => false

/-- Whether the value is an object with this key. -/
def hasKey (key : String) (v : Json) : Bool := (v.get? key).isSome

/-- The natural number written by decimal digits, a plus sign before them being
allowed, if it is below `2 ^ 64`. -/
def index? (s : String) : Option Nat :=
  let digits := match s.toList with
    | '+' :: rest => rest
    | cs => cs
  if digits.isEmpty || !digits.all Char.isDigit then none
  else
    let n := digits.foldl (fun n c => 10 * n + (c.toNat - '0'.toNat)) 0
    if n < 18446744073709551616 then some n else none

/-- The part of a value one segment below it: a field of an object or an item of an
array. -/
def child? (v : Json) (segment : String) : Option Json :=
  match v with
  | .obj fields => Named.get? fields segment
  | .arr items => (index? segment).bind (items[·]?)
  | _ => none

/-- The part of a value that the segments address, from the outside in. -/
def at? (v : Json) : List String → Option Json
  | [] => some v
  | segment :: rest => (v.child? segment).bind (·.at? rest)

/-- What sort of value it is, in messages to the user. -/
def sortName : Json → String
  | .null => "null"
  | .bool _ => "a boolean"
  | .num _ => "a number"
  | .str _ => "a string"
  | .arr _ => "an array"
  | .obj _ => "an object"

end Json
end Stepwise
