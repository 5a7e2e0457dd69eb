/-
# Words

A word becomes any number of fields: a range in braces has one field for each number, and
what is not quoted is split at blanks. A term is a sum of products of whole numbers.

Key definitions: `Shell.braceRange?`, `Shell.Fields.add`, `Shell.termValue?`.
-/
import Stepwise.Shell.Format

namespace Stepwise
namespace Shell

/-- The whole number that a text is. -/
def int? (cs : List Char) : Option Int :=
  let (negative, ds) := match cs with
    | '-' :: ds => (true, ds)
    | ds => (false, ds)
  if ds.isEmpty || !ds.all Char.isDigit then none
  else
    let n : Int := (digits 10 ds.length 0 ds).1
    some (if negative then -n else n)

/-- The whole numbers from one to another, upwards or downwards. -/
def range (a b : Int) : List Int :=
  if a ≤ b then (List.range (b - a + 1).toNat).map fun (i : Nat) => a + i
  else (List.range (a - b + 1).toNat).map fun (i : Nat) => a - i

/-- The texts that a text with a range in braces stands for. -/
def braceRange? (s : String) : Option (List String) :=
  let cs := s.toList
  let before := cs.takeWhile (· ≠ '{')
  let inner := (cs.drop (before.length + 1)).takeWhile (· ≠ '}')
  let after := cs.drop (before.length + inner.length + 2)
  let first := inner.takeWhile (· ≠ '.')
  match inner.drop first.length with
  | '.' :: '.' :: last =>
    if cs.length < before.length + inner.length + 2 then none
    else
      match int? first, int? last with
      | some a, some b =>
        some ((range a b).map fun i => String.ofList (before ++ (toString i).toList ++ after))
      | _, _ => none
  | _ => none

/-- The fields of a word that is being replaced: those that are complete, the last first,
and the one that is not. -/
structure Fields where
  complete : List String
  current : Option String

namespace Fields

/-- Before the first part. -/
def empty : Fields := ⟨[], none⟩

/-- Adds a text that is not split. -/
def add (f : Fields) (s : String) : Fields := { f with current := some (f.current.getD "" ++ s) }

/-- Completes the current field. -/
def close (f : Fields) : Fields := ⟨f.current.toList ++ f.complete, none⟩

/-- Whether a character separates fields. -/
def isSeparator (c : Char) : Bool := c = ' ' || c = '\t' || c = '\n'

/-- Adds a text that is split at blanks. -/
def addSplit : Nat → Fields → List Char → Fields
  | 0, f, _ => f
  | _, f, [] => f
  | n + 1, f, c :: cs =>
    if isSeparator c then addSplit n f.close (cs.dropWhile isSeparator)
    else
      let run := (c :: cs).takeWhile fun c => !isSeparator c
      addSplit n (f.add (String.ofList run)) ((c :: cs).drop run.length)

/-- The fields in order. -/
def toList (f : Fields) : List String := f.close.complete.reverse

end Fields

/-- What is left of a term. -/
abbrev TermReading (α : Type) := StateT (List Char) Option α

namespace TermReading

/-- The next character other than a blank. -/
def peek? : TermReading (Option Char) := do
  modify fun cs => cs.dropWhile Fields.isSeparator
  return (← get).head?

/-- Goes one character on. -/
def skip : TermReading Unit := modify List.tail

mutual

/-- A number, a variable, or a term in parentheses. -/
def atom (value : String → Int) : Nat → TermReading Int
  | 0 => failure
  | n + 1 => do
    match ← peek? with
    | some '-' =>
      skip
      return -(← atom value n)
    | some '+' =>
      skip
      atom value n
    | some '(' =>
      skip
      let v ← sum value n
      guard ((← peek?) = some ')')
      skip
      return v
    | some c =>
      if c = '$' then skip
      let cs ← get
      let name := cs.takeWhile fun c => c.isAlphanum || c = '_'
      guard !name.isEmpty
      StateT.set (cs.drop name.length)
      return match int? name with
        | some i => i
        | none => value (String.ofList name)
    | none => failure

/-- The rest of a product. -/
def productRest (value : String → Int) (a : Int) : Nat → TermReading Int
  | 0 => failure
  | n + 1 => do
    match ← peek? with
    | some '*' =>
      skip
      productRest value (a * (← atom value n)) n
    | some '/' =>
      skip
      let b ← atom value n
      guard (b ≠ 0)
      productRest value (a.tdiv b) n
    | some '%' =>
      skip
      let b ← atom value n
      guard (b ≠ 0)
      productRest value (a.tmod b) n
    | _ => return a

/-- The rest of a sum. -/
def sumRest (value : String → Int) (a : Int) : Nat → TermReading Int
  | 0 => failure
  | n + 1 => do
    match ← peek? with
    | some '+' =>
      skip
      let b ← productRest value (← atom value n) n
      sumRest value (a + b) n
    | some '-' =>
      skip
      let b ← productRest value (← atom value n) n
      sumRest value (a - b) n
    | _ => return a

/-- A sum. -/
def sum (value : String → Int) : Nat → TermReading Int
  | 0 => failure
  | n + 1 => do
    let a ← productRest value (← atom value n) n
    sumRest value a n

end

end TermReading

/-- The value of a term. -/
def termValue? (value : String → Int) (source : String) : Option Int :=
  let cs := source.toList
  match TermReading.sum value (4 * cs.length + 4) cs with
  | some (v, rest) => if rest.all Fields.isSeparator then some v else none
  | none => none

end Shell
end Stepwise
