/-
# Texts in bytes

Bytes that are no UTF-8 are read all the same: the longest beginning of a character that
is not completed, or else a byte that begins no character, is read as U+FFFD.

Key definitions: `Text.decodeLossy`, `Text.characterAt`.
-/
namespace Stepwise
namespace Text

/-- The character for what cannot be read. -/
def replacement : Char := '\ufffd'

/-- Whether `b` lies between two bounds, which belong to the range. -/
def between (low high b : Nat) : Bool := low ≤ b && b ≤ high

/-- The range of the second byte of a character and how many bytes follow it, told by
its first byte. -/
def secondByte? (first : Nat) : Option (Nat × Nat × Nat) :=
  if between 0xC2 0xDF first then some (0x80, 0xBF, 0)
  else if first = 0xE0 then some (0xA0, 0xBF, 1)
  else if first = 0xED then some (0x80, 0x9F, 1)
  else if between 0xE1 0xEF first then some (0x80, 0xBF, 1)
  else if first = 0xF0 then some (0x90, 0xBF, 2)
  else if between 0xF1 0xF3 first then some (0x80, 0xBF, 2)
  else if first = 0xF4 then some (0x80, 0x8F, 2)
  else none

/-- The bits that a first byte contributes to its character. -/
def leadingBits (first : Nat) : Nat :=
  if first < 0xE0 then first % 0x20 else if first < 0xF0 then first % 0x10 else first % 8

/-- The last `n` bytes of a character whose bits so far are `code`, after `used` bytes. -/
def continuation (n code used : Nat) : List Nat → Char × Nat
  | [] => (if n = 0 then Char.ofNat code else replacement, used)
  | b :: rest =>
    match n with
    | 0 => (Char.ofNat code, used)
    | n + 1 =>
      if between 0x80 0xBF b then continuation n (code * 64 + b % 64) (used + 1) rest
      else (replacement, used)

/-- The character that bytes begin with, and how many of them it takes. -/
def characterAt (first : Nat) (rest : List Nat) : Char × Nat :=
  if first < 0x80 then (Char.ofNat first, 1)
  else
    match secondByte? first, rest with
    | some (low, high, n), b :: rest =>
      if between low high b then continuation n (leadingBits first * 64 + b % 64) 2 rest
      else (replacement, 1)
    | _, _ => (replacement, 1)

/-- The characters of bytes after those that are read already, the last of these first. -/
def charactersFrom : Nat → List Nat → List Char → List Char
  | 0, _, acc => acc.reverse
  | _, [], acc => acc.reverse
  | n + 1, first :: rest, acc =>
    let (c, used) := characterAt first rest
    charactersFrom n (rest.drop (used - 1)) (c :: acc)

/-- The text of bytes. -/
def decodeLossy (bytes : ByteArray) : String :=
  match String.fromUTF8? bytes with
  | some s => s
  | none =>
    let codes := bytes.toList.map UInt8.toNat
    String.ofList (charactersFrom codes.length codes [])

theorem fromUTF8?_toUTF8 (s : String) : String.fromUTF8? s.toUTF8 = some s := by
  rw [String.fromUTF8?, String.toUTF8_eq_toByteArray, dif_pos s.isValidUTF8]
  rfl

/-- The bytes of a text are read as that text. -/
theorem decodeLossy_toUTF8 (s : String) : decodeLossy s.toUTF8 = s := by
  rw [decodeLossy, fromUTF8?_toUTF8]

end Text
end Stepwise
