/-
# Formats

Text is written with escapes, and with places that arguments fill. A format is used again
as long as arguments are left.

Key definitions: `Shell.escaped`, `Shell.unescape`, `Shell.printf`.
-/
namespace Stepwise
namespace Shell

/-- The bytes of a text. -/
def bytesOf (cs : List Char) : ByteArray := (String.ofList cs).toUTF8

/-- One byte. -/
def oneByte (n : Nat) : ByteArray := ByteArray.empty.push (UInt8.ofNat n)

/-- The value of a digit in a base up to sixteen. -/
def digit? (base : Nat) (c : Char) : Option Nat :=
  let n := if c.isDigit then some (c.toNat - '0'.toNat)
    else if 'a' ≤ c ∧ c ≤ 'f' then some (c.toNat - 'a'.toNat + 10)
    else if 'A' ≤ c ∧ c ≤ 'F' then some (c.toNat - 'A'.toNat + 10)
    else none
  n.filter (· < base)

/-- The number that at most `most` digits form, and what follows them. -/
def digits (base : Nat) : Nat → Nat → List Char → Nat × List Char
  | 0, n, cs => (n, cs)
  | _, n, [] => (n, [])
  | most + 1, n, c :: cs =>
    match digit? base c with
    | some d => digits base most (base * n + d) cs
    | none => (n, c :: cs)

/-- The digits of a number in base sixteen, at least `width`. -/
def upperHex (width n : Nat) : List Char :=
  let ds := (Nat.toDigits 16 n).map Char.toUpper
  List.replicate (width - ds.length) '0' ++ ds

/-- A character by its number: only the first 128 can be written as they are. -/
def numbered (n : Nat) : ByteArray :=
  if n < 0x80 then oneByte n
  else if n < 0x10000 then bytesOf ('\\' :: 'u' :: upperHex 4 n)
  else bytesOf ('\\' :: 'U' :: upperHex 8 n)

/-- What an escape stands for, after its backslash, and what follows it. Octal digits
come after a zero only if `zero` says so. -/
def escaped (zero : Bool) : List Char → ByteArray × List Char
  | [] => (bytesOf ['\\'], [])
  | c :: cs =>
    match c with
    | 'a' => (oneByte 7, cs)
    | 'b' => (oneByte 8, cs)
    | 'e' => (oneByte 27, cs)
    | 'f' => (oneByte 12, cs)
    | 'n' => (oneByte 10, cs)
    | 'r' => (oneByte 13, cs)
    | 't' => (oneByte 9, cs)
    | 'v' => (oneByte 11, cs)
    | '\\' => (bytesOf ['\\'], cs)
    | 'x' =>
      if cs.head?.any fun d => (digit? 16 d).isSome then
        let (n, rest) := digits 16 2 0 cs
        (oneByte n, rest)
      else (bytesOf ['\\', 'x'], cs)
    | 'u' | 'U' =>
      let (n, rest) := digits 16 (if c = 'u' then 4 else 8) 0 cs
      if rest.length < cs.length then (numbered n, rest) else (bytesOf ['\\', c], cs)
    | _ =>
      if zero && c = '0' then
        let (n, rest) := digits 8 3 0 cs
        (oneByte n, rest)
      else if !zero && (digit? 8 c).isSome then
        let (n, rest) := digits 8 3 0 (c :: cs)
        (oneByte n, rest)
      else if !zero && (c = '"' || c = '\x27') then (bytesOf [c], cs)
      else (bytesOf ['\\', c], cs)

/-- A text with its escapes replaced. -/
def unescape (zero : Bool) : Nat → List Char → ByteArray → ByteArray
  | 0, _, acc => acc
  | _, [], acc => acc
  | n + 1, '\\' :: cs, acc =>
    let (bytes, rest) := escaped zero cs
    unescape zero n rest (acc ++ bytes)
  | n + 1, c :: cs, acc => unescape zero n cs (acc ++ bytesOf [c])

/-- The text of an argument with its escapes replaced. -/
def unescapeAll (s : String) : ByteArray := unescape true (s.length + 1) s.toList .empty

/-- The whole number that an argument is, zero if it is none. -/
def intOf (s : String) : Int :=
  match s.toList with
  | '-' :: cs => -((digits 10 cs.length 0 cs).1 : Int)
  | '+' :: cs => (digits 10 cs.length 0 cs).1
  | cs => (digits 10 cs.length 0 cs).1

/-- A place in a format. -/
structure Place where
  left : Bool
  zeros : Bool
  width : Nat
  precision : Option Nat

/-- The place that a format begins with, after its sign, and what follows it. -/
def Place.read (cs : List Char) : Place × List Char :=
  let flags := cs.takeWhile fun c => c = '-' || c = '0'
  let (width, rest) := digits 10 9 0 (cs.drop flags.length)
  let (precision, rest) := match rest with
    | '.' :: rest =>
      let (n, rest) := digits 10 9 0 rest
      (some n, rest)
    | rest => (none, rest)
  (⟨flags.contains '-', flags.contains '0', width, precision⟩, rest)

/-- Fills a place up to its width. -/
def Place.pad (p : Place) (numeric : Bool) (cs : List Char) : List Char :=
  let missing := p.width - cs.length
  if p.left then cs ++ List.replicate missing ' '
  else if p.zeros && numeric then
    match cs with
    | '-' :: ds => '-' :: (List.replicate missing '0' ++ ds)
    | ds => List.replicate missing '0' ++ ds
  else List.replicate missing ' ' ++ cs

/-- What an argument puts into a place of a sort. -/
def Place.fill (p : Place) (sort : Char) (arg : String) : Option ByteArray :=
  match sort with
  | 's' =>
    let cs := arg.toList
    some (bytesOf (p.pad false (match p.precision with
      | some n => cs.take n
      | none => cs)))
  | 'd' | 'i' | 'u' => some (bytesOf (p.pad true (toString (intOf arg)).toList))
  | 'x' => some (bytesOf (p.pad true (Nat.toDigits 16 (intOf arg).toNat)))
  | 'o' => some (bytesOf (p.pad true (Nat.toDigits 8 (intOf arg).toNat)))
  | 'c' => some (bytesOf (p.pad false (arg.toList.take 1)))
  | 'b' => some (unescapeAll arg)
  | _ => none

/-- A format used once: what it writes, and the arguments that are left. -/
def printfOnce : Nat → List Char → List String → ByteArray → ByteArray × List String
  | 0, _, args, acc => (acc, args)
  | _, [], args, acc => (acc, args)
  | n + 1, '\\' :: cs, args, acc =>
    let (bytes, rest) := escaped false cs
    printfOnce n rest args (acc ++ bytes)
  | n + 1, '%' :: '%' :: cs, args, acc => printfOnce n cs args (acc ++ bytesOf ['%'])
  | n + 1, '%' :: cs, args, acc =>
    let (place, rest) := Place.read cs
    match rest with
    | sort :: rest =>
      match place.fill sort (args.headD "") with
      | some bytes => printfOnce n rest args.tail (acc ++ bytes)
      | none => (acc, [])
    | [] => (acc, [])
  | n + 1, c :: cs, args, acc => printfOnce n cs args (acc ++ bytesOf [c])

/-- A format used until no arguments are left, or they do not become fewer. -/
def printfAll : Nat → List Char → List String → ByteArray → ByteArray
  | 0, _, _, acc => acc
  | n + 1, format, args, acc =>
    let (acc, left) := printfOnce (format.length + 1) format args acc
    if left.isEmpty || left.length = args.length then acc else printfAll n format left acc

/-- What a format writes with arguments. -/
def printf (format : String) (args : List String) : ByteArray :=
  printfAll (args.length + 1) format.toList args .empty

end Shell
end Stepwise
