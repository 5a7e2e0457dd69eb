/-
# Commands

The commands that a script may call. Each takes its arguments and changes the state of
the shell.

Key definitions: `Shell.Machine.call?`.
-/
import Stepwise.Decimal.Power
import Stepwise.Shell.Format
import Stepwise.Shell.Machine

namespace Stepwise
namespace Shell
namespace Machine

/-- Writes its arguments, with or without a break at the end, and with or without
escapes. -/
def echo (newLine escapes : Bool) : Nat → List String → Machine → Machine
  | n + 1, "-n" :: args, m => echo false escapes n args m
  | n + 1, "-e" :: args, m => echo newLine true n args m
  | n + 1, "-ne" :: args, m => echo false true n args m
  | n + 1, "-en" :: args, m => echo false true n args m
  | n + 1, "-E" :: args, m => echo newLine false n args m
  | _, args, m =>
    let text := String.intercalate " " args
    let bytes := if escapes then unescapeAll text else text.toUTF8
    (m.write (if newLine then bytes ++ oneByte 10 else bytes)).exitWith 0

/-- The code that a number becomes. -/
def codeOf (s : String) : Nat := ((intOf s).emod 256).toNat

/-- Whether a text is a whole number. -/
def isInt (s : String) : Bool :=
  let ds := s.toList.dropWhile fun c => c = '-' || c = '+'
  !ds.isEmpty && ds.all Char.isDigit

/-- Ends the script. -/
def exit (args : List String) (m : Machine) : Machine :=
  match args with
  | [] => { m with ending := some (.code m.status) }
  | arg :: _ =>
    if isInt arg then { m with ending := some (.code (codeOf arg)) }
    else { m with ending := some (.code 2) }

/-- The signals that do not end a process. -/
def harmless : List String :=
  ["0", "17", "18", "23", "28", "CHLD", "CONT", "URG", "WINCH", "SIGCHLD", "SIGCONT", "SIGURG",
    "SIGWINCH"]

/-- Sends a signal. -/
def kill (args : List String) (m : Machine) : Machine :=
  let (sent, targets) := match args with
    | "-s" :: name :: targets => (name, targets)
    | arg :: targets =>
      match arg.toList with
      | '-' :: name => (String.ofList name, targets)
      | _ => ("TERM", args)
    | [] => ("TERM", [])
  if targets.contains processId then
    if harmless.contains sent then m.exitWith 0 else { m with ending := some .signal }
  else m.complain 1 "kill: usage: kill [-s sigspec | -n signum | -sigspec] pid"

/-- How many nanoseconds a unit of time has. -/
def unitNanos? : List Char → Option Nat
  | [] | ['s'] => some 1000000000
  | ['m'] => some 60000000000
  | ['h'] => some 3600000000000
  | ['d'] => some 86400000000000
  | _ => none

/-- The nanoseconds of a time such as `0.5` or `2m`. -/
def nanosOf? (s : String) : Option Nat :=
  let cs := s.toList
  let whole := cs.takeWhile Char.isDigit
  let rest := cs.drop whole.length
  let (fraction, rest) := match rest with
    | '.' :: rest => (rest.takeWhile Char.isDigit, rest.dropWhile Char.isDigit)
    | rest => ([], rest)
  if whole.isEmpty && fraction.isEmpty then none
  else
    (unitNanos? rest).map fun unit =>
      (digits 10 cs.length 0 (whole ++ fraction)).1 * unit / Decimal.tenTo fraction.length

/-- Lets time pass. -/
def sleep (args : List String) (m : Machine) : Machine :=
  match args.mapM nanosOf? with
  | some times => { m.exitWith 0 with elapsed := m.elapsed + times.foldl (· + ·) 0 }
  | none => m.complain 1 "sleep: invalid time interval"

/-- The bytes of a file, or of the input. -/
def readAny (name : String) (m : Machine) : Except String ByteArray × Machine :=
  if name = "-" || name = "/dev/stdin" then
    match m.input with
    | some bytes => (.ok bytes, { m with input := some .empty })
    | none => (.error "Bad file descriptor", m)
  else if name = "/dev/null" then (.ok .empty, m)
  else
    match m.tree.read? m.here name with
    | some bytes => (.ok bytes, m)
    | none => (.error "No such file or directory", m)

/-- Copies files, or its input, to the output. -/
def cat (args : List String) (m : Machine) : Machine :=
  let names := if args.isEmpty then ["-"] else args
  names.foldl
    (fun m name =>
      match readAny name m with
      | (.ok bytes, m) => m.write bytes
      | (.error reason, m) =>
        let m := m.complain 1 ("cat: " ++ name ++ ": " ++ reason)
        if name = "-" then
          m.complain 1 ("cat: closing standard input: " ++ reason)
        else m)
    (m.exitWith 0)

/-- The first bytes of the input, or of endless zeros. -/
def headBytes (n : Nat) (name : String) (m : Machine) : Machine :=
  if name = "/dev/zero" then
    (m.write ((List.range n).foldl (fun acc _ => acc.push 0) .empty)).exitWith 0
  else
    match readAny name m with
    | (.ok bytes, m) => (m.write (bytes.extract 0 n)).exitWith 0
    | (.error reason, m) =>
      m.complain 1 ("head: cannot open '" ++ name ++ "' for reading: " ++ reason)

/-- Lines with their breaks, after those found before, the last first, and the beginning
of one, its last byte first. -/
def linesFrom (found : List (List UInt8)) (begun : List UInt8) :
    List UInt8 → List (List UInt8)
  | [] => (if begun.isEmpty then found else begun.reverse :: found).reverse
  | b :: bs =>
    if b = 10 then linesFrom ((b :: begun).reverse :: found) [] bs
    else linesFrom found (b :: begun) bs

/-- The lines of the input that are chosen. -/
def chooseLines (choose : List (List UInt8) → List (List UInt8)) (m : Machine) : Machine :=
  let (bytes, m) := m.drain
  (m.write ⟨(choose (linesFrom [] [] bytes.toList)).flatten.toArray⟩).exitWith 0

/-- The first lines or bytes of the input. -/
def head (args : List String) (m : Machine) : Machine :=
  match args with
  | ["-c", n] => m.headBytes (intOf n).toNat "-"
  | ["-c", n, name] => m.headBytes (intOf n).toNat name
  | ["-n", n] => m.chooseLines (List.take (intOf n).toNat)
  | [] => m.chooseLines (List.take 10)
  | [arg] =>
    match arg.toList with
    | '-' :: 'c' :: n => m.headBytes (intOf (String.ofList n)).toNat "-"
    | '-' :: 'n' :: n => m.chooseLines (List.take (intOf (String.ofList n)).toNat)
    | '-' :: n => m.chooseLines (List.take (intOf (String.ofList n)).toNat)
    | _ => m.complain 1 "head: invalid option"
  | _ => m.complain 1 "head: invalid option"

/-- The last lines or bytes of the input. -/
def tail (args : List String) (m : Machine) : Machine :=
  let last {α : Type} (n : String) (xs : List α) : List α := xs.drop (xs.length - (intOf n).toNat)
  match args with
  | ["-n", n] => m.chooseLines (last n)
  | ["-c", n] =>
    let (bytes, m) := m.drain
    (m.write ⟨(last n bytes.toList).toArray⟩).exitWith 0
  | [] => m.chooseLines (last "10")
  | _ => m.complain 1 "tail: invalid option"

/-- The names in the folder of the script, sorted. -/
def list (m : Machine) : Machine :=
  let names : List String := match m.tree.find? m.here with
    | some (.folder entries) => entries.map Prod.fst
    | _ => []
  let shown := (names.filter fun s => s.toList.head? ≠ some '.').mergeSort (fun a b => a ≤ b)
  (m.write (String.join (shown.map (· ++ "\n"))).toUTF8).exitWith 0

/-- The characters that a set of `tr` names. -/
def charSet : Nat → List Char → List UInt8
  | 0, _ => []
  | _, [] => []
  | n + 1, '\\' :: cs =>
    let (bytes, rest) := escaped false cs
    bytes.toList ++ charSet n rest
  | n + 1, a :: '-' :: b :: cs =>
    ((List.range (b.toNat - a.toNat + 1)).map fun i => UInt8.ofNat (a.toNat + i)) ++ charSet n cs
  | n + 1, c :: cs => (bytesOf [c]).toList ++ charSet n cs

/-- The byte at the place of another in a second set, whose last one is repeated. -/
def translate (b : UInt8) : List UInt8 → List UInt8 → UInt8
  | [], _ => b
  | _, [] => b
  | x :: xs, [y] => if b = x then y else translate b xs [y]
  | x :: xs, y :: ys => if b = x then y else translate b xs ys

/-- Replaces or deletes bytes of the input. -/
def tr (args : List String) (m : Machine) : Machine :=
  let (bytes, m) := m.drain
  let set (s : String) : List UInt8 := charSet (s.length + 1) s.toList
  match args with
  | ["-d", old] =>
    let gone := set old
    let kept := bytes.foldl (fun acc b => if gone.contains b then acc else acc.push b) .empty
    (m.write kept).exitWith 0
  | [old, new] =>
    let xs := set old
    let ys := set new
    (m.write (bytes.foldl (fun acc b => acc.push (translate b xs ys)) .empty)).exitWith 0
  | _ => m.complain 1 "tr: missing operand"

/-- Counts the bytes, breaks or words of the input. -/
def wc (args : List String) (m : Machine) : Machine :=
  let (bytes, m) := m.drain
  match args with
  | ["-c"] => (m.writeLine (toString bytes.size)).exitWith 0
  | ["-l"] =>
    (m.writeLine (toString (bytes.foldl (fun n b => if b = 10 then n + 1 else n) 0))).exitWith 0
  | _ => m.complain 1 "wc: invalid option"

/-- The last name of a path. -/
def baseName (path : String) : String :=
  let cs := (path.toList.reverse.dropWhile (· = '/'))
  if cs.isEmpty then (if path = "" then "" else "/")
  else String.ofList (cs.takeWhile (· ≠ '/')).reverse

/-- All but the last name of a path. -/
def dirName (path : String) : String :=
  let cs := (path.toList.reverse.dropWhile (· = '/')).dropWhile (· ≠ '/')
  let cs := cs.dropWhile (· = '/')
  if cs.isEmpty then (if FileName.isAbsolute path then "/" else ".") else String.ofList cs.reverse

/-- Without an ending, if it is not all. -/
def withoutEnding (name ending : String) : String :=
  if name ≠ ending && ending.toList.reverse.isPrefixOf name.toList.reverse then
    String.ofList (name.toList.take (name.length - ending.length))
  else name

/-- Whole numbers, one a line. -/
def seq (first last : Int) (m : Machine) : Machine :=
  let numbers := (List.range (last - first + 1).toNat).map fun (i : Nat) => first + i
  (m.write (String.join (numbers.map fun i => toString i ++ "\n")).toUTF8).exitWith 0

/-- Reads a line of the input into a variable. -/
def readLine (args : List String) (m : Machine) : Machine :=
  let names := args.filter (· ≠ "-r")
  let bytes := m.input.getD .empty
  let line := bytes.toList.takeWhile (· ≠ 10)
  let found := line.length < bytes.size
  let text := Text.decodeLossy ⟨line.toArray⟩
  let blank (c : Char) : Bool := c = ' ' || c = '\t'
  let stripped := String.ofList (Text.stripBy blank text.toList)
  let m := { m with input := m.input.map fun (b : ByteArray) => b.extract (line.length + 1) b.size }
  (m.set (names.headD "REPLY") stripped).exitWith (if found then 0 else 1)

/-- Whether a condition on texts and numbers holds. -/
def condition? (m : Machine) : List String → Option Bool
  | [] => some false
  | [s] => some (s ≠ "")
  | ["-z", s] => some (s = "")
  | ["-n", s] => some (s ≠ "")
  | ["-f", s] => some ((m.tree.read? m.here s).isSome)
  | ["-e", s] => some ((m.tree.resolve? m.here s).isSome)
  | ["-d", s] => some (((m.tree.resolve? m.here s).map m.tree.hasFolder).getD false)
  | ["!", s] => some (s = "")
  | [a, "=", b] => some (a = b)
  | [a, "==", b] => some (a = b)
  | [a, "!=", b] => some (a ≠ b)
  | [a, op, b] =>
    if isInt a && isInt b then
      let x := intOf a
      let y := intOf b
      if op = "-eq" then some (x = y)
      else if op = "-ne" then some (x ≠ y)
      else if op = "-lt" then some (x < y)
      else if op = "-le" then some (x ≤ y)
      else if op = "-gt" then some (y < x)
      else if op = "-ge" then some (y ≤ x)
      else none
    else none
  | _ => none

/-- Tests a condition. -/
def test (args : List String) (m : Machine) : Machine :=
  match m.condition? args with
  | some b => m.exitWith (if b then 0 else 1)
  | none => m.complain 2 "test: invalid condition"

/-- Sets variables. -/
def assign (args : List String) (m : Machine) : Machine :=
  args.foldl
    (fun m arg =>
      let name := arg.toList.takeWhile (· ≠ '=')
      if name.length < arg.length then
        m.set (String.ofList name) (String.ofList (arg.toList.drop (name.length + 1)))
      else m)
    (m.exitWith 0)

/-- Sets options of the shell. -/
def setOptions (args : List String) (m : Machine) : Machine :=
  let strict := args.any fun a => a.toList.head? = some '-' && a.toList.contains 'e'
  let lenient := args.any fun a => a.toList.head? = some '+' && a.toList.contains 'e'
  { m.exitWith 0 with strict := (m.strict || strict) && !lenient }

/-- The state after a command, if it is known. -/
def call? (name : String) (args : List String) (m : Machine) : Option Machine :=
  match name with
  | "echo" => some (m.echo true false args.length args)
  | "printf" => some ((m.write (printf (args.headD "") args.tail)).exitWith 0)
  | "cat" => some (m.cat args)
  | "exit" => some (m.exit args)
  | "true" | ":" => some (m.exitWith 0)
  | "false" => some (m.exitWith 1)
  | "kill" => some (m.kill args)
  | "sleep" => some (m.sleep args)
  | "head" => some (m.head args)
  | "tail" => some (m.tail args)
  | "ls" => if args.isEmpty then some m.list else none
  | "wait" => some { m.exitWith 0 with elapsed := max m.elapsed m.busyUntil }
  | "tr" => some (m.tr args)
  | "wc" => some (m.wc args)
  | "basename" =>
    some ((m.writeLine (withoutEnding (baseName (args.headD "")) (args.getD 1 ""))).exitWith 0)
  | "dirname" => some ((m.writeLine (dirName (args.headD ""))).exitWith 0)
  | "pwd" => some ((m.writeLine m.folderPath).exitWith 0)
  | "seq" =>
    match args with
    | [last] => some (m.seq 1 (intOf last))
    | [first, last] => some (m.seq (intOf first) (intOf last))
    | _ => some (m.complain 1 "seq: missing operand")
  | "read" => some (m.readLine args)
  | "test" => some (m.test args)
  | "[" => some (if args.getLast? = some "]" then m.test args.dropLast
      else m.complain 2 "[: missing `]'")
  | "[[" => some (if args.getLast? = some "]]" then m.test args.dropLast
      else m.complain 2 "[[: missing end")
  | "export" | "local" | "declare" => some (m.assign args)
  | "set" => some (m.setOptions args)
  | _ => none

end Machine
end Shell
end Stepwise
