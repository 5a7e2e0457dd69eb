/-
# Running snippets

A snippet reads its input, calls what its language provides and writes. In one dialect
all numbers are doubles; in the other whole numbers are exact and the JSON it writes has
blanks after commas and colons.

Key definitions: `Snippet.Value`, `Snippet.State`, `Snippet.callNode`,
`Snippet.callPython`, `Snippet.eval`, `Snippet.run`.
-/
import Stepwise.Artifact.Outcome
import Stepwise.Files.Tree
import Stepwise.Json.Printer
import Stepwise.Snippet.Reading

namespace Stepwise
namespace Snippet

/-- What an expression stands for. -/
inductive Value where
  | json (v : Json)
  /-- Something that the language provides, under its full name. -/
  | provided (name : String)
  /-- A part of a value that can be called. -/
  | method (v : Json) (name : String)
  /-- A function without arguments. -/
  | deferred (body : Option Expr)
  /-- No value. -/
  | nothing

/-- The state of a snippet. -/
structure State where
  names : Named Value
  /-- The input that is left. -/
  input : String
  output : String
  messages : String
  /-- The time that has passed, in nanoseconds. -/
  elapsed : Nat
  /-- What is still to be done, with the time for it, in order. -/
  pending : List (Nat × Option Expr)
  ending : Option Nat

/-- A part of a run, which ends if it cannot go on. -/
abbrev Run (α : Type) := StateT State Option α

/-- How one dialect writes doubles. -/
def nodeNumbers : Decimal.Layout :=
  { least := -7, greatest := 20, whole := [], mark := 'e', plus := ['+'] }

/-- How the other dialect writes doubles. -/
def pythonNumbers : Decimal.Layout :=
  { least := -4, greatest := 15, whole := ['.', '0'], mark := 'e', plus := ['+'] }

/-- The text of a number. -/
def numberText (dialect : Dialect) (n : Json.Number) : String :=
  let signed (layout : Decimal.Layout) (d : Double) : List Char :=
    let text := layout.write d.shortest
    if d.isNegative then '-' :: text else text
  String.ofList <| match dialect, n with
    | .python, .int i => (toString i).toList
    | .python, .float d => signed pythonNumbers d
    | .node, n =>
      let d := match n with
        | .int i => if i < 0 then (Double.ofNat i.natAbs).neg else Double.ofNat i.natAbs
        | .float d => d
      if d.isZero then ['0'] else signed nodeNumbers d

/-- Text with all but the first 128 characters escaped. -/
def asciiText (cs : List Char) : List Char :=
  cs.flatMap fun c =>
    let n := c.toNat
    if n < 0x7F then [c]
    else if n < 0x10000 then ['\\', 'u'] ++ Json.hexFour n
    else
      ['\\', 'u'] ++ Json.hexFour (0xD800 + (n - 0x10000) / 0x400) ++
        ['\\', 'u'] ++ Json.hexFour (0xDC00 + (n - 0x10000) % 0x400)

/-- The text of a string in JSON. -/
def stringText (dialect : Dialect) (s : String) : String :=
  String.ofList <| match dialect with
    | .node => Json.stringChars s
    | .python => asciiText (Json.stringChars s)

mutual

/-- The JSON text of a value. -/
def jsonText (dialect : Dialect) : Json → String
  | .null => "null"
  | .bool b => if b then "true" else "false"
  | .num n => numberText dialect n
  | .str s => stringText dialect s
  | .arr vs => "[" ++ String.intercalate (comma dialect) (itemTexts dialect vs) ++ "]"
  | .obj fs => "\x7b" ++ String.intercalate (comma dialect) (fieldTexts dialect fs) ++ "\x7d"

/-- The JSON texts of items. -/
def itemTexts (dialect : Dialect) : List Json → List String
  | [] => []
  | v :: vs => jsonText dialect v :: itemTexts dialect vs

/-- The JSON texts of fields. -/
def fieldTexts (dialect : Dialect) : Json.Fields → List String
  | [] => []
  | (k, v) :: fs =>
    (stringText dialect k ++ (if dialect = .python then ": " else ":") ++ jsonText dialect v) ::
      fieldTexts dialect fs

/-- What separates items. -/
def comma : Dialect → String
  | .node => ","
  | .python => ", "

end

/-- A text in single quotes, or in double quotes if it has a single one. -/
def quotedText (s : String) : String :=
  let cs := s.toList
  let quote := if cs.contains '\x27' && !cs.contains '"' then '"' else '\x27'
  let escape (c : Char) : List Char :=
    if c = quote || c = '\\' then ['\\', c]
    else if c = '\n' then ['\\', 'n']
    else if c = '\t' then ['\\', 't']
    else if c = '\r' then ['\\', 'r']
    else [c]
  String.ofList (quote :: cs.flatMap escape ++ [quote])

/-- Whether a key is shown without quotes. -/
def isPlainKey (s : String) : Bool :=
  match s.toList with
  | [] => false
  | c :: cs => !c.isDigit && (c :: cs).all fun c => isWordChar c || c = '$'

/-- The parts of a container between its brackets. One dialect leaves room for them. -/
def enclosed (dialect : Dialect) (first last : String) (parts : List String) : String :=
  let inner := String.intercalate ", " parts
  if dialect = .node && !parts.isEmpty then first ++ " " ++ inner ++ " " ++ last
  else first ++ inner ++ last

mutual

/-- A value as it is shown inside of another. -/
def shown (dialect : Dialect) : Json → String
  | .null => if dialect = .python then "None" else "null"
  | .bool b =>
    if dialect = .python then (if b then "True" else "False") else (if b then "true" else "false")
  | .num n => numberText dialect n
  | .str s => quotedText s
  | .arr vs => enclosed dialect "[" "]" (shownItems dialect vs)
  | .obj fs => enclosed dialect "\x7b" "\x7d" (shownFields dialect fs)

/-- Items as they are shown. -/
def shownItems (dialect : Dialect) : List Json → List String
  | [] => []
  | v :: vs => shown dialect v :: shownItems dialect vs

/-- Fields as they are shown. -/
def shownFields (dialect : Dialect) : Json.Fields → List String
  | [] => []
  | (k, v) :: fs =>
    ((if dialect = .node && isPlainKey k then k else quotedText k) ++ ": " ++ shown dialect v) ::
      shownFields dialect fs

end

/-- A value as it is printed. -/
def printed (dialect : Dialect) : Value → String
  | .json (.str s) => s
  | .json v => shown dialect v
  | .nothing => if dialect = .python then "None" else "undefined"
  | .provided name => name
  | .method _ name => name
  | .deferred _ => "[Function]"

mutual

/-- A value of one dialect as it joins a text. -/
def joined : Json → String
  | .str s => s
  | .arr vs => String.intercalate "," (joinedItems vs)
  | .obj _ => "[object Object]"
  | v => shown .node v

/-- Items as they join a text; null leaves nothing. -/
def joinedItems : List Json → List String
  | [] => []
  | .null :: vs => "" :: joinedItems vs
  | v :: vs => joined v :: joinedItems vs

end

/-- A value as a text. -/
def asText (dialect : Dialect) (v : Value) : String :=
  match dialect, v with
  | .node, .json v => joined v
  | _, v => printed dialect v

/-- The sum of two numbers. -/
def addNumbers : Json.Number → Json.Number → Json.Number
  | .int a, .int b => .int (a + b)
  | a, b => .float ((toDouble a).add (toDouble b))
where
  /-- The double nearest to a number. -/
  toDouble : Json.Number → Double
    | .int i => if i < 0 then (Double.ofNat i.natAbs).neg else Double.ofNat i.natAbs
    | .float d => d

/-- A number with the other sign. -/
def negateNumber : Json.Number → Json.Number
  | .int i => .int (-i)
  | .float d => .float d.neg

/-- The value of an operator. -/
def operate? (dialect : Dialect) (op : Char) : Value → Value → Option Value
  | .json (.num a), .json (.num b) =>
    if op = '+' then some (.json (.num (addNumbers a b)))
    else if op = '-' then some (.json (.num (addNumbers a (negateNumber b))))
    else
      match a, b with
      | .int a, .int b => some (.json (.num (.int (a * b))))
      | .float a, .float b => some (.json (.num (.float (a.mul b))))
      | _, _ => none
  | .json (.str a), .json (.str b) => if op = '+' then some (.json (.str (a ++ b))) else none
  | .json (.arr a), .json (.arr b) =>
    if op = '+' && dialect = .python then some (.json (.arr (a ++ b))) else none
  | a, b =>
    let joins := op = '+' && dialect = .node
    match a, b with
    | .json (.str s), b => if joins then some (.json (.str (s ++ asText dialect b))) else none
    | a, .json (.str s) => if joins then some (.json (.str (asText dialect a ++ s))) else none
    | _, _ => none

/-- What is provided under these names. -/
def isProvided (dialect : Dialect) (name : String) : Bool :=
  match dialect with
  | .node =>
    ["require", "console", "process", "JSON", "String", "Object", "setTimeout"].contains name
  | .python => ["print", "sorted", "len", "str", "sum", "list", "exit"].contains name

/-- Whether one value comes before another in sorted order. -/
def precedes : Json → Json → Bool
  | .str a, .str b => a < b
  | .num (.int a), .num (.int b) => a < b
  | .num a, .num b => (addNumbers.toDouble a).units < (addNumbers.toDouble b).units
  | _, _ => false

/-- Puts a value into its place in a sorted list, after its equals. -/
def insertSorted (v : Json) : List Json → List Json
  | [] => [v]
  | w :: ws => if precedes v w then v :: w :: ws else w :: insertSorted v ws

/-- The items that a value has when it is gone through. -/
def itemsOf? : Json → Option (List Json)
  | .arr vs => some vs
  | .obj fs => some (fs.map fun f => .str f.1)
  | .str s => some (s.toList.map fun c => .str c.toString)
  | _ => none

/-- Writes to the output. -/
def write (s : String) : Run Value :=
  fun st => some (.nothing, { st with output := st.output ++ s })

/-- Writes to the messages. -/
def complain (s : String) : Run Value :=
  fun st => some (.nothing, { st with messages := st.messages ++ s })

/-- Ends the snippet with a code. -/
def finish (code : Nat) : Run Value :=
  fun st => some (.nothing, { st with ending := some (code % 256) })

/-- Takes all of the input. -/
def drain : Run String := fun st => some (st.input, { st with input := "" })

/-- Lets time pass. -/
def pause (nanos : Nat) : Run Value :=
  fun st => some (.nothing, { st with elapsed := st.elapsed + nanos })

/-- Puts off a function until a time has passed. -/
def putOff (body : Option Expr) (millis : Nat) : Run Value :=
  fun st =>
    let due := st.elapsed + max 1 millis * 1000000
    let before := st.pending.takeWhile fun p => p.1 ≤ due
    some (.nothing,
      { st with pending := before ++ (due, body) :: st.pending.drop before.length })

/-- The nanoseconds that a number of seconds is. -/
def nanosOf : Json.Number → Nat
  | .int i => i.toNat * 1000000000
  | .float d => if d.isNegative then 0 else (d.mul (Double.ofNat 1000000000)).units.toNat >>> 1074

/-- The JSON that a text is. -/
def parse? (s : String) : Run Value := do
  match Json.read none s.toList with
  | .ok v => return .json v
  | .error _ => failure

/-- A call of what one dialect provides. -/
def callNode (name : String) (args : List Value) : Run Value := do
  let all := String.intercalate " " (args.map (printed .node))
  match name, args with
  | "require", [.json (.str s)] =>
    return .provided (if s.startsWith "node:" then String.ofList (s.toList.drop 5) else s)
  | "fs.readFileSync", .json source :: _ =>
    guard (source = .nat 0 || source = .str "/dev/stdin")
    return .json (.str (← drain))
  | "JSON.parse", [.json (.str s)] => parse? s
  | "JSON.stringify", [.json v] => return .json (.str (jsonText .node v))
  | "JSON.stringify", [.nothing] => return .nothing
  | "String", [v] => return .json (.str (asText .node v))
  | "Object.keys", [.json (.obj fs)] => return .json (.arr (fs.map fun f => .str f.1))
  | "console.log", _ | "console.info", _ => write (all ++ "\n")
  | "console.error", _ | "console.warn", _ => complain (all ++ "\n")
  | "process.stdout.write", [.json (.str s)] => write s
  | "process.stdin.pipe", [.provided "process.stdout"] => write (← drain)
  | "setTimeout", [.deferred body, .json (.num (.int i))] => putOff body i.toNat
  | "setTimeout", [.deferred body] => putOff body 0
  | "process.stderr.write", [.json (.str s)] => complain s
  | "process.exit", [] => finish 0
  | "process.exit", [.json (.num (.int i))] => finish (i.emod 256).toNat
  | _, _ => failure

/-- The words that a value prints in the other dialect, with a break at the end or what
is said instead. -/
def printPython (args : List Value) (named : List (String × Value)) : Run Value := do
  let ending := match named.lookup "end" with
    | some (.json (.str s)) => s
    | _ => "\n"
  let text := String.intercalate " " (args.map (printed .python)) ++ ending
  match named.lookup "file" with
  | some (.provided "sys.stderr") => complain text
  | _ => write text

/-- A call of what the other dialect provides. -/
def callPython (name : String) (args : List Value) (named : List (String × Value)) :
    Run Value := do
  match name, args with
  | "print", _ => printPython args named
  | "json.load", [.provided "sys.stdin"] => parse? (← drain)
  | "json.loads", [.json (.str s)] => parse? s
  | "json.dumps", [.json v] => return .json (.str (jsonText .python v))
  | "json.dump", [.json v, .provided "sys.stdout"] => write (jsonText .python v)
  | "sys.stdin.read", [] => return .json (.str (← drain))
  | "sys.stdout.write", [.json (.str s)] => write s
  | "sys.stderr.write", [.json (.str s)] => complain s
  | "sorted", [.json v] =>
    match itemsOf? v with
    | some vs => return .json (.arr (vs.foldl (fun acc v => insertSorted v acc) []))
    | none => failure
  | "len", [.json v] =>
    match itemsOf? v with
    | some vs => return .json (.nat vs.length)
    | none => failure
  | "sum", [.json (.arr vs)] =>
    let total := vs.foldlM (fun a v => match v with
      | .num n => some (addNumbers a n)
      | _ => none) (Json.Number.int 0)
    match total with
    | some n => return .json (.num n)
    | none => failure
  | "str", [v] => return .json (.str (printed .python v))
  | "list", [.json v] =>
    match itemsOf? v with
    | some vs => return .json (.arr vs)
    | none => failure
  | "time.sleep", [.json (.num n)] => pause (nanosOf n)
  | "sys.exit", [] | "exit", [] => finish 0
  | "sys.exit", [.json .null] => finish 0
  | "sys.exit", [.json (.num (.int i))] | "exit", [.json (.num (.int i))] =>
    finish (i.emod 256).toNat
  | "sys.exit", [v] =>
    let _ ← complain (printed .python v ++ "\n")
    finish 1
  | _, _ => failure

/-- A call of a part of a value. -/
def callMethod (v : Json) (name : String) (args : List Value) : Run Value :=
  match v, name, args with
  | .str s, "trim", [] | .str s, "strip", [] => return .json (.str (Text.trim s))
  | .str s, "toUpperCase", [] | .str s, "upper", [] => return .json (.str s.toUpper)
  | .str s, "toLowerCase", [] | .str s, "lower", [] => return .json (.str s.toLower)
  | .arr vs, "join", [.json (.str s)] =>
    return .json (.str (String.intercalate s (joinedItems vs)))
  | v, "toString", [] => return .json (.str (joined v))
  | .obj fs, "keys", [] => return .json (.arr (fs.map fun f => .str f.1))
  | .obj fs, "values", [] => return .json (.arr (fs.map (·.2)))
  | .obj fs, "get", [.json (.str k)] => return .json ((Named.get? fs k).getD .null)
  | _, _, _ => failure

/-- A member of a value. -/
def memberOf (dialect : Dialect) (v : Value) (field : String) : Run Value :=
  match v with
  | .provided name => return .provided (name ++ "." ++ field)
  | .json v =>
    match dialect, v with
    | .node, .obj fs =>
      return match Named.get? fs field with
        | some w => .json w
        | none => .nothing
    | .node, .arr vs => return if field = "length" then .json (.nat vs.length) else .method v field
    | .node, .str s =>
      return if field = "length" then
        .json (.nat (s.toList.foldl (fun n c => n + if c.toNat < 0x10000 then 1 else 2) 0))
      else .method v field
    | _, v => return .method v field
  | _ => failure

/-- An item of a value. -/
def itemOf (dialect : Dialect) : Value → Value → Run Value
  | .json (.obj fs), .json (.str k) =>
    match Named.get? fs k with
    | some v => return .json v
    | none => if dialect = .node then return .nothing else failure
  | .json (.arr vs), .json (.num (.int i)) =>
    let i := if i < 0 && dialect = .python then i + vs.length else i
    match (if i < 0 then none else vs[i.toNat]?) with
    | some v => return .json v
    | none => if dialect = .node then return .nothing else failure
  | _, _ => failure

/-- The JSON that a value is. -/
def jsonOf : Value → Run Json
  | .json v => return v
  | .nothing => return .null
  | _ => failure

mutual

/-- The value of an expression. -/
def eval (dialect : Dialect) : Expr → Run Value
  | .literal v => return .json v
  | .name s => do
    match Named.get? (← get).names s with
    | some v => return v
    | none =>
      if dialect = .node && s = "undefined" then return .nothing
      guard (isProvided dialect s)
      return .provided s
  | .member e field => do memberOf dialect (← eval dialect e) field
  | .index e i => do itemOf dialect (← eval dialect e) (← eval dialect i)
  | .call f args named => do
    let f ← eval dialect f
    let args ← evalAll dialect args
    let named ← evalNamed dialect named
    match f with
    | .provided name =>
      match dialect with
      | .node => callNode name args
      | .python => callPython name args named
    | .method v name => callMethod v name args
    | _ => failure
  | .list items => do return .json (.arr (← (← evalAll dialect items).mapM jsonOf))
  | .object fields => do return .json (.obj (← evalFields dialect fields))
  | .binary op a b => do
    let a ← eval dialect a
    let b ← eval dialect b
    match operate? dialect op a b with
    | some v => return v
    | none => failure
  | .negate e => do
    match ← eval dialect e with
    | .json (.num n) => return .json (.num (negateNumber n))
    | _ => failure
  | .deferred body => return .deferred body

/-- The values of expressions. -/
def evalAll (dialect : Dialect) : List Expr → Run (List Value)
  | [] => return []
  | e :: es => do
    let v ← eval dialect e
    return v :: (← evalAll dialect es)

/-- The values of arguments that are given by name. -/
def evalNamed (dialect : Dialect) : List (String × Expr) → Run (List (String × Value))
  | [] => return []
  | (name, e) :: es => do
    let v ← eval dialect e
    return (name, v) :: (← evalNamed dialect es)

/-- The fields of an object. -/
def evalFields (dialect : Dialect) : List (Expr × Expr) → Run Json.Fields
  | [] => return []
  | (k, e) :: es => do
    let k ← eval dialect k
    let v ← jsonOf (← eval dialect e)
    return (printed dialect k, v) :: (← evalFields dialect es)

end

/-- Runs a statement. -/
def runStatement (dialect : Dialect) : Statement → Run Unit
  | .bind name e => do
    let v ← eval dialect e
    modify fun st => { st with names := st.names.put name v }
  | .run e => do
    let _ ← eval dialect e
  | .use modules => modify fun st =>
    { st with names := modules.foldl (fun ns m => ns.put m (.provided m)) st.names }

/-- Ends the snippet after an error that nothing handles. -/
def State.fault (st : State) : State :=
  { st with messages := st.messages ++ "uncaught error\n", ending := some 1 }

/-- Runs statements until the snippet ends. -/
def runAll (dialect : Dialect) : List Statement → State → State
  | [], st => st
  | s :: rest, st =>
    if st.ending.isSome then st
    else
      match runStatement dialect s st with
      | some (_, st) => runAll dialect rest st
      | none => st.fault

/-- How often something that was put off is done. -/
def pendingLimit : Nat := 1000

/-- Does what has been put off until nothing is left, at most `n` times. -/
def runPending (dialect : Dialect) : Nat → State → State
  | 0, st => st
  | n + 1, st =>
    if st.ending.isSome then st
    else
      match st.pending with
      | [] => st
      | (due, body) :: rest =>
        let st := { st with elapsed := max st.elapsed due, pending := rest }
        match body with
        | none => runPending dialect n st
        | some e =>
          match eval dialect e st with
          | some (_, st) => runPending dialect n st
          | none => st.fault

/-- What a snippet at a path leaves behind, in a folder and with an input. -/
def run (dialect : Dialect) (tree : FileTree) (here : Location) (path : String)
    (input : ByteArray) : Outcome :=
  let finish (st : State) : Outcome :=
    { stdout := st.output.toUTF8, stderr := st.messages.toUTF8
      exit := .code (st.ending.getD 0), elapsed := some st.elapsed }
  let st : State := ⟨[], Text.decodeLossy input, "", "", 0, [], none⟩
  match (tree.read? here path).bind fun b => ofText? dialect (Text.decodeLossy b) with
  | some statements => finish (runPending dialect pendingLimit (runAll dialect statements st))
  | none => finish { st with messages := "unreadable script\n", ending := some 1 }

end Snippet
end Stepwise
