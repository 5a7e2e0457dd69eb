/-
# Running shell scripts

Statements are run one after the other on the state of the shell until the script has
ended. What statements in parentheses and pipelines do to variables is lost, and what
captured statements write becomes a part of a word.

Key definitions: `Shell.Machine.runBlock`, `Shell.run`.
-/
import Stepwise.Shell.Commands
import Stepwise.Shell.Reading
import Stepwise.Shell.Words

namespace Stepwise
namespace Shell
namespace Machine

/-- Runs a part whose output goes into a word or to another command: what it writes, and
the state after it, in which only time, input, messages and the code have changed. -/
def isolated (m : Machine) (part : Machine → Machine) : ByteArray × Machine :=
  let after := part { m with output := .empty, outputSink := .output }
  let (status, ending) := match after.ending with
    | some (.code n) => (n, none)
    | some .signal => (0, some .signal)
    | none => (after.status, none)
  (after.output,
    { m with
      messages := after.messages, elapsed := after.elapsed, busyUntil := after.busyUntil
      stuck := after.stuck
      input := after.input, status := status, ending := ending })

/-- A text without the breaks at its end. -/
def withoutBreaks (s : String) : String :=
  String.ofList (s.toList.reverse.dropWhile (· = '\n')).reverse

/-- The number that a variable holds. -/
def numberOf (m : Machine) (name : String) : Int := (int? (m.valueOf name).toList).getD 0

/-- Calls the command with a name in a line of the script. -/
def callNamed (line : Nat) (name : String) (args : List String) (m : Machine) : Machine :=
  match m.call? name args with
  | some m => m
  | none =>
    m.complain 127
      (m.script ++ ": line " ++ toString line ++ ": " ++ name ++ ": command not found")

/-- Ends a strict script after a failure. -/
def checkStrict (m : Machine) (checked : Bool) : Machine :=
  if m.strict && checked && m.status ≠ 0 && !m.hasEnded then
    { m with ending := some (.code m.status) }
  else m

/-- The text of a word without parts to replace. -/
def plainText? : Word → Option String
  | [] => some ""
  | .text s false :: rest => (plainText? rest).map (s ++ ·)
  | _ => none

mutual

/-- The fields of a part, after those found before. -/
def expandPart (part : Part) (f : Fields) (m : Machine) : Nat → Fields × Machine
  | 0 => (f, { m with stuck := true })
  | n + 1 =>
    let put (quoted : Bool) (s : String) : Fields :=
      if quoted then f.add s else f.addSplit (s.length + 1) s.toList
    match part with
    | .text s _ => (f.add s, m)
    | .value name quoted => (put quoted (m.valueOf name), m)
    | .length name => (f.add (toString (m.valueOf name).utf8ByteSize), m)
    | .valueOr name fallback quoted =>
      let value := m.valueOf name
      (put quoted (if value = "" then fallback else value), m)
    | .term source =>
      match termValue? m.numberOf source with
      | some i => (f.add (toString i), m)
      | none => (f, m.complain 1 (m.script ++ ": division by 0"))
    | .capture body quoted =>
      let (bytes, m) := m.isolated fun m => runBlock body m n
      (put quoted (withoutBreaks (Text.decodeLossy bytes)), m)

/-- The fields of parts, after those found before. -/
def expandParts (parts : List Part) (f : Fields) (m : Machine) : Nat → Fields × Machine
  | 0 => (f, { m with stuck := true })
  | n + 1 =>
    match parts with
    | [] => (f, m)
    | part :: parts =>
      let (f, m) := expandPart part f m n
      expandParts parts f m n

/-- The fields of words. -/
def expandWords (words : List Word) (m : Machine) : Nat → List String × Machine
  | 0 => ([], { m with stuck := true })
  | n + 1 =>
    match words with
    | [] => ([], m)
    | word :: words =>
      let (fields, m) := match (plainText? word).bind braceRange? with
        | some fields => (fields, m)
        | none =>
          let (f, m) := expandParts word .empty m n
          (f.toList, m)
      let (more, m) := expandWords words m n
      (fields ++ more, m)

/-- Sets variables one after the other. -/
def runSettings (settings : List (String × Word)) (m : Machine) : Nat → Machine
  | 0 => { m with stuck := true }
  | n + 1 =>
    match settings with
    | [] => m
    | (name, word) :: settings =>
      let unsplit := word.map fun part => match part with
        | .value name _ => .value name true
        | .valueOr name fallback _ => .valueOr name fallback true
        | .capture body _ => .capture body true
        | part => part
      let (f, m) := expandParts unsplit .empty m n
      runSettings settings (m.set name (String.intercalate " " f.toList)) n

/-- Runs a command. -/
def runCommand (c : Command) (m : Machine) : Nat → Machine
  | 0 => { m with stuck := true }
  | n + 1 =>
    match c with
    | .simple line settings words redirects =>
      let (fields, m) := expandWords words (if words.isEmpty then m.exitWith 0 else m) n
      match fields with
      | [] => runSettings settings m n
      | ["exec"] => (redirects.foldl redirect m).exitWith 0
      | "exec" :: name :: args =>
        let m := m.redirected redirects (callNamed line name args)
        { m with ending := m.ending.or (some (.code m.status)) }
      | name :: args =>
        let m := runSettings settings m n
        if m.hasEnded then m else m.redirected redirects (callNamed line name args)
    | .forEach name words body =>
      let (fields, m) := expandWords words m n
      fields.foldl
        (fun m field => if m.hasEnded then m else runBlock body (m.set name field) n)
        (m.exitWith 0)
    | .choose test body otherwise =>
      let after := runBlock test { m with strict := false } n
      let after := { after with strict := m.strict }
      if after.hasEnded then after
      else if after.status = 0 then runBlock body (after.exitWith 0) n
      else runBlock otherwise (after.exitWith 0) n
    | .repeatWhile expected test body =>
      let after := runBlock test { m with strict := false } n
      let after := { after with strict := m.strict }
      if after.hasEnded then after
      else if (after.status = 0) = expected then
        let m := runBlock body after n
        if m.hasEnded then m else runCommand (.repeatWhile expected test body) m n
      else after.exitWith 0
    | .group alone body redirects =>
      m.redirected redirects fun m =>
        let after := runBlock body m n
        if alone then
          let ending := match after.ending with
            | some (.code _) => none
            | ending => ending
          let status := match after.ending with
            | some (.code n) => n
            | _ => after.status
          { after with bindings := m.bindings, ending := ending, status := status }
        else after
    | .aside body =>
      let after := runBlock body { m with input := some .empty } n
      { m with
        output := after.output, messages := after.messages, stuck := after.stuck
        busyUntil := max m.busyUntil (max after.elapsed after.busyUntil), status := 0 }

/-- Runs the commands of a pipeline, each on what the one before it writes. -/
def runPipeline (commands : List Command) (m : Machine) : Nat → Machine
  | 0 => { m with stuck := true }
  | n + 1 =>
    match commands with
    | [] => m
    | [c] => runCommand c m n
    | c :: commands =>
      let (bytes, after) := m.isolated fun m => runCommand c m n
      let rest := runPipeline commands { after with input := some bytes } n
      let (status, ending) := match rest.ending with
        | some (.code n) => (n, none)
        | ending => (rest.status, ending)
      { rest with
        input := after.input, bindings := m.bindings, status := status, ending := ending }

/-- Runs statements until the script has ended. -/
def runBlock (block : Block) (m : Machine) : Nat → Machine
  | 0 => { m with stuck := true }
  | n + 1 =>
    match block with
    | [] => m
    | .mk connector inverted commands :: rest =>
      if m.hasEnded then m
      else
        let runs := match connector with
          | .always => true
          | .ifOk => m.status = 0
          | .ifFailed => m.status ≠ 0
        let last := match rest with
          | .mk .always _ _ :: _ => true
          | [] => true
          | _ => false
        let m :=
          if !runs then m
          else
            let m := runPipeline commands m n
            if inverted then m.exitWith (if m.status = 0 then 1 else 0)
            else m.checkStrict last
        runBlock rest m n

end

end Machine

/-- How many steps a script may be nested or repeated. -/
def stepLimit : Nat := 20000

/-- What a script at a path leaves behind, in a folder and with an input. -/
def run (tree : FileTree) (here : Location) (path : String) (input : ByteArray) : Outcome :=
  let m := Machine.start tree here path input
  match tree.read? here path with
  | none => (m.complain 127 ("bash: " ++ path ++ ": No such file or directory")).outcome
  | some content =>
    match Block.ofText? (Text.decodeLossy content) with
    | some block => (m.runBlock block stepLimit).outcome
    | none => (m.complain 2 (path ++ ": syntax error")).outcome

end Shell
end Stepwise
