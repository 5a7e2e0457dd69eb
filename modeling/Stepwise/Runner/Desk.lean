/-
# Desks

A desk is a host in memory: a file tree in which a session stands at a location, what
the session has said and noted so far, and a clock that does not move. No service
answers.

Key definitions: `Desk`, `Desk.host`, `Desk.carryOut`.
-/
import Stepwise.Artifact.Run
import Stepwise.Runner.Session

namespace Stepwise

/-- The state of a host in memory. -/
structure Desk where
  tree : FileTree
  /-- What the session has said. -/
  said : String
  /-- What the session has noted. -/
  noted : String

namespace Desk

/-- The reply of an artifact in a folder. -/
def execute (here : Location) (folder : String) (timeout : Duration) (artifact : String)
    (input : Json) : StateM Desk (Except CallError Json) := do
  let artifacts : Artifacts := ⟨⟨(← get).tree, here, folder⟩, timeout, Interpreter.run⟩
  return artifacts.execute artifact input

/-- Replaces a file. -/
def write (here : Location) (path content : String) :
    StateM Desk (Except FileFault Unit) := do
  match (← get).tree.write here path content.toUTF8 with
  | .error fault => return .error fault
  | .ok tree =>
    modify ({ · with tree })
    return .ok ()

/-- A host in memory, at a location, where it is always the same time. -/
def host (here : Location) (environment : String → Option String) (now : Timestamp) :
    Host (StateM Desk) where
  environment := environment
  read path := do return (← get).tree.read here path
  write := write here
  say text := modify fun d => { d with said := d.said ++ text }
  note text := modify fun d => { d with noted := d.noted ++ text }
  execute := execute here
  send _ _ := pure none
  now := pure now
  clock := pure 0

/-- The code with which a session ends, and what it leaves behind. -/
def carryOut (tree : FileTree) (here : Location) (environment : String → Option String)
    (now : Timestamp) (arguments : List String) : Nat × Desk :=
  (Session.ofArguments (host here environment now) arguments).run ⟨tree, "", ""⟩

end Desk
end Stepwise
