/-
# The syntax of shell scripts

A script is a row of statements. A statement is a pipeline of commands that is run
always, or only if the one before it has succeeded or failed. The words of a command
hold parts that are replaced when it is run.

Key definitions: `Shell.Part`, `Shell.Command`, `Shell.Statement`, `Shell.Redirect`.
-/
namespace Stepwise
namespace Shell

/-- When a statement is run. -/
inductive Connector where
  | always
  /-- After a success. -/
  | ifOk
  /-- After a failure. -/
  | ifFailed
  deriving DecidableEq, Repr

/-- A change of where a command reads or writes. Zero is its input, one its output and
two its messages. -/
inductive Redirect where
  /-- A stream goes where another goes. -/
  | copy (stream source : Nat)
  | close (stream : Nat)
  /-- Nothing is read, and what is written is lost. -/
  | discard (stream : Nat)
  /-- A text is read. -/
  | supply (text : String)
  deriving DecidableEq, Repr

mutual

/-- A part of a word. What is not quoted is split at blanks after it is replaced. -/
inductive Part where
  | text (s : String) (quoted : Bool)
  | value (name : String) (quoted : Bool)
  /-- How many bytes a variable holds. -/
  | length (name : String)
  /-- The value of a variable, or another text if it is empty. -/
  | valueOr (name fallback : String) (quoted : Bool)
  /-- What statements write. -/
  | capture (body : List Statement) (quoted : Bool)
  /-- The value of a sum or another term. -/
  | term (source : String)

/-- A command. -/
inductive Command where
  /-- Settings of variables, and the words of the command, if it has any. -/
  | simple (line : Nat) (settings : List (String × List Part)) (words : List (List Part))
    (redirects : List Redirect)
  /-- Statements run once for each word. -/
  | forEach (name : String) (words : List (List Part)) (body : List Statement)
  /-- Statements run if others succeed, and statements run if they fail. -/
  | choose (test body otherwise : List Statement)
  /-- Statements run as long as others succeed, or as long as they fail. -/
  | repeatWhile (expected : Bool) (test body : List Statement)
  /-- Statements, inside of parentheses without effect on variables. -/
  | group (isolated : Bool) (body : List Statement) (redirects : List Redirect)
  /-- Statements that are run while the script goes on. -/
  | aside (body : List Statement)

/-- A pipeline, whose success may be inverted. -/
inductive Statement where
  | mk (connector : Connector) (inverted : Bool) (commands : List Command)

end

instance : Inhabited Part := ⟨.text "" true⟩
instance : Inhabited Command := ⟨.simple 0 [] [] []⟩
instance : Inhabited Statement := ⟨.mk .always false []⟩

/-- A word. -/
abbrev Word := List Part

/-- Statements that are run one after the other. -/
abbrev Block := List Statement

end Shell
end Stepwise
