/-
# The syntax of snippets

A snippet is a short program in one of two languages of scripts, which agree on calls,
members, literals and operators. Its statements are evaluated one after the other.

Key definitions: `Snippet.Dialect`, `Snippet.Expr`, `Snippet.Statement`.
-/
import Stepwise.Json.Basic

namespace Stepwise
namespace Snippet

/-- The language of a snippet. -/
inductive Dialect where
  | node
  | python
  deriving DecidableEq, Repr

/-- An expression. -/
inductive Expr where
  | literal (v : Json)
  | name (s : String)
  | member (e : Expr) (field : String)
  | index (e i : Expr)
  /-- A call, with its arguments and those that are given by name. -/
  | call (f : Expr) (args : List Expr) (named : List (String × Expr))
  | list (items : List Expr)
  | object (fields : List (Expr × Expr))
  | binary (op : Char) (a b : Expr)
  | negate (e : Expr)
  /-- A function without arguments, and what it evaluates, if anything. -/
  | deferred (body : Option Expr)
  deriving Inhabited

/-- A statement. -/
inductive Statement where
  | bind (name : String) (e : Expr)
  | run (e : Expr)
  /-- Modules become known by their names. -/
  | use (modules : List String)
  deriving Inhabited

end Snippet
end Stepwise
