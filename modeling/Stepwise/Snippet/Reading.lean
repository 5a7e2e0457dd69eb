/-
# Reading snippets

A snippet is cut into words, numbers, texts and marks. A statement ends with its line,
unless a bracket is open, or at a semicolon.

Key definitions: `Snippet.Token`, `Snippet.tokens?`, `Snippet.ofText?`.
-/
import Stepwise.Json.Reader
import Stepwise.Snippet.Syntax

namespace Stepwise
namespace Snippet

/-- A token of a snippet. -/
inductive Token where
  | word (s : String)
  | number (v : Json)
  | text (s : String)
  /-- A mark, or a break that ends a statement. -/
  | mark (c : Char)
  deriving DecidableEq

/-- The characters of words. -/
def isWordChar (c : Char) : Bool := c.isAlphanum || c = '_'

/-- The characters of numbers. -/
def isNumberChar (c : Char) : Bool := c.isDigit || c = '.'

/-- The number that hexadecimal digits form. -/
def hexNumber? : List Char → Option Nat :=
  List.foldlM (fun n c => (Json.hexValue? c).map (16 * n + ·)) 0

/-- What an escape in a text stands for, and its length, after its backslash. -/
def escaped? : List Char → Option (List Char × Nat)
  | 'n' :: _ => some (['\n'], 1)
  | 't' :: _ => some (['\t'], 1)
  | 'r' :: _ => some (['\r'], 1)
  | 'b' :: _ => some (['\x08'], 1)
  | 'f' :: _ => some (['\x0c'], 1)
  | 'v' :: _ => some (['\x0b'], 1)
  | '0' :: _ => some (['\x00'], 1)
  | 'x' :: a :: b :: _ => (hexNumber? [a, b]).map fun n => ([Char.ofNat n], 3)
  | 'u' :: a :: b :: c :: d :: _ =>
    (hexNumber? [a, b, c, d]).map fun n => ([Char.ofNat n], 5)
  | '\n' :: _ => some ([], 1)
  | c :: _ => some ([c], 1)
  | [] => none

/-- The text up to a quote, and what follows it. -/
def textUpTo? (quote : Char) : Nat → List Char → List Char → Option (String × List Char)
  | 0, _, _ => none
  | _, [], _ => none
  | n + 1, c :: cs, acc =>
    if c = quote then some (String.ofList acc.reverse, cs)
    else if c = '\n' then none
    else if c = '\\' then
      (escaped? cs).bind fun (text, length) =>
        textUpTo? quote n (cs.drop length) (text.reverse ++ acc)
    else textUpTo? quote n cs (c :: acc)

/-- Whether a comment begins here. -/
def beginsComment (dialect : Dialect) (cs : List Char) : Bool :=
  match dialect with
  | .python => cs.head? = some '#'
  | .node => cs.take 2 = ['/', '/'] || cs.take 2 = ['#', '!']

/-- The tokens of a text, after those that are found already, the last of these first. -/
def tokensFrom? (dialect : Dialect) : Nat → Nat → List Char → List Token → Option (List Token)
  | 0, _, _, _ => none
  | _, _, [], acc => some acc.reverse
  | n + 1, depth, c :: cs, acc =>
    if beginsComment dialect (c :: cs) then
      tokensFrom? dialect n depth ((c :: cs).dropWhile (· ≠ '\n')) acc
    else if c = '\n' then
      tokensFrom? dialect n depth cs (if depth = 0 then .mark ';' :: acc else acc)
    else if c = ' ' || c = '\t' || c = '\r' then tokensFrom? dialect n depth cs acc
    else if c = '"' || c = '\x27' then
      (textUpTo? c (cs.length + 1) cs []).bind fun (s, rest) =>
        tokensFrom? dialect n depth rest (.text s :: acc)
    else if c.isDigit then
      let digits := (c :: cs).takeWhile isNumberChar
      match Json.read none digits with
      | .ok v => tokensFrom? dialect n depth ((c :: cs).drop digits.length) (.number v :: acc)
      | .error _ => none
    else if isWordChar c || c = '$' then
      let word := c :: cs.takeWhile isWordChar
      tokensFrom? dialect n depth ((c :: cs).drop word.length)
        (.word (String.ofList word) :: acc)
    else
      let depth :=
        if c = '(' || c = '[' || c = '{' then depth + 1
        else if c = ')' || c = ']' || c = '}' then depth - 1
        else depth
      tokensFrom? dialect n depth cs (.mark c :: acc)

/-- The tokens of a text. -/
def tokens? (dialect : Dialect) (text : String) : Option (List Token) :=
  tokensFrom? dialect (text.length + 1) 0 text.toList []

/-- A part of the reading of a snippet, which may find a fault. -/
abbrev Reading (α : Type) := StateT (List Token) Option α

namespace Reading

/-- Goes past a mark if it comes next. -/
def skipIf (c : Char) : Reading Bool := do
  match ← get with
  | .mark d :: rest =>
    if c = d then
      StateT.set rest
      return true
    else return false
  | _ => return false

/-- Goes past a mark that must come next. -/
def expect (c : Char) : Reading Unit := do guard (← skipIf c)

/-- The next word. -/
def word : Reading String := do
  match ← get with
  | .word s :: rest =>
    StateT.set rest
    return s
  | _ => failure

/-- The value that a word stands for. -/
def constant? (dialect : Dialect) (s : String) : Option Json :=
  match dialect, s with
  | .node, "null" | .python, "None" => some .null
  | .node, "true" | .python, "True" => some (.bool true)
  | .node, "false" | .python, "False" => some (.bool false)
  | _, _ => none

mutual

/-- An expression that begins with no operator. -/
def primary (dialect : Dialect) : Nat → Reading Expr
  | 0 => failure
  | n + 1 => do
    match ← get with
    | .number v :: rest =>
      StateT.set rest
      return .literal v
    | .text s :: rest =>
      StateT.set rest
      return .literal (.str s)
    | .word s :: rest =>
      StateT.set rest
      return match constant? dialect s with
        | some v => .literal v
        | none => .name s
    | .mark '(' :: .mark ')' :: .mark '=' :: .mark '>' :: .mark '{' :: rest =>
      StateT.set rest
      if ← skipIf '}' then return .deferred none
      let e ← sum dialect n
      let _ ← skipIf ';'
      expect '}'
      return .deferred (some e)
    | .mark '(' :: .mark ')' :: .mark '=' :: .mark '>' :: rest =>
      StateT.set rest
      return .deferred (some (← sum dialect n))
    | .mark '(' :: rest =>
      StateT.set rest
      let e ← sum dialect n
      expect ')'
      return e
    | .mark '[' :: rest =>
      StateT.set rest
      return .list (← items dialect ']' n)
    | .mark '{' :: rest =>
      StateT.set rest
      return .object (← fields dialect n)
    | _ => failure

/-- What follows an expression: members, indices and arguments. -/
def trailing (dialect : Dialect) (e : Expr) : Nat → Reading Expr
  | 0 => failure
  | n + 1 => do
    if ← skipIf '.' then
      let field ← word
      trailing dialect (.member e field) n
    else if ← skipIf '[' then
      let i ← sum dialect n
      expect ']'
      trailing dialect (.index e i) n
    else if ← skipIf '(' then
      let (args, named) ← arguments dialect n
      trailing dialect (.call e args named) n
    else return e

/-- An expression with its sign. -/
def unary (dialect : Dialect) : Nat → Reading Expr
  | 0 => failure
  | n + 1 => do
    if ← skipIf '-' then return .negate (← unary dialect n)
    else
      let e ← primary dialect n
      trailing dialect e n

/-- The rest of a product. -/
def productRest (dialect : Dialect) (a : Expr) : Nat → Reading Expr
  | 0 => failure
  | n + 1 => do
    if ← skipIf '*' then productRest dialect (.binary '*' a (← unary dialect n)) n
    else return a

/-- The rest of a sum. -/
def sumRest (dialect : Dialect) (a : Expr) : Nat → Reading Expr
  | 0 => failure
  | n + 1 => do
    if ← skipIf '+' then
      let b ← productRest dialect (← unary dialect n) n
      sumRest dialect (.binary '+' a b) n
    else if ← skipIf '-' then
      let b ← productRest dialect (← unary dialect n) n
      sumRest dialect (.binary '-' a b) n
    else return a

/-- A sum. -/
def sum (dialect : Dialect) : Nat → Reading Expr
  | 0 => failure
  | n + 1 => do
    let a ← productRest dialect (← unary dialect n) n
    sumRest dialect a n

/-- The items up to a closing bracket. -/
def items (dialect : Dialect) (close : Char) : Nat → Reading (List Expr)
  | 0 => failure
  | n + 1 => do
    if ← skipIf close then return []
    let e ← sum dialect n
    if ← skipIf ',' then return e :: (← items dialect close n)
    else
      expect close
      return [e]

/-- The fields up to a closing brace. In one dialect a key may be a word, and stand for
its value as well. -/
def fields (dialect : Dialect) : Nat → Reading (List (Expr × Expr))
  | 0 => failure
  | n + 1 => do
    if ← skipIf '}' then return []
    let key ← primary dialect n
    let asText := match dialect, key with
      | .node, .name s => Expr.literal (.str s)
      | _, key => key
    let value ← if ← skipIf ':' then sum dialect n else pure key
    if ← skipIf ',' then return (asText, value) :: (← fields dialect n)
    else
      expect '}'
      return [(asText, value)]

/-- The arguments of a call. -/
def arguments (dialect : Dialect) : Nat → Reading (List Expr × List (String × Expr))
  | 0 => failure
  | n + 1 => do
    if ← skipIf ')' then return ([], [])
    match ← get with
    | .word s :: .mark '=' :: rest =>
      StateT.set rest
      let e ← sum dialect n
      if ← skipIf ',' then
        let (args, named) ← arguments dialect n
        return (args, (s, e) :: named)
      else
        expect ')'
        return ([], [(s, e)])
    | _ =>
      let e ← sum dialect n
      if ← skipIf ',' then
        let (args, named) ← arguments dialect n
        return (e :: args, named)
      else
        expect ')'
        return ([e], [])

end

/-- The names after `import`. -/
def moduleNames : Nat → Reading (List String)
  | 0 => failure
  | n + 1 => do
    let name ← word
    if ← skipIf ',' then return name :: (← moduleNames n) else return [name]

/-- The module that a text names. -/
def moduleOf (name : String) : Expr := .call (.name "require") [.literal (.str name)] []

/-- The names between braces, up to the closing one. -/
def bracedNames : Nat → Reading (List String)
  | 0 => failure
  | n + 1 => do
    if ← skipIf '}' then return []
    let name ← word
    let _ ← skipIf ','
    return name :: (← bracedNames n)

/-- The statements that take names from a module. -/
def imports? (n : Nat) : Reading (Option (List Statement)) := do
  let before ← get
  match before with
  | .word "import" :: .word name :: .word "from" :: .text m :: rest =>
    StateT.set rest
    return some [.bind name (moduleOf m)]
  | .word "import" :: .mark '*' :: .word "as" :: .word name :: .word "from" :: .text m :: rest =>
    StateT.set rest
    return some [.bind name (moduleOf m)]
  | .word "import" :: .mark '{' :: rest =>
    StateT.set rest
    let names ← bracedNames n
    match ← get with
    | .word "from" :: .text m :: rest =>
      StateT.set rest
      return some (names.map fun name => .bind name (.member (moduleOf m) name))
    | _ => failure
  | _ => return none

/-- The statement here. -/
def statement (dialect : Dialect) (n : Nat) : Reading Statement := do
  match ← get with
  | .word "import" :: rest =>
    StateT.set rest
    return .use (← moduleNames n)
  | .word keyword :: .word name :: .mark '=' :: rest =>
    guard (keyword = "const" || keyword = "let" || keyword = "var")
    StateT.set rest
    return .bind name (← sum dialect n)
  | .word name :: .mark '=' :: rest =>
    StateT.set rest
    return .bind name (← sum dialect n)
  | _ => return .run (← sum dialect n)

/-- The statements from here on. -/
def statements (dialect : Dialect) : Nat → Reading (List Statement)
  | 0 => failure
  | n + 1 => do
    if (← get).isEmpty then return []
    if ← skipIf ';' then statements dialect n
    else
      let found ← match ← imports? n with
        | some found => pure found
        | none => do
          let s ← statement dialect n
          pure [s]
      guard ((← get).isEmpty || (← get).head? = some (.mark ';'))
      return found ++ (← statements dialect n)

end Reading

/-- The statements of a text. -/
def ofText? (dialect : Dialect) (text : String) : Option (List Statement) :=
  (tokens? dialect text).bind fun tokens =>
    (Reading.statements dialect (4 * tokens.length + 8) tokens).map (·.1)

end Snippet
end Stepwise
