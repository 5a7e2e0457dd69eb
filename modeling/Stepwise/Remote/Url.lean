/-
# Addresses of the store

An address names a host, a path on it and a query. Blanks at its ends do not count, nor
do line breaks and tabs in it. A path is written without steps to itself or upwards,
and what cannot stand in an address is percent-encoded.

Key definitions: `Url`, `Url.ofText?`, `Url.withField`, `Url.target`.
-/
import Stepwise.Text.Percent

namespace Stepwise

/-- An address that can be asked. -/
structure Url where
  /-- The host, with the port if one is given. -/
  authority : List Char
  /-- The parts of the path, encoded. -/
  path : List (List Char)
  /-- The query, encoded. -/
  query : Option (List Char)
  deriving DecidableEq, Repr

namespace Url

/-- Whether a character is a visible one of the first 128. -/
def isVisible (c : Char) : Bool := '!' ≤ c && c ≤ '~'

/-- The characters that stand for themselves in a path. -/
def isPathChar (c : Char) : Bool :=
  isVisible c && !(c = '"' || c = '#' || c = '<' || c = '>' || c = '?' || c = '\x60' ||
    c = '{' || c = '}')

/-- The characters that stand for themselves in a query. -/
def isQueryChar (c : Char) : Bool :=
  isVisible c && !(c = '"' || c = '#' || c = '<' || c = '>' || c = '\x27')

/-- A slash of either sort. -/
def isSlash (c : Char) : Bool := c = '/' || c = '\\'

/-- The parts between slashes. -/
def split : List Char → List (List Char)
  | [] => [[]]
  | c :: rest =>
    if isSlash c then [] :: split rest
    else
      match split rest with
      | part :: parts => (c :: part) :: parts
      | [] => [[c]]

/-- A part with its encoded points decoded. -/
def plainPoints : List Char → List Char
  | '%' :: '2' :: c :: rest =>
    if c = 'e' || c = 'E' then '.' :: plainPoints rest else '%' :: '2' :: plainPoints (c :: rest)
  | c :: rest => c :: plainPoints rest
  | [] => []

/-- The parts of a path without the steps to itself and upwards, after the parts `above`,
the last first. -/
def walk (above : List (List Char)) : List (List Char) → List (List Char)
  | [] => above.reverse
  | part :: parts =>
    let up := plainPoints part = ['.', '.']
    let above := if up then above.tail else above
    if up || plainPoints part = ['.'] then
      if parts.isEmpty then ([] :: above).reverse else walk above parts
    else walk (Text.percentEncode isPathChar part :: above) parts

/-- Whether a text is a port. -/
def isPort (cs : List Char) : Bool :=
  cs.all Char.isDigit && cs.foldl (fun n c => 10 * n + (c.toNat - '0'.toNat)) 0 < 65536

/-- Whether a character can stand in the name of a host. -/
def isHostChar (c : Char) : Bool :=
  !(c.toNat ≤ 0x20 || c.toNat = 0x7F || c = '<' || c = '>' || c = '[' || c = ']' ||
    c = '^' || c = '|' || c = '@')

/-- Whether a text is a host, with or without a port. -/
def isAuthority (cs : List Char) : Bool :=
  let host := cs.takeWhile (· ≠ ':')
  let port := cs.drop (host.length + 1)
  !host.isEmpty && host.all isHostChar && isPort port

/-- An address without a scheme. -/
def ofAuthority? (cs : List Char) : Option Url :=
  let ends (c : Char) : Bool := isSlash c || c = '?' || c = '#'
  let authority := cs.takeWhile fun c => !ends c
  let rest := (cs.drop authority.length).takeWhile (· ≠ '#')
  let path := rest.takeWhile (· ≠ '?')
  if isAuthority authority then
    some
      { authority
        path := walk [] (split path.tail)
        query := (rest.drop path.length).tail? |>.map (Text.percentEncode isQueryChar) }
  else none

/-- The address that a text is. -/
def ofText? (text : String) : Option Url :=
  let outer (c : Char) : Bool := c.toNat ≤ 0x20
  let cs := ((text.toList.dropWhile outer).reverse.dropWhile outer).reverse
  let cs := cs.filter fun c => !(c = '\t' || c = '\n' || c = '\r')
  if (cs.take 5).map Char.toLower = "http:".toList then
    ofAuthority? ((cs.drop 5).dropWhile isSlash)
  else none

/-- The address with one more field in its query. -/
def withField (url : Url) (name value : String) : Url :=
  let field := (Text.formEncode name).toList ++ '=' :: (Text.formEncode value).toList
  { url with query := some (match url.query with
      | some query => query ++ '&' :: field
      | none => field) }

/-- The path and the query, as a request names them. -/
def target (url : Url) : String :=
  String.ofList <| url.path.flatMap (fun part => '/' :: part) ++
    match url.query with
    | some query => '?' :: query
    | none => []

end Url
end Stepwise
