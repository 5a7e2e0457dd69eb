/-
# Plain and quoted scalars

A scalar that stands in the flow of a line may run over several lines. Its words are
kept; of the gaps between them, blanks in a line are kept, one break becomes a space,
and of several breaks the first is dropped. In double quotes a backslash escapes.

Key definitions: `Yaml.Gap`, `Yaml.Gap.text`, `Yaml.Cursor.takePlain?`,
`Yaml.Cursor.takeQuoted?`.
-/
import Stepwise.Yaml.Cursor

namespace Stepwise
namespace Yaml

/-- What separates two words of a scalar. -/
inductive Gap where
  /-- Blanks in one line. -/
  | blanks (cs : List Char)
  /-- Breaks: the first, unless it is escaped, and those after it. -/
  | breaks (first : List Char) (more : List Char)

namespace Gap

/-- What a gap leaves in the text. -/
def text : Gap → List Char
  | .blanks cs => cs
  | .breaks ['\n'] [] => [' ']
  | .breaks ['\n'] more => more
  | .breaks first more => first ++ more

/-- Whether a gap holds a break. -/
def breaksLine : Gap → Bool
  | .blanks _ => false
  | .breaks _ _ => true

end Gap

namespace Cursor

/-- The breaks from here on; the blanks between them are dropped. A tab left of the
column `limit` is refused. -/
def takeBreaks? (limit : Nat) : Nat → Cursor → List Char → Option (List Char × Cursor)
  | 0, c, acc => some (acc.reverse, c)
  | n + 1, c, acc =>
    match c.rest.head? with
    | none => some (acc.reverse, c)
    | some x =>
      if isBlank x then
        if x = '\t' && c.column < limit then none else takeBreaks? limit n (c.skip 1) acc
      else if isBreak x then
        let (b, c) := c.takeBreak
        takeBreaks? limit n c (b ++ acc)
      else some (acc.reverse, c)

/-- The gap that begins here. -/
def takeGap? (limit : Nat) (c : Cursor) : Option (Gap × Cursor) :=
  let (blanks, c) := c.takeWhile isBlank
  if c.seesClass isBreak then
    let (first, c) := c.takeBreak
    (takeBreaks? limit c.rest.length c []).map fun (more, c) => (.breaks first more, c)
  else some (.blanks blanks, c)

/-- The word of a plain scalar at the head of a text. A colon ends it in front of a
gap; inside of brackets, so does every mark, and a colon in front of a mark is
refused. -/
def plainWord? (flow : Bool) : List Char → Option (List Char)
  | [] => some []
  | x :: rest =>
    if isGap x then some []
    else if flow && x = ':' && rest.head?.any fun y => isFlowMark y || y = '?' then none
    else if (x = ':' && rest.head?.all isGap) || (flow && isFlowMark x) then some []
    else (plainWord? flow rest).map (x :: ·)

/-- The rest of a plain scalar, after what is read of it and a gap. Its lines stand at
the column `indent` or further right, unless it stands in brackets. The answer tells
whether its last gap breaks the line. -/
def takePlainFrom? (flow : Bool) (indent : Nat) :
    Nat → Cursor → Gap → List Char → Option (List Char × Bool × Cursor)
  | 0, c, gap, acc => some (acc, gap.breaksLine, c)
  | n + 1, c, gap, acc =>
    if c.atDocumentMark || c.sees '#' then some (acc, gap.breaksLine, c)
    else
      (plainWord? flow c.rest).bind fun word =>
        if word.isEmpty then some (acc, gap.breaksLine, c)
        else
          let acc := word.reverse ++ (gap.text.reverse ++ acc)
          let c := c.skip word.length
          if !c.seesClass isGap then some (acc, false, c)
          else
            (c.takeGap? indent).bind fun (gap, c) =>
              if !flow && c.column < indent then some (acc, gap.breaksLine, c)
              else takePlainFrom? flow indent n c gap acc

/-- The plain scalar here, and whether a break follows it. -/
def takePlain? (flow : Bool) (indent : Nat) (c : Cursor) :
    Option (String × Bool × Cursor) :=
  (takePlainFrom? flow indent (c.rest.length + 1) c (.blanks []) []).map
    fun (text, broken, c) => (String.ofList text.reverse, broken, c)

/-- The character that `n` hexadecimal digits name. -/
def namedChar? (n : Nat) (cs : List Char) : Option Char :=
  if cs.length < n then none
  else
    (hexNumber? (cs.take n)).bind fun code =>
      if h : code.isValidChar then some (Char.ofNatAux code h) else none

/-- The character that an escape stands for, and its length, after the backslash. -/
def escaped? : List Char → Option (Char × Nat)
  | [] => none
  | x :: rest =>
    match x with
    | '0' => some ('\x00', 1)
    | 'a' => some ('\x07', 1)
    | 'b' => some ('\x08', 1)
    | 't' | '\t' => some ('\t', 1)
    | 'n' => some ('\n', 1)
    | 'v' => some ('\x0b', 1)
    | 'f' => some ('\x0c', 1)
    | 'r' => some ('\r', 1)
    | 'e' => some ('\x1b', 1)
    | ' ' => some (' ', 1)
    | '"' => some ('"', 1)
    | '/' => some ('/', 1)
    | '\\' => some ('\\', 1)
    | 'N' => some ('\u0085', 1)
    | '_' => some ('\u00a0', 1)
    | 'L' => some ('\u2028', 1)
    | 'P' => some ('\u2029', 1)
    | 'x' => (namedChar? 2 rest).map (·, 3)
    | 'u' => (namedChar? 4 rest).map (·, 5)
    | 'U' => (namedChar? 8 rest).map (·, 9)
    | _ => none

/-- The word of a quoted scalar here, before what is read of it, and whether an
escaped break ends it. -/
def takeQuotedWord? (quote : Char) :
    Nat → Cursor → List Char → Option (List Char × Bool × Cursor)
  | 0, _, _ => none
  | n + 1, c, acc =>
    match c.rest with
    | [] => some (acc, false, c)
    | x :: rest =>
      if isGap x then some (acc, false, c)
      else if x = quote then
        if quote = '\x27' && rest.head? = some quote then
          takeQuotedWord? quote n (c.skip 2) (x :: acc)
        else some (acc, false, c)
      else if x = '\\' && quote = '"' then
        if rest.head?.any isBreak then some (acc, true, (c.skip 1).takeBreak.2)
        else
          (escaped? rest).bind fun (y, length) =>
            takeQuotedWord? quote n (c.skip (length + 1)) (y :: acc)
      else takeQuotedWord? quote n (c.skip 1) (x :: acc)

/-- The rest of a quoted scalar, after what is read of it, up to its closing quote. -/
def takeQuotedFrom? (quote : Char) : Nat → Cursor → List Char → Option (List Char × Cursor)
  | 0, _, _ => none
  | n + 1, c, acc =>
    if c.atDocumentMark || c.atEnd then none
    else
      (takeQuotedWord? quote (c.rest.length + 1) c acc).bind fun (acc, escapedBreak, c) =>
        if c.sees quote then some (acc, c.skip 1)
        else
          let gap :=
            if escapedBreak then
              (takeBreaks? 0 c.rest.length c []).map fun (more, c) => (.breaks [] more, c)
            else c.takeGap? 0
          gap.bind fun (gap, c) => takeQuotedFrom? quote n c (gap.text.reverse ++ acc)

/-- The quoted scalar here. -/
def takeQuoted? (quote : Char) (c : Cursor) : Option (String × Cursor) :=
  (takeQuotedFrom? quote (c.rest.length + 1) (c.skip 1) []).map
    fun (text, c) => (String.ofList text.reverse, c)

end Cursor
end Yaml
end Stepwise
