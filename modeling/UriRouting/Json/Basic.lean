/-
# UriRouting.Json.Basic — JSON values and their text

The values that captured variables resolve to, the parameters of an expansion, the settings of a
route table and the answers of the service are JSON.  An object lists its members in the order of
their names, each name once; `ofMembers` puts any list of members into that form, the last one of a
name winning.

`render` writes a value without blanks; `renderPretty` puts every item and member on a line of its
own, indented by two blanks for each level, and leaves empty arrays and objects on one line.  In
strings only the quotation mark, the backslash and the control characters below U+0020 are escaped,
the latter with a letter where one exists and otherwise with four lower-case hexadecimal digits.
-/
import UriRouting.Json.Shortest
import UriRouting.Percent

namespace UriRouting

/-- **`Json`** — a JSON value.  Whole numbers and floating-point numbers are kept apart. -/
inductive Json
  | null
  | bool (b : Bool)
  | int (n : Int)
  | real (x : Json.Binary64)
  | string (t : Text)
  | array (items : List Json)
  | object (members : List (Text × Json))
  deriving Repr, Inhabited, BEq

namespace Json

/-- Puts a member at its place among members in the order of names; it replaces one of its name. -/
def putMember (name : Text) (value : Json) : List (Text × Json) → List (Text × Json)
  | [] => [(name, value)]
  | (n, v) :: rest =>
    if n = name then (name, value) :: rest
    else if Text.precedes name n then (name, value) :: (n, v) :: rest
    else (n, v) :: putMember name value rest

/-- **`ofMembers`** — the object with these members. -/
def ofMembers (members : List (Text × Json)) : Json :=
  .object (members.foldl (fun acc (n, v) => putMember n v acc) [])

/-- The member of an object. -/
def member? (name : Text) : Json → Option Json
  | .object members => members.lookup name
  | _ => none

end Json

end UriRouting

namespace UriRouting.Json

/-- A lower-case hexadecimal digit. -/
def lowerHexDigit (n : Nat) : Char := (Percent.hexDigit n).toLower

/-- A character as it stands inside a JSON string. -/
def escapeChar (c : Char) : Text :=
  if c = '"' then ['\\', '"']
  else if c = '\\' then ['\\', '\\']
  else if c = '\n' then ['\\', 'n']
  else if c = '\r' then ['\\', 'r']
  else if c = '\t' then ['\\', 't']
  else if c.toNat = 8 then ['\\', 'b']
  else if c.toNat = 12 then ['\\', 'f']
  else if c.toNat < 0x20 then
    ['\\', 'u', '0', '0', lowerHexDigit (c.toNat / 16), lowerHexDigit (c.toNat % 16)]
  else [c]

/-- A text as a JSON string. -/
def quote (t : Text) : Text := ['"'] ++ t.flatMap escapeChar ++ ['"']

/-- The words of the two truth values. -/
def boolText : Bool → Text
  | true => ['t', 'r', 'u', 'e']
  | false => ['f', 'a', 'l', 's', 'e']

/-- The word of the null value. -/
def nullText : Text := ['n', 'u', 'l', 'l']

mutual

/-- **`render`** — the value as text without blanks. -/
def render : Json → Text
  | .null => nullText
  | .bool b => boolText b
  | .int n => Text.Decimal.ofInt n
  | .real x => Shortest.render x
  | .string t => quote t
  | .array items => ['['] ++ renderItems items ++ [']']
  | .object members => ['{'] ++ renderMembers members ++ ['}']

/-- Items with commas between them. -/
def renderItems : List Json → Text
  | [] => []
  | [v] => render v
  | v :: w :: rest => render v ++ [','] ++ renderItems (w :: rest)

/-- Members with commas between them. -/
def renderMembers : List (Text × Json) → Text
  | [] => []
  | [(n, v)] => quote n ++ [':'] ++ render v
  | (n, v) :: m :: rest => quote n ++ [':'] ++ render v ++ [','] ++ renderMembers (m :: rest)

end

/-- A new line at a level of indentation. -/
def newLine (level : Nat) : Text := '\n' :: List.replicate (2 * level) ' '

mutual

/-- A value whose lines are indented for `level`. -/
def prettyAt (level : Nat) : Json → Text
  | .array [] => ['[', ']']
  | .array (v :: rest) =>
    ['['] ++ newLine (level + 1) ++ prettyItems (level + 1) (v :: rest) ++ newLine level ++ [']']
  | .object [] => ['{', '}']
  | .object (m :: rest) =>
    ['{'] ++ newLine (level + 1) ++ prettyMembers (level + 1) (m :: rest) ++ newLine level ++ ['}']
  | .null => nullText
  | .bool b => boolText b
  | .int n => Text.Decimal.ofInt n
  | .real x => Shortest.render x
  | .string t => quote t

/-- Items on lines of their own. -/
def prettyItems (level : Nat) : List Json → Text
  | [] => []
  | [v] => prettyAt level v
  | v :: w :: rest => prettyAt level v ++ [','] ++ newLine level ++ prettyItems level (w :: rest)

/-- Members on lines of their own. -/
def prettyMembers (level : Nat) : List (Text × Json) → Text
  | [] => []
  | [(n, v)] => quote n ++ [':', ' '] ++ prettyAt level v
  | (n, v) :: m :: rest =>
    quote n ++ [':', ' '] ++ prettyAt level v ++ [','] ++ newLine level ++
      prettyMembers level (m :: rest)

end

/-- **`renderPretty`** — the value on indented lines. -/
def renderPretty (v : Json) : Text := prettyAt 0 v

end UriRouting.Json
