/-
# UriRouting.Regex.Charset — sets of characters

A class in a regular expression is built from ranges of code points and named classes by union,
intersection, complement and closure under case.  The set is kept as it was built; `contains` decides
membership.

What the named classes hold, and which characters differ in case only, stands in tables that change
with every edition of the standard.  The tables are a parameter (`Unicode`): what is said about
expressions holds for any of them.
-/
import UriRouting.Text.Basic

namespace UriRouting.Regex

/-- **`Unicode`** — the tables of character properties that expressions are read with. -/
class Unicode where
  isDigit : Char → Bool
  isWord : Char → Bool
  isAlphabetic : Char → Bool
  isNumeric : Char → Bool
  /-- the characters that differ from the given one in case only, itself included -/
  variants : Char → List Char
  /-- the class of a name, as in `\p{Letter}` -/
  property? : Text → Option (Char → Bool)

/-- **`Charset`** — a set of characters as it was built. -/
inductive Charset
  | ranges (pairs : List (Nat × Nat))
  | digit
  | word
  | property (name : Text)
  | union (a b : Charset)
  | inter (a b : Charset)
  | complement (a : Charset)
  /-- the characters with a case variant in the set -/
  | anyCase (a : Charset)
  /-- the set, and every letter of ASCII whose other case is in it -/
  | asciiCase (a : Charset)
  /-- the set, written with brackets and operators nested in so many levels -/
  | nested (levels : Nat) (a : Charset)
  deriving DecidableEq, Repr, Inhabited

/-- ASCII digits. -/
def asciiDigits : List (Nat × Nat) := [(0x30, 0x39)]

/-- ASCII letters, digits and the underscore. -/
def asciiWords : List (Nat × Nat) := [(0x30, 0x39), (0x41, 0x5A), (0x5F, 0x5F), (0x61, 0x7A)]

/-- The character lies in one of the ranges. -/
def inRanges (pairs : List (Nat × Nat)) (c : Char) : Bool :=
  pairs.any fun (lo, hi) => lo ≤ c.toNat && c.toNat ≤ hi

namespace Charset

/-- **`contains s c`** — `c` belongs to the set. -/
def contains [Unicode] : Charset → Char → Bool
  | ranges pairs, c => inRanges pairs c
  | digit, c => Unicode.isDigit c
  | word, c => Unicode.isWord c
  | property name, c => ((Unicode.property? name).map fun p => p c).getD false
  | union a b, c => contains a c || contains b c
  | inter a b, c => contains a c && contains b c
  | complement a, c => !contains a c
  | anyCase a, c => (Unicode.variants c).any (contains a)
  | asciiCase a, c => contains a c || contains a c.toLower || contains a c.toUpper
  | nested _ a, c => contains a c

/-- In how many levels the set was written. -/
def levels : Charset → Nat
  | nested n _ => n
  | _ => 0

/-- The set without members. -/
def none : Charset := ranges []

/-- The set of all characters. -/
def all : Charset := ranges [(0, 0x10FFFF)]

/-- The set of one character. -/
def single (c : Char) : Charset := ranges [(c.toNat, c.toNat)]

/-- The members of `a` that `b` lacks. -/
def minus (a b : Charset) : Charset := inter a (complement b)

/-- The members of exactly one of the two sets. -/
def differing (a b : Charset) : Charset := union (minus a b) (minus b a)

/-- Blanks. -/
def space : Charset := ranges Text.blankRanges

/-- ASCII blanks. -/
def asciiSpace : Charset := ranges [(0x09, 0x0D), (0x20, 0x20)]

/-- The ASCII class of a name, as in `[:alpha:]`. -/
def ofAsciiName? (name : String) : Option Charset :=
  match name with
  | "alnum" => some (ranges [(0x30, 0x39), (0x41, 0x5A), (0x61, 0x7A)])
  | "alpha" => some (ranges [(0x41, 0x5A), (0x61, 0x7A)])
  | "ascii" => some (ranges [(0x00, 0x7F)])
  | "blank" => some (ranges [(0x09, 0x09), (0x20, 0x20)])
  | "cntrl" => some (ranges [(0x00, 0x1F), (0x7F, 0x7F)])
  | "digit" => some (ranges asciiDigits)
  | "graph" => some (ranges [(0x21, 0x7E)])
  | "lower" => some (ranges [(0x61, 0x7A)])
  | "print" => some (ranges [(0x20, 0x7E)])
  | "punct" => some (ranges [(0x21, 0x2F), (0x3A, 0x40), (0x5B, 0x60), (0x7B, 0x7E)])
  | "space" => some asciiSpace
  | "upper" => some (ranges [(0x41, 0x5A)])
  | "word" => some (ranges asciiWords)
  | "xdigit" => some (ranges [(0x30, 0x39), (0x41, 0x46), (0x61, 0x66)])
  | _ => Option.none

end Charset

end UriRouting.Regex
