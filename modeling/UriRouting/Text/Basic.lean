/-
# UriRouting.Text.Basic — text as a list of Unicode scalar values

Templates, paths, names and values are all text.  A text is the list of its characters, so that
every reader in this library is a recursion on that list, and a position inside a text is the UTF-8
width of what stands before it (`width`), never an index into memory.

The module holds the handful of list operations that the readers share: cutting at a separator
(`pieces`), its inverse (`joinWith`), cutting a known beginning off (`strip`), and the order in
which names are listed (`precedes`, by code point).

Blank characters (`isBlank`) may surround the parts of a template expression, are trimmed from
default values and from the names given on the command line, and are what `\s` means in a regular
expression.  The class is the Unicode property White_Space: 25 characters in ten ranges.

Whole numbers in decimal: `ofNat` and `ofInt` write a number with its fewest digits; `natOf?` reads a
non-empty run of ASCII digits; `signed64?` reads what an integer variable accepts: one optional sign,
digits (leading zeros allowed), and a value that fits a signed 64-bit word.
-/

namespace UriRouting

/-- **`Text`** — a sequence of Unicode scalar values. -/
abbrev Text := List Char

namespace Text

/-- The text written by a string literal. -/
def ofString (s : String) : Text := s.toList

/-- **`width`** — how many bytes the UTF-8 form of the text takes. -/
def width : Text → Nat
  | [] => 0
  | c :: r => c.utf8Size + width r

@[simp] theorem width_nil : width [] = 0 := rfl

@[simp] theorem width_cons (c : Char) (r : Text) : width (c :: r) = c.utf8Size + width r := rfl

@[simp] theorem width_append (a b : Text) : width (a ++ b) = width a + width b := by
  induction a with
  | nil => simp
  | cons c r ih => simp [ih, Nat.add_assoc]

/-- **`strip beginning t`** — the rest of `t` after `beginning`, if `t` starts with it. -/
def strip : Text → Text → Option Text
  | [], t => some t
  | _ :: _, [] => none
  | b :: bs, c :: r => if b = c then strip bs r else none

/-- A text that starts with `beginning` is that beginning followed by what `strip` leaves. -/
theorem strip_eq_some_iff {beginning t rest : Text} :
    strip beginning t = some rest ↔ t = beginning ++ rest := by
  induction beginning generalizing t with
  | nil => simp [strip, eq_comm]
  | cons b bs ih =>
    cases t with
    | nil => simp [strip]
    | cons c r =>
      by_cases h : b = c
      · simp [strip, h, ih]
      · simp [strip, h, Ne.symm h]

/-- The text without its last character, if that character is `last`. -/
def stripLast (last : Char) : Text → Option Text
  | [] => none
  | [c] => if c = last then some [] else none
  | c :: d :: r => (stripLast last (d :: r)).map (c :: ·)

/-- **`pieces sep t`** — the parts of `t` between separators; there is always one more of them than
there are separators, and some may be empty. -/
def pieces (sep : Char) : Text → List Text
  | [] => [[]]
  | c :: r =>
    if c = sep then [] :: pieces sep r
    else match pieces sep r with
      | [] => [[c]]
      | p :: ps => (c :: p) :: ps

/-- **`joinWith sep parts`** — the parts in order, with `sep` between neighbours. -/
def joinWith (sep : Text) : List Text → Text
  | [] => []
  | [p] => p
  | p :: q :: ps => p ++ sep ++ joinWith sep (q :: ps)

/-- The text before the first `sep` and the text after it, if `sep` occurs. -/
def cutAt (sep : Char) : Text → Option (Text × Text)
  | [] => none
  | c :: r => if c = sep then some ([], r) else (cutAt sep r).map fun (a, b) => (c :: a, b)

/-- The text before the last `sep` and the text after it, if `sep` occurs. -/
def cutAtLast (sep : Char) (t : Text) : Option (Text × Text) :=
  (cutAt sep t.reverse).map fun (a, b) => (b.reverse, a.reverse)

/-- **`trimWith p t`** — `t` without the characters of class `p` at its two ends. -/
def trimWith (p : Char → Bool) (t : Text) : Text :=
  ((t.dropWhile p).reverse.dropWhile p).reverse

/-- **`precedes a b`** — `a` comes before `b`, or is `b`, in the order of code points. -/
def precedes : Text → Text → Bool
  | [], _ => true
  | _ :: _, [] => false
  | a :: as, b :: bs =>
    if a.toNat < b.toNat then true else if b.toNat < a.toNat then false else precedes as bs

/-- The ASCII letters of `t` in lower case; every other character stays. -/
def lower (t : Text) : Text := t.map Char.toLower

end Text

end UriRouting

namespace UriRouting.Text

/-- The code points of White_Space, as ranges with both ends included. -/
def blankRanges : List (Nat × Nat) :=
  [(0x09, 0x0D), (0x20, 0x20), (0x85, 0x85), (0xA0, 0xA0), (0x1680, 0x1680), (0x2000, 0x200A),
   (0x2028, 0x2029), (0x202F, 0x202F), (0x205F, 0x205F), (0x3000, 0x3000)]

/-- **`isBlank c`** — `c` has the property White_Space. -/
def isBlank (c : Char) : Bool :=
  blankRanges.any fun (lo, hi) => lo ≤ c.toNat && c.toNat ≤ hi

/-- The text from its first character that is not blank. -/
def dropBlank (t : Text) : Text := t.dropWhile isBlank

/-- The text without blanks at its two ends. -/
def trim (t : Text) : Text := trimWith isBlank t

end UriRouting.Text

namespace UriRouting.Text.Decimal

/-- The decimal digits of a number, without leading zeros. -/
def ofNat (n : Nat) : Text := Nat.toDigits 10 n

/-- The decimal form of an integer: a minus sign and the digits of its magnitude. -/
def ofInt : Int → Text
  | .ofNat n => ofNat n
  | .negSucc n => '-' :: ofNat (n + 1)

/-- The number that a run of digits continues from `acc`. -/
def value (acc : Nat) (digits : Text) : Nat := Nat.ofDigitChars 10 digits acc

/-- **`natOf? t`** — the value of a non-empty run of ASCII digits. -/
def natOf? (t : Text) : Option Nat :=
  if t ≠ [] ∧ t.all Char.isDigit then some (value 0 t) else none

/-- **`intOf? t`** — at most one sign, then a non-empty run of ASCII digits. -/
def intOf? : Text → Option Int
  | '+' :: digits => (natOf? digits).map Int.ofNat
  | '-' :: digits => (natOf? digits).map fun n => -Int.ofNat n
  | digits => (natOf? digits).map Int.ofNat

/-- The values of a signed 64-bit word. -/
def InSigned64 (n : Int) : Prop := -0x8000000000000000 ≤ n ∧ n < 0x8000000000000000

instance (n : Int) : Decidable (InSigned64 n) := by unfold InSigned64; infer_instance

/-- **`signed64? t`** — the integer written by `t`, if it fits a signed 64-bit word. -/
def signed64? (t : Text) : Option Int :=
  match intOf? t with
  | some n => if InSigned64 n then some n else none
  | none => none

/-- Whether an unsigned 16-bit word can hold the number `t` writes; one plus sign is allowed. -/
def isUnsigned16 (t : Text) : Bool :=
  let digits := match t with
    | '+' :: r => r
    | _ => t
  match natOf? digits with
  | some n => n < 0x10000
  | none => false

end UriRouting.Text.Decimal
