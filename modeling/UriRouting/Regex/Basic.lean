/-
# UriRouting.Regex.Basic — regular expressions

The expressions that restrict the values of a variable, and those that patterns are described by.
An expression reads one character of a set, looks at a place without reading, or combines smaller
expressions.  `Spans r t i j` says that `r` can read the text `t` from place `i` to place `j`; places
are counted in characters.  An expression matches a text if it spans some part of it.  A text that is
no expression is refused for one of a few reasons (`RegexError`).

Which of several ways an expression reads a text does not matter for this, only whether there is one.
The order in which the ways are tried is what `Regex.captures` adds: the left branch of a choice
before the right one, and more rounds of a repetition before fewer if it is greedy, otherwise fewer
before more.
-/
import UriRouting.Regex.Charset

namespace UriRouting

/-- **`RegexError`** — the ways in which an expression is refused. -/
inductive RegexError
  | unclosedGroup
  | unopenedGroup
  | badGroupName
  | repeatedGroupName
  | lookAround
  | badFlags
  | unclosedClass
  | badClassRange
  | badClassMember
  | unknownClass
  | nothingToRepeat
  | badRepetition
  | badEscape
  | backReference
  | bytesNotText
  | nestedTooDeep
  | tooLarge
  deriving DecidableEq, Repr, Inhabited

/-- The error in words. -/
def RegexError.message (e : RegexError) : Text :=
  Text.ofString <| match e with
  | unclosedGroup => "unclosed group"
  | unopenedGroup => "unopened group"
  | badGroupName => "invalid group name"
  | repeatedGroupName => "duplicate group name"
  | lookAround => "look-around is not supported"
  | badFlags => "invalid flags"
  | unclosedClass => "unclosed character class"
  | badClassRange => "invalid character class range"
  | badClassMember => "invalid escape sequence in character class"
  | unknownClass => "unknown character class"
  | nothingToRepeat => "repetition operator missing expression"
  | badRepetition => "invalid repetition count"
  | badEscape => "invalid escape sequence"
  | backReference => "backreferences are not supported"
  | bytesNotText => "expression can match text that is not UTF-8"
  | nestedTooDeep => "expression is nested too deeply"
  | tooLarge => "expression exceeds the size limit"

/-- **`Regex.Look`** — what can be asked about a place in a text; the words of a text may be those of
ASCII only. -/
inductive Regex.Look
  | textStart
  | textEnd
  | lineStart (crlf : Bool)
  | lineEnd (crlf : Bool)
  | wordBoundary (ascii : Bool)
  | notWordBoundary (ascii : Bool)
  | wordStart (ascii : Bool)
  | wordEnd (ascii : Bool)
  | wordStartHalf (ascii : Bool)
  | wordEndHalf (ascii : Bool)
  deriving DecidableEq, Repr, Inhabited

/-- **`Regex`** — a regular expression. -/
inductive Regex
  | empty
  | set (s : Regex.Charset)
  | look (l : Regex.Look)
  | cat (a b : Regex)
  | alt (a b : Regex)
  | times (greedy : Bool) (r : Regex) (least : Nat) (most : Option Nat)
  | group (capturing : Bool) (r : Regex)
  deriving DecidableEq, Repr, Inhabited

namespace Regex

variable [Unicode]

/-- Whether a character belongs to a word. -/
def isWord (ascii : Bool) (c : Char) : Bool :=
  if ascii then inRanges asciiWords c else Unicode.isWord c

/-- **`Look.holds`** — the answer between the characters `before` and `after`, `none` standing for
the end of the text. -/
def Look.holds (l : Look) (before after : Option Char) : Bool :=
  match l with
  | textStart => before.isNone
  | textEnd => after.isNone
  | lineStart false => before.isNone || before == some '\n'
  | lineEnd false => after.isNone || after == some '\n'
  | lineStart true =>
    before.isNone || before == some '\n' || (before == some '\r' && after != some '\n')
  | lineEnd true =>
    after.isNone || after == some '\r' || (after == some '\n' && before != some '\r')
  | wordBoundary ascii => before.any (isWord ascii) != after.any (isWord ascii)
  | notWordBoundary ascii => before.any (isWord ascii) == after.any (isWord ascii)
  | wordStart ascii => !before.any (isWord ascii) && after.any (isWord ascii)
  | wordEnd ascii => before.any (isWord ascii) && !after.any (isWord ascii)
  | wordStartHalf ascii => !before.any (isWord ascii)
  | wordEndHalf ascii => !after.any (isWord ascii)

/-- The character before a place. -/
def before? (t : Text) : Nat → Option Char
  | 0 => none
  | i + 1 => t[i]?

/-- **`Spans r t i j`** — `r` reads `t` from place `i` to place `j`. -/
inductive Spans : Regex → Text → Nat → Nat → Prop
  | empty {t i} (h : i ≤ t.length) : Spans .empty t i i
  | set {s t i c} (h : t[i]? = some c) (hc : s.contains c = true) : Spans (.set s) t i (i + 1)
  | look {l t i} (h : i ≤ t.length) (hl : l.holds (before? t i) t[i]? = true) :
    Spans (.look l) t i i
  | cat {a b t i j k} (ha : Spans a t i j) (hb : Spans b t j k) : Spans (.cat a b) t i k
  | altLeft {a b t i j} (h : Spans a t i j) : Spans (.alt a b) t i j
  | altRight {a b t i j} (h : Spans b t i j) : Spans (.alt a b) t i j
  | timesNone {greedy r t i most} (h : i ≤ t.length) : Spans (.times greedy r 0 most) t i i
  | timesMust {greedy r t i j k least most} (hr : Spans r t i j)
    (h : Spans (.times greedy r least (most.map (· - 1))) t j k) (hm : most ≠ some 0) :
    Spans (.times greedy r (least + 1) most) t i k
  | timesMay {greedy r t i j k most} (hr : Spans r t i j)
    (h : Spans (.times greedy r 0 (most.map (· - 1))) t j k) (hm : most ≠ some 0) :
    Spans (.times greedy r 0 most) t i k
  | group {capturing r t i j} (h : Spans r t i j) : Spans (.group capturing r) t i j

/-- **`Matches r t`** — `r` reads some part of `t`. -/
def Matches (r : Regex) (t : Text) : Prop := ∃ i j, Spans r t i j

omit [Unicode]

/-- The expressions in order, one after the other. -/
def catAll : List Regex → Regex
  | [] => .empty
  | [r] => r
  | r :: s :: rest => .cat r (catAll (s :: rest))

/-- Any of the expressions, of which there is at least one. -/
def altAll : List Regex → Regex
  | [] => .empty
  | [r] => r
  | r :: s :: rest => .alt r (altAll (s :: rest))

/-- **`groupCount r`** — how many capture groups the expression has. -/
def groupCount : Regex → Nat
  | empty | set _ | look _ => 0
  | cat a b | alt a b => groupCount a + groupCount b
  | times _ r _ _ => groupCount r
  | group capturing r => (if capturing then 1 else 0) + groupCount r

end Regex

end UriRouting
