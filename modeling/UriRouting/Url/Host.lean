/-
# UriRouting.Url.Host — the host of a URL

A host in brackets is an IPv6 address.  In a scheme with a fixed set of rules any other host is a
name on the Internet or, if it ends in a number, an IPv4 address; its escapes are decoded, and it is
written in ASCII.  In other schemes it is a name without further meaning.

How a name outside ASCII is written in ASCII, and which names there are, stands in tables that grow
with every edition of the standard.  The conversion is a parameter (`Idna`): what is said about URLs
holds for any of them.

An IPv4 address has one to four numbers with dots between them and perhaps one at the end.  A number
is decimal, octal after a leading `0`, or hexadecimal after `0x`; every number but the last stands for
one byte, and the last for all bytes that remain.

An IPv6 address has eight groups of up to four hexadecimal digits with colons between them.  Two
colons in a row stand, once, for one or more groups of zero; the last two groups may be written as
four bytes in decimal.  `Ipv6.render` writes the shortest form: lower-case digits, and two colons for
the longest run of at least two zero groups, the first such run if there are several.
-/
import UriRouting.Percent
import UriRouting.Text.Basic
import UriRouting.Text.Quoted
import UriRouting.Url.Path

namespace UriRouting.Url.Ipv4

/-- The value of a run of digits in a base, if all of them are digits of it. -/
def valueIn (base : Nat) (digits : Text) : Option Nat :=
  digits.foldlM (fun acc c =>
    match Percent.hexValue c with
    | some d => if d < base then some (base * acc + d) else none
    | none => none) 0

/-- **`number? t`** — the number that one part of an address writes. -/
def number? : Text → Option Nat
  | [] => none
  | '0' :: 'x' :: digits => valueIn 16 digits
  | '0' :: 'X' :: digits => valueIn 16 digits
  | '0' :: d :: digits => valueIn 8 (d :: digits)
  | digits => valueIn 10 digits

/-- The parts of a host between dots, without an empty last one. -/
def parts (host : Text) : List Text :=
  let all := Text.pieces '.' host
  if all.getLast? = some [] then all.dropLast else all

/-- **`endsInNumber host`** — the last label of the host is a number. -/
def endsInNumber (host : Text) : Bool :=
  match (parts host).getLast? with
  | none => false
  | some last => (last ≠ [] && last.all Char.isDigit) || (number? last).isSome

/-- How many values some bytes have. -/
def bytes (count : Nat) : Nat := Nat.pow 256 count

/-- The address of some leading bytes and the number for the rest. -/
def assemble (leading : List Nat) (last : Nat) : Option Nat :=
  if leading.length ≤ 3 ∧ (∀ n ∈ leading, n < 256) ∧ last < bytes (4 - leading.length) then
    some (leading.foldl (fun acc n => 256 * acc + n) 0 * bytes (4 - leading.length) + last)
  else none

/-- **`read host`** — the address, as a number of 32 bits. -/
def read (host : Text) : Option Nat := do
  let numbers ← (parts host).mapM number?
  assemble numbers.dropLast (← numbers.getLast?)

/-- **`render address`** — the four bytes in decimal. -/
def render (address : Nat) : Text :=
  Text.joinWith ['.'] <|
    [address / bytes 3 % 256, address / bytes 2 % 256, address / 256 % 256, address % 256].map
      Text.Decimal.ofNat

end UriRouting.Url.Ipv4

namespace UriRouting.Url.Ipv6

/-- **`Groups`** — the groups read so far, and how many of them stand before the zeros that two
colons leave open. -/
structure Groups where
  read : List Nat := []
  gap : Option Nat := none

/-- One more group. -/
def Groups.push (g : Groups) (n : Nat) : Groups := { g with read := g.read ++ [n] }

/-- A zero group for two colons, after which more may follow. -/
def Groups.open (g : Groups) : Groups := ⟨g.read ++ [0], some (g.read.length + 1)⟩

/-- All eight groups. -/
def Groups.close (g : Groups) : Option (List Nat) :=
  match g.gap with
  | some before =>
    if g.read.length ≤ 8 then
      some (g.read.take before ++ List.replicate (8 - g.read.length) 0 ++ g.read.drop before)
    else none
  | none => if g.read.length = 8 then some g.read else none

/-- The value of up to four hexadecimal digits, and the rest. -/
def group (s : Text) : Nat × Text :=
  let digits := (s.take 4).takeWhile fun c => (Percent.hexValue c).isSome
  (digits.foldl (fun acc c => 16 * acc + (Percent.hexValue c).getD 0) 0, s.drop digits.length)

/-- A byte in decimal, without leading zeros. -/
def byte? (t : Text) : Option Nat :=
  match t with
  | '0' :: _ :: _ => none
  | _ =>
    match Text.Decimal.natOf? t with
    | some n => if n < 256 then some n else none
    | none => none

/-- Two groups from four bytes. -/
def dotted (s : Text) : Option (List Nat) :=
  match (Text.pieces '.' s).mapM byte? with
  | some [a, b, c, d] => some [256 * a + b, 256 * c + d]
  | _ => none

/-- Reads groups to the end of the text; every round takes a character. -/
def groups : Nat → Groups → Text → Option Groups
  | _, g, [] => some g
  | 0, _, _ => none
  | fuel + 1, g, c :: s =>
    if g.read.length = 8 then none
    else if c = ':' then
      if g.gap.isSome then none else groups fuel g.open s
    else
      match group (c :: s) with
      | (n, []) => some (g.push n)
      | (n, ':' :: rest) => if rest = [] then none else groups fuel (g.push n) rest
      | (_, '.' :: _) =>
        if 6 < g.read.length then none
        else (dotted (c :: s)).map fun ns => { g with read := g.read ++ ns }
      | _ => none

/-- **`read s`** — the eight groups of an address. -/
def read (s : Text) : Option (List Nat) :=
  match s with
  | ':' :: ':' :: rest => (groups rest.length (Groups.open {}) rest).bind Groups.close
  | ':' :: _ => none
  | _ => (groups s.length {} s).bind Groups.close

/-- The length of the run of zeros at the front. -/
def zeros (gs : List Nat) : Nat := (gs.takeWhile (· == 0)).length

/-- Start and length of the longest run of zeros in groups that start at a place, the first of
several. -/
def longestZeros : Nat → List Nat → Nat × Nat
  | start, [] => (start, 0)
  | start, g :: gs =>
    let later := longestZeros (start + 1) gs
    if later.2 ≤ zeros (g :: gs) then (start, zeros (g :: gs)) else later

/-- Groups with colons between them. -/
def colons (gs : List Nat) : Text := Text.joinWith [':'] (gs.map Text.hexDigits)

/-- **`render gs`** — the shortest form of an address. -/
def render (gs : List Nat) : Text :=
  match longestZeros 0 gs with
  | (start, length) =>
    if 2 ≤ length then colons (gs.take start) ++ [':', ':'] ++ colons (gs.drop (start + length))
    else colons gs

end UriRouting.Url.Ipv6

namespace UriRouting.Url

/-- **`Idna`** — the conversion of names on the Internet to ASCII. -/
class Idna where
  /-- the form of a name in ASCII, if it is a name -/
  toAscii : Text → Option Text

namespace Idna

/-- The characters that no name on the Internet holds once it is in ASCII. -/
def isForbidden (c : Char) : Bool :=
  isControl c ||
    c ∈ [' ', '%', '#', '/', ':', '<', '>', '?', '@', '[', '\\', ']', '^', '|']

/-- The label stands for one outside ASCII. -/
def isEncoded (label : Text) : Bool := (Text.strip ['x', 'n', '-', '-'] (Text.lower label)).isSome

/-- A name in ASCII that stands for no other. -/
def isPlain (domain : Text) : Bool :=
  !domain.any isForbidden && !(Text.pieces '.' domain).any isEncoded

/-- **`IsLawful idna`** — what the standard says of any conversion, whatever its tables. -/
structure IsLawful (idna : Idna) : Prop where
  /-- a form in ASCII has no forbidden character -/
  allowed : ∀ {domain ascii : Text}, idna.toAscii domain = some ascii →
    ∀ c ∈ ascii, isForbidden c = false
  /-- a form in ASCII is its own form -/
  idempotent : ∀ {domain ascii : Text}, idna.toAscii domain = some ascii →
    idna.toAscii ascii = some ascii
  /-- a name in ASCII that stands for no other is only put into lower case -/
  plain : ∀ {domain : Text}, isPlain domain = true → idna.toAscii domain = some (Text.lower domain)
  /-- a text in ASCII with a forbidden character is no name -/
  refused : ∀ {domain : Text}, (∀ c ∈ domain, c.toNat < 0x80) → domain.any isForbidden = true →
    idna.toAscii domain = none

/-- The conversion that knows no name outside ASCII, in either form. -/
instance plainOnly : Idna where
  toAscii domain := if isPlain domain then some (Text.lower domain) else none

end Idna

/-- **`Host`** — where a URL points. -/
inductive Host
  | name (text : Text)
  | ipv4 (address : Nat)
  | ipv6 (groups : List Nat)
  deriving DecidableEq, Repr, Inhabited

namespace Host

/-- **`render`** — the host as it stands in a URL. -/
def render : Host → Text
  | name text => text
  | ipv4 address => Ipv4.render address
  | ipv6 groups => ['['] ++ Ipv6.render groups ++ [']']

/-- An address in brackets, given the text after the opening one. -/
def bracketed (s : Text) : Except UrlError Host :=
  match (Text.stripLast ']' s).bind Ipv6.read with
  | some groups => .ok (.ipv6 groups)
  | none => .error .invalidIpv6

/-- A name on the Internet, in ASCII, or an IPv4 address. -/
def ofAscii (domain : Text) : Except UrlError Host :=
  if domain = [] then .error .emptyHost
  else if Ipv4.endsInNumber domain then
    match Ipv4.read domain with
    | some address => .ok (.ipv4 address)
    | none => .error .invalidIpv4
  else .ok (.name domain)

/-- **`special s`** — a host in a scheme with a fixed set of rules. -/
def special [Idna] : Text → Except UrlError Host
  | '[' :: s => bracketed s
  | s =>
    match (Percent.decode? s).bind Idna.toAscii with
    | none => .error .invalidInternetName
    | some domain => ofAscii domain

/-- The characters that no name in other schemes holds. -/
def isForbiddenInName (c : Char) : Bool :=
  c ∈ ['\x00', '\t', '\n', '\r', ' ', '#', '/', ':', '<', '>', '?', '@', '[', '\\', ']', '^', '|']

/-- **`plain s`** — a host in any other scheme. -/
def plain : Text → Except UrlError Host
  | '[' :: s => bracketed s
  | s =>
    if s.any isForbiddenInName then .error .invalidNameCharacter else .ok (.name (encodeOpaque s))

end Host

end UriRouting.Url
