/-
# UriRouting.Proofs.Location.Display — no two locations look alike

A location is displayed as its parts with marks between them, and the port and the query may be left
out.  Still the parts can be told apart (`display_inj`), as long as each of them is legible: a scheme
ends at the first colon, and what follows the two slashes ends at the next slash or question mark.
A port that is displayed is digits behind a colon, and so is nothing that a host ends in: a colon of
a host has a closing bracket behind it.  Where no port is displayed the scheme tells which one is
meant.
-/
import UriRouting.Location
import UriRouting.Proofs.Text.Pieces
import UriRouting.Proofs.Url.Authority

namespace UriRouting.Location

/-! ## The parts of a display -/

/-- **`displayedPort l`** — the port that is displayed, if one is. -/
def displayedPort (l : Location) : Option Nat := if l.hasDefaultPort then none else some l.port

theorem base_eq (l : Location) :
    l.base = l.scheme ++ ':' :: '/' :: '/' :: (l.host ++ Url.portText l.displayedPort) := by
  unfold base displayedPort
  split <;> simp [Url.portText]

theorem display_eq (l : Location) :
    l.display = l.scheme ++ ':' :: '/' :: '/' ::
      (l.host ++ Url.portText l.displayedPort ++ (l.path ++ Url.queryText l.query)) := by
  simp [display, base_eq, Url.queryText]

theorem hasDefaultPort_iff {l : Location} :
    l.hasDefaultPort = true ↔
      l.scheme = Text.ofString "http" ∧ l.port = 80 ∨
        l.scheme = Text.ofString "https" ∧ l.port = 443 := by
  simp [hasDefaultPort]

/-! ## Legible locations -/

/-- **`Legible l`** — the scheme has no colon; the host has no slash and no question mark, and a colon
only between an opening and a closing bracket; the path is empty or starts with a slash, and has no
question mark. -/
structure Legible (l : Location) : Prop where
  scheme : ':' ∉ l.scheme
  host : '/' ∉ l.host ∧ '?' ∉ l.host
  colon : ∀ front back, l.host = front ++ ':' :: back → '[' ∈ front ∧ ']' ∈ back
  path : l.path = [] ∨ l.path.head? = some '/'
  mark : '?' ∉ l.path

/-- A host that is enclosed in brackets may have any colons. -/
theorem colon_of_enclosed {host : Text} (inner : Text) (h : host = '[' :: (inner ++ [']'])) :
    ∀ front back, host = front ++ ':' :: back → '[' ∈ front ∧ ']' ∈ back := by
  intro front back hsplit
  rw [hsplit] at h
  constructor
  · cases front with
    | nil => exact absurd (List.cons.inj h).1 (by decide)
    | cons c front =>
      rw [(List.cons.inj h).1]
      exact List.mem_cons_self
  · have hlast : (':' :: back).getLast? = some ']' := by
      have hall := congrArg List.getLast? h
      rw [← List.cons_append, List.getLast?_concat, List.getLast?_append] at hall
      simpa using hall
    cases back with
    | nil => exact absurd hlast (by decide)
    | cons c back => exact List.mem_of_getLast? hlast

/-- The characters of a host and its port. -/
def isAuthorityChar (c : Char) : Bool := c != '/' && c != '?'

variable {a b : Location}

theorem Legible.isAuthorityChar (h : a.Legible) {c : Char}
    (hc : c ∈ a.host ++ Url.portText a.displayedPort) : isAuthorityChar c = true := by
  rw [Location.isAuthorityChar, Bool.and_eq_true, bne_iff_ne, bne_iff_ne]
  rcases List.mem_append.mp hc with hhost | hport
  · exact ⟨fun heq => h.host.1 (heq ▸ hhost), fun heq => h.host.2 (heq ▸ hhost)⟩
  · have hmarks := (Url.mem_portText hport).2
    exact ⟨fun heq => hmarks (heq ▸ by decide), fun heq => hmarks (heq ▸ by decide)⟩

/-- What follows a host and its port starts with a slash or a question mark, if anything follows. -/
theorem Legible.startsWith_path (h : a.Legible) :
    Text.startsWith Location.isAuthorityChar (a.path ++ Url.queryText a.query) = false := by
  rcases h.path with hempty | hslash
  · rw [hempty]
    exact Url.startsWith_queryText rfl a.query
  · obtain ⟨rest, hrest⟩ := List.head?_eq_some_iff.mp hslash
    rw [hrest]
    rfl

/-! ## Reading the parts off -/

/-- A host does not end like a displayed port. -/
theorem Legible.host_ne (h : a.Legible) (front : Text) (n : Nat) :
    a.host ≠ front ++ ':' :: Text.Decimal.ofNat n := by
  intro heq
  have hbracket := (h.colon _ _ heq).2
  exact absurd (Text.Decimal.isDigit_of_mem_ofNat hbracket) (by decide)

theorem Legible.authority_inj (ha : a.Legible) (hb : b.Legible) {p q : Option Nat}
    (h : a.host ++ Url.portText p = b.host ++ Url.portText q) : a.host = b.host ∧ p = q := by
  have hcolon : ∀ n, ':' ∉ Text.Decimal.ofNat n := fun n hmem =>
    absurd (Text.Decimal.isDigit_of_mem_ofNat hmem) (by decide)
  cases p with
  | none =>
    cases q with
    | none => exact ⟨by simpa [Url.portText] using h, rfl⟩
    | some n => exact absurd (by simpa [Url.portText] using h) (ha.host_ne b.host n)
  | some m =>
    cases q with
    | none => exact absurd (by simpa [Url.portText] using h.symm) (hb.host_ne a.host m)
    | some n =>
      obtain ⟨hhost, hdigits⟩ := Text.append_cons_inj_last (hcolon m) (hcolon n) h
      exact ⟨hhost, congrArg some (Text.Decimal.ofNat_inj.mp hdigits)⟩

/-- Of locations with one scheme, those with the same displayed port have the same port: where it is
left out, the scheme tells it. -/
theorem port_inj (hscheme : a.scheme = b.scheme) (h : a.displayedPort = b.displayedPort) :
    a.port = b.port := by
  unfold displayedPort at h
  split at h <;> split at h
  · next ha hb =>
    rcases hasDefaultPort_iff.mp ha with ⟨hsa, hpa⟩ | ⟨hsa, hpa⟩ <;>
      rcases hasDefaultPort_iff.mp hb with ⟨hsb, hpb⟩ | ⟨hsb, hpb⟩
    · rw [hpa, hpb]
    · rw [hscheme, hsb] at hsa
      exact absurd hsa (by decide)
    · rw [hscheme, hsb] at hsa
      exact absurd hsa (by decide)
    · rw [hpa, hpb]
  · cases h
  · cases h
  · exact Option.some.inj h

theorem Legible.path_inj (ha : a.Legible) (hb : b.Legible)
    (h : a.path ++ Url.queryText a.query = b.path ++ Url.queryText b.query) :
    a.path = b.path ∧ a.query = b.query := by
  have hpath : ∀ {l : Location}, l.Legible → ∀ c ∈ l.path, (c != '?') = true := by
    intro l hl c hc
    rw [bne_iff_ne]
    rintro rfl
    exact hl.mark hc
  obtain ⟨hsame, htail⟩ := Text.append_inj_of_run (hpath ha) (hpath hb)
    (Url.startsWith_queryText rfl a.query) (Url.startsWith_queryText rfl b.query) h
  exact ⟨hsame, Url.queryText_inj.mp htail⟩

/-- **No two locations look alike.**  Legible locations with the same display are the same, and those
with the same base agree in scheme, host and port. -/
theorem display_inj (a b : Location) (ha : a.Legible) (hb : b.Legible) :
    (a.display = b.display ↔ a = b) ∧
    (a.base = b.base ↔ a.scheme = b.scheme ∧ a.host = b.host ∧ a.port = b.port) := by
  constructor
  · refine ⟨fun h => ?_, congrArg display⟩
    rw [display_eq, display_eq] at h
    obtain ⟨hscheme, hrest⟩ := Text.append_cons_inj ha.scheme hb.scheme h
    obtain ⟨hauthority, htail⟩ := Text.append_inj_of_run (fun _ => ha.isAuthorityChar)
      (fun _ => hb.isAuthorityChar) ha.startsWith_path hb.startsWith_path
      (List.cons.inj (List.cons.inj hrest).2).2
    obtain ⟨hhost, hport⟩ := ha.authority_inj hb hauthority
    obtain ⟨hpath, hquery⟩ := ha.path_inj hb htail
    have hnumber := port_inj hscheme hport
    cases a
    cases b
    simp_all
  · constructor
    · intro h
      rw [base_eq, base_eq] at h
      obtain ⟨hscheme, hrest⟩ := Text.append_cons_inj ha.scheme hb.scheme h
      obtain ⟨hhost, hport⟩ := ha.authority_inj hb (List.cons.inj (List.cons.inj hrest).2).2
      exact ⟨hscheme, hhost, port_inj hscheme hport⟩
    · rintro ⟨hscheme, hhost, hport⟩
      have htext : a.displayedPort = b.displayedPort := by
        unfold displayedPort hasDefaultPort
        rw [hscheme, hport]
      rw [base_eq, base_eq, hscheme, hhost, htext]

/-- Two addresses in brackets, and a port that could be the end of one. -/
theorem display_inj_brackets :
    ∃ a b : Location, a.Legible ∧ b.Legible ∧
      a.display = Text.ofString "http://[::1:80]/?a?b" ∧
      b.display = Text.ofString "http://[::1]:81?a?b" ∧
      a ≠ b ∧ a.base ≠ b.base := by
  let a : Location := ⟨Text.ofString "http", Text.ofString "[::1:80]", 80, ['/'],
    Text.ofString "a?b"⟩
  let b : Location := ⟨Text.ofString "http", Text.ofString "[::1]", 81, [],
    Text.ofString "a?b"⟩
  have ha : a.Legible := ⟨by decide, by decide, colon_of_enclosed (Text.ofString "::1:80") rfl,
    .inr rfl, by decide⟩
  have hb : b.Legible := ⟨by decide, by decide, colon_of_enclosed (Text.ofString "::1") rfl,
    .inl rfl, by decide⟩
  obtain ⟨hdisplay, hbase⟩ := display_inj a b ha hb
  have hda : a.display = Text.ofString "http://[::1:80]/?a?b" := by decide
  have hdb : b.display = Text.ofString "http://[::1]:81?a?b" := by decide
  refine ⟨a, b, ha, hb, hda, hdb, fun heq => ?_, fun heq => ?_⟩
  · exact absurd (hdisplay.mpr heq) (by rw [hda, hdb]; decide)
  · exact absurd (hbase.mp heq).2.1 (by decide)

end UriRouting.Location
