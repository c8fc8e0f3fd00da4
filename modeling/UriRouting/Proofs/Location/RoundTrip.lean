/-
# UriRouting.Proofs.Location.RoundTrip — a displayed location is a URL for the same place

A location with a host is displayed as the URL that it was read from, with its parts well-formed
(`display_ofUrl`).  The port that a URL leaves out is displayed all the same, unless it is the one of
the web; reading tells the known port of the scheme from any other, and from no port, so the port
comes back too (`port_displayedPort`).  Hence a displayed location names the place that it was read
from (`read_display`), whatever its scheme and whatever names have a form in ASCII, except for a file:
files have no port, and with the one that is displayed, zero, the text is no URL any more.
-/
import UriRouting.Proofs.Location.Display
import UriRouting.Proofs.Url.RoundTrip

namespace UriRouting.Location

variable {s : Text} {l : Location} {u : Url} {h : Url.Host}

/-- **`shown u`** — the URL that is displayed for the location that a URL names. -/
def shown (u : Url) : Url := { u with port := (ofUrl u).displayedPort }

/-- A location is displayed as a URL with its parts. -/
theorem display_ofUrl (hh : u.host = some h) : (ofUrl u).display = (shown u).text h := by
  have hhost : (ofUrl u).host = h.render := by
    rw [ofUrl, hh]
    rfl
  rw [display_eq, hhost]
  rfl

/-! ## Ports -/

theorem knownPort_le {scheme : Text} {n : Nat} (hn : Url.knownPort scheme = some n) :
    n ≤ Url.portLimit := by
  have hall : ∀ entry ∈ Url.knownPorts, entry.2 ≤ Url.portLimit := by decide
  obtain ⟨before, after, hsplit, -⟩ := List.lookup_eq_some_iff.mp hn
  refine hall (scheme, n) ?_
  rw [hsplit]
  exact List.mem_append_right before List.mem_cons_self

theorem port_le (hport : ∀ n, u.port = some n → n ≤ Url.portLimit) :
    (ofUrl u).port ≤ Url.portLimit := by
  show (u.port.or (Url.knownPort u.scheme)).getD 0 ≤ Url.portLimit
  cases hp : u.port with
  | some n => exact hport n hp
  | none =>
    cases hknown : Url.knownPort u.scheme with
    | some n => exact knownPort_le hknown
    | none => exact Nat.zero_le _

/-- **The port comes back**, displayed or not. -/
theorem port_displayedPort (l : Location) :
    ((Url.unknownPort l.scheme l.displayedPort).or (Url.knownPort l.scheme)).getD 0 = l.port := by
  unfold displayedPort Url.unknownPort
  split
  · next hdefault =>
    -- a port is left out only if it is the known one of the scheme
    rcases hasDefaultPort_iff.mp hdefault with ⟨hscheme, hport⟩ | ⟨hscheme, hport⟩
    · rw [hscheme, hport]
      decide
    · rw [hscheme, hport]
      decide
  · split
    · next hknown =>
      -- a displayed port that is the known one is forgotten, and filled in again
      rw [← hknown]
      rfl
    · rfl

/-! ## Reading a display -/

theorem ofUrl_eq {port : Option Nat} {query : Option Text} (hh : u.host = some h)
    (hport : (port.or (Url.knownPort u.scheme)).getD 0 = (ofUrl u).port)
    (hquery : query.getD [] = u.query.getD []) :
    ofUrl ⟨u.scheme, some h, port, u.path, query⟩ = ofUrl u := by
  have hhost : (u.host.map Url.Host.render).getD [] = h.render := by
    rw [hh]
    rfl
  simp only [ofUrl] at hport ⊢
  rw [hport, hquery, hhost]
  rfl

section

variable [idna : Url.Idna]

theorem exists_url_of_read (hread : read s = .ok l) (hhost : l.host ≠ []) :
    ∃ u h, Url.read s = .ok u ∧ u.host = some h ∧ l = ofUrl u := by
  obtain ⟨u, hu, rfl⟩ := map_eq_ok_iff.mp hread
  cases hh : u.host with
  | none =>
    refine absurd ?_ hhost
    rw [ofUrl, hh]
    rfl
  | some h => exact ⟨u, h, hu, hh, rfl⟩

/-- **A displayed location is a URL for the same place**, unless it is a file: then it is no URL. -/
theorem read_display (hidna : idna.IsLawful) (s : Text) (l : Location) (hread : read s = .ok l)
    (hhost : l.host ≠ []) :
    (l.scheme ≠ Text.ofString "file" → read l.display = .ok l) ∧
    (l.scheme = Text.ofString "file" → ∃ e, read l.display = .error e) := by
  obtain ⟨u, h, hu, hh, rfl⟩ := exists_url_of_read hread hhost
  obtain ⟨hscheme, hform⟩ := Url.isFormed_of_read hidna hu hh
  have hshown : (shown u).IsFormed (Url.Kind.ofScheme (shown u).scheme) h := by
    refine ⟨hform.host, fun n hn => ?_, hform.path, hform.query⟩
    dsimp only [shown, displayedPort] at hn
    split at hn
    · cases hn
    · obtain rfl := Option.some.inj hn
      exact port_le hform.port
  rw [display_ofUrl hh]
  constructor
  · intro hfile
    obtain ⟨query, hagain, hquery⟩ := Url.read_text hidna (u := shown u) hscheme hshown
      fun hkind => hfile (Url.ofScheme_eq_file_iff.mp hkind)
    rw [read, hagain]
    exact congrArg Except.ok (ofUrl_eq hh (port_displayedPort (ofUrl u)) hquery)
  · intro hfile
    have hport : (ofUrl u).displayedPort = some (ofUrl u).port := by
      have hdefault : (ofUrl u).hasDefaultPort = false := by
        rw [hasDefaultPort, hfile]
        rfl
      rw [displayedPort, hdefault]
      rfl
    obtain ⟨e, hagain⟩ := Url.read_text_file hidna (u := shown u) hscheme hshown
      (Url.ofScheme_eq_file_iff.mpr hfile) hport
    exact ⟨e, by rw [read, hagain]; rfl⟩

end

/-- An address in a scheme without known port, with an empty query that is not displayed. -/
theorem read_display_unknown_port :
    ∃ l : Location, read (Text.ofString "Foo://me@[1:0:0:0:0:0:0:2]:\\?#x") = .ok l ∧
      l.host ≠ [] ∧ l.scheme ≠ Text.ofString "file" ∧
      l.display = Text.ofString "foo://[1::2]:0/\\" ∧ read l.display = .ok l := by
  let l : Location := ⟨Text.ofString "foo", Text.ofString "[1::2]", 0, Text.ofString "/\\", []⟩
  have hread : read (Text.ofString "Foo://me@[1:0:0:0:0:0:0:2]:\\?#x") = .ok l := by decide
  have hhost : l.host ≠ [] := by decide
  have hscheme : l.scheme ≠ Text.ofString "file" := by decide
  have hidna := Url.Idna.plainOnly_isLawful
  exact ⟨l, hread, hhost, hscheme, by decide, (read_display hidna _ l hread hhost).1 hscheme⟩

/-- The URL of a file with a host: its display has a port, and is no URL. -/
theorem not_read_display_file :
    ∃ l : Location, read (Text.ofString "file://h/x") = .ok l ∧ l.host ≠ [] ∧
      l.display = Text.ofString "file://h:0/x" ∧ read l.display = .error .invalidInternetName :=
  ⟨⟨Text.ofString "file", ['h'], 0, Text.ofString "/x", []⟩, by decide, by decide, by decide,
    by decide⟩

end UriRouting.Location
