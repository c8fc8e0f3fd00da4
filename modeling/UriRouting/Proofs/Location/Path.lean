/-
# UriRouting.Proofs.Location.Path — the path that a user means

A text that starts with a slash is no absolute URL: cleaning it takes nothing off its front, and no
scheme starts with a slash.  So it is the path that its user means, as it is.

Otherwise the path is the text itself, or that of a URL with a host (`pathOf_eq_self_or`).  The latter
was put together from segments, so it starts with a slash or, in a scheme without fixed rules, is
empty (`path_of_read`).  A text of that kind names no URL whatever the segments hold, so what the user
means is settled once its path was taken (`pathOf_settles`).
-/
import UriRouting.Location
import UriRouting.Proofs.Location.RoundTrip
import UriRouting.Proofs.Text.Runs

namespace UriRouting

theorem Url.clean_slash (s : Text) : ∃ rest, Url.clean ('/' :: s) = '/' :: rest := by
  unfold Url.clean
  rw [Text.trimWith_cons_of_neg (by decide)]
  exact ⟨_, List.filter_cons_of_pos (by decide)⟩

/-- A text that starts with a slash is no absolute URL. -/
theorem Url.read_slash [Idna] (s : Text) : Url.read ('/' :: s) = .error .relativeWithoutBase := by
  obtain ⟨rest, hclean⟩ := Url.clean_slash s
  unfold Url.read
  rw [hclean]
  rfl

theorem Location.pathOf_slash [Url.Idna] (s : Text) : Location.pathOf ('/' :: s) = '/' :: s := by
  unfold Location.pathOf Location.read
  rw [Url.read_slash]
  rfl

end UriRouting

namespace UriRouting.Location

variable {s : Text} {l : Location}

/-- **`IsRooted path`** — the path of a URL: empty, or with a slash in front. -/
def IsRooted (path : Text) : Prop := path = [] ∨ path.head? = some '/'

section

variable [Url.Idna]

/-- **A URL with a host has a path that is empty or starts with a slash.** -/
theorem path_of_read (hread : read s = .ok l) (hhost : l.host ≠ []) : IsRooted l.path := by
  obtain ⟨u, h, hu, hh, rfl⟩ := exists_url_of_read hread hhost
  exact (Url.isPath_of_read hu hh).2.eq_nil_or

theorem pathOf_eq_self_or (s : Text) :
    pathOf s = s ∨ ∃ l, read s = .ok l ∧ l.host ≠ [] ∧ pathOf s = l.path := by
  unfold pathOf
  split
  · next l hread =>
    split
    · exact .inl rfl
    · next hhost => exact .inr ⟨l, hread, hhost, rfl⟩
  · exact .inl rfl

/-- Neither a text that starts with a slash nor the empty one is a URL. -/
theorem pathOf_of_isRooted (hs : IsRooted s) : pathOf s = s := by
  rcases hs with rfl | hs
  · rfl
  · obtain ⟨rest, rfl⟩ := List.head?_eq_some_iff.mp hs
    exact pathOf_slash rest

/-- **The path that a user means is settled once it was taken**, whatever names have a form in ASCII.
A text that starts with a slash is kept; what a text is replaced with is empty or starts with a
slash; and no path is taken for a URL again. -/
theorem pathOf_settles (s : Text) :
    (s.head? = some '/' → pathOf s = s) ∧
    (pathOf s ≠ s → pathOf s = [] ∨ (pathOf s).head? = some '/') ∧
    pathOf (pathOf s) = pathOf s := by
  refine ⟨fun hslash => pathOf_of_isRooted (.inr hslash), ?_⟩
  rcases pathOf_eq_self_or s with hself | ⟨l, hread, hhost, hpath⟩
  · exact ⟨fun hne => absurd hself hne, by rw [hself, hself]⟩
  · have hrooted : IsRooted (pathOf s) := hpath ▸ path_of_read hread hhost
    exact ⟨fun _ => hrooted, pathOf_of_isRooted hrooted⟩

end

/-- A path may start with two slashes or look like a URL behind its first one. -/
example :
    pathOf (Text.ofString " foo://h?x") = [] ∧
      pathOf (Text.ofString "http:h//http://g/x") = Text.ofString "//http://g/x" ∧
      pathOf (Text.ofString "foo:/h/x") = Text.ofString "foo:/h/x" := by decide

end UriRouting.Location
