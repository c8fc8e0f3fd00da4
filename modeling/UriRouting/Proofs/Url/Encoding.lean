/-
# UriRouting.Proofs.Url.Encoding — what is escaped already

What a part of a URL looks like when all is escaped that has to be: visible ASCII (`IsVisible`)
without the marks that end the part.  Escapes are made of percent signs, letters and digits, which
are escaped nowhere, so nothing is left to escape (`mem_encodePath`, `mem_encodeQuery`), and what
is escaped already stays as it is (`encodePath_eq_self`, `encodeQuery_eq_self`).  A query is written
behind a question mark, unless it is empty, and is determined by that (`queryText_inj`).
-/
import UriRouting.Url.Path
import UriRouting.Proofs.Percent

namespace UriRouting.Url

variable {special : Bool} {c : Char} {t : Text}

/-! ## Visible characters -/

/-- **`IsVisible c`** — an ASCII character with a glyph. -/
def IsVisible (c : Char) : Prop := 0x20 < c.toNat ∧ c.toNat < 0x7F

instance (c : Char) : Decidable (IsVisible c) := inferInstanceAs (Decidable (_ ∧ _))

theorem isVisible_of_not_isControl (hcontrol : isControl c = false) (hblank : c ≠ ' ') :
    IsVisible c := by
  simp only [isControl, Bool.or_eq_false_iff, decide_eq_false_iff_not] at hcontrol
  have hne : c.toNat ≠ ' '.toNat := fun heq => hblank (Char.toNat_inj.mp heq)
  change c.toNat ≠ 0x20 at hne
  constructor <;> omega

theorem isControl_eq_false (hc : IsVisible c) : isControl c = false := by
  obtain ⟨hlow, hhigh⟩ := hc
  simp only [isControl, Bool.or_eq_false_iff, decide_eq_false_iff_not]
  constructor <;> omega

theorem isVisible_of_isAlphanum (hc : c.isAlphanum = true) : IsVisible c := by
  have hrange := Text.toNat_of_isAlphanum hc
  constructor <;> omega

/-! ## Paths -/

theorem isVisible_of_inPath (hc : isEscapedInPath c = false) : IsVisible c ∧ c ∉ ['?', '#'] := by
  simp only [isEscapedInPath, Bool.or_eq_false_iff, decide_eq_false_iff_not] at hc
  obtain ⟨hcontrol, hmarks⟩ := hc
  refine ⟨isVisible_of_not_isControl hcontrol ?_, fun hmem => hmarks ?_⟩
  · rintro rfl
    exact hmarks List.mem_cons_self
  · simp only [List.mem_cons, List.not_mem_nil, or_false] at hmem
    rcases hmem with rfl | rfl <;> decide

/-- Nothing is left to escape; what is not from the path are percent signs, letters and digits. -/
theorem mem_encodePath (hc : c ∈ encodePath t) :
    isEscapedInPath c = false ∧ (c ∈ t ∨ c = '%' ∨ c.isAlphanum = true) := by
  rcases Percent.mem_encodeUnless hc with ⟨hmem, hkeep⟩ | rfl | halnum
  · exact ⟨by simpa using hkeep, .inl hmem⟩
  · exact ⟨rfl, .inr (.inl rfl)⟩
  · refine ⟨?_, .inr (.inr halnum)⟩
    rw [isEscapedInPath, isControl_eq_false (isVisible_of_isAlphanum halnum), Bool.false_or,
      decide_eq_false_iff_not]
    exact Text.not_mem_of_isAlphanum (by decide) halnum

theorem encodePath_eq_self (h : ∀ c ∈ t, isEscapedInPath c = false) : encodePath t = t :=
  Percent.encodeUnless_eq_self fun c hc => by simp [h c hc]

/-! ## Queries -/

theorem isVisible_of_inQuery (hc : isEscapedInQuery special c = false) : IsVisible c ∧ c ≠ '#' := by
  simp only [isEscapedInQuery, Bool.or_eq_false_iff, decide_eq_false_iff_not] at hc
  obtain ⟨⟨hcontrol, hmarks⟩, -⟩ := hc
  constructor
  · refine isVisible_of_not_isControl hcontrol ?_
    rintro rfl
    exact hmarks List.mem_cons_self
  · rintro rfl
    exact absurd hmarks (by decide)

theorem mem_encodeQuery (hc : c ∈ encodeQuery special t) : isEscapedInQuery special c = false := by
  rcases Percent.mem_encodeUnless hc with ⟨-, hkeep⟩ | rfl | halnum
  · simpa using hkeep
  · cases special <;> rfl
  · have hapostrophe : c ∉ ['\''] := Text.not_mem_of_isAlphanum (by decide) halnum
    have hmarks : c ∉ [' ', '"', '#', '<', '>'] := Text.not_mem_of_isAlphanum (by decide) halnum
    rw [List.mem_singleton] at hapostrophe
    rw [isEscapedInQuery, isControl_eq_false (isVisible_of_isAlphanum halnum)]
    simp [hmarks, hapostrophe]

/-- **`queryText query`** — a query as it is written; an empty one is left out. -/
def queryText (query : Text) : Text := if query = [] then [] else '?' :: query

theorem startsWith_queryText {p : Char → Bool} (hp : p '?' = false) (query : Text) :
    Text.startsWith p (queryText query) = false := by
  unfold queryText
  split
  · rfl
  · exact hp

theorem queryText_inj {query other : Text} : queryText query = queryText other ↔ query = other := by
  refine ⟨fun h => ?_, congrArg queryText⟩
  unfold queryText at h
  split at h <;> split at h
  · next hquery hother => rw [hquery, hother]
  · cases h
  · cases h
  · exact (List.cons.inj h).2

theorem encodeQuery_eq_self (h : ∀ c ∈ t, isEscapedInQuery special c = false) :
    encodeQuery special t = t :=
  Percent.encodeUnless_eq_self fun c hc => by simp [h c hc]

end UriRouting.Url
