/-
# UriRouting.Proofs.Binding.WholeValue — values that an expression matches as a whole

A resolver made of an expression is to accept the texts that the expression matches from their first
to their last character.  It is made of a text, which is put between a start and an end of text before
a library compiles it.  Where the text is an expression by itself, the two say the same: the expression
in between is the one that is written (`Regex.read_enclosed`), and it matches from end to end
(`Regex.matches_enclosed_iff`).  Where the text closes a parenthesis that it does not open, the start
and the end go to different parts of what is read, and a value is accepted that only begins or ends as
said.
-/
import UriRouting.Binding.Binder
import UriRouting.Proofs.Regex.Enclosed

namespace UriRouting

namespace Regex

variable [Unicode] {r : Regex} {t : Text}

/-- An enclosed expression matches a text exactly if the expression reads all of it. -/
theorem matches_enclosed_iff : Matches (enclosed r) t ↔ Spans r t 0 t.length := by
  have hspans : ∀ i j, Spans (enclosed r) t i j ↔ i = 0 ∧ j = t.length ∧ Spans r t 0 t.length := by
    intro i j
    unfold enclosed
    simp only [spans_catAll_cons_iff, spans_textStart_iff, spans_group_iff, spans_textEnd_iff]
    constructor
    · rintro ⟨_, ⟨rfl, rfl⟩, _, hr, _, ⟨rfl, rfl⟩, hempty⟩
      cases hempty
      exact ⟨rfl, rfl, hr⟩
    · rintro ⟨rfl, rfl, hr⟩
      exact ⟨0, ⟨rfl, rfl⟩, _, hr, _, ⟨rfl, rfl⟩, .empty (Nat.le_refl _)⟩
  constructor
  · rintro ⟨i, j, h⟩
    exact ((hspans i j).mp h).2.2
  · intro h
    exact ⟨0, t.length, (hspans _ _).mpr ⟨rfl, rfl, h⟩⟩

/-- **The library of the reader and the search keeps to the syntax and the meaning** of expressions:
the reader refuses a repetition that asks for more rounds than it allows, and whatever else it reads
is searched for faithfully. -/
theorem Library.ofReader_isFaithful : Library.ofReader.IsFaithful where
  exists_read h := ⟨_, (compile_eq_ok_iff.mp (mapError_eq_ok_iff.mp h)).1⟩
  isMatch_iff {t value compiled r} h hread := by
    obtain ⟨hcompiled, -⟩ := compile_eq_ok_iff.mp (mapError_eq_ok_iff.mp h)
    obtain rfl : compiled = r := Except.ok.inj (hcompiled.symm.trans hread)
    exact isMatch_iff (isBounded_of_read hread)

end Regex

namespace Resolver

/-- **The resolver of an expression accepts whole values**, whatever the library that keeps to the
syntax and the meaning of expressions.  If a resolver is made of a text, and the text by itself closes
no parenthesis that it does not open, then the text by itself is an expression, and a value is accepted
exactly if the expression reads it from its first to its last character. -/
theorem regex_whole [Regex.Unicode] [library : Regex.Library] (hlibrary : library.IsFaithful)
    {pattern : Text} {resolver : Resolver} (h : Resolver.regex pattern = .ok resolver)
    (hopened : Regex.read pattern ≠ .error .unopenedGroup) :
    ∃ r, Regex.read pattern = .ok r ∧ ∀ raw value, resolver raw = some value ↔
      value = .string raw ∧ Regex.Spans r raw 0 raw.length := by
  obtain ⟨compiled, hcompile, hresolver⟩ := bind_eq_ok_iff.mp h
  obtain ⟨w, hw⟩ := hlibrary.exists_read hcompile
  rcases Regex.read_enclosed hw with hunopened | ⟨r, hr, rfl⟩
  · exact absurd hunopened hopened
  · refine ⟨r, hr, fun raw value => ?_⟩
    obtain rfl := Except.ok.inj hresolver
    rw [← Regex.matches_enclosed_iff, ← hlibrary.isMatch_iff hcompile hw]
    show (if library.isMatch compiled raw then some (.string raw) else none) = some value ↔ _
    split
    case isTrue haccepts => simp [haccepts, eq_comm]
    case isFalse hrefuses => simp [hrefuses]

/-- The shorter branch comes first, and the longer one is taken where the value needs it. -/
theorem regex_whole_choice :
    ∃ resolver r, Resolver.regex (Text.ofString "a|ab") = .ok resolver ∧
      Regex.read (Text.ofString "a|ab") = .ok r ∧
      resolver (Text.ofString "ab") = some (.string (Text.ofString "ab")) ∧
      Regex.Spans r (Text.ofString "ab") 0 2 ∧ ¬ Regex.Spans r (Text.ofString "abb") 0 3 := by
  obtain ⟨resolver, hregex, haccepts, hrefuses⟩ : ∃ resolver,
      Resolver.regex (Text.ofString "a|ab") = .ok resolver ∧
      resolver (Text.ofString "ab") = some (.string (Text.ofString "ab")) ∧
      resolver (Text.ofString "abb") = none := ⟨_, rfl, rfl, rfl⟩
  obtain ⟨r, hr, hiff⟩ := regex_whole Regex.Library.ofReader_isFaithful hregex (by decide)
  refine ⟨resolver, r, hregex, hr, haccepts, ((hiff _ _).mp haccepts).2, fun hspans => ?_⟩
  have haccepts' := (hiff (Text.ofString "abb") _).mpr ⟨rfl, hspans⟩
  rw [hrefuses] at haccepts'
  cases haccepts'

/-- The text `a)|(b` is no expression, and the resolver that is made of it accepts a value for its
beginning. -/
theorem regex_unopened :
    ∃ resolver, Resolver.regex (Text.ofString "a)|(b") = .ok resolver ∧
      resolver (Text.ofString "ax") = some (.string (Text.ofString "ax")) ∧
      Regex.read (Text.ofString "a)|(b") = .error .unopenedGroup :=
  ⟨_, rfl, rfl, rfl⟩

end Resolver

end UriRouting
