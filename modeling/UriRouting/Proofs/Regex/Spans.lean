/-
# UriRouting.Proofs.Regex.Spans — what small expressions span

`Spans` is a relation between an expression, a text and two places.  The lemmas of this module say
what it is for the expressions that put others together and for those that look at a place.
-/
import UriRouting.Regex.Basic
import Mathlib.Data.List.Basic

namespace UriRouting.Regex

variable [Unicode]

theorem Charset.contains_single_iff {c d : Char} : (single c).contains d = true ↔ d = c := by
  simp only [single, contains, inRanges, List.any_cons, List.any_nil, Bool.or_false, Bool.and_eq_true,
    decide_eq_true_eq]
  constructor
  · rintro ⟨hle, hge⟩
    exact Char.toNat_inj.mp (Nat.le_antisymm hge hle)
  · rintro rfl
    exact ⟨Nat.le_refl _, Nat.le_refl _⟩

theorem Charset.contains_all (c : Char) : all.contains c = true := by
  have hc : c.toNat ≤ 0x10FFFF := by
    have := c.valid
    simp only [UInt32.isValidChar, Nat.isValidChar] at this
    show c.val.toNat ≤ 0x10FFFF
    omega
  simp [all, contains, inRanges, hc]

/-- What an expression reads lies inside the text. -/
theorem Spans.bounds {r : Regex} {t : Text} {i j : Nat} (h : Spans r t i j) :
    i ≤ j ∧ j ≤ t.length := by
  induction h with
  | empty h => exact ⟨Nat.le_refl _, h⟩
  | set h hc =>
    obtain ⟨hlt, _⟩ := List.getElem?_eq_some_iff.mp h
    exact ⟨Nat.le_succ _, hlt⟩
  | look h hl => exact ⟨Nat.le_refl _, h⟩
  | cat ha hb iha ihb => exact ⟨Nat.le_trans iha.1 ihb.1, ihb.2⟩
  | altLeft h ih => exact ih
  | altRight h ih => exact ih
  | timesNone h => exact ⟨Nat.le_refl _, h⟩
  | timesMust hr h hm ihr ih => exact ⟨Nat.le_trans ihr.1 ih.1, ih.2⟩
  | timesMay hr h hm ihr ih => exact ⟨Nat.le_trans ihr.1 ih.1, ih.2⟩
  | group h ih => exact ih

theorem spans_group_iff {capturing : Bool} {r : Regex} {t : Text} {i j : Nat} :
    Spans (.group capturing r) t i j ↔ Spans r t i j := by
  constructor
  · intro h
    cases h with
    | group h => exact h
  · exact .group

/-- A sequence reads part by part. -/
theorem spans_catAll_cons_iff {r : Regex} {rs : List Regex} {t : Text} {i k : Nat} :
    Spans (catAll (r :: rs)) t i k ↔ ∃ j, Spans r t i j ∧ Spans (catAll rs) t j k := by
  cases rs with
  | nil =>
    constructor
    · intro h
      exact ⟨k, h, .empty h.bounds.2⟩
    · rintro ⟨j, hr, hrest⟩
      cases hrest with
      | empty _ => exact hr
  | cons s rs =>
    constructor
    · intro h
      cases h with
      | cat hr hrs => exact ⟨_, hr, hrs⟩
    · rintro ⟨j, hr, hrs⟩
      exact .cat hr hrs

/-- The end of a text is where nothing follows. -/
theorem spans_textEnd_iff {t : Text} {i j : Nat} :
    Spans (.look .textEnd) t i j ↔ i = t.length ∧ j = t.length := by
  constructor
  · intro h
    cases h with
    | look hle hl =>
      have hnone : t[i]? = none := Option.isNone_iff_eq_none.mp hl
      have hge := List.getElem?_eq_none_iff.mp hnone
      exact ⟨Nat.le_antisymm hle hge, Nat.le_antisymm hle hge⟩
  · rintro ⟨rfl, rfl⟩
    refine .look (Nat.le_refl _) ?_
    show t[t.length]?.isNone = true
    rw [List.getElem?_length]
    rfl

/-- The start of a text is before its first character. -/
theorem spans_textStart_iff {t : Text} {i j : Nat} :
    Spans (.look .textStart) t i j ↔ i = 0 ∧ j = 0 := by
  constructor
  · intro h
    cases h with
    | look hle hl =>
      cases i with
      | zero => exact ⟨rfl, rfl⟩
      | succ i =>
        have hnone : t[i]? = none := Option.isNone_iff_eq_none.mp hl
        have hge := List.getElem?_eq_none_iff.mp hnone
        omega
  · rintro ⟨rfl, rfl⟩
    exact .look (Nat.zero_le _) rfl

end UriRouting.Regex
