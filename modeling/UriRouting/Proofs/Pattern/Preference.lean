/-
# UriRouting.Proofs.Pattern.Preference — cutting a path into the pieces of a template

A path fits the tokens of a template if it can be cut into consecutive pieces, one for each token in
order, each of them accepted by its token (`IsCutting`).

A path may have many cuttings for the same tokens.  Two of them are compared at the first token
whose pieces differ: a placeholder prefers the shorter piece, a wildcard of either form the longer
one (`Preferred`).  A path has at most one cutting that is preferred to every other
(`IsPreferred.unique`).
-/
import UriRouting.Template.Basic
import Mathlib.Data.List.Basic

namespace UriRouting

/-- **`Token.Accepts token piece`** — the texts that a token may be cut: a literal exactly its text,
a placeholder a non-empty text without slash, a remainder wildcard any text, and a segments wildcard
a text that is empty or starts with a slash. -/
def Token.Accepts : Token → Text → Prop
  | .literal text, piece => piece = text
  | .placeholder _ _, piece => piece ≠ [] ∧ '/' ∉ piece
  | .wildcard _ .remainder, _ => True
  | .wildcard _ .segments, piece => piece = [] ∨ piece.head? = some '/'

/-- **`Token.Prefers token a b`** — the token would rather be cut `a` than `b`.  A literal has no
choice. -/
def Token.Prefers : Token → Text → Text → Prop
  | .literal _, _, _ => False
  | .placeholder _ _, a, b => a.length < b.length
  | .wildcard _ _, a, b => b.length < a.length

theorem Token.Prefers.asymm {token : Token} {a b : Text} (h : token.Prefers a b) :
    ¬ token.Prefers b a := by
  cases token with
  | literal text => exact h.elim
  | placeholder v m => exact Nat.lt_asymm h
  | wildcard v f => exact Nat.lt_asymm h

theorem Token.Prefers.ne {token : Token} {a b : Text} (h : token.Prefers a b) : a ≠ b := by
  rintro rfl
  exact h.asymm h

namespace Pattern

/-- **`IsCutting tokens pieces path`** — the pieces, one for each token and accepted by it, make up
the path. -/
inductive IsCutting : List Token → List Text → Text → Prop
  | nil : IsCutting [] [] []
  | cons {token tokens piece pieces rest} (h : token.Accepts piece)
    (hr : IsCutting tokens pieces rest) :
    IsCutting (token :: tokens) (piece :: pieces) (piece ++ rest)

/-- **`Preferred tokens as bs`** — at the first token where the cuttings `as` and `bs` differ, the
token prefers its piece in `as`. -/
inductive Preferred : List Token → List Text → List Text → Prop
  | here {token tokens a b as bs} (h : token.Prefers a b) :
    Preferred (token :: tokens) (a :: as) (b :: bs)
  | later {token tokens a as bs} (h : Preferred tokens as bs) :
    Preferred (token :: tokens) (a :: as) (a :: bs)

/-- **`IsPreferred tokens pieces path`** — of all cuttings of the path, `pieces` is the one that is
preferred to every other. -/
structure IsPreferred (tokens : List Token) (pieces : List Text) (path : Text) : Prop where
  cutting : IsCutting tokens pieces path
  least : ∀ other, IsCutting tokens other path → other ≠ pieces → Preferred tokens pieces other

/-! ## Cuttings, token by token -/

theorem isCutting_nil_iff {pieces : List Text} {path : Text} :
    IsCutting [] pieces path ↔ pieces = [] ∧ path = [] := by
  constructor
  · intro h
    cases h
    exact ⟨rfl, rfl⟩
  · rintro ⟨rfl, rfl⟩
    exact .nil

theorem isCutting_cons_iff {token : Token} {tokens : List Token} {all : List Text} {path : Text} :
    IsCutting (token :: tokens) all path ↔
      ∃ piece pieces rest, all = piece :: pieces ∧ path = piece ++ rest ∧
        token.Accepts piece ∧ IsCutting tokens pieces rest := by
  constructor
  · intro h
    cases h with
    | cons h hr => exact ⟨_, _, _, rfl, rfl, h, hr⟩
  · rintro ⟨piece, pieces, rest, rfl, rfl, h, hr⟩
    exact .cons h hr

/-- A cutting has one piece for each token. -/
theorem IsCutting.length_eq {tokens : List Token} {pieces : List Text} {path : Text}
    (h : IsCutting tokens pieces path) : pieces.length = tokens.length := by
  induction h with
  | nil => rfl
  | cons h hr ih => simp [ih]

/-- A path is cut by tokens in a row where one part of it is cut by the ones and the rest by the
others. -/
theorem exists_cutting_append_iff {as bs : List Token} {path : Text} :
    (∃ pieces, IsCutting (as ++ bs) pieces path) ↔
      ∃ s t, path = s ++ t ∧ (∃ pieces, IsCutting as pieces s) ∧ ∃ pieces, IsCutting bs pieces t := by
  induction as generalizing path with
  | nil =>
    constructor
    · rintro ⟨pieces, hcut⟩
      exact ⟨[], path, rfl, ⟨[], .nil⟩, pieces, hcut⟩
    · rintro ⟨s, t, rfl, ⟨_, hnil⟩, pieces, hcut⟩
      obtain ⟨-, rfl⟩ := isCutting_nil_iff.mp hnil
      exact ⟨pieces, hcut⟩
  | cons a as ih =>
    constructor
    · rintro ⟨all, hall⟩
      obtain ⟨piece, pieces, rest, rfl, rfl, hacc, hrest⟩ := isCutting_cons_iff.mp hall
      obtain ⟨s, t, rfl, ⟨pieces, has⟩, hbs⟩ := ih.mp ⟨pieces, hrest⟩
      exact ⟨piece ++ s, t, (List.append_assoc piece s t).symm, ⟨_, .cons hacc has⟩, hbs⟩
    · rintro ⟨s, t, rfl, ⟨all, hall⟩, hbs⟩
      obtain ⟨piece, pieces, rest, rfl, rfl, hacc, has⟩ := isCutting_cons_iff.mp hall
      obtain ⟨pieces, hrest⟩ := ih.mpr ⟨rest, t, rfl, ⟨pieces, has⟩, hbs⟩
      rw [List.append_assoc]
      exact ⟨_, .cons hacc hrest⟩

/-! ## At most one cutting is preferred -/

theorem Preferred.asymm {tokens : List Token} {as bs : List Text} (h : Preferred tokens as bs) :
    ¬ Preferred tokens bs as := by
  induction h with
  | here h =>
    intro h'
    cases h' with
    | here h' => exact h.asymm h'
    | later h' => exact h.ne rfl
  | later h ih =>
    intro h'
    cases h' with
    | here h' => exact h'.ne rfl
    | later h' => exact ih h'

/-- A path has at most one preferred cutting. -/
theorem IsPreferred.unique {tokens : List Token} {as bs : List Text} {path : Text}
    (ha : IsPreferred tokens as path) (hb : IsPreferred tokens bs path) : as = bs := by
  by_contra hne
  have hab := ha.least bs hb.cutting (Ne.symm hne)
  have hba := hb.least as ha.cutting hne
  exact hab.asymm hba

end Pattern

end UriRouting
