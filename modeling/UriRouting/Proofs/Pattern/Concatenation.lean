/-
# UriRouting.Proofs.Pattern.Concatenation — the pattern of one template behind another

Where one template is written behind another their tokens are joined, and two literals that touch
become one.  Nothing that is made of the tokens sees that seam: not the score, which counts the
characters of the literals, not the expanded text, and not the paths that can be cut
(`scoreOf_joined`, `flatMap_expand_joined`, `exists_cutting_joined_iff`).  So a pattern for two
templates in a row is the two patterns in a row.
-/
import UriRouting.Proofs.Pattern.Score
import UriRouting.Proofs.Template.Concatenation

namespace UriRouting.Pattern

open Template (joined joined_cases)

variable {as bs tokens : List Token} {g g' path : Text}

/-! ## The score and the expansion -/

theorem scoreOf_append (as bs : List Token) : scoreOf (as ++ bs) = scoreOf as + scoreOf bs := by
  induction as with
  | nil => exact (Int.zero_add _).symm
  | cons a as ih => rw [List.cons_append, scoreOf_cons, scoreOf_cons, ih, Int.add_assoc]

theorem tokenScore_literal_append (g g' : Text) :
    tokenScore (.literal (g ++ g')) = tokenScore (.literal g) + tokenScore (.literal g') := by
  show 16 * ((g ++ g').length : Int) = 16 * (g.length : Int) + 16 * (g'.length : Int)
  rw [List.length_append]
  omega

theorem scoreOf_joined (as bs : List Token) :
    scoreOf (joined as bs) = scoreOf as + scoreOf bs := by
  rcases joined_cases as bs with ⟨front, g, g', back, rfl, rfl, hjoined⟩ | hjoined
  · rw [hjoined, scoreOf_append, scoreOf_append]
    simp only [scoreOf_cons, tokenScore_literal_append]
    show _ + _ = _ + (_ + 0) + _
    omega
  · rw [hjoined, scoreOf_append]

theorem flatMap_expand_joined (params : Params) (as bs : List Token) :
    (joined as bs).flatMap (Token.expand params) =
      as.flatMap (Token.expand params) ++ bs.flatMap (Token.expand params) := by
  rcases joined_cases as bs with ⟨front, g, g', back, rfl, rfl, hjoined⟩ | hjoined
  · rw [hjoined]
    simp [Token.expand]
  · rw [hjoined, List.flatMap_append]

/-! ## The paths that can be cut -/

/-- A literal is cut off as two literals are that make it up. -/
theorem exists_cutting_literal_append_iff :
    (∃ pieces, IsCutting (.literal (g ++ g') :: tokens) pieces path) ↔
      ∃ pieces, IsCutting (.literal g :: .literal g' :: tokens) pieces path := by
  constructor
  · rintro ⟨all, hall⟩
    obtain ⟨piece, pieces, rest, -, rfl, hacc, hrest⟩ := isCutting_cons_iff.mp hall
    obtain rfl : piece = g ++ g' := hacc
    rw [List.append_assoc]
    exact ⟨_, .cons rfl (.cons rfl hrest)⟩
  · rintro ⟨all, hall⟩
    obtain ⟨piece, _, rest, -, rfl, hacc, hmore⟩ := isCutting_cons_iff.mp hall
    obtain ⟨piece', pieces, rest', -, rfl, hacc', hrest⟩ := isCutting_cons_iff.mp hmore
    obtain rfl : piece = g := hacc
    obtain rfl : piece' = g' := hacc'
    rw [← List.append_assoc]
    exact ⟨_, .cons rfl hrest⟩

theorem exists_cutting_joined_iff :
    (∃ pieces, IsCutting (joined as bs) pieces path) ↔
      ∃ s t, path = s ++ t ∧ (∃ pieces, IsCutting as pieces s) ∧ ∃ pieces, IsCutting bs pieces t := by
  rw [← exists_cutting_append_iff]
  rcases joined_cases as bs with ⟨front, g, g', back, rfl, rfl, hjoined⟩ | hjoined
  · have hsplit : front ++ [.literal g] ++ .literal g' :: back =
        front ++ .literal g :: .literal g' :: back := by simp
    rw [hjoined, hsplit, exists_cutting_append_iff, exists_cutting_append_iff]
    simp only [exists_cutting_literal_append_iff]
  · rw [hjoined]

/-! ## Two templates in a row -/

/-- **Templates compose.**  Let `a` and `b` be templates, the first without a star at its end.  Then
`a` followed by `b` is a template with the tokens of both, of which two literals that touch are one.
Its score is the sum of the scores, it expands to the one text followed by the other, and a path
matches it exactly if a front part of the path matches `a` and the rest matches `b`. -/
theorem compile_append {a b : Text} (ha : Template.digest Expression.read a = .ok as)
    (hb : Template.digest Expression.read b = .ok bs) (hstar : a.getLast? ≠ some '*') :
    Template.digest Expression.read (a ++ b) = .ok (joined as bs) ∧
    ∃ p q both : Pattern, compile a = .ok p ∧ compile b = .ok q ∧ compile (a ++ b) = .ok both ∧
      both.score = p.score + q.score ∧
      (∀ params, both.template.expand params =
        p.template.expand params ++ q.template.expand params) ∧
      ∀ path, both.matchesPath path = true ↔
        ∃ s t, path = s ++ t ∧ p.matchesPath s = true ∧ q.matchesPath t = true := by
  have hboth := Template.digest_append ha hb hstar
  refine ⟨hboth, _, _, _, compile_of_digest ha, compile_of_digest hb, compile_of_digest hboth,
    scoreOf_joined as bs, fun params => flatMap_expand_joined params as bs, fun path => ?_⟩
  simp only [matchesPath_iff_cutting]
  exact exists_cutting_joined_iff

/-- The literal at the end of one template and the one in front of the bare star of the other are
read as one literal. -/
theorem compile_append_literals :
    let a := Text.ofString "/\x7bid\x7d/fi"
    let b := Text.ofString "le*"
    let id : Token := .placeholder ⟨Text.ofString "id", none, none⟩ .plain
    let star : Token := .wildcard Variable.trailing .remainder
    Template.digest Expression.read a = .ok [.literal ['/'], id, .literal (Text.ofString "/fi")] ∧
    Template.digest Expression.read b = .ok [.literal (Text.ofString "le"), star] ∧
    a.getLast? ≠ some '*' ∧
    Template.digest Expression.read (a ++ b) =
      .ok [.literal ['/'], id, .literal (Text.ofString "/file"), star] := by
  intro a b id star
  have ha : Template.digest Expression.read a =
    .ok [.literal ['/'], id, .literal (Text.ofString "/fi")] := rfl
  have hb : Template.digest Expression.read b = .ok [.literal (Text.ofString "le"), star] := rfl
  have hstar : a.getLast? ≠ some '*' := by decide
  exact ⟨ha, hb, hstar, (compile_append ha hb hstar).1⟩

end UriRouting.Pattern
