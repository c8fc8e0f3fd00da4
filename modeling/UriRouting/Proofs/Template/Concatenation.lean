/-
# UriRouting.Proofs.Template.Concatenation — one template written behind another

Behind a template without a bare star at its end another text is read as it is read alone.  No brace
of the template is open, so none of its spans reaches over the seam; and no star of it stands
outside the braces, so none becomes misplaced.  All that happens at the seam is that two literals
that touch there are one literal (`joined`).

The reader goes through the template span by span, and each span leaves it in front of what follows
(`digestSpans_append`).  In the last gap it may go on into the first gap of the text behind
(`digestSpans_gap_append`).
-/
import UriRouting.Proofs.Template.Rendering

namespace UriRouting.Template

open Template.Span (IsScan IsGapBefore ofText flatten)

/-! ## The tokens at the seam -/

/-- A token in front of others; two literals that touch are one. -/
def attach : Token → List Token → List Token
  | .literal g, .literal g' :: rest => .literal (g ++ g') :: rest
  | token, rest => token :: rest

/-- **`joined as bs`** — the tokens `as` followed by the tokens `bs`; if the last of the ones and the
first of the others are literals, these are one literal. -/
def joined : List Token → List Token → List Token
  | [], bs => bs
  | [a], bs => attach a bs
  | a :: a' :: as, bs => a :: joined (a' :: as) bs

variable {token : Token} {as bs tokens : List Token}

theorem attach_of_not_literal (h : token.isLiteral = false) (bs : List Token) :
    attach token bs = token :: bs := by
  cases token with
  | literal g => cases h
  | placeholder v m => rfl
  | wildcard v form => rfl

theorem joined_cons_of_not_literal (h : token.isLiteral = false) :
    joined (token :: as) bs = token :: joined as bs := by
  cases as with
  | nil => exact attach_of_not_literal h bs
  | cons a as => rfl

/-- Either two literals are made one, or nothing happens at the seam. -/
theorem joined_cases (as bs : List Token) :
    (∃ front g g' back, as = front ++ [.literal g] ∧ bs = .literal g' :: back ∧
      joined as bs = front ++ .literal (g ++ g') :: back) ∨ joined as bs = as ++ bs := by
  induction as with
  | nil => exact .inr rfl
  | cons a as ih =>
    cases as with
    | cons a' as =>
      rcases ih with ⟨front, g, g', back, hfront, hback, hjoined⟩ | hjoined
      · refine .inl ⟨a :: front, g, g', back, congrArg (a :: ·) hfront, hback, ?_⟩
        exact congrArg (a :: ·) hjoined
      · exact .inr (congrArg (a :: ·) hjoined)
    | nil =>
      cases a with
      | literal g =>
        cases bs with
        | nil => exact .inr rfl
        | cons b bs =>
          cases b with
          | literal g' => exact .inl ⟨[], g, g', bs, rfl, rfl, rfl⟩
          | placeholder v m => exact .inr rfl
          | wildcard v form => exact .inr rfl
      | placeholder v m => exact .inr rfl
      | wildcard v form => exact .inr rfl

/-! ## The spans at the seam -/

variable {spans : List Span} {g g' a b t : Text}

theorem flatten_singleton (g : Text) : flatten [.gap g] = g := List.append_nil g

theorem flatten_expression_append (body : Text) (spans : List Span) (t : Text) :
    flatten (.expression ('{' :: (body ++ ['}'])) :: spans) ++ t =
      '{' :: (body ++ '}' :: (flatten spans ++ t)) := by
  simp [Span.flatten_cons, Span.text]

/-- Text without an opening brace may stand in front of a gap. -/
theorem Span.IsGapBefore.append (h : IsGapBefore g' spans) (hopen : '{' ∉ g) :
    IsGapBefore (g ++ g') spans := by
  induction g with
  | nil => exact h
  | cons c g ih =>
    obtain ⟨hc, hg⟩ := not_or.mp (mt List.mem_cons.mpr hopen)
    exact (ih hg).cons fun h => absurd h.symm hc

/-- In front of a gap it joins the gap. -/
theorem ofText_append_of_gap (hopen : '{' ∉ g) (h : ofText t = .gap g' :: spans) :
    ofText (g ++ t) = .gap (g ++ g') :: spans := by
  obtain ⟨hscan, rfl⟩ := Span.ofText_eq_iff.mp h
  refine Span.ofText_eq_iff.mpr ⟨?_, ?_⟩
  · cases hscan with
    | gap hne hgap hspans => exact .gap (by simp [hne]) (hgap.append hopen) hspans
  · rw [Span.flatten_cons, Span.flatten_cons, Span.text, Span.text, List.append_assoc]

theorem lastGap_append (hne : g ≠ []) (hne' : g' ≠ []) :
    lastGap Expression.read (g ++ g') = attach (.literal g) <$> lastGap Expression.read g' := by
  unfold lastGap
  rw [Text.stripLast_append hne']
  cases Text.stripLast '*' g' with
  | none => rfl
  | some head =>
    -- the star is an expression of its own, and what is in front of it, if anything, joins `g`
    cases head with
    | cons c head =>
      show Except.ok (literal? (g ++ c :: head) ++ [Token.star none]) = _
      rw [literal?_of_ne_nil (by simp)]
      rfl
    | nil =>
      show Except.ok (literal? (g ++ []) ++ [Token.star none]) = _
      rw [List.append_nil, literal?_of_ne_nil hne]
      rfl

variable {position : Nat}

/-- **A literal in front of a gap** joins the literal that the gap begins with. -/
theorem digestSpans_gap_append (hg : IsLiteral g) (hne' : g' ≠ []) :
    digestSpans Expression.read position (.gap (g ++ g') :: spans) =
      attach (.literal g) <$>
        digestSpans Expression.read (position + Text.width g) (.gap g' :: spans) := by
  have hcheck := fun last => checkGap_append last hg.noOpening hg.noClosing hg.noStar position g'
  cases spans with
  | nil =>
    rw [digestSpans_gap_last, digestSpans_gap_last, hcheck, lastGap_append hg.nonempty hne']
    cases checkGap true (position + Text.width g) g' <;> rfl
  | cons span spans =>
    rw [digestSpans_gap_cons, digestSpans_gap_cons, hcheck, Text.width_append, Nat.add_assoc]
    cases checkGap false (position + Text.width g) g' with
    | error e => rfl
    | ok _ =>
      cases digestSpans Expression.read
        (position + (Text.width g + Text.width g')) (span :: spans) <;> rfl

/-! ## Reading on behind a template -/

/-- A template is read alike wherever it stands. -/
theorem digestSpans_of_digest (hb : digest Expression.read b = .ok bs) (position : Nat) :
    digestSpans Expression.read position (ofText b) = .ok bs := by
  have hscan := Span.isScan_ofText b
  exact (digestSpans_eq_ok_iff hscan position).mpr (digest_eq_ok_iff.mp hb).2

/-- A literal in front of a template is attached to its tokens. -/
theorem digestSpans_attach (hg : IsLiteral g) (hb : digest Expression.read b = .ok bs) :
    digestSpans Expression.read position (ofText (g ++ b)) = .ok (attach (.literal g) bs) := by
  have hread := digestSpans_of_digest hb
  obtain ⟨hne, -, hstands⟩ := digest_eq_ok_iff.mp hb
  have hscan := Span.isScan_ofText b
  cases hspans : ofText b with
  | nil =>
    rw [← Span.flatten_ofText b, hspans] at hne
    exact absurd rfl hne
  | cons span spans =>
    rw [hspans] at hscan
    cases hscan with
    | gap hne' _ _ =>
      rw [ofText_append_of_gap hg.noOpening hspans, digestSpans_gap_append hg hne', ← hspans, hread]
      rfl
    | @expression body _ _ _ =>
      -- the first token is that of an expression
      rw [hspans, cutStar_expression] at hstands
      obtain ⟨token, tokens, hfirst, -, rfl⟩ := List.forall₂_cons_left_iff.mp hstands
      have hliteral : token.isLiteral = false := (isGap_eq_isLiteral hfirst).symm
      rw [digestSpans_literal_append hg (by simp [hspans]), hread]
      cases token with
      | literal g' => cases hliteral
      | placeholder v m => rfl
      | wildcard v form => rfl

/-- **Span by span** the reader leaves a template whose gaps are literals, and comes to the template
behind it. -/
theorem digestSpans_append (h : IsScan spans) (hliteral : ∀ g, .gap g ∈ spans → IsLiteral g)
    (hstands : List.Forall₂ (StandsFor Expression.read) spans as)
    (hb : digest Expression.read b = .ok bs) (position : Nat) :
    digestSpans Expression.read position (ofText (flatten spans ++ b)) = .ok (joined as bs) := by
  induction h generalizing as position with
  | nil =>
    cases hstands
    exact digestSpans_of_digest hb position
  | @expression body spans hbody hspans ih =>
    obtain ⟨token, as, hfirst, hrest, rfl⟩ := List.forall₂_cons_left_iff.mp hstands
    rw [flatten_expression_append, digestSpans_expression_append hbody hfirst,
      ih (fun g hg => hliteral g (List.mem_cons_of_mem _ hg)) hrest,
      joined_cons_of_not_literal (isGap_eq_isLiteral hfirst).symm]
    rfl
  | @gap g spans hne hgap hspans ih =>
    obtain ⟨token, as, hfirst, hrest, rfl⟩ := List.forall₂_cons_left_iff.mp hstands
    obtain rfl : token = .literal g := hfirst
    have hg := hliteral g List.mem_cons_self
    cases hspans with
    | nil =>
      cases hrest
      rw [flatten_singleton]
      exact digestSpans_attach hg hb
    | gap _ _ _ => exact absurd rfl (hgap.whole _ _)
    | @expression body spans hbody hspans =>
      have hrestread := ih (fun g hg => hliteral g (List.mem_cons_of_mem _ hg)) hrest
      have hnext : ∀ g' rest, ofText (flatten (.expression ('{' :: (body ++ ['}'])) :: spans) ++ b) ≠
          .gap g' :: rest := by
        intro g' rest
        rw [flatten_expression_append, Span.ofText_expression_append hbody]
        simp
      cases hrest with
      | cons _ _ =>
        rw [Span.flatten_cons, List.append_assoc]
        show digestSpans Expression.read position (ofText (g ++ _)) = _
        rw [digestSpans_literal_append hg hnext, hrestread]
        rfl

/-- A text that does not end with a star has no star to cut off. -/
theorem cutStar_eq_self (h : ∀ head, flatten spans ≠ head ++ ['*']) : cutStar spans = spans := by
  induction spans with
  | nil => rfl
  | cons span spans ih =>
    cases spans with
    | cons next spans =>
      rw [cutStar_cons_cons, ih]
      intro head hhead
      refine h (span.text ++ head) ?_
      rw [Span.flatten_cons, hhead, List.append_assoc]
    | nil =>
      cases span with
      | expression e => rfl
      | gap g =>
        rcases cutStar_last g with ⟨-, hcut⟩ | ⟨head, rfl, -⟩
        · exact hcut
        · exact absurd (flatten_singleton _) (h head)

/-- **Templates compose**: behind a template that does not end with a star another one is read as it
is read alone. -/
theorem digest_append (ha : digest Expression.read a = .ok as)
    (hb : digest Expression.read b = .ok bs) (hstar : a.getLast? ≠ some '*') :
    digest Expression.read (a ++ b) = .ok (joined as bs) := by
  obtain ⟨hne, hclean, hstands⟩ := digest_eq_ok_iff.mp ha
  have hscan := Span.isScan_ofText a
  have hcut : cutStar (ofText a) = ofText a := by
    refine cutStar_eq_self fun head hhead => hstar ?_
    rw [Span.flatten_ofText] at hhead
    rw [hhead, List.getLast?_concat]
  rw [hcut] at hstands
  have hliteral : ∀ g, .gap g ∈ ofText a → IsLiteral g := by
    intro g hg
    exact isLiteral_of_mem_cutStar hscan hclean (hcut.symm ▸ hg)
  have hread := digestSpans_append hscan hliteral hstands hb 0
  rw [Span.flatten_ofText] at hread
  rw [digest_of_ne_nil (by simp [hne]), hread]

end UriRouting.Template
