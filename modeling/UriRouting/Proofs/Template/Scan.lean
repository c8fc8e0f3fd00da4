/-
# UriRouting.Proofs.Template.Scan — the one way to cut a template

`IsScan` says of spans what scanning from left to right means, without scanning: an expression ends
at its first closing brace, the gaps have text and do not touch each other, and an opening brace is
left in a gap only if no closing brace follows it anywhere in the text.  Every text is cut in exactly
one way that fits (`ofText_eq_iff`): the spans that the scanner cuts fit, and the scanner cuts the
text of fitting spans where they say.
-/
import UriRouting.Proofs.Text.Runs
import UriRouting.Template.Span

namespace UriRouting.Template.Span

/-- **`IsGapBefore g spans`** — the text `g` may stand in a gap in front of the spans: no brace in
it opens an expression, and the gap ends where an expression or the text does. -/
structure IsGapBefore (g : Text) (spans : List Span) : Prop where
  unclosed : ∀ front back, g = front ++ '{' :: back → '}' ∉ back ++ flatten spans
  whole : ∀ g' rest, spans ≠ .gap g' :: rest

/-- **`IsScan spans`** — the spans are those of their text. -/
inductive IsScan : List Span → Prop
  | nil : IsScan []
  | expression {body : Text} {spans : List Span} (hbody : '}' ∉ body) (hspans : IsScan spans) :
    IsScan (.expression ('{' :: (body ++ ['}'])) :: spans)
  | gap {g : Text} {spans : List Span} (hne : g ≠ []) (hgap : IsGapBefore g spans)
    (hspans : IsScan spans) : IsScan (.gap g :: spans)

variable {spans : List Span} {g body t : Text}

theorem flatten_cons (span : Span) (spans : List Span) :
    flatten (span :: spans) = span.text ++ flatten spans := List.flatMap_cons

/-- No span is without text. -/
theorem IsScan.flatten_ne_nil (h : IsScan spans) (hne : spans ≠ []) : flatten spans ≠ [] := by
  cases h with
  | nil => exact absurd rfl hne
  | expression _ _ => simp [flatten_cons, text]
  | gap hg _ _ => simp [flatten_cons, text, hg]

/-- An expression has its first closing brace at its end. -/
theorem IsScan.exists_body {e : Text} (h : IsScan spans) (he : .expression e ∈ spans) :
    ∃ body, e = '{' :: (body ++ ['}']) ∧ '}' ∉ body := by
  induction h with
  | nil => cases he
  | @expression body spans hbody hspans ih =>
    rcases List.mem_cons.mp he with heq | he
    · exact ⟨body, Span.expression.inj heq, hbody⟩
    · exact ih he
  | gap hne hgap hspans ih => exact ih (by simpa using he)

/-! ## The spans of the scanner fit -/

theorem isScan_consGap (hgap : IsGapBefore g spans) (hspans : IsScan spans) :
    IsScan (consGap g spans) := by
  cases g with
  | nil => exact hspans
  | cons c g => exact .gap (List.cons_ne_nil c g) hgap hspans

theorem isGapBefore_nil (hwhole : ∀ g' rest, spans ≠ .gap g' :: rest) : IsGapBefore [] spans :=
  ⟨by simp, hwhole⟩

/-- A character that opens no expression joins the gap behind it. -/
theorem IsGapBefore.cons {c : Char} (h : IsGapBefore g spans)
    (hc : c = '{' → '}' ∉ g ++ flatten spans) : IsGapBefore (c :: g) spans :=
  ⟨Text.forall_split_cons_iff.mpr ⟨hc, h.unclosed⟩, h.whole⟩

/-- What one run of the scanner does, outside an expression and inside one that is closed. -/
theorem isScan_scan (t : Text) :
    (IsGapBefore (scan false t).1 (scan false t).2 ∧ IsScan (scan false t).2) ∧
      ('}' ∈ t →
        ∃ body, (scan true t).1 = body ++ ['}'] ∧ '}' ∉ body ∧ IsScan (scan true t).2) := by
  induction t with
  | nil => exact ⟨⟨isGapBefore_nil (by simp [scan]), .nil⟩, by simp⟩
  | cons c r ih =>
    -- outside, the run may go inside for the rest; inside it comes out again at a closing brace
    obtain ⟨⟨hgap, hspans⟩, hinside⟩ := ih
    refine ⟨?_, fun hclosed => ?_⟩
    · by_cases hopen : c = '{' ∧ '}' ∈ r
      · obtain ⟨body, hbody, hno, hrest⟩ := hinside hopen.2
        have hscan : scan false (c :: r) =
            ([], .expression (c :: (scan true r).1) :: (scan true r).2) := if_pos hopen
        rw [hscan, hbody, hopen.1]
        exact ⟨isGapBefore_nil (by simp), .expression hno hrest⟩
      · simp only [scan, if_neg hopen]
        refine ⟨hgap.cons fun hc => ?_, hspans⟩
        rw [scan_append_flatten]
        exact fun hclosed => hopen ⟨hc, hclosed⟩
    · by_cases hc : c = '}'
      · simp only [scan, if_pos hc]
        exact ⟨[], rfl, by simp, isScan_consGap hgap hspans⟩
      · obtain ⟨body, hbody, hno, hrest⟩ := hinside (by simpa [Ne.symm hc] using hclosed)
        simp only [scan, if_neg hc, hbody]
        exact ⟨c :: body, rfl, by simp [Ne.symm hc, hno], hrest⟩

theorem isScan_ofText (t : Text) : IsScan (ofText t) :=
  isScan_consGap (isScan_scan t).1.1 (isScan_scan t).1.2

/-! ## The scanner cuts where the spans say -/

/-- Outside an expression the scanner takes all of a text that opens none. -/
theorem scan_gap_append (h : ∀ front back, g = front ++ '{' :: back → '}' ∉ back ++ t) :
    scan false (g ++ t) = (g ++ (scan false t).1, (scan false t).2) := by
  induction g with
  | nil => rfl
  | cons c g ih =>
    obtain ⟨hc, htail⟩ := Text.forall_split_cons_iff.mp h
    have hopen : ¬ (c = '{' ∧ '}' ∈ g ++ t) := fun hopen => hc hopen.1 hopen.2
    rw [List.cons_append, scan, if_neg hopen, ih htail]
    rfl

/-- Inside an expression it goes up to the first closing brace. -/
theorem scan_body_append (h : '}' ∉ body) :
    scan true (body ++ '}' :: t) = (body ++ ['}'], ofText t) := by
  induction body with
  | nil => simp [scan, ofText]
  | cons c body ih =>
    obtain ⟨hc, hbody⟩ := not_or.mp (mt List.mem_cons.mpr h)
    rw [List.cons_append, scan, if_neg (Ne.symm hc), ih hbody]
    rfl

/-- Spans that do not start with a gap leave no text in front. -/
theorem consGap_eq_of_whole {spans' : List Span} (h : ∀ g' rest, spans ≠ .gap g' :: rest)
    (heq : consGap g spans' = spans) : g = [] ∧ spans' = spans := by
  cases g with
  | nil => exact ⟨rfl, heq⟩
  | cons c g => exact absurd heq.symm (h _ _)

theorem ofText_expression_append (h : '}' ∉ body) :
    ofText ('{' :: (body ++ '}' :: t)) = .expression ('{' :: (body ++ ['}'])) :: ofText t := by
  have hopen : '{' = '{' ∧ '}' ∈ body ++ '}' :: t := by simp
  rw [ofText, scan, if_pos hopen, scan_body_append h]
  rfl

theorem ofText_gap_append (hne : g ≠ [])
    (h : ∀ front back, g = front ++ '{' :: back → '}' ∉ back ++ t) :
    ofText (g ++ t) = .gap (g ++ (scan false t).1) :: (scan false t).2 := by
  rw [ofText, scan_gap_append h]
  cases g with
  | nil => exact absurd rfl hne
  | cons c g => rfl

theorem IsScan.ofText_flatten (h : IsScan spans) : ofText (flatten spans) = spans := by
  induction h with
  | nil => rfl
  | @expression body spans hbody hspans ih =>
    have htext : flatten (.expression ('{' :: (body ++ ['}'])) :: spans) =
        '{' :: (body ++ '}' :: flatten spans) := by simp [flatten_cons, text]
    rw [htext, ofText_expression_append hbody, ih]
  | @gap g spans hne hgap hspans ih =>
    -- the text of the spans behind starts no gap, so none of it joins this one
    obtain ⟨hfront, hrest⟩ := consGap_eq_of_whole hgap.whole ih
    rw [flatten_cons, text, ofText_gap_append hne hgap.unclosed, hfront, hrest, List.append_nil]

/-- **The scanner finds the one way to cut a text.** -/
theorem ofText_eq_iff : ofText t = spans ↔ IsScan spans ∧ flatten spans = t := by
  constructor
  · rintro rfl
    exact ⟨isScan_ofText t, flatten_ofText t⟩
  · rintro ⟨h, rfl⟩
    exact h.ofText_flatten

end UriRouting.Template.Span
