/-
# UriRouting.Proofs.Template.Digest — which texts are templates, and what they are read as

A template is checked and read span by span.  `IsClean` says what the checks ask of the gaps, and
`cutStar` is the one thing reading does to the spans: a star that ends the text becomes an expression
of its own.  From there on a gap stands for its text and an expression for whatever the factory makes
of it (`StandsFor`), so the tokens of a template correspond to its spans one by one
(`digestSpans_eq_ok_iff`).
-/
import UriRouting.Proofs.FirstFault
import UriRouting.Proofs.Template.Grammar
import UriRouting.Proofs.Template.Scan
import UriRouting.Template.Basic
import Mathlib.Data.List.Chain

namespace UriRouting.Template

open Template.Span (IsScan ofText flatten consGap)

/-! ## The text of the gaps -/

/-- **`IsPlain g rest`** — the text of a gap with `rest` behind it has no brace, and a star only as
the last character of all. -/
structure IsPlain (g rest : Text) : Prop where
  noOpening : '{' ∉ g
  noClosing : '}' ∉ g
  lastStar : ∀ front back, g = front ++ '*' :: back → back ++ rest = []

/-- **`IsClean spans`** — every gap is plain. -/
def IsClean (spans : List Span) : Prop :=
  ∀ before g after, spans = before ++ .gap g :: after → IsPlain g (flatten after)

variable {g rest : Text} {spans : List Span}

theorem isPlain_nil : IsPlain [] rest := ⟨by simp, by simp, by simp⟩

theorem isPlain_cons_iff {c : Char} :
    IsPlain (c :: g) rest ↔ c ≠ '{' ∧ c ≠ '}' ∧ (c = '*' → g ++ rest = []) ∧ IsPlain g rest := by
  constructor
  · rintro ⟨hopening, hclosing, hstar⟩
    obtain ⟨ho, ho'⟩ := not_or.mp (mt List.mem_cons.mpr hopening)
    obtain ⟨hc, hc'⟩ := not_or.mp (mt List.mem_cons.mpr hclosing)
    obtain ⟨hs, hs'⟩ := Text.forall_split_cons_iff.mp hstar
    exact ⟨Ne.symm ho, Ne.symm hc, hs, ho', hc', hs'⟩
  · rintro ⟨ho, hc, hstar, h⟩
    exact ⟨by simp [Ne.symm ho, h.noOpening], by simp [Ne.symm hc, h.noClosing],
      Text.forall_split_cons_iff.mpr ⟨hstar, h.lastStar⟩⟩

/-- The check of a gap asks that it is plain. -/
theorem checkGap_eq_ok_iff {last : Bool} (hlast : last = true ↔ rest = []) (position : Nat) :
    checkGap last position g = .ok () ↔ IsPlain g rest := by
  induction g generalizing position with
  | nil => exact iff_of_true rfl isPlain_nil
  | cons c g ih =>
    have hstar : (c = '*' ∧ ¬(last = true ∧ g = [])) ↔ ¬(c = '*' → g ++ rest = []) := by
      rw [hlast, List.append_eq_nil_iff, and_comm (a := rest = [])]
      tauto
    rw [isPlain_cons_iff, ← ih (position + c.utf8Size), checkGap, if_congr hstar rfl rfl]
    by_cases ho : c = '{'
    · simp [ho]
    by_cases hc : c = '}'
    · simp [hc]
    by_cases hs : c = '*' → g ++ rest = []
    · rw [if_neg ho, if_neg hc, if_neg (not_not.mpr hs)]
      exact ⟨fun h => ⟨ho, hc, hs, h⟩, fun h => h.2.2.2⟩
    · rw [if_neg ho, if_neg hc, if_pos hs]
      exact iff_of_false nofun fun h => hs h.2.2.1

/-- It goes over text that may stand anywhere. -/
theorem checkGap_append (last : Bool) (ho : '{' ∉ g) (hc : '}' ∉ g) (hs : '*' ∉ g)
    (position : Nat) (more : Text) :
    checkGap last position (g ++ more) = checkGap last (position + Text.width g) more := by
  induction g generalizing position with
  | nil => rfl
  | cons c g ih =>
    simp only [List.mem_cons, not_or] at ho hc hs
    rw [List.cons_append, checkGap, if_neg (Ne.symm ho.1), if_neg (Ne.symm hc.1),
      if_neg (fun h => hs.1 h.1.symm), ih ho.2 hc.2 hs.2, Text.width_cons, Nat.add_assoc]

theorem isClean_nil : IsClean [] := by
  intro before g after h
  simp at h

theorem isClean_cons_iff {span : Span} :
    IsClean (span :: spans) ↔ (∀ g, span = .gap g → IsPlain g (flatten spans)) ∧ IsClean spans := by
  constructor
  · intro h
    have hsplit := fun g => Text.forall_split_cons_iff.mp fun before after => h before g after
    exact ⟨fun g => (hsplit g).1, fun before g => (hsplit g).2 before⟩
  · rintro ⟨hspan, hspans⟩ before g after heq
    have hsplit := (Text.forall_split_cons_iff (P := fun _ after => IsPlain g (flatten after))).mpr
      ⟨hspan g, fun before => hspans before g⟩
    exact hsplit before after heq

/-! ## The tokens of the spans -/

/-- **`cutStar spans`** — the spans, with the star that ends the text, if one does, as an expression
of its own. -/
def cutStar : List Span → List Span
  | [] => []
  | [.gap g] =>
    if g.getLast? = some '*' then consGap g.dropLast [.expression ['*']] else [.gap g]
  | span :: spans => span :: cutStar spans

/-- **`StandsFor factory span token`** — a gap stands for its text, an expression for the token that
the factory makes of it. -/
def StandsFor (factory : TokenFactory) : Span → Token → Prop
  | .gap g, token => token = .literal g
  | .expression e, token => factory e = .ok token

variable {factory : TokenFactory} {position : Nat} {tokens : List Token}

theorem cutStar_expression (e : Text) (spans : List Span) :
    cutStar (.expression e :: spans) = .expression e :: cutStar spans := by
  cases spans <;> rfl

theorem cutStar_cons_cons (span next : Span) (spans : List Span) :
    cutStar (span :: next :: spans) = span :: cutStar (next :: spans) := by
  cases span <;> rfl

/-- Only for expressions does it take the factory to find a token. -/
theorem exists_standsFor_iff :
    (∀ span ∈ spans, ∃ token, StandsFor factory span token) ↔
      ∀ e, .expression e ∈ spans → ∃ token, factory e = .ok token := by
  refine ⟨fun h e he => h _ he, fun h span hspan => ?_⟩
  cases span with
  | gap g => exact ⟨.literal g, rfl⟩
  | expression e => exact h e hspan

/-- The gap that ends a text stays, or is cut before its star. -/
theorem cutStar_last (g : Text) :
    (∀ head, g ≠ head ++ ['*']) ∧ cutStar [.gap g] = [.gap g] ∨
      ∃ head, g = head ++ ['*'] ∧ cutStar [.gap g] = consGap head [.expression ['*']] := by
  by_cases hstar : g.getLast? = some '*'
  · exact .inr ⟨g.dropLast, (List.dropLast_append_getLast? '*' hstar).symm, if_pos hstar⟩
  · refine .inl ⟨?_, if_neg hstar⟩
    rintro head rfl
    exact hstar List.getLast?_concat

theorem cutStar_eq_nil_iff : cutStar spans = [] ↔ spans = [] := by
  rcases spans with _ | ⟨span, _ | ⟨next, spans⟩⟩
  · simp [cutStar]
  · cases span with
    | expression e => simp [cutStar]
    | gap g =>
      rcases cutStar_last g with ⟨-, hcut⟩ | ⟨head, -, hcut⟩
      · simp [hcut]
      · cases head <;> simp [hcut, consGap]
  · simp [cutStar_cons_cons]


theorem mem_consGap_iff {head e : Text} :
    .gap g ∈ consGap head [.expression e] ↔ g = head ∧ g ≠ [] := by
  cases head with
  | nil => simp [consGap]
  | cons c head =>
    simp only [consGap, List.mem_cons, Span.gap.injEq, reduceCtorEq, or_false, List.not_mem_nil]
    exact ⟨fun h => ⟨h, h ▸ List.cons_ne_nil c head⟩, And.left⟩

/-- The expressions after cutting are those before, and the star that ends the text. -/
theorem expression_mem_cutStar_iff {e : Text} :
    .expression e ∈ cutStar spans ↔
      .expression e ∈ spans ∨ e = ['*'] ∧ ∃ head, spans.getLast? = some (.gap (head ++ ['*'])) := by
  induction spans with
  | nil => simp [cutStar]
  | cons span spans ih =>
    cases spans with
    | cons next spans =>
      rw [cutStar_cons_cons, List.getLast?_cons_cons, List.mem_cons, ih, ← or_assoc,
        ← List.mem_cons]
    | nil =>
      cases span with
      | expression e' => simp [cutStar]
      | gap g =>
        rcases cutStar_last g with ⟨hlast, hcut⟩ | ⟨head, rfl, hcut⟩
        · simp [hcut, hlast]
        · have hmem : .expression e ∈ consGap head [.expression ['*']] ↔ e = ['*'] := by
            cases head <;> simp [consGap]
          have hlast : ∃ head', some (Span.gap (head ++ ['*'])) = some (.gap (head' ++ ['*'])) :=
            ⟨head, rfl⟩
          rw [hcut, hmem, List.getLast?_singleton, and_iff_left hlast]
          simp

theorem lastGap_eq_ok_iff :
    lastGap factory g = .ok tokens ↔
      List.Forall₂ (StandsFor factory) (cutStar [.gap g]) tokens := by
  rcases cutStar_last g with ⟨hlast, hcut⟩ | ⟨head, rfl, hcut⟩
  · have hstrip : Text.stripLast '*' g = none := by
      rw [Option.eq_none_iff_forall_ne_some]
      exact fun head h => hlast head (Text.stripLast_eq_some_iff.mp h)
    simp [lastGap, hstrip, hcut, StandsFor, List.forall₂_cons_left_iff, eq_comm]
  · rw [lastGap, Text.stripLast_eq_some_iff.mpr rfl, hcut]
    dsimp only
    rw [bind_eq_ok_iff]
    cases head <;>
      simp [literal?, consGap, StandsFor, List.forall₂_cons_left_iff, pure, Except.pure, eq_comm]

theorem digestSpans_gap_cons (span : Span) :
    digestSpans factory position (.gap g :: span :: spans) = (do
      checkGap false position g
      let tokens ← digestSpans factory (position + Text.width g) (span :: spans)
      return .literal g :: tokens) := rfl

theorem digestSpans_expression (e : Text) :
    digestSpans factory position (.expression e :: spans) = (do
      let token ← factory e
      let tokens ← digestSpans factory (position + Text.width e) spans
      return token :: tokens) := by
  cases spans <;> rfl

/-- **The tokens of a clean scan** correspond to its spans, one by one. -/
theorem digestSpans_eq_ok_iff (h : IsScan spans) (position : Nat) :
    digestSpans factory position spans = .ok tokens ↔
      IsClean spans ∧ List.Forall₂ (StandsFor factory) (cutStar spans) tokens := by
  induction h generalizing position tokens with
  | nil => simp [digestSpans, cutStar, isClean_nil, eq_comm]
  | @expression body spans hbody hspans ih =>
    have hclean : IsClean (.expression ('{' :: (body ++ ['}'])) :: spans) ↔ IsClean spans := by
      simp [isClean_cons_iff]
    rw [digestSpans_expression, cutStar_expression, hclean]
    simp only [bind_eq_ok_iff, ih, List.forall₂_cons_left_iff, StandsFor, pure, Except.pure,
      Except.ok.injEq]
    constructor
    · rintro ⟨token, htoken, tokens, ⟨hspans, htokens⟩, rfl⟩
      exact ⟨hspans, token, tokens, htoken, htokens, rfl⟩
    · rintro ⟨hspans, token, tokens, htoken, htokens, rfl⟩
      exact ⟨token, htoken, tokens, ⟨hspans, htokens⟩, rfl⟩
  | @gap g spans hne hgap hspans ih =>
    -- a gap is the last one exactly if no text follows it
    cases spans with
    | nil =>
      have hclean : IsClean [.gap g] ↔ IsPlain g [] := by
        simp [isClean_cons_iff, isClean_nil, flatten]
      have hlast : true = true ↔ ([] : Text) = [] := iff_of_true rfl rfl
      have hcheck := checkGap_eq_ok_iff (g := g) hlast position
      rw [hclean, ← hcheck, ← lastGap_eq_ok_iff]
      exact check_bind_eq_ok_iff
    | cons span spans =>
      have hrest : flatten (span :: spans) ≠ [] := hspans.flatten_ne_nil (List.cons_ne_nil _ _)
      have hclean : IsClean (.gap g :: span :: spans) ↔
          IsPlain g (flatten (span :: spans)) ∧ IsClean (span :: spans) := by
        rw [isClean_cons_iff]
        simp
      have hcheck := checkGap_eq_ok_iff (g := g) (iff_of_false Bool.false_ne_true hrest) position
      rw [digestSpans_gap_cons, check_bind_eq_ok_iff, cutStar_cons_cons, hclean, ← hcheck]
      simp only [bind_eq_ok_iff, ih, List.forall₂_cons_left_iff, StandsFor, pure, Except.pure,
        Except.ok.injEq]
      constructor
      · rintro ⟨hplain, tokens, ⟨hspans, htokens⟩, rfl⟩
        exact ⟨⟨hplain, hspans⟩, _, tokens, rfl, htokens, rfl⟩
      · rintro ⟨⟨hplain, hspans⟩, _, tokens, rfl, htokens, rfl⟩
        exact ⟨hplain, tokens, ⟨hspans, htokens⟩, rfl⟩

theorem digest_of_ne_nil {t : Text} (h : t ≠ []) :
    digest factory t = digestSpans factory 0 (ofText t) := by
  cases t with
  | nil => exact absurd rfl h
  | cons c t => rfl

theorem digest_eq_ok_iff {t : Text} :
    digest factory t = .ok tokens ↔
      t ≠ [] ∧ IsClean (ofText t) ∧
        List.Forall₂ (StandsFor factory) (cutStar (ofText t)) tokens := by
  cases t with
  | nil => simp [digest]
  | cons c r =>
    rw [← digestSpans_eq_ok_iff (Span.isScan_ofText _) 0]
    exact (and_iff_right (List.cons_ne_nil c r)).symm

/-! ## The literals of a template -/

/-- A gap with text behind it has no star. -/
theorem IsPlain.noStar (h : IsPlain g rest) (hrest : rest ≠ []) : '*' ∉ g := by
  intro hstar
  obtain ⟨front, back, rfl⟩ := List.append_of_mem hstar
  exact hrest (List.append_eq_nil_iff.mp (h.lastStar front back rfl)).2

/-- Before its last star the text of a gap is plain as if the star followed it. -/
theorem IsPlain.beforeStar {head : Text} (h : IsPlain (head ++ ['*']) []) : IsPlain head ['*'] where
  noOpening hmem := h.noOpening (List.mem_append_left _ hmem)
  noClosing hmem := h.noClosing (List.mem_append_left _ hmem)
  lastStar front back heq := by
    have := h.lastStar front (back ++ ['*']) (by rw [heq, List.append_assoc]; rfl)
    simp at this

/-- Without a last star, none is left in the last gap. -/
theorem IsPlain.noStar_of_last (h : IsPlain g []) (hlast : ∀ head, g ≠ head ++ ['*']) :
    '*' ∉ g := by
  intro hstar
  obtain ⟨front, back, rfl⟩ := List.append_of_mem hstar
  obtain rfl : back = [] := (List.append_eq_nil_iff.mp (h.lastStar front back rfl)).1
  exact hlast front rfl

/-- **`IsLiteral g`** — the text may be a literal: there is some, without braces and stars. -/
structure IsLiteral (g : Text) : Prop where
  nonempty : g ≠ []
  noOpening : '{' ∉ g
  noClosing : '}' ∉ g
  noStar : '*' ∉ g

theorem IsPlain.isLiteral (h : IsPlain g rest) (hne : g ≠ []) (hstar : '*' ∉ g) : IsLiteral g :=
  ⟨hne, h.noOpening, h.noClosing, hstar⟩

theorem isLiteral_of_mem_cutStar (h : IsScan spans) (hclean : IsClean spans)
    (hg : .gap g ∈ cutStar spans) : IsLiteral g := by
  induction h with
  | nil => simp [cutStar] at hg
  | expression _ hspans ih =>
    rw [cutStar_expression] at hg
    exact ih (isClean_cons_iff.mp hclean).2 (by simpa using hg)
  | @gap g' spans hne hgap hspans ih =>
    obtain ⟨hplain, hclean⟩ := isClean_cons_iff.mp hclean
    have hplain := hplain g' rfl
    cases spans with
    | nil =>
      rcases cutStar_last g' with ⟨hlast, hcut⟩ | ⟨head, rfl, hcut⟩
      · rw [hcut] at hg
        obtain rfl := Span.gap.inj (List.mem_singleton.mp hg)
        exact hplain.isLiteral hne (hplain.noStar_of_last hlast)
      · rw [hcut] at hg
        obtain ⟨rfl, hne'⟩ := mem_consGap_iff.mp hg
        have hplain := hplain.beforeStar
        exact hplain.isLiteral hne' (hplain.noStar (List.cons_ne_nil _ _))
    | cons span spans =>
      rcases List.mem_cons.mp hg with heq | hg
      · obtain rfl := Span.gap.inj heq
        have hbehind := hspans.flatten_ne_nil (List.cons_ne_nil span spans)
        exact hplain.isLiteral hne (hplain.noStar hbehind)
      · exact ih hclean hg

/-- Whether a span is a gap. -/
def isGap : Span → Bool
  | .gap _ => true
  | .expression _ => false

/-- Neighbours are not both marked. -/
def NotBoth (a b : Bool) : Prop := ¬(a = true ∧ b = true)

theorem isChain_cutStar (h : IsScan spans) : ((cutStar spans).map isGap).IsChain NotBoth := by
  induction h with
  | nil => exact .nil
  | expression _ hspans ih =>
    rw [cutStar_expression, List.map_cons]
    exact List.isChain_cons.mpr ⟨fun _ _ h => Bool.false_ne_true h.1, ih⟩
  | @gap g spans hne hgap hspans ih =>
    cases spans with
    | nil =>
      rcases cutStar_last g with ⟨-, hcut⟩ | ⟨head, -, hcut⟩
      · simp [hcut]
      · cases head <;> simp [hcut, consGap, isGap, NotBoth]
    | cons span spans =>
      cases span with
      | gap g' => exact absurd rfl (hgap.whole g' spans)
      | expression e =>
        rw [cutStar_expression] at ih
        rw [cutStar_cons_cons, cutStar_expression]
        exact List.isChain_cons_cons.mpr ⟨fun h => Bool.false_ne_true h.2, ih⟩

/-! ## The tokens of the standard syntax -/

/-- **`IsTidy tokens`** — the tokens are as the standard syntax gives them: the literals have plain
text, no two of them are neighbours, and every other token has a variable with a name. -/
structure IsTidy (tokens : List Token) : Prop where
  literal : ∀ g, .literal g ∈ tokens → IsLiteral g
  separated : tokens.IsChain fun a b => NotBoth a.isLiteral b.isLiteral
  named : ∀ token ∈ tokens, token.isLiteral = false → ∃ v, token.var? = some v ∧ v.name ≠ []

variable {span : Span} {token : Token}

/-- In the standard syntax no expression stands for a literal. -/
theorem isGap_eq_isLiteral (h : StandsFor Expression.read span token) :
    isGap span = token.isLiteral := by
  cases span with
  | gap g =>
    obtain rfl : token = .literal g := h
    rfl
  | expression e =>
    obtain ⟨v, hv, -⟩ := Expression.exists_var_of_read h
    cases token with
    | literal g => cases hv
    | placeholder => rfl
    | wildcard => rfl

theorem isTidy_of_forall₂ (hscan : IsScan spans) (hclean : IsClean spans)
    (h : List.Forall₂ (StandsFor Expression.read) (cutStar spans) tokens) : IsTidy tokens where
  literal g hg := by
    obtain ⟨span, hspan, hstands⟩ := exists_of_mem_forall₂ h hg
    cases span with
    | gap g' =>
      obtain rfl := Token.literal.inj hstands
      exact isLiteral_of_mem_cutStar hscan hclean hspan
    | expression e => cases isGap_eq_isLiteral hstands
  separated := by
    have hmap : List.Forall₂ Eq ((cutStar spans).map isGap) (tokens.map Token.isLiteral) := by
      rw [List.forall₂_map_left_iff, List.forall₂_map_right_iff]
      exact h.imp fun _ _ => isGap_eq_isLiteral
    rw [List.forall₂_eq_eq_eq] at hmap
    rw [← List.isChain_map (R := NotBoth), ← hmap]
    exact isChain_cutStar hscan
  named token htoken hliteral := by
    obtain ⟨span, -, hstands⟩ := exists_of_mem_forall₂ h htoken
    cases span with
    | gap g =>
      obtain rfl : token = .literal g := hstands
      cases hliteral
    | expression e => exact Expression.exists_var_of_read hstands

theorem isTidy_of_digest {t : Text} (h : digest Expression.read t = .ok tokens) : IsTidy tokens := by
  obtain ⟨-, hclean, htokens⟩ := digest_eq_ok_iff.mp h
  exact isTidy_of_forall₂ (Span.isScan_ofText t) hclean htokens

/-- **Which texts are templates.**  A text is cut in exactly one way.  For any factory it is a
template if it is not empty, its gaps are clean, and the factory accepts its expressions and the star
if its last gap ends with one; its tokens are then those that its spans stand for, in their order.
The tokens of the standard syntax are tidy. -/
theorem digest_eq_ok_iff_clean (t : Text) :
    ∃ spans, (∀ spans', IsScan spans' ∧ flatten spans' = t ↔ spans' = spans) ∧
      (∀ factory tokens, digest factory t = .ok tokens ↔
        t ≠ [] ∧ IsClean spans ∧ List.Forall₂ (StandsFor factory) (cutStar spans) tokens) ∧
      (∀ factory, (∃ tokens, digest factory t = .ok tokens) ↔
        t ≠ [] ∧ IsClean spans ∧
          (∀ e, .expression e ∈ spans → ∃ token, factory e = .ok token) ∧
          ((∃ head, spans.getLast? = some (.gap (head ++ ['*']))) →
            ∃ token, factory ['*'] = .ok token)) ∧
      ∀ tokens, digest Expression.read t = .ok tokens → IsTidy tokens := by
  refine ⟨ofText t, fun spans' => ?_, fun factory tokens => digest_eq_ok_iff, fun factory => ?_,
    fun tokens h => ?_⟩
  · rw [← Span.ofText_eq_iff, eq_comm]
  · simp only [digest_eq_ok_iff, exists_and_left, exists_forall₂_iff, exists_standsFor_iff,
      expression_mem_cutStar_iff, or_imp, forall_and, and_imp, forall_eq]
  · obtain ⟨-, hclean, htokens⟩ := digest_eq_ok_iff.mp h
    exact isTidy_of_forall₂ (Span.isScan_ofText t) hclean htokens

/-- A text whose first expression holds another opening brace, and which ends with a star. -/
theorem digest_nested_brace :
    let t := Text.ofString "/\u00e9\x7bid=\x7b\x7d/*"
    let tokens : List Token :=
      [.literal (Text.ofString "/\u00e9"),
        .placeholder ⟨Text.ofString "id", none, some (Text.ofString "\x7b")⟩ .plain,
        .literal ['/'], .wildcard Variable.trailing .remainder]
    digest Expression.read t = .ok tokens ∧ IsTidy tokens := by
  intro t tokens
  obtain ⟨-, -, -, -, htidy⟩ := digest_eq_ok_iff_clean t
  have hdigest : digest Expression.read t = .ok tokens := rfl
  exact ⟨hdigest, htidy tokens hdigest⟩

end UriRouting.Template
