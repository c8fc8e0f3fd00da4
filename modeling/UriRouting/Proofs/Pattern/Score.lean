/-
# UriRouting.Proofs.Pattern.Score — the score of a pattern and the paths that it matches

A pattern can match a path only if its literals find room in it, so the length of the path bounds
the score: sixteen for each character, less what the captures take away (`IsCutting.scoreOf_le`).
The bound is reached by the pattern that is written like the path and captures nothing.  In the
standard syntax such a pattern has one literal as its only token (`tokens_of_literals`).
-/
import UriRouting.Proofs.Binding.Resolution
import UriRouting.Proofs.Template.Digest

namespace UriRouting.Pattern

open Template (IsTidy NotBoth StandsFor cutStar)

variable {tokens : List Token} {pieces : List Text} {path t : Text} {p : Pattern}

/-! ## The bound -/

/-- **`scoreOf tokens`** — the score of a pattern with these tokens. -/
def scoreOf (tokens : List Token) : Int :=
  tokens.foldr (fun token rest => tokenScore token + rest) 0

theorem score_eq_scoreOf (p : Pattern) : p.score = scoreOf p.tokens := rfl

@[simp] theorem scoreOf_cons (token : Token) (tokens : List Token) :
    scoreOf (token :: tokens) = tokenScore token + scoreOf tokens := rfl

/-- A token adds to the score at most sixteen for each character that it is cut, and a capture one
less than that. -/
theorem tokenScore_le {token : Token} {piece : Text} (h : token.Accepts piece) :
    tokenScore token + (if token.isLiteral then 0 else 1) ≤ 16 * (piece.length : Int) := by
  cases token with
  | literal text =>
    obtain rfl : piece = text := h
    show 16 * (piece.length : Int) + 0 ≤ 16 * piece.length
    omega
  | placeholder v m =>
    show (-1 : Int) + 1 ≤ 16 * piece.length
    omega
  | wildcard v form =>
    show (-4 : Int) + 1 ≤ 16 * piece.length
    omega

/-- **The length of a path bounds the score of the tokens that it is cut by**, and every capture
among them lowers the bound. -/
theorem IsCutting.scoreOf_le (h : IsCutting tokens pieces path) :
    scoreOf tokens + tokens.countP (fun token => !token.isLiteral) ≤ 16 * (path.length : Int) := by
  induction h with
  | nil =>
    show (0 : Int) + 0 ≤ 16 * 0
    omega
  | @cons token tokens piece pieces rest hacc _ ih =>
    have htoken := tokenScore_le hacc
    rw [scoreOf_cons, List.countP_cons, List.length_append]
    cases hlit : token.isLiteral <;> simp [hlit] at htoken ih ⊢ <;> omega

theorem score_le_of_matches (h : p.matchesPath path = true) :
    p.score ≤ 16 * (path.length : Int) := by
  obtain ⟨pieces, hcut⟩ := matchesPath_iff_cutting.mp h
  have hle := hcut.scoreOf_le
  rw [score_eq_scoreOf]
  omega

/-- A pattern that captures anything stays below the bound. -/
theorem score_lt_of_matches (h : p.matchesPath path = true)
    (hcapture : ∃ token ∈ p.tokens, token.isLiteral = false) :
    p.score < 16 * (path.length : Int) := by
  obtain ⟨pieces, hcut⟩ := matchesPath_iff_cutting.mp h
  have hle := hcut.scoreOf_le
  have hpos : 0 < p.tokens.countP fun token => !token.isLiteral := by
    rw [List.countP_pos_iff]
    simpa using hcapture
  rw [score_eq_scoreOf]
  omega

/-! ## Patterns without captures -/

/-- A compiled pattern has the tokens of the text that it is compiled from. -/
theorem digest_of_compile (h : compile t = .ok p) :
    p.source = t ∧ Template.digest Expression.read t = .ok p.tokens := by
  rw [compile, compileWith_eq, map_eq_ok_iff] at h
  obtain ⟨tokens, hdigest, rfl⟩ := h
  exact ⟨rfl, hdigest⟩

theorem compile_of_digest {tokens : List Token} (h : Template.digest Expression.read t = .ok tokens) :
    compile t = .ok (.of ⟨t, tokens⟩) := by
  rw [compile, compileWith_eq, h]
  rfl

/-- Tidy literals are one at most. -/
theorem length_le_one_of_isTidy (h : IsTidy tokens)
    (hlit : ∀ token ∈ tokens, token.isLiteral = true) : tokens.length ≤ 1 := by
  cases tokens with
  | nil => exact Nat.zero_le 1
  | cons a tokens =>
    cases tokens with
    | nil => exact Nat.le_refl 1
    | cons b tokens =>
      -- two literals would be neighbours
      have hchain := (List.isChain_cons_cons.mp h.separated).1
      exact absurd ⟨hlit a (by simp), hlit b (by simp)⟩ hchain

/-- Spans that stand for one literal are one gap, all of the text. -/
theorem eq_gap_of_cutStar {spans : List Template.Span} {g : Text} (h : cutStar spans = [.gap g]) :
    spans = [.gap g] := by
  rcases spans with _ | ⟨span, _ | ⟨next, spans⟩⟩
  · cases h
  · cases span with
    | expression e => exact h
    | gap g' =>
      rcases Template.cutStar_last g' with ⟨-, hcut⟩ | ⟨head, -, hcut⟩
      · rw [← hcut]
        exact h
      · -- a star that is cut off leaves an expression
        rw [hcut] at h
        cases head <;> simp [Template.Span.consGap] at h
  · rw [Template.cutStar_cons_cons] at h
    exact absurd (Template.cutStar_eq_nil_iff.mp (List.cons.inj h).2) (List.cons_ne_nil _ _)

/-- **A pattern without captures is its own text**: its only token is that literal. -/
theorem tokens_of_literals (h : compile t = .ok p)
    (hlit : ∀ token ∈ p.tokens, token.isLiteral = true) : p.tokens = [.literal t] := by
  obtain ⟨hne, hclean, hstands⟩ := Template.digest_eq_ok_iff.mp (digest_of_compile h).2
  have htidy := Template.isTidy_of_forall₂ (Template.Span.isScan_ofText t) hclean hstands
  have hspans : cutStar (Template.Span.ofText t) ≠ [] := by
    intro hnil
    have hflat := Template.Span.flatten_ofText t
    rw [Template.cutStar_eq_nil_iff.mp hnil] at hflat
    exact hne hflat.symm
  obtain ⟨span, spans, hcut⟩ := List.exists_cons_of_ne_nil hspans
  rw [hcut] at hstands
  obtain ⟨token, tokens, hfirst, hrest, htokens⟩ := List.forall₂_cons_left_iff.mp hstands
  have hlength := length_le_one_of_isTidy htidy hlit
  rw [htokens, List.length_cons] at hlength
  obtain rfl := List.length_eq_zero_iff.mp (show tokens.length = 0 by omega)
  cases hrest
  -- the one span is a gap, since an expression stands for no literal
  have hgap : Template.isGap span = true := by
    rw [Template.isGap_eq_isLiteral hfirst]
    exact hlit token (by rw [htokens]; exact List.mem_cons_self)
  cases span with
  | expression e => cases hgap
  | gap g =>
    have hflat := Template.Span.flatten_ofText t
    rw [eq_gap_of_cutStar hcut] at hflat
    have hg : g = t := by simpa [Template.Span.flatten, Template.Span.text] using hflat
    rw [htokens, ← hg]
    exact congrArg (fun token => [token]) hfirst

/-- A pattern that is a literal matches that text alone. -/
theorem matchesPath_of_literal (h : p.tokens = [.literal t]) :
    p.matchesPath path = true ↔ path = t := by
  rw [matchesPath_iff_cutting, h]
  constructor
  · rintro ⟨pieces, hcut⟩
    obtain ⟨piece, rest, s, -, rfl, hacc, hrest⟩ := isCutting_cons_iff.mp hcut
    obtain ⟨-, rfl⟩ := isCutting_nil_iff.mp hrest
    obtain rfl : piece = t := hacc
    exact List.append_nil piece
  · rintro rfl
    have hcut : IsCutting [.literal path] [path] (path ++ []) := .cons rfl .nil
    rw [List.append_nil] at hcut
    exact ⟨[path], hcut⟩

/-- It resolves it with no values, whatever the binder. -/
theorem resolve_of_literal (h : p.tokens = [.literal t]) (b : Binder) :
    p.resolve b t = ⟨.resolved, []⟩ := by
  obtain ⟨pieces, hpieces⟩ := matchesPath_iff_captures.mp ((matchesPath_of_literal h).mpr rfl)
  have hlength := length_of_captures_eq_some hpieces
  rw [h] at hlength
  obtain ⟨piece, rfl⟩ := List.length_eq_one_iff.mp hlength
  rw [resolve_of_captures_eq_some b hpieces, h]
  rfl

end UriRouting.Pattern
