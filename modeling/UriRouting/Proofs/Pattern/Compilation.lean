/-
# UriRouting.Proofs.Pattern.Compilation — every template can be matched

Between a template and its pattern stand two checks: the text that the tokens write must be an
expression, and the expression must have a capture group for each token.  A resolution checks the
second once more, before it gives each token the text of its group.  None of them ever fails.  A
fragment is one group whatever its token is, and a literal, with all that means something in an
expression quoted, adds no other (`Pattern.read_sourceOf`, `Pattern.groupCount_expressionOf`).  So a
text has a pattern exactly if it is a template, and otherwise the fault of the template is the one
that is reported.
-/
import UriRouting.Proofs.Binding.Resolution

namespace UriRouting.Pattern

/-- The check of a resolution never fails. -/
theorem resolve_eq_unchecked (p : Pattern) (b : Binder) (path : Text) :
    p.resolve b path =
      match p.expression.captures path with
      | some groups =>
        .ofCaptures b (Captures.recordAll (p.tokens.zip (groups.map (·.getD []))) [])
      | none => .mismatch := by
  rw [resolve]
  cases h : p.expression.captures path with
  | none => rfl
  | some groups => exact if_pos (length_of_expression_captures h)

/-- A text has a pattern exactly if it is a template. -/
theorem compileWith_eq_ok_iff {factory : TokenFactory} {t : Text} {p : Pattern} :
    compileWith factory t = .ok p ↔
      ∃ tokens, Template.digest factory t = .ok tokens ∧ p = .of ⟨t, tokens⟩ := by
  rw [compileWith_eq]
  cases Template.digest factory t with
  | error fault => simp [Except.map]
  | ok tokens => simp [Except.map, eq_comm]

/-- A text has no pattern for the reason for which it is no template. -/
theorem compileWith_eq_error_iff {factory : TokenFactory} {t : Text} {e : TemplateError} :
    compileWith factory t = .error e ↔ Template.digest factory t = .error e := by
  rw [compileWith_eq]
  cases Template.digest factory t with
  | error fault => simp [Except.map]
  | ok tokens => simp [Except.map]

/-- **Only a fault of the template keeps it from being matched**, whatever tokens the factory makes.
The text that any tokens write is an expression with a group for each of them; hence neither of the
checks between a template and its pattern fails, and nor does the check of a resolution, in which
each token finds a captured text. -/
theorem compileWith_fails_as_digest (factory : TokenFactory) (t : Text) :
    (∀ e, compileWith factory t = .error e ↔ Template.digest factory t = .error e) ∧
    (∀ p, compileWith factory t = .ok p ↔
      ∃ tokens, Template.digest factory t = .ok tokens ∧ p = .of ⟨t, tokens⟩) ∧
    (∀ tokens : List Token,
      ∃ r, Regex.read (['^'] ++ tokens.flatMap Token.fragment ++ ['$']) = .ok r ∧
        r.groupCount = tokens.length) ∧
    (∀ template, ofTemplate template = .ok (.of template)) ∧
    (∀ p : Pattern, p.groups = p.tokens.length) ∧
    (∀ (p : Pattern) (b : Binder) (path : Text), p.resolve b path =
      match p.expression.captures path with
      | some groups =>
        .ofCaptures b (Captures.recordAll (p.tokens.zip (groups.map (·.getD []))) [])
      | none => .mismatch) ∧
    ∀ (p : Pattern) (path : Text), (p.captures path).map List.length =
      if p.matchesPath path then some p.tokens.length else none := by
  refine ⟨fun e => compileWith_eq_error_iff, fun p => compileWith_eq_ok_iff, fun tokens => ?_,
    ofTemplate_eq_ok, groups_eq_length, resolve_eq_unchecked, fun p path => ?_⟩
  · exact ⟨expressionOf tokens, read_sourceOf tokens, groupCount_expressionOf tokens⟩
  · rw [matchesPath_eq_isSome]
    cases hcaptures : p.captures path with
    | none => rfl
    | some pieces => exact congrArg some (length_of_captures_eq_some hcaptures)

/-- Parentheses, brackets and backslashes of a literal open no group. -/
example : (Regex.read (sourceOf [.literal ['(', '?', '[', '\\', ')', '('],
    .placeholder ⟨['a'], none, none⟩ .plain])).map Regex.groupCount = .ok 2 := by
  rfl

end UriRouting.Pattern
