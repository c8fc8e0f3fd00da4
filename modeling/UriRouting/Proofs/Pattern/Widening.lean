/-
# UriRouting.Proofs.Pattern.Widening — a wider pattern matches more and scores no higher

A token is widened when a literal gives way to a capture that still takes its text, or any other
token to a wildcard for the whole remainder (`Token.WidensTo`).  What a token accepts is then
accepted by the wider one too, so a cutting of a path stays a cutting, with the same pieces
(`IsCutting.mono`).  The score goes the other way: a literal has some text and counts for it, a
capture counts against the pattern, so every widening but one lowers the score.  The one is between
the two forms of wildcards, which count alike (`tokenScore_lt_or_loosens`).
-/
import UriRouting.Proofs.Pattern.Score

namespace UriRouting

/-! ## One token -/

/-- **`WidensTo a b`** — the token `b` is wider than `a`: a placeholder than a literal without
slash, a segments wildcard than a literal that starts with one, and a remainder wildcard than every
token of another kind. -/
inductive Token.WidensTo : Token → Token → Prop
  | literalToPlaceholder {text : Text} {v : Variable} {m : Modifier} (h : '/' ∉ text) :
    WidensTo (.literal text) (.placeholder v m)
  | literalToSegments {text : Text} {v : Variable} (h : text.head? = some '/') :
    WidensTo (.literal text) (.wildcard v .segments)
  | literalToRemainder {text : Text} {v : Variable} :
    WidensTo (.literal text) (.wildcard v .remainder)
  | placeholderToRemainder {v w : Variable} {m : Modifier} :
    WidensTo (.placeholder v m) (.wildcard w .remainder)
  | segmentsToRemainder {v w : Variable} :
    WidensTo (.wildcard v .segments) (.wildcard w .remainder)

/-- **`Loosens a b`** — a segments wildcard becomes a remainder wildcard. -/
def Token.Loosens (a b : Token) : Prop :=
  ∃ v w, a = .wildcard v .segments ∧ b = .wildcard w .remainder

namespace Token

variable {a b : Token} {piece : Text}

theorem accepts_of_agrees (h : a.agrees b = true) (hacc : a.Accepts piece) : b.Accepts piece := by
  cases a <;> cases b <;> simp only [agrees, decide_eq_true_eq, Bool.false_eq_true] at h
  case literal.literal text text' =>
    rw [← h]
    exact hacc
  case placeholder.placeholder => exact hacc
  case wildcard.wildcard v form w form' =>
    obtain ⟨-, rfl⟩ := h
    cases form <;> exact hacc

/-- A wider token accepts what the token does, unless that is a literal without text. -/
theorem WidensTo.accepts (h : a.WidensTo b) (hne : ∀ text, a = .literal text → text ≠ [])
    (hacc : a.Accepts piece) : b.Accepts piece := by
  cases h with
  | literalToPlaceholder hslash =>
    obtain rfl : piece = _ := hacc
    exact ⟨hne piece rfl, hslash⟩
  | literalToSegments hslash =>
    obtain rfl : piece = _ := hacc
    exact .inr hslash
  | literalToRemainder => trivial
  | placeholderToRemainder => trivial
  | segmentsToRemainder => trivial

end Token

namespace Pattern

variable {a b : Token}

theorem tokenScore_of_agrees (h : a.agrees b = true) : tokenScore b = tokenScore a := by
  cases a <;> cases b <;> simp only [Token.agrees, decide_eq_true_eq, Bool.false_eq_true] at h
  case literal.literal text text' => rw [h]
  case placeholder.placeholder => rfl
  case wildcard.wildcard => rfl

theorem tokenScore_of_loosens (h : a.Loosens b) : tokenScore b = tokenScore a := by
  obtain ⟨v, w, rfl, rfl⟩ := h
  rfl

/-- A literal with text counts for the pattern. -/
theorem tokenScore_literal_pos {text : Text} (hne : text ≠ []) :
    0 < tokenScore (.literal text) := by
  have hlength : 0 < text.length := List.length_pos_iff.mpr hne
  show 0 < 16 * (text.length : Int)
  omega

/-- **Widening lowers the score**, except between the two forms of wildcards. -/
theorem tokenScore_lt_or_loosens (h : a.WidensTo b) (hne : ∀ text, a = .literal text → text ≠ []) :
    tokenScore b < tokenScore a ∨ a.Loosens b := by
  cases h with
  | literalToPlaceholder _ =>
    exact .inl (Int.lt_trans (by decide : (-1 : Int) < 0) (tokenScore_literal_pos (hne _ rfl)))
  | literalToSegments _ =>
    exact .inl (Int.lt_trans (by decide : (-4 : Int) < 0) (tokenScore_literal_pos (hne _ rfl)))
  | literalToRemainder =>
    exact .inl (Int.lt_trans (by decide : (-4 : Int) < 0) (tokenScore_literal_pos (hne _ rfl)))
  | placeholderToRemainder => exact .inl (by decide : (-4 : Int) < -1)
  | segmentsToRemainder => exact .inr ⟨_, _, rfl, rfl⟩

/-- A token that agrees or is widened counts no less, and as much only without a real widening. -/
theorem tokenScore_le_of_widened (h : a.agrees b = true ∨ a.WidensTo b)
    (hne : ∀ text, a = .literal text → text ≠ []) :
    tokenScore b ≤ tokenScore a ∧
      (tokenScore b = tokenScore a ↔ a.agrees b = true ∨ a.Loosens b) := by
  have hsame : a.agrees b = true ∨ a.Loosens b → tokenScore b = tokenScore a :=
    fun hsame => hsame.elim tokenScore_of_agrees tokenScore_of_loosens
  rcases h with hagrees | hwidens
  · exact ⟨Int.le_of_eq (tokenScore_of_agrees hagrees), fun _ => .inl hagrees, hsame⟩
  · rcases tokenScore_lt_or_loosens hwidens hne with hlt | hloosens
    · exact ⟨Int.le_of_lt hlt, fun heq => absurd heq (Int.ne_of_lt hlt), hsame⟩
    · exact ⟨Int.le_of_eq (tokenScore_of_loosens hloosens), fun _ => .inr hloosens, hsame⟩

/-! ## Token by token -/

variable {as bs : List Token} {pieces : List Text} {path : Text}

/-- Tokens that accept at least the same pieces can be cut the same way. -/
theorem IsCutting.mono (h : IsCutting as pieces path)
    (hwider : List.Forall₂ (fun a b => ∀ piece, a.Accepts piece → b.Accepts piece) as bs) :
    IsCutting bs pieces path := by
  induction h generalizing bs with
  | nil =>
    cases hwider
    exact .nil
  | cons hacc _ ih =>
    cases hwider with
    | cons hfirst hrest => exact .cons (hfirst _ hacc) (ih hrest)

/-- Where no token counts more than its counterpart, neither do the tokens together, and they count
the same exactly if all of them do. -/
theorem scoreOf_le_of_forall₂ {Same : Token → Token → Prop}
    (h : List.Forall₂ (fun a b => tokenScore b ≤ tokenScore a ∧
      (tokenScore b = tokenScore a ↔ Same a b)) as bs) :
    scoreOf bs ≤ scoreOf as ∧ (scoreOf bs = scoreOf as ↔ List.Forall₂ Same as bs) := by
  induction h with
  | nil => exact ⟨Int.le_refl _, iff_of_true rfl .nil⟩
  | @cons a b as bs hfirst _ ih =>
    obtain ⟨hle, hsame⟩ := hfirst
    obtain ⟨hles, hsames⟩ := ih
    rw [List.forall₂_cons, ← hsame, ← hsames, scoreOf_cons, scoreOf_cons]
    omega

/-- **A wider pattern matches more and scores no higher.**  Let every token of the compiled pattern
`p` agree with the token of `q` at the same place or be widened to it.  Then `q` matches every path
that `p` matches.  Its score is not above that of `p`, and it is the same only if every token that
is widened is a segments wildcard that becomes a remainder wildcard. -/
theorem matches_and_score_of_widened {t : Text} {p q : Pattern} (hp : compile t = .ok p)
    (h : List.Forall₂ (fun a b => a.agrees b = true ∨ a.WidensTo b) p.tokens q.tokens) :
    (∀ path, p.matchesPath path = true → q.matchesPath path = true) ∧
    q.score ≤ p.score ∧
    (q.score = p.score ↔
      List.Forall₂ (fun a b => a.agrees b = true ∨ a.Loosens b) p.tokens q.tokens) := by
  have htidy := Template.isTidy_of_digest (digest_of_compile hp).2
  have htext : ∀ a ∈ p.tokens, ∀ text, a = .literal text → text ≠ [] := by
    rintro a ha text rfl
    exact (htidy.literal text ha).nonempty
  have hplaces := (List.forall₂_and_left _ _).mpr ⟨htext, h⟩
  refine ⟨fun path hpath => ?_, ?_⟩
  · obtain ⟨pieces, hcut⟩ := matchesPath_iff_cutting.mp hpath
    refine matchesPath_iff_cutting.mpr ⟨pieces, hcut.mono (hplaces.imp ?_)⟩
    rintro a b ⟨hne, hagrees | hwidens⟩ piece hacc
    · exact Token.accepts_of_agrees hagrees hacc
    · exact hwidens.accepts hne hacc
  · refine scoreOf_le_of_forall₂ (hplaces.imp ?_)
    rintro a b ⟨hne, hwider⟩
    exact tokenScore_le_of_widened hwider hne

/-- A literal becomes a segments wildcard, and the segments wildcard behind it takes a remainder: the
pattern for documents is wider than that for the files of one directory, and scores less. -/
theorem matches_and_score_of_widened_directory :
    let p : Pattern := .of ⟨Text.ofString "/doc\x7b/path*\x7d",
      [.literal (Text.ofString "/doc"), .wildcard ⟨Text.ofString "path", none, none⟩ .segments]⟩
    let q : Pattern := .of ⟨Text.ofString "\x7b/dir*\x7d\x7bpath*\x7d",
      [.wildcard ⟨Text.ofString "dir", none, none⟩ .segments,
        .wildcard ⟨Text.ofString "path", none, none⟩ .remainder]⟩
    compile p.source = .ok p ∧ compile q.source = .ok q ∧
      List.Forall₂ (fun a b => a.agrees b = true ∨ a.WidensTo b) p.tokens q.tokens ∧
      p.matchesPath (Text.ofString "/doc/a/b") = true ∧
      q.matchesPath (Text.ofString "/doc/a/b") = true ∧ q.score < p.score := by
  intro p q
  have hp : compile p.source = .ok p := rfl
  have hq : compile q.source = .ok q := rfl
  have hwider : List.Forall₂ (fun a b => a.agrees b = true ∨ a.WidensTo b) p.tokens q.tokens :=
    .cons (.inr (.literalToSegments rfl)) (.cons (.inr .segmentsToRemainder) .nil)
  obtain ⟨hmatches, hle, hsame⟩ := matches_and_score_of_widened hp hwider
  have hpath : p.matchesPath (Text.ofString "/doc/a/b") = true := by decide
  refine ⟨hp, hq, hwider, hpath, hmatches _ hpath, lt_of_le_of_ne hle fun heq => ?_⟩
  cases hsame.mp heq with
  | cons hfirst _ =>
    rcases hfirst with hagrees | ⟨v, w, hliteral, -⟩
    · cases hagrees
    · cases hliteral

end Pattern

end UriRouting
