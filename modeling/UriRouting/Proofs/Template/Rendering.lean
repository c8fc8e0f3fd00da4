/-
# UriRouting.Proofs.Template.Rendering — reading a rendered template back

The tokens of a template are rendered one after another.  A token that is rendered as an expression
is read back from it: its clause is written without needless blanks, and the default that it was
read with is trimmed already and closes no expression (`read_render`).  Neighbours do not run into
each other, since an expression has its braces and no two literals stand side by side.

Only the bare star has no bounds of its own.  It joins the gap around it, and is read as a wildcard
if the text ends there and refused if it does not (`digestSpans_star_append`).  So the rendered text
is read as the tokens it was rendered from, but for what a bare star cannot say: that other tokens
follow it, or that the wildcard has a default (`digestSpans_render`).
-/
import UriRouting.Proofs.Template.Digest

namespace UriRouting

/-- **`Token.star default`** — the wildcard that is rendered as a bare star: it has the name of the
trailing one and no type, and may have a default. -/
def Token.star (default : Option Text) : Token :=
  .wildcard ⟨Variable.wildcardName, none, default⟩ .remainder

/-- Whether a token is rendered as a bare star. -/
def Token.isStar : Token → Bool
  | .wildcard v .remainder => v.name = Variable.wildcardName ∧ v.type = none
  | _ => false

/-- **`Token.reread token`** — what the rendered token is read as: a bare star has no default. -/
def Token.reread (token : Token) : Token :=
  if token.isStar then .star none else token

theorem Token.isStar_iff {token : Token} :
    token.isStar = true ↔ ∃ default, token = .star default := by
  unfold Token.star
  constructor
  · intro h
    obtain _ | _ | ⟨⟨name, type, default⟩, _ | _⟩ := token <;> simp [Token.isStar] at h ⊢
    exact h
  · rintro ⟨default, rfl⟩
    simp [Token.isStar]

theorem Token.render_of_isStar {token : Token} (h : token.isStar = true) :
    token.render = ['*'] := by
  obtain ⟨default, rfl⟩ := Token.isStar_iff.mp h
  rfl

theorem Token.render_reread (token : Token) : token.reread.render = token.render := by
  unfold Token.reread
  split
  · rename_i hstar
    rw [Token.render_of_isStar hstar]
    rfl
  · rfl

theorem Token.reread_eq_self_iff {token : Token} :
    token.reread = token ↔ ∀ default, token = .star default → default = none := by
  unfold Token.reread
  by_cases hstar : token.isStar = true
  · obtain ⟨default, rfl⟩ := Token.isStar_iff.mp hstar
    rw [if_pos hstar]
    simp [Token.star, eq_comm]
  · rw [if_neg hstar]
    exact iff_of_true rfl fun default h => absurd (Token.isStar_iff.mpr ⟨default, h⟩) hstar

/-! ## §1 One expression -/

namespace Expression

open Text (trim)

/-- **`Spacing.tight`** — no blanks in any place. -/
def Spacing.tight : Spacing :=
  ⟨noBlanks, noBlanks, noBlanks, noBlanks, noBlanks, noBlanks, noBlanks⟩

/-- **`IsTight c`** — the default of the clause is trimmed, and no brace in it closes the
expression. -/
def Clause.IsTight (c : Clause) : Prop :=
  ∀ d, c.default = some d → trim d.val = d.val ∧ '}' ∉ d.val

/-- **`IsWritable token`** — a tight clause stands for the token. -/
def IsWritable (token : Token) : Prop :=
  ∃ c : Clause, c.IsSupported ∧ c.IsTight ∧ c.token = token

/-- A default value without the blanks at its ends. -/
def DefaultText.trimmed (d : DefaultText) : DefaultText :=
  ⟨trim d.val, fun h => d.property (Text.mem_of_mem_trim h)⟩

/-- The clause with its default trimmed. -/
def Clause.trimmed (c : Clause) : Clause := { c with default := c.default.map DefaultText.trimmed }

theorem Clause.token_trimmed (c : Clause) : c.trimmed.token = c.token := by
  have hvariable : c.trimmed.variable = c.variable := by
    unfold Clause.variable Clause.trimmed
    cases c.default with
    | none => rfl
    | some d => simp [DefaultText.trimmed, Text.trim_trim]
  unfold Clause.token
  rw [hvariable]
  rfl

theorem Clause.isTight_trimmed {c : Clause} {s : Spacing} (h : '}' ∉ c.write s) :
    c.trimmed.IsTight := by
  intro d hd
  obtain ⟨d, hc, rfl⟩ := Option.map_eq_some_iff.mp hd
  refine ⟨Text.trim_trim d.val, fun hbrace => h ?_⟩
  have hmem : '}' ∈ d.val := Text.mem_of_mem_trim hbrace
  simp [Clause.write, hc, writeDefault, hmem]

/-- An expression that ends at its first closing brace stands for a writable token. -/
theorem isWritable_of_read {e : Text} {token : Token} (h : read e = .ok token)
    (hbrace : ∀ body, e = '{' :: (body ++ ['}']) → '}' ∉ body) : IsWritable token := by
  rcases read_eq_ok_iff.mp h with ⟨-, rfl⟩ | ⟨body, rfl, hbody⟩
  · let name : Name := ⟨Variable.wildcardName, List.cons_ne_nil _ _, List.all_eq_true.mp rfl⟩
    exact ⟨⟨false, none, name, true, none, .plain⟩, ⟨by simp, by simp⟩, nofun, rfl⟩
  · obtain ⟨c, hsupported, ⟨s, rfl⟩, rfl⟩ := readBody_eq_ok_iff.mp hbody
    have htight : c.trimmed.IsTight := Clause.isTight_trimmed (hbrace _ rfl)
    exact ⟨c.trimmed, ⟨hsupported.1, hsupported.2⟩, htight, c.token_trimmed⟩

theorem Clause.brace_not_mem_write {c : Clause} (h : c.IsTight) : '}' ∉ c.write .tight := by
  have hheading : '}' ∉ c.writeHeading .tight :=
    Clause.not_mem_writeHeading .tight rfl rfl (by decide) fun d hd => (h d hd).2
  have hmodifier : '}' ∉ writeModifier noBlanks c.modifier := by
    cases c.modifier <;> decide
  have hblanks : '}' ∉ noBlanks.val := not_mem_blanks rfl noBlanks
  simp only [Clause.write_eq, Spacing.tight, List.mem_append, not_or]
  exact ⟨hheading, hmodifier, hblanks⟩

/-- What is not rendered as a bare star is rendered as its clause, tightly written. -/
theorem Clause.render_token {c : Clause} (hsupported : c.IsSupported) (htight : c.IsTight)
    (hstar : c.token.isStar = false) : c.token.render = c.expression .tight := by
  have htype : Token.renderType c.variable = writeType c.type noBlanks noBlanks := by
    unfold Token.renderType Clause.variable
    cases c.type <;> simp [writeType, noBlanks]
  have hdefault : Token.renderDefault c.variable = writeDefault c.default := by
    unfold Token.renderDefault Clause.variable
    cases hd : c.default with
    | none => rfl
    | some d => simp [writeDefault, (htight d hd).1]
  have hexpression : c.expression .tight = '{' :: (mark c.slash '/' ++
      Token.renderType c.variable ++ c.name.val ++ mark c.star '*' ++
      Token.renderDefault c.variable ++ writeModifier noBlanks c.modifier ++ ['}']) := by
    rw [htype, hdefault]
    simp [Clause.expression, Clause.write, Spacing.tight, noBlanks]
  have hname : c.variable.name = c.name.val := rfl
  obtain ⟨hslash, hplain⟩ := hsupported
  rw [hexpression]
  unfold Clause.token at hstar ⊢
  cases hs : c.star with
  | false =>
    -- without a star there is no slash
    have hnone : c.slash = false := by simpa [hs] using hslash
    cases hm : c.modifier <;>
      simp [Token.render, hnone, hname, mark, writeModifier, noBlanks, encodeWord]
  | true =>
    rw [hplain hs]
    cases hl : c.slash with
    | false =>
      have hnot : ¬ (c.variable.name = Variable.wildcardName ∧ c.variable.type = none) := by
        simpa [hs, hl, Token.isStar] using hstar
      show Token.render (.wildcard c.variable .remainder) = _
      rw [Token.render, if_neg hnot]
      simp [hname, mark, writeModifier]
    | true => simp [Token.render, hname, mark, writeModifier]

/-- **A token that is rendered as an expression is read back from it.** -/
theorem read_render {token : Token} (h : IsWritable token) (hstar : token.isStar = false) :
    ∃ body, token.render = '{' :: (body ++ ['}']) ∧ '}' ∉ body ∧
      read token.render = .ok token := by
  obtain ⟨c, hsupported, htight, rfl⟩ := h
  have hrender := c.render_token hsupported htight hstar
  refine ⟨c.write .tight, hrender, Clause.brace_not_mem_write htight, ?_⟩
  rw [hrender]
  exact (read_expression c .tight).mpr ⟨hsupported, rfl⟩

end Expression

/-! ## §2 One step through a text -/

namespace Template

open Template.Span (ofText scan consGap)

variable {factory : TokenFactory} {position : Nat} {g body t : Text}

theorem digestSpans_gap_last (g : Text) :
    digestSpans factory position [.gap g] = (do
      checkGap true position g
      lastGap factory g) := rfl

theorem digestSpans_expression_append {token : Token} (hbody : '}' ∉ body)
    (h : factory ('{' :: (body ++ ['}'])) = .ok token) :
    digestSpans factory position (ofText ('{' :: (body ++ '}' :: t))) =
      (token :: ·) <$> digestSpans factory (position + Text.width ('{' :: (body ++ ['}'])))
        (ofText t) := by
  rw [Span.ofText_expression_append hbody, digestSpans_expression, h]
  rfl

theorem IsLiteral.isPlain (h : IsLiteral g) (rest : Text) : IsPlain g rest := by
  refine ⟨h.noOpening, h.noClosing, ?_⟩
  rintro front back rfl
  exact absurd h.noStar (by simp)

/-- A literal in front of an expression, or at the end of the text, is a gap of its own. -/
theorem digestSpans_literal_append (hg : IsLiteral g)
    (ht : ∀ g' rest, ofText t ≠ .gap g' :: rest) :
    digestSpans factory position (ofText (g ++ t)) =
      (.literal g :: ·) <$> digestSpans factory (position + Text.width g) (ofText t) := by
  obtain ⟨hfront, hrest⟩ := Span.consGap_eq_of_whole (g := (scan false t).1) ht rfl
  have hopening : ∀ front back, g = front ++ '{' :: back → '}' ∉ back ++ t := by
    rintro front back rfl
    exact absurd hg.noOpening (by simp)
  rw [Span.ofText_gap_append hg.nonempty hopening, hfront, hrest, List.append_nil]
  cases hspans : ofText t with
  | nil =>
    have hcheck := (checkGap_eq_ok_iff (iff_of_true rfl rfl) position).mpr (hg.isPlain [])
    have hstrip : Text.stripLast '*' g = none := by
      rw [Option.eq_none_iff_forall_ne_some]
      intro head hhead
      rw [Text.stripLast_eq_some_iff.mp hhead] at hg
      exact absurd hg.noStar (by simp)
    rw [digestSpans_gap_last, hcheck, lastGap, hstrip]
    rfl
  | cons span spans =>
    have hlast : false = true ↔ ['*'] = ([] : Text) := by simp
    have hcheck := (checkGap_eq_ok_iff hlast position).mpr (hg.isPlain ['*'])
    rw [digestSpans_gap_cons, hcheck]
    rfl

/-- A star may end the last gap. -/
theorem isPlain_concat_star (ho : '{' ∉ g) (hc : '}' ∉ g) (hs : '*' ∉ g) :
    IsPlain (g ++ ['*']) [] := by
  induction g with
  | nil => exact isPlain_cons_iff.mpr ⟨by decide, by decide, by simp, isPlain_nil⟩
  | cons c g ih =>
    simp only [List.mem_cons, not_or] at ho hc hs
    exact isPlain_cons_iff.mpr ⟨Ne.symm ho.1, Ne.symm hc.1, fun h => absurd h.symm hs.1,
      ih ho.2 hc.2 hs.2⟩

/-- The check of a gap goes over its text up to a star, and there it looks at what follows. -/
theorem checkGap_star {more : Text} (last : Bool) (ho : '{' ∉ g) (hc : '}' ∉ g) (hs : '*' ∉ g)
    (hmore : ¬ (last = true ∧ more = [])) :
    checkGap last position (g ++ '*' :: more) =
      .error (.misplacedWildcard (position + Text.width g)) := by
  rw [checkGap_append last ho hc hs]
  simp [checkGap, hmore]

theorem literal?_of_ne_nil (h : g ≠ []) : literal? g = [.literal g] := by
  cases g with
  | nil => exact absurd rfl h
  | cons c g => rfl

/-- **A bare star** behind the text of a gap ends the template or is misplaced. -/
theorem digestSpans_star_append (ho : '{' ∉ g) (hc : '}' ∉ g) (hs : '*' ∉ g) :
    digestSpans Expression.read position (ofText (g ++ '*' :: t)) =
      if t = [] then .ok (literal? g ++ [.star none])
      else .error (.misplacedWildcard (position + Text.width g)) := by
  have hopening : ∀ front back, g ++ ['*'] = front ++ '{' :: back → '}' ∉ back ++ t := by
    intro front back h
    have hmem : '{' ∈ g ++ ['*'] := by simp [h]
    exact absurd hmem (by simp [ho])
  have hspans := Span.ofText_gap_append (g := g ++ ['*']) (by simp) hopening
  rw [List.append_assoc, List.append_assoc, List.singleton_append, List.singleton_append] at hspans
  rw [hspans]
  by_cases ht : t = []
  · subst ht
    have hplain := isPlain_concat_star ho hc hs
    have hcheck := (checkGap_eq_ok_iff (iff_of_true rfl rfl) position).mpr hplain
    have hstrip : Text.stripLast '*' (g ++ ['*']) = some g := Text.stripLast_eq_some_iff.mpr rfl
    rw [if_pos rfl]
    show digestSpans Expression.read position [.gap (g ++ ['*'])] = _
    rw [digestSpans_gap_last, hcheck, lastGap, hstrip]
    rfl
  · rw [if_neg ht]
    -- the gap goes on after the star, or an expression follows it
    have hrest := Span.scan_append_flatten false t
    cases hspans : (scan false t).2 with
    | nil =>
      have hmore : ¬ (true = true ∧ (scan false t).1 = []) := by
        rintro ⟨-, hnil⟩
        rw [hnil, hspans] at hrest
        exact ht hrest.symm
      rw [digestSpans_gap_last, checkGap_star true ho hc hs hmore]
      rfl
    | cons span spans =>
      rw [digestSpans_gap_cons, checkGap_star false ho hc hs (by simp)]
      rfl

/-! ## §3 The whole rendered text -/

/-- **`IsRenderable tokens`** — the tokens are tidy, and those that are no literals are writable. -/
structure IsRenderable (tokens : List Token) : Prop extends IsTidy tokens where
  writable : ∀ token ∈ tokens, token.isLiteral = false → Expression.IsWritable token

/-- The tokens of a template are renderable. -/
theorem isRenderable_of_digest {tokens : List Token}
    (h : digest Expression.read t = .ok tokens) : IsRenderable tokens := by
  obtain ⟨-, hclean, htokens⟩ := digest_eq_ok_iff.mp h
  refine ⟨isTidy_of_forall₂ (Span.isScan_ofText t) hclean htokens, fun token htoken hliteral => ?_⟩
  obtain ⟨span, hspan, hstands⟩ := exists_of_mem_forall₂ htokens htoken
  cases span with
  | gap g =>
    obtain rfl : token = .literal g := hstands
    cases hliteral
  | expression e =>
    -- an expression of the text ends at its first closing brace
    refine Expression.isWritable_of_read hstands ?_
    rintro body rfl
    rcases expression_mem_cutStar_iff.mp hspan with hmem | ⟨hstar, -⟩
    · obtain ⟨body', heq, hbody⟩ := (Span.isScan_ofText t).exists_body hmem
      rw [List.append_cancel_right (List.cons.inj heq).2]
      exact hbody
    · cases hstar

variable {token : Token} {tokens : List Token}

theorem IsRenderable.tail (h : IsRenderable (token :: tokens)) : IsRenderable tokens where
  literal g hg := h.literal g (List.mem_cons_of_mem _ hg)
  separated := h.separated.tail
  named t ht := h.named t (List.mem_cons_of_mem _ ht)
  writable t ht := h.writable t (List.mem_cons_of_mem _ ht)

/-- A token is rendered as its text, as a bare star, or as an expression that is read as it. -/
theorem IsRenderable.rendered (h : IsRenderable (token :: tokens)) :
    (∃ g, token = .literal g ∧ IsLiteral g) ∨
      (token.isStar = true ∧ token.render = ['*']) ∨
      (token.isStar = false ∧ ∃ body, token.render = '{' :: (body ++ ['}']) ∧ '}' ∉ body ∧
        Expression.read token.render = .ok token) := by
  cases hliteral : token.isLiteral with
  | true =>
    cases token with
    | literal g => exact .inl ⟨g, rfl, h.literal g List.mem_cons_self⟩
    | placeholder v m => cases hliteral
    | wildcard v form => cases hliteral
  | false =>
    right
    cases hstar : token.isStar with
    | true => exact .inl ⟨rfl, Token.render_of_isStar hstar⟩
    | false =>
      have hwritable := h.writable token List.mem_cons_self hliteral
      exact .inr ⟨rfl, Expression.read_render hwritable hstar⟩

theorem flatMap_render_eq_nil_iff (h : IsRenderable tokens) :
    tokens.flatMap Token.render = [] ↔ tokens = [] := by
  cases tokens with
  | nil => simp
  | cons token tokens =>
    have hne : token.render ≠ [] := by
      rcases h.rendered with ⟨g, rfl, hg⟩ | ⟨-, hrender⟩ | ⟨-, body, hrender, -⟩
      · exact hg.nonempty
      · simp [hrender]
      · simp [hrender]
    simp [hne]

/-- Behind a literal the rendered tokens start with no gap, unless they start with a star. -/
theorem ofText_render_ne_gap (h : IsRenderable (.literal g :: tokens))
    (hnext : ∀ star rest, tokens = star :: rest → star.isStar = false) (g' : Text)
    (spans : List Span) : ofText (tokens.flatMap Token.render) ≠ .gap g' :: spans := by
  cases tokens with
  | nil => simp [ofText, scan, consGap]
  | cons token tokens =>
    have hseparated := (List.isChain_cons_cons.mp h.separated).1
    rcases h.tail.rendered with ⟨g, rfl, -⟩ | ⟨hstar, -⟩ | ⟨-, body, hrender, hbody, -⟩
    · exact absurd ⟨rfl, rfl⟩ hseparated
    · rw [hnext token tokens rfl] at hstar
      cases hstar
    · rw [List.flatMap_cons, hrender, List.cons_append, List.append_assoc, List.singleton_append,
        Span.ofText_expression_append hbody]
      simp

/-- **`misplacedStar? position tokens`** — where the first star that other tokens follow stands in
the text rendered from a position on. -/
def misplacedStar? : Nat → List Token → Option Nat
  | _, [] => none
  | position, token :: tokens =>
    if token.isStar ∧ tokens ≠ [] then some position
    else misplacedStar? (position + Text.width token.render) tokens

/-- **`rereading position tokens`** — what reading the rendered tokens gives: an error at a
misplaced star, or the tokens reread. -/
def rereading (position : Nat) (tokens : List Token) : Except TemplateError (List Token) :=
  match misplacedStar? position tokens with
  | some place => .error (.misplacedWildcard place)
  | none => .ok (tokens.map Token.reread)

theorem rereading_cons (hstar : token.isStar = false) :
    rereading position (token :: tokens) =
      (token :: ·) <$> rereading (position + Text.width token.render) tokens := by
  have hreread : token.reread = token := by simp [Token.reread, hstar]
  unfold rereading
  rw [misplacedStar?, if_neg (by simp [hstar]), List.map_cons, hreread]
  cases misplacedStar? (position + Text.width token.render) tokens <;> rfl

theorem rereading_star (hstar : token.isStar = true) :
    rereading position (token :: tokens) =
      if tokens = [] then .ok [.star none]
      else .error (.misplacedWildcard position) := by
  unfold rereading
  by_cases h : tokens = []
  · subst h
    simp [misplacedStar?, Token.reread, hstar]
  · simp [misplacedStar?, hstar, h]

/-- **The rendered text is read as the tokens reread.** -/
theorem digestSpans_render (h : IsRenderable tokens) (position : Nat) :
    digestSpans Expression.read position (ofText (tokens.flatMap Token.render)) =
      rereading position tokens := by
  induction tokens generalizing position with
  | nil => rfl
  | cons token tokens ih =>
    have ih := ih h.tail
    have hnil := flatMap_render_eq_nil_iff h.tail
    rw [List.flatMap_cons]
    rcases h.rendered with ⟨g, rfl, hg⟩ | ⟨hstar, hrender⟩ | ⟨hstar, body, hrender, hbody, hread⟩
    · rw [rereading_cons rfl]
      show digestSpans Expression.read position (ofText (g ++ _)) = _
      by_cases hnext : ∀ star rest, tokens = star :: rest → star.isStar = false
      · rw [digestSpans_literal_append hg (ofText_render_ne_gap h hnext), ih]
        rfl
      · -- the star behind the literal joins its gap
        push Not at hnext
        obtain ⟨star, rest, rfl, hstar⟩ := hnext
        have hstar : star.isStar = true := by simpa using hstar
        rw [List.flatMap_cons, Token.render_of_isStar hstar, List.singleton_append,
          digestSpans_star_append hg.noOpening hg.noClosing hg.noStar, rereading_star hstar]
        simp only [flatMap_render_eq_nil_iff h.tail.tail, literal?_of_ne_nil hg.nonempty]
        by_cases hrest : rest = []
        · rw [if_pos hrest, if_pos hrest]
          rfl
        · rw [if_neg hrest, if_neg hrest]
          rfl
    · have hread : digestSpans Expression.read position
          (ofText ([] ++ '*' :: tokens.flatMap Token.render)) = _ :=
        digestSpans_star_append (by simp) (by simp) (by simp)
      rw [hrender, rereading_star hstar]
      simpa [hnil, literal?] using hread
    · rw [hrender] at hread
      rw [rereading_cons hstar, ← ih, hrender, List.cons_append, List.append_assoc,
        List.singleton_append, digestSpans_expression_append hbody hread]

/-! ## §4 Normal forms -/

theorem misplacedStar?_eq_none_iff :
    misplacedStar? position tokens = none ↔
      ∀ before default after, tokens = before ++ .star default :: after → after = [] := by
  induction tokens generalizing position with
  | nil => simp [misplacedStar?]
  | cons token tokens ih =>
    unfold misplacedStar?
    by_cases hhere : token.isStar = true ∧ tokens ≠ []
    · rw [if_pos hhere]
      obtain ⟨default, rfl⟩ := Token.isStar_iff.mp hhere.1
      exact iff_of_false (Option.some_ne_none _) fun h => hhere.2 (h [] default tokens rfl)
    · rw [if_neg hhere, ih]
      refine ⟨fun h before default after heq => ?_, fun h before default after heq => ?_⟩
      · cases before with
        | nil =>
          obtain ⟨rfl, rfl⟩ := List.cons.inj heq
          by_contra hafter
          exact hhere ⟨Token.isStar_iff.mpr ⟨default, rfl⟩, hafter⟩
        | cons _ before => exact h before default after (List.cons.inj heq).2
      · exact h (token :: before) default after (congrArg _ heq)

theorem rereading_eq_self_iff :
    rereading position tokens = .ok tokens ↔
      ∀ before default after, tokens = before ++ .star default :: after →
        after = [] ∧ default = none := by
  have hplace : misplacedStar? position tokens = none ↔ _ := misplacedStar?_eq_none_iff
  have hmap : tokens.map Token.reread = tokens ↔ ∀ token ∈ tokens, token.reread = token := by
    simpa using List.map_inj_left (l := tokens) (f := Token.reread) (g := id)
  have hok : rereading position tokens = .ok tokens ↔
      misplacedStar? position tokens = none ∧ tokens.map Token.reread = tokens := by
    unfold rereading
    cases misplacedStar? position tokens <;> simp
  rw [hok, hplace, hmap]
  constructor
  · rintro ⟨hlast, hself⟩ before default after rfl
    have hmem : Token.star default ∈ before ++ Token.star default :: after := by simp
    exact ⟨hlast before default after rfl,
      Token.reread_eq_self_iff.mp (hself _ hmem) default rfl⟩
  · intro h
    refine ⟨fun before default after heq => (h before default after heq).1, fun token htoken => ?_⟩
    obtain ⟨before, after, heq⟩ := List.append_of_mem htoken
    refine Token.reread_eq_self_iff.mpr ?_
    rintro default rfl
    exact (h before default after heq).2

theorem exists_rereading_eq_error
    (h : ∃ before default after, tokens = before ++ .star default :: after ∧ after ≠ []) :
    ∃ place, rereading position tokens = .error (.misplacedWildcard place) := by
  unfold rereading
  cases hplace : misplacedStar? position tokens with
  | some place => exact ⟨place, rfl⟩
  | none =>
    obtain ⟨before, default, after, heq, hafter⟩ := h
    exact absurd (misplacedStar?_eq_none_iff.mp hplace before default after heq) hafter

theorem flatMap_render_of_rereading {tokens' : List Token}
    (h : rereading position tokens = .ok tokens') :
    tokens'.flatMap Token.render = tokens.flatMap Token.render := by
  unfold rereading at h
  cases hplace : misplacedStar? position tokens with
  | some place =>
    rw [hplace] at h
    cases h
  | none =>
    rw [hplace] at h
    obtain rfl := Except.ok.inj h
    rw [List.flatMap_map]
    exact congrArg (tokens.flatMap ·) (funext Token.render_reread)

/-- **Reading the rendered template**: a star that is not the last token is found misplaced, and
otherwise the tokens are read again, without the default of a last star. -/
theorem digest_render {tokens : List Token} (h : digest Expression.read t = .ok tokens) :
    digest Expression.read (render ⟨t, tokens⟩) = rereading 0 tokens := by
  have hrenderable := isRenderable_of_digest h
  have hne : render ⟨t, tokens⟩ ≠ [] := by
    rw [render, ne_eq, flatMap_render_eq_nil_iff hrenderable]
    rintro rfl
    obtain ⟨ht, -, htokens⟩ := digest_eq_ok_iff.mp h
    have hspans := cutStar_eq_nil_iff.mp (List.forall₂_nil_right_iff.mp htokens)
    apply ht
    rw [← Span.flatten_ofText t, hspans]
    rfl
  rw [← digestSpans_render hrenderable, digest_of_ne_nil hne]
  rfl

/-- **The rendered template is a normal form.**  Let `r` be the rendered tokens of a template.  It
is read as the same tokens, defaults included, exactly if every bare star of them is the last token
and has no default.  With a star that other tokens follow `r` is no template, for that star.
Whatever tokens `r` is read as are rendered as `r` again. -/
theorem digest_render_normal_form {tokens : List Token}
    (h : digest Expression.read t = .ok tokens) :
    let r := render ⟨t, tokens⟩
    (digest Expression.read r = .ok tokens ↔
      ∀ before default after, tokens = before ++ .star default :: after →
        after = [] ∧ default = none) ∧
    ((∃ before default after, tokens = before ++ .star default :: after ∧ after ≠ []) →
      ∃ position, digest Expression.read r = .error (.misplacedWildcard position)) ∧
    ∀ tokens', digest Expression.read r = .ok tokens' → render ⟨r, tokens'⟩ = r := by
  intro r
  have hread : digest Expression.read r = rereading 0 tokens := digest_render h
  rw [hread]
  exact ⟨rereading_eq_self_iff, exists_rereading_eq_error,
    fun tokens' htokens' => flatMap_render_of_rereading htokens'⟩

/-- Blanks are dropped, a default may hold what opens an expression, and a wildcard in braces that
other text follows is misplaced once it is rendered as a bare star. -/
theorem digest_render_spaced :
    let t := Text.ofString "\x7b int : n = x\x7b=* |encode\x7d\x7bwildcard*\x7d"
    let tokens : List Token :=
      [.placeholder ⟨['n'], some (Text.ofString "int"), some (Text.ofString "x\x7b=*")⟩ .encoded,
        .star none]
    let misplaced := Text.ofString "\x7bwildcard*=d\x7d/b"
    let tokens' : List Token := [.star (some ['d']), .literal ['/', 'b']]
    (digest Expression.read t = .ok tokens ∧
      digest Expression.read (render ⟨t, tokens⟩) = .ok tokens) ∧
    digest Expression.read misplaced = .ok tokens' ∧
      ∃ position, digest Expression.read (render ⟨misplaced, tokens'⟩) =
        .error (.misplacedWildcard position) := by
  intro t tokens misplaced tokens'
  have h : digest Expression.read t = .ok tokens := rfl
  have h' : digest Expression.read misplaced = .ok tokens' := rfl
  refine ⟨⟨h, (digest_render_normal_form h).1.mpr ?_⟩, h', (digest_render_normal_form h').2.1 ?_⟩
  · intro before default after heq
    obtain _ | ⟨_, _ | ⟨_, before⟩⟩ := before <;> simp [tokens, Token.star] at heq
    exact ⟨heq.2.2, heq.2.1.symm⟩
  · exact ⟨[], some ['d'], [.literal ['/', 'b']], rfl, by simp⟩

end Template

end UriRouting
