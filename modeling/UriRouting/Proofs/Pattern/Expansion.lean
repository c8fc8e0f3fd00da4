/-
# UriRouting.Proofs.Pattern.Expansion — an expansion fits its own pattern

A token accepts the text it is expanded to, unless a placeholder is given a text that it cannot
capture (`Token.accepts_expand_iff_fits`).  Encoding helps with slashes, since an encoded text has
none, but not with an empty text.  A wildcard has no such condition: what a segments wildcard writes
is empty or starts with a slash, whatever it is given.

So the texts of the tokens are a cutting of the expansion, however the tokens compete for it, and
the pattern matches (`matchesPath_expand`).  Where all other tokens are literals there is no other
way to cut the expansion, and a placeholder must be able to capture its text.
-/
import UriRouting.Proofs.Pattern.Matching
import UriRouting.Proofs.Percent

namespace UriRouting

namespace Token

/-- **`Fits params token`** — a placeholder is given a text, and one without slash unless it encodes
it.  Every other token can be given any text. -/
def Fits (params : Params) : Token → Prop
  | literal _ => True
  | placeholder v .plain => v.effective params ≠ [] ∧ '/' ∉ v.effective params
  | placeholder v .encoded => v.effective params ≠ []
  | wildcard _ _ => True

instance (params : Params) : (token : Token) → Decidable (token.Fits params)
  | literal _ => inferInstanceAs (Decidable True)
  | placeholder _ .plain => inferInstanceAs (Decidable (_ ∧ _))
  | placeholder _ .encoded => inferInstanceAs (Decidable (_ ≠ _))
  | wildcard _ _ => inferInstanceAs (Decidable True)

theorem fits_of_isLiteral {params : Params} {token : Token} (h : token.isLiteral = true) :
    token.Fits params := by
  cases token with
  | literal text => exact trivial
  | placeholder v m => cases h
  | wildcard v form => cases h

/-- The text of a segments wildcard is empty or starts with a slash. -/
theorem accepts_expand_segments (params : Params) (v : Variable) :
    Accepts (wildcard v .segments) (expand params (wildcard v .segments)) := by
  simp only [Accepts, expand]
  split
  · exact .inl rfl
  · exact .inr rfl

/-- **A token accepts its own text** exactly if the text fits. -/
theorem accepts_expand_iff_fits {params : Params} {token : Token} :
    token.Accepts (token.expand params) ↔ token.Fits params := by
  cases token with
  | literal text => exact iff_of_true rfl trivial
  | placeholder v m =>
    cases m with
    | plain => exact Iff.rfl
    | encoded =>
      show Percent.encode (v.effective params) ≠ [] ∧ '/' ∉ Percent.encode (v.effective params) ↔
        v.effective params ≠ []
      constructor
      · intro haccepts hempty
        exact haccepts.1 (by rw [hempty]; rfl)
      · intro hne
        exact ⟨Percent.encode_ne_nil hne, Percent.slash_not_mem_encode _⟩
  | wildcard v form =>
    cases form with
    | remainder => exact iff_of_true trivial trivial
    | segments => exact iff_of_true (accepts_expand_segments params v) trivial

end Token

namespace Pattern

variable {params : Params} {tokens front back : List Token} {pieces : List Text} {path : Text}

/-- An expansion is cut into the texts that its tokens were expanded to. -/
theorem isCutting_expand (h : ∀ token ∈ tokens, token.Accepts (token.expand params)) :
    IsCutting tokens (tokens.map (Token.expand params)) (tokens.flatMap (Token.expand params)) := by
  induction tokens with
  | nil => exact .nil
  | cons token tokens ih =>
    rw [List.flatMap_cons]
    exact .cons (h token List.mem_cons_self) (ih fun t ht => h t (List.mem_cons_of_mem _ ht))

/-- **An expansion with texts that fit is matched.** -/
theorem matchesPath_expand {p : Pattern} (h : ∀ token ∈ p.tokens, token.Fits params) :
    p.matchesPath (p.template.expand params) = true := by
  apply matchesPath_iff_cutting.mpr
  refine ⟨p.tokens.map (Token.expand params), isCutting_expand fun token hmem => ?_⟩
  exact Token.accepts_expand_iff_fits.mpr (h token hmem)

/-! ## A single capture -/

/-- Where all tokens but one are literals, a token is a literal or that one. -/
theorem isLiteral_or_eq_of_single {token single : Token}
    (h : tokens.filter (fun t => !t.isLiteral) = [single]) (hmem : token ∈ tokens) :
    token.isLiteral = true ∨ token = single := by
  by_cases hliteral : token.isLiteral = true
  · exact .inl hliteral
  · have hfilter : token ∈ tokens.filter fun t => !t.isLiteral :=
      List.mem_filter.mpr ⟨hmem, by simpa using hliteral⟩
    rw [h, List.mem_singleton] at hfilter
    exact .inr hfilter

/-- Literals are cut out of their own texts only. -/
theorem IsCutting.eq_expand_of_literals (params : Params) (h : IsCutting tokens pieces path)
    (hlit : ∀ t ∈ tokens, t.isLiteral = true) : path = tokens.flatMap (Token.expand params) := by
  induction h with
  | nil => rfl
  | @cons token tokens piece pieces rest haccepts hrest ih =>
    have hhead := hlit token List.mem_cons_self
    rw [List.flatMap_cons, ih fun t ht => hlit t (List.mem_cons_of_mem _ ht)]
    cases token with
    | literal text => rw [show piece = text from haccepts]; rfl
    | placeholder v m => cases hhead
    | wildcard v form => cases hhead

/-- Between literals a token can only be given the text that it was expanded to. -/
theorem accepts_of_isCutting_expand {token : Token} (hfront : ∀ t ∈ front, t.isLiteral = true)
    (hback : ∀ t ∈ back, t.isLiteral = true)
    (h : IsCutting (front ++ token :: back) pieces
      ((front ++ token :: back).flatMap (Token.expand params))) :
    token.Accepts (token.expand params) := by
  obtain ⟨before, rest, hpath, ⟨_, hcut⟩, _, hrest⟩ := exists_cutting_append_iff.mp ⟨pieces, h⟩
  obtain ⟨piece, _, after, -, rfl, haccepts, hcut'⟩ := isCutting_cons_iff.mp hrest
  -- the texts of the literals cancel on both sides
  rw [hcut.eq_expand_of_literals params hfront, hcut'.eq_expand_of_literals params hback,
    List.flatMap_append, List.flatMap_cons] at hpath
  have hpiece : token.expand params = piece :=
    List.append_cancel_right (List.append_cancel_left hpath)
  rw [hpiece]
  exact haccepts

/-- An expansion with a single capture is matched exactly if the text of the capture fits. -/
theorem matchesPath_expand_iff {p : Pattern} {token : Token}
    (hsingle : p.tokens.filter (fun t => !t.isLiteral) = [token]) :
    p.matchesPath (p.template.expand params) = true ↔ token.Fits params := by
  obtain ⟨front, back, htokens, hfront, -, hback⟩ := List.filter_eq_cons_iff.mp hsingle
  have hliterals : ∀ t ∈ front, t.isLiteral = true := fun t ht => by simpa using hfront t ht
  have hliterals' : ∀ t ∈ back, t.isLiteral = true := fun t ht => by
    simpa using List.filter_eq_nil_iff.mp hback t ht
  constructor
  · intro hmatch
    obtain ⟨pieces, hcut⟩ := matchesPath_iff_cutting.mp hmatch
    have hexpand : p.template.expand params = p.tokens.flatMap (Token.expand params) := rfl
    rw [hexpand, htokens] at hcut
    exact Token.accepts_expand_iff_fits.mp (accepts_of_isCutting_expand hliterals hliterals' hcut)
  · intro hfits
    refine matchesPath_expand fun t ht => ?_
    rcases isLiteral_or_eq_of_single hsingle ht with hliteral | rfl
    · exact Token.fits_of_isLiteral hliteral
    · exact hfits

/-- **An expansion fits its own pattern.**  Whatever placeholders and wildcards a template has, and
in whatever order they stand, the pattern of the template matches its expansion if every plain
placeholder is given a text without slash and every encoded one a text, none of them empty.  If a
placeholder is the only capture, this is also necessary. -/
theorem pattern_matches_expansion (template : Template) (params : Params) :
    ∃ p, ofTemplate template = .ok p ∧
      ((∀ token ∈ template.tokens, token.Fits params) →
        p.matchesPath (template.expand params) = true) ∧
      ∀ v m, template.tokens.filter (fun t => !t.isLiteral) = [.placeholder v m] →
        (p.matchesPath (template.expand params) = true ↔ (Token.placeholder v m).Fits params) :=
  ⟨.of template, ofTemplate_eq_ok template, matchesPath_expand (p := .of template),
    fun _ _ => matchesPath_expand_iff (p := .of template)⟩

/-- Captures that follow each other without a literal between them, and a text with a slash for a
single one. -/
theorem pattern_matches_expansion_adjacent :
    (∃ p params, compile (Text.ofString "{a}{b|encode}{/c*}{d*}*") = .ok p ∧
      (∀ token ∈ p.tokens, token.Fits params) ∧
      p.template.expand params = Text.ofString "x y%C3%A9%2F/p//q?" ∧
      p.matchesPath (Text.ofString "x y%C3%A9%2F/p//q?") = true) ∧
    ∃ p params, compile (Text.ofString "/x/{a}.y") = .ok p ∧
      p.template.expand params = Text.ofString "/x/p/q.y" ∧
      p.matchesPath (Text.ofString "/x/p/q.y") = false := by
  constructor
  · let v : Char → Variable := fun c => ⟨[c], none, none⟩
    let template : Template := ⟨Text.ofString "{a}{b|encode}{/c*}{d*}*",
      [.placeholder (v 'a') .plain, .placeholder (v 'b') .encoded, .wildcard (v 'c') .segments,
        .wildcard (v 'd') .remainder, .wildcard Variable.trailing .remainder]⟩
    let params : Params := Params.ofPairs [(['a'], ['x', ' ', 'y']), (['b'], ['é', '/']),
      (['c'], ['/', '/', 'p', '/']), (['d'], ['/', 'q', '?'])]
    obtain ⟨p, hp, hmatch, -⟩ := pattern_matches_expansion template params
    obtain rfl : p = .of template := Except.ok.inj (hp.symm.trans (ofTemplate_eq_ok template))
    have hfits : ∀ token ∈ template.tokens, token.Fits params := by decide
    exact ⟨.of template, params, rfl, hfits, by decide, hmatch hfits⟩
  · let a : Variable := ⟨['a'], none, none⟩
    let template : Template := ⟨Text.ofString "/x/{a}.y",
      [.literal ['/', 'x', '/'], .placeholder a .plain, .literal ['.', 'y']]⟩
    let params : Params := Params.ofPairs [(['a'], ['p', '/', 'q'])]
    obtain ⟨p, hp, -, hsingle⟩ := pattern_matches_expansion template params
    obtain rfl : p = .of template := Except.ok.inj (hp.symm.trans (ofTemplate_eq_ok template))
    refine ⟨.of template, params, rfl, by decide, Bool.eq_false_iff.mpr fun hmatch => ?_⟩
    exact absurd ((hsingle a .plain rfl).mp hmatch) (by decide)

end Pattern

end UriRouting
