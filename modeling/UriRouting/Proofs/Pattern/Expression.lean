/-
# UriRouting.Proofs.Pattern.Expression — what the regular expression of a pattern says

A pattern writes one capture group for each of its tokens, between a start and an end of text.  This
module reads that text back with the reader of the library and compiles it.

§1 follows the reader: a fragment adds the one group of its token to the items read
(`reads_fragment`), and the quoting of a literal gives its characters back one by one.  Hence the
text of every list of tokens is an expression (`read_sourceOf`).

§2 counts the groups, one for each token, and finds nothing repeated that would make the expression
large, so that every template has a pattern (`compileWith_eq`), the one of its template
(`Pattern.eq_of_template`).
-/
import UriRouting.Pattern.Basic
import UriRouting.Proofs.Regex.Reading
import UriRouting.Proofs.Regex.Search
import Mathlib.Algebra.GroupWithZero.Nat

namespace UriRouting

open Regex (Spans Reads ReaderState Charset Flags readerRun readerStep catAll)

/-! ## §1 Reading the text -/

/-- The expression for a character other than a slash. -/
def Regex.notSlash : Regex := .set (.nested 1 (.complement (.single '/')))

/-- The expression for any text. -/
def Regex.anything : Regex := .group false (.times true (.set .all) 0 none)

/-- **`Token.expression`** — the group that the fragment of a token writes. -/
def Token.expression : Token → Regex
  | .literal text => .group true (catAll (text.map fun c => .set (.single c)))
  | .placeholder _ _ => .group true (.times false .notSlash 1 none)
  | .wildcard _ .remainder => .group true .anything
  | .wildcard _ .segments =>
    .group true (.times true (.group false (.cat (.set (.single '/')) .anything)) 0 (some 1))

/-- **`Pattern.expressionOf tokens`** — the expression that the tokens write: their groups in order,
between the start and the end of a text. -/
def Pattern.expressionOf (tokens : List Token) : Regex :=
  catAll (.look .textStart :: (tokens.map Token.expression ++ [.look .textEnd]))

namespace Token

variable {items branches : List Regex} {frames : List Regex.Frame} {names : List Text}

/-- A character that a literal quotes is read as that character. -/
theorem reads_quoted (c : Char) :
    Reads ⟨items, branches, {}, frames, names⟩ (quoteRegex [c])
      ⟨.set (.single c) :: items, branches, {}, frames, names⟩ [] := by
  by_cases hmeta : isRegexMeta c = true
  · have hquote : quoteRegex [c] = ['\\', c] := by simp [quoteRegex, hmeta]
    rw [hquote]
    refine Reads.step rfl (Nat.zero_le _) fun rest => ?_
    simp only [isRegexMeta, List.mem_cons, List.not_mem_nil, or_false, decide_eq_true_eq] at hmeta
    rcases hmeta with rfl | rfl | rfl | rfl | rfl | rfl | rfl | rfl | rfl | rfl | rfl | rfl | rfl |
      rfl | rfl | rfl | rfl | rfl <;> rfl
  · have hquote : quoteRegex [c] = [c] := by simp [quoteRegex, hmeta]
    rw [hquote]
    refine Reads.step rfl (Nat.le_refl _) fun rest => ?_
    simp only [isRegexMeta, List.mem_cons, List.not_mem_nil, or_false, decide_eq_true_eq,
      not_or] at hmeta
    unfold readerStep
    split <;> simp_all [ReaderState.push, Regex.ofAtom, Flags.inCase]

theorem quoteRegex_cons (c : Char) (text : Text) :
    quoteRegex (c :: text) = quoteRegex [c] ++ quoteRegex text := by
  simp [quoteRegex]

/-- The quoting of a literal is read as its characters. -/
theorem reads_quoteRegex (text : Text) :
    Reads ⟨items, branches, {}, frames, names⟩ (quoteRegex text)
      ⟨(text.map fun c => Regex.set (.single c)).reverse ++ items, branches, {}, frames,
        names⟩ [] := by
  induction text generalizing items with
  | nil => exact Reads.refl _ _
  | cons c text ih =>
    rw [quoteRegex_cons, List.map_cons, List.reverse_cons, List.append_assoc]
    exact ((reads_quoted c).append _).trans ih

theorem head?_quoteRegex_ne (text rest : Text) :
    (quoteRegex text ++ ')' :: rest).head? ≠ some '?' := by
  cases text with
  | nil => simp [quoteRegex]
  | cons c text =>
    rw [quoteRegex_cons, List.append_assoc]
    by_cases hmeta : isRegexMeta c = true
    · simp [quoteRegex, hmeta]
    · have hc : c ≠ '?' := by
        rintro rfl
        exact hmeta rfl
      simpa [quoteRegex, hmeta] using hc

theorem reads_literal (text : Text) :
    Reads ⟨items, branches, {}, frames, names⟩ (fragment (.literal text))
      ⟨expression (.literal text) :: items, branches, {}, frames, names⟩ [] := by
  have hopen : Reads ⟨items, branches, {}, frames, names⟩ ('(' :: (quoteRegex text ++ [')']))
      ⟨[], [], {}, ⟨items, branches, {}, true⟩ :: frames, names⟩ (quoteRegex text ++ [')']) := by
    refine Reads.step rfl (Nat.le_refl _) fun rest => ?_
    refine Regex.parenthesis_of_head? rfl ?_
    rw [List.append_assoc]
    exact head?_quoteRegex_ne text rest
  have hclose : Reads
      ⟨(text.map fun c => Regex.set (.single c)).reverse, [], {},
        ⟨items, branches, {}, true⟩ :: frames, names⟩ [')']
      ⟨expression (.literal text) :: items, branches, {}, frames, names⟩ [] := by
    refine Reads.step rfl (Nat.le_refl _) fun rest => ?_
    have hfold : ReaderState.folded (text.map fun c => Regex.set (.single c)).reverse [] =
        catAll (text.map fun c => Regex.set (.single c)) :=
      congrArg catAll (List.reverse_reverse _)
    rw [expression, ← hfold]
    rfl
  have hquoted : Reads ⟨[], [], {}, ⟨items, branches, {}, true⟩ :: frames, names⟩
      (quoteRegex text ++ [')'])
      ⟨(text.map fun c => Regex.set (.single c)).reverse ++ [], [], {},
        ⟨items, branches, {}, true⟩ :: frames, names⟩ [')'] :=
    (reads_quoteRegex text).append [')']
  rw [List.append_nil] at hquoted
  exact (hopen.trans hquoted).trans hclose

/-- **A fragment is read as the group of its token.** -/
theorem reads_fragment (token : Token) :
    Reads ⟨items, branches, {}, frames, names⟩ token.fragment
      ⟨token.expression :: items, branches, {}, frames, names⟩ [] := by
  -- the fragments of placeholders and wildcards are fixed texts, of which each step takes a part
  have hfixed : ∀ (s : Text) (steps : Nat) (st st' : ReaderState), steps ≤ s.length →
      (∀ rest fuel, readerRun (fuel + steps) st (s ++ rest) = readerRun fuel st' rest) →
      Reads st s st' [] := by
    intro s steps st st' hsteps h rest fuel hfuel
    rw [List.length_append] at hfuel
    refine ⟨fuel - steps, by rw [List.nil_append]; omega, ?_⟩
    have hsplit : fuel = (fuel - steps) + steps := by omega
    rw [hsplit, h rest (fuel - steps), Nat.add_sub_cancel]
    rfl
  cases token with
  | literal text => exact reads_literal text
  | placeholder v m => exact hfixed _ 4 _ _ (by simp [fragment]) fun rest fuel => rfl
  | wildcard v form =>
    cases form with
    | remainder => exact hfixed _ 6 _ _ (by simp [fragment]) fun rest fuel => rfl
    | segments => exact hfixed _ 10 _ _ (by simp [fragment]) fun rest fuel => rfl

theorem reads_fragments (tokens : List Token) :
    Reads ⟨items, branches, {}, frames, names⟩ (tokens.flatMap fragment)
      ⟨(tokens.map expression).reverse ++ items, branches, {}, frames, names⟩ [] := by
  induction tokens generalizing items with
  | nil => exact Reads.refl _ _
  | cons token tokens ih =>
    rw [List.flatMap_cons, List.map_cons, List.reverse_cons, List.append_assoc]
    exact ((reads_fragment token).append _).trans ih

end Token

namespace Pattern

/-- Reading the text of the tokens collects their groups. -/
theorem readerRun_sourceOf (tokens : List Token) :
    readerRun (sourceOf tokens).length .start (sourceOf tokens) =
      .ok ⟨(.look .textStart :: (tokens.map Token.expression ++ [.look .textEnd])).reverse,
        [], {}, [], []⟩ := by
  have hstart : Reads .start ('^' :: (tokens.flatMap Token.fragment ++ ['$']))
      ⟨[.look .textStart], [], {}, [], []⟩ (tokens.flatMap Token.fragment ++ ['$']) :=
    Reads.step rfl (Nat.le_refl _) fun rest => rfl
  have hend : ∀ items : List Regex, Reads ⟨items, [], {}, [], []⟩ ['$']
      ⟨.look .textEnd :: items, [], {}, [], []⟩ [] :=
    fun items => Reads.step rfl (Nat.le_refl _) fun rest => rfl
  have hfragments : Reads ⟨[.look .textStart], [], {}, [], []⟩
      (tokens.flatMap Token.fragment ++ ['$'])
      ⟨(tokens.map Token.expression).reverse ++ [.look .textStart], [], {}, [], []⟩ ['$'] :=
    (Token.reads_fragments tokens).append ['$']
  have hall := (hstart.trans hfragments).trans (hend _)
  have hsource : sourceOf tokens = '^' :: (tokens.flatMap Token.fragment ++ ['$']) := by
    simp [sourceOf]
  have hfuel : ('^' :: (tokens.flatMap Token.fragment ++ ['$']) ++ []).length ≤
      (sourceOf tokens).length := Nat.le_of_eq (by rw [hsource, List.append_nil])
  obtain ⟨fuel, _, hrun⟩ := hall [] (sourceOf tokens).length hfuel
  rw [← hsource, List.append_nil] at hrun
  rw [hrun, List.append_nil]
  unfold readerRun
  simp [Flags.skip]

end Pattern

theorem Token.depth_expression_le (token : Token) : Regex.depth token.expression ≤ 6 := by
  cases token with
  | literal text =>
    have hchars : ∀ r ∈ text.map fun c => Regex.set (.single c), Regex.depth r ≤ 0 := by
      intro r hr
      obtain ⟨c, _, rfl⟩ := List.mem_map.mp hr
      exact Nat.le_refl 0
    have hdepth := Regex.depth_catAll_le hchars
    show Regex.depth (catAll (text.map fun c => Regex.set (.single c))) + 1 ≤ 6
    omega
  | placeholder v m => exact (by decide : 3 ≤ 6)
  | wildcard v form =>
    cases form with
    | remainder => exact (by decide : 3 ≤ 6)
    | segments => exact Nat.le_refl 6

/-- **The text of every list of tokens is an expression**, and the reader gives it back. -/
theorem Pattern.read_sourceOf (tokens : List Token) :
    Regex.read (sourceOf tokens) = .ok (expressionOf tokens) := by
  have hdepth : Regex.depth (expressionOf tokens) ≤ Regex.nestingLimit := by
    refine Nat.le_trans (Regex.depth_catAll_le (n := 6) fun r hr => ?_) (by decide)
    simp only [List.mem_cons, List.mem_append, List.mem_map, List.not_mem_nil, or_false] at hr
    rcases hr with rfl | ⟨token, _, rfl⟩ | rfl
    · decide
    · exact token.depth_expression_le
    · decide
  have hclose : ReaderState.close ⟨(.look .textStart ::
      (tokens.map Token.expression ++ [.look .textEnd])).reverse, [], {}, [], []⟩ =
      .ok (expressionOf tokens) :=
    congrArg (fun rs => Except.ok (catAll rs)) (List.reverse_reverse _)
  simp only [Regex.read, readerRun_sourceOf, bind, Except.bind, hclose, if_pos hdepth]
  rfl

/-! ## §2 Compiling the expression -/

theorem Regex.groupCount_catAll (rs : List Regex) :
    groupCount (catAll rs) = (rs.map groupCount).sum := by
  induction rs with
  | nil => rfl
  | cons r rs ih =>
    cases rs with
    | nil => simp [catAll]
    | cons s rs =>
      show groupCount r + groupCount (catAll (s :: rs)) =
        groupCount r + ((s :: rs).map groupCount).sum
      rw [ih]

/-- A token writes one group. -/
theorem Token.groupCount_expression (token : Token) : Regex.groupCount token.expression = 1 := by
  cases token with
  | literal text =>
    have hchars : (text.map fun c => Regex.set (.single c)).map Regex.groupCount =
        text.map fun _ => 0 := by simp [Function.comp_def, Regex.groupCount]
    show 1 + Regex.groupCount (catAll _) = 1
    rw [Regex.groupCount_catAll, hchars]
    simp
  | placeholder v m => rfl
  | wildcard v form => cases form <;> rfl

theorem Pattern.groupCount_expressionOf (tokens : List Token) :
    Regex.groupCount (expressionOf tokens) = tokens.length := by
  have hones : (tokens.map Token.expression).map Regex.groupCount = tokens.map fun _ => 1 := by
    simp [Function.comp_def, Token.groupCount_expression]
  unfold expressionOf
  rw [Regex.groupCount_catAll, List.map_cons, List.map_append, hones]
  simp [Regex.groupCount]

/-- A sequence stands for as many copies of its parts as the part of which there are most. -/
theorem Regex.copies_catAll_le {rs : List Regex} (h : ∀ r ∈ rs, copies r ≤ 1) :
    copies (catAll rs) ≤ 1 := by
  induction rs with
  | nil => exact Nat.le_refl 1
  | cons r rs ih =>
    have hr := h r List.mem_cons_self
    have hrs := ih fun s hs => h s (List.mem_cons_of_mem r hs)
    cases rs with
    | nil => exact hr
    | cons s rs => exact Nat.max_le.mpr ⟨hr, hrs⟩

/-- A token repeats nothing a number of times. -/
theorem Token.copies_expression_le (token : Token) : Regex.copies token.expression ≤ 1 := by
  cases token with
  | literal text =>
    refine Regex.copies_catAll_le fun r hr => ?_
    obtain ⟨c, _, rfl⟩ := List.mem_map.mp hr
    exact Nat.le_refl 1
  | placeholder v m => exact Nat.le_refl 1
  | wildcard v form => cases form <;> exact Nat.le_refl 1

/-- **The expression of every list of tokens is compiled**: it is not too large. -/
theorem Pattern.compile_sourceOf (tokens : List Token) :
    Regex.compile (sourceOf tokens) = .ok (expressionOf tokens) := by
  have hcopies : Regex.copies (expressionOf tokens) ≤ 1 := by
    refine Regex.copies_catAll_le fun r hr => ?_
    simp only [List.mem_cons, List.mem_append, List.mem_map, List.not_mem_nil, or_false] at hr
    rcases hr with rfl | ⟨token, _, rfl⟩ | rfl
    · exact Nat.le_refl 1
    · exact token.copies_expression_le
    · exact Nat.le_refl 1
  have hlimit : 1 ≤ Regex.copyLimit := by decide
  exact Regex.compile_eq_ok_iff.mpr ⟨read_sourceOf tokens, Nat.le_trans hcopies hlimit⟩

/-- **`Pattern.of template`** — the pattern of a template. -/
def Pattern.of (template : Template) : Pattern :=
  ⟨template, expressionOf template.tokens, compile_sourceOf template.tokens⟩

@[simp] theorem Pattern.template_of (template : Template) : (of template).template = template := rfl

/-- What a pattern was compiled to is the expression that its tokens write. -/
theorem Pattern.expression_eq (p : Pattern) : p.expression = expressionOf p.tokens :=
  Except.ok.inj (p.compiled.symm.trans (compile_sourceOf p.tokens))

/-- A pattern is the pattern of its template. -/
theorem Pattern.eq_of_template (p : Pattern) : p = of p.template := by
  obtain ⟨template, expression, compiled⟩ := p
  obtain rfl := Except.ok.inj (compiled.symm.trans (compile_sourceOf template.tokens))
  rfl

/-- **Every template can be made ready for matching.** -/
theorem Pattern.ofTemplate_eq_ok (template : Template) :
    ofTemplate template = .ok (of template) := by
  unfold ofTemplate
  split
  case h_1 e h =>
    rw [compile_sourceOf] at h
    cases h
  case h_2 r h =>
    obtain rfl := Except.ok.inj ((compile_sourceOf template.tokens).symm.trans h)
    exact if_pos (groupCount_expressionOf template.tokens)

/-- A text has a pattern if it is a template, and for the same reason it has none. -/
theorem Pattern.compileWith_eq (factory : TokenFactory) (t : Text) :
    compileWith factory t = (Template.digest factory t).map fun tokens => of ⟨t, tokens⟩ := by
  unfold compileWith Template.parseWith
  cases Template.digest factory t with
  | error e => rfl
  | ok tokens => exact ofTemplate_eq_ok ⟨t, tokens⟩

end UriRouting
