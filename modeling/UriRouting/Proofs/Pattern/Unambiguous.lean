/-
# UriRouting.Proofs.Pattern.Unambiguous — templates that cut a path in one way only

A template is unambiguous when a literal with a slash stands between any two of its captures, and a
wildcard, which must bind all of its text, is the last of them (`Unambiguous`).  A placeholder
cannot take a slash.  So it ends where the literal text behind it (`leadText`) has its first slash
in the path, less what that text has before the slash; and the last capture takes all that the
literals behind it leave.  Either way its piece is determined (`Unambiguous.piece_unique`), and by
induction so is the whole cutting (`Unambiguous.cutting_unique`), even where a placeholder could end
early at text that looks like the literal behind it.
-/
import UriRouting.Proofs.Pattern.Preference
import UriRouting.Proofs.Text.Pieces

namespace UriRouting.Pattern

/-- **`Unambiguous tokens`** — no wildcard binds segments, behind a remainder wildcard there are
literals only, and of the literals between two captures that follow each other one has a slash. -/
structure Unambiguous (tokens : List Token) : Prop where
  no_segments : ∀ v, .wildcard v .segments ∉ tokens
  remainder_last : ∀ before v after, tokens = before ++ .wildcard v .remainder :: after →
    ∀ token ∈ after, token.isLiteral = true
  separated : ∀ before a between b after, tokens = before ++ a :: (between ++ b :: after) →
    a.isLiteral = false → b.isLiteral = false → (∀ token ∈ between, token.isLiteral = true) →
      ∃ text, .literal text ∈ between ∧ '/' ∈ text

theorem Unambiguous.tail {token : Token} {tokens : List Token} (h : Unambiguous (token :: tokens)) :
    Unambiguous tokens where
  no_segments v hv := h.no_segments v (List.mem_cons_of_mem _ hv)
  remainder_last before v after heq := h.remainder_last (token :: before) v after (by rw [heq]; rfl)
  separated before a between b after heq :=
    h.separated (token :: before) a between b after (by rw [heq]; rfl)

/-! ## The literal text in front -/

/-- The text of the literals before the first capture. -/
def leadText : List Token → Text
  | .literal text :: tokens => text ++ leadText tokens
  | _ => []

variable {tokens : List Token} {pieces : List Text} {path : Text}

theorem IsCutting.exists_eq_leadText_append (h : IsCutting tokens pieces path) :
    ∃ rest, path = leadText tokens ++ rest := by
  induction h with
  | nil => exact ⟨[], rfl⟩
  | @cons token tokens piece pieces rest hacc hr ih =>
    cases token with
    | literal text =>
      obtain ⟨tail, rfl⟩ := ih
      obtain rfl : piece = text := hacc
      exact ⟨tail, (List.append_assoc _ _ _).symm⟩
    | placeholder v m => exact ⟨_, rfl⟩
    | wildcard v form => exact ⟨_, rfl⟩

/-- Literals alone can be cut out of their own text only. -/
theorem IsCutting.eq_leadText (h : IsCutting tokens pieces path)
    (hlit : ∀ token ∈ tokens, token.isLiteral = true) : path = leadText tokens := by
  induction h with
  | nil => rfl
  | @cons token tokens piece pieces rest hacc hr ih =>
    have hrest := ih fun t ht => hlit t (List.mem_cons_of_mem _ ht)
    have hhead := hlit token List.mem_cons_self
    cases token with
    | literal text =>
      obtain rfl : piece = text := hacc
      rw [hrest]
      rfl
    | placeholder v m => cases hhead
    | wildcard v form => cases hhead

theorem mem_leadText {between rest : List Token} {text : Text} {c : Char}
    (hlit : ∀ token ∈ between, token.isLiteral = true) (htext : .literal text ∈ between)
    (hc : c ∈ text) : c ∈ leadText (between ++ rest) := by
  induction between with
  | nil => cases htext
  | cons token between ih =>
    have hhead := hlit token List.mem_cons_self
    cases token with
    | literal front =>
      show c ∈ front ++ leadText (between ++ rest)
      rcases List.mem_cons.mp htext with heq | htext
      · rw [← Token.literal.inj heq]
        exact List.mem_append_left _ hc
      · exact List.mem_append_right _ (ih (fun t ht => hlit t (List.mem_cons_of_mem _ ht)) htext)
    | placeholder v m => cases hhead
    | wildcard v form => cases hhead

/-- A capture of an unambiguous template is the last one, or the literal text behind it has a
slash. -/
theorem Unambiguous.literals_or_slash {token : Token} (h : Unambiguous (token :: tokens))
    (htoken : token.isLiteral = false) :
    (∀ t ∈ tokens, t.isLiteral = true) ∨ '/' ∈ leadText tokens := by
  cases hfind : tokens.find? fun t => !t.isLiteral with
  | none =>
    refine .inl fun t ht => ?_
    simpa using List.find?_eq_none.mp hfind t ht
  | some b =>
    obtain ⟨hb, between, after, rfl, hbetween⟩ := List.find?_eq_some_iff_append.mp hfind
    have hlit : ∀ t ∈ between, t.isLiteral = true := fun t ht => by simpa using hbetween t ht
    obtain ⟨text, htext, hslash⟩ :=
      h.separated [] token between b after rfl htoken (by simpa using hb) hlit
    exact .inr (mem_leadText hlit htext hslash)

theorem exists_of_mem_leadText {between after : List Token} {b : Token} {c : Char}
    (hb : b.isLiteral = false) (hc : c ∈ leadText (between ++ b :: after)) :
    ∃ text, .literal text ∈ between ∧ c ∈ text := by
  induction between with
  | nil =>
    cases b with
    | literal text => cases hb
    | placeholder v m => cases hc
    | wildcard v form => cases hc
  | cons token between ih =>
    cases token with
    | literal front =>
      rcases List.mem_append.mp hc with hc | hc
      · exact ⟨front, List.mem_cons_self, hc⟩
      · obtain ⟨text, htext, hc⟩ := ih hc
        exact ⟨text, List.mem_cons_of_mem _ htext, hc⟩
    | placeholder v m => cases hc
    | wildcard v form => cases hc

/-! ## Deciding it -/

/-- The token fits in front of the tokens: a placeholder before literals only or before a slash, a
remainder wildcard before literals only. -/
def fitsBefore (tokens : List Token) : Token → Bool
  | .literal _ => true
  | .placeholder _ _ => tokens.all Token.isLiteral || (leadText tokens).contains '/'
  | .wildcard _ .remainder => tokens.all Token.isLiteral
  | .wildcard _ .segments => false

/-- The test that decides `Unambiguous`, from the last token to the first. -/
def isUnambiguous : List Token → Bool
  | [] => true
  | token :: tokens => fitsBefore tokens token && isUnambiguous tokens

theorem Unambiguous.fitsBefore {token : Token} (h : Unambiguous (token :: tokens)) :
    fitsBefore tokens token = true := by
  cases token with
  | literal text => rfl
  | placeholder v m => simpa [Pattern.fitsBefore] using h.literals_or_slash rfl
  | wildcard v form =>
    cases form with
    | remainder => exact List.all_eq_true.mpr (h.remainder_last [] v tokens rfl)
    | segments => exact absurd List.mem_cons_self (h.no_segments v)

theorem literals_or_slash_of_fitsBefore {token : Token} (hfits : fitsBefore tokens token = true)
    (htoken : token.isLiteral = false) :
    (∀ t ∈ tokens, t.isLiteral = true) ∨ '/' ∈ leadText tokens := by
  cases token with
  | literal text => cases htoken
  | placeholder v m => simpa [Pattern.fitsBefore] using hfits
  | wildcard v form =>
    cases form with
    | remainder => exact .inl (List.all_eq_true.mp hfits)
    | segments => cases hfits

theorem Unambiguous.cons {token : Token} (h : Unambiguous tokens)
    (hfits : Pattern.fitsBefore tokens token = true) : Unambiguous (token :: tokens) where
  no_segments v hv := by
    rcases List.mem_cons.mp hv with rfl | hv
    · cases hfits
    · exact h.no_segments v hv
  remainder_last before v after heq := by
    cases before with
    | nil =>
      obtain ⟨rfl, rfl⟩ := List.cons.inj heq
      exact List.all_eq_true.mp hfits
    | cons t before => exact h.remainder_last before v after (List.cons.inj heq).2
  separated before a between b after heq ha hb hlit := by
    cases before with
    | nil =>
      obtain ⟨rfl, rfl⟩ := List.cons.inj heq
      rcases literals_or_slash_of_fitsBefore hfits ha with hall | hslash
      · exact absurd (hall b (by simp)) (Bool.eq_false_iff.mp hb)
      · exact exists_of_mem_leadText hb hslash
    | cons t before => exact h.separated before a between b after (List.cons.inj heq).2 ha hb hlit

theorem isUnambiguous_iff (tokens : List Token) :
    isUnambiguous tokens = true ↔ Unambiguous tokens := by
  induction tokens with
  | nil =>
    refine iff_of_true rfl ⟨fun v hv => ?_, fun before v after heq => ?_, ?_⟩
    · cases hv
    · simp at heq
    · intro before a between b after heq
      simp at heq
  | cons token tokens ih =>
    rw [isUnambiguous, Bool.and_eq_true, ih]
    constructor
    · rintro ⟨hfits, h⟩
      exact h.cons hfits
    · intro h
      exact ⟨h.fitsBefore, h.tail⟩

instance (tokens : List Token) : Decidable (Unambiguous tokens) :=
  decidable_of_iff _ (isUnambiguous_iff tokens)

/-! ## The cutting is unique -/

/-- Pieces without a slash, before a text with one, are determined. -/
theorem append_right_inj_of_slash {a b lead s t : Text} (ha : '/' ∉ a) (hb : '/' ∉ b)
    (hslash : '/' ∈ lead) (h : a ++ (lead ++ s) = b ++ (lead ++ t)) : a = b := by
  obtain ⟨u, w, rfl, hu⟩ := List.eq_append_cons_of_mem hslash
  have hau : '/' ∉ a ++ u := by simp [ha, hu]
  have hbu : '/' ∉ b ++ u := by simp [hb, hu]
  have heq : (a ++ u) ++ '/' :: (w ++ s) = (b ++ u) ++ '/' :: (w ++ t) := by simpa using h
  exact List.append_cancel_right (Text.append_cons_inj hau hbu heq).1

/-- **The first piece is determined** by the path. -/
theorem Unambiguous.piece_unique {token : Token} {as bs : List Text} {a b s t : Text}
    (h : Unambiguous (token :: tokens)) (ha : token.Accepts a) (hb : token.Accepts b)
    (hs : IsCutting tokens as s) (ht : IsCutting tokens bs t) (heq : a ++ s = b ++ t) : a = b := by
  -- the last capture: both rests are the text of the literals
  have last : (∀ t ∈ tokens, t.isLiteral = true) → a = b := by
    intro hlit
    rw [hs.eq_leadText hlit, ht.eq_leadText hlit] at heq
    exact List.append_cancel_right heq
  cases token with
  | literal text => exact ha.trans hb.symm
  | placeholder v m =>
    rcases h.literals_or_slash rfl with hlit | hslash
    · exact last hlit
    · -- both rests start with the same literal text, which has a slash
      obtain ⟨s, rfl⟩ := hs.exists_eq_leadText_append
      obtain ⟨t, rfl⟩ := ht.exists_eq_leadText_append
      exact append_right_inj_of_slash ha.2 hb.2 hslash heq
  | wildcard v form =>
    cases form with
    | remainder => exact last (h.remainder_last [] v tokens rfl)
    | segments => exact absurd List.mem_cons_self (h.no_segments v)

/-- **An unambiguous template cuts a path in at most one way.** -/
theorem Unambiguous.cutting_unique {as bs : List Text} (h : Unambiguous tokens)
    (ha : IsCutting tokens as path) (hb : IsCutting tokens bs path) : as = bs := by
  induction tokens generalizing as bs path with
  | nil =>
    rw [isCutting_nil_iff] at ha hb
    exact ha.1.trans hb.1.symm
  | cons token tokens ih =>
    obtain ⟨a, as, s, rfl, rfl, hacc, has⟩ := isCutting_cons_iff.mp ha
    obtain ⟨b, bs, t, rfl, heq, hbcc, hbs⟩ := isCutting_cons_iff.mp hb
    obtain rfl : a = b := h.piece_unique hacc hbcc has hbs heq
    obtain rfl : s = t := List.append_cancel_left heq
    rw [ih h.tail has hbs]

/-- The only cutting of a path is the preferred one. -/
theorem Unambiguous.isPreferred (h : Unambiguous tokens) (hcut : IsCutting tokens pieces path) :
    IsPreferred tokens pieces path :=
  ⟨hcut, fun _ hother hne => absurd (h.cutting_unique hother hcut) hne⟩

end UriRouting.Pattern
