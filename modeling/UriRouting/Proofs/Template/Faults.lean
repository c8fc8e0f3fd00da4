/-
# UriRouting.Proofs.Template.Faults — the leftmost fault of a template is reported

A text may be no template for several reasons at once: characters that may not stand outside the
expressions, expressions that the factory refuses, and a last star that it refuses (`Fault`).  Every
fault stands somewhere, with the text `front` in front of it, and reading stops at the one that
stands furthest to the left (`digestSpans_eq_error_iff`).  The position in the error of a character
is the width of `front`, its place in the UTF-8 form of the whole text.

The faults of a text are those of its first part and those of the rest, moved behind it; and if the
first part has any, they are further left (`reports_union_iff`, `reports_behind_iff`).  So the
leftmost one is found as the text is read, character by character in a gap and span by span.
-/
import UriRouting.Proofs.Template.Rendering
import Mathlib.Data.Nat.Find

namespace UriRouting.Template

open Template.Span (IsScan IsGapBefore ofText flatten)

/-! ## What is wrong, and where -/

/-- **`IsOutside spans front c back`** — the character `c` stands outside the expressions, with the
text `front` in front of it and `back` behind it. -/
def IsOutside (spans : List Span) (front : Text) (c : Char) (back : Text) : Prop :=
  ∃ before g g' after, spans = before ++ .gap (g ++ c :: g') :: after ∧
    front = flatten before ++ g ∧ back = g' ++ flatten after

/-- **`Offends c back fault`** — outside the expressions the character may not stand in front of
`back`: it opens an expression that is never closed, closes none, or is a star that does not end the
text.  The error tells its position. -/
inductive Offends : Char → Text → (Nat → TemplateError) → Prop
  | opening {back : Text} (h : '}' ∉ back) : Offends '{' back .unterminatedExpression
  | closing {back : Text} : Offends '}' back .unexpectedClosingBrace
  | star {back : Text} (h : back ≠ []) : Offends '*' back .misplacedWildcard

/-- **`Fault factory spans front fault`** — behind the text `front` something is wrong: a character
offends, or the factory refuses an expression or the star that ends the text. -/
inductive Fault (factory : TokenFactory) (spans : List Span) :
    Text → (Nat → TemplateError) → Prop
  | character {front : Text} {c : Char} {back : Text} {fault : Nat → TemplateError}
    (hc : IsOutside spans front c back) (h : Offends c back fault) :
    Fault factory spans front fault
  | expression {front : Text} {before : List Span} {e : Text} {after : List Span}
    {cause : TemplateError} (hspans : spans = before ++ .expression e :: after)
    (hfront : front = flatten before) (h : factory e = .error cause) :
    Fault factory spans front fun _ => cause
  | lastStar {front : Text} {cause : TemplateError} (hc : IsOutside spans front '*' [])
    (h : factory ['*'] = .error cause) : Fault factory spans front fun _ => cause

/-- **`IsLeftmost P front fault`** — of the faults `P` this one stands furthest to the left. -/
structure IsLeftmost (P : Text → (Nat → TemplateError) → Prop) (front : Text)
    (fault : Nat → TemplateError) : Prop where
  holds : P front fault
  least : ∀ front' fault', P front' fault' → Text.width front ≤ Text.width front'

/-- **`Reports P position e`** — in a text that begins at the position, `e` is the error of the
leftmost of the faults `P`. -/
def Reports (P : Text → (Nat → TemplateError) → Prop) (position : Nat) (e : TemplateError) : Prop :=
  ∃ front fault, IsLeftmost P front fault ∧ e = fault (position + Text.width front)

/-! ## The leftmost of several faults -/

variable {P Q S : Text → (Nat → TemplateError) → Prop} {position : Nat} {e : TemplateError}

/-- Faults that stand further left are reported if there are any. -/
theorem reports_union_iff (hS : ∀ front fault, S front fault ↔ P front fault ∨ Q front fault)
    (hlt : ∀ front fault front' fault', P front fault → Q front' fault' →
      Text.width front < Text.width front') :
    Reports S position e ↔
      Reports P position e ∨ (∀ front fault, ¬ P front fault) ∧ Reports Q position e := by
  constructor
  · rintro ⟨front, fault, ⟨hholds, hleast⟩, he⟩
    rcases (hS front fault).mp hholds with hP | hQ
    · exact .inl ⟨front, fault, ⟨hP, fun _ _ h => hleast _ _ ((hS _ _).mpr (.inl h))⟩, he⟩
    · refine .inr ⟨fun front' fault' hP => ?_, front, fault, ⟨hQ, fun _ _ h => ?_⟩, he⟩
      · have hle := hleast _ _ ((hS _ _).mpr (.inl hP))
        exact absurd (hlt _ _ _ _ hP hQ) (Nat.not_lt.mpr hle)
      · exact hleast _ _ ((hS _ _).mpr (.inr h))
  · rintro (⟨front, fault, ⟨hP, hleast⟩, he⟩ | ⟨hnone, front, fault, ⟨hQ, hleast⟩, he⟩)
    · refine ⟨front, fault, ⟨(hS _ _).mpr (.inl hP), fun front' fault' h => ?_⟩, he⟩
      rcases (hS _ _).mp h with hP' | hQ
      · exact hleast _ _ hP'
      · exact Nat.le_of_lt (hlt _ _ _ _ hP hQ)
    · refine ⟨front, fault, ⟨(hS _ _).mpr (.inr hQ), fun front' fault' h => ?_⟩, he⟩
      rcases (hS _ _).mp h with hP | hQ'
      · exact absurd hP (hnone _ _)
      · exact hleast _ _ hQ'

/-- **`Behind pre P`** — the faults `P`, moved behind the text `pre`. -/
def Behind (pre : Text) (P : Text → (Nat → TemplateError) → Prop) (front : Text)
    (fault : Nat → TemplateError) : Prop := ∃ front', front = pre ++ front' ∧ P front' fault

/-- Moved faults are reported as they are in a text that begins later. -/
theorem reports_behind_iff {pre : Text} :
    Reports (Behind pre P) position e ↔ Reports P (position + Text.width pre) e := by
  constructor
  · rintro ⟨_, fault, ⟨⟨front, rfl, hP⟩, hleast⟩, he⟩
    refine ⟨front, fault, ⟨hP, fun front' fault' h => ?_⟩, ?_⟩
    · have hle := hleast _ _ ⟨front', rfl, h⟩
      rw [Text.width_append, Text.width_append] at hle
      exact Nat.le_of_add_le_add_left hle
    · rw [he, Text.width_append, Nat.add_assoc]
  · rintro ⟨front, fault, ⟨hP, hleast⟩, he⟩
    refine ⟨pre ++ front, fault, ⟨⟨front, rfl, hP⟩, ?_⟩, ?_⟩
    · rintro _ fault' ⟨front', rfl, h⟩
      rw [Text.width_append, Text.width_append]
      exact Nat.add_le_add_left (hleast _ _ h) _
    · rw [he, Text.width_append, Nat.add_assoc]

/-- Where nothing is wrong nothing is reported, and only there. -/
theorem eq_ok_iff_of_reports {x : Except TemplateError Unit}
    (h : ∀ e, x = .error e ↔ Reports P position e) :
    x = .ok () ↔ ∀ front fault, ¬ P front fault := by
  constructor
  · rintro rfl front fault hP
    -- some fault is the leftmost
    have hplace : ∃ n front fault, P front fault ∧ Text.width front = n := ⟨_, front, fault, hP, rfl⟩
    classical
    obtain ⟨front, fault, hP, hwidth⟩ := Nat.find_spec hplace
    have hleast : ∀ front' fault', P front' fault' → Text.width front ≤ Text.width front' := by
      intro front' fault' hP'
      rw [hwidth]
      exact Nat.find_min' hplace ⟨front', fault', hP', rfl⟩
    cases (h _).mpr ⟨front, fault, ⟨hP, hleast⟩, rfl⟩
  · intro hnone
    cases x with
    | ok _ => rfl
    | error e =>
      obtain ⟨front, fault, hleftmost, -⟩ := (h e).mp rfl
      exact absurd hleftmost.holds (hnone front fault)

/-- **`At place A`** — the faults `A`, all of which stand behind the text `place`. -/
def At (place : Text) (A : (Nat → TemplateError) → Prop) (front : Text)
    (fault : Nat → TemplateError) : Prop := front = place ∧ A fault

theorem reports_at_iff {place : Text} {A : (Nat → TemplateError) → Prop} :
    Reports (At place A) position e ↔ ∃ fault, A fault ∧ e = fault (position + Text.width place) := by
  constructor
  · rintro ⟨_, fault, ⟨⟨rfl, hA⟩, -⟩, he⟩
    exact ⟨fault, hA, he⟩
  · rintro ⟨fault, hA, he⟩
    exact ⟨place, fault, ⟨⟨rfl, hA⟩, fun front' fault' h => Nat.le_of_eq (by rw [h.1])⟩, he⟩

/-- The text is at fault where it begins, or else behind its first part. -/
theorem reports_first_or_behind_iff {pre : Text} (hpre : pre ≠ [])
    {A : (Nat → TemplateError) → Prop}
    (hS : ∀ front fault, S front fault ↔ At [] A front fault ∨ Behind pre Q front fault) :
    Reports S position e ↔
      (∃ fault, A fault ∧ e = fault position) ∨
        (∀ fault, ¬ A fault) ∧ Reports Q (position + Text.width pre) e := by
  have hlt : ∀ front fault front' fault', At [] A front fault → Behind pre Q front' fault' →
      Text.width front < Text.width front' := by
    rintro _ _ _ _ ⟨rfl, -⟩ ⟨front', rfl, -⟩
    obtain ⟨c, pre, rfl⟩ := List.exists_cons_of_ne_nil hpre
    exact Nat.lt_of_lt_of_le c.utf8Size_pos (by simp)
  have hnone : (∀ front fault, ¬ At [] A front fault) ↔ ∀ fault, ¬ A fault :=
    ⟨fun h fault hA => h [] fault ⟨rfl, hA⟩, fun h front fault hat => h fault hat.2⟩
  rw [reports_union_iff hS hlt, reports_at_iff, reports_behind_iff, hnone]
  rfl

/-! ## The faults of a gap -/

variable {c : Char} {g back rest : Text} {fault fault' : Nat → TemplateError}

/-- A character offends in one way. -/
theorem Offends.unique (h : Offends c back fault) (h' : Offends c back fault') : fault = fault' := by
  cases h <;> cases h' <;> rfl

/-- **`GapFault g rest`** — the faults of the characters of a gap that has `rest` behind it. -/
def GapFault (g rest front : Text) (fault : Nat → TemplateError) : Prop :=
  ∃ c back, g = front ++ c :: back ∧ Offends c (back ++ rest) fault

theorem gapFault_cons_iff {front : Text} :
    GapFault (c :: g) rest front fault ↔
      At [] (Offends c (g ++ rest)) front fault ∨ Behind [c] (GapFault g rest) front fault := by
  constructor
  · rintro ⟨d, back, heq, h⟩
    cases front with
    | nil =>
      obtain ⟨rfl, rfl⟩ := List.cons.inj heq
      exact .inl ⟨rfl, h⟩
    | cons first front =>
      obtain ⟨rfl, hg⟩ := List.cons.inj heq
      exact .inr ⟨front, rfl, d, back, hg, h⟩
  · rintro (⟨rfl, h⟩ | ⟨front, rfl, d, back, rfl, h⟩)
    · exact ⟨c, g, rfl, h⟩
    · exact ⟨d, back, rfl, h⟩

/-- What the check of a gap does at its first character. -/
theorem checkGap_cons_eq_error_iff {last : Bool} (hlast : last = true ↔ rest = [])
    (hopen : c = '{' → '}' ∉ g ++ rest) :
    checkGap last position (c :: g) = .error e ↔
      (∃ fault, Offends c (g ++ rest) fault ∧ e = fault position) ∨
        (∀ fault, ¬ Offends c (g ++ rest) fault) ∧
          checkGap last (position + c.utf8Size) g = .error e := by
  have hstar : (c = '*' ∧ ¬(last = true ∧ g = [])) ↔ c = '*' ∧ g ++ rest ≠ [] := by
    rw [hlast, ne_eq, List.append_eq_nil_iff, and_comm (a := rest = [])]
  -- a character that offends decides the error
  have hdecides : ∀ {fault₀ : Nat → TemplateError} {x : Prop}, Offends c (g ++ rest) fault₀ →
      (Except.error (fault₀ position) = (Except.error e : Except TemplateError Unit) ↔
        (∃ fault, Offends c (g ++ rest) fault ∧ e = fault position) ∨
          (∀ fault, ¬ Offends c (g ++ rest) fault) ∧ x) := by
    intro fault₀ x h₀
    rw [or_iff_left fun h => h.1 _ h₀, Except.error.injEq]
    constructor
    · rintro rfl
      exact ⟨fault₀, h₀, rfl⟩
    · rintro ⟨fault, h, rfl⟩
      rw [h₀.unique h]
  rw [checkGap, if_congr hstar rfl rfl]
  by_cases ho : c = '{'
  · subst ho
    exact hdecides (.opening (hopen rfl))
  by_cases hc : c = '}'
  · subst hc
    exact hdecides .closing
  by_cases hs : c = '*' ∧ g ++ rest ≠ []
  · rw [if_neg ho, if_neg hc, if_pos hs]
    obtain ⟨rfl, hrest⟩ := hs
    exact hdecides (.star hrest)
  · have hnone : ∀ fault, ¬ Offends c (g ++ rest) fault := by
      intro fault h
      cases h with
      | opening _ => exact ho rfl
      | closing => exact hc rfl
      | star hrest => exact hs ⟨rfl, hrest⟩
    rw [if_neg ho, if_neg hc, if_neg hs, and_iff_right hnone]
    refine (or_iff_right ?_).symm
    rintro ⟨fault, h, -⟩
    exact hnone fault h

/-- **The check of a gap** reports the leftmost of its faults. -/
theorem checkGap_eq_error_iff {last : Bool} (hlast : last = true ↔ rest = [])
    (hopen : ∀ front back, g = front ++ '{' :: back → '}' ∉ back ++ rest) :
    checkGap last position g = .error e ↔ Reports (GapFault g rest) position e := by
  induction g generalizing position with
  | nil =>
    refine iff_of_false (fun h => by cases h) ?_
    rintro ⟨front, fault, ⟨⟨c, back, heq, -⟩, -⟩, -⟩
    simp at heq
  | cons c g ih =>
    obtain ⟨hfirst, hrest⟩ := Text.forall_split_cons_iff.mp hopen
    rw [checkGap_cons_eq_error_iff hlast hfirst, ih hrest,
      reports_first_or_behind_iff (List.cons_ne_nil c []) fun _ _ => gapFault_cons_iff]
    rfl

/-! ## The faults of the spans -/

variable {factory : TokenFactory} {spans : List Span} {front : Text}

theorem isOutside_cons_iff {span : Span} :
    IsOutside (span :: spans) front c back ↔
      (∃ g', span = .gap (front ++ c :: g') ∧ back = g' ++ flatten spans) ∨
        ∃ front', front = span.text ++ front' ∧ IsOutside spans front' c back := by
  constructor
  · rintro ⟨before, g, g', after, heq, rfl, rfl⟩
    cases before with
    | nil =>
      obtain ⟨rfl, rfl⟩ := List.cons.inj heq
      exact .inl ⟨g', rfl, rfl⟩
    | cons first before =>
      obtain ⟨rfl, rfl⟩ := List.cons.inj heq
      refine .inr ⟨flatten before ++ g, ?_, before, g, g', after, rfl, rfl, rfl⟩
      rw [Span.flatten_cons, List.append_assoc]
  · rintro (⟨g', rfl, rfl⟩ | ⟨front', rfl, before, g, g', after, rfl, rfl, rfl⟩)
    · exact ⟨[], front, g', spans, rfl, rfl, rfl⟩
    · refine ⟨span :: before, g, g', after, rfl, ?_, rfl⟩
      rw [Span.flatten_cons, List.append_assoc]

/-- The text around a character. -/
theorem IsOutside.flatten_eq (h : IsOutside spans front c back) :
    flatten spans = front ++ c :: back := by
  obtain ⟨before, g, g', after, rfl, rfl, rfl⟩ := h
  simp [flatten, Span.text]

theorem not_fault_nil : ¬ Fault factory [] front fault := by
  intro h
  cases h with
  | character hc _ => exact absurd hc.flatten_eq (by simp [flatten])
  | expression hspans _ _ => simp at hspans
  | lastStar hc _ => exact absurd hc.flatten_eq (by simp [flatten])

/-- **`Refuses factory e fault`** — the factory takes `e` for no expression. -/
def Refuses (factory : TokenFactory) (e : Text) (fault : Nat → TemplateError) : Prop :=
  ∃ cause, factory e = .error cause ∧ fault = fun _ => cause

theorem exists_refuses_iff {cause : TemplateError} {e : Text} :
    (∃ fault, Refuses factory e fault ∧ cause = fault position) ↔ factory e = .error cause := by
  constructor
  · rintro ⟨_, ⟨cause, h, rfl⟩, rfl⟩
    exact h
  · intro h
    exact ⟨_, ⟨cause, h, rfl⟩, rfl⟩

theorem forall_not_refuses_iff {e : Text} :
    (∀ fault, ¬ Refuses factory e fault) ↔ ∃ token, factory e = .ok token := by
  unfold Refuses
  cases factory e with
  | ok token => simp
  | error cause => simp

/-- A fault stays one behind another span. -/
theorem Fault.cons (h : Fault factory spans front fault) (span : Span) :
    Fault factory (span :: spans) (span.text ++ front) fault := by
  cases h with
  | character hc hoffends =>
    exact .character (isOutside_cons_iff.mpr (.inr ⟨front, rfl, hc⟩)) hoffends
  | @expression before e after cause hspans hfront hrefused =>
    have hcons : span :: spans = (span :: before) ++ .expression e :: after :=
      congrArg (span :: ·) hspans
    refine .expression hcons ?_ hrefused
    rw [hfront, ← Span.flatten_cons]
  | lastStar hc hrefused => exact .lastStar (isOutside_cons_iff.mpr (.inr ⟨front, rfl, hc⟩)) hrefused

/-- A fault of a text stands in its first span or behind it. -/
theorem Fault.cons_cases {span : Span} (h : Fault factory (span :: spans) front fault) :
    (∃ c g', span = .gap (front ++ c :: g') ∧
      (Offends c (g' ++ flatten spans) fault ∨
        c = '*' ∧ g' ++ flatten spans = [] ∧ Refuses factory ['*'] fault)) ∨
    (∃ e, span = .expression e ∧ At [] (Refuses factory e) front fault) ∨
    Behind span.text (Fault factory spans) front fault := by
  cases h with
  | character hc hoffends =>
    rcases isOutside_cons_iff.mp hc with ⟨g', hspan, rfl⟩ | ⟨front', rfl, hbehind⟩
    · exact .inl ⟨_, g', hspan, .inl hoffends⟩
    · exact .inr (.inr ⟨front', rfl, .character hbehind hoffends⟩)
  | @expression before e after cause hspans hfront hrefused =>
    cases before with
    | nil =>
      obtain ⟨rfl, rfl⟩ := List.cons.inj hspans
      exact .inr (.inl ⟨e, rfl, hfront, cause, hrefused, rfl⟩)
    | cons first before =>
      obtain ⟨rfl, rfl⟩ := List.cons.inj hspans
      exact .inr (.inr ⟨flatten before, hfront, .expression rfl rfl hrefused⟩)
  | lastStar hc hrefused =>
    rcases isOutside_cons_iff.mp hc with ⟨g', hspan, hback⟩ | ⟨front', rfl, hbehind⟩
    · exact .inl ⟨'*', g', hspan, .inr ⟨rfl, hback.symm, _, hrefused, rfl⟩⟩
    · exact .inr (.inr ⟨front', rfl, .lastStar hbehind hrefused⟩)

/-- The faults of an expression and of what stands behind it. -/
theorem fault_expression_iff {e : Text} :
    Fault factory (.expression e :: spans) front fault ↔
      At [] (Refuses factory e) front fault ∨ Behind e (Fault factory spans) front fault := by
  constructor
  · intro h
    rcases h.cons_cases with ⟨c, g', hspan, -⟩ | ⟨e', hspan, hhere⟩ | hbehind
    · cases hspan
    · cases hspan
      exact .inl hhere
    · exact .inr hbehind
  · rintro (⟨rfl, cause, hrefused, rfl⟩ | ⟨front, rfl, hfault⟩)
    · exact .expression (show _ = [] ++ .expression e :: spans from rfl) rfl hrefused
    · exact hfault.cons (.expression e)

/-- Those of a gap and of what stands behind it. -/
theorem fault_gap_iff (hspans : flatten spans ≠ []) :
    Fault factory (.gap g :: spans) front fault ↔
      GapFault g (flatten spans) front fault ∨ Behind g (Fault factory spans) front fault := by
  constructor
  · intro h
    rcases h.cons_cases with ⟨c, g', hspan, hoffends | ⟨-, hback, -⟩⟩ | ⟨e', hspan, -⟩ | hbehind
    · exact .inl ⟨c, g', Span.gap.inj hspan, hoffends⟩
    · exact absurd (List.append_eq_nil_iff.mp hback).2 hspans
    · cases hspan
    · exact .inr hbehind
  · rintro (⟨c, g', rfl, hoffends⟩ | ⟨front, rfl, hfault⟩)
    · exact .character (isOutside_cons_iff.mpr (.inl ⟨g', rfl, rfl⟩)) hoffends
    · exact hfault.cons (.gap g)

/-- **`StarFault factory g front fault`** — the gap ends with a star, and the factory refuses it. -/
def StarFault (factory : TokenFactory) (g front : Text) (fault : Nat → TemplateError) : Prop :=
  g = front ++ ['*'] ∧ Refuses factory ['*'] fault

/-- Those of the gap that ends the text. -/
theorem fault_lastGap_iff :
    Fault factory [.gap g] front fault ↔
      GapFault g [] front fault ∨ StarFault factory g front fault := by
  constructor
  · intro h
    rcases h.cons_cases with
      ⟨c, g', hspan, hoffends | ⟨rfl, hback, hrefused⟩⟩ | ⟨e', hspan, -⟩ | ⟨front', -, hbehind⟩
    · exact .inl ⟨c, g', Span.gap.inj hspan, hoffends⟩
    · obtain rfl : g' = [] := (List.append_eq_nil_iff.mp hback).1
      exact .inr ⟨Span.gap.inj hspan, hrefused⟩
    · cases hspan
    · -- nothing stands behind the last gap
      exact absurd hbehind not_fault_nil
  · rintro (⟨c, g', rfl, hoffends⟩ | ⟨rfl, cause, hrefused, rfl⟩)
    · exact .character (isOutside_cons_iff.mpr (.inl ⟨g', rfl, rfl⟩)) hoffends
    · exact .lastStar (isOutside_cons_iff.mpr (.inl ⟨[], rfl, rfl⟩)) hrefused

/-- The star that ends the text stands behind every character that offends. -/
theorem width_lt_of_starFault {front' : Text} (h : GapFault g [] front fault)
    (hstar : StarFault factory g front' fault') : Text.width front < Text.width front' := by
  obtain ⟨c, back, rfl, hoffends⟩ := h
  obtain ⟨heq, -⟩ := hstar
  rcases List.eq_nil_or_concat back with rfl | ⟨back, d, rfl⟩
  · -- the character is the star itself, which may stand there
    obtain ⟨-, hc⟩ := List.append_inj' heq rfl
    obtain rfl : c = '*' := List.singleton_injective hc
    cases hoffends with
    | star hne => exact absurd rfl hne
  · have hsplit : front ++ c :: back.concat d = (front ++ c :: back) ++ [d] := by simp
    rw [hsplit] at heq
    obtain ⟨rfl, -⟩ := List.append_inj' heq rfl
    have hpos := c.utf8Size_pos
    rw [Text.width_append, Text.width_cons]
    omega

/-! ## The fault that is reported -/

theorem lastGap_eq_error_iff :
    lastGap factory g = .error e ↔ Reports (StarFault factory g) position e := by
  unfold lastGap
  cases hstrip : Text.stripLast '*' g with
  | none =>
    refine iff_of_false (fun h => by cases h) ?_
    rintro ⟨front, fault, ⟨⟨heq, -⟩, -⟩, -⟩
    rw [Text.stripLast_eq_some_iff.mpr heq] at hstrip
    cases hstrip
  | some head =>
    obtain rfl := Text.stripLast_eq_some_iff.mp hstrip
    have hplace : StarFault factory (head ++ ['*']) = At head (Refuses factory ['*']) := by
      funext front fault
      rw [StarFault, At, List.append_left_inj, eq_comm (a := head)]
    rw [hplace, reports_at_iff, exists_refuses_iff]
    exact bind_pure_eq_error_iff

/-- **Reading spans** reports the leftmost of their faults. -/
theorem digestSpans_eq_error_iff (h : IsScan spans) :
    digestSpans factory position spans = .error e ↔ Reports (Fault factory spans) position e := by
  induction h generalizing position with
  | nil =>
    refine iff_of_false (fun h => by cases h) ?_
    rintro ⟨front, fault, hleftmost, -⟩
    exact not_fault_nil hleftmost.holds
  | @expression body spans hbody hspans ih =>
    rw [digestSpans_expression, bind_eq_error_iff,
      reports_first_or_behind_iff (List.cons_ne_nil _ _) fun _ _ => fault_expression_iff,
      exists_refuses_iff, forall_not_refuses_iff, ← ih]
    simp only [bind_pure_eq_error_iff, exists_and_right]
  | @gap g spans hne hgap hspans ih =>
    cases spans with
    | nil =>
      have hcheck : ∀ e, checkGap true position g = .error e ↔
          Reports (GapFault g []) position e :=
        fun e => checkGap_eq_error_iff (iff_of_true rfl rfl) hgap.unclosed
      rw [digestSpans_gap_last, check_bind_eq_error_iff, eq_ok_iff_of_reports hcheck, hcheck,
        lastGap_eq_error_iff,
        reports_union_iff (fun _ _ => fault_lastGap_iff) fun _ _ _ _ => width_lt_of_starFault]
    | cons span spans =>
      have hrest : flatten (span :: spans) ≠ [] := hspans.flatten_ne_nil (List.cons_ne_nil _ _)
      have hcheck : ∀ e, checkGap false position g = .error e ↔
          Reports (GapFault g (flatten (span :: spans))) position e :=
        fun e => checkGap_eq_error_iff (iff_of_false Bool.false_ne_true hrest) hgap.unclosed
      have hlt : ∀ front fault front' fault', GapFault g (flatten (span :: spans)) front fault →
          Behind g (Fault factory (span :: spans)) front' fault' →
          Text.width front < Text.width front' := by
        rintro front _ _ _ ⟨c, back, rfl, -⟩ ⟨front', rfl, -⟩
        have := c.utf8Size_pos
        simp only [Text.width_append, Text.width_cons]
        omega
      rw [digestSpans_gap_cons, check_bind_eq_error_iff, bind_pure_eq_error_iff,
        eq_ok_iff_of_reports hcheck, hcheck, ih,
        reports_union_iff (fun _ _ => fault_gap_iff hrest) hlt, reports_behind_iff]

/-- **The leftmost fault is reported.**  A text that is not empty is cut into spans in exactly one
way.  Whatever the factory, an error is reported if and only if it is that of a fault with no other
fault further left; the last star, which ends the text, comes last.  A character that offends is
reported with its place in the text, the width of what stands in front of it, and a refused
expression or star with the error of the factory. -/
theorem digest_reports_leftmost_fault (factory : TokenFactory) {t : Text} (ht : t ≠ []) :
    ∃ spans, (∀ spans', IsScan spans' ∧ flatten spans' = t ↔ spans' = spans) ∧
      (∀ front c back, IsOutside spans front c back →
        t = front ++ c :: back ∧ Text.width front < Text.width t) ∧
      ∀ e, digest factory t = .error e ↔
        ∃ front fault, Fault factory spans front fault ∧
          (∀ front' fault', Fault factory spans front' fault' →
            Text.width front ≤ Text.width front') ∧
          e = fault (Text.width front) := by
  refine ⟨ofText t, fun spans' => ?_, fun front c back hc => ?_, fun e => ?_⟩
  · rw [← Span.ofText_eq_iff, eq_comm]
  · have htext := hc.flatten_eq
    rw [Span.flatten_ofText] at htext
    have hpos := c.utf8Size_pos
    refine ⟨htext, ?_⟩
    rw [htext, Text.width_append, Text.width_cons]
    omega
  · rw [digest_of_ne_nil ht, digestSpans_eq_error_iff (Span.isScan_ofText t)]
    constructor
    · rintro ⟨front, fault, ⟨hholds, hleast⟩, he⟩
      exact ⟨front, fault, hholds, hleast, he.trans (congrArg fault (Nat.zero_add _))⟩
    · rintro ⟨front, fault, hholds, hleast, he⟩
      exact ⟨front, fault, ⟨hholds, hleast⟩, he.trans (congrArg fault (Nat.zero_add _).symm)⟩

/-- A misplaced star, an expression without a name and an open brace in one text: the star stands
furthest to the left, behind a character of two bytes. -/
theorem digest_reports_leftmost_fault_star :
    let t := Text.ofString "/\u00e9*\x7b\x7d/\x7b"
    t ≠ [] ∧ digest Expression.read t = .error (.misplacedWildcard 3) ∧
      ∃ front fault, Fault Expression.read (ofText t) front fault ∧
        .misplacedWildcard 3 = fault (Text.width front) := by
  intro t
  have ht : t ≠ [] := List.cons_ne_nil _ _
  obtain ⟨spans, hspans, -, hreports⟩ := digest_reports_leftmost_fault Expression.read ht
  obtain rfl : ofText t = spans := (hspans _).mp ⟨Span.isScan_ofText t, Span.flatten_ofText t⟩
  have hdigest : digest Expression.read t = .error (.misplacedWildcard 3) := by decide
  obtain ⟨front, fault, hfault, -, he⟩ := (hreports _).mp hdigest
  exact ⟨ht, hdigest, front, fault, hfault, he⟩

end UriRouting.Template
