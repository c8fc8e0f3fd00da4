/-
# UriRouting.Proofs.Template.Diagnosis — which error a rejected expression gets

A text between braces that the reader rejects is at fault in one of four ways, each said of the text
alone: it is that of a clause, which then is not a supported one (`InGrammar`); it announces another
modifier than the one there is (`AnnouncesModifier`); it lacks a name (`LacksName`); or at some
character it can no longer become the text of a clause (`Breaks`).  What can still become one is
`Viable`.  Each error stands for one of these faults (`Diagnosis`), and the text has the fault of its
error only.

That a place is not viable is shown by the reader: the text of a clause has a heading that is read
and leaves nothing behind it.  This carries over from the text at hand to every other text that
agrees with it up to the place, since no step of the reader looks behind the first character that it
leaves (`LooksAhead`).
-/
import UriRouting.Proofs.Template.Grammar
import Mathlib.Logic.Relation

namespace UriRouting.Expression

open Text (dropBlank isBlank startsWith)

/-! ## What is at fault in a text -/

/-- **`InGrammar body`** — the text is that of a clause, supported or not. -/
def InGrammar (body : Text) : Prop := ∃ (c : Clause) (s : Spacing), body = c.write s

/-- **`Viable t`** — the text can be completed to that of a clause. -/
def Viable (t : Text) : Prop := ∃ rest, InGrammar (t ++ rest)

/-- **`NamePlace`** — what stands in front of a place where a name must start: blanks, perhaps the
slash, and behind a type its colon and blanks. -/
structure NamePlace where
  lead : Blanks
  slash : Bool
  type : Option Name
  beforeColon : Blanks
  afterColon : Blanks

/-- The text in front of the place. -/
def NamePlace.write (p : NamePlace) : Text :=
  p.lead.val ++ mark p.slash '/' ++ writeType p.type p.beforeColon p.afterColon

/-- **`AnnouncesModifier body m`** — behind a bar that may start the modifier, and blanks, stands
`m` as the longest run of name characters. -/
def AnnouncesModifier (body m : Text) : Prop :=
  ∃ front rest, body = front ++ '|' :: rest ∧ Viable (front ++ ['|']) ∧
    m = (dropBlank rest).takeWhile isNameChar

/-- **`LacksName body`** — where a name must start, the text ends or goes on with the mark of a later
part or with a blank that may not stand there. -/
def LacksName (body : Text) : Prop :=
  ∃ (p : NamePlace) (rest : Text), body = p.write ++ rest ∧ ∀ c, rest.head? = some c →
    c ∈ [':', '*', '=', '|'] ∨ isBlank c = true ∧ ¬ Viable (p.write ++ [c])

/-- **`Breaks body c`** — what stands in front of the character `c` is viable, and is not with `c`. -/
def Breaks (body : Text) (c : Char) : Prop :=
  ∃ front rest, body = front ++ c :: rest ∧ Viable front ∧ ¬ Viable (front ++ [c])

/-- **`Diagnosis e body err`** — the fault of `body` that the error stands for. -/
inductive Diagnosis (e body : Text) : TemplateError → Prop
  | unsupported (h : InGrammar body) : Diagnosis e body (.unsupportedExpression e)
  | modifier {m : Text} (h : AnnouncesModifier body m) (hm : m ≠ encodeWord) :
      Diagnosis e body (.unknownModifier e m)
  | name (h : LacksName body) : Diagnosis e body (.emptyVariableName e)
  | character {c : Char} (h : Breaks body c) : Diagnosis e body (.invalidVariableName e c)

/-! ## Viable texts -/

variable {e t body : Text}

theorem InGrammar.viable (h : InGrammar t) : Viable t := ⟨[], by rwa [List.append_nil]⟩

/-- What a viable text starts with is viable. -/
theorem Viable.of_append {rest : Text} (h : Viable (t ++ rest)) : Viable t := by
  obtain ⟨rest', hrest⟩ := h
  exact ⟨rest ++ rest', by rwa [← List.append_assoc]⟩

/-- A text breaks at one character only. -/
theorem Breaks.unique {c c' : Char} (h : Breaks body c) (h' : Breaks body c') : c = c' := by
  obtain ⟨front, rest, rfl, hfront, hbreak⟩ := h
  obtain ⟨front', rest', heq, hfront', hbreak'⟩ := h'
  -- of two such places the earlier one, with its character, is part of the viable text in front of
  -- the later one
  rcases List.append_eq_append_iff.mp heq with ⟨between, rfl, hrest⟩ | ⟨between, rfl, hrest⟩
  · cases between with
    | nil => exact (List.cons.inj hrest).1
    | cons d between =>
      obtain ⟨rfl, -⟩ := List.cons.inj hrest
      rw [List.append_cons] at hfront'
      exact absurd hfront'.of_append hbreak
  · cases between with
    | nil => exact (List.cons.inj hrest).1.symm
    | cons d between =>
      obtain ⟨rfl, -⟩ := List.cons.inj hrest
      rw [List.append_cons] at hfront
      exact absurd hfront.of_append hbreak'

/-- The text of a clause has a heading. -/
theorem InGrammar.exists_readHeading (h : InGrammar t) (e : Text) :
    ∃ heading, readHeading e t = .ok heading := by
  obtain ⟨c, s, rfl⟩ := h
  rw [c.write_eq]
  exact ⟨_, readHeading_write c s (c.opensWith_behind_heading s)⟩

/-- At the text of a clause the reader finds no fault but that the clause is not supported. -/
theorem InGrammar.eq_unsupported (h : InGrammar body) {err : TemplateError}
    (herr : readBody e body = .error err) : err = .unsupportedExpression e := by
  obtain ⟨c, s, rfl⟩ := h
  rw [readBody_write] at herr
  exact (assemble_eq_error_iff.mp herr).2.symm

/-! ## A name is missing -/

theorem name_eq_error_iff {err : TemplateError} :
    name e t = .error err ↔ startsWith isNameChar t = false ∧ missingName e t = err := by
  cases t with
  | nil => simp [name, identifier, startsWith]
  | cons c t => cases hc : isNameChar c <;> simp [name, identifier, startsWith, hc]

theorem typedName_eq_error_iff {err : TemplateError} :
    typedName e t = .error err ↔ name e t = .error err ∨ ∃ first t' t'',
      name e t = .ok (first, t') ∧ accept ':' (dropBlank t') = (true, t'') ∧
        name e (dropBlank t'') = .error err := by
  rw [typedName, bind_eq_error_iff, Prod.exists]
  refine or_congr_right (exists_congr fun first => exists_congr fun t' => ?_)
  rw [exists_and_left]
  refine and_congr_right fun _ => ?_
  dsimp only
  obtain ⟨present, t''⟩ := accept ':' (dropBlank t')
  cases present with
  | true =>
    dsimp only
    rw [bind_pure_eq_error_iff]
    simp
  | false => simp [pure, Except.pure]

/-- **`Lacks p rest`** — at the place stands `rest`, and it starts neither with a name nor with what
may stand in front of a name there. -/
structure NamePlace.Lacks (p : NamePlace) (rest : Text) : Prop where
  not_name : startsWith isNameChar rest = false
  not_slash : p.slash = false → p.type = none → rest.head? ≠ some '/'
  not_blank : ¬ (p.slash = true ∧ p.type = none) → startsWith isBlank rest = false

/-- Only what stands at the front decides whether a name is missing. -/
theorem NamePlace.Lacks.cons {p : NamePlace} {c : Char} {r : Text} (h : p.Lacks (c :: r))
    (r' : Text) : p.Lacks (c :: r') := ⟨h.not_name, h.not_slash, h.not_blank⟩

/-- The slash in front of the place is taken, if there is one. -/
theorem accept_namePlace {p : NamePlace} {rest : Text} (h : p.Lacks rest) :
    accept '/' (dropBlank (p.write ++ rest)) =
      (p.slash, writeType p.type p.beforeColon p.afterColon ++ rest) := by
  obtain ⟨lead, slash, type, before, after⟩ := p
  simp only [NamePlace.write, List.append_assoc]
  cases type with
  | none =>
    have hleft : slash = false → dropBlank rest = rest := by
      rintro rfl
      exact Text.dropBlank_eq_self (h.not_blank (by simp))
    have haccept := accept_mark (t := rest) (c := '/') rfl lead slash fun hslash => by
      rw [hleft hslash]
      exact h.not_slash hslash rfl
    cases slash with
    | true => exact haccept
    | false => rwa [leftBy, if_neg (by simp), hleft rfl] at haccept
  | some type =>
    have hstart := startsWith_name type (before.val ++ ':' :: (after.val ++ rest))
    simpa [writeType] using accept_slash lead slash hstart

theorem typedName_namePlace {p : NamePlace} {rest : Text} (h : p.Lacks rest) :
    typedName e (writeType p.type p.beforeColon p.afterColon ++ rest) =
      .error (missingName e rest) := by
  obtain ⟨lead, slash, type, before, after⟩ := p
  have hrest : name e rest = .error (missingName e rest) := name_eq_error_iff.mpr ⟨h.not_name, rfl⟩
  rw [typedName_eq_error_iff]
  cases type with
  | none => exact .inl hrest
  | some type =>
    have hopens : OpensWith [':'] (before.val ++ ':' :: (after.val ++ rest)) :=
      (opensWith_blank_append_iff before.property).mpr (.cons rfl _)
    refine .inr ⟨type.val, before.val ++ ':' :: (after.val ++ rest), after.val ++ rest, ?_, ?_, ?_⟩
    · simpa [writeType] using name_write (e := e) type (hopens.not_name rfl)
    · rw [Text.dropBlank_append before.property]
      rfl
    · rwa [Text.dropBlank_append after.property, Text.dropBlank_eq_self (h.not_blank (by simp))]

theorem readHeading_eq_error_iff_typedName {slash : Bool} {err : TemplateError}
    (hslash : accept '/' (dropBlank body) = (slash, t)) :
    readHeading e body = .error err ↔ typedName e t = .error err := by
  simp only [readHeading, hslash]
  cases typedName e t <;> simp [bind, Except.bind, pure, Except.pure]

theorem exists_namePlace_of_typedName {slash : Bool} {err : TemplateError}
    (hslash : accept '/' (dropBlank body) = (slash, t)) (h : typedName e t = .error err) :
    ∃ (p : NamePlace) (rest : Text), body = p.write ++ rest ∧ p.Lacks rest ∧
      missingName e rest = err := by
  obtain ⟨lead, hlead⟩ := exists_blanks body
  have hbody := eq_mark_of_accept hslash
  rcases typedName_eq_error_iff.mp h with hname | ⟨first, t', t'', hfirst, hcolon, hname⟩
  · obtain ⟨hstart, herr⟩ := name_eq_error_iff.mp hname
    refine ⟨⟨lead, slash, none, noBlanks, noBlanks⟩, t, ?_, ⟨hstart, ?_, ?_⟩, herr⟩
    · rw [hbody] at hlead
      simpa [NamePlace.write, writeType] using hlead
    · rintro rfl -
      exact head?_ne_of_accept hslash
    · intro hslash'
      obtain rfl : slash = false := by simpa using hslash'
      rw [show t = dropBlank body from hbody.symm]
      exact Text.startsWith_dropWhile body
  · obtain ⟨first, rfl, rfl⟩ := exists_name_of_name hfirst
    obtain ⟨before, hbefore⟩ := exists_blanks t'
    obtain ⟨after, hafter⟩ := exists_blanks t''
    obtain ⟨hstart, herr⟩ := name_eq_error_iff.mp hname
    refine ⟨⟨lead, slash, some first, before, after⟩, dropBlank t'', ?_,
      ⟨hstart, fun _ htype => by simp at htype, fun _ => Text.startsWith_dropWhile t''⟩, herr⟩
    rw [eq_mark_of_accept hcolon] at hbefore
    rw [hlead, hbody, hbefore]
    simp [NamePlace.write, writeType, mark, ← hafter]

/-- **A heading is rejected exactly for a missing name.** -/
theorem readHeading_eq_error_iff {err : TemplateError} :
    readHeading e body = .error err ↔
      ∃ (p : NamePlace) (rest : Text), body = p.write ++ rest ∧ p.Lacks rest ∧
        missingName e rest = err := by
  constructor
  · intro h
    rcases hslash : accept '/' (dropBlank body) with ⟨slash, t⟩
    exact exists_namePlace_of_typedName hslash ((readHeading_eq_error_iff_typedName hslash).mp h)
  · rintro ⟨p, rest, rfl, hlacks, rfl⟩
    rw [readHeading_eq_error_iff_typedName (accept_namePlace hlacks)]
    exact typedName_namePlace hlacks

/-- In front of a name the text can still become that of a clause. -/
theorem NamePlace.viable (p : NamePlace) : Viable p.write :=
  ⟨['a'], ⟨p.slash, p.type, ⟨['a'], by simp, List.all_eq_true.mp rfl⟩, false, none, .plain⟩,
    ⟨p.lead, p.beforeColon, p.afterColon, noBlanks, noBlanks, noBlanks, noBlanks⟩, by
      simp [NamePlace.write, Clause.write, mark, writeDefault, writeModifier, noBlanks]⟩

/-- A blank may stand there, unless it is the place right behind the slash. -/
theorem NamePlace.viable_of_blank {p : NamePlace} {c : Char} (hc : isBlank c = true)
    (hp : ¬ (p.slash = true ∧ p.type = none)) : Viable (p.write ++ [c]) := by
  obtain ⟨lead, slash, type, before, after⟩ := p
  have hlonger : ∀ b : Blanks, ∀ d ∈ b.val ++ [c], isBlank d = true := by
    intro b d hd
    rcases List.mem_append.mp hd with hd | hd
    · exact b.property d hd
    · rwa [List.mem_singleton.mp hd]
  cases type with
  | none =>
    obtain rfl : slash = false := by simpa using hp
    have hviable := NamePlace.viable ⟨⟨_, hlonger lead⟩, false, none, before, after⟩
    simpa [NamePlace.write, mark, writeType] using hviable
  | some type =>
    have hviable := NamePlace.viable ⟨lead, slash, some type, before, ⟨_, hlonger after⟩⟩
    simpa [NamePlace.write, writeType] using hviable

/-- With a character that no name starts with, nor what may stand in front of it, the text cannot
become that of a clause. -/
theorem NamePlace.Lacks.not_viable {p : NamePlace} {c : Char} {rest : Text}
    (h : p.Lacks (c :: rest)) : ¬ Viable (p.write ++ [c]) := by
  rintro ⟨rest', hgrammar⟩
  obtain ⟨heading, hread⟩ := hgrammar.exists_readHeading []
  have hmissing : readHeading [] (p.write ++ [c] ++ rest') = .error (missingName [] (c :: rest')) :=
    readHeading_eq_error_iff.mpr ⟨p, c :: rest', by simp, h.cons rest', rfl⟩
  rw [hread] at hmissing
  cases hmissing

/-- The error for a missing name tells the marks of later parts and the blanks from what else stands
in its place. -/
theorem missingName_cons (c : Char) (rest : Text) :
    missingName e (c :: rest) = if c ∈ [':', '*', '=', '|'] ∨ isBlank c = true then
      .emptyVariableName e else .invalidVariableName e c := by
  simp [missingName, or_assoc]

/-- Neither the mark of a later part nor a blank that may not stand there starts a name. -/
theorem NamePlace.Lacks.of_head {p : NamePlace} {rest : Text}
    (h : ∀ c, rest.head? = some c →
      c ∈ [':', '*', '=', '|'] ∨ isBlank c = true ∧ ¬ Viable (p.write ++ [c])) : p.Lacks rest := by
  cases rest with
  | nil => exact ⟨rfl, fun _ _ => by simp, fun _ => rfl⟩
  | cons c rest =>
    rcases h c rfl with hmark | ⟨hblank, hviable⟩
    · simp only [List.mem_cons, List.not_mem_nil, or_false] at hmark
      rcases hmark with rfl | rfl | rfl | rfl <;> exact ⟨rfl, fun _ _ => by simp, fun _ => rfl⟩
    · have hplace : p.slash = true ∧ p.type = none :=
        not_not.mp fun hplace => hviable (p.viable_of_blank hblank hplace)
      refine ⟨isNameChar_of_isBlank hblank, fun hslash => ?_, fun hplace' => absurd hplace hplace'⟩
      exact absurd (hplace.1.symm.trans hslash) (by decide)

theorem LacksName.readHeading_eq (h : LacksName body) :
    readHeading e body = .error (.emptyVariableName e) := by
  obtain ⟨p, rest, rfl, hrest⟩ := h
  refine readHeading_eq_error_iff.mpr ⟨p, rest, rfl, .of_head hrest, ?_⟩
  cases rest with
  | nil => rfl
  | cons c rest =>
    rw [missingName_cons]
    exact if_pos ((hrest c rfl).imp_right And.left)

theorem LacksName.readBody_eq (h : LacksName body) :
    readBody e body = .error (.emptyVariableName e) := by
  rw [Expression.readBody_eq]
  exact bind_eq_error_iff.mpr (.inl h.readHeading_eq)

/-- A heading is rejected with the error for the fault of the text. -/
theorem diagnosis_of_readHeading {err : TemplateError} (h : readHeading e body = .error err) :
    Diagnosis e body err := by
  obtain ⟨p, rest, rfl, hlacks, rfl⟩ := readHeading_eq_error_iff.mp h
  cases rest with
  | nil => exact .name ⟨p, [], rfl, by simp⟩
  | cons c rest =>
    rw [missingName_cons]
    split
    · next hc =>
      refine .name ⟨p, c :: rest, rfl, ?_⟩
      rintro d hd
      obtain rfl : c = d := Option.some.inj hd
      exact hc.imp_right fun hblank => ⟨hblank, hlacks.not_viable⟩
    · exact .character ⟨p.write, rest, rfl, p.viable, hlacks.not_viable⟩

/-! ## Another modifier is announced -/

theorem optionalModifier_eq_error_iff {err : TemplateError} :
    optionalModifier e t = .error err ↔ ∃ rest, t = '|' :: rest ∧
      (dropBlank rest).takeWhile isNameChar ≠ encodeWord ∧
        .unknownModifier e ((dropBlank rest).takeWhile isNameChar) = err := by
  cases t with
  | nil => simp [optionalModifier, accept]
  | cons c t =>
    by_cases hc : c = '|'
    · subst hc
      by_cases hword : (dropBlank t).takeWhile isNameChar = encodeWord <;>
        simp [optionalModifier, accept, modifier, identifier, hword]
    · simp [optionalModifier, accept, hc]

/-- A heading has no bar, since a default has none. -/
theorem Clause.bar_not_mem_writeHeading (c : Clause) (s : Spacing) : '|' ∉ c.writeHeading s :=
  Clause.not_mem_writeHeading s rfl rfl (by decide) fun d _ => d.property

/-- **A bar can stand behind a heading only**, and behind any heading. -/
theorem viable_bar_iff {front : Text} :
    Viable (front ++ ['|']) ↔ ∃ (c : Clause) (s : Spacing), front = c.writeHeading s := by
  constructor
  · rintro ⟨rest, c, s, hwrite⟩
    have hblanks : ∀ b : Blanks, '|' ∉ b.val := not_mem_blanks rfl
    rw [c.write_eq, List.append_assoc] at hwrite
    cases hmodifier : c.modifier with
    | plain =>
      rw [hmodifier] at hwrite
      have hbar : '|' ∈ c.writeHeading s ++ (writeModifier s.afterBar .plain ++ s.trail.val) := by
        simp [← hwrite]
      simp [c.bar_not_mem_writeHeading s, writeModifier, hblanks] at hbar
    | encoded =>
      rw [hmodifier] at hwrite
      have hbehind : '|' ∉ s.afterBar.val ++ encodeWord ++ s.trail.val := by
        simp [hblanks, encodeWord]
      obtain ⟨hheading, -⟩ := (List.append_cons_inj_of_notMem (c.bar_not_mem_writeHeading s)
        hbehind).mp hwrite.symm
      exact ⟨c, s, hheading.symm⟩
  · rintro ⟨c, s, rfl⟩
    refine ⟨encodeWord, { c with modifier := .encoded },
      { s with afterBar := noBlanks, trail := noBlanks }, ?_⟩
    simp [Clause.write, Clause.writeHeading, writeModifier, noBlanks]

theorem AnnouncesModifier.readBody_eq {m : Text} (h : AnnouncesModifier body m)
    (hm : m ≠ encodeWord) : readBody e body = .error (.unknownModifier e m) := by
  obtain ⟨front, rest, rfl, hviable, rfl⟩ := h
  obtain ⟨c, s, rfl⟩ := viable_bar_iff.mp hviable
  have hopens : OpensWith ['|'] ('|' :: rest) := .cons rfl rest
  have hmodifier := optionalModifier_eq_error_iff (e := e).mpr ⟨rest, rfl, hm, rfl⟩
  rw [Expression.readBody_eq, readHeading_write c s hopens]
  exact bind_eq_error_iff.mpr (.inr ⟨_, rfl, bind_eq_error_iff.mpr (.inl hmodifier)⟩)

/-! ## How far the reader looks -/

/-- **`LooksAhead R`** — where `R s t` says that a step leaves `t` of `s`: the step does not look
behind the first character that it leaves. -/
def LooksAhead (R : Text → Text → Prop) : Prop :=
  ∀ ⦃s c r⦄, R s (c :: r) → ∃ front, s = front ++ c :: r ∧ ∀ r', R (front ++ c :: r') (c :: r')

theorem LooksAhead.comp {R R' : Text → Text → Prop} (hR : LooksAhead R) (hR' : LooksAhead R') :
    LooksAhead (Relation.Comp R R') := by
  rintro s c r ⟨t, hs, ht⟩
  obtain ⟨back, rfl, hback⟩ := hR' ht
  -- the first step stops in front of what the second one takes
  cases back with
  | nil =>
    obtain ⟨front, rfl, hfront⟩ := hR hs
    exact ⟨front, rfl, fun r' => ⟨c :: r', hfront r', hback r'⟩⟩
  | cons d back =>
    obtain ⟨front, rfl, hfront⟩ := hR hs
    refine ⟨front ++ d :: back, by simp, fun r' => ⟨d :: (back ++ c :: r'), ?_, hback r'⟩⟩
    simpa using hfront (back ++ c :: r')

theorem LooksAhead.or {R R' : Text → Text → Prop} (hR : LooksAhead R) (hR' : LooksAhead R') :
    LooksAhead fun s t => R s t ∨ R' s t := by
  rintro s c r (h | h)
  · obtain ⟨front, hs, hfront⟩ := hR h
    exact ⟨front, hs, fun r' => .inl (hfront r')⟩
  · obtain ⟨front, hs, hfront⟩ := hR' h
    exact ⟨front, hs, fun r' => .inr (hfront r')⟩

theorem LooksAhead.of_iff {R R' : Text → Text → Prop} (hR : LooksAhead R)
    (h : ∀ s t, R' s t ↔ R s t) : LooksAhead R' := by
  intro s c r hs
  obtain ⟨front, hfront, hleft⟩ := hR ((h s _).mp hs)
  exact ⟨front, hfront, fun r' => (h _ _).mpr (hleft r')⟩

theorem LooksAhead.exists {ι : Type} {R : ι → Text → Text → Prop} (hR : ∀ i, LooksAhead (R i)) :
    LooksAhead fun s t => ∃ i, R i s t := by
  rintro s c r ⟨i, h⟩
  obtain ⟨front, hs, hfront⟩ := hR i h
  exact ⟨front, hs, fun r' => ⟨i, hfront r'⟩⟩

/-- Taking a run of characters, on a condition on what was taken. -/
theorem looksAhead_run (p : Char → Bool) (P : Text → Prop) :
    LooksAhead fun s t => P (s.takeWhile p) ∧ s.dropWhile p = t := by
  rintro s c r ⟨hP, h⟩
  have hrun : ∀ d ∈ s.takeWhile p, p d = true := fun _ hd => List.mem_takeWhile_imp hd
  have hfirst : startsWith p (c :: r) = false := h ▸ Text.startsWith_dropWhile s
  refine ⟨s.takeWhile p, ?_, fun r' => ?_⟩
  · rw [← h, List.takeWhile_append_dropWhile]
  · have hstop : startsWith p (c :: r') = false := hfirst
    dsimp only
    rw [Text.takeWhile_run hrun hstop, Text.dropWhile_run hrun hstop]
    exact ⟨hP, rfl⟩

theorem looksAhead_dropBlank : LooksAhead fun s t => dropBlank s = t :=
  (looksAhead_run isBlank fun _ => True).of_iff fun _ _ => (true_and _).symm.to_iff

theorem looksAhead_accept (c : Char) (present : Bool) :
    LooksAhead fun s t => accept c s = (present, t) := by
  intro s d r h
  refine ⟨mark present c, eq_mark_of_accept h, fun r' => ?_⟩
  cases present with
  | true => exact if_pos rfl
  | false =>
    have hhead : (d :: r).head? ≠ some c := head?_ne_of_accept h
    exact accept_of_head?_ne hhead

theorem looksAhead_name : LooksAhead fun s t => ∃ n, name e s = .ok (n, t) := by
  refine (looksAhead_run isNameChar (· ≠ [])).of_iff fun s t => ?_
  simp only [name_eq_ok_iff]
  constructor
  · rintro ⟨n, hne, rfl, hrest⟩
    exact ⟨hne, hrest⟩
  · rintro ⟨hne, hrest⟩
    exact ⟨_, hne, rfl, hrest⟩

theorem looksAhead_typedName :
    LooksAhead fun s t => ∃ type n, typedName e s = .ok (type, n, t) := by
  have hname := looksAhead_name (e := e)
  have hcolon := looksAhead_dropBlank.comp (looksAhead_accept ':' true)
  have hplain := looksAhead_dropBlank.comp (looksAhead_accept ':' false)
  refine (hname.comp ((hcolon.comp (looksAhead_dropBlank.comp hname)).or hplain)).of_iff
    fun s t => ?_
  simp only [typedName_eq_ok_iff, Relation.Comp]
  constructor
  · rintro ⟨type, n, first, t', hfirst, ⟨t'', hcolon, hname, -⟩ | ⟨hcolon, -, -⟩⟩
    · exact ⟨t', ⟨first, hfirst⟩, .inl ⟨t'', ⟨_, rfl, hcolon⟩, _, rfl, n, hname⟩⟩
    · exact ⟨t', ⟨first, hfirst⟩, .inr ⟨_, rfl, hcolon⟩⟩
  · rintro ⟨t', ⟨first, hfirst⟩, ⟨t'', ⟨_, rfl, hcolon⟩, _, rfl, n, hname⟩ | ⟨_, rfl, hcolon⟩⟩
    · exact ⟨some first, n, first, t', hfirst, .inl ⟨t'', hcolon, hname, rfl⟩⟩
    · exact ⟨none, first, first, t', hfirst, .inr ⟨hcolon, rfl, rfl⟩⟩

theorem looksAhead_defaultValue : LooksAhead fun s t => ∃ d, defaultValue s = (d, t) := by
  have hvalue := (looksAhead_accept '=' true).comp
    (looksAhead_run (fun c => decide (c ≠ '|')) fun _ => True)
  refine (hvalue.or (looksAhead_accept '=' false)).of_iff fun s t => ?_
  rcases hsign : accept '=' s with ⟨present, s'⟩
  cases present <;> simp [defaultValue, hsign, Relation.Comp]

theorem looksAhead_optionalModifier :
    LooksAhead fun s t => ∃ m, optionalModifier e s = .ok (m, t) := by
  have hmodifier := (looksAhead_accept '|' true).comp
    (looksAhead_dropBlank.comp (looksAhead_run isNameChar (· = encodeWord)))
  refine (hmodifier.or (looksAhead_accept '|' false)).of_iff fun s t => ?_
  rcases hbar : accept '|' s with ⟨present, s'⟩
  cases present with
  | false => simp [optionalModifier, hbar, Relation.Comp]
  | true =>
    by_cases hword : (dropBlank s').takeWhile isNameChar = encodeWord <;>
      simp [optionalModifier, hbar, Relation.Comp, modifier, identifier, hword]

theorem looksAhead_readHeading : LooksAhead fun s t => ∃ h, readHeading e s = .ok (h, t) := by
  have hmark : ∀ c, LooksAhead (Relation.Comp (fun s t => dropBlank s = t)
      fun s t => ∃ present, accept c s = (present, t)) := fun c =>
    looksAhead_dropBlank.comp (.exists (looksAhead_accept c))
  have hdefault := looksAhead_dropBlank.comp looksAhead_defaultValue
  refine ((hmark '/').comp ((looksAhead_typedName (e := e)).comp
    ((hmark '*').comp hdefault))).of_iff fun s t => ?_
  constructor
  · rintro ⟨h, hread⟩
    obtain ⟨s₁, s₂, s₃, hslash, htyped, hstar, hdefault⟩ := readHeading_eq_ok_iff.mp hread
    exact ⟨s₁, ⟨_, rfl, _, hslash⟩, s₂, ⟨_, _, htyped⟩, s₃, ⟨_, rfl, _, hstar⟩, _, rfl, _, hdefault⟩
  · rintro ⟨s₁, ⟨_, rfl, slash, hslash⟩, s₂, ⟨type, n, htyped⟩, s₃, ⟨_, rfl, star, hstar⟩, _, rfl,
      d, hdefault⟩
    exact ⟨⟨slash, type, n, star, d⟩,
      readHeading_eq_ok_iff.mpr ⟨s₁, s₂, s₃, hslash, htyped, hstar, hdefault⟩⟩

/-! ## Something is left over -/

theorem readBody_eq_of_leftover {h : Heading} {m : Modifier} {s₁ s₂ rest : Text} {found : Char}
    (hheading : readHeading e body = .ok (h, s₁)) (hmodifier : optionalModifier e s₁ = .ok (m, s₂))
    (hend : dropBlank s₂ = found :: rest) :
    readBody e body = .error (.invalidVariableName e found) := by
  simp only [readBody_eq, hheading, hmodifier, hend, bind, Except.bind]

/-- **A text breaks at the character that is left over** behind the blanks at its end. -/
theorem breaks_of_leftover {h : Heading} {m : Modifier} {s₁ s₂ rest : Text} {found : Char}
    (hheading : readHeading e body = .ok (h, s₁)) (hmodifier : optionalModifier e s₁ = .ok (m, s₂))
    (hend : dropBlank s₂ = found :: rest) : Breaks body found := by
  obtain ⟨c, s, -, -, hwrite⟩ := exists_write_of_optionalModifier hheading hmodifier
  rw [hend] at hwrite
  refine ⟨c.write s, rest, hwrite, InGrammar.viable ⟨c, s, rfl⟩, ?_⟩
  -- whatever follows the character, it is left over
  have hlooks := (looksAhead_readHeading (e := e)).comp
    ((looksAhead_optionalModifier (e := e)).comp looksAhead_dropBlank)
  obtain ⟨front, hfront, hleft⟩ := hlooks ⟨s₁, ⟨h, hheading⟩, s₂, ⟨m, hmodifier⟩, hend⟩
  obtain rfl : c.write s = front := List.append_cancel_right (hwrite.symm.trans hfront)
  rintro ⟨rest', hgrammar⟩
  obtain ⟨s₁', ⟨h', hheading'⟩, s₂', ⟨m', hmodifier'⟩, hend'⟩ := hleft rest'
  rw [← List.append_cons] at hgrammar
  cases hgrammar.eq_unsupported (readBody_eq_of_leftover hheading' hmodifier' hend')

/-! ## The error and the fault -/

/-- The reader rejects with the error for the fault of the text. -/
theorem diagnosis_of_readBody {err : TemplateError} (h : readBody e body = .error err) :
    Diagnosis e body err := by
  have hread := h
  rw [readBody_eq, bind_eq_error_iff] at hread
  rcases hread with hheading | ⟨⟨heading, s₁⟩, hheading, hread⟩
  · exact diagnosis_of_readHeading hheading
  rcases bind_eq_error_iff.mp hread with hmodifier | ⟨⟨m, s₂⟩, hmodifier, hrest⟩
  · obtain ⟨rest, rfl, hm, rfl⟩ := optionalModifier_eq_error_iff.mp hmodifier
    obtain ⟨c, s, -, rfl⟩ := exists_write_of_readHeading hheading
    exact .modifier ⟨c.writeHeading s, rest, rfl, viable_bar_iff.mpr ⟨c, s, rfl⟩, rfl⟩ hm
  cases hend : dropBlank s₂ with
  | nil =>
    obtain ⟨c, s, -, -, hwrite⟩ := exists_write_of_optionalModifier hheading hmodifier
    have hgrammar : InGrammar body := ⟨c, s, by rw [hwrite, hend, List.append_nil]⟩
    rw [hgrammar.eq_unsupported h]
    exact .unsupported hgrammar
  | cons found rest =>
    obtain rfl : .invalidVariableName e found = err :=
      Except.error.inj ((readBody_eq_of_leftover hheading hmodifier hend).symm.trans h)
    exact .character (breaks_of_leftover hheading hmodifier hend)

/-- **Which error a rejected expression gets.**  It is not supported if it is that of a clause, and
then it has a slash without a star, or a slash or star with a modifier; the modifier is unknown if
a bar announces another one than `encode`; the name is empty if one is lacking; and otherwise the
character is reported at which the text between the braces breaks. -/
theorem read_error_iff_fault {err : TemplateError} (he : e = '{' :: (body ++ ['}']))
    (h : read e = .error err) :
    (err = .unsupportedExpression e ↔ InGrammar body) ∧
      (∀ (c : Clause) (s : Spacing), body = c.write s →
        c.slash = true ∧ c.star = false ∨
          (c.slash = true ∨ c.star = true) ∧ c.modifier ≠ .plain) ∧
      (∀ m, err = .unknownModifier e m ↔ AnnouncesModifier body m ∧ m ≠ encodeWord) ∧
      (err = .emptyVariableName e ↔ LacksName body) ∧
      (∀ c, err = .invalidVariableName e c ↔ ¬ InGrammar body ∧
        (∀ m, AnnouncesModifier body m → m = encodeWord) ∧ ¬ LacksName body ∧ Breaks body c) ∧
      (InGrammar body ∨ (∃ m, AnnouncesModifier body m ∧ m ≠ encodeWord) ∨ LacksName body ∨
        ∃ c, err = .invalidVariableName e c) := by
  have hbody : readBody e body = .error err := by
    rw [he] at h ⊢
    rwa [read_braces] at h
  have hfault := diagnosis_of_readBody hbody
  have hsame : ∀ {err'}, readBody e body = .error err' → err = err' := fun herr =>
    Except.error.inj (hbody.symm.trans herr)
  refine ⟨⟨?_, fun hgrammar => hgrammar.eq_unsupported hbody⟩, ?_,
    fun m => ⟨?_, fun ⟨hannounces, hm⟩ => hsame (hannounces.readBody_eq hm)⟩,
    ⟨?_, fun hlacks => hsame hlacks.readBody_eq⟩, fun c => ⟨?_, ?_⟩, ?_⟩
  · rintro rfl
    cases hfault with
    | unsupported hgrammar => exact hgrammar
  · rintro c s rfl
    rw [readBody_write] at hbody
    exact Clause.not_isSupported_iff.mp (assemble_eq_error_iff.mp hbody).1
  · rintro rfl
    cases hfault with
    | modifier hannounces hm => exact ⟨hannounces, hm⟩
  · rintro rfl
    cases hfault with
    | name hlacks => exact hlacks
  · rintro rfl
    cases hfault with
    | character hbreaks =>
      refine ⟨fun hgrammar => ?_, fun m hannounces => ?_, fun hlacks => ?_, hbreaks⟩
      · cases hgrammar.eq_unsupported hbody
      · by_contra hm
        cases hsame (hannounces.readBody_eq hm)
      · cases hsame hlacks.readBody_eq
  · rintro ⟨hgrammar, hannounces, hlacks, hbreaks⟩
    cases hfault with
    | unsupported hgrammar' => exact absurd hgrammar' hgrammar
    | modifier hannounces' hm => exact absurd (hannounces _ hannounces') hm
    | name hlacks' => exact absurd hlacks' hlacks
    | character hbreaks' => rw [hbreaks'.unique hbreaks]
  · cases hfault with
    | unsupported hgrammar => exact .inl hgrammar
    | modifier hannounces hm => exact .inr (.inl ⟨_, hannounces, hm⟩)
    | name hlacks => exact .inr (.inr (.inl hlacks))
    | character hbreaks => exact .inr (.inr (.inr ⟨_, rfl⟩))

/-- Behind a name and a blank no other name may start. -/
theorem read_error_iff_fault_two_names :
    read (Text.ofString "\x7bna me\x7d") =
        .error (.invalidVariableName (Text.ofString "\x7bna me\x7d") 'm') ∧
      ¬ LacksName (Text.ofString "na me") ∧ Breaks (Text.ofString "na me") 'm' := by
  have hbraces : Text.ofString "\x7bna me\x7d" = '{' :: (Text.ofString "na me" ++ ['}']) := by
    decide
  have hread : read (Text.ofString "\x7bna me\x7d") =
      .error (.invalidVariableName (Text.ofString "\x7bna me\x7d") 'm') := by decide
  obtain ⟨-, -, -, -, hcharacter, -⟩ := read_error_iff_fault hbraces hread
  obtain ⟨-, -, hlacks, hbreaks⟩ := (hcharacter 'm').mp rfl
  exact ⟨hread, hlacks, hbreaks⟩

end UriRouting.Expression
