/-
# UriRouting.Proofs.Template.Grammar — the expressions that stand for a token

The grammar of expressions is given by what is written: a `Clause` says the parts of an expression,
a `Spacing` the blanks between them, and `Clause.write` puts the text between the braces together.
The reader takes these parts off the text one by one, first those of the heading and then the
modifier (`readBody_eq`).  Each of its steps has two lemmas: from a written form it takes exactly
what was written, and what it takes is the written form of what it returns.  The first one asks that
what follows cannot be taken for a continuation; since every part behind the name starts with a
character of its own, the first character that is not blank settles that (`OpensWith`).  Both
together say that the reader accepts exactly the written clauses, whatever the spacing
(`readBody_write`, `exists_write_of_readBody`).
-/
import UriRouting.Proofs.FirstFault
import UriRouting.Proofs.Text.Runs
import UriRouting.Template.Expression

namespace UriRouting.Expression

open Text (dropBlank trim isBlank startsWith)

/-! ## The grammar -/

/-- **`Name`** — a non-empty run of name characters. -/
abbrev Name := { t : Text // t ≠ [] ∧ ∀ c ∈ t, isNameChar c = true }

/-- **`Blanks`** — a run of blanks, which may be empty. -/
abbrev Blanks := { t : Text // ∀ c ∈ t, isBlank c = true }

/-- No blanks. -/
def noBlanks : Blanks := ⟨[], by simp⟩

/-- **`DefaultText`** — a default value as written: any text without a bar. -/
abbrev DefaultText := { t : Text // '|' ∉ t }

/-- **`Clause`** — what an expression says: whether it has a slash, the type and the name, whether it
has a star, the default as written, and the modifier. -/
structure Clause where
  slash : Bool
  type : Option Name
  name : Name
  star : Bool
  default : Option DefaultText
  modifier : Modifier

/-- **`Spacing`** — the blanks in the places where the grammar allows them. -/
structure Spacing where
  lead : Blanks
  beforeColon : Blanks
  afterColon : Blanks
  afterName : Blanks
  afterStar : Blanks
  afterBar : Blanks
  trail : Blanks

/-- A character that is there or not. -/
def mark (present : Bool) (c : Char) : Text := if present then [c] else []

/-- The type with its colon. -/
def writeType (type : Option Name) (before after : Blanks) : Text :=
  match type with
  | none => []
  | some t => t.val ++ before.val ++ [':'] ++ after.val

/-- The default with its sign. -/
def writeDefault : Option DefaultText → Text
  | none => []
  | some d => '=' :: d.val

/-- The modifier with its bar. -/
def writeModifier (afterBar : Blanks) : Modifier → Text
  | .plain => []
  | .encoded => '|' :: (afterBar.val ++ encodeWord)

/-- **`write c s`** — the text between the braces of an expression that says `c`, spaced by `s`. -/
def Clause.write (c : Clause) (s : Spacing) : Text :=
  s.lead.val ++ mark c.slash '/' ++ writeType c.type s.beforeColon s.afterColon ++ c.name.val ++
    s.afterName.val ++ mark c.star '*' ++ s.afterStar.val ++ writeDefault c.default ++
    writeModifier s.afterBar c.modifier ++ s.trail.val

/-- The variable of a clause; its default is trimmed. -/
def Clause.variable (c : Clause) : Variable :=
  ⟨c.name.val, c.type.map Subtype.val, c.default.map fun d => trim d.val⟩

/-- **`writeHeading c s`** — what is written in front of the modifier. -/
def Clause.writeHeading (c : Clause) (s : Spacing) : Text :=
  s.lead.val ++ mark c.slash '/' ++ writeType c.type s.beforeColon s.afterColon ++ c.name.val ++
    s.afterName.val ++ mark c.star '*' ++ s.afterStar.val ++ writeDefault c.default

theorem Clause.write_eq (c : Clause) (s : Spacing) :
    c.write s = c.writeHeading s ++ (writeModifier s.afterBar c.modifier ++ s.trail.val) :=
  List.append_assoc _ _ _

/-- **`IsSupported c`** — a slash comes with a star only, and a star without modifier. -/
structure Clause.IsSupported (c : Clause) : Prop where
  star_of_slash : c.slash = true → c.star = true
  plain_of_star : c.star = true → c.modifier = .plain

/-- **`token c`** — what a supported clause stands for: with a star a wildcard, which binds segments
if there is a slash, and else a placeholder. -/
def Clause.token (c : Clause) : Token :=
  if c.star then .wildcard c.variable (if c.slash then .segments else .remainder)
  else .placeholder c.variable c.modifier

theorem Clause.isSupported_iff {c : Clause} : c.IsSupported ↔
    (c.slash = true → c.star = true) ∧ (c.star = true → c.modifier = .plain) :=
  ⟨fun ⟨h, h'⟩ => ⟨h, h'⟩, fun ⟨h, h'⟩ => ⟨h, h'⟩⟩

/-- What is not supported is a slash without a star, and a modifier with either of the two. -/
theorem Clause.not_isSupported_iff {c : Clause} : ¬ c.IsSupported ↔
    c.slash = true ∧ c.star = false ∨
      (c.slash = true ∨ c.star = true) ∧ c.modifier ≠ .plain := by
  rw [Clause.isSupported_iff]
  cases c.slash <;> cases c.star <;> simp

theorem assemble_eq_ok_iff {e : Text} {c : Clause} {token : Token} :
    assemble e c.variable c.slash c.star c.modifier = .ok token ↔
      c.IsSupported ∧ c.token = token := by
  rw [Clause.isSupported_iff, Clause.token]
  cases c.slash <;> cases c.star <;> cases c.modifier <;> simp [assemble]

theorem assemble_eq_error_iff {e : Text} {c : Clause} {err : TemplateError} :
    assemble e c.variable c.slash c.star c.modifier = .error err ↔
      ¬ c.IsSupported ∧ .unsupportedExpression e = err := by
  rw [Clause.isSupported_iff]
  cases c.slash <;> cases c.star <;> cases c.modifier <;> simp [assemble]

/-! ## The first character that is not blank -/

theorem toNat_of_isNameChar {c : Char} (h : isNameChar c = true) :
    0x2D ≤ c.toNat ∧ c.toNat ≤ 0x7A := by
  simp only [isNameChar, Bool.or_eq_true, beq_iff_eq] at h
  rcases h with ((halnum | rfl) | rfl) | rfl
  · have := Text.toNat_of_isAlphanum halnum
    omega
  all_goals decide

theorem isNameChar_of_isBlank {c : Char} (h : isBlank c = true) : isNameChar c = false := by
  rw [Bool.eq_false_iff]
  intro hname
  have hrange := toNat_of_isNameChar hname
  simp only [isBlank, Text.blankRanges, List.any_cons, List.any_nil, Bool.or_eq_true,
    Bool.and_eq_true, decide_eq_true_eq, Bool.or_false] at h
  omega

/-- **`OpensWith cs t`** — the first character of the text that is not blank, if there is one, is one
of `cs`. -/
def OpensWith (cs : List Char) (t : Text) : Prop := ∀ c, (dropBlank t).head? = some c → c ∈ cs

theorem OpensWith.of_blank {b : Text} (hb : ∀ c ∈ b, isBlank c = true) : OpensWith [] b := by
  intro c hc
  rw [dropBlank, List.dropWhile_eq_nil_iff.mpr hb] at hc
  cases hc

theorem opensWith_blank_append_iff {cs : List Char} {b t : Text}
    (hb : ∀ c ∈ b, isBlank c = true) : OpensWith cs (b ++ t) ↔ OpensWith cs t := by
  rw [OpensWith, OpensWith, Text.dropBlank_append hb]

theorem OpensWith.cons {cs : List Char} {c : Char} (hc : isBlank c = false) (t : Text) :
    OpensWith (c :: cs) (c :: t) := by
  intro d hd
  rw [Text.dropBlank_cons_of_not_blank hc] at hd
  cases hd
  exact List.mem_cons_self

theorem OpensWith.skip {cs : List Char} {t : Text} (h : OpensWith cs t) (c : Char) :
    OpensWith (c :: cs) t := fun d hd => List.mem_cons_of_mem _ (h d hd)

theorem OpensWith.mark {cs : List Char} {t : Text} (h : OpensWith cs t) (present : Bool) {c : Char}
    (hc : isBlank c = false) : OpensWith (c :: cs) (mark present c ++ t) := by
  cases present with
  | true => exact .cons hc t
  | false => exact h.skip c

theorem OpensWith.writeDefault {cs : List Char} {t : Text} (h : OpensWith cs t)
    (default : Option DefaultText) : OpensWith ('=' :: cs) (writeDefault default ++ t) := by
  cases default with
  | none => exact h.skip '='
  | some d => exact .cons rfl _

theorem OpensWith.writeModifier {cs : List Char} {t : Text} (h : OpensWith cs t) (afterBar : Blanks)
    (m : Modifier) : OpensWith ('|' :: cs) (writeModifier afterBar m ++ t) := by
  cases m with
  | plain => exact h.skip '|'
  | encoded => exact .cons rfl _

/-- A text that opens with other characters than name characters does not go on with a name. -/
theorem OpensWith.not_name {cs : List Char} {t : Text} (h : OpensWith cs t)
    (hcs : cs.any isNameChar = false) : startsWith isNameChar t = false := by
  cases t with
  | nil => rfl
  | cons c t =>
    cases hc : isBlank c with
    | true => exact isNameChar_of_isBlank hc
    | false =>
      refine Bool.eq_false_iff.mpr (List.any_eq_false.mp hcs c (h c ?_))
      rw [Text.dropBlank_cons_of_not_blank hc]
      rfl

theorem OpensWith.head?_ne {cs : List Char} {c : Char} {t : Text} (h : OpensWith cs t)
    (hc : c ∉ cs) : (dropBlank t).head? ≠ some c := fun hd => hc (h c hd)

/-! ## Characters that a heading cannot have -/

theorem not_mem_name {d : Char} (hd : isNameChar d = false) (n : Name) : d ∉ n.val := fun hn =>
  Bool.eq_false_iff.mp hd (n.property.2 d hn)

theorem not_mem_blanks {d : Char} (hd : isBlank d = false) (b : Blanks) : d ∉ b.val := fun hb =>
  Bool.eq_false_iff.mp hd (b.property d hb)

theorem not_mem_mark {d c : Char} (hd : d ≠ c) (present : Bool) : d ∉ mark present c := by
  cases present <;> simp [mark, hd]

/-- A character that is no part of the grammar can stand in a default only. -/
theorem Clause.not_mem_writeHeading {d : Char} {c : Clause} (s : Spacing)
    (hname : isNameChar d = false) (hblank : isBlank d = false) (hmarks : d ∉ ['/', ':', '*', '='])
    (hdefault : ∀ t, c.default = some t → d ∉ t.val) : d ∉ c.writeHeading s := by
  obtain ⟨slash, type, name, star, default, modifier⟩ := c
  simp only [List.mem_cons, List.not_mem_nil, or_false, not_or] at hmarks
  obtain ⟨hslash, hcolon, hstar, hsign⟩ := hmarks
  have htype : d ∉ writeType type s.beforeColon s.afterColon := by
    cases type with
    | none => exact List.not_mem_nil
    | some type => simp [writeType, not_mem_name hname, not_mem_blanks hblank, hcolon]
  have hvalue : d ∉ writeDefault default := by
    cases default with
    | none => exact List.not_mem_nil
    | some t => simpa [writeDefault, hsign] using hdefault t rfl
  simp [Clause.writeHeading, not_mem_name hname, not_mem_blanks hblank, not_mem_mark hslash,
    not_mem_mark hstar, htype, hvalue]

/-! ## The reader in two steps -/

variable {e t : Text}

/-- **`Heading`** — what is read in front of the modifier. -/
structure Heading where
  slash : Bool
  type : Option Text
  name : Text
  star : Bool
  default : Option Text

/-- The variable that a heading says. -/
def Heading.variable (h : Heading) : Variable := ⟨h.name, h.type, h.default⟩

/-- The heading of a clause. -/
def Clause.heading (c : Clause) : Heading :=
  ⟨c.slash, c.type.map Subtype.val, c.name.val, c.star, c.default.map fun d => trim d.val⟩

/-- Takes what stands in front of the modifier off the front. -/
def readHeading (e s : Text) : Except TemplateError (Heading × Text) := do
  let (slash, s) := accept '/' (dropBlank s)
  let (type, name, s) ← typedName e s
  let (star, s) := accept '*' (dropBlank s)
  let (default, s) := defaultValue (dropBlank s)
  return (⟨slash, type, name, star, default⟩, s)

/-- The reader takes the heading, then the modifier, and then looks for the end. -/
theorem readBody_eq (e body : Text) :
    readBody e body = (do
      let (h, s) ← readHeading e body
      let (m, s) ← optionalModifier e s
      match dropBlank s with
      | [] => assemble e h.variable h.slash h.star m
      | found :: _ => .error (.invalidVariableName e found)) := by
  rcases hslash : accept '/' (dropBlank body) with ⟨slash, s₁⟩
  simp only [readBody, readHeading, hslash]
  cases typedName e s₁ <;> rfl

theorem readHeading_eq_ok_iff {s : Text} {h : Heading} :
    readHeading e s = .ok (h, t) ↔ ∃ s₁ s₂ s₃, accept '/' (dropBlank s) = (h.slash, s₁) ∧
      typedName e s₁ = .ok (h.type, h.name, s₂) ∧ accept '*' (dropBlank s₂) = (h.star, s₃) ∧
      defaultValue (dropBlank s₃) = (h.default, t) := by
  unfold readHeading
  constructor
  · intro hread
    obtain ⟨⟨type, name, s₂⟩, htyped, hread⟩ := bind_eq_ok_iff.mp hread
    obtain ⟨rfl, rfl⟩ := Prod.mk.inj (Except.ok.inj hread)
    exact ⟨_, s₂, _, rfl, htyped, rfl, rfl⟩
  · rintro ⟨s₁, s₂, s₃, hslash, htyped, hstar, hdefault⟩
    simp only [hslash, htyped, hstar, hdefault, bind, Except.bind, pure, Except.pure]

/-! ## Taking off what was written -/

/-- What a step that looks behind blanks leaves of the text behind its part. -/
def leftBy (taken : Bool) (t : Text) : Text := if taken then t else dropBlank t

theorem dropBlank_leftBy (taken : Bool) (t : Text) : dropBlank (leftBy taken t) = dropBlank t := by
  cases taken with
  | true => rfl
  | false => exact Text.dropBlank_dropBlank t

theorem accept_of_head?_ne {c : Char} (h : t.head? ≠ some c) : accept c t = (false, t) := by
  cases t with
  | nil => rfl
  | cons d t => exact if_neg fun hd => h (by rw [hd]; rfl)

/-- A mark behind blanks is taken if it is there. -/
theorem accept_mark {c : Char} (hc : isBlank c = false) (blanks : Blanks) (present : Bool)
    (h : present = false → (dropBlank t).head? ≠ some c) :
    accept c (dropBlank (blanks.val ++ (mark present c ++ t))) = (present, leftBy present t) := by
  rw [Text.dropBlank_append blanks.property]
  cases present with
  | true =>
    show accept c (dropBlank (c :: t)) = (true, t)
    rw [Text.dropBlank_cons_of_not_blank hc]
    exact if_pos rfl
  | false => exact accept_of_head?_ne (h rfl)

theorem name_write (n : Name) (h : startsWith isNameChar t = false) :
    name e (n.val ++ t) = .ok (n.val, t) := by
  obtain ⟨n, hne, hn⟩ := n
  rw [name, identifier, Text.takeWhile_run hn h, Text.dropWhile_run hn h]
  cases n with
  | nil => exact absurd rfl hne
  | cons c n => rfl

theorem startsWith_name (n : Name) (t : Text) : startsWith isNameChar (n.val ++ t) = true := by
  obtain ⟨n, hne, hn⟩ := n
  cases n with
  | nil => exact absurd rfl hne
  | cons c n => exact hn c List.mem_cons_self

/-- A type or a name starts at once. -/
theorem startsWith_typedName (type : Option Name) (before after : Blanks) (n : Name) (t : Text) :
    startsWith isNameChar (writeType type before after ++ (n.val ++ t)) = true := by
  cases type with
  | none => exact startsWith_name n t
  | some type =>
    rw [writeType, List.append_assoc, List.append_assoc, List.append_assoc]
    exact startsWith_name type _

theorem dropBlank_of_startsWith (h : startsWith isNameChar t = true) : dropBlank t = t := by
  refine Text.dropWhile_eq_self ?_
  cases t with
  | nil => rfl
  | cons c t =>
    rw [startsWith, Bool.eq_false_iff]
    intro hblank
    exact Bool.eq_false_iff.mp (isNameChar_of_isBlank hblank) h

theorem head?_ne_of_startsWith {c : Char} (h : startsWith isNameChar t = true)
    (hc : isNameChar c = false) : t.head? ≠ some c := by
  cases t with
  | nil => simp
  | cons d t =>
    intro hd
    cases hd
    exact Bool.eq_false_iff.mp hc h

/-- The slash in front of a type or a name is taken if it is there. -/
theorem accept_slash (lead : Blanks) (slash : Bool) (h : startsWith isNameChar t = true) :
    accept '/' (dropBlank (lead.val ++ (mark slash '/' ++ t))) = (slash, t) := by
  have haccept := accept_mark (c := '/') rfl lead slash fun _ => by
    rw [dropBlank_of_startsWith h]
    exact head?_ne_of_startsWith h rfl
  rwa [leftBy, dropBlank_of_startsWith h, ite_self] at haccept

/-- Type and name are two names with a colon between them, or one name without a colon behind. -/
theorem typedName_eq_ok_iff {type : Option Text} {n r : Text} :
    typedName e t = .ok (type, n, r) ↔ ∃ first t', name e t = .ok (first, t') ∧
      ((∃ t'', accept ':' (dropBlank t') = (true, t'') ∧ name e (dropBlank t'') = .ok (n, r) ∧
          type = some first) ∨
        accept ':' (dropBlank t') = (false, r) ∧ type = none ∧ n = first) := by
  rw [typedName, bind_eq_ok_iff, Prod.exists]
  refine exists_congr fun first => exists_congr fun t' => and_congr_right fun _ => ?_
  dsimp only
  obtain ⟨present, t''⟩ := accept ':' (dropBlank t')
  cases present with
  | true =>
    dsimp only
    rw [bind_eq_ok_iff]
    simp [pure, Except.pure, eq_comm, and_comm]
  | false => simp [pure, Except.pure, eq_comm, and_comm, and_assoc, and_left_comm]

theorem typedName_write (type : Option Name) (before after : Blanks) (n : Name)
    (h : OpensWith ['*', '=', '|'] t) :
    typedName e (writeType type before after ++ (n.val ++ t)) =
      .ok (type.map Subtype.val, n.val, leftBy type.isSome t) := by
  have hname : startsWith isNameChar t = false := h.not_name rfl
  have hcolon : (dropBlank t).head? ≠ some ':' := h.head?_ne (by decide)
  rw [typedName_eq_ok_iff]
  cases type with
  | none =>
    exact ⟨n.val, t, name_write n hname, .inr ⟨accept_of_head?_ne hcolon, rfl, rfl⟩⟩
  | some type =>
    have hopens : OpensWith [':'] (before.val ++ (mark true ':' ++ (after.val ++ (n.val ++ t)))) :=
      (opensWith_blank_append_iff before.property).mpr (.cons rfl _)
    refine ⟨type.val, before.val ++ (mark true ':' ++ (after.val ++ (n.val ++ t))), ?_,
      .inl ⟨after.val ++ (n.val ++ t), ?_, ?_, rfl⟩⟩
    · rw [writeType, List.append_assoc, List.append_assoc, List.append_assoc]
      exact name_write type (hopens.not_name rfl)
    · rw [Text.dropBlank_append before.property]
      rfl
    · rw [Text.dropBlank_append after.property, dropBlank_of_startsWith (startsWith_name n t)]
      exact name_write n hname

/-- Blanks between the default and the bar or the end are read as part of the default, and trimming
drops them. -/
theorem defaultValue_write (default : Option DefaultText) (h : OpensWith ['|'] t) :
    defaultValue (dropBlank (writeDefault default ++ t)) =
      (default.map fun d => trim d.val, dropBlank t) := by
  cases default with
  | none =>
    have hsign : (dropBlank t).head? ≠ some '=' := h.head?_ne (by decide)
    rw [defaultValue, show writeDefault none ++ t = t from rfl, accept_of_head?_ne hsign]
    rfl
  | some d =>
    obtain ⟨d, hd⟩ := d
    -- the default runs up to the bar or the end, blanks `b` included
    obtain ⟨b, hb, hsplit⟩ := Text.exists_blank_append_dropBlank t
    have hbar : ∀ c ∈ d ++ b, decide (c ≠ '|') = true := by
      intro c hc
      rw [decide_eq_true_eq]
      rintro rfl
      rcases List.mem_append.mp hc with hc | hc
      · exact hd hc
      · exact absurd (hb _ hc) (by decide)
    have hrest : startsWith (fun c => decide (c ≠ '|')) (dropBlank t) = false := by
      cases hr : dropBlank t with
      | nil => rfl
      | cons c r =>
        have hc : c ∈ ['|'] := h c (by rw [hr]; rfl)
        rw [List.mem_singleton.mp hc]
        rfl
    have hrun : d ++ t = (d ++ b) ++ dropBlank t := by rw [List.append_assoc, ← hsplit]
    show (some (trim ((d ++ t).takeWhile (· ≠ '|'))), (d ++ t).dropWhile (· ≠ '|')) = _
    rw [hrun, Text.takeWhile_run hbar hrest, Text.dropWhile_run hbar hrest,
      Text.trim_append_of_blank d hb]
    rfl

theorem modifier_write (afterBar trail : Blanks) (m : Modifier) :
    ∃ r, optionalModifier e (dropBlank (writeModifier afterBar m ++ trail.val)) = .ok (m, r) ∧
      dropBlank r = [] := by
  cases m with
  | plain =>
    refine ⟨[], ?_, rfl⟩
    rw [writeModifier, List.nil_append, dropBlank, List.dropWhile_eq_nil_iff.mpr trail.property]
    rfl
  | encoded =>
    refine ⟨trail.val, ?_, List.dropWhile_eq_nil_iff.mpr trail.property⟩
    have hword : ∀ c ∈ encodeWord, isNameChar c = true := List.all_eq_true.mp rfl
    have htrail : startsWith isNameChar trail.val = false :=
      (OpensWith.of_blank trail.property).not_name rfl
    have hdrop : dropBlank (encodeWord ++ trail.val) = encodeWord ++ trail.val := rfl
    show modifier e (afterBar.val ++ encodeWord ++ trail.val) = _
    rw [modifier, identifier, List.append_assoc, Text.dropBlank_append afterBar.property, hdrop,
      Text.takeWhile_run hword htrail, Text.dropWhile_run hword htrail]
    rfl

/-- **The heading is taken off as it was written**, and what follows is left, if it opens with a bar
or not at all. -/
theorem readHeading_write (c : Clause) (s : Spacing) (h : OpensWith ['|'] t) :
    readHeading e (c.writeHeading s ++ t) = .ok (c.heading, dropBlank t) := by
  -- from the back to the front: what stands behind a part opens with the marks of later parts only
  have hdefault := defaultValue_write c.default h
  set t₂ := writeDefault c.default ++ t with ht₂
  have hopens₂ : OpensWith ['=', '|'] (s.afterStar.val ++ t₂) :=
    (opensWith_blank_append_iff s.afterStar.property).mpr (h.writeDefault c.default)
  have hstar := accept_mark (c := '*') rfl s.afterName c.star fun _ => hopens₂.head?_ne (by decide)
  set t₁ := s.afterName.val ++ (mark c.star '*' ++ (s.afterStar.val ++ t₂)) with ht₁
  have hopens₁ : OpensWith ['*', '=', '|'] t₁ :=
    (opensWith_blank_append_iff s.afterName.property).mpr (hopens₂.mark c.star rfl)
  have htyped := typedName_write (e := e) c.type s.beforeColon s.afterColon c.name hopens₁
  have hname := startsWith_typedName c.type s.beforeColon s.afterColon c.name t₁
  set t₀ := writeType c.type s.beforeColon s.afterColon ++ (c.name.val ++ t₁) with ht₀
  have hwrite : c.writeHeading s ++ t = s.lead.val ++ (mark c.slash '/' ++ t₀) := by
    simp only [Clause.writeHeading, t₀, t₁, t₂, List.append_assoc]
  rw [hwrite, readHeading_eq_ok_iff]
  refine ⟨t₀, leftBy c.type.isSome t₁, leftBy c.star (s.afterStar.val ++ t₂),
    accept_slash s.lead c.slash hname, htyped, ?_, ?_⟩
  · rw [dropBlank_leftBy, hstar]
    rfl
  · rw [dropBlank_leftBy, Text.dropBlank_append s.afterStar.property, hdefault]
    rfl

/-- What a clause has behind its heading opens with the bar of the modifier or not at all. -/
theorem Clause.opensWith_behind_heading (c : Clause) (s : Spacing) :
    OpensWith ['|'] (writeModifier s.afterBar c.modifier ++ s.trail.val) :=
  (OpensWith.of_blank s.trail.property).writeModifier s.afterBar c.modifier

/-- **The reader takes from a written clause what the clause says**, whatever the spacing. -/
theorem readBody_write (c : Clause) (s : Spacing) :
    readBody e (c.write s) = assemble e c.variable c.slash c.star c.modifier := by
  obtain ⟨r, hmodifier, hend⟩ := modifier_write (e := e) s.afterBar s.trail c.modifier
  simp only [readBody_eq, c.write_eq, readHeading_write c s (c.opensWith_behind_heading s), bind,
    Except.bind, hmodifier, hend]
  rfl

/-! ## What was taken was written -/

variable {r : Text}

theorem exists_blanks (t : Text) : ∃ b : Blanks, t = b.val ++ dropBlank t := by
  obtain ⟨b, hb, ht⟩ := Text.exists_blank_append_dropBlank t
  exact ⟨⟨b, hb⟩, ht⟩

theorem eq_mark_of_accept {c : Char} {present : Bool} (h : accept c t = (present, r)) :
    t = mark present c ++ r := by
  cases t with
  | nil =>
    cases h
    rfl
  | cons d t =>
    by_cases hd : d = c
    · rw [accept, if_pos hd] at h
      cases h
      rw [hd]
      rfl
    · rw [accept, if_neg hd] at h
      cases h
      rfl

theorem head?_ne_of_accept {c : Char} (h : accept c t = (false, r)) : r.head? ≠ some c := by
  cases t with
  | nil =>
    cases h
    simp
  | cons d t =>
    by_cases hd : d = c
    · rw [accept, if_pos hd] at h
      cases h
    · rw [accept, if_neg hd] at h
      cases h
      simpa using hd

theorem name_eq_ok_iff {n : Text} :
    name e t = .ok (n, r) ↔ n ≠ [] ∧ t.takeWhile isNameChar = n ∧ t.dropWhile isNameChar = r := by
  rw [name, identifier]
  cases htake : t.takeWhile isNameChar with
  | nil => simp +contextual [eq_comm]
  | cons c n' =>
    constructor
    · rintro ⟨⟩
      exact ⟨by simp, rfl, rfl⟩
    · rintro ⟨-, rfl, rfl⟩
      rfl

theorem exists_name_of_name {n : Text} (h : name e t = .ok (n, r)) :
    ∃ n' : Name, n'.val = n ∧ t = n'.val ++ r := by
  obtain ⟨hne, rfl, rfl⟩ := name_eq_ok_iff.mp h
  exact ⟨⟨_, hne, fun _ hc => List.mem_takeWhile_imp hc⟩, rfl,
    List.takeWhile_append_dropWhile.symm⟩

theorem exists_type_of_typedName {type : Option Text} {n : Text}
    (h : typedName e t = .ok (type, n, r)) :
    ∃ (type' : Option Name) (before after : Blanks) (n' : Name) (b : Blanks),
      type'.map Subtype.val = type ∧ n'.val = n ∧
        t = writeType type' before after ++ (n'.val ++ (b.val ++ r)) := by
  obtain ⟨first, t', hfirst, hcases⟩ := typedName_eq_ok_iff.mp h
  obtain ⟨first, rfl, rfl⟩ := exists_name_of_name hfirst
  obtain ⟨before, hbefore⟩ := exists_blanks t'
  rcases hcases with ⟨t'', hcolon, hsecond, rfl⟩ | ⟨hcolon, rfl, rfl⟩
  · obtain ⟨after, hafter⟩ := exists_blanks t''
    obtain ⟨second, rfl, hname⟩ := exists_name_of_name hsecond
    refine ⟨some first, before, after, second, noBlanks, rfl, rfl, ?_⟩
    rw [eq_mark_of_accept hcolon, hafter, hname] at hbefore
    rw [hbefore]
    simp [writeType, mark, noBlanks]
  · refine ⟨none, noBlanks, noBlanks, first, before, rfl, rfl, ?_⟩
    rw [eq_mark_of_accept hcolon] at hbefore
    exact congrArg (first.val ++ ·) hbefore

theorem exists_default_of_defaultValue {d : Option Text} (h : defaultValue t = (d, r)) :
    ∃ d' : Option DefaultText, (d'.map fun d => trim d.val) = d ∧ t = writeDefault d' ++ r := by
  rw [defaultValue] at h
  cases hsign : accept '=' t with
  | mk present t' =>
    rw [hsign] at h
    cases present with
    | true =>
      have hbar : '|' ∉ t'.takeWhile (· ≠ '|') := fun hc => by
        simpa using List.mem_takeWhile_imp hc
      have hrun : t'.takeWhile (· ≠ '|') ++ t'.dropWhile (· ≠ '|') = t' :=
        List.takeWhile_append_dropWhile
      obtain ⟨rfl, rfl⟩ := Prod.mk.inj h
      exact ⟨some ⟨_, hbar⟩, rfl, (eq_mark_of_accept hsign).trans (congrArg ('=' :: ·) hrun.symm)⟩
    | false =>
      obtain ⟨rfl, rfl⟩ := Prod.mk.inj h
      exact ⟨none, rfl, eq_mark_of_accept hsign⟩

theorem exists_blanks_of_optionalModifier {m : Modifier} (h : optionalModifier e t = .ok (m, r)) :
    ∃ afterBar : Blanks, t = writeModifier afterBar m ++ r := by
  rw [optionalModifier] at h
  cases hbar : accept '|' t with
  | mk present t' =>
    have ht := eq_mark_of_accept hbar
    rw [hbar] at h
    cases present with
    | true =>
      obtain ⟨afterBar, hafterBar⟩ := exists_blanks t'
      have hrun : (dropBlank t').takeWhile isNameChar ++ (dropBlank t').dropWhile isNameChar =
        dropBlank t' := List.takeWhile_append_dropWhile
      by_cases hword : (dropBlank t').takeWhile isNameChar = encodeWord
      · have h : Except.ok (Modifier.encoded, (dropBlank t').dropWhile isNameChar) = .ok (m, r) :=
          (if_pos hword).symm.trans h
        obtain ⟨rfl, hrest⟩ := Prod.mk.inj (Except.ok.inj h)
        rw [hword, hrest] at hrun
        refine ⟨afterBar, ?_⟩
        rw [ht, hafterBar, ← hrun]
        simp [mark, writeModifier]
      · cases (if_neg hword).symm.trans h
    | false =>
      cases h
      exact ⟨noBlanks, ht⟩

/-- **What is taken as a heading was written** in front of what is left. -/
theorem exists_write_of_readHeading {s : Text} {h : Heading} (hread : readHeading e s = .ok (h, t)) :
    ∃ (c : Clause) (sp : Spacing), c.heading = h ∧ s = c.writeHeading sp ++ t := by
  obtain ⟨s₁, s₂, s₃, hslash, htyped, hstar, hdefault⟩ := readHeading_eq_ok_iff.mp hread
  obtain ⟨slash, htype, hname, star, default⟩ := h
  obtain ⟨lead, hlead⟩ := exists_blanks s
  obtain ⟨type, before, after, n, b, rfl, rfl, hs₁⟩ := exists_type_of_typedName htyped
  obtain ⟨b', hs₂⟩ := exists_blanks s₂
  obtain ⟨afterStar, hs₃⟩ := exists_blanks s₃
  obtain ⟨d, rfl, hd⟩ := exists_default_of_defaultValue hdefault
  -- blanks behind a name come in two runs when a colon was looked for between them
  have hblanks : ∀ c ∈ b.val ++ b'.val, isBlank c = true := fun c hc =>
    (List.mem_append.mp hc).elim (b.property c) (b'.property c)
  refine ⟨⟨slash, type, n, star, d, .plain⟩, ⟨lead, before, after, ⟨_, hblanks⟩, afterStar, lead,
    lead⟩, rfl, ?_⟩
  rw [hlead, eq_mark_of_accept hslash, hs₁, hs₂, eq_mark_of_accept hstar, hs₃, hd]
  simp only [Clause.writeHeading, List.append_assoc]

/-- With the modifier taken off as well, blanks and what follows them are left. -/
theorem exists_write_of_optionalModifier {body s₁ s₂ : Text} {h : Heading} {m : Modifier}
    (hheading : readHeading e body = .ok (h, s₁))
    (hmodifier : optionalModifier e s₁ = .ok (m, s₂)) :
    ∃ (c : Clause) (s : Spacing), c.heading = h ∧ c.modifier = m ∧
      body = c.write s ++ dropBlank s₂ := by
  obtain ⟨c, s, rfl, rfl⟩ := exists_write_of_readHeading hheading
  obtain ⟨afterBar, rfl⟩ := exists_blanks_of_optionalModifier hmodifier
  obtain ⟨trail, htrail⟩ := exists_blanks s₂
  refine ⟨{ c with modifier := m }, { s with afterBar := afterBar, trail := trail }, rfl, rfl, ?_⟩
  rw [Clause.write_eq, List.append_assoc, List.append_assoc, ← htrail]
  rfl

/-- **What the reader accepts was written**: the text is that of a clause the token stands for. -/
theorem exists_write_of_readBody {body : Text} {token : Token} (h : readBody e body = .ok token) :
    ∃ (c : Clause) (s : Spacing), c.write s = body ∧
      assemble e c.variable c.slash c.star c.modifier = .ok token := by
  rw [readBody_eq] at h
  obtain ⟨⟨heading, s₁⟩, hheading, hbody⟩ := bind_eq_ok_iff.mp h
  obtain ⟨⟨m, s₂⟩, hmodifier, hrest⟩ := bind_eq_ok_iff.mp hbody
  obtain ⟨c, s, rfl, rfl, rfl⟩ := exists_write_of_optionalModifier hheading hmodifier
  dsimp only at hrest
  cases hend : dropBlank s₂ with
  | cons found rest => simp [hend] at hrest
  | nil =>
    rw [hend] at hrest
    exact ⟨c, s, (List.append_nil _).symm, hrest⟩

/-- **An expression is read exactly when it is written for a supported clause**, and then as the
token of that clause. -/
theorem readBody_eq_ok_iff {body : Text} {token : Token} :
    readBody e body = .ok token ↔
      ∃ c : Clause, c.IsSupported ∧ (∃ s : Spacing, body = c.write s) ∧ c.token = token := by
  constructor
  · intro h
    obtain ⟨c, s, rfl, hassemble⟩ := exists_write_of_readBody h
    obtain ⟨hsupported, htoken⟩ := assemble_eq_ok_iff.mp hassemble
    exact ⟨c, hsupported, ⟨s, rfl⟩, htoken⟩
  · rintro ⟨c, hsupported, ⟨s, rfl⟩, htoken⟩
    rw [readBody_write]
    exact assemble_eq_ok_iff.mpr ⟨hsupported, htoken⟩

/-! ## Whole expressions -/

theorem body?_eq_some_iff {body : Text} : body? e = some body ↔ e = '{' :: (body ++ ['}']) := by
  constructor
  · intro h
    rw [body?.eq_def] at h
    split at h
    · rw [Text.stripLast_eq_some_iff.mp h]
    · cases h
  · rintro rfl
    exact Text.stripLast_eq_some_iff.mpr rfl

/-- **`expression c s`** — the whole expression that says `c`, spaced by `s`. -/
def Clause.expression (c : Clause) (s : Spacing) : Text := '{' :: (c.write s ++ ['}'])

theorem read_eq_ok_iff {token : Token} :
    read e = .ok token ↔
      e = ['*'] ∧ token = .wildcard Variable.trailing .remainder ∨
        ∃ body, e = '{' :: (body ++ ['}']) ∧ readBody e body = .ok token := by
  by_cases hstar : e = ['*']
  · subst hstar
    simp [read, eq_comm (a := token)]
  · have hbody : ∀ body, e = '{' :: (body ++ ['}']) ↔ body? e = some body :=
      fun _ => body?_eq_some_iff.symm
    rw [read, if_neg hstar]
    cases h : body? e <;> simp [hstar, hbody, h]

/-- An expression in braces is read as what stands between them. -/
theorem read_braces (body : Text) :
    read ('{' :: (body ++ ['}'])) = readBody ('{' :: (body ++ ['}'])) body := by
  rw [read, if_neg (by simp), body?_eq_some_iff.mpr rfl]

theorem read_expression (c : Clause) (s : Spacing) {token : Token} :
    read (c.expression s) = .ok token ↔ c.IsSupported ∧ c.token = token := by
  rw [Clause.expression, read_braces, readBody_write]
  exact assemble_eq_ok_iff

/-- An accepted expression stands for a token that carries a variable with a name. -/
theorem exists_var_of_read {token : Token} (h : read e = .ok token) :
    ∃ v, token.var? = some v ∧ v.name ≠ [] := by
  rcases read_eq_ok_iff.mp h with ⟨-, rfl⟩ | ⟨body, -, hbody⟩
  · exact ⟨Variable.trailing, rfl, by decide⟩
  · obtain ⟨c, -, -, rfl⟩ := readBody_eq_ok_iff.mp hbody
    have hvar : c.token.var? = some c.variable := by
      rw [Clause.token]
      cases c.star <;> rfl
    exact ⟨c.variable, hvar, c.name.property.1⟩

/-- **The expressions of the standard syntax**: the bare star, and a written supported clause in
braces, which stands for the token of the clause.  Where the grammar allows blanks their number and
kind make no difference. -/
theorem read_eq_ok_iff_expression :
    (∀ (e : Text) (token : Token), read e = .ok token ↔
      e = ['*'] ∧ token = .wildcard ⟨Variable.wildcardName, none, none⟩ .remainder ∨
        ∃ c : Clause, c.IsSupported ∧ (∃ s : Spacing, e = c.expression s) ∧ token = c.token) ∧
    ∀ (c : Clause) (s s' : Spacing) (token : Token),
      read (c.expression s) = .ok token ↔ read (c.expression s') = .ok token := by
  refine ⟨fun e token => ?_, fun c s s' token => ?_⟩
  · rw [read_eq_ok_iff]
    refine or_congr Iff.rfl ⟨?_, ?_⟩
    · rintro ⟨body, rfl, hbody⟩
      obtain ⟨c, hsupported, ⟨s, rfl⟩, htoken⟩ := readBody_eq_ok_iff.mp hbody
      exact ⟨c, hsupported, ⟨s, rfl⟩, htoken.symm⟩
    · rintro ⟨c, hsupported, ⟨s, rfl⟩, rfl⟩
      exact ⟨c.write s, rfl, readBody_eq_ok_iff.mpr ⟨c, hsupported, ⟨s, rfl⟩, rfl⟩⟩
  · rw [read_expression, read_expression]

/-- Between the slash and the name no blank may stand. -/
example : read (Text.ofString "\x7b/ path*\x7d") =
    .error (.emptyVariableName (Text.ofString "\x7b/ path*\x7d")) := by decide

end UriRouting.Expression
