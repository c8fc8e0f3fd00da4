/-
# UriRouting.Proofs.Text.Runs — taking a run of characters off a text

Readers take the longest run of characters of a class off the front of a text.  What they take, and
what they leave, is determined: a run of the class, followed by a text that does not start with a
character of the class (`takeWhile_run`, `dropWhile_run`, `span_run`).  A last character is taken off
likewise (`stripLast_eq_some_iff`).  Blanks behind a text are trimmed with it
(`trim_append_of_blank`), and what is trimmed stays as it is (`trim_trim`).

Letters and digits lie in one stretch of ASCII without blanks (`toNat_of_isAlphanum`); what is to be
shown of ASCII characters can be looked up for each of them (`forall_of_ascii`).
-/
import UriRouting.Text.Basic
import Mathlib.Data.List.TakeDrop
import Mathlib.Data.List.TakeWhile

namespace UriRouting.Text

/-- What holds at every place of a list where `d` stands, split up at the first entry. -/
theorem forall_split_cons_iff {α : Type} {c d : α} {l : List α} {P : List α → List α → Prop} :
    (∀ front back, c :: l = front ++ d :: back → P front back) ↔
      (c = d → P [] l) ∧ ∀ front back, l = front ++ d :: back → P (c :: front) back := by
  constructor
  · intro h
    exact ⟨fun hc => h [] l (by rw [hc]; rfl),
      fun front back heq => h (c :: front) back (by rw [heq]; rfl)⟩
  · rintro ⟨hfirst, hrest⟩ front back heq
    cases front with
    | nil =>
      obtain ⟨hc, rfl⟩ := List.cons.inj heq
      exact hfirst hc
    | cons first front =>
      obtain ⟨rfl, hl⟩ := List.cons.inj heq
      exact hrest front back hl

variable {p : Char → Bool} {a r s : Text}

/-- **`startsWith p t`** — the first character of the text, if there is one, is of class `p`. -/
def startsWith (p : Char → Bool) : Text → Bool
  | [] => false
  | c :: _ => p c

theorem dropWhile_eq_self (hr : startsWith p r = false) : r.dropWhile p = r := by
  cases r with
  | nil => rfl
  | cons c r => exact List.dropWhile_cons_of_neg (Bool.eq_false_iff.mp hr)

theorem takeWhile_eq_nil (hr : startsWith p r = false) : r.takeWhile p = [] := by
  cases r with
  | nil => rfl
  | cons c r => exact List.takeWhile_cons_of_neg (Bool.eq_false_iff.mp hr)

theorem takeWhile_run (ha : ∀ c ∈ a, p c = true) (hr : startsWith p r = false) :
    (a ++ r).takeWhile p = a := by
  rw [List.takeWhile_append_of_pos ha, takeWhile_eq_nil hr, List.append_nil]

theorem dropWhile_run (ha : ∀ c ∈ a, p c = true) (hr : startsWith p r = false) :
    (a ++ r).dropWhile p = r := by
  rw [List.dropWhile_append_of_pos ha, dropWhile_eq_self hr]

/-- A reader takes a run off and goes on with the rest. -/
theorem span_run (ha : ∀ c ∈ a, p c = true) (hr : startsWith p r = false) :
    (a ++ r).span p = (a, r) := by
  rw [List.span_eq_takeWhile_dropWhile, takeWhile_run ha hr, dropWhile_run ha hr]

/-- A run of a class, and what follows it, is determined. -/
theorem append_inj_of_run {b t : Text} (ha : ∀ c ∈ a, p c = true) (hb : ∀ c ∈ b, p c = true)
    (hr : startsWith p r = false) (ht : startsWith p t = false) (h : a ++ r = b ++ t) :
    a = b ∧ r = t := by
  have hrun := takeWhile_run ha hr
  have hrest := dropWhile_run ha hr
  rw [h, takeWhile_run hb ht] at hrun
  rw [h, dropWhile_run hb ht] at hrest
  exact ⟨hrun.symm, hrest.symm⟩

/-- What is left does not start with a character of the class. -/
theorem startsWith_dropWhile (s : Text) : startsWith p (s.dropWhile p) = false := by
  induction s with
  | nil => rfl
  | cons c s ih =>
    by_cases hc : p c = true
    · rw [List.dropWhile_cons_of_pos hc]
      exact ih
    · rw [List.dropWhile_cons_of_neg hc]
      exact Bool.eq_false_iff.mpr hc

theorem stripLast_eq_some_iff {last : Char} {t : Text} :
    stripLast last t = some r ↔ t = r ++ [last] := by
  fun_induction stripLast last t generalizing r with
  | case1 => simp
  | case2 => simp [eq_comm]
  | case3 c hc => cases r <;> simp [hc]
  | case4 c d t ih =>
    simp only [Option.map_eq_some_iff, ih]
    cases r with
    | nil => simp
    | cons b r =>
      constructor
      · rintro ⟨front, hfront, hcons⟩
        obtain ⟨rfl, rfl⟩ := List.cons.inj hcons
        rw [hfront, List.cons_append]
      · intro h
        obtain ⟨rfl, hfront⟩ := List.cons.inj h
        exact ⟨r, hfront, rfl⟩

/-- The last character of a text is that of any text in front of it, if it has one. -/
theorem stripLast_append {last : Char} (hs : s ≠ []) :
    stripLast last (a ++ s) = (stripLast last s).map (a ++ ·) := by
  induction a with
  | nil => simp
  | cons c a ih =>
    obtain ⟨d, r, htail⟩ := List.exists_cons_of_ne_nil (List.append_ne_nil_of_right_ne_nil a hs)
    rw [List.cons_append, htail, stripLast, ← htail, ih, Option.map_map]
    rfl

/-! ## Letters, digits and blanks -/

/-- What holds of the first 128 characters, one by one, holds of every ASCII character. -/
theorem forall_of_ascii {P : Char → Prop} (h : ∀ n, n < 0x80 → P (Char.ofNat n)) {c : Char}
    (hc : c.toNat < 0x80) : P c := by
  have hn := h c.toNat hc
  rwa [Char.ofNat_toNat] at hn

/-- Outside ASCII nothing has a lower case. -/
theorem toLower_of_not_ascii {c : Char} (h : ¬ c.toNat < 0x80) : c.toLower = c := by
  have hupper : ¬ ('A'.val ≤ c.val ∧ c.val ≤ 'Z'.val) := by
    simp only [UInt32.le_iff_toNat_le]
    have hc : c.toNat = c.val.toNat := rfl
    have hz : 'Z'.val.toNat = 0x5A := rfl
    omega
  exact dif_neg hupper

theorem toLower_toLower (c : Char) : c.toLower.toLower = c.toLower := by
  by_cases h : c.toNat < 0x80
  · exact forall_of_ascii (P := fun c => c.toLower.toLower = c.toLower) (by decide) h
  · rw [toLower_of_not_ascii h, toLower_of_not_ascii h]

theorem lower_eq_self {t : Text} (h : ∀ c ∈ t, c.toLower = c) : lower t = t := by
  rw [lower, List.map_congr_left h, List.map_id']

theorem toNat_of_isAlphanum {c : Char} (h : c.isAlphanum = true) :
    0x30 ≤ c.toNat ∧ c.toNat ≤ 0x7A := by
  have hranges : ((decide ('A'.val ≤ c.val ∧ c.val ≤ 'Z'.val) ||
      (decide ('a'.val ≤ c.val) && decide (c.val ≤ 'z'.val))) || c.isDigit) = true := h
  simp only [Bool.or_eq_true, Bool.and_eq_true, decide_eq_true_iff, UInt32.le_iff_toNat_le,
    Char.isDigit_iff_toNat] at hranges
  rcases hranges with (hupper | hlower) | hdigit
  · change 65 ≤ c.toNat ∧ c.toNat ≤ 90 at hupper
    omega
  · change 97 ≤ c.toNat ∧ c.toNat ≤ 122 at hlower
    omega
  · change 48 ≤ c.toNat ∧ c.toNat ≤ 57 at hdigit
    omega

theorem isAlphanum_of_isDigit {c : Char} (h : c.isDigit = true) : c.isAlphanum = true :=
  Bool.or_eq_true_iff.mpr (.inr h)

theorem toLower_of_isDigit {c : Char} (h : c.isDigit = true) : c.toLower = c := by
  have hrange := toNat_of_isAlphanum (isAlphanum_of_isDigit h)
  exact forall_of_ascii (P := fun c => c.isDigit = true → c.toLower = c) (by decide) (by omega) h

/-- A letter or digit is no mark. -/
theorem not_mem_of_isAlphanum {c : Char} {marks : List Char}
    (hmarks : marks.any Char.isAlphanum = false) (h : c.isAlphanum = true) : c ∉ marks := by
  intro hmem
  have hany : marks.any Char.isAlphanum = true := List.any_eq_true.mpr ⟨c, hmem, h⟩
  rw [hmarks] at hany
  cases hany

theorem exists_blank_append_dropBlank (s : Text) :
    ∃ b, (∀ c ∈ b, isBlank c = true) ∧ s = b ++ dropBlank s :=
  ⟨s.takeWhile isBlank, fun _ hc => List.mem_takeWhile_imp hc,
    List.takeWhile_append_dropWhile.symm⟩

theorem dropBlank_append (ha : ∀ c ∈ a, isBlank c = true) (r : Text) :
    dropBlank (a ++ r) = dropBlank r := List.dropWhile_append_of_pos ha

theorem dropBlank_cons_of_not_blank {c : Char} (hc : isBlank c = false) (s : Text) :
    dropBlank (c :: s) = c :: s := List.dropWhile_cons_of_neg (Bool.eq_false_iff.mp hc)

theorem dropBlank_eq_self (hr : startsWith isBlank r = false) : dropBlank r = r :=
  dropWhile_eq_self hr

theorem dropBlank_dropBlank (s : Text) : dropBlank (dropBlank s) = dropBlank s :=
  dropWhile_eq_self (startsWith_dropWhile s)

/-- Blanks behind a text are trimmed with it. -/
theorem trim_append_of_blank (s : Text) (ha : ∀ c ∈ a, isBlank c = true) :
    trim (s ++ a) = trim s := by
  have hdrop : (s ++ a).dropWhile isBlank = if (s.dropWhile isBlank).isEmpty then []
      else s.dropWhile isBlank ++ a := by
    rw [List.dropWhile_append, List.dropWhile_eq_nil_iff.mpr ha]
  have hback : ∀ c ∈ a.reverse, isBlank c = true := fun c hc => ha c (List.mem_reverse.mp hc)
  rw [trim, trim, trimWith, trimWith, hdrop]
  cases h : s.dropWhile isBlank with
  | nil => rfl
  | cons c r =>
    rw [if_neg (by simp), List.reverse_append, List.dropWhile_append_of_pos hback]

/-- Trimming keeps a first character that is not of the class. -/
theorem trimWith_cons_of_neg {c : Char} (hc : p c = false) (s : Text) :
    trimWith p (c :: s) = c :: (s.reverse.dropWhile p).reverse := by
  have hback : (s.reverse ++ [c]).dropWhile p = s.reverse.dropWhile p ++ [c] := by
    rw [List.dropWhile_append]
    cases s.reverse.dropWhile p with
    | nil => simp [hc]
    | cons d r => rfl
  unfold trimWith
  rw [List.dropWhile_cons_of_neg (by simp [hc]), List.reverse_cons, hback, List.reverse_concat]

/-- Dropping the last run of a class leaves the first character, if any is left. -/
theorem startsWith_dropLastRun (h : startsWith p s = false) :
    startsWith p (s.reverse.dropWhile p).reverse = false := by
  obtain ⟨run, hrun⟩ := List.dropWhile_suffix p (l := s.reverse)
  -- what is left is the front of the text, so its first character is that of the text
  have hfront : s = (s.reverse.dropWhile p).reverse ++ run.reverse := by
    rw [← List.reverse_append, hrun, List.reverse_reverse]
  generalize (s.reverse.dropWhile p).reverse = front at hfront
  cases front with
  | nil => rfl
  | cons c front =>
    rw [hfront] at h
    exact h

/-- Trimming twice is trimming once. -/
theorem trim_trim (s : Text) : trim (trim s) = trim s := by
  have hfront : (trim s).dropWhile isBlank = trim s :=
    dropWhile_eq_self (startsWith_dropLastRun (startsWith_dropWhile s))
  have hback : (trim s).reverse.dropWhile isBlank = (trim s).reverse := by
    show ((s.dropWhile isBlank).reverse.dropWhile isBlank).reverse.reverse.dropWhile isBlank = _
    rw [List.reverse_reverse, dropWhile_eq_self (startsWith_dropWhile _)]
    exact (List.reverse_reverse _).symm
  show (((trim s).dropWhile isBlank).reverse.dropWhile isBlank).reverse = trim s
  rw [hfront, hback, List.reverse_reverse]

/-- Trimming adds no character. -/
theorem mem_of_mem_trim {c : Char} (h : c ∈ trim s) : c ∈ s := by
  have hback := (List.dropWhile_sublist isBlank).mem (List.mem_reverse.mp h)
  exact (List.dropWhile_sublist isBlank).mem (List.mem_reverse.mp hback)

end UriRouting.Text
