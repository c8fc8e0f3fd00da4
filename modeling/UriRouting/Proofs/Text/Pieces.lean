/-
# UriRouting.Proofs.Text.Pieces — texts that were put together with separators

A text is cut at a separator into the parts that it was joined from, if none of them holds the
separator (`pieces_joinWith`), and joining the parts of any text gives it back (`joinWith_pieces`).
At its first separator it is cut into what was written in front of it and behind it
(`cutAt_append_cons`).  A text without blanks at its ends is not changed when it is trimmed
(`trim_eq_self`).
-/
import UriRouting.Proofs.Text.Runs

namespace UriRouting.Text

variable {sep : Char}

theorem pieces_eq_splitOn (sep : Char) (t : Text) : pieces sep t = t.splitOn sep := by
  induction t with
  | nil => rfl
  | cons c t ih =>
    have hcons : (c :: t).splitOn sep = if c == sep then [] :: t.splitOn sep
        else (t.splitOn sep).modifyHead (c :: ·) := List.splitOnP_cons_eq_if_modifyHead c t
    have hne : t.splitOn sep ≠ [] := List.splitOnP_ne_nil (· == sep) t
    rw [pieces, ih, hcons]
    by_cases hc : c = sep
    · simp [hc]
    · obtain ⟨p, ps, hsplit⟩ := List.exists_cons_of_ne_nil hne
      simp [hc, hsplit]

theorem joinWith_eq_intercalate (sep : Text) (parts : List Text) :
    joinWith sep parts = sep.intercalate parts := by
  fun_induction joinWith sep parts with
  | case1 => rfl
  | case2 p => simp
  | case3 p q ps ih => rw [List.intercalate_cons_cons, ih]

theorem pieces_ne_nil (sep : Char) (t : Text) : pieces sep t ≠ [] := by
  rw [pieces_eq_splitOn]
  exact List.splitOnP_ne_nil (· == sep) t

/-- A separator cuts a text into the pieces before it and the pieces behind it. -/
theorem pieces_append_cons (sep : Char) (a b : Text) :
    pieces sep (a ++ sep :: b) = pieces sep a ++ pieces sep b := by
  induction a with
  | nil =>
    show pieces sep (sep :: b) = [] :: pieces sep b
    rw [pieces, if_pos rfl]
  | cons c a ih =>
    rw [List.cons_append, pieces, pieces, ih]
    by_cases hc : c = sep
    · simp [hc]
    · obtain ⟨p, ps, hp⟩ := List.exists_cons_of_ne_nil (pieces_ne_nil sep a)
      simp [hc, hp]

/-- **A text is cut into the parts that it was joined from.** -/
theorem pieces_joinWith {parts : List Text} (hparts : ∀ p ∈ parts, sep ∉ p) (hne : parts ≠ []) :
    pieces sep (joinWith [sep] parts) = parts := by
  rw [pieces_eq_splitOn, joinWith_eq_intercalate]
  exact List.splitOn_intercalate sep hparts hne

/-- The pieces of a text make it up again. -/
theorem joinWith_pieces (sep : Char) (t : Text) : joinWith [sep] (pieces sep t) = t := by
  rw [pieces_eq_splitOn, joinWith_eq_intercalate]
  exact List.intercalate_splitOn sep

/-- The pieces of a text are made of its other characters. -/
theorem mem_of_mem_pieces {t p : Text} {c : Char} (hp : p ∈ pieces sep t) (hc : c ∈ p) :
    c ∈ t ∧ c ≠ sep := by
  induction t generalizing p with
  | nil =>
    obtain rfl := List.mem_singleton.mp hp
    exact absurd hc List.not_mem_nil
  | cons d t ih =>
    rw [pieces] at hp
    split at hp
    · rcases List.mem_cons.mp hp with rfl | hrest
      · exact absurd hc List.not_mem_nil
      · exact (ih hrest hc).imp_left (List.mem_cons_of_mem d)
    · next hd =>
      obtain ⟨q, qs, hsplit⟩ := List.exists_cons_of_ne_nil (pieces_ne_nil sep t)
      rw [hsplit] at hp ih
      rcases List.mem_cons.mp hp with rfl | hrest
      · rcases List.mem_cons.mp hc with rfl | hq
        · exact ⟨List.mem_cons_self, hd⟩
        · exact (ih List.mem_cons_self hq).imp_left (List.mem_cons_of_mem d)
      · exact (ih (List.mem_cons_of_mem q hrest) hc).imp_left (List.mem_cons_of_mem d)

theorem mem_joinWith {sep : Text} {parts : List Text} {c : Char} (h : c ∈ joinWith sep parts) :
    c ∈ sep ∨ ∃ p ∈ parts, c ∈ p := by
  fun_induction joinWith sep parts with
  | case1 => exact absurd h List.not_mem_nil
  | case2 p => exact .inr ⟨p, List.mem_cons_self, h⟩
  | case3 p q ps ih =>
    rw [List.mem_append, List.mem_append] at h
    rcases h with (hp | hsep) | hrest
    · exact .inr ⟨p, List.mem_cons_self, hp⟩
    · exact .inl hsep
    · refine (ih hrest).imp_right fun hpart => ?_
      obtain ⟨part, hpart, hc⟩ := hpart
      exact ⟨part, List.mem_cons_of_mem p hpart, hc⟩

/-- A text is cut at the separator that stands first. -/
theorem cutAt_append_cons {a : Text} (ha : sep ∉ a) (b : Text) :
    cutAt sep (a ++ sep :: b) = some (a, b) := by
  induction a with
  | nil => exact if_pos rfl
  | cons c a ih =>
    simp only [List.mem_cons, not_or] at ha
    rw [List.cons_append, cutAt, if_neg (Ne.symm ha.1), ih ha.2]
    rfl

theorem cutAt_eq_none {t : Text} (h : sep ∉ t) : cutAt sep t = none := by
  induction t with
  | nil => rfl
  | cons c t ih =>
    simp only [List.mem_cons, not_or] at h
    rw [cutAt, if_neg (Ne.symm h.1), ih h.2]
    rfl

theorem cutAtLast_eq_none {t : Text} (h : sep ∉ t) : cutAtLast sep t = none := by
  rw [cutAtLast, cutAt_eq_none (by simpa using h)]
  rfl

/-- What stands in front of the first separator, and behind it, is determined. -/
theorem append_cons_inj {a b s t : Text} (ha : sep ∉ a) (hb : sep ∉ b)
    (h : a ++ sep :: s = b ++ sep :: t) : a = b ∧ s = t := by
  have hcut := cutAt_append_cons ha s
  rw [h, cutAt_append_cons hb t] at hcut
  obtain ⟨hfront, hback⟩ := Prod.mk.inj (Option.some.inj hcut)
  exact ⟨hfront.symm, hback.symm⟩

/-- What stands in front of the last separator, and behind it, is determined. -/
theorem append_cons_inj_last {a b s t : Text} (hs : sep ∉ s) (ht : sep ∉ t)
    (h : a ++ sep :: s = b ++ sep :: t) : a = b ∧ s = t := by
  have hreverse : s.reverse ++ sep :: a.reverse = t.reverse ++ sep :: b.reverse := by
    simpa using congrArg List.reverse h
  obtain ⟨hback, hfront⟩ := append_cons_inj (by simpa using hs) (by simpa using ht) hreverse
  exact ⟨List.reverse_inj.mp hfront, List.reverse_inj.mp hback⟩

/-- A text without blanks at its ends is not changed. -/
theorem trim_eq_self {t : Text} (hfirst : startsWith isBlank t = false)
    (hlast : startsWith isBlank t.reverse = false) : trim t = t := by
  rw [trim, trimWith, dropWhile_eq_self hfirst, dropWhile_eq_self hlast, List.reverse_reverse]

/-- Every character takes a byte at least. -/
theorem length_le_width (t : Text) : t.length ≤ width t := by
  induction t with
  | nil => exact Nat.le_refl 0
  | cons c t ih =>
    have hsize := c.utf8Size_pos
    rw [List.length_cons, width_cons]
    omega

end UriRouting.Text
