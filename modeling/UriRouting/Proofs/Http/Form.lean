/-
# UriRouting.Proofs.Http.Form — form-encoded pairs are read back

A form-encoded text consists of plain characters, of `+` for its blanks and of escapes.  Reading puts
the blanks back first; a plus sign of the text itself was escaped, so nothing else changes
(`map_encode`).  What is left is percent-coded, and its bytes are UTF-8 (`decode_encode`).

None of these characters separates names from values or pairs from pairs.  So a query is cut where
its pairs were joined, and each pair where it was written with `=`, whatever names and values hold
(`read_render`).
-/
import UriRouting.Http.Target
import UriRouting.Proofs.Percent
import UriRouting.Proofs.Text.Pieces

namespace UriRouting.Http.Form

/-! ## Names and values -/

/-- The characters that are written as themselves once `+` is a blank again. -/
def isKept (c : Char) : Bool := c == ' ' || isPlain c

theorem ascii_of_isKept {c : Char} (h : isKept c = true) : c.toNat < 0x80 ∧ c.toNat ≠ 0x25 := by
  simp only [isKept, isPlain, Bool.or_eq_true, beq_iff_eq] at h
  rcases h with rfl | (((halnum | rfl) | rfl) | rfl) | rfl
  · decide
  · have := Text.toNat_of_isAlphanum halnum
    omega
  all_goals decide

theorem encode_cons (c : Char) (t : Text) :
    encode (c :: t) =
      (if c = ' ' then ['+']
        else if isPlain c then [c] else (Text.Utf8.encodeChar c).flatMap Percent.escape) ++
      encode t := rfl

/-- What stands in an encoded name or value: letters, digits, the plain marks, and the marks of blanks
and escapes. -/
theorem mem_encode {c : Char} {t : Text} (h : c ∈ encode t) :
    c.isAlphanum = true ∨ c ∈ ['+', '%', '*', '-', '.', '_'] := by
  obtain ⟨d, -, hmem⟩ := List.mem_flatMap.mp h
  by_cases hblank : d = ' '
  · rw [if_pos hblank] at hmem
    rw [List.mem_singleton.mp hmem]
    exact .inr List.mem_cons_self
  · rw [if_neg hblank] at hmem
    by_cases hplain : isPlain d = true
    · rw [if_pos hplain] at hmem
      rw [List.mem_singleton.mp hmem]
      simp only [isPlain, Bool.or_eq_true, beq_iff_eq, or_assoc] at hplain
      exact hplain.imp_right fun hmark => by simpa using .inr (.inr hmark)
    · rw [if_neg hplain] at hmem
      rcases Percent.mem_escapes hmem with rfl | halnum
      · exact .inr (by decide)
      · exact .inl halnum

theorem equals_not_mem_encode (t : Text) : '=' ∉ encode t := by
  intro hmem
  exact absurd (mem_encode hmem) (by decide)

theorem ampersand_not_mem_encode (t : Text) : '&' ∉ encode t := by
  intro hmem
  exact absurd (mem_encode hmem) (by decide)

/-- **Blanks are put back**, and no plus sign is taken for one: what is left is percent-coded. -/
theorem map_encode (t : Text) :
    (encode t).map (fun c => if c = '+' then ' ' else c) = Percent.encodeUnless isKept t := by
  induction t with
  | nil => rfl
  | cons d t ih =>
    rw [encode_cons, List.map_append, ih, Percent.encodeUnless_cons]
    congr 1
    by_cases hblank : d = ' '
    · simp [hblank, isKept]
    · by_cases hplain : isPlain d = true
      · have hplus : d ≠ '+' := by
          rintro rfl
          exact absurd hplain (by decide)
        simp [hblank, hplain, hplus, isKept]
      · have hkept : ¬ isKept d = true := by simp [isKept, hblank, hplain]
        rw [if_neg hblank, if_neg hplain, if_neg hkept]
        refine (List.map_congr_left fun c hc => if_neg ?_).trans (List.map_id _)
        rintro rfl
        exact absurd (Percent.mem_escapes hc) (by decide)

/-- **A name or value is read back**, whatever its characters are. -/
theorem decode_encode (t : Text) : decode (encode t) = t := by
  unfold decode
  apply Text.Utf8.decodeLossy_of_decode
  rw [map_encode, Percent.decodeBytes_encodeUnless fun _ => ascii_of_isKept]
  exact Text.Utf8.decode_encode t

/-- Plain characters are written as they are. -/
theorem encode_eq_self {t : Text} (h : ∀ c ∈ t, isPlain c = true) : encode t = t := by
  induction t with
  | nil => rfl
  | cons c t ih =>
    have hplain := h c List.mem_cons_self
    have hblank : c ≠ ' ' := by
      rintro rfl
      exact absurd hplain (by decide)
    rw [encode_cons, if_neg hblank, if_pos hplain, ih fun d hd => h d (List.mem_cons_of_mem _ hd)]
    rfl

/-! ## Pairs -/

/-- A pair in form encoding. -/
def renderPair (p : Text × Text) : Text := encode p.1 ++ ['='] ++ encode p.2

theorem render_eq (pairs : List (Text × Text)) :
    render pairs = Text.joinWith ['&'] (pairs.map renderPair) := rfl

theorem ampersand_not_mem_renderPair (p : Text × Text) : '&' ∉ renderPair p := by
  simp [renderPair, ampersand_not_mem_encode]

/-- What stands in a query string: encoded names and values, and what separates them. -/
theorem mem_render {c : Char} {pairs : List (Text × Text)} (h : c ∈ render pairs) :
    c ∈ ['&', '='] ∨ ∃ t, c ∈ encode t := by
  rw [render_eq] at h
  rcases Text.mem_joinWith h with hsep | ⟨part, hpart, hc⟩
  · rw [List.mem_singleton.mp hsep]
    exact .inl List.mem_cons_self
  · obtain ⟨p, -, rfl⟩ := List.mem_map.mp hpart
    rw [renderPair, List.mem_append, List.mem_append] at hc
    rcases hc with (hname | hequals) | hvalue
    · exact .inr ⟨p.1, hname⟩
    · rw [List.mem_singleton.mp hequals]
      exact .inl (by decide)
    · exact .inr ⟨p.2, hvalue⟩

/-- A pair is read back. -/
theorem pair_renderPair (p : Text × Text) : pair (renderPair p) = p := by
  have hcut : Text.cutAt '=' (renderPair p) = some (encode p.1, encode p.2) := by
    rw [renderPair, List.append_assoc]
    exact Text.cutAt_append_cons (equals_not_mem_encode p.1) (encode p.2)
  rw [pair, hcut]
  show (decode (encode p.1), decode (encode p.2)) = p
  rw [decode_encode, decode_encode]

/-- **A query string is read back as its pairs**, in order. -/
theorem read_render (pairs : List (Text × Text)) : read (render pairs) = pairs := by
  by_cases hnil : pairs = []
  · rw [hnil]
    rfl
  · have hne : pairs.map renderPair ≠ [] := mt List.map_eq_nil_iff.mp hnil
    have hpieces : Text.pieces '&' (render pairs) = pairs.map renderPair := by
      rw [render_eq]
      refine Text.pieces_joinWith (fun part hpart => ?_) hne
      obtain ⟨p, -, rfl⟩ := List.mem_map.mp hpart
      exact ampersand_not_mem_renderPair p
    -- no part is empty, since each has its `=`
    have hfilter : (pairs.map renderPair).filter (· ≠ []) = pairs.map renderPair := by
      apply List.filter_eq_self.mpr
      intro part hpart
      obtain ⟨p, -, rfl⟩ := List.mem_map.mp hpart
      simp [renderPair]
    rw [read, hpieces, hfilter, List.map_map]
    exact List.map_id'' pair_renderPair pairs

/-- Separators inside names and values, blanks, and a name that stands twice. -/
example : read (render [(['a', '&'], ['=', '+', ' ']), (['é'], ['%']), (['a', '&'], [])]) =
    [(['a', '&'], ['=', '+', ' ']), (['é'], ['%']), (['a', '&'], [])] := by
  decide

end UriRouting.Http.Form
