/-
# UriRouting.Proofs.Binding.Captures — the last capture of a variable counts

Captures are recorded token by token under the name and declared type of the token's variable.
`IsLast` says which token of a template is the last to carry a variable, and what it was cut.  The
record holds each variable once (`keys_nodup_recordAll`), with the value of its last token
(`get?_recordAll_eq_some_iff`), and it holds no other variable.
-/
import UriRouting.Binding.Capture
import UriRouting.Proofs.KeyedList
import Mathlib.Data.List.Induction

namespace UriRouting

/-- **`Token.Carries token key`** — the token carries the variable with this name and declared
type. -/
def Token.Carries (token : Token) (key : Text × Option Text) : Prop :=
  token.var?.map Variable.key = some key

instance (token : Token) (key : Text × Option Text) : Decidable (token.Carries key) :=
  inferInstanceAs (Decidable (_ = _))

namespace Captures

/-- The keys of the entries. -/
def keys (captures : Captures) : List (Text × Option Text) := captures.map fun e => e.1.key

/-- **`IsLast steps key token piece`** — of the tokens that carry `key`, `token` is the last one,
and it was cut `piece`. -/
def IsLast (steps : List (Token × Text)) (key : Text × Option Text) (token : Token)
    (piece : Text) : Prop :=
  ∃ before after, steps = before ++ (token, piece) :: after ∧ token.Carries key ∧
    ∀ step ∈ after, ¬ step.1.Carries key

theorem IsLast.mem {steps : List (Token × Text)} {key : Text × Option Text} {token : Token}
    {piece : Text} (h : IsLast steps key token piece) : (token, piece) ∈ steps := by
  obtain ⟨before, after, rfl, -, -⟩ := h
  simp

theorem IsLast.exists_var {steps : List (Token × Text)} {key : Text × Option Text} {token : Token}
    {piece : Text} (h : IsLast steps key token piece) :
    ∃ v, token.var? = some v ∧ v.key = key := by
  obtain ⟨before, after, -, hcarries, -⟩ := h
  exact Option.map_eq_some_iff.mp hcarries

/-! ## What one more token changes -/

variable {key : Text × Option Text} {captures : Captures}

theorem isPut_put (v : Variable) (value : RawValue) :
    IsPut (fun e => e.1.key) v.key (v, value) (fun e => (e.1, value)) (put v value) where
  key_fresh := rfl
  key_update _ := rfl
  nil := rfl
  found _ _ he := if_pos he
  passed _ _ he := if_neg he

/-- Putting a value changes the value of one key. -/
theorem get?_put (v : Variable) (value : RawValue) :
    get? key (put v value captures) = if v.key = key then some value else get? key captures :=
  (isPut_put v value).map_find?_put rfl (fun _ => rfl) key captures

theorem get?_record (token : Token) (piece : Text) :
    get? key (record token piece captures) =
      if token.Carries key then some (token.rawValue piece) else get? key captures := by
  rw [record]
  cases hvar : token.var? with
  | none =>
    have hcarries : ¬ token.Carries key := by simp [Token.Carries, hvar]
    rw [if_neg hcarries]
  | some v =>
    have hcarries : token.Carries key ↔ v.key = key := by simp [Token.Carries, hvar]
    simp only [hcarries]
    exact get?_put v (token.rawValue piece)

theorem keys_nodup_record (token : Token) (piece : Text) (h : (keys captures).Nodup) :
    (keys (record token piece captures)).Nodup := by
  rw [record]
  cases token.var? with
  | none => exact h
  | some v => exact (isPut_put v (token.rawValue piece)).nodup_put h

/-! ## What a whole template leaves -/

variable {steps : List (Token × Text)}

theorem recordAll_concat (token : Token) (piece : Text) :
    recordAll (steps ++ [(token, piece)]) captures =
      record token piece (recordAll steps captures) := by
  simp [recordAll]

/-- A token behind is the last one of what it carries, and changes nothing else. -/
theorem isLast_concat_iff {token last : Token} {piece cut : Text} :
    IsLast (steps ++ [(token, piece)]) key last cut ↔
      if token.Carries key then last = token ∧ cut = piece else IsLast steps key last cut := by
  constructor
  · rintro ⟨before, after, heq, hlast, hafter⟩
    -- the last token is the new one exactly if nothing stands after it
    rcases List.eq_nil_or_concat after with rfl | ⟨after, step, rfl⟩
    · obtain ⟨rfl, hstep⟩ := List.append_inj' heq rfl
      obtain ⟨rfl, rfl⟩ := Prod.mk.inj (List.cons.inj hstep).1
      rw [if_pos hlast]
      exact ⟨rfl, rfl⟩
    · rw [List.concat_eq_append, ← List.cons_append, ← List.append_assoc] at heq
      obtain ⟨rfl, hstep⟩ := List.append_inj' heq rfl
      obtain rfl := (List.cons.inj hstep).1
      rw [if_neg (hafter (token, piece) (by simp))]
      exact ⟨before, after, rfl, hlast, fun step hstep => hafter step (by simp [hstep])⟩
  · split
    · next hcarries =>
      rintro ⟨rfl, rfl⟩
      exact ⟨steps, [], rfl, hcarries, by simp⟩
    · next hcarries =>
      rintro ⟨before, after, rfl, hlast, hafter⟩
      refine ⟨before, after ++ [(token, piece)], by simp, hlast, fun step hstep => ?_⟩
      rcases List.mem_append.mp hstep with hstep | hstep
      · exact hafter step hstep
      · rw [List.mem_singleton.mp hstep]
        exact hcarries

/-- **The record holds what the last token of each variable captured.** -/
theorem get?_recordAll_eq_some_iff {value : RawValue} :
    get? key (recordAll steps []) = some value ↔
      ∃ token piece, IsLast steps key token piece ∧ token.rawValue piece = value := by
  induction steps using List.reverseRecOn with
  | nil =>
    constructor
    · intro h
      cases h
    · rintro ⟨token, piece, ⟨before, after, heq, _⟩, _⟩
      simp at heq
  | append_singleton steps step ih =>
    obtain ⟨token, piece⟩ := step
    rw [recordAll_concat, get?_record]
    simp only [isLast_concat_iff]
    by_cases hcarries : token.Carries key
    · simp only [if_pos hcarries, Option.some.injEq]
      constructor
      · intro h
        exact ⟨token, piece, ⟨rfl, rfl⟩, h⟩
      · rintro ⟨_, _, ⟨rfl, rfl⟩, h⟩
        exact h
    · simp only [if_neg hcarries]
      exact ih

theorem keys_nodup_recordAll (steps : List (Token × Text)) : (keys (recordAll steps [])).Nodup := by
  induction steps using List.reverseRecOn with
  | nil => exact List.nodup_nil
  | append_singleton steps step ih =>
    rw [recordAll_concat]
    exact keys_nodup_record _ _ ih

/-- With every key once, an entry is what its key is looked up to. -/
theorem get?_eq_some_iff_of_nodup {value : RawValue} (h : (keys captures).Nodup) :
    get? key captures = some value ↔ ∃ v, v.key = key ∧ (v, value) ∈ captures := by
  rw [get?, Option.map_eq_some_iff]
  constructor
  · rintro ⟨⟨v, _⟩, hfind, rfl⟩
    obtain ⟨hmem, hv⟩ := (find?_eq_some_iff_of_nodup h).mp hfind
    exact ⟨v, hv, hmem⟩
  · rintro ⟨v, hv, hmem⟩
    exact ⟨(v, value), (find?_eq_some_iff_of_nodup h).mpr ⟨hmem, hv⟩, rfl⟩

/-- The entries of the record are the last captures. -/
theorem exists_mem_recordAll_iff {value : RawValue} :
    (∃ v, v.key = key ∧ (v, value) ∈ recordAll steps []) ↔
      ∃ token piece, IsLast steps key token piece ∧ token.rawValue piece = value := by
  rw [← get?_eq_some_iff_of_nodup (keys_nodup_recordAll steps), get?_recordAll_eq_some_iff]

/-- A variable that some token carries has a last token. -/
theorem exists_isLast {token : Token} {piece : Text} (hmem : (token, piece) ∈ steps)
    (hcarries : token.Carries key) : ∃ last cut, IsLast steps key last cut := by
  induction steps using List.reverseRecOn with
  | nil => cases hmem
  | append_singleton steps step ih =>
    obtain ⟨t, p⟩ := step
    simp only [isLast_concat_iff]
    -- a token behind that carries the variable as well is its last one instead
    by_cases ht : t.Carries key
    · simp only [if_pos ht]
      exact ⟨t, p, rfl, rfl⟩
    · simp only [if_neg ht]
      rcases List.mem_append.mp hmem with hmem | hmem
      · exact ih hmem
      · obtain ⟨rfl, rfl⟩ := Prod.mk.inj (List.mem_singleton.mp hmem)
        exact absurd hcarries ht

end Captures

end UriRouting
