/-
# UriRouting.Proofs.Binding.Entries — an entry keeps its first variable and takes its last value

Two tokens belong to the same entry of the record if their variables agree in name and declared type;
the default value does not count.  So an entry mixes two tokens: the variable in it, with its default,
is that of the first token with the pair (`IsFirst`), and the value is what the last one gave
(`IsLast`).  One token touches one entry (`entryAt?_record`), and the whole record follows from that
by induction on the steps, from the back (`entryAt?_recordAll_eq_some_iff`).

What a token gives for a piece is said apart from the record (`Token.Gives`): a single text, or the
parts of the piece that lie between slashes.
-/
import UriRouting.Proofs.Binding.Captures
import UriRouting.Proofs.Text.Pieces

namespace UriRouting

/-! ## The value of a piece -/

/-- **`Token.Gives token piece value`** — a token that was cut `piece` gives its variable `value`: the
decoded piece or, for a segments wildcard, those of the parts between slashes that are not empty, each
decoded by itself. -/
inductive Token.Gives : Token → Text → RawValue → Prop
  | placeholder (v : Variable) (m : Modifier) (piece : Text) :
      Gives (.placeholder v m) piece (.single (Percent.decode piece))
  | remainder (v : Variable) (piece : Text) :
      Gives (.wildcard v .remainder) piece (.single (Percent.decode piece))
  | segments (v : Variable) (parts : List Text) :
      parts ≠ [] → (∀ p ∈ parts, '/' ∉ p) →
      Gives (.wildcard v .segments) (Text.joinWith ['/'] parts)
        (.segments ((parts.filter (· ≠ [])).map Percent.decode))

/-- A token with a variable gives one value for a piece, the one that is recorded. -/
theorem Token.gives_iff {token : Token} {piece : Text} {value : RawValue}
    (h : token.isLiteral = false) : token.Gives piece value ↔ token.rawValue piece = value := by
  constructor
  · rintro (_ | _ | ⟨v, parts, hne, hslash⟩)
    · rfl
    · rfl
    · show RawValue.segments
        (((Text.pieces '/' (Text.joinWith ['/'] parts)).filter (· ≠ [])).map Percent.decode) = _
      rw [Text.pieces_joinWith hslash hne]
  · rintro rfl
    match token with
    | .literal _ => cases h
    | .placeholder v m => exact .placeholder v m piece
    | .wildcard v .remainder => exact .remainder v piece
    | .wildcard v .segments =>
      have hgives := Gives.segments v (Text.pieces '/' piece) (Text.pieces_ne_nil '/' piece)
        fun p hp hslash => (Text.mem_of_mem_pieces hp hslash).2 rfl
      rwa [Text.joinWith_pieces] at hgives

theorem Token.Carries.not_isLiteral {token : Token} {key : Text × Option Text}
    (h : token.Carries key) : token.isLiteral = false := by
  cases token with
  | literal text => cases h
  | placeholder v m => rfl
  | wildcard v f => rfl

namespace Captures

/-! ## One entry -/

variable {key : Text × Option Text} {captures : Captures} {steps : List (Token × Text)}
  {v : Variable} {value : RawValue}

/-- **`entryAt? key captures`** — the entry with a given name and type. -/
def entryAt? (key : Text × Option Text) (captures : Captures) : Option (Variable × RawValue) :=
  captures.find? fun (v, _) => v.key = key

theorem get?_eq_map_entryAt? : get? key captures = (entryAt? key captures).map Prod.snd := rfl

/-- Putting a value changes one entry, which keeps the variable that it has. -/
theorem entryAt?_put (v : Variable) (value : RawValue) :
    entryAt? key (put v value captures) =
      if v.key = key then some (((entryAt? key captures).map Prod.fst).getD v, value)
      else entryAt? key captures := by
  have hput := (isPut_put v value).find?_put key captures
  have hentry : ((entryAt? key captures).map fun e => (e.1, value)).getD (v, value) =
      (((entryAt? key captures).map Prod.fst).getD v, value) := by
    cases entryAt? key captures <;> rfl
  rw [← hentry]
  exact hput

/-- **One token touches the entry of its variable**, if it has one, and no other. -/
theorem entryAt?_record (token : Token) (piece : Text) :
    entryAt? key (record token piece captures) =
      match token.var? with
      | some v =>
        if v.key = key then
          some (((entryAt? key captures).map Prod.fst).getD v, token.rawValue piece)
        else entryAt? key captures
      | none => entryAt? key captures := by
  rw [record]
  cases token.var? with
  | none => rfl
  | some v => exact entryAt?_put v (token.rawValue piece)

theorem entryAt?_record_of_not_carries {token : Token} (h : ¬ token.Carries key) (piece : Text) :
    entryAt? key (record token piece captures) = entryAt? key captures := by
  rw [entryAt?_record]
  cases hvar : token.var? with
  | none => rfl
  | some v =>
    have hv : ¬ v.key = key := by simpa [Token.Carries, hvar] using h
    exact if_neg hv

theorem record_of_isLiteral {token : Token} (h : token.isLiteral = true) (piece : Text) :
    record token piece captures = captures := by
  cases token with
  | literal text => rfl
  | placeholder v m => cases h
  | wildcard v f => cases h

theorem mem_iff_entryAt?_of_nodup (h : (keys captures).Nodup) :
    (v, value) ∈ captures ↔ entryAt? v.key captures = some (v, value) := by
  rw [entryAt?, find?_eq_some_iff_of_nodup h]
  exact (and_iff_left rfl).symm

/-! ## All steps -/

/-- The variables that the tokens carry, in order. -/
def carried (steps : List (Token × Text)) : List Variable := steps.filterMap fun step => step.1.var?

/-- **`IsFirst steps v`** — of the variables that the tokens carry, `v` is the first one with its name
and declared type. -/
def IsFirst (steps : List (Token × Text)) (v : Variable) : Prop :=
  ∃ before after, carried steps = before ++ v :: after ∧ ∀ w ∈ before, w.key ≠ v.key

theorem carried_concat (token : Token) (piece : Text) :
    carried (steps ++ [(token, piece)]) = carried steps ++ token.var?.toList := by
  rw [carried, carried, List.filterMap_append]
  cases hvar : token.var? <;> simp [hvar]

theorem find?_carried_eq_some_iff :
    (carried steps).find? (fun w => w.key = key) = some v ↔ v.key = key ∧ IsFirst steps v := by
  rw [List.find?_eq_some_iff_append, decide_eq_true_iff]
  refine and_congr_right ?_
  rintro rfl
  simp [IsFirst]

/-- The variable of an entry is the first one of its key. -/
theorem map_fst_entryAt?_recordAll :
    (entryAt? key (recordAll steps [])).map Prod.fst =
      (carried steps).find? fun w => w.key = key := by
  induction steps using List.reverseRecOn with
  | nil => rfl
  | append_singleton steps step ih =>
    obtain ⟨token, piece⟩ := step
    rw [recordAll_concat, entryAt?_record, carried_concat, List.find?_append, ← ih]
    cases token.var? with
    | none => simp
    | some v =>
      by_cases hv : v.key = key
      · simp [hv]
      · simp [hv]

/-- **An entry has the first variable of its key and the value of the last token.** -/
theorem entryAt?_recordAll_eq_some_iff :
    entryAt? key (recordAll steps []) = some (v, value) ↔
      (v.key = key ∧ IsFirst steps v) ∧
        ∃ token piece, IsLast steps key token piece ∧ token.Gives piece value := by
  have hvalue : (∃ token piece, IsLast steps key token piece ∧ token.Gives piece value) ↔
      get? key (recordAll steps []) = some value := by
    rw [get?_recordAll_eq_some_iff]
    refine exists_congr fun token => exists_congr fun piece => and_congr_right fun hlast => ?_
    obtain ⟨before, after, -, hcarries, -⟩ := hlast
    exact Token.gives_iff hcarries.not_isLiteral
  rw [hvalue, get?_eq_map_entryAt?, ← find?_carried_eq_some_iff, ← map_fst_entryAt?_recordAll]
  cases entryAt? key (recordAll steps []) with
  | none => simp
  | some e => simp [Prod.ext_iff]

/-- There is an entry for what the tokens carry, and for nothing else. -/
theorem mem_keys_recordAll_iff :
    key ∈ keys (recordAll steps []) ↔ ∃ step ∈ steps, step.1.Carries key := by
  constructor
  · intro hkey
    obtain ⟨⟨v, value⟩, hmem, hv⟩ := List.mem_map.mp hkey
    obtain ⟨token, piece, hlast, -⟩ := exists_mem_recordAll_iff.mp ⟨v, hv, hmem⟩
    obtain ⟨w, hvar, hw⟩ := hlast.exists_var
    exact ⟨(token, piece), hlast.mem, by rw [Token.Carries, hvar, Option.map_some, hw]⟩
  · rintro ⟨⟨token, piece⟩, hmem, hcarries⟩
    obtain ⟨last, cut, hlast⟩ := exists_isLast hmem hcarries
    obtain ⟨v, hv, hentry⟩ := exists_mem_recordAll_iff.mpr ⟨last, cut, hlast, rfl⟩
    exact List.mem_map.mpr ⟨_, hentry, hv⟩

/-- **What a record holds after any steps.**  There is one entry for every name and declared type that
the tokens carry, with the variable of the first token and the value of the last token that carries
them.  One more step with a literal changes nothing, and one with another pair leaves an entry as it
is. -/
theorem recordAll_first_variable_last_value (steps : List (Token × Text)) :
    (keys (recordAll steps [])).Nodup ∧
    (∀ key, key ∈ keys (recordAll steps []) ↔ ∃ step ∈ steps, step.1.Carries key) ∧
    (∀ v value, (v, value) ∈ recordAll steps [] ↔
      IsFirst steps v ∧
        ∃ token piece, IsLast steps v.key token piece ∧ token.Gives piece value) ∧
    ∀ token piece,
      (token.isLiteral = true → recordAll (steps ++ [(token, piece)]) [] = recordAll steps []) ∧
      ∀ key, ¬ token.Carries key →
        entryAt? key (recordAll (steps ++ [(token, piece)]) []) =
          entryAt? key (recordAll steps []) := by
  have hnodup := keys_nodup_recordAll steps
  refine ⟨hnodup, fun key => mem_keys_recordAll_iff, fun v value => ?_, fun token piece => ?_⟩
  · rw [mem_iff_entryAt?_of_nodup hnodup, entryAt?_recordAll_eq_some_iff]
    simp
  · rw [recordAll_concat]
    exact ⟨fun hliteral => record_of_isLiteral hliteral piece,
      fun key hkey => entryAt?_record_of_not_carries hkey piece⟩

/-- The first token has the default, the last one the value. -/
example :
    recordAll
      [(.placeholder ⟨['a'], none, some ['1']⟩ .plain, ['x']), (.literal ['-'], ['-']),
        (.placeholder ⟨['a'], some ['t'], none⟩ .plain, ['y']),
        (.wildcard ⟨['a'], none, some ['2']⟩ .segments, Text.ofString "//b%2Fc/d")] [] =
      [(⟨['a'], none, some ['1']⟩, .segments [Text.ofString "b/c", ['d']]),
        (⟨['a'], some ['t'], none⟩, .single ['y'])] := by decide

end Captures

end UriRouting
