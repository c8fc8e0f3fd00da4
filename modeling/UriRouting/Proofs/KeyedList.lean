/-
# UriRouting.Proofs.KeyedList — lists with one entry for a key

Binders, captured values, resolved values and routes are lists of entries that are told apart by a
key.  Where keys differ an entry is what its key is looked up to (`find?_eq_some_iff_of_nodup`).

Most of these lists are written, and all alike (`IsPut`): the entry with the key is updated where it
stands, and if there is none, a fresh one is added behind the others.  So writing a key changes what
is found for that key and for no other (`find?_put`, `map_find?_put`), and adds the key only if it
was not there (`map_put`).
-/
import Mathlib.Data.List.Nodup

namespace UriRouting

variable {α κ ν : Type} [DecidableEq κ]

/-! ## Looking up -/

theorem lookup_cons_eq_ite [BEq κ] [LawfulBEq κ] (k key : κ) (value : ν) (entries : List (κ × ν)) :
    ((key, value) :: entries).lookup k = if key = k then some value else entries.lookup k := by
  rw [List.lookup_cons]
  by_cases h : key = k
  · simp [h]
  · simp [h, beq_false_of_ne (Ne.symm h)]

theorem lookup_eq_map_find? [BEq κ] [LawfulBEq κ] (k : κ) (entries : List (κ × ν)) :
    entries.lookup k = (entries.find? fun e => e.1 = k).map Prod.snd := by
  induction entries with
  | nil => rfl
  | cons e entries ih =>
    rw [lookup_cons_eq_ite, ih]
    by_cases h : e.1 = k <;> simp [h]

/-- With every key once, an entry is what its key is looked up to. -/
theorem find?_eq_some_iff_of_nodup {key : α → κ} {entries : List α} (h : (entries.map key).Nodup)
    {k : κ} {e : α} : entries.find? (fun e => key e = k) = some e ↔ e ∈ entries ∧ key e = k := by
  constructor
  · intro hfind
    exact ⟨List.mem_of_find?_eq_some hfind, by simpa using List.find?_some hfind⟩
  · rintro ⟨hmem, rfl⟩
    cases hfind : entries.find? fun d => key d = key e with
    | none => simpa using List.find?_eq_none.mp hfind e hmem
    | some d =>
      have hkey : key d = key e := by simpa using List.find?_some hfind
      rw [List.inj_on_of_nodup_map h (List.mem_of_find?_eq_some hfind) hmem hkey]

/-! ## Writing -/

/-- **`IsPut key k fresh update put`** — `put` writes the entry with the key `k`: it updates the first
one that is there, or else adds `fresh` behind the others; an update keeps the key. -/
structure IsPut (key : α → κ) (k : κ) (fresh : α) (update : α → α) (put : List α → List α) :
    Prop where
  key_fresh : key fresh = k
  key_update : ∀ e, key (update e) = key e
  nil : put [] = [fresh]
  found : ∀ e rest, key e = k → put (e :: rest) = update e :: rest
  passed : ∀ e rest, key e ≠ k → put (e :: rest) = e :: put rest

namespace IsPut

variable {key : α → κ} {k : κ} {fresh : α} {update : α → α} {put : List α → List α}

/-- **What is found after writing**: the entry of the key that was written, updated or fresh, and
every other entry as it was. -/
theorem find?_put (h : IsPut key k fresh update put) (n : κ) (entries : List α) :
    (put entries).find? (fun e => key e = n) =
      if k = n then some (((entries.find? fun e => key e = n).map update).getD fresh)
      else entries.find? fun e => key e = n := by
  induction entries with
  | nil =>
    rw [h.nil]
    by_cases hn : k = n <;> simp [h.key_fresh, hn]
  | cons e rest ih =>
    by_cases he : key e = k
    · rw [h.found e rest he]
      by_cases hn : k = n <;> simp [h.key_update, he, hn]
    · rw [h.passed e rest he, List.find?_cons, List.find?_cons, ih]
      by_cases hn : k = n
      · have hen : ¬ key e = n := hn ▸ he
        simp [hn, hen]
      · by_cases hen : key e = n <;> simp [hn, hen]

/-- A value that every written entry has is the one found for the key. -/
theorem map_find?_put (h : IsPut key k fresh update put) {val : α → ν} {x : ν}
    (hfresh : val fresh = x) (hupdate : ∀ e, val (update e) = x) (n : κ) (entries : List α) :
    ((put entries).find? fun e => key e = n).map val =
      if k = n then some x else (entries.find? fun e => key e = n).map val := by
  rw [h.find?_put]
  split
  · cases entries.find? fun e => key e = n with
    | none => exact congrArg some hfresh
    | some e => exact congrArg some (hupdate e)
  · rfl

/-- The keys stay in their order, with a new one behind. -/
theorem map_put (h : IsPut key k fresh update put) (entries : List α) :
    (put entries).map key =
      if k ∈ entries.map key then entries.map key else entries.map key ++ [k] := by
  induction entries with
  | nil =>
    rw [h.nil]
    simp [h.key_fresh]
  | cons e rest ih =>
    by_cases he : key e = k
    · rw [h.found e rest he]
      simp [h.key_update, he]
    · rw [h.passed e rest he]
      simp only [List.map_cons, List.mem_cons, Ne.symm he, false_or, ih]
      by_cases hmem : k ∈ rest.map key
      · rw [if_pos hmem, if_pos hmem]
      · rw [if_neg hmem, if_neg hmem, List.cons_append]

/-- Keys that differ still differ. -/
theorem nodup_put (h : IsPut key k fresh update put) {entries : List α}
    (hnodup : (entries.map key).Nodup) : ((put entries).map key).Nodup := by
  rw [h.map_put]
  split
  · exact hnodup
  · next hk =>
    rw [← List.concat_eq_append]
    exact hnodup.concat hk

end IsPut

end UriRouting
