/-
# UriRouting.Proofs.Regex.Reading — following the reader of expressions

`Reads` says that the reader comes from one state to another over a known beginning of a text,
whatever stands behind it.  It composes, so a long text is followed part by part, and a part that is
followed once may stand anywhere.
-/
import UriRouting.Regex.Reader
import Mathlib.Data.List.Basic

namespace UriRouting.Regex

/-- A sequence is one level deeper than its deepest part. -/
theorem depth_catAll_le {rs : List Regex} {n : Nat} (h : ∀ r ∈ rs, depth r ≤ n) :
    depth (catAll rs) ≤ n + 1 := by
  induction rs with
  | nil => exact Nat.zero_le _
  | cons r rs ih =>
    have hr := h r List.mem_cons_self
    have hrs := ih fun s hs => h s (List.mem_cons_of_mem r hs)
    cases rs with
    | nil => exact Nat.le_succ_of_le hr
    | cons s rs =>
      show max (depth r + 1) (if isCat (catAll (s :: rs)) then
        depth (catAll (s :: rs)) else depth (catAll (s :: rs)) + 1) ≤ n + 1
      refine Nat.max_le.mpr ⟨Nat.succ_le_succ hr, ?_⟩
      cases rs with
      | nil =>
        have hs : depth s ≤ n := h s (by simp)
        show (if isCat s then depth s else depth s + 1) ≤ n + 1
        split <;> omega
      | cons u rs => exact hrs

variable [Unicode]

/-- **`Reads st s st' s'`** — from the state `st` before `s` the reader comes to the state `st'`
before `s'`, whatever text follows, and keeps fuel enough for the rest. -/
def Reads (st : ReaderState) (s : Text) (st' : ReaderState) (s' : Text) : Prop :=
  ∀ rest fuel, (s ++ rest).length ≤ fuel →
    ∃ fuel', (s' ++ rest).length ≤ fuel' ∧
      readerRun fuel st (s ++ rest) = readerRun fuel' st' (s' ++ rest)

theorem Reads.refl (st : ReaderState) (s : Text) : Reads st s st s :=
  fun _ fuel hfuel => ⟨fuel, hfuel, rfl⟩

theorem Reads.trans {st st' st'' : ReaderState} {s s' s'' : Text} (h : Reads st s st' s')
    (h' : Reads st' s' st'' s'') : Reads st s st'' s'' := by
  intro rest fuel hfuel
  obtain ⟨fuel', hfuel', heq⟩ := h rest fuel hfuel
  obtain ⟨fuel'', hfuel'', heq'⟩ := h' rest fuel' hfuel'
  exact ⟨fuel'', hfuel'', heq.trans heq'⟩

/-- What is read of a beginning is read of it in front of any text. -/
theorem Reads.append {st st' : ReaderState} {s s' : Text} (h : Reads st s st' s') (u : Text) :
    Reads st (s ++ u) st' (s' ++ u) := by
  intro rest fuel hfuel
  rw [List.append_assoc] at hfuel ⊢
  rw [List.append_assoc]
  exact h (u ++ rest) fuel hfuel

/-- One step of the reader, outside verbose mode. -/
theorem Reads.step {st st' : ReaderState} {c : Char} {s s' : Text}
    (hv : st.flags.verbose = false) (hlen : s'.length ≤ s.length)
    (h : ∀ rest, readerStep st c (s ++ rest) = .ok (st', s' ++ rest)) :
    Reads st (c :: s) st' s' := by
  intro rest fuel hfuel
  simp only [List.cons_append, List.length_cons, List.length_append] at hfuel
  obtain ⟨fuel, rfl⟩ : ∃ n, fuel = n + 1 := ⟨fuel - 1, by omega⟩
  refine ⟨fuel, by rw [List.length_append]; omega, ?_⟩
  have hskip : st.flags.skip (c :: (s ++ rest)) = c :: (s ++ rest) := by simp [Flags.skip, hv]
  rw [List.cons_append, readerRun, hskip]
  simp only [h rest]
  rfl

/-- A parenthesis that no question mark follows opens a capture group. -/
theorem parenthesis_of_head? {st : ReaderState} {s : Text} (hv : st.flags.verbose = false)
    (h : s.head? ≠ some '?') :
    parenthesis st s = .ok (st.openGroup true st.flags, s) := by
  have hskip : st.flags.skip s = s := by simp [Flags.skip, hv]
  unfold parenthesis
  rw [hskip]
  split <;> simp_all

end UriRouting.Regex
