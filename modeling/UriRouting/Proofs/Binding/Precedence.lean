/-
# UriRouting.Proofs.Binding.Precedence — which binding a variable is resolved by

A binder is filled in steps, each of which gives a target its resolver (`Binder.Step`).  The binder
has one slot for each target (`Binder.slot`); a step writes the slot of its target and no other
(`slot_apply`), so after all steps a slot holds what the last step on its target put there
(`slot_run`).  A look-up reads the slots of the targets that cover the variable, in a fixed order,
and takes the first one that is filled (`resolverOf_eq_slots`).  What a run leaves for a variable,
and which steps it does not depend on, is read off these three facts.
-/
import UriRouting.Binding.Binder
import UriRouting.Proofs.KeyedList
import Mathlib.Data.List.Induction

namespace UriRouting.Binder

/-! ## Targets and steps -/

/-- **`Target`** — what a step binds: the variables of a name with a declared type or with none,
those of a name, those of a type, or all that are not bound. -/
inductive Target
  | exact (name : Text) (type : Option Text)
  | named (name : Text)
  | typed (type : Text)
  | rest
  deriving DecidableEq, Repr

/-- **`Covers target name type`** — the target is one of those that the variable can be bound by. -/
def Target.Covers : Target → Text → Option Text → Prop
  | exact n t, name, type => n = name ∧ t = type
  | named n, name, _ => n = name
  | typed t, _, type => type = some t
  | rest, _, _ => True

/-- **`Step`** — gives a target its resolver. -/
structure Step where
  target : Target
  resolver : Resolver

/-- The binder after one more step. -/
def apply (b : Binder) (step : Step) : Binder :=
  match step.target with
  | .exact name type => b.bind name type step.resolver
  | .named name => b.bindName name step.resolver
  | .typed type => b.bindType type step.resolver
  | .rest => b.setDefault step.resolver

/-- **`run steps b`** — the binder after the steps in order. -/
def run (steps : List Step) (b : Binder) : Binder := steps.foldl apply b

/-- **`lastOn target steps`** — the resolver of the last step on the target, if there is one. -/
def lastOn (target : Target) (steps : List Step) : Option Resolver :=
  (steps.reverse.find? fun step => step.target = target).map Step.resolver

/-- The resolver that the binder holds for a target. -/
def slot (b : Binder) : Target → Option Resolver
  | .exact name type => b.exact.lookup (name, type)
  | .named name => b.names.lookup name
  | .typed type => b.types.lookup type
  | .rest => some b.fallback

/-! ## What one step changes -/

variable {κ : Type}

theorem isPut_assign [DecidableEq κ] (key : κ) (resolver : Resolver) :
    IsPut Prod.fst key (key, resolver) (fun e => (e.1, resolver)) (assign key resolver) where
  key_fresh := rfl
  key_update _ := rfl
  nil := rfl
  found _ _ he := if_pos he
  passed _ _ he := if_neg he

/-- Assigning a key changes what is looked up for that key alone. -/
theorem lookup_assign [DecidableEq κ] [BEq κ] [LawfulBEq κ] (key k : κ) (resolver : Resolver)
    (entries : List (κ × Resolver)) :
    (assign key resolver entries).lookup k =
      if key = k then some resolver else entries.lookup k := by
  rw [lookup_eq_map_find?, lookup_eq_map_find?]
  exact (isPut_assign key resolver).map_find?_put rfl (fun _ => rfl) k entries

/-- **A step writes the slot of its target and no other.** -/
theorem slot_apply (b : Binder) (step : Step) (target : Target) :
    (b.apply step).slot target =
      if step.target = target then some step.resolver else b.slot target := by
  obtain ⟨written, resolver⟩ := step
  cases written with
  | exact n t => cases target <;> simp [apply, slot, bind, lookup_assign]
  | named n => cases target <;> simp [apply, slot, bindName, lookup_assign]
  | typed t => cases target <;> simp [apply, slot, bindType, lookup_assign]
  | rest => cases target <;> simp [apply, slot, setDefault]

/-! ## What a run leaves -/

theorem lastOn_concat (target : Target) (steps : List Step) (step : Step) :
    lastOn target (steps ++ [step]) =
      if step.target = target then some step.resolver else lastOn target steps := by
  by_cases h : step.target = target <;> simp [lastOn, h]

theorem run_append (front back : List Step) (b : Binder) :
    run (front ++ back) b = run back (run front b) := List.foldl_append

/-- **After a run a slot holds what the last step on its target put there**, or what it held before
if there is none. -/
theorem slot_run (steps : List Step) (b : Binder) (target : Target) :
    (run steps b).slot target = (lastOn target steps).or (b.slot target) := by
  induction steps using List.reverseRecOn with
  | nil => rfl
  | append_singleton steps step ih =>
    rw [run_append, lastOn_concat]
    show ((run steps b).apply step).slot target = _
    rw [slot_apply, ih]
    split <;> rfl

/-- The later part of a run decides about the targets that it has a step on. -/
theorem lastOn_append (target : Target) (front back : List Step) :
    lastOn target (front ++ back) = (lastOn target back).or (lastOn target front) := by
  simp only [lastOn, List.reverse_append, List.find?_append, Option.map_or]

theorem lastOn_cons (target : Target) (step : Step) (steps : List Step) :
    lastOn target (step :: steps) = (lastOn target steps).or
      (if step.target = target then some step.resolver else none) := by
  rw [← List.singleton_append, lastOn_append]
  exact congrArg _ (lastOn_concat target [] step)

/-- Neighbouring steps on different targets may change places. -/
theorem lastOn_swap {a b : Step} (h : a.target ≠ b.target) (target : Target)
    (front back : List Step) :
    lastOn target (front ++ a :: b :: back) = lastOn target (front ++ b :: a :: back) := by
  simp only [lastOn_append, lastOn_cons, Option.or_assoc]
  by_cases ha : a.target = target
  · have hb : b.target ≠ target := fun hb => h (ha.trans hb.symm)
    simp only [if_neg hb, Option.none_or]
  · simp only [if_neg ha, Option.none_or]

/-- A step on another target may be left out. -/
theorem lastOn_skip {step : Step} {target : Target} (h : step.target ≠ target)
    (front back : List Step) :
    lastOn target (front ++ step :: back) = lastOn target (front ++ back) := by
  rw [lastOn_append, lastOn_cons, if_neg h, Option.or_none, ← lastOn_append]

/-! ## What a look-up reads -/

theorem bound?_eq_slots (b : Binder) (name : Text) (type : Option Text) :
    b.bound? name type = ((b.slot (.exact name type)).or (b.slot (.named name))).or
      (type.bind fun t => b.slot (.typed t)) := by
  cases type <;> rfl

/-- **A look-up takes the first filled slot**, and where none of the variable's own is filled, what
the rest is resolved by. -/
theorem resolverOf_eq_slots (b : Binder) (name : Text) (type : Option Text) :
    b.resolverOf name type = (((b.slot (.exact name type)).or (b.slot (.named name))).or
      (type.bind fun t => b.slot (.typed t))).getD b.fallback := by
  rw [resolverOf, bound?_eq_slots]

theorem isBound_iff_slots (b : Binder) (name : Text) (type : Option Text) :
    b.isBound name type = true ↔ (b.slot (.exact name type)).isSome = true ∨
      (b.slot (.named name)).isSome = true ∨
      ∃ t, type = some t ∧ (b.slot (.typed t)).isSome = true := by
  rw [isBound, bound?_eq_slots]
  cases type <;> simp [or_assoc]

/-- **`SameAt b c name type`** — a look-up of the variable finds the same in both binders. -/
structure SameAt (b c : Binder) (name : Text) (type : Option Text) : Prop where
  resolver : b.resolverOf name type = c.resolverOf name type
  bound : b.isBound name type = c.isBound name type

variable {b c : Binder} {name : Text} {type : Option Text}

/-- The slots of the targets that cover a variable are all that it can be bound by. -/
theorem bound?_congr
    (h : ∀ target : Target, target ≠ .rest → target.Covers name type →
      b.slot target = c.slot target) :
    b.bound? name type = c.bound? name type := by
  have hexact := h (.exact name type) (by simp) ⟨rfl, rfl⟩
  have hnamed := h (.named name) (by simp) rfl
  rw [bound?_eq_slots, bound?_eq_slots, hexact, hnamed]
  cases type with
  | none => rfl
  | some t => exact congrArg _ (h (.typed t) (by simp) rfl)

/-- What the rest is resolved by matters to a variable only if it is not bound. -/
theorem sameAt_of_bound? (h : b.bound? name type = c.bound? name type)
    (hrest : b.isBound name type = true ∨ b.fallback = c.fallback) : SameAt b c name type := by
  refine ⟨?_, by rw [isBound, isBound, h]⟩
  rw [resolverOf, resolverOf, ← h]
  rcases hrest with hbound | hfallback
  · obtain ⟨r, hr⟩ := Option.isSome_iff_exists.mp hbound
    rw [hr, Option.getD_some, Option.getD_some]
  · rw [hfallback]

/-! ## The bindings of a run -/

/-- Nothing but passthrough is in the slots of the empty binder. -/
theorem slot_empty (target : Target) :
    empty.slot target = if target = .rest then some Resolver.passthrough else none := by
  cases target <;> rfl

theorem slot_run_empty {target : Target} (h : target ≠ .rest) (steps : List Step) :
    (run steps empty).slot target = lastOn target steps := by
  rw [slot_run, slot_empty, if_neg h, Option.or_none]

theorem fallback_run_empty (steps : List Step) :
    (run steps empty).fallback = (lastOn .rest steps).getD Resolver.passthrough := by
  apply Option.some.inj
  show (run steps empty).slot .rest = _
  rw [slot_run]
  cases lastOn .rest steps <;> rfl

/-- Runs that end alike on the targets of a variable look it up alike. -/
theorem sameAt_run {steps other : List Step}
    (h : ∀ target : Target, target.Covers name type → lastOn target steps = lastOn target other) :
    SameAt (run steps empty) (run other empty) name type := by
  refine sameAt_of_bound? (bound?_congr fun target hrest hcovers => ?_) (.inr ?_)
  · rw [slot_run_empty hrest, slot_run_empty hrest, h target hcovers]
  · rw [fallback_run_empty, fallback_run_empty, h .rest trivial]

/-- **The last binding of the most particular target counts.**  After any steps from the empty
binder, a variable is resolved by what the last step on its name and type says, else the last one on
its name, else, if it has a type, the last one on its type, else the last one on the rest; if there
is none of these either, every text is a value as it is.  It is bound if one of the first three is
there.  Steps on different targets may change places, a step that does not cover a variable may be
left out for it, and a step on the rest concerns only what is not bound. -/
theorem lookup_run_empty (steps : List Step) :
    (∀ name type,
      (run steps empty).resolverOf name type =
        ((((lastOn (.exact name type) steps).or (lastOn (.named name) steps)).or
          (type.bind fun t => lastOn (.typed t) steps)).or (lastOn .rest steps)).getD
            Resolver.passthrough ∧
      ((run steps empty).isBound name type = true ↔
        (lastOn (.exact name type) steps).isSome = true ∨
        (lastOn (.named name) steps).isSome = true ∨
        ∃ t, type = some t ∧ (lastOn (.typed t) steps).isSome = true)) ∧
    (∀ front a b back, steps = front ++ a :: b :: back → a.target ≠ b.target →
      ∀ name type, SameAt (run steps empty) (run (front ++ b :: a :: back) empty) name type) ∧
    (∀ front step back, steps = front ++ step :: back → ∀ name type,
      (¬ step.target.Covers name type →
        SameAt (run steps empty) (run (front ++ back) empty) name type) ∧
      (step.target = .rest → (run steps empty).isBound name type = true →
        SameAt (run steps empty) (run (front ++ back) empty) name type)) := by
  refine ⟨fun name type => ⟨?_, ?_⟩, ?_, ?_⟩
  · rw [resolverOf_eq_slots, fallback_run_empty]
    simp only [slot_run_empty, ne_eq, reduceCtorEq, not_false_eq_true]
    rw [← Option.getD_or]
  · simp only [isBound_iff_slots, slot_run_empty, ne_eq, reduceCtorEq, not_false_eq_true]
  · rintro front a b back rfl hne name type
    exact sameAt_run fun target _ => lastOn_swap hne target front back
  · rintro front step back rfl name type
    constructor
    · intro hcovers
      refine sameAt_run fun target htarget => lastOn_skip ?_ front back
      rintro rfl
      exact hcovers htarget
    · intro hrest hbound
      refine sameAt_of_bound? (bound?_congr fun target htarget _ => ?_) (.inl hbound)
      have hne : step.target ≠ target := fun heq => htarget (heq ▸ hrest)
      rw [slot_run_empty htarget, slot_run_empty htarget, lastOn_skip hne]

/-- No type and the empty type are different targets, and a binding of the one leaves the other as
it was. -/
theorem lookup_run_no_type :
    let untyped : Step := ⟨.exact ['i', 'd'] none, Resolver.integer⟩
    let emptyType : Step := ⟨.exact ['i', 'd'] (some []), Resolver.boolean⟩
    let rest : Step := ⟨.rest, fun _ => none⟩
    let steps := [untyped, emptyType, rest]
    untyped.target ≠ emptyType.target ∧ ¬ emptyType.target.Covers ['i', 'd'] none ∧
      (run steps empty).isBound ['i', 'd'] none = true ∧
      SameAt (run steps empty) (run [emptyType, untyped, rest] empty) ['i', 'd'] none ∧
      SameAt (run steps empty) (run [untyped, rest] empty) ['i', 'd'] none ∧
      SameAt (run steps empty) (run [untyped, emptyType] empty) ['i', 'd'] none ∧
      (run steps empty).resolverOf ['i', 'd'] none ['1'] = some (.int 1) := by
  intro untyped emptyType rest steps
  have hne : untyped.target ≠ emptyType.target := by decide
  have hcovers : ¬ emptyType.target.Covers ['i', 'd'] none := by rintro ⟨-, h⟩; cases h
  obtain ⟨hlookup, hswap, hskip⟩ := lookup_run_empty steps
  have hbound : (run steps empty).isBound ['i', 'd'] none = true :=
    (hlookup ['i', 'd'] none).2.mpr (.inl rfl)
  refine ⟨hne, hcovers, hbound, hswap [] untyped emptyType [rest] rfl hne _ _,
    (hskip [untyped] emptyType [rest] rfl _ _).1 hcovers,
    (hskip [untyped, emptyType] rest [] rfl _ _).2 rfl hbound, ?_⟩
  rw [(hlookup ['i', 'd'] none).1]
  rfl

end UriRouting.Binder
