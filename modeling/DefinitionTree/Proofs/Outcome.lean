/-
DefinitionTree/Proofs/Outcome.lean

What a failing computation comes to.

Everything that may fail is a sequence of steps of which the first failure counts.
So what succeeded did so at every step, and what failed did so at one.

Main definitions and statements:

* `bind_eq_ok_iff`, `bind_eq_error_iff`: the steps of a sequence;
* `Ends`: something comes out;
* `Follows`, `SameOutcome`: related outcomes.
-/
import DefinitionTree.Failure
import Mathlib.Data.List.Basic

namespace DefinitionTree

/-! ### Steps -/

section Steps

variable {α β : Type} {x : Except Failure α} {a : α} {b : β} {f : Failure}

@[simp] theorem ok_bind (a : α) (p : α → Except Failure β) : (.ok a : Except Failure α) >>= p = p a :=
  rfl

@[simp] theorem error_bind (f : Failure) (p : α → Except Failure β) :
    (.error f : Except Failure α) >>= p = .error f := rfl

/-- A sequence succeeds if each of its steps does. -/
@[simp] theorem bind_eq_ok_iff {p : α → Except Failure β} :
    x >>= p = .ok b ↔ ∃ a, x = .ok a ∧ p a = .ok b := by
  rcases x with fault | a <;> simp

@[simp] theorem map_eq_ok_iff {p : α → β} : p <$> x = .ok b ↔ ∃ a, x = .ok a ∧ p a = b := by
  rcases x with fault | a <;> simp

/-- A sequence of two steps fails if the first step does, or the second one. -/
@[simp] theorem bind_eq_error_iff {p : α → Except Failure β} :
    x >>= p = .error f ↔ x = .error f ∨ ∃ a, x = .ok a ∧ p a = .error f := by
  rcases x with fault | a <;> simp

theorem bind_of_ok (h : x = .ok a) (p : α → Except Failure β) : x >>= p = p a := by
  rw [h, ok_bind]

end Steps

/-- Something of a kind comes out of a step and the next one if the next one makes it of
what the first one came to. -/
theorem exists_bind_iff {α β : Type} {x : Except Failure α} {f : α → Except Failure β}
    {P : β → Prop} : (∃ b, x >>= f = .ok b ∧ P b) ↔ ∃ a, x = .ok a ∧ ∃ b, f a = .ok b ∧ P b := by
  constructor
  · rintro ⟨b, eq, holds⟩
    obtain ⟨a, first, second⟩ := bind_eq_ok_iff.mp eq
    exact ⟨a, first, b, second, holds⟩
  · rintro ⟨a, first, b, second, holds⟩
    exact ⟨b, (bind_of_ok first f).trans second, holds⟩

/-- Of two steps that do not depend on each other both come to something. -/
theorem exists_both_iff {α β : Type} {x : Except Failure α} {y : Except Failure β}
    {P : α → Prop} {Q : β → Prop} : (∃ a, x = .ok a ∧ ∃ b, y = .ok b ∧ P a ∧ Q b) ↔
      (∃ a, x = .ok a ∧ P a) ∧ ∃ b, y = .ok b ∧ Q b := by
  constructor
  · rintro ⟨a, first, b, second, left, right⟩
    exact ⟨⟨a, first, left⟩, b, second, right⟩
  · rintro ⟨⟨a, first, left⟩, b, second, right⟩
    exact ⟨a, first, b, second, left, right⟩

/-- Two ways to go on need to agree only where there is something to go on with. -/
theorem bind_congr_ok {α β : Type} {x : Except Failure α} {f g : α → Except Failure β}
    (h : ∀ a, x = .ok a → f a = g a) : x >>= f = x >>= g := by
  rcases x with fault | a
  · rfl
  · exact h a rfl

/-- Nothing fails just if nothing fails on its own. -/
@[simp] theorem forM_eq_ok_iff {α : Type} {check : α → Except Failure Unit} {xs : List α} :
    xs.forM check = .ok () ↔ ∀ x ∈ xs, check x = .ok () := by
  induction xs with
  | nil => exact iff_of_true rfl nofun
  | cons x xs ih =>
    rw [List.forall_mem_cons, ← ih]
    show (check x >>= fun _ => xs.forM check) = _ ↔ _
    rcases check x with e | ⟨⟩
    · exact iff_of_false nofun fun both => nomatch both.1
    · exact (and_iff_right rfl).symm

/-- What is made of each item is made of all of them. -/
theorem mapM_eq_ok_map {α β : Type} {make : α → Except Failure β} (value : α → β) {xs : List α}
    (each : ∀ x ∈ xs, make x = .ok (value x)) : xs.mapM make = .ok (xs.map value) := by
  induction xs with
  | nil => rfl
  | cons x xs ih =>
    obtain ⟨here, there⟩ := List.forall_mem_cons.mp each
    rw [List.mapM_cons, here, ih there]
    rfl

/-- Where the items of one kind fail, all in the same way, and the others do not, the list
fails just if there is one of that kind. -/
theorem mapM_cases {α β : Type} {make : α → Except Failure β} (value : α → β) {f : Failure}
    {P : α → Prop} {xs : List α}
    (each : ∀ x ∈ xs, ¬P x ∧ make x = .ok (value x) ∨ P x ∧ make x = .error f) :
    (¬∃ x ∈ xs, P x) ∧ xs.mapM make = .ok (xs.map value) ∨
      (∃ x ∈ xs, P x) ∧ xs.mapM make = .error f := by
  induction xs with
  | nil => exact .inl ⟨by simp, rfl⟩
  | cons x xs ih =>
    obtain ⟨⟨good, here⟩ | ⟨bad, here⟩, there⟩ := List.forall_mem_cons.mp each
    · rw [List.mapM_cons, here, List.exists_mem_cons_iff, or_iff_right good]
      rcases ih there with ⟨good, eq⟩ | ⟨bad, eq⟩
      · exact .inl ⟨good, by rw [eq]; rfl⟩
      · exact .inr ⟨bad, by rw [eq]; rfl⟩
    · rw [List.mapM_cons, here]
      exact .inr ⟨⟨x, .head xs, bad⟩, rfl⟩

/-! ### Something comes out -/

/-- The outcome is no failure. -/
def Ends {α : Type} (x : Except Failure α) : Prop := ∃ a, x = .ok a

@[simp] theorem ends_ok {α : Type} (a : α) : Ends (.ok a) := ⟨a, rfl⟩

theorem Ends.bind {α β : Type} {x : Except Failure α} (h : Ends x) {p : α → Except Failure β}
    (next : ∀ a, Ends (p a)) : Ends (x >>= p) := by
  obtain ⟨a, rfl⟩ := h
  exact next a

theorem Ends.map {α β : Type} {x : Except Failure α} (h : Ends x) (p : α → β) :
    Ends (p <$> x) := by
  obtain ⟨a, rfl⟩ := h
  exact ⟨p a, rfl⟩

/-! ### Related outcomes -/

variable {α β : Type} {R : α → α → Prop} {S : β → β → Prop} {x y : Except Failure α}

/-- Where the first outcome is something, the second one is something related. -/
def Follows (R : α → α → Prop) (x y : Except Failure α) : Prop :=
  ∀ a, x = .ok a → ∃ b, y = .ok b ∧ R a b

/-- Both outcomes are failures, or both are something and these are related. -/
def SameOutcome (R : α → α → Prop) : Except Failure α → Except Failure α → Prop
  | .ok a, .ok b => R a b
  | .error _, .error _ => True
  | _, _ => False

theorem follows_ok {a b : α} (h : R a b) : Follows R (.ok a) (.ok b) := by
  rintro _ ⟨⟩
  exact ⟨b, rfl, h⟩

theorem Follows.bind (h : Follows R x y) {p q : α → Except Failure β}
    (next : ∀ a b, R a b → Follows S (p a) (q b)) : Follows S (x >>= p) (y >>= q) := by
  rcases x with e | a
  · rintro c ⟨⟩
  · obtain ⟨b, rfl, related⟩ := h a rfl
    exact next a b related

theorem Follows.map (h : Follows R x y) {p : α → β} (next : ∀ a b, R a b → S (p a) (p b)) :
    Follows S (p <$> x) (p <$> y) := by
  rcases x with e | a
  · rintro c ⟨⟩
  · obtain ⟨b, rfl, related⟩ := h a rfl
    exact follows_ok (next a b related)

/-- Whatever is known of the first result can be added. -/
theorem Follows.and_left (h : Follows R x y) {P : α → Prop} (known : ∀ a, x = .ok a → P a) :
    Follows (fun a b => R a b ∧ P a) x y := by
  intro a eq
  obtain ⟨b, there, related⟩ := h a eq
  exact ⟨b, there, related, known a eq⟩

/-- An outcome follows itself. -/
theorem follows_self (x : Except Failure α) : Follows (fun a b => x = .ok a ∧ a = b) x x :=
  fun a eq => ⟨a, eq, eq, rfl⟩

/-- Outcomes that follow each other fail together. -/
theorem SameOutcome.of_follows (h : Follows R x y) (back : Follows R y x) : SameOutcome R x y := by
  rcases x with e | a
  · rcases y with e' | b
    · trivial
    · obtain ⟨a, failed, -⟩ := back b rfl
      cases failed
  · obtain ⟨b, rfl, related⟩ := h a rfl
    exact related

theorem SameOutcome.mono {R' : α → α → Prop} (imp : ∀ a b, R a b → R' a b)
    (h : SameOutcome R x y) : SameOutcome R' x y := by
  rcases x with e | a <;> rcases y with e' | b
  · trivial
  · exact h
  · exact h
  · exact imp a b h

end DefinitionTree
