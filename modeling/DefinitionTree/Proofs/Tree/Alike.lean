/-
DefinitionTree/Proofs/Tree/Alike.lean

Equality up to the order of keys.

Two trees are alike if they differ in nothing but the order of the entries of
their mappings, at whatever level: the items of lists stand in the same order,
and scalars are the same, with their kind.

Main statements:

* `Tree.Alike.refl`: a tree is like itself;
* `Tree.alike_of_perm`: entries in another order make a mapping that is alike;
* `Tree.Alike.length_eq`: mappings that are alike have equally many entries.
-/
import DefinitionTree.Tree.Basic
import Mathlib.Data.List.Forall2

namespace DefinitionTree.Tree

mutual

/-- The second tree is the first one up to the order of keys. -/
def Alike : Tree → Tree → Prop
  | .list ts, u => ∃ us, u = .list us ∧ AlikeItems ts us
  | .map es, u => ∃ gs, u = .map gs ∧ ∃ fs, gs.Perm fs ∧ AlikeEntries es fs
  | t, u => u = t

/-- The two lists are alike item by item. -/
def AlikeItems : List Tree → List Tree → Prop
  | [], us => us = []
  | t :: ts, us => ∃ v vs, us = v :: vs ∧ t.Alike v ∧ AlikeItems ts vs

/-- The two mappings have the same keys in the same order and are alike entry
by entry. -/
def AlikeEntries : Entries → Entries → Prop
  | [], fs => fs = []
  | (k, t) :: es, fs => ∃ v gs, fs = (k, v) :: gs ∧ t.Alike v ∧ AlikeEntries es gs

end

mutual

/-- A tree is like itself. -/
theorem Alike.refl : ∀ t : Tree, t.Alike t
  | .list ts => ⟨ts, rfl, AlikeItems.refl ts⟩
  | .map es => ⟨es, rfl, es, .refl es, AlikeEntries.refl es⟩
  | .null => rfl
  | .bool _ => rfl
  | .int _ => rfl
  | .float _ => rfl
  | .text _ => rfl
  | .ref _ _ => rfl

theorem AlikeItems.refl : ∀ ts : List Tree, AlikeItems ts ts
  | [] => rfl
  | t :: ts => ⟨t, ts, rfl, Alike.refl t, AlikeItems.refl ts⟩

theorem AlikeEntries.refl : ∀ es : Entries, AlikeEntries es es
  | [] => rfl
  | (_, t) :: es => ⟨t, es, rfl, Alike.refl t, AlikeEntries.refl es⟩

end

/-- Lists are alike whose items are. -/
theorem alikeItems_of_forall₂ {ts us : List Tree} (h : List.Forall₂ Alike ts us) :
    AlikeItems ts us := by
  induction h with
  | nil => rfl
  | cons here _ ih => exact ⟨_, _, rfl, here, ih⟩

/-- Entries are alike whose keys are the same and whose values are alike. -/
theorem alikeEntries_of_forall₂ {es fs : Entries}
    (h : List.Forall₂ (fun e f => e.1 = f.1 ∧ e.2.Alike f.2) es fs) : AlikeEntries es fs := by
  induction h with
  | nil => rfl
  | @cons e f es fs here _ ih =>
    obtain ⟨k, t⟩ := e
    obtain ⟨k', w⟩ := f
    obtain ⟨rfl, alike⟩ := here
    exact ⟨w, fs, rfl, alike, ih⟩

/-- Entries in another order make a mapping that is alike. -/
theorem alike_of_perm {es fs : Entries} (h : fs.Perm es) : (map es).Alike (.map fs) :=
  ⟨fs, rfl, es, h, AlikeEntries.refl es⟩

theorem length_of_alikeEntries {es fs : Entries} (h : AlikeEntries es fs) :
    fs.length = es.length := by
  induction es generalizing fs with
  | nil =>
    cases h
    rfl
  | cons e es ih =>
    obtain ⟨v, gs, rfl, -, rest⟩ := h
    exact congrArg (· + 1) (ih rest)

/-- Mappings that are alike have equally many entries. -/
theorem Alike.length_eq {es fs : Entries} (h : (map es).Alike (.map fs)) :
    fs.length = es.length := by
  obtain ⟨gs, eq, hs, order, alike⟩ := h
  cases eq
  rw [order.length_eq, length_of_alikeEntries alike]

end DefinitionTree.Tree
