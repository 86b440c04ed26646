/-
DefinitionTree/Canonical/Walk.lean

Walking a tree from the top down.

A visitor looks at one value at a time, with its declared type and its place,
and says what stands there instead.  The walk then goes on into that, entry by
entry and item by item, and leaves out what came out empty.

A visitor may nest and rename as it likes, as long as what it puts there holds
less than the whole value it was shown.  That is why the walk ends.
-/
import DefinitionTree.Canonical.Place
import DefinitionTree.Journal

namespace DefinitionTree

open DefinitionTree.Tree

/-- The size of what a list or a mapping holds. -/
def Tree.content : Tree → Nat
  | .list ts => sizeItems ts
  | .map es => sizeEntries es
  | _ => 0

/-- What stands in place of a value, and a proof that it holds less. -/
structure Visitor where
  visit : Option TypeRef → ElementId → Tree → Journal Tree
  content_lt : ∀ type place t u, (visit type place t).outcome = .ok u → u.content < t.size

namespace Visitor

mutual

/-- Visits a value and everything that then stands in it. -/
def walk (v : Visitor) (g : Graph) (type : Option TypeRef) (place : ElementId) (t : Tree) :
    Journal Tree :=
  let seen := v.visit type place t
  -- what was noted on the way is kept, whatever comes of it
  match h : seen.outcome with
  | .error e => ⟨seen.notes, .error e⟩
  | .ok (.list ts) =>
    have : content (list ts) < t.size := v.content_lt _ _ _ _ h
    let inner := v.walkItems g (Graph.itemType type) place 0 ts
    ⟨seen.notes ++ inner.notes, list <$> inner.outcome⟩
  | .ok (.map es) =>
    have : content (map es) < t.size := v.content_lt _ _ _ _ h
    let inner := v.walkEntries g type place es
    ⟨seen.notes ++ inner.notes, map <$> inner.outcome⟩
  | .ok u => ⟨seen.notes, .ok u⟩
termination_by 2 * t.size
decreasing_by all_goals simp only [content] at this; omega

/-- Walks a list's items, from an index on. -/
def walkItems (v : Visitor) (g : Graph) (type : Option TypeRef) (place : ElementId)
    (index : Nat) (ts : List Tree) : Journal (List Tree) :=
  match ts with
  | [] => return []
  | t :: rest => do
    let u ← v.walk g type (place.item index) t
    let us ← v.walkItems g type place (index + 1) rest
    return if u.isEmpty then us else u :: us
termination_by 2 * sizeItems ts + 1
decreasing_by
  all_goals
    have := size_pos t
    simp only [sizeItems]
    omega

/-- Walks a mapping's entries; `type` is the type of the mapping. -/
def walkEntries (v : Visitor) (g : Graph) (type : Option TypeRef) (place : ElementId)
    (es : Entries) : Journal Entries :=
  match es with
  | [] => return []
  | (k, t) :: rest => do
    let u ← v.walk g (g.fieldType type k) (place.entry k) t
    let us ← v.walkEntries g type place rest
    return if u.isEmpty then us else (k, u) :: us
termination_by 2 * sizeEntries es + 1
decreasing_by
  all_goals
    have := size_pos t
    simp only [sizeEntries]
    omega

end

/-! ### The outcome of a walk

Notes aside, a walk is the visit and then the walk of what stands there. -/

theorem outcome_walk (v : Visitor) (g : Graph) (type : Option TypeRef) (place : ElementId)
    (t : Tree) :
    (v.walk g type place t).outcome = (v.visit type place t).outcome >>= fun u =>
      match u with
      | .list ts => list <$> (v.walkItems g (Graph.itemType type) place 0 ts).outcome
      | .map es => map <$> (v.walkEntries g type place es).outcome
      | u => .ok u := by
  rw [walk]
  split
  · rename_i e h
    simp only [h]
    rfl
  · rename_i ts h
    simp only [h]
    rfl
  · rename_i es h
    simp only [h]
    rfl
  · rename_i u hl hm h
    simp only [h]
    cases u with
    | list ts => exact absurd rfl (hl ts)
    | map es => exact absurd rfl (hm es)
    | _ => rfl

theorem walkItems_nil (v : Visitor) (g : Graph) (type : Option TypeRef) (place : ElementId)
    (index : Nat) : (v.walkItems g type place index []).outcome = .ok [] := by
  rw [walkItems]
  rfl

theorem outcome_walkItems_cons (v : Visitor) (g : Graph) (type : Option TypeRef)
    (place : ElementId) (index : Nat) (t : Tree) (rest : List Tree) :
    (v.walkItems g type place index (t :: rest)).outcome = do
      let u ← (v.walk g type (place.item index) t).outcome
      let us ← (v.walkItems g type place (index + 1) rest).outcome
      return if u.isEmpty then us else u :: us := by
  rw [walkItems]
  simp only [Journal.outcome_bind, Journal.outcome_pure]
  rfl

theorem walkEntries_nil (v : Visitor) (g : Graph) (type : Option TypeRef)
    (place : ElementId) : (v.walkEntries g type place []).outcome = .ok [] := by
  rw [walkEntries]
  rfl

theorem outcome_walkEntries_cons (v : Visitor) (g : Graph) (type : Option TypeRef)
    (place : ElementId) (k : Key) (t : Tree) (rest : Entries) :
    (v.walkEntries g type place ((k, t) :: rest)).outcome = do
      let u ← (v.walk g (g.fieldType type k) (place.entry k) t).outcome
      let us ← (v.walkEntries g type place rest).outcome
      return if u.isEmpty then us else (k, u) :: us := by
  rw [walkEntries]
  simp only [Journal.outcome_bind, Journal.outcome_pure]
  rfl

end Visitor

end DefinitionTree
