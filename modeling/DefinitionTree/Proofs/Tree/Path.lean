/-
DefinitionTree/Proofs/Tree/Path.lean

Paths through trees.

A path goes down from a tree to what stands somewhere in it, by indices of lists
and keys of mappings.  Where the keys are distinct texts a path leads to
everything that stands in the tree.  Keys of other kinds have paths of their own, of
branches.

Main definitions and statements:

* `Tree.at?`, `Tree.reach?`: what stands at the end of a path;
* `Tree.shiftedPath`: a path once absent items are left out;
* `Tree.isIn_of_at?`, `Tree.exists_at?_of_isIn`: what paths lead to.
-/
import DefinitionTree.Proofs.Tree.Reordering

namespace DefinitionTree.Tree

/-- A step down: to an item of a list, or to what stands under a key of a
mapping. -/
inductive Step where
  | item (index : Nat)
  | entry (name : String)
deriving DecidableEq, Repr

/-- What stands one step down. -/
def child? (t : Tree) (step : Step) : Option Tree :=
  match step, t with
  | .item index, .list ts => ts[index]?
  | .entry name, .map es => Entries.get? (.text name) es
  | _, _ => none

/-- What stands at the end of a path. -/
def at? (t : Tree) : List Step → Option Tree
  | [] => some t
  | step :: path => (t.child? step).bind fun u => u.at? path

variable {t u : Tree} {step : Step} {path : List Step}

theorem at?_cons_of_child? (h : t.child? step = some u) : t.at? (step :: path) = u.at? path := by
  rw [at?, h]
  rfl

theorem isIn_of_child? (h : t.child? step = some u) : u.IsIn t := by
  cases step with
  | item index =>
    cases t with
    | list ts => exact .item (List.mem_of_getElem? h) (.self u)
    | _ => cases h
  | entry name =>
    cases t with
    | map es => exact .entry (Entries.mem_of_get? h) (.self u)
    | _ => cases h

/-- What stands at the end of a path stands in the tree. -/
theorem isIn_of_at? (h : t.at? path = some u) : u.IsIn t := by
  induction path generalizing t with
  | nil =>
    cases h
    exact .self u
  | cons step path ih =>
    obtain ⟨v, down, rest⟩ := Option.bind_eq_some_iff.mp h
    exact (ih rest).trans (isIn_of_child? down)

/-- A path leads to whatever stands in a tree whose keys are distinct texts. -/
theorem exists_at?_of_isIn (inside : u.IsIn t) (texts : t.HasTextKeys) :
    ∃ path, t.at? path = some u := by
  induction inside with
  | self => exact ⟨[], rfl⟩
  | item mem _ ih =>
    obtain ⟨path, rest⟩ := ih fun es there => texts es (.item mem there)
    obtain ⟨index, there⟩ := List.mem_iff_getElem?.mp mem
    have down : (Tree.list _).child? (.item index) = some _ := there
    exact ⟨.item index :: path, (at?_cons_of_child? down).trans rest⟩
  | @entry e es mem _ ih =>
    obtain ⟨path, rest⟩ := ih fun es there => texts es (.entry mem there)
    obtain ⟨k, v⟩ := e
    have keys := texts es (.self _)
    obtain ⟨name, rfl⟩ := keys.texts k (mem_keysOf mem)
    have down : (Tree.map es).child? (.entry name) = some v :=
      Entries.get?_of_mem keys.distinct mem
    exact ⟨.entry name :: path, (at?_cons_of_child? down).trans rest⟩

/-! ### Paths under keys of any kind -/

/-- A step down to an item of a list, or to what stands under a key of any kind. -/
inductive Branch where
  | item (index : Nat)
  | value (k : Key)
deriving DecidableEq, Repr

/-- What stands one branch down. -/
def branch? (t : Tree) (branch : Branch) : Option Tree :=
  match branch, t with
  | .item index, .list ts => ts[index]?
  | .value k, .map es => es.lookup k
  | _, _ => none

/-- What stands at the end of a path of branches. -/
def reach? (t : Tree) : List Branch → Option Tree
  | [] => some t
  | branch :: path => (t.branch? branch).bind fun u => u.reach? path

/-- The branch to the same value once absent items are left out: an item moves up by
as many as are absent before it. -/
def shifted (t : Tree) (branch : Branch) : Branch :=
  match branch, t with
  | .item index, .list ts => .item ((ts.take index).countP fun u => u.key? ≠ some .null)
  | branch, _ => branch

/-- The path to the same value once absent items are left out at every level. -/
def shiftedPath (t : Tree) : List Branch → List Branch
  | [] => []
  | branch :: path =>
    t.shifted branch :: ((t.branch? branch).elim path fun u => u.shiftedPath path)

theorem reach?_cons_of_branch? {branch : Branch} {path : List Branch}
    (h : t.branch? branch = some u) : t.reach? (branch :: path) = u.reach? path := by
  rw [reach?, h]
  rfl

theorem shiftedPath_cons_of_branch? {branch : Branch} {path : List Branch}
    (h : t.branch? branch = some u) :
    t.shiftedPath (branch :: path) = t.shifted branch :: u.shiftedPath path := by
  rw [shiftedPath, h]
  rfl

/-- A path leads through nothing absent. -/
theorem key?_ne_null_of_reach? {path : List Branch} (h : t.reach? path = some u)
    (some_ : u.key? ≠ some .null) : t.key? ≠ some .null := by
  cases path with
  | nil =>
    cases h
    exact some_
  | cons branch path =>
    cases t with
    | null => cases branch <;> cases h
    | _ => nofun

end DefinitionTree.Tree
