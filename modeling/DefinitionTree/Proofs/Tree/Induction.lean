/-
DefinitionTree/Proofs/Tree/Induction.lean

Induction over trees.

What holds of scalars and references, of a list if it holds of its items, and of
a mapping if it holds of its values, holds of every tree.  Where a value is taken
apart in another way than it was put together, the induction is on its size
instead, and what a list or a mapping holds is no larger than all of it.
-/
import DefinitionTree.Tree.Basic

namespace DefinitionTree.Tree

/-- Induction over a tree by what it holds.  A tree without a key of its own is a
list or a mapping. -/
@[elab_as_elim]
theorem induct {P : Tree → Prop} (leaf : ∀ t : Tree, t.key?.isSome = true → P t)
    (list : ∀ ts : List Tree, (∀ t ∈ ts, P t) → P (.list ts))
    (map : ∀ es : Entries, (∀ e ∈ es, P e.2) → P (.map es)) (t : Tree) : P t := by
  refine @Tree.rec P (fun ts => ∀ t ∈ ts, P t) (fun es => ∀ e ∈ es, P e.2) (fun e => P e.2)
    (leaf _ rfl) (fun _ => leaf _ rfl) (fun _ => leaf _ rfl) (fun _ => leaf _ rfl)
    (fun _ => leaf _ rfl) (fun _ _ _ => leaf _ rfl) list map ?_ ?_ ?_ ?_ ?_ t
  · rintro t ⟨⟩
  · intro t ts ht hts u hu
    rcases List.mem_cons.mp hu with rfl | hu
    · exact ht
    · exact hts u hu
  · rintro e ⟨⟩
  · intro e es he hes f hf
    rcases List.mem_cons.mp hf with rfl | hf
    · exact he
    · exact hes f hf
  · intro _ t ht
    exact ht

theorem isMap_leaf {t : Tree} (scalar : t.key?.isSome = true) : t.isMap = false := by
  cases t with
  | map => cases scalar
  | _ => rfl

theorem ne_list_leaf {t : Tree} (scalar : t.key?.isSome = true) (ts : List Tree) : t ≠ .list ts := by
  rintro rfl
  cases scalar

/-- The first tree is the second one, or stands somewhere in it. -/
inductive IsIn : Tree → Tree → Prop
  | self (t : Tree) : IsIn t t
  | item {t u : Tree} {ts : List Tree} : u ∈ ts → IsIn t u → IsIn t (.list ts)
  | entry {t : Tree} {e : Key × Tree} {es : Entries} : e ∈ es → IsIn t e.2 → IsIn t (.map es)

theorem IsIn.trans {t u v : Tree} (h : t.IsIn u) (h' : u.IsIn v) : t.IsIn v := by
  induction h' with
  | self => exact h
  | item mem _ ih => exact .item mem ih
  | entry mem _ ih => exact .entry mem ih

theorem eq_text_of_key? {t : Tree} {s : String} (h : t.key? = some (.text s)) : t = .text s := by
  cases t with
  | text s' => simpa [key?] using h
  | _ => simp [key?] at h

/-! ### Sizes -/

theorem size_le_sizeItems {t : Tree} {ts : List Tree} (h : t ∈ ts) : t.size ≤ sizeItems ts := by
  induction ts with
  | nil => cases h
  | cons u ts ih =>
    rw [sizeItems]
    rcases List.mem_cons.mp h with rfl | h
    · omega
    · have := ih h
      omega

theorem size_le_sizeEntries {e : Key × Tree} {es : Entries} (h : e ∈ es) :
    e.2.size ≤ sizeEntries es := by
  induction es with
  | nil => cases h
  | cons f es ih =>
    obtain ⟨k, t⟩ := f
    rw [sizeEntries]
    rcases List.mem_cons.mp h with rfl | h
    · exact Nat.le_add_right ..
    · have := ih h
      omega

/-- A list is larger than each of its items. -/
theorem size_lt_of_mem_list {t : Tree} {ts : List Tree} (h : t ∈ ts) : t.size < (list ts).size := by
  have := size_le_sizeItems h
  rw [size]
  omega

/-- A mapping is larger than each value of its entries, and of entries that took their
place and are larger by one at most. -/
theorem size_lt_of_mem_map {e : Key × Tree} {es fs : Entries} (h : e ∈ fs)
    (le : sizeEntries fs ≤ sizeEntries es + 1) : e.2.size < (map es).size := by
  have := size_le_sizeEntries h
  rw [size]
  omega

end DefinitionTree.Tree
