/-
DefinitionTree/Tree/Basic.lean

Value trees.

A tree is a scalar, a reference to a place inside an element, a list of
trees, or a mapping whose entries stand in a definite order.  Definitions are
trees both as the wire holds them and in canonical form; the two differ in
their shape, not in their type.

Keys are mostly texts, but a tag of any scalar kind becomes a key when a
union is taken apart, so keys are scalars.  Two keys are the same key if they
denote the same number, whatever its kind, or are equal otherwise.

A reference carries the value it resolved to.  That value is not part of what
the reference is: it is neither compared nor written.
-/
import DefinitionTree.Element.Id
import DefinitionTree.Number.Binary64

namespace DefinitionTree

/-! ### Keys -/

/-- A key of a mapping. -/
inductive Key where
  | null
  | bool (b : Bool)
  | int (n : Int)
  | float (x : Binary64)
  | text (s : String)
  | ref (id : ElementId)
deriving DecidableEq, Repr, Inhabited

namespace Key

/-- What a key is compared by: numbers by their value. -/
inductive Identity where
  | null
  | number (q : Rat)
  | special (x : Binary64)
  | text (s : String)
  | ref (id : ElementId)
deriving DecidableEq

/-- The identity of a key.  The truth values count as one and zero. -/
def identity : Key → Identity
  | .null => .null
  | .bool b => .number (if b then 1 else 0)
  | .int n => .number n
  | .float x => match x.toRat? with
    | some q => .number q
    | none => .special x
  | .text s => .text s
  | .ref id => .ref id

/-- The two keys name the same entry. -/
def same (a b : Key) : Bool := a.identity = b.identity

@[simp] theorem same_self (k : Key) : k.same k = true := by simp [same]

theorem same_comm (a b : Key) : a.same b = b.same a := by
  simp [same, eq_comm]

@[simp] theorem same_text_iff {k : Key} {s : String} : k.same (.text s) = true ↔ k = .text s := by
  constructor
  · intro h
    have e : k.identity = .text s := of_decide_eq_true h
    cases k with
    | text t => simpa [identity] using e
    | float x =>
      rcases hx : x.toRat? with _ | q <;> simp [identity, hx] at e
    | _ => simp [identity] at e
  · rintro rfl
    simp

end Key

/-! ### Trees -/

/-- A value tree. -/
inductive Tree where
  | null
  | bool (b : Bool)
  | int (n : Int)
  | float (x : Binary64)
  | text (s : String)
  | ref (id : ElementId) (target : Tree)
  | list (items : List Tree)
  | map (entries : List (Key × Tree))
deriving Repr, Inhabited

/-- The entries of a mapping, in order. -/
abbrev Entries := List (Key × Tree)

namespace Tree

/-- The tree as a key, if it is a scalar or a reference. -/
def key? : Tree → Option Key
  | .null => some .null
  | .bool b => some (.bool b)
  | .int n => some (.int n)
  | .float x => some (.float x)
  | .text s => some (.text s)
  | .ref id _ => some (.ref id)
  | .list _ => none
  | .map _ => none

/-- The scalar or reference that a key is. -/
def ofKey : Key → Tree
  | .null => .null
  | .bool b => .bool b
  | .int n => .int n
  | .float x => .float x
  | .text s => .text s
  | .ref id => .ref id .null

/-- Nothing: null, no items, or no entries. -/
def isEmpty : Tree → Bool
  | .null => true
  | .list items => items.isEmpty
  | .map entries => entries.isEmpty
  | _ => false

/-- Whether a tree counts as present where a condition asks for it: not
nothing, not false, not zero and not the empty text. -/
def isTruthy : Tree → Bool
  | .null => false
  | .bool b => b
  | .int n => n ≠ 0
  | .float x => x.isNonzero
  | .text s => s ≠ ""
  | .ref _ _ => true
  | .list items => !items.isEmpty
  | .map entries => !entries.isEmpty

/-- The tree is a mapping. -/
def isMap : Tree → Bool
  | .map _ => true
  | _ => false

/-- The entries of a mapping. -/
def entries? : Tree → Option Entries
  | .map entries => some entries
  | _ => none

/-! ### Size

Scalars and references count one and every list or mapping two more than what
it holds, so that a scalar is smaller than any container. -/

mutual

/-- The size of a tree. -/
def size : Tree → Nat
  | .list items => 2 + sizeItems items
  | .map entries => 2 + sizeEntries entries
  | _ => 1

/-- The size of a list's items together. -/
def sizeItems : List Tree → Nat
  | [] => 0
  | t :: rest => t.size + sizeItems rest

/-- The size of a mapping's values together. -/
def sizeEntries : Entries → Nat
  | [] => 0
  | (_, t) :: rest => t.size + sizeEntries rest

end

theorem size_pos (t : Tree) : 0 < t.size := by
  cases t with
  | list items =>
    rw [size]
    omega
  | map entries =>
    rw [size]
    omega
  | _ => exact Nat.one_pos

end Tree

/-! ### Entries -/

namespace Entries

/-- The value of a key. -/
def get? (k : Key) : Entries → Option Tree
  | [] => none
  | (k', t) :: rest => if k'.same k then some t else get? k rest

/-- The value of a text key. -/
abbrev field? (name : String) (es : Entries) : Option Tree := get? (.text name) es

/-- The key is there. -/
def has (k : Key) (es : Entries) : Bool := (get? k es).isSome

/-- Sets the value of a key.  A key that is there keeps its place, a new one
goes to the end. -/
def set (k : Key) (t : Tree) : Entries → Entries
  | [] => [(k, t)]
  | (k', t') :: rest => if k'.same k then (k', t) :: rest else (k', t') :: set k t rest

/-- Sets every entry of the second list in the first. -/
def overlay (es : Entries) : Entries → Entries
  | [] => es
  | (k, t) :: rest => overlay (set k t es) rest

/-- The entries whose key is none of these. -/
def without (ks : List Key) (es : Entries) : Entries :=
  es.filter fun e => !ks.any fun k => k.same e.1

/-- The entries without one text key. -/
abbrev dropField (name : String) (es : Entries) : Entries := without [.text name] es

/-! ### Sizes of entries -/

open DefinitionTree.Tree in
theorem size_of_get? {k : Key} {es : Entries} {t : Tree} (h : get? k es = some t) :
    t.size ≤ sizeEntries es := by
  induction es with
  | nil => simp [get?] at h
  | cons e rest ih =>
    obtain ⟨k', u⟩ := e
    simp only [get?] at h
    split at h
    · simp only [Option.some.injEq] at h
      subst h
      simp only [sizeEntries]
      omega
    · have := ih h
      simp only [sizeEntries]
      omega

open DefinitionTree.Tree in
theorem sizeEntries_set_le (k : Key) (t : Tree) (es : Entries) :
    sizeEntries (set k t es) ≤ t.size + sizeEntries es := by
  induction es with
  | nil => simp [set, sizeEntries]
  | cons e rest ih =>
    obtain ⟨k', u⟩ := e
    simp only [set]
    split <;> simp only [sizeEntries] <;> omega

open DefinitionTree.Tree in
theorem sizeEntries_overlay_le (es fs : Entries) :
    sizeEntries (overlay es fs) ≤ sizeEntries es + sizeEntries fs := by
  induction fs generalizing es with
  | nil => simp [overlay, sizeEntries]
  | cons e rest ih =>
    obtain ⟨k, t⟩ := e
    have := ih (set k t es)
    have := sizeEntries_set_le k t es
    simp only [overlay, sizeEntries]
    omega

open DefinitionTree.Tree in
theorem sizeEntries_filter_le (p : Key × Tree → Bool) (es : Entries) :
    sizeEntries (es.filter p) ≤ sizeEntries es := by
  induction es with
  | nil => simp
  | cons e rest ih =>
    obtain ⟨k, t⟩ := e
    rw [List.filter_cons]
    split <;> simp only [sizeEntries] <;> omega

open DefinitionTree.Tree in
theorem sizeEntries_without_le (ks : List Key) (es : Entries) :
    sizeEntries (without ks es) ≤ sizeEntries es :=
  sizeEntries_filter_le _ es

theorem without_cons_of_same {k k' : Key} (h : k'.same k = true) (t : Tree) (es : Entries) :
    without [k] ((k', t) :: es) = without [k] es := by
  simp [without, Key.same_comm k k', h]

theorem without_cons_of_not_same {k k' : Key} (h : ¬k'.same k = true) (t : Tree) (es : Entries) :
    without [k] ((k', t) :: es) = (k', t) :: without [k] es := by
  simp [without, Key.same_comm k k', h]

open DefinitionTree.Tree in
/-- Taking an entry out makes the rest smaller by at least that entry. -/
theorem sizeEntries_without_add_le {k : Key} {es : Entries} {t : Tree}
    (h : get? k es = some t) : sizeEntries (without [k] es) + t.size ≤ sizeEntries es := by
  induction es with
  | nil => simp [get?] at h
  | cons e rest ih =>
    obtain ⟨k', u⟩ := e
    simp only [get?] at h
    by_cases hk : k'.same k = true
    · obtain rfl : u = t := by simpa [hk] using h
      have := sizeEntries_without_le [k] rest
      rw [without_cons_of_same hk]
      simp only [sizeEntries]
      omega
    · have := ih (by simpa [hk] using h)
      rw [without_cons_of_not_same hk]
      simp only [sizeEntries]
      omega

end Entries

end DefinitionTree
