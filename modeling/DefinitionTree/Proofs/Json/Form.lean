/-
DefinitionTree/Proofs/Json/Form.lean

The canonical form as one recursion.

The canonical form is made in two steps: the entries of all mappings are sorted, and
then the tree is written without blanks.  Keys are sorted by their texts, so it makes
no difference whether an entry is sorted before or after it is written.  Hence each
tree can be written right away, once the trees in it are, and a mapping is its members
sorted by key.  What can go wrong is an integer that is too long, and nothing else.

Main definitions and statements:

* `Json.canonical`: the canonical form of a tree whose keys are texts;
* `Tree.HoldsLongInteger`: the trees that cannot be written;
* `Json.compact_sorted_cases`: the two steps give the same, or they fail.
-/
import DefinitionTree.Json.Writer
import DefinitionTree.Proofs.Outcome
import DefinitionTree.Proofs.Tree.Leaves
import DefinitionTree.Proofs.Tree.Reordering

namespace DefinitionTree

/-- The scalar is an integer with too many digits to be written. -/
def Tree.isLongInteger : Tree → Bool
  | .int n => !Numeral.isWritable n
  | _ => false

/-- Somewhere in the tree stands an integer with too many digits to be written. -/
def Tree.HoldsLongInteger (t : Tree) : Prop := t.Holds (·.isLongInteger = true)

namespace Json

/-! ### The recursion -/

/-- The text that a key is. -/
def keyName : Key → String
  | .text s => s
  | _ => ""

/-- A key and a value in a mapping. -/
def memberText (m : String × List Char) : List Char := string m.1 ++ ':' :: m.2

/-- Members sorted by key. -/
def byKey (ms : List (String × List Char)) : List (String × List Char) :=
  ms.mergeSort fun m n => m.1 ≤ n.1

/-- A list of values. -/
def bracketed (css : List (List Char)) : List Char := '[' :: (separated [','] css ++ [']'])

/-- A mapping with these members. -/
def braced (ms : List (String × List Char)) : List Char :=
  '{' :: (separated [','] (ms.map memberText) ++ ['}'])

mutual

/-- The canonical form of a tree whose keys are texts. -/
def canonical : Tree → List Char
  | .null => "null".toList
  | .bool b => (if b then "true" else "false").toList
  | .int n => Numeral.ofInt n
  | .float x => number x
  | .text s => string s
  | .ref id _ => braced [(refKey, string id.fullName)]
  | .list ts => bracketed (canonicalItems ts)
  | .map es => braced (byKey (members es))

/-- The canonical forms of a list's items. -/
def canonicalItems : List Tree → List (List Char)
  | [] => []
  | t :: ts => canonical t :: canonicalItems ts

/-- The members of a mapping, each with the canonical form of its value. -/
def members : Entries → List (String × List Char)
  | [] => []
  | (k, t) :: es => (keyName k, canonical t) :: members es

end

theorem canonicalItems_eq_map (ts : List Tree) : canonicalItems ts = ts.map canonical := by
  induction ts with
  | nil => rfl
  | cons t ts ih => rw [canonicalItems, ih, List.map_cons]

/-- The member that an entry becomes. -/
def member (e : Key × Tree) : String × List Char := (keyName e.1, canonical e.2)

theorem members_eq_map (es : Entries) : members es = es.map member := by
  induction es with
  | nil => rfl
  | cons e es ih =>
    rw [members, ih, List.map_cons]
    rfl

theorem byKey_perm (es : Entries) : (byKey (members es)).Perm (es.map member) := by
  rw [byKey, members_eq_map]
  exact List.mergeSort_perm _ _

/-! ### Sorting, then writing -/

theorem sortedItems_eq_map (ts : List Tree) : sortedItems ts = ts.map sorted := by
  induction ts with
  | nil => rfl
  | cons t ts ih => rw [sortedItems, ih, List.map_cons]

theorem sortedEntries_eq_map (es : Entries) :
    sortedEntries es = es.map fun e => (e.1, sorted e.2) := by
  induction es with
  | nil => rfl
  | cons e es ih => rw [sortedEntries, ih, List.map_cons]

theorem mergeSort_sortedEntries (es : Entries) : (sortedEntries es).mergeSort keyLe =
    (es.mergeSort keyLe).map fun e => (e.1, sorted e.2) := by
  rw [sortedEntries_eq_map]
  refine (List.map_mergeSort fun e _ e' _ => ?_).symm
  rfl

/-- Keys are compared by their texts, so sorting entries is sorting members. -/
theorem byKey_members {es : Entries} (keys : ∀ k ∈ keysOf es, ∃ s, k = .text s) :
    byKey (members es) = (es.mergeSort keyLe).map member := by
  rw [byKey, members_eq_map]
  refine (List.map_mergeSort fun e mem e' mem' => ?_).symm
  obtain ⟨s, eq⟩ := keys e.1 (mem_keysOf mem)
  obtain ⟨s', eq'⟩ := keys e'.1 (mem_keysOf mem')
  rw [keyLe, member, member, eq, eq']
  rfl

theorem compactItems_eq_mapM (ts : List Tree) : compactItems ts = ts.mapM compact := by
  induction ts with
  | nil => rfl
  | cons t ts ih =>
    rw [compactItems, ih, List.mapM_cons]

/-- An entry without blanks. -/
def compactEntry (e : Key × Tree) : Except Failure (List Char) := do
  let k ← key e.1
  let t ← compact e.2
  return k ++ ':' :: t

theorem compactEntries_eq_mapM (es : Entries) : compactEntries es = es.mapM compactEntry := by
  induction es with
  | nil => rfl
  | cons e es ih =>
    rw [compactEntries, ih, List.mapM_cons, compactEntry]
    rcases key e.1 with f | k
    · rfl
    · rcases compact e.2 with f | cs <;> rfl

/-- Sorting the entries of all mappings and then writing the tree gives its canonical
form, or fails on an integer that is too long. -/
theorem compact_sorted_cases {t : Tree} (texts : t.HasTextKeys) :
    ¬t.HoldsLongInteger ∧ compact (sorted t) = .ok (canonical t) ∨
      t.HoldsLongInteger ∧ compact (sorted t) = .error .integerUnwritable := by
  induction t using Tree.induct with
  | leaf t scalar =>
    rw [Tree.HoldsLongInteger, Tree.holds_leaf_iff scalar]
    cases t with
    | list => cases scalar
    | map => cases scalar
    | ref id target =>
      refine .inl ⟨nofun, ?_⟩
      rw [sorted, compact, canonical, braced]
      · simp [separated, memberText]
      all_goals simp
    | int n =>
      have written : compact (sorted (.int n)) = integer n := rfl
      rw [written, integer, Tree.isLongInteger]
      cases Numeral.isWritable n with
      | true => exact .inl ⟨nofun, rfl⟩
      | false => exact .inr ⟨rfl, rfl⟩
    | _ => exact .inl ⟨nofun, rfl⟩
  | list ts ih =>
    have written : compact (sorted (.list ts)) = bracketed <$> ts.mapM (compact ∘ sorted) := by
      rw [sorted, sortedItems_eq_map, compact, compactItems_eq_mapM, List.mapM_map]
      rfl
    rw [written, Tree.HoldsLongInteger, Tree.holds_list_iff, canonical, canonicalItems_eq_map]
    rcases mapM_cases canonical fun t mem => ih t mem fun es inside =>
      texts es (.item mem inside) with ⟨short, eq⟩ | ⟨long, eq⟩
    · exact .inl ⟨short, congrArg (bracketed <$> ·) eq⟩
    · exact .inr ⟨long, congrArg (bracketed <$> ·) eq⟩
  | map es ih =>
    have keys := (texts es (.self _)).texts
    have perm : (es.mergeSort keyLe).Perm es := List.mergeSort_perm _ _
    have written : compact (sorted (.map es)) =
        (fun css => '{' :: (separated [','] css ++ ['}'])) <$>
          (es.mergeSort keyLe).mapM fun e => compactEntry (e.1, sorted e.2) := by
      rw [sorted, mergeSort_sortedEntries, compact, compactEntries_eq_mapM, List.mapM_map]
      rfl
    have cases (e : Key × Tree) (mem : e ∈ es.mergeSort keyLe) :
        ¬e.2.HoldsLongInteger ∧
            compactEntry (e.1, sorted e.2) = .ok (memberText (member e)) ∨
          e.2.HoldsLongInteger ∧
            compactEntry (e.1, sorted e.2) = .error .integerUnwritable := by
      have mem := perm.mem_iff.mp mem
      obtain ⟨s, eq⟩ := keys e.1 (mem_keysOf mem)
      rw [compactEntry, member, eq]
      rcases ih e mem fun fs inside => texts fs (.entry mem inside) with
        ⟨short, here⟩ | ⟨long, here⟩
      · exact .inl ⟨short, by rw [here]; rfl⟩
      · exact .inr ⟨long, by rw [here]; rfl⟩
    rw [written, Tree.HoldsLongInteger, Tree.holds_map_iff, canonical, braced,
      byKey_members keys, List.map_map]
    rcases mapM_cases _ cases with ⟨short, eq⟩ | ⟨long, eq⟩
    · rw [eq]
      exact .inl ⟨fun ⟨e, mem, long⟩ => short ⟨e, perm.mem_iff.mpr mem, long⟩, rfl⟩
    · rw [eq]
      obtain ⟨e, mem, long⟩ := long
      exact .inr ⟨⟨e, perm.mem_iff.mp mem, long⟩, rfl⟩

end Json

end DefinitionTree
