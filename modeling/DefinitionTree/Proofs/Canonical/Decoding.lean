/-
DefinitionTree/Proofs/Canonical/Decoding.lean

What normalizing gives, shape by shape.

`Normalizer.Gives` says what becomes of a value of a type, wherever that type
counts.  There is one rule for each shape of the wire, and each of them speaks
of what stands inside by the same relation, so that the outcome of a whole
definition is put together from the outcomes of its parts.

Main statements:

* `Normalizer.outcome_walk`: normalizing is decoding, and then normalizing what
  stands there;
* `Normalizer.givesEntries_cons`, `Normalizer.givesEntries_of_forall₂`: a mapping,
  entry by entry;
* `Normalizer.outcome_decode_untagged`, `Normalizer.outcome_decode_dropped`,
  `Normalizer.outcome_decode_nested`, `Normalizer.outcome_decode_exposed`: what
  mappings are decoded to;
* `Normalizer.gives_plain`, `Normalizer.gives_dropped`,
  `Normalizer.gives_nested`, `Normalizer.gives_exposed`: mappings without and
  with a tag;
* `Normalizer.gives_error`: a tag that is no scalar is an error.
-/
import DefinitionTree.Canonical.Normalization
import DefinitionTree.Proofs.Canonical.Place
import DefinitionTree.Proofs.Outcome
import DefinitionTree.Proofs.Tree.Keys

namespace DefinitionTree

/-! ### Collecting outcomes -/

/-- The entries that come of outcomes under keys; empty ones are left out. -/
def collect : List (Key × Except Failure Tree) → Except Failure Entries
  | [] => .ok []
  | (k, x) :: rest => do
    let u ← x
    let us ← collect rest
    return if u.isEmpty then us else (k, u) :: us

/-- The items that come of outcomes; empty ones are left out. -/
def collectItems : List (Except Failure Tree) → Except Failure (List Tree)
  | [] => .ok []
  | x :: rest => do
    let u ← x
    let us ← collectItems rest
    return if u.isEmpty then us else u :: us

/-- Outcomes that are all there give what of them is not empty. -/
theorem collect_ok (ys : Entries) :
    collect (ys.map fun e => (e.1, .ok e.2)) = .ok (ys.filter fun e => !e.2.isEmpty) := by
  induction ys with
  | nil => rfl
  | cons e ys ih =>
    obtain ⟨k, u⟩ := e
    rw [List.map_cons, collect, ih, List.filter_cons]
    cases h : u.isEmpty <;> simp [h]

theorem collectItems_ok (us : List Tree) :
    collectItems (us.map .ok) = .ok (us.filter fun u => !u.isEmpty) := by
  induction us with
  | nil => rfl
  | cons u us ih =>
    rw [List.map_cons, collectItems, ih, List.filter_cons]
    cases h : u.isEmpty <;> simp [h]

/-- One error among the outcomes is an error, if there is only that one kind. -/
theorem collect_error {f : Failure} {xs : List (Key × Except Failure Tree)}
    (only : ∀ x ∈ xs, (∃ u, x.2 = .ok u) ∨ x.2 = .error f) (some_ : ∃ x ∈ xs, x.2 = .error f) :
    collect xs = .error f := by
  induction xs with
  | nil => simp at some_
  | cons x xs ih =>
    obtain ⟨k, x⟩ := x
    obtain ⟨here, there⟩ := List.forall_mem_cons.mp only
    rw [collect]
    rcases here with ⟨u, rfl⟩ | rfl
    · have rest : ∃ x ∈ xs, x.2 = .error f := by simpa using some_
      rw [ih there rest]
      rfl
    · rfl

theorem collectItems_error {f : Failure} {xs : List (Except Failure Tree)}
    (only : ∀ x ∈ xs, (∃ u, x = .ok u) ∨ x = .error f) (some_ : .error f ∈ xs) :
    collectItems xs = .error f := by
  induction xs with
  | nil => cases some_
  | cons x xs ih =>
    obtain ⟨here, there⟩ := List.forall_mem_cons.mp only
    rw [collectItems]
    rcases here with ⟨u, rfl⟩ | rfl
    · have rest : .error f ∈ xs := by simpa using some_
      rw [ih there rest]
      rfl
    · rfl

namespace Normalizer

variable {n : Normalizer} {type : Option TypeRef}

/-- What normalizing gives for a value, wherever its type counts. -/
def Gives (n : Normalizer) (type : Option TypeRef) (w : Tree) (x : Except Failure Tree) : Prop :=
  ∀ place, n.graph.Counts type place → (n.walk type place w).outcome = x

/-- The value is decoded to this one, wherever it stands. -/
def DecodesTo (n : Normalizer) (type : Option TypeRef) (t u : Tree) : Prop :=
  ∀ place, (n.decode type place t).outcome = .ok u

/-- What normalizing gives for the entries of a mapping of a type. -/
def GivesEntries (n : Normalizer) (type : Option TypeRef) (fs : Entries)
    (x : Except Failure Entries) : Prop :=
  ∀ place, rootDepth ≤ place.depth → (n.visitor.walkEntries n.graph type place fs).outcome = x

/-- What normalizing gives for the items of a list. -/
def GivesItems (n : Normalizer) (type : Option TypeRef) (ws : List Tree)
    (x : Except Failure (List Tree)) : Prop :=
  ∀ place index, rootDepth ≤ place.depth →
    (n.visitor.walkItems n.graph type place index ws).outcome = x

/-! ### Entries and items -/

/-- The first entry comes out before the others. -/
theorem givesEntries_cons {k : Key} {w : Tree} {fs : Entries} {x : Except Failure Tree}
    {y : Except Failure Entries} (here : n.Gives (n.graph.fieldType type k) w x)
    (rest : n.GivesEntries type fs y) :
    n.GivesEntries type ((k, w) :: fs)
      (x >>= fun u => y >>= fun us => .ok (if u.isEmpty then us else (k, u) :: us)) := by
  intro place deep
  have first := here (place.entry k) (Graph.counts_entry deep k)
  rw [walk] at first
  rw [Visitor.outcome_walkEntries_cons, first, rest place deep]
  rfl

/-- A mapping comes out entry by entry. -/
theorem givesEntries_of_forall₂ {fs : Entries} {xs : List (Key × Except Failure Tree)}
    (h : List.Forall₂ (fun f x => f.1 = x.1 ∧ n.Gives (n.graph.fieldType type f.1) f.2 x.2) fs xs) :
    n.GivesEntries type fs (collect xs) := by
  induction h with
  | nil => exact fun _ _ => Visitor.walkEntries_nil ..
  | @cons f x fs xs here _ ih =>
    obtain ⟨k, w⟩ := f
    obtain ⟨k', x⟩ := x
    obtain ⟨rfl, gives⟩ := here
    exact givesEntries_cons gives ih

/-- The first item comes out before the others. -/
theorem givesItems_cons {w : Tree} {ws : List Tree} {x : Except Failure Tree}
    {y : Except Failure (List Tree)} (here : n.Gives type w x) (rest : n.GivesItems type ws y) :
    n.GivesItems type (w :: ws)
      (x >>= fun u => y >>= fun us => .ok (if u.isEmpty then us else u :: us)) := by
  intro place index deep
  have first := here (place.item index) (Graph.counts_item deep index)
  rw [walk] at first
  rw [Visitor.outcome_walkItems_cons, first, rest place (index + 1) deep]
  rfl

/-- A list comes out item by item. -/
theorem givesItems_of_forall₂ {ws : List Tree} {xs : List (Except Failure Tree)}
    (h : List.Forall₂ (fun w x => n.Gives type w x) ws xs) :
    n.GivesItems type ws (collectItems xs) := by
  induction h with
  | nil => exact fun _ _ _ => Visitor.walkItems_nil ..
  | cons gives _ ih => exact givesItems_cons gives ih

/-! ### Visits -/

/-- Normalizing a value is decoding it with the type of its place, and then
normalizing what stands there. -/
theorem outcome_walk (n : Normalizer) (type : Option TypeRef) (place : ElementId) (t : Tree) :
    (n.walk type place t).outcome
      = (n.decode (n.graph.typeAt type place) place t).outcome >>= fun u =>
        match u with
        | .list ts => Tree.list <$>
            (n.visitor.walkItems n.graph (Graph.itemType type) place 0 ts).outcome
        | .map es => Tree.map <$> (n.visitor.walkEntries n.graph type place es).outcome
        | u => .ok u := by
  rw [walk, Visitor.outcome_walk]
  show (n.visit type place t).outcome >>= _ = _
  rw [visit, Journal.outcome_bind, Journal.outcome_noteIf]
  rfl

/-- What is decoded to neither a list nor a mapping stays. -/
theorem gives_of_decode {w u : Tree} (scalar : u.key?.isSome = true)
    (h : ∀ place, (n.decode type place w).outcome = .ok u) : n.Gives type w (.ok u) := by
  intro place counts
  rw [outcome_walk, counts.stands, h place]
  cases u with
  | list => cases scalar
  | map => cases scalar
  | _ => rfl

/-- What is decoded to a mapping is walked entry by entry. -/
theorem gives_of_decode_map {w : Tree} {fs : Entries} {x : Except Failure Entries}
    (h : ∀ place, (n.decode type place w).outcome = .ok (.map fs))
    (inside : n.GivesEntries type fs x) : n.Gives type w (.map <$> x) := by
  intro place counts
  rw [outcome_walk, counts.stands, h place]
  show Tree.map <$> (n.visitor.walkEntries n.graph type place fs).outcome = _
  rw [inside place counts.deep]

/-- What is decoded to a list is walked item by item. -/
theorem gives_of_decode_list {w : Tree} {ws : List Tree} {x : Except Failure (List Tree)}
    (h : ∀ place, (n.decode type place w).outcome = .ok (.list ws))
    (inside : n.GivesItems (Graph.itemType type) ws x) : n.Gives type w (.list <$> x) := by
  intro place counts
  rw [outcome_walk, counts.stands, h place]
  show Tree.list <$> (n.visitor.walkItems n.graph (Graph.itemType type) place 0 ws).outcome = _
  rw [inside place 0 counts.deep]

/-! ### Scalars -/

/-- The text names no localized string that is known. -/
def IsUnresolved (n : Normalizer) (s : String) : Prop :=
  (Localized.resolve n.settings.collectionStart n.lookup (.text s)).outcome = .ok none

/-- Where nothing is looked up no text is resolved. -/
theorem isUnresolved_of_no_lookup (h : n.lookup = none) (s : String) : n.IsUnresolved s := by
  unfold IsUnresolved Localized.resolve
  rw [h]
  split
  · contradiction
  · rfl

/-- A text that does not look like a name resolves nowhere. -/
theorem isUnresolved_of_localized?_eq_none {s : String}
    (h : Wire.localized? n.settings.collectionStart (.text s) = none) : n.IsUnresolved s := by
  unfold IsUnresolved Localized.resolve
  split
  · rename_i found _
    cases h.symm.trans found
  · rfl

theorem gives_text {s : String} (h : n.IsUnresolved s) : n.Gives type (.text s) (.ok (.text s)) := by
  refine gives_of_decode rfl fun _ => ?_
  rw [decode, visitText, Journal.outcome_bind, h]
  rfl

/-- Where a text is declared a scalar becomes its text, and elsewhere it stays. -/
theorem visitScalar_cases {t u : Tree} (h : visitScalar type t = .ok u) :
    type.any (·.isString) = true ∧ (∃ s, t.toText = .ok s ∧ u = .text s) ∨
      type.any (·.isString) = false ∧ u = t := by
  rw [visitScalar] at h
  split at h
  case isTrue string =>
    rcases text : t.toText with f | s <;> rw [text] at h
    · cases h
    · cases h
      exact .inl ⟨string, s, rfl, rfl⟩
  case isFalse string =>
    cases h
    exact .inr ⟨Bool.eq_false_iff.mpr string, rfl⟩

theorem gives_scalar {t u : Tree} (scalar : t.key?.isSome = true)
    (h : ∀ place, n.decode type place t = Journal.of (visitScalar type t))
    (visited : visitScalar type t = .ok u) : n.Gives type t (.ok u) := by
  refine gives_of_decode ?_ fun place => by rw [h place, visited]; rfl
  rcases visitScalar_cases visited with ⟨-, s, -, rfl⟩ | ⟨-, rfl⟩
  · rfl
  · exact scalar

/-- Where no text is declared, a truth value or a number stays. -/
theorem gives_number {t : Tree} (scalar : t.key?.isSome = true)
    (h : ∀ place, n.decode type place t = Journal.of (visitScalar type t))
    (noText : type.any (·.isString) = false) : n.Gives type t (.ok t) :=
  gives_scalar scalar h (by rw [visitScalar, noText]; rfl)

/-! ### Sentinels -/

variable {fs : Entries}

/-- A sentinel is decoded by its type. -/
theorem decode_sentinel {s : Wire.Sentinel} (h : Wire.sentinelOf? fs = some s)
    (place : ElementId) : (n.decode type place (.map fs)).outcome = Wire.decodeAs s fs := by
  simp only [decode, visitMap, h]
  rfl

theorem gives_null (h : Wire.sentinelOf? fs = some .null) :
    n.Gives type (.map fs) (.ok (.map [])) :=
  gives_of_decode_map (fun place => decode_sentinel h place) (x := .ok [])
    (givesEntries_of_forall₂ .nil)

theorem gives_array {x : Except Failure (List Tree)} (h : Wire.sentinelOf? fs = some .array)
    (inside : n.GivesItems (Graph.itemType type) (Wire.items (Entries.get? Wire.itemKey fs)) x) :
    n.Gives type (.map fs) (.list <$> x) :=
  gives_of_decode_list (fun place => decode_sentinel h place) inside

/-- The sentinel of a truth value holds something that has a text. -/
theorem decodesTo_boolean {s : String} (h : Wire.sentinelOf? fs = some .boolean)
    (text : (Wire.textIn fs).toText = .ok s) :
    n.DecodesTo type (.map fs) (.bool (Wire.truth (Wire.textIn fs))) := by
  intro place
  rw [decode_sentinel h, Wire.decodeAs, text]
  rfl

theorem gives_boolean {s : String} (h : Wire.sentinelOf? fs = some .boolean)
    (text : (Wire.textIn fs).toText = .ok s) :
    n.Gives type (.map fs) (.ok (.bool (Wire.truth (Wire.textIn fs)))) :=
  gives_of_decode rfl (decodesTo_boolean h text)

/-- The sentinel of a text holds something that has a text, which is what it stands for. -/
theorem decodesTo_string {s : String} (h : Wire.sentinelOf? fs = some .string)
    (text : (Wire.textIn fs).toText = .ok s) : n.DecodesTo type (.map fs) (.text s) := by
  intro place
  rw [decode_sentinel h, Wire.decodeAs, text]
  rfl

theorem gives_string {s : String} (h : Wire.sentinelOf? fs = some .string)
    (text : (Wire.textIn fs).toText = .ok s) : n.Gives type (.map fs) (.ok (.text s)) :=
  gives_of_decode rfl (decodesTo_string h text)

/-! ### Mappings -/

/-- The declared object type is a union. -/
def AtUnion (n : Normalizer) (type : Option TypeRef) : Prop :=
  (n.graph.objectAt? type).any (·.isUnion) = true

/-- A mapping without a tag is decoded to itself. -/
theorem outcome_decode_untagged (mark : Wire.sentinelOf? fs = none)
    (untagged : Entries.get? Wire.tagKey fs = none) (place : ElementId) :
    (n.decode type place (.map fs)).outcome = .ok (.map fs) := by
  have has : Entries.has Wire.tagKey fs = false := by rw [Entries.has, untagged]; rfl
  simp only [decode, visitMap, mark, has]
  rfl

/-- A mapping without a tag is walked as it is. -/
theorem gives_plain {x : Except Failure Entries} (mark : Wire.sentinelOf? fs = none)
    (tag : Entries.get? Wire.tagKey fs = none) (inside : n.GivesEntries type fs x) :
    n.Gives type (.map fs) (.map <$> x) :=
  gives_of_decode_map (outcome_decode_untagged mark tag) inside

/-- At a declared union a mapping with a tag is expanded. -/
theorem outcome_decode_declared {tag : Tree} (mark : Wire.sentinelOf? fs = none)
    (h : Entries.get? Wire.tagKey fs = some tag) (union : n.AtUnion type) (place : ElementId) :
    (n.decode type place (.map fs)).outcome = n.expand fs := by
  have has : Entries.has Wire.tagKey fs = true := by rw [Entries.has, h]; rfl
  unfold AtUnion at union
  simp only [decode, visitMap, mark, has, visitUnion, union, if_true, Journal.outcome_of]

/-- Expanding a union looks at its tag, and then puts the rest under it or drops it. -/
theorem expand_eq {tag : Tree} {k : Key} (h : Entries.get? Wire.tagKey fs = some tag)
    (key : tag.key? = some k) :
    n.expand fs = k.check >>= fun _ => .ok (.map
      (if Wire.isAmong k n.settings.ignoredTags then Entries.without [Wire.tagKey] fs
        else [(k, .map (Entries.without [Wire.tagKey] fs))])) := by
  rw [expand, Wire.expand, h]
  simp only [key, Option.bind_some, Option.getD_some]
  rfl

/-- A list or a mapping as the tag of a union cannot be expanded. -/
theorem expand_compound {tag : Tree} (h : Entries.get? Wire.tagKey fs = some tag)
    (compound : tag.key? = none) : n.expand fs = .error .compoundTag := by
  rw [expand, Wire.expand, h]
  simp only [compound]
  rfl

/-- Where no union is declared, a mapping with a tag shows it. -/
theorem outcome_decode_undeclared {tag : Tree} (mark : Wire.sentinelOf? fs = none)
    (h : Entries.get? Wire.tagKey fs = some tag) (undeclared : ¬n.AtUnion type)
    (place : ElementId) :
    (n.decode type place (.map fs)).outcome = Tree.map <$> Wire.expose fs := by
  have has : Entries.has Wire.tagKey fs = true := by rw [Entries.has, h]; rfl
  unfold AtUnion at undeclared
  simp only [decode, visitMap, mark, has, visitUnion, undeclared, if_true]
  rfl

/-- Only texts are tags that carry no information. -/
theorem isWritable_of_isAmong {k : Key} {names : List String}
    (ignored : Wire.isAmong k names = true) : k.isWritable = true := by
  cases k with
  | text => rfl
  | _ => cases ignored

/-- At a declared union a tag that carries no information is dropped. -/
theorem outcome_decode_dropped {tag : Tree} {k : Key} (mark : Wire.sentinelOf? fs = none)
    (h : Entries.get? Wire.tagKey fs = some tag) (union : n.AtUnion type)
    (key : tag.key? = some k) (ignored : Wire.isAmong k n.settings.ignoredTags = true)
    (place : ElementId) :
    (n.decode type place (.map fs)).outcome = .ok (.map (Entries.without [Wire.tagKey] fs)) := by
  rw [outcome_decode_declared mark h union, expand_eq h key,
    Key.check_eq_ok (isWritable_of_isAmong ignored), ignored]
  rfl

/-- At a declared union any other tag becomes the key of the rest. -/
theorem outcome_decode_nested {tag : Tree} {k : Key} (mark : Wire.sentinelOf? fs = none)
    (h : Entries.get? Wire.tagKey fs = some tag) (union : n.AtUnion type)
    (key : tag.key? = some k) (writable : k.isWritable = true)
    (kept : Wire.isAmong k n.settings.ignoredTags = false) (place : ElementId) :
    (n.decode type place (.map fs)).outcome
      = .ok (.map [(k, .map (Entries.without [Wire.tagKey] fs))]) := by
  rw [outcome_decode_declared mark h union, expand_eq h key, Key.check_eq_ok writable, kept]
  rfl

/-- A tag that no type declares is shown as a field. -/
theorem outcome_decode_exposed {tag : Tree} (mark : Wire.sentinelOf? fs = none)
    (h : Entries.get? Wire.tagKey fs = some tag) (undeclared : ¬n.AtUnion type)
    (place : ElementId) :
    (n.decode type place (.map fs)).outcome
      = .ok (.map (Entries.overlay [(Wire.exposedKey, tag)]
          (Entries.without [Wire.tagKey] fs))) := by
  rw [outcome_decode_undeclared mark h undeclared, Wire.expose, h]
  rfl

/-- The tag of a declared union that carries no information is dropped. -/
theorem gives_dropped {tag : Tree} {k : Key} {x : Except Failure Entries}
    (mark : Wire.sentinelOf? fs = none) (h : Entries.get? Wire.tagKey fs = some tag)
    (union : n.AtUnion type) (key : tag.key? = some k)
    (ignored : Wire.isAmong k n.settings.ignoredTags = true)
    (inside : n.GivesEntries type (Entries.without [Wire.tagKey] fs) x) :
    n.Gives type (.map fs) (.map <$> x) :=
  gives_of_decode_map (outcome_decode_dropped mark h union key ignored) inside

/-- The fields of a declared union are nested under any other tag. -/
theorem gives_nested {tag : Tree} {k : Key} {x : Except Failure Tree}
    (mark : Wire.sentinelOf? fs = none) (h : Entries.get? Wire.tagKey fs = some tag)
    (union : n.AtUnion type) (key : tag.key? = some k) (writable : k.isWritable = true)
    (kept : Wire.isAmong k n.settings.ignoredTags = false)
    (inside : n.Gives (n.graph.fieldType type k) (.map (Entries.without [Wire.tagKey] fs)) x) :
    n.Gives type (.map fs) (.map <$> collect [(k, x)]) :=
  gives_of_decode_map (outcome_decode_nested mark h union key writable kept)
    (@givesEntries_of_forall₂ n type [(k, .map (Entries.without [Wire.tagKey] fs))] [(k, x)]
      (.cons ⟨rfl, inside⟩ .nil))

/-- A list or a mapping as the tag of a declared union is an error. -/
theorem gives_error {tag : Tree} (mark : Wire.sentinelOf? fs = none)
    (h : Entries.get? Wire.tagKey fs = some tag) (union : n.AtUnion type)
    (compound : tag.key? = none) : n.Gives type (.map fs) (.error .compoundTag) := by
  intro place counts
  rw [outcome_walk, counts.stands, outcome_decode_declared mark h union,
    expand_compound h compound]
  rfl

/-- The tag of a union that no type declares is shown as a field. -/
theorem gives_exposed {tag : Tree} {x : Except Failure Entries}
    (mark : Wire.sentinelOf? fs = none) (h : Entries.get? Wire.tagKey fs = some tag)
    (undeclared : ¬n.AtUnion type)
    (inside : n.GivesEntries type
      (Entries.overlay [(Wire.exposedKey, tag)] (Entries.without [Wire.tagKey] fs)) x) :
    n.Gives type (.map fs) (.map <$> x) :=
  gives_of_decode_map (outcome_decode_exposed mark h undeclared) inside

end Normalizer

end DefinitionTree
