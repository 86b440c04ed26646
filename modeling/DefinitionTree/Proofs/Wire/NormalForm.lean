/-
DefinitionTree/Proofs/Wire/NormalForm.lean

The normal form of encoded trees.

In front of the encoder a collapse moves entries one or two levels up, and an entry
gets its sentinel before it is encoded itself.  Still every entry is rendered and
wrapped exactly once.  What a collapse leaves is a part of the mapping or a scalar,
under a key of the mapping or that of a tag (`Wire.collapseEntries_inside`), so an
induction on sizes goes through, and the encoded trees have a grammar:

    a scalar that needs no sentinel, a sentinel of a truth value or of a text,
    the sentinel of a list of encoded trees, a mapping of encoded trees.

Main definitions and statements:

* `Wire.Encoded`: the grammar;
* `Wire.encoded_encodeAt`: what is encoded follows it;
* `Wire.IsNormal`, `Wire.encode_isNormal`: the normal form, said of everything that
  stands in a tree.
-/
import DefinitionTree.Proofs.Tree.Induction
import DefinitionTree.Proofs.Wire.Encoding

namespace DefinitionTree

/-! ### Keys without raw text -/

/-- No key in the tree holds raw text: none is that of an attribute or that of an
element's text. -/
def Tree.LacksRawKeys (t : Tree) : Prop :=
  ∀ es, (Tree.map es).IsIn t → ∀ k ∈ keysOf es, Wire.isRawKey k = false

namespace Tree

variable {t u : Tree}

theorem lacksRawKeys_leaf (scalar : t.key?.isSome = true) : t.LacksRawKeys := by
  intro es inside
  cases inside with
  | self => cases scalar
  | item => cases scalar
  | entry => cases scalar

theorem LacksRawKeys.list {ts : List Tree} (each : ∀ t ∈ ts, t.LacksRawKeys) :
    (Tree.list ts).LacksRawKeys := by
  intro es inside
  cases inside with
  | item mem inside => exact each _ mem es inside

theorem LacksRawKeys.map {es : Entries} (here : ∀ k ∈ keysOf es, Wire.isRawKey k = false)
    (each : ∀ e ∈ es, e.2.LacksRawKeys) : (Tree.map es).LacksRawKeys := by
  intro fs inside
  cases inside with
  | self => exact here
  | entry mem inside => exact each _ mem fs inside

theorem LacksRawKeys.of_isIn (h : t.LacksRawKeys) (inside : u.IsIn t) : u.LacksRawKeys :=
  fun es there => h es (there.trans inside)

end Tree

/-! ### What a collapse leaves -/

namespace Entries

variable {es fs : Entries}

/-- What holds of an entry whatever its key, and of keys whatever their value, holds
where one entry is set. -/
theorem forall_mem_set {p : Key → Prop} {q : Tree → Prop} {k : Key} {t : Tree}
    (all : ∀ e ∈ es, p e.1 ∧ q e.2) (key : p k) (value : q t) :
    ∀ e ∈ set k t es, p e.1 ∧ q e.2 := by
  induction es with
  | nil => exact List.forall_mem_singleton.mpr ⟨key, value⟩
  | cons e es ih =>
    obtain ⟨k', u⟩ := e
    obtain ⟨here, there⟩ := List.forall_mem_cons.mp all
    rw [set]
    split
    · exact List.forall_mem_cons.mpr ⟨⟨here.1, value⟩, there⟩
    · exact List.forall_mem_cons.mpr ⟨here, ih there⟩

/-- What holds of an entry whatever its key, and of keys whatever their value, holds where
any number of entries is set. -/
theorem forall_mem_overlay {p : Key → Prop} {q : Tree → Prop}
    (all : ∀ e ∈ es, p e.1 ∧ q e.2) (new : ∀ e ∈ fs, p e.1 ∧ q e.2) :
    ∀ e ∈ overlay es fs, p e.1 ∧ q e.2 := by
  induction fs generalizing es with
  | nil => exact all
  | cons f fs ih =>
    obtain ⟨k, t⟩ := f
    obtain ⟨here, there⟩ := List.forall_mem_cons.mp new
    exact ih (forall_mem_set all here.1 here.2) there

end Entries

namespace Wire

variable {ks : List String} {k : Key} {es : Entries} {t : Tree}

/-- A marked variant and its tag are values of entries of the mapping. -/
theorem mem_of_markedVariant? {tag : Tree} {inner : Entries}
    (h : markedVariant? es = some (tag, inner)) :
    (∃ k, (k, tag) ∈ es) ∧ ∃ k, (k, Tree.map inner) ∈ es := by
  unfold markedVariant? at h
  split at h
  · rename_i k₁ t₁ k₂ t₂
    split at h
    · split at h
      · cases h
        exact ⟨⟨k₁, by simp⟩, k₂, by simp⟩
      · cases h
    · split at h
      · split at h
        · cases h
          exact ⟨⟨k₂, by simp⟩, k₁, by simp⟩
        · cases h
      · cases h
  · cases h

/-- The key is that of a tag, or that of an entry somewhere in the tree. -/
def IsKeyFrom (t : Tree) (k : Key) : Prop :=
  k = tagKey ∨ ∃ fs, (Tree.map fs).IsIn t ∧ k ∈ keysOf fs

/-- The value is a scalar, or stands somewhere in the tree. -/
def IsValueFrom (t u : Tree) : Prop := u.key?.isSome = true ∨ u.IsIn t

/-- What a collapse leaves comes from inside the mapping, but for tags. -/
theorem collapseEntries_inside (ks : List String) (k : Key) (es : Entries) :
    ∀ e ∈ collapseEntries ks k es, IsKeyFrom (.map es) e.1 ∧ IsValueFrom (.map es) e.2 := by
  -- a collapse only puts a tag in front of entries of some mapping inside
  have part {fs : Entries} (inside : (Tree.map fs).IsIn (.map es)) :
      ∀ e ∈ fs, IsKeyFrom (.map es) e.1 ∧ IsValueFrom (.map es) e.2 := by
    intro e mem
    have value : e.2.IsIn (.map es) := Tree.IsIn.trans (.entry mem (.self e.2)) inside
    exact ⟨.inr ⟨fs, inside, mem_keysOf mem⟩, .inr value⟩
  have rest (names : List Key) :
      ∀ e ∈ Entries.without names es, IsKeyFrom (.map es) e.1 ∧ IsValueFrom (.map es) e.2 :=
    fun e mem => part (.self _) e (List.mem_of_mem_filter mem)
  have tagged {tag : Tree} (value : IsValueFrom (.map es) tag) :
      ∀ e ∈ [(tagKey, tag)], IsKeyFrom (.map es) e.1 ∧ IsValueFrom (.map es) e.2 :=
    List.forall_mem_singleton.mpr ⟨.inl rfl, value⟩
  unfold collapseEntries
  split
  · refine List.forall_mem_cons.mpr ⟨⟨.inl rfl, .inl ?_⟩, rest _⟩
    cases k <;> rfl
  · split
    · rename_i tag found
      have shown : (exposedKey, tag) ∈ es := Entries.mem_of_get? found
      exact Entries.forall_mem_overlay (tagged (part (.self _) _ shown).2) (rest _)
    · split
      · rename_i tag inner marked
        obtain ⟨⟨k₁, mark⟩, k₂, held⟩ := mem_of_markedVariant? marked
        exact Entries.forall_mem_overlay (tagged (part (.self _) _ mark).2)
          (part (.entry held (.self _)))
      · exact part (.self _)

/-! ### The grammar of encoded trees -/

/-- The tree would not be read back as it is where it stands alone: it is a list, a
truth value, or a text that reads as a number. -/
def needsSentinel : Tree → Bool
  | .list _ => true
  | .bool _ => true
  | .text s => Text.isNumberLike s
  | _ => false

/-- The trees that come out of the encoder. -/
inductive Encoded : Tree → Prop
  | scalar {t : Tree} : t.key?.isSome = true → (∀ id target, t ≠ .ref id target) →
      needsSentinel t = false → Encoded t
  | boolean (s : String) : Encoded (.map [Sentinel.boolean.mark, (textKey, .text s)])
  | string (s : String) : Encoded (.map [Sentinel.string.mark, (textKey, .text s)])
  | array {ts : List Tree} : (∀ t ∈ ts, Encoded t) → Encoded (arraySentinel ts)
  | mapping {es : Entries} : (∀ k ∈ keysOf es, isRawKey k = false) → (∀ e ∈ es, Encoded e.2) →
      Encoded (.map es)

/-- A scalar follows the grammar once it is rendered and wrapped. -/
theorem encoded_wrap (scalar : t.key?.isSome = true) : Encoded (wrap (Localized.render t)) := by
  have text (s : String) : Encoded (wrap (.text s)) := by
    rw [wrap]
    split
    · exact .string s
    · rename_i plain
      exact .scalar rfl (by simp) (by simpa [needsSentinel] using plain)
  cases t with
  | list => cases scalar
  | map => cases scalar
  | bool b => exact .boolean _
  | text s => exact text s
  | ref id target => exact text (Localized.text id)
  | _ => exact .scalar rfl (by simp [Localized.render, wrap]) rfl

theorem exists_of_mem_encodeItems {u : Tree} {ts : List Tree} {index : Nat}
    (h : u ∈ encodeItems ks index ts) : ∃ t ∈ ts, ∃ k, u = encodeAt ks true k t := by
  induction ts generalizing index with
  | nil =>
    rw [encodeItems] at h
    cases h
  | cons t ts ih =>
    rw [encodeItems] at h
    rcases List.mem_cons.mp h with rfl | h
    · exact ⟨t, List.mem_cons_self, _, rfl⟩
    · obtain ⟨t, mem, k, eq⟩ := ih h
      exact ⟨t, List.mem_cons_of_mem _ mem, k, eq⟩

/-- A mapping follows the grammar once it is encoded if its values do. -/
theorem encoded_entries (raw : ∀ k ∈ keysOf es, isRawKey k = false)
    (each : ∀ e ∈ es, Encoded (encodeAt ks true e.1 e.2)) :
    Encoded (.map (encodeEntries ks (!isTyped es) es)) := by
  -- the type attribute is a raw key
  have untyped : isTyped es = false :=
    isTyped_eq_false fun mem => absurd (raw _ mem) (by decide)
  have keys : keysOf (es.map (encodeEntry ks)) = keysOf es := by
    rw [keysOf, List.map_map]
    rfl
  rw [untyped, Bool.not_false, encodeEntries_eq_map raw]
  refine .mapping (by rwa [keys]) fun f mem => ?_
  obtain ⟨e, there, rfl⟩ := List.mem_map.mp mem
  exact each e there

/-- What is encoded follows the grammar.  A mapping is collapsed before its entries
are encoded, which makes them no larger. -/
theorem encoded_encodeAt (plain : t.LacksRawKeys) (k : Key) : Encoded (encodeAt ks true k t) := by
  induction size : t.size using Nat.strongRecOn generalizing t k with
  | ind size ih =>
    subst size
    cases t with
    | list ts =>
      rw [encodeAt_list]
      refine .array fun u mem => ?_
      obtain ⟨t, there, k, rfl⟩ := exists_of_mem_encodeItems mem
      exact ih t.size (Tree.size_lt_of_mem_list there) (plain.of_isIn (.item there (.self t))) k rfl
    | map es =>
      have inside := collapseEntries_inside ks k es
      rw [encodeAt]
      refine encoded_entries (fun k' mem => ?_) fun e mem => ?_
      · obtain ⟨e, held, rfl⟩ := List.mem_map.mp mem
        rcases (inside e held).1 with eq | ⟨fs, there, named⟩
        · rw [eq]
          decide
        · exact plain fs there _ named
      · have smaller : e.2.size < (Tree.map es).size :=
          Tree.size_lt_of_mem_map mem (sizeEntries_collapseEntries_le ks k es)
        refine ih e.2.size smaller ?_ e.1 rfl
        rcases (inside e mem).2 with scalar | there
        · exact Tree.lacksRawKeys_leaf scalar
        · exact plain.of_isIn there
    | _ =>
      rw [encodeAt_scalar rfl]
      exact encoded_wrap rfl

theorem encoded_encode (plain : (Tree.map es).LacksRawKeys) : Encoded (encode ks (.map es)) := by
  rw [encode]
  refine encoded_entries (plain es (.self _)) fun e mem => ?_
  exact encoded_encodeAt (plain.of_isIn (.entry mem (.self e.2))) e.1

/-! ### The normal form -/

/-- Nothing in the tree is a reference, its lists are the items of array sentinels,
and neither in such a list nor in a mapping that is no sentinel does anything stand
alone that needs a sentinel. -/
structure IsNormal (t : Tree) : Prop where
  noReference : ∀ id target, ¬(Tree.ref id target).IsIn t
  noList : ∀ ts, t ≠ .list ts
  lists : ∀ es, (Tree.map es).IsIn t → ∀ k ts, (k, Tree.list ts) ∈ es →
    Tree.map es = arraySentinel ts
  items : ∀ ts, (Tree.list ts).IsIn t → ∀ u ∈ ts, needsSentinel u = false
  values : ∀ es, (Tree.map es).IsIn t → sentinelOf? es = none →
    ∀ e ∈ es, needsSentinel e.2 = false

theorem Encoded.needsSentinel (h : Encoded t) : needsSentinel t = false := by
  cases h with
  | scalar _ _ plain => exact plain
  | _ => rfl

/-- What stands in an encoded tree is encoded itself, but for the texts in sentinels
and the lists of items. -/
theorem Encoded.of_isIn {u : Tree} (h : Encoded t) (inside : u.IsIn t) :
    Encoded u ∨ (∃ s, u = .text s) ∨ ∃ ts, u = .list ts ∧ ∀ t ∈ ts, Encoded t := by
  induction h with
  | @scalar t scalar noRef plain =>
    cases inside with
    | self => exact .inl (.scalar scalar noRef plain)
    | item => cases scalar
    | entry => cases scalar
  | boolean s =>
    cases inside with
    | self => exact .inl (.boolean s)
    | entry mem inside =>
      rcases List.mem_pair.mp mem with rfl | rfl <;> cases inside <;> exact .inr (.inl ⟨_, rfl⟩)
  | string s =>
    cases inside with
    | self => exact .inl (.string s)
    | entry mem inside =>
      rcases List.mem_pair.mp mem with rfl | rfl <;> cases inside <;> exact .inr (.inl ⟨_, rfl⟩)
  | @array ts each ih =>
    cases inside with
    | self => exact .inl (.array each)
    | entry mem inside =>
      rcases List.mem_pair.mp mem with rfl | rfl
      · cases inside
        exact .inr (.inl ⟨_, rfl⟩)
      · cases inside with
        | self => exact .inr (.inr ⟨ts, rfl, each⟩)
        | item mem inside => exact ih _ mem inside
  | @mapping es raw each ih =>
    cases inside with
    | self => exact .inl (.mapping raw each)
    | entry mem inside => exact ih _ mem inside

/-- Encoded trees are in normal form. -/
theorem Encoded.isNormal (h : Encoded t) : IsNormal t where
  noReference id target inside := by
    rcases h.of_isIn inside with ref | ⟨s, eq⟩ | ⟨ts, eq, -⟩
    · cases ref with
      | scalar _ noRef _ => exact noRef id target rfl
    · cases eq
    · cases eq
  noList ts eq := by
    subst eq
    exact absurd h.needsSentinel (by simp [Wire.needsSentinel])
  lists es inside k ts mem := by
    rcases h.of_isIn inside with held | ⟨s, eq⟩ | ⟨ts, eq, -⟩
    · cases held with
      | scalar scalar => cases scalar
      | boolean => rcases List.mem_pair.mp mem with eq | eq <;> cases eq
      | string => rcases List.mem_pair.mp mem with eq | eq <;> cases eq
      | array =>
        rcases List.mem_pair.mp mem with eq | eq <;> cases eq
        rfl
      | mapping _ each => exact absurd (each _ mem).needsSentinel (by simp [Wire.needsSentinel])
    · cases eq
    · cases eq
  items ts inside u mem := by
    rcases h.of_isIn inside with held | ⟨s, eq⟩ | ⟨us, eq, each⟩
    · exact absurd held.needsSentinel (by simp [Wire.needsSentinel])
    · cases eq
    · cases eq
      exact (each u mem).needsSentinel
  values es inside unmarked e mem := by
    rcases h.of_isIn inside with held | ⟨s, eq⟩ | ⟨ts, eq, -⟩
    · cases held with
      | scalar scalar => cases scalar
      | boolean => cases unmarked
      | string => cases unmarked
      | array => cases unmarked
      | mapping _ each => exact (each e mem).needsSentinel
    · cases eq
    · cases eq

/-- **The encoder's normal form.**  Whatever a mapping without raw keys holds, it is
encoded to a mapping with the same keys in which no reference is left, every list is
the list of items of an array sentinel, and everything else that needs a sentinel has
one. -/
theorem encode_isNormal (ks : List String) {es : Entries} (plain : (Tree.map es).LacksRawKeys) :
    ∃ fs, encode ks (.map es) = .map fs ∧ keysOf fs = keysOf es ∧ IsNormal (.map fs) := by
  have normal := (@encoded_encode ks es plain).isNormal
  have untyped : isTyped es = false :=
    isTyped_eq_false fun mem => absurd (plain es (.self _) _ mem) (by decide)
  have eq : encode ks (.map es) = .map (es.map (encodeEntry ks)) := by
    rw [encode, untyped, Bool.not_false, encodeEntries_eq_map (plain es (.self _))]
  refine ⟨es.map (encodeEntry ks), eq, ?_, eq ▸ normal⟩
  rw [keysOf, List.map_map]
  rfl

/-- A mapping with a variant that is marked and holds a list of lists, a tag that is
shown and reads as a number, a formula, and a reference. -/
def sampleUnions : Entries := [
  (.text "criteria", .map [
    (.text "filter", .map [
      (.text "values", .list [.list [.bool true, .text "12"], .ref ⟨"netsuite", "a", "type", []⟩ .null])]),
    (tagKey, .text "filter")]),
  (.text "operator", .map [(exposedKey, .text "7"), (.text "code", .int 7)]),
  (.text "formula", .map [(.text "id", .text "")]),
  (.text "owner", .ref ⟨"netsuite", "b", "type", []⟩ (.bool true))]

theorem encode_sampleUnions : (Tree.map sampleUnions).LacksRawKeys ∧
    ∃ fs, encode ["formula"] (.map sampleUnions) = .map fs ∧ keysOf fs = keysOf sampleUnions ∧
      IsNormal (.map fs) := by
  have plain : (Tree.map sampleUnions).LacksRawKeys := by
    refine .map (by decide) ?_
    simp only [sampleUnions, List.forall_mem_cons]
    refine ⟨.map (by decide) ?_, .map (by decide) ?_, .map (by decide) ?_, ?_, by simp⟩
    · simp only [List.forall_mem_cons]
      refine ⟨.map (by decide) ?_, Tree.lacksRawKeys_leaf rfl, by simp⟩
      simp only [List.forall_mem_singleton]
      refine .list ?_
      simp only [List.forall_mem_cons]
      refine ⟨.list ?_, Tree.lacksRawKeys_leaf rfl, by simp⟩
      simp only [List.forall_mem_cons]
      exact ⟨Tree.lacksRawKeys_leaf rfl, Tree.lacksRawKeys_leaf rfl, by simp⟩
    · simp only [List.forall_mem_cons]
      exact ⟨Tree.lacksRawKeys_leaf rfl, Tree.lacksRawKeys_leaf rfl, by simp⟩
    · simp only [List.forall_mem_singleton]
      exact Tree.lacksRawKeys_leaf rfl
    · exact Tree.lacksRawKeys_leaf rfl
  exact ⟨plain, encode_isNormal ["formula"] plain⟩

end Wire

end DefinitionTree
