/-
DefinitionTree/Proofs/Wire/Encoding.lean

What mappings with plain keys are encoded to.

The keys of such a mapping are distinct texts without a meaning of their own.
Whether its encoding starts with a tag, and which one, then depends on how it is
held: it is the key itself if that is a discriminated one, the tag that the
mapping shows, or the name of a variant that is marked.  Everything else is
encoded in place.

Main statements:

* `Wire.encode_map`: a mapping that is not held at all;
* `Wire.encodeAt_discriminated`, `Wire.encodeAt_exposed`,
  `Wire.encodeAt_variant`: the three sources of a tag;
* `Wire.encodeAt_untagged`: a mapping without a tag.
-/
import DefinitionTree.Proofs.Tree.Keys
import DefinitionTree.Wire.Encoding

namespace DefinitionTree

/-- The text has no meaning of its own as a key: it neither marks a union, nor
text, nor an attribute. -/
structure IsPlainName (s : String) : Prop where
  noTag : s ≠ "_T_"
  noText : s ≠ "#text"
  noAttribute : Wire.startsWith Wire.attributeMark s = false

instance (s : String) : Decidable (IsPlainName s) :=
  decidable_of_iff
    (s ≠ "_T_" ∧ s ≠ "#text" ∧ Wire.startsWith Wire.attributeMark s = false)
    ⟨fun ⟨noTag, noText, noMark⟩ => ⟨noTag, noText, noMark⟩,
      fun ⟨noTag, noText, noMark⟩ => ⟨noTag, noText, noMark⟩⟩

namespace Wire

variable {ks : List String} {k : Key} {s : String} {es pre post : Entries} {t : Tree}

/-- The mapping has distinct and plain keys. -/
structure IsPlain (es : Entries) : Prop where
  distinct : (keysOf es).Nodup
  plain : ∀ k ∈ keysOf es, ∃ s, k = .text s ∧ IsPlainName s

theorem isPlainName_ne_typeKey (h : IsPlainName s) : s ≠ "@_type" := by
  rintro rfl
  exact absurd h.noAttribute (by decide)

namespace IsPlain

theorem ne_of_mem (h : IsPlain es) (hk : k ∈ keysOf es) :
    k ≠ tagKey ∧ k ≠ typeKey ∧ isRawKey k = false := by
  obtain ⟨s, rfl, plain⟩ := h.plain k hk
  refine ⟨?_, ?_, ?_⟩
  · simpa [tagKey] using plain.noTag
  · simpa [typeKey] using isPlainName_ne_typeKey plain
  · simpa [isRawKey, textKey, plain.noAttribute] using plain.noText

theorem tagKey_notMem (h : IsPlain es) : tagKey ∉ keysOf es := fun hk => (h.ne_of_mem hk).1 rfl

theorem typeKey_notMem (h : IsPlain es) : typeKey ∉ keysOf es := fun hk => (h.ne_of_mem hk).2.1 rfl

/-- What is left of a mapping without one of its entries. -/
theorem erase (h : IsPlain (pre ++ (k, t) :: post)) : IsPlain (pre ++ post) := by
  have distinct := h.distinct
  rw [keysOf_append, keysOf_cons] at distinct
  refine ⟨?_, fun k hk => h.plain k ?_⟩
  · rw [keysOf_append]
    exact distinct.sublist ((List.Sublist.refl _).append (List.sublist_cons_self _ _))
  · rw [keysOf_append, List.mem_append] at hk
    rcases hk with hk | hk <;> simp [hk]

/-- The entry that was taken out has a key of its own. -/
theorem notMem_of_split (h : IsPlain (pre ++ (k, t) :: post)) :
    k ∉ keysOf pre ∧ k ∉ keysOf post := by
  have distinct := h.distinct
  rw [keysOf_append, keysOf_cons, List.nodup_append] at distinct
  exact ⟨fun hk => distinct.2.2 k hk k List.mem_cons_self rfl, (List.nodup_cons.mp distinct.2.1).1⟩

end IsPlain

/-! ### Entries in place -/

/-- An entry, encoded in place. -/
def encodeEntry (ks : List String) (e : Key × Tree) : Key × Tree := (e.1, encodeAt ks true e.1 e.2)

theorem encodeEntries_eq_map (h : ∀ k ∈ keysOf es, isRawKey k = false) :
    encodeEntries ks true es = es.map (encodeEntry ks) := by
  induction es with
  | nil => rw [encodeEntries, List.map_nil]
  | cons e es ih =>
    obtain ⟨k, t⟩ := e
    rw [encodeEntries, h k List.mem_cons_self, ih fun k hk => h k (List.mem_cons_of_mem _ hk)]
    rfl

theorem encodeEntries_plain (h : IsPlain es) :
    encodeEntries ks true es = es.map (encodeEntry ks) :=
  encodeEntries_eq_map fun _ hk => (h.ne_of_mem hk).2.2

theorem isTyped_eq_false (h : typeKey ∉ keysOf es) : isTyped es = false := by
  rw [isTyped, typeKey, Entries.has_eq_false_iff]
  exact h

theorem sentinelOf?_eq_none (h : typeKey ∉ keysOf es) : sentinelOf? es = none := by
  rw [sentinelOf?, typeKey, Entries.get?_eq_none h]

/-- A mapping with a tag in front of plain entries. -/
theorem encode_tagged (h : IsPlain es) (tag : Tree) :
    encodeEntries ks (!isTyped ((tagKey, tag) :: es)) ((tagKey, tag) :: es)
      = (tagKey, encodeAt ks true tagKey tag) :: es.map (encodeEntry ks) := by
  have untyped : isTyped ((tagKey, tag) :: es) = false := by
    refine isTyped_eq_false ?_
    rw [keysOf_cons, List.mem_cons, not_or]
    exact ⟨by decide, h.typeKey_notMem⟩
  rw [untyped, Bool.not_false, encodeEntries, encodeEntries_plain h]
  rfl

/-! ### Scalars and lists -/

/-- A scalar gets the sentinel that it needs. -/
theorem encodeAt_scalar (h : t.key?.isSome = true) :
    encodeAt ks true k t = wrap (Localized.render t) := by
  have noMap : ∀ es, t = .map es → False := by
    rintro es rfl
    cases h
  have noList : ∀ ts, t = .list ts → False := by
    rintro ts rfl
    cases h
  rw [encodeAt.eq_3 ks true k t noMap noList, encodeScalar, if_pos rfl]

theorem encodeAt_list (ts : List Tree) :
    encodeAt ks true k (.list ts) = arraySentinel (encodeItems ks 0 ts) := by
  rw [encodeAt]
  rfl

/-! ### Mappings -/

/-- A mapping that is not held at all is encoded in place. -/
theorem encode_map (h : IsPlain es) : encode ks (.map es) = .map (es.map (encodeEntry ks)) := by
  rw [encode, isTyped_eq_false h.typeKey_notMem, Bool.not_false, encodeEntries_plain h]

/-- Under a discriminated key the key becomes the tag. -/
theorem encodeAt_discriminated (h : IsPlain es)
    (discriminated : isDiscriminated ks (.text s) = true) :
    encodeAt ks true (.text s) (.map es)
      = .map ((tagKey, wrap (.text s)) :: es.map (encodeEntry ks)) := by
  have collapsed : collapseEntries ks (.text s) es = (tagKey, .text s) :: es := by
    have none : (sentinelOf? es).isNone = true := by
      rw [sentinelOf?_eq_none h.typeKey_notMem]
      rfl
    rw [collapseEntries, if_pos (by rw [discriminated, none]; rfl), tagKey,
      Entries.without_eq_self h.tagKey_notMem]
    rfl
  rw [encodeAt, collapsed, encode_tagged h, encodeAt_scalar rfl]
  rfl

theorem collapseEntries_of_shown (open_ : isDiscriminated ks k = false) :
    collapseEntries ks k es =
      match Entries.get? exposedKey es with
      | some tag => Entries.overlay [(tagKey, tag)] (Entries.without [exposedKey] es)
      | none =>
        match markedVariant? es with
        | some (tag, inner) => Entries.overlay [(tagKey, tag)] inner
        | none => es := by
  rw [collapseEntries, open_, Bool.false_and]
  rfl

/-- The tag that a mapping shows is taken over. -/
theorem collapseEntries_exposed (open_ : isDiscriminated ks k = false)
    (shown : Entries.get? exposedKey es = some t) :
    collapseEntries ks k es
      = Entries.overlay [(tagKey, t)] (Entries.without [exposedKey] es) := by
  simp only [collapseEntries_of_shown open_, shown]

/-- The mark on a single variant is taken over, unless the name of the variant is one of
the two keys that decide. -/
theorem collapseEntries_variant (open_ : isDiscriminated ks k = false)
    (noTag : Key.text s ≠ tagKey) (noShown : Key.text s ≠ exposedKey) :
    collapseEntries ks k [(.text s, .map es), (tagKey, t)]
      = Entries.overlay [(tagKey, t)] es := by
  have shown : Entries.get? exposedKey [(.text s, .map es), (tagKey, t)] = none := by
    refine Entries.get?_eq_none ?_
    simp only [keysOf_cons, keysOf_nil, List.mem_cons, List.not_mem_nil, or_false, not_or]
    exact ⟨noShown.symm, by decide⟩
  have marked : markedVariant? [(.text s, .map es), (tagKey, t)] = some (t, es) := by
    have first : (Key.text s).same tagKey = false := by
      rw [← Bool.not_eq_true, tagKey, Key.text_same_iff]
      exact noTag.symm
    simp [markedVariant?, first]
  simp only [collapseEntries_of_shown open_, shown, marked]

/-- A tag goes in front of plain entries. -/
theorem overlay_tag (h : IsPlain es) (tag : Tree) :
    Entries.overlay [(tagKey, tag)] es = (tagKey, tag) :: es := by
  show Entries.overlay [(tagKey, tag)] es = [(tagKey, tag)] ++ es
  refine Entries.overlay_eq_append ?_ ?_
  · intro k hk
    obtain ⟨s, rfl, -⟩ := h.plain k hk
    exact ⟨s, rfl⟩
  · exact List.nodup_cons.mpr ⟨h.tagKey_notMem, h.distinct⟩

/-- The tag that a mapping shows becomes its tag. -/
theorem encodeAt_exposed (h : IsPlain (pre ++ (exposedKey, t) :: post))
    (open_ : isDiscriminated ks k = false) :
    encodeAt ks true k (.map (pre ++ (exposedKey, t) :: post))
      = .map ((tagKey, encodeAt ks true tagKey t) :: (pre ++ post).map (encodeEntry ks)) := by
  have shown : Entries.get? exposedKey (pre ++ (exposedKey, t) :: post) = some t :=
    Entries.get?_of_mem h.distinct (by simp [exposedKey])
  obtain ⟨front, back⟩ := h.notMem_of_split
  have collapsed : collapseEntries ks k (pre ++ (exposedKey, t) :: post)
      = (tagKey, t) :: (pre ++ post) := by
    have rest : Entries.without [exposedKey] (pre ++ (exposedKey, t) :: post) = pre ++ post :=
      Entries.without_split front back
    rw [collapseEntries_exposed open_ shown, rest, overlay_tag h.erase]
  rw [encodeAt, collapsed, encode_tagged h.erase]

/-- A variant that is marked gets its name as its tag. -/
theorem encodeAt_variant (h : IsPlain es) (open_ : isDiscriminated ks k = false)
    (noTag : Key.text s ≠ tagKey) (noShown : Key.text s ≠ exposedKey) :
    encodeAt ks true k (.map [(.text s, .map es), (tagKey, .text s)])
      = .map ((tagKey, wrap (.text s)) :: es.map (encodeEntry ks)) := by
  have collapsed : collapseEntries ks k [(.text s, .map es), (tagKey, .text s)]
      = (tagKey, .text s) :: es := by
    rw [collapseEntries_variant open_ noTag noShown, overlay_tag h]
  rw [encodeAt, collapsed, encode_tagged h, encodeAt_scalar rfl]
  rfl

theorem markedVariant?_eq_none (h : tagKey ∉ keysOf es) : markedVariant? es = none := by
  unfold markedVariant?
  split
  · rename_i k₁ t₁ k₂ t₂
    simp only [keysOf_cons, keysOf_nil, List.mem_cons, List.not_mem_nil, or_false, not_or] at h
    have first : ¬k₁.same tagKey = true := fun e => h.1 (Key.same_text_iff.mp e).symm
    have second : ¬k₂.same tagKey = true := fun e => h.2 (Key.same_text_iff.mp e).symm
    rw [if_neg first, if_neg second]
  · rfl

/-- A mapping that shows no tag gets none. -/
theorem encodeAt_untagged (h : IsPlain es) (open_ : isDiscriminated ks k = false)
    (noShown : exposedKey ∉ keysOf es) :
    encodeAt ks true k (.map es) = .map (es.map (encodeEntry ks)) := by
  have collapsed : collapseEntries ks k es = es := by
    have shown : Entries.get? exposedKey es = none := Entries.get?_eq_none noShown
    simp only [collapseEntries_of_shown open_, shown, markedVariant?_eq_none h.tagKey_notMem]
  rw [encodeAt, collapsed, isTyped_eq_false h.typeKey_notMem, Bool.not_false,
    encodeEntries_plain h]

/-- A mapping that is nothing but the mark of a sentinel stays as it is. -/
theorem encodeAt_mark (m : Sentinel) : encodeAt ks true k (.map [m.mark]) = .map [m.mark] := by
  have collapsed : collapseEntries ks k [m.mark] = [m.mark] := by
    have some_ : (sentinelOf? [m.mark]).isNone = false := by cases m <;> rfl
    have shown : Entries.get? exposedKey [m.mark] = none :=
      Entries.get?_eq_none (by simp [Sentinel.mark, typeKey])
    rw [collapseEntries, some_, Bool.and_false, shown]
    rfl
  have typed : isTyped [m.mark] = true := by
    rw [isTyped, typeKey, Entries.has_iff]
    exact List.mem_cons_self
  rw [encodeAt, collapsed, typed, Sentinel.mark, encodeEntries, encodeEntries, encodeAt]
  · rfl
  · simp
  · simp

end Wire

end DefinitionTree
