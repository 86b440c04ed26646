/-
DefinitionTree/Proofs/Xml/Codec.lean

Writing a definition and reading it again.

A mapping of the wire comes back up to the order of its keys if its keys are
names, names of attributes and the key of a text, and its values are spelled the
way they are read.  Attributes come back first and the text last, whatever their
places were, so the order of keys is lost; the items of a list keep theirs.

A value that is no list of two or more items is out: a list of one item comes
back as its item, and one without items is not written at all.  The text of a
mapping must not stand alone, either, for then it would come back without its
mapping.

Main definitions and statements:

* `IsSpelled`, `Fits`: the mappings that come back;
* `arranged`: the order in which they do;
* `definition_write_alike`: reading undoes writing.
-/
import DefinitionTree.Proofs.Tree.Alike
import DefinitionTree.Proofs.Xml.Member
import DefinitionTree.Proofs.Xml.Replacing
import DefinitionTree.Proofs.Xml.Scalar

namespace DefinitionTree.Xml

/-! ### What comes back -/

/-- The scalar is what its spelling is read as.  A text must not be the spelling
of anything else, and not be changed by the blanks and line breaks in it. -/
inductive IsSpelled : Tree → Prop
  | bool (b : Bool) : IsSpelled (.bool b)
  | int {i : Int} (short : (dropMinus (Numeral.ofInt i)).length ≤ Numeral.digitLimit) :
    IsSpelled (.int i)
  | text {s : String} (some_ : s ≠ "") (clean : isClean s = true)
    (own : literal s = .ok (.text s)) : IsSpelled (.text s)

/-- What may stand under a key so that it comes back. -/
inductive Fits : Key → Tree → Prop
  | mark {name value : String} (named : isName name.toList = true)
    (chars : value.toList.all isXmlChar = true) :
    Fits (.text (Wire.attributeMark ++ name)) (.text value)
  | held {t : Tree} (spelled : IsSpelled t) : Fits Wire.textKey t
  | null {name : String} (named : isName name.toList = true) : Fits (.text name) .null
  | scalar {name : String} {t : Tree} (named : isName name.toList = true)
    (spelled : IsSpelled t) : Fits (.text name) t
  | map {name : String} {es : Entries} (named : isName name.toList = true)
    (distinct : (keysOf es).Nodup)
    -- there is something, and it is not just a text
    (beside : ∃ k ∈ keysOf es, k ≠ Wire.textKey) (inside : ∀ e ∈ es, Fits e.1 e.2) :
    Fits (.text name) (.map es)
  | list {name : String} {ts : List Tree} (named : isName name.toList = true)
    (many : 2 ≤ ts.length) (flat : ∀ t ∈ ts, ∀ us, t ≠ .list us)
    (inside : ∀ t ∈ ts, Fits (.text name) t) : Fits (.text name) (.list ts)

/-! ### Scalars -/

theorem literal_bool (b : Bool) : literal (Tree.bool b).scalarText = .ok (.bool b) := by
  cases b <;> rfl

/-- The text of a spelled scalar is given back by its element, and stands for it. -/
theorem IsSpelled.facts {t : Tree} (h : IsSpelled t) :
    isClean t.scalarText = true ∧ t.scalarText ≠ "" ∧ literal t.scalarText = .ok t := by
  cases h with
  | bool b =>
    have words : ∀ b, isClean (Tree.bool b).scalarText = true ∧ (Tree.bool b).scalarText ≠ "" := by
      decide
    exact ⟨(words b).1, (words b).2, literal_bool b⟩
  | @int i short =>
    refine ⟨isClean_text i, fun none => ?_, literal_of_int short⟩
    have whole := (ofInt_facts i).1
    rw [← @String.toList_ofList (Numeral.ofInt i)] at whole
    rw [show String.ofList (Numeral.ofInt i) = "" from none] at whole
    cases whole
  | text some_ clean own => exact ⟨clean, some_, own⟩

theorem IsSpelled.textValue {t : Tree} (h : IsSpelled t) : textValue t.scalarText = .ok t := by
  obtain ⟨clean, some_, own⟩ := h.facts
  rw [textValue_of_isClean clean some_, own]

theorem IsSpelled.isWritable {t : Tree} (h : IsSpelled t) : t.isWritable = true :=
  isWritable_of_literal h.facts.2.2

theorem IsSpelled.heldText_ne_nil {t : Tree} (h : IsSpelled t) : heldText t.scalarText ≠ [] := by
  obtain ⟨clean, some_, -⟩ := h.facts
  rw [heldText_of_isClean clean]
  exact fun none => some_ (String.toList_eq_nil_iff.mp none)

theorem IsSpelled.reread {t : Tree} (h : IsSpelled t) {name : String}
    (named : isName name.toList = true) : reread name t = .ok t := by
  have noMap : t.isMap = false := by cases h <;> rfl
  rw [reread_leaf noMap h.isWritable named (isClean_iff.mp h.facts.1).1, h.textValue]

/-! ### The parts of a mapping -/

/-- The key is that of an attribute. -/
def isAttributeKey (k : Key) : Bool := (attributeName? k).isSome

/-- The key is that of elements. -/
def isMemberKey (k : Key) : Bool := !isAttributeKey k && k != Wire.textKey

theorem isMemberKey_iff {k : Key} :
    isMemberKey k = true ↔ attributeName? k = none ∧ k ≠ Wire.textKey := by
  simp [isMemberKey, isAttributeKey]

/-- Entries in the order in which they come back: attributes, elements, and the
text. -/
def arranged (es : Entries) : Entries :=
  es.filter (fun e => isAttributeKey e.1)
    ++ (es.filter (fun e => isMemberKey e.1) ++ es.filter fun e => e.1 = Wire.textKey)

theorem arranged_perm (es : Entries) : (arranged es).Perm es := by
  have noAttribute : isAttributeKey Wire.textKey = false := by decide
  -- first the attributes are taken out, then the text from what is left
  have attributes := List.filter_append_perm (fun e : Key × Tree => isAttributeKey e.1) es
  have others := List.filter_append_perm (fun e : Key × Tree => e.1 != Wire.textKey)
    (es.filter fun e => !isAttributeKey e.1)
  have members : (es.filter fun e => !isAttributeKey e.1).filter (fun e => e.1 != Wire.textKey)
      = es.filter fun e => isMemberKey e.1 := by
    rw [List.filter_filter]
    refine List.filter_congr fun e _ => ?_
    rw [isMemberKey, Bool.and_comm]
  have text : (es.filter fun e => !isAttributeKey e.1).filter (fun e => !(e.1 != Wire.textKey))
      = es.filter fun e => e.1 = Wire.textKey := by
    rw [List.filter_filter]
    refine List.filter_congr fun e _ => ?_
    by_cases h : e.1 = Wire.textKey
    · simp [h, noAttribute]
    · simp [h]
  rw [members, text] at others
  exact (others.append_left _).trans attributes

theorem attributeName?_mark (name : String) :
    attributeName? (.text (Wire.attributeMark ++ name)) = some name := by
  have rest : (Wire.attributeMark ++ name).toList.drop Wire.attributeMark.length = name.toList := by
    rw [String.toList_append, ← String.length_toList]
    exact List.drop_left
  rw [attributeName?, String.toList_append, if_pos (List.isPrefixOf_iff_prefix.mpr ⟨_, rfl⟩),
    ← String.toList_append, rest, String.ofList_toList]

/-- What fits is an attribute, a text or elements. -/
theorem Fits.cases {k : Key} {t : Tree} (h : Fits k t) :
    (∃ name value, k = .text (Wire.attributeMark ++ name) ∧ t = .text value
        ∧ isName name.toList = true ∧ value.toList.all isXmlChar = true)
      ∨ (k = Wire.textKey ∧ IsSpelled t)
      ∨ isMemberKey k = true ∧ IsMember (k, t) := by
  have member {name : String} (named : isName name.toList = true) :
      isMemberKey (.text name) = true := by
    obtain ⟨noAttribute, noText, -⟩ := plain_of_isName named
    exact isMemberKey_iff.mpr ⟨noAttribute, noText⟩
  cases h with
  | mark named chars => exact .inl ⟨_, _, rfl, rfl, named, chars⟩
  | held spelled => exact .inr (.inl ⟨rfl, spelled⟩)
  | null named => exact .inr (.inr ⟨member named, ⟨_, rfl, named⟩, by simp⟩)
  | scalar named spelled =>
    refine .inr (.inr ⟨member named, ⟨_, rfl, named⟩, ?_⟩)
    rintro rfl
    cases spelled
  | map named => exact .inr (.inr ⟨member named, ⟨_, rfl, named⟩, by simp⟩)
  | list named many =>
    refine .inr (.inr ⟨member named, ⟨_, rfl, named⟩, ?_⟩)
    rintro ⟨⟩
    exact absurd many (by decide)

theorem Fits.isMember {k : Key} {t : Tree} (h : Fits k t) (member : isMemberKey k = true) :
    IsMember (k, t) := by
  obtain ⟨noAttribute, noText⟩ := isMemberKey_iff.mp member
  rcases h.cases with ⟨name, value, rfl, -⟩ | ⟨eq, -⟩ | ⟨-, isMember⟩
  · rw [attributeName?_mark] at noAttribute
    cases noAttribute
  · exact absurd eq noText
  · exact isMember

/-- Under the key of a text stands a scalar. -/
theorem Fits.isSpelled {t : Tree} (h : Fits Wire.textKey t) : IsSpelled t := by
  rcases h.cases with ⟨name, value, eq, -⟩ | ⟨-, spelled⟩ | ⟨member, -⟩
  · have attribute_ := attributeName?_mark name
    rw [← eq] at attribute_
    cases attribute_
  · exact spelled
  · exact absurd member (by decide)

variable {es fs : Entries}

/-- The attributes are those of the attribute keys. -/
theorem attributesOf_fits (fits : ∀ e ∈ es, Fits e.1 e.2) : ∃ attributes,
    attributesOf es = .ok attributes
      ∧ attributeEntries attributes = es.filter (fun e => isAttributeKey e.1)
      ∧ ∀ a ∈ attributes, isName a.1.toList = true ∧ a.2.toList.all isXmlChar = true := by
  induction es with
  | nil => exact ⟨[], rfl, rfl, by simp⟩
  | cons e es ih =>
    obtain ⟨k, t⟩ := e
    obtain ⟨here, there⟩ := List.forall_mem_cons.mp fits
    obtain ⟨attributes, tagged, entries, legible⟩ := ih there
    have other (none : attributeName? k = none) : ∃ attributes,
        attributesOf ((k, t) :: es) = .ok attributes
          ∧ attributeEntries attributes = ((k, t) :: es).filter (fun e => isAttributeKey e.1)
          ∧ ∀ a ∈ attributes, isName a.1.toList = true ∧ a.2.toList.all isXmlChar = true := by
      refine ⟨attributes, ?_, ?_, legible⟩
      · rw [attributesOf, none]
        exact tagged
      · rw [List.filter_cons, isAttributeKey, none]
        exact entries
    rcases here.cases with ⟨name, value, rfl, rfl, named, chars⟩ | ⟨rfl, -⟩ | ⟨member, -⟩
    · have name_ : nameOf .attribute (.text name) = .ok name := by
        rw [nameOf, nameFault?_of_isName named]
      refine ⟨(name, value) :: attributes, ?_, ?_, List.forall_mem_cons.mpr ⟨⟨named, chars⟩, legible⟩⟩
      · rw [attributesOf, attributeName?_mark]
        simp only [name_, tagged]
        rfl
      · rw [List.filter_cons, isAttributeKey, attributeName?_mark, ← entries]
        rfl
    · exact other (by decide)
    · exact other (isMemberKey_iff.mp member).1

/-- What is no element is passed over. -/
theorem childrenOf_other {k : Key} (other : isMemberKey k = false) (t : Tree) (es : Entries) :
    childrenOf ((k, t) :: es) = childrenOf es := by
  have skips : (k = Wire.textKey || (attributeName? k).isSome) = true := by
    by_contra no
    rw [isMemberKey_iff.mpr (by simpa [and_comm] using no)] at other
    cases other
  by_cases empty : t = .list []
  · subst empty
    rw [childrenOf, if_pos skips]
  · rw [childrenOf, if_pos skips]
    exact empty

/-- The child nodes of fitting entries are those of the entries under keys of elements. -/
theorem childrenOf_fits (fits : ∀ e ∈ es, Fits e.1 e.2) :
    childrenOf es = childrenOf (es.filter fun e => isMemberKey e.1) := by
  induction es with
  | nil => rfl
  | cons e es ih =>
    obtain ⟨k, t⟩ := e
    obtain ⟨here, there⟩ := List.forall_mem_cons.mp fits
    rw [List.filter_cons]
    split
    · rename_i member
      obtain ⟨⟨s, rfl, named⟩, some_⟩ := here.isMember member
      rw [childrenOf_cons named some_, childrenOf_cons named some_, ih there]
    · rename_i other
      rw [childrenOf_other (by simpa using other), ih there]

/-! ### What comes back -/

/-- The entry comes back as the other one: as it was if it is an attribute or the
text, and as its elements are read if it has any. -/
structure ComesBack (e f : Key × Tree) : Prop where
  key : e.1 = f.1
  alike : e.2.Alike f.2
  member : isMemberKey e.1 = true → Returns e f
  other : isMemberKey e.1 = false → f = e

theorem alikeEntries_comesBack (back : List.Forall₂ ComesBack es fs) :
    Tree.AlikeEntries es fs :=
  Tree.alikeEntries_of_forall₂ (back.imp fun _ _ h => ⟨h.key, h.alike⟩)

/-- Entries of one sort come back as entries of that sort. -/
theorem filter_comesBack (p : Key → Bool) (back : List.Forall₂ ComesBack es fs) :
    List.Forall₂ ComesBack (es.filter fun e => p e.1) (fs.filter fun f => p f.1) := by
  refine List.rel_filter ?_ back
  intro e f here
  show p e.1 = true ↔ p f.1 = true
  rw [here.key]

theorem filter_comesBack_eq {p : Key → Bool} (other : ∀ k, p k = true → isMemberKey k = false)
    (back : List.Forall₂ ComesBack es fs) :
    fs.filter (fun f => p f.1) = es.filter fun e => p e.1 := by
  induction back with
  | nil => rfl
  | @cons e f es fs here _ ih =>
    rw [List.filter_cons, List.filter_cons, ← here.key, ih]
    split
    · rename_i holds
      rw [here.other (other e.1 holds)]
    · rfl

/-- The elements among the entries are read one after the other. -/
theorem returns_comesBack (back : List.Forall₂ ComesBack es fs) :
    List.Forall₂ Returns (es.filter fun e => isMemberKey e.1)
      (fs.filter fun f => isMemberKey f.1) := by
  have sort : ∀ e ∈ es.filter (fun e => isMemberKey e.1), isMemberKey e.1 = true :=
    fun e mem => (List.mem_filter.mp mem).2
  exact List.Forall₂.imp (fun e f h => h.2.member h.1)
    ((List.forall₂_and_left _ _).mpr ⟨sort, filter_comesBack isMemberKey back⟩)

/-- What stands behind the attributes and elements is the text. -/
theorem value_fits {name : String} {gs : Entries} (some_ : gs ≠ []) (distinct : (keysOf es).Nodup)
    (fits : ∀ e ∈ es, Fits e.1 e.2) : ∃ text, textOf es = .ok text ∧
      text.toList.all isXmlChar = true ∧
      OpenElement.value ⟨name, gs, (unifyLineBreaks text.toList).reverse⟩
        = .ok (.map (gs ++ es.filter fun e => e.1 = Wire.textKey)) := by
  by_cases text : Wire.textKey ∈ keysOf es
  · obtain ⟨⟨k, t⟩, mem, eq⟩ := List.mem_map.mp text
    obtain rfl : k = Wire.textKey := eq
    have spelled : IsSpelled t := (fits _ mem).isSpelled
    have held : textOf es = .ok t.scalarText := by
      rw [textOf, Wire.textIn, Wire.textKey, Entries.get?_of_mem distinct mem]
      exact Tree.toText_eq_ok spelled.isWritable
    refine ⟨_, held, (isClean_iff.mp spelled.facts.1).1, ?_⟩
    rw [value_entries name some_, if_neg spelled.heldText_ne_nil, spelled.textValue,
      filter_eq_singleton distinct mem]
    rfl
  · refine ⟨"", textOf_eq_empty text, rfl, ?_⟩
    rw [value_entries name some_, filter_eq_nil text, List.append_nil]
    rfl

/-- Different keys of attributes are different names of attributes. -/
theorem areAttributes_of_distinct {attributes : List (String × String)}
    (legible : ∀ a ∈ attributes, isName a.1.toList = true ∧ a.2.toList.all isXmlChar = true)
    (distinct : (keysOf (attributeEntries attributes)).Nodup) : AreAttributes attributes := by
  have keys : keysOf (attributeEntries attributes)
      = (attributes.map (·.1)).map fun name => Key.text (Wire.attributeMark ++ name) := by
    simp [keysOf, attributeEntries]
  rw [keys] at distinct
  exact ⟨legible, distinct.of_map _⟩

/-- With something besides the text there are attributes or elements. -/
theorem parts_ne_nil (beside : ∃ k ∈ keysOf es, k ≠ Wire.textKey)
    (back : List.Forall₂ ComesBack es fs) :
    es.filter (fun e => isAttributeKey e.1) ++ fs.filter (fun f => isMemberKey f.1) ≠ [] := by
  obtain ⟨k, key, other⟩ := beside
  by_cases attribute_ : isAttributeKey k = true
  · obtain ⟨e, mem, rfl⟩ := List.mem_map.mp key
    exact List.ne_nil_of_mem (List.mem_append_left _ (List.mem_filter.mpr ⟨mem, attribute_⟩))
  · rw [keysOf_of_forall₂ (fun _ _ here => here.key) back] at key
    obtain ⟨f, mem, rfl⟩ := List.mem_map.mp key
    have member : isMemberKey f.1 = true := by simp [isMemberKey, attribute_, other]
    exact List.ne_nil_of_mem (List.mem_append_right _ (List.mem_filter.mpr ⟨mem, member⟩))

/-- A mapping comes back entry by entry. -/
theorem reread_fits {name : String} (named : isName name.toList = true)
    (distinct : (keysOf es).Nodup) (beside : ∃ k ∈ keysOf es, k ≠ Wire.textKey)
    (fits : ∀ e ∈ es, Fits e.1 e.2) (back : List.Forall₂ ComesBack es fs) :
    reread name (.map es) = .ok (.map (arranged fs)) := by
  obtain ⟨attributes, tagged, entries, legible⟩ := attributesOf_fits fits
  -- the elements must not fall on keys that the attributes have taken
  have apart : (keysOf (es.filter (fun e => isAttributeKey e.1)
      ++ es.filter fun e => isMemberKey e.1)).Nodup := by
    have all : (keysOf (arranged es)).Nodup := ((arranged_perm es).map Prod.fst).nodup_iff.mpr distinct
    refine all.sublist (List.Sublist.map _ ?_)
    exact (List.Sublist.refl _).append (List.sublist_append_left _ _)
  have areAttributes : AreAttributes attributes := by
    refine areAttributes_of_distinct legible ?_
    rw [entries]
    rw [keysOf_append] at apart
    exact apart.of_append_left
  have returns := returns_comesBack back
  have members : ∀ e ∈ es.filter (fun e => isMemberKey e.1), IsMember e := by
    intro e mem
    obtain ⟨mem, member⟩ := List.mem_filter.mp mem
    exact (fits e mem).isMember member
  obtain ⟨nodes, inside⟩ := exists_childrenOf members returns
  have added : addAll (attributeEntries attributes) nodes
      = .ok (es.filter (fun e => isAttributeKey e.1) ++ fs.filter fun f => isMemberKey f.1) := by
    rw [entries]
    refine (addAll_members members ?_ inside).mpr ⟨_, returns, rfl⟩
    rwa [← keysOf_append]
  -- attributes and text are not touched, so they come back as they stand in `fs`
  have noMember : ∀ k, isAttributeKey k = true → isMemberKey k = false := by
    intro k attribute_
    rw [isMemberKey, attribute_]
    rfl
  have noText : ∀ k, decide (k = Wire.textKey) = true → isMemberKey k = false := by
    intro k text
    rw [of_decide_eq_true text]
    decide
  -- something besides the text is there, so the text becomes an entry
  have some_ := parts_ne_nil beside back
  obtain ⟨text, held, chars, value⟩ := @value_fits es name _ some_ distinct fits
  rw [reread_eq named tagged areAttributes ((childrenOf_fits fits).trans inside) held, added]
  show (if text.toList.all isXmlChar then _ else _) = _
  rw [if_pos chars, value, arranged, filter_comesBack_eq noMember back,
    filter_comesBack_eq noText back, List.append_assoc]

/-- What is no element comes back as it is. -/
theorem comesBack_self {k : Key} (other : isMemberKey k = false) (t : Tree) :
    ComesBack (k, t) (k, t) where
  key := rfl
  alike := Tree.Alike.refl t
  member := fun member => by
    rw [other] at member
    cases member
  other := fun _ => rfl

/-- An element comes back as what it is read as. -/
theorem comesBack_element {name : String} {t w : Tree} (named : isName name.toList = true)
    (read : ReadsAs name t w) (alike : t.Alike w) :
    ComesBack (.text name, t) (.text name, w) where
  key := rfl
  alike := alike
  member := fun _ => ⟨rfl, name, rfl, read⟩
  other := fun other => by
    obtain ⟨noAttribute, noText, -⟩ := plain_of_isName named
    rw [isMemberKey_iff.mpr ⟨noAttribute, noText⟩] at other
    cases other

/-- Whatever fits under a name comes back from there. -/
theorem comesBack_of_fits {k : Key} {t : Tree} (fits : Fits k t) :
    ∃ f, ComesBack (k, t) f := by
  induction fits with
  | @mark name value =>
    have attribute_ := attributeName?_mark name
    exact ⟨_, comesBack_self (by rw [isMemberKey, isAttributeKey, attribute_]; rfl) _⟩
  | held => exact ⟨_, comesBack_self (by decide) _⟩
  | @null name named =>
    have read : reread name .null = .ok .null := (reread_leaf rfl rfl named rfl).trans rfl
    exact ⟨_, comesBack_element named read rfl⟩
  | @scalar name t named spelled =>
    have noList : ∀ ts, t ≠ .list ts := by
      rintro ts rfl
      cases spelled
    exact ⟨_, comesBack_element named ((readsAs_iff noList).mpr (spelled.reread named))
      (Tree.Alike.refl t)⟩
  | @map name es named distinct beside inside ih =>
    obtain ⟨fs, each⟩ := exists_forall₂ ih
    have read : reread name (.map es) = .ok (.map (arranged fs)) :=
      reread_fits named distinct beside inside each
    exact ⟨_, comesBack_element named read
      ⟨arranged fs, rfl, fs, arranged_perm fs, alikeEntries_comesBack each⟩⟩
  | @list name ts named many flat inside ih =>
    have each : ∀ t ∈ ts, ∃ u, reread name t = .ok u ∧ t.Alike u := by
      intro t mem
      obtain ⟨f, f_back⟩ := ih t mem
      obtain ⟨noAttribute, noText, -⟩ := plain_of_isName named
      obtain ⟨-, s, eq, read⟩ := f_back.member (isMemberKey_iff.mpr ⟨noAttribute, noText⟩)
      cases eq
      exact ⟨f.2, (readsAs_iff (flat t mem)).mp read, f_back.alike⟩
    obtain ⟨us, both⟩ := exists_forall₂ each
    -- two items or more do not collapse to one
    have listed : joined us = .list us := by
      rcases both with - | ⟨-, - | ⟨-, -⟩⟩
      · cases many
      · exact absurd many (by simp)
      · rfl
    have items : Tree.AlikeItems ts us :=
      Tree.alikeItems_of_forall₂ (both.imp fun _ _ h => h.2)
    refine ⟨_, comesBack_element named ⟨us, both.imp fun _ _ h => h.1, rfl⟩ ?_⟩
    rw [listed]
    exact ⟨us, rfl, items⟩

/-! ### Styles -/

namespace Style

/-- The style without an indentation that is not used. -/
def used (style : Style) : Style := if style.pretty then style else ⟨false, []⟩

theorem margin_used (style : Style) (depth : Nat) : style.used.margin depth = style.margin depth := by
  rcases style with ⟨- | -, indent⟩ <;> rfl

theorem lineEnd_used (style : Style) : style.used.lineEnd = style.lineEnd := by
  rcases style with ⟨- | -, indent⟩ <;> rfl

theorem isPlain_used {style : Style} (plain : style.pretty = true → style.isPlain = true) :
    style.used.isPlain = true := by
  unfold used
  split
  · exact plain ‹_›
  · rfl

end Style

mutual

theorem writeNode_used (style : Style) (depth : Nat) (n : Node) :
    writeNode style.used depth n = writeNode style depth n := by
  cases n with
  | comment s => cases s <;> simp only [writeNode, Style.margin_used, Style.lineEnd_used]
  | element name attributes children text =>
    simp only [writeNode, Style.margin_used, Style.lineEnd_used,
      writeNodes_used style (depth + 1) children]

theorem writeNodes_used (style : Style) (depth : Nat) (nodes : List Node) :
    writeNodes style.used depth nodes = writeNodes style depth nodes := by
  cases nodes with
  | nil => rfl
  | cons n nodes => rw [writeNodes, writeNodes, writeNode_used, writeNodes_used]

end

/-- The indentation matters only where it is used. -/
theorem write_used (style : Style) (t : Tree) : write style.used t = write style t := by
  simp only [write, writeNodes_used]

/-! ### Definitions -/

/-- A scalar that stands alone in a definition is read as what it is. -/
theorem definition_single {name : String} {t : Tree} (named : isName name.toList = true)
    (spelled : IsSpelled t) :
    definition (String.ofList (startTag rootName [] ++ startTag name []
      ++ t.scalarText.toList.flatMap escapeText ++ endTag name ++ endTag rootName))
        = .ok [(.text name, t)] := by
  have noMap : t.isMap = false := by cases spelled <;> rfl
  have noList : ∀ ts, t ≠ .list ts := by
    rintro ts rfl
    cases spelled
  have children : ∀ e ∈ [(Key.text name, t)], IsChild e :=
    List.forall_mem_singleton.mpr ⟨⟨name, rfl, named⟩, noList⟩
  have element : elementOf rootName (.map [(.text name, t)])
      = .ok (.element rootName [] [.element name [] [] t.scalarText] "") := by
    rw [elementOf, attributesOf_children children, textOf_children children,
      childrenOf_cons named (noList []), nodesOf_child named noList,
      elementOf_leaf noMap spelled.isWritable, childrenOf]
    rfl
  have written : write ⟨false, []⟩ (.map [(.text name, t)])
      = .ok (String.ofList (startTag rootName [] ++ startTag name []
        ++ t.scalarText.toList.flatMap escapeText ++ endTag name ++ endTag rootName)) := by
    rw [← bind_pure (write _ _), write_bind, bind_of_ok element]
    simp [writeNode, writeNodes, Style.margin, Style.lineEnd, pure, Except.pure]
  have read : reread rootName (.map [(.text name, t)]) = .ok (.map [(.text name, t)]) :=
    (reread_map (by decide) (by simp) children (by simp)).mpr
      ⟨_, .cons ⟨rfl, name, rfl, spelled.reread named⟩ .nil, rfl⟩
  rw [← bind_of_ok written definition, definition_write rfl, bind_of_ok read]
  rfl

/-- The outermost element comes back, also where there is nothing in it. -/
theorem exists_reread_root (fits : es = [] ∨ Fits (.text rootName) (.map es)) : ∃ w fs,
    reread rootName (.map es) = .ok w ∧ contentOf w = .ok fs ∧ (Tree.map es).Alike (.map fs) := by
  have rootIsName : isName rootName.toList = true := by decide
  rcases fits with rfl | fits
  · have inside : childrenOf [] = .ok [] := by rw [childrenOf]
    have read : reread rootName (.map []) = .ok .null :=
      reread_eq rootIsName rfl noAttributes inside rfl
    exact ⟨.null, [], read, rfl, Tree.Alike.refl _⟩
  · obtain ⟨f, back⟩ := comesBack_of_fits fits
    obtain ⟨noAttribute, noText, -⟩ := plain_of_isName rootIsName
    obtain ⟨-, s, eq, read⟩ := back.member (isMemberKey_iff.mpr ⟨noAttribute, noText⟩)
    cases eq
    obtain ⟨fs, eq, -⟩ := back.alike
    have alike := back.alike
    rw [eq] at alike
    exact ⟨f.2, fs, read, by rw [eq]; rfl, alike⟩

/-- A mapping that fits is read where it was written as a definition, up to the
order of keys, and no entity in its text is replaced. -/
theorem definition_write_alike {style : Style} (plain : style.pretty = true → style.isPlain = true)
    (fits : es = [] ∨ Fits (.text rootName) (.map es)) :
    ∃ text fs, write style (.map es) = .ok text ∧ replaceEntities text = text
      ∧ definition text = .ok fs ∧ (Tree.map es).Alike (.map fs) := by
  -- an indentation that is not used need not be plain, so it is left out first
  have usedPlain := Style.isPlain_used plain
  obtain ⟨w, fs, read, content, alike⟩ := exists_reread_root fits
  have back := definition_write usedPlain es
  rw [read] at back
  obtain ⟨text, written, defined⟩ := bind_eq_ok_iff.mp (back.trans content)
  have unreplaced := replaceEntities_write usedPlain written read
  rw [write_used] at written
  exact ⟨text, fs, written, unreplaced, defined, alike⟩

/-- Attributes, a list, an element with a text of its own, and characters that
are written as references. -/
def mixedEntries : Entries := [
  (.text "@_label", .text "a \"b\" & <c>\n'"),
  (.text "caption", .text "&eacute; ]]>"),
  (.text "column", .list [.null, .int (-5), .map [
    (.text "@_id", .text "x"), (.text "#text", .bool true)]]),
  (.text "#text", .text "1.50")]

theorem definition_write_mixedEntries : Fits (.text rootName) (.map mixedEntries) ∧
    ∃ text fs, write {} (.map mixedEntries) = .ok text ∧ replaceEntities text = text
      ∧ definition text = .ok fs ∧ (Tree.map mixedEntries).Alike (.map fs) := by
  have label : Fits (.text "@_label") (.text "a \"b\" & <c>\n'") :=
    @Fits.mark "label" _ (by decide) (by decide)
  have caption : Fits (.text "caption") (.text "&eacute; ]]>") :=
    .scalar (by decide) (.text (by decide) (by decide) rfl)
  have inner : ∀ e ∈ [(Key.text "@_id", Tree.text "x"), (.text "#text", .bool true)],
      Fits e.1 e.2 := by
    simp only [List.forall_mem_cons]
    exact ⟨@Fits.mark "id" _ (by decide) (by decide), .held (.bool true), by simp⟩
  have items : ∀ t ∈ [Tree.null, .int (-5), .map [
      (.text "@_id", .text "x"), (.text "#text", .bool true)]], Fits (.text "column") t := by
    simp only [List.forall_mem_cons]
    have short : (dropMinus (Numeral.ofInt (-5))).length ≤ Numeral.digitLimit := by
      show (Numeral.digits 5).length ≤ _
      rw [Numeral.digits]
      decide
    exact ⟨.null (by decide), .scalar (by decide) (.int short),
      .map (by decide) (by decide) ⟨.text "@_id", by simp, by decide⟩ inner, by simp⟩
  have column : Fits (.text "column") (.list [.null, .int (-5), .map [
      (.text "@_id", .text "x"), (.text "#text", .bool true)]]) :=
    .list (by decide) (by simp) (by simp) items
  have text : Fits (.text "#text") (.text "1.50") :=
    .held (.text (by decide) (by decide) rfl)
  have all : ∀ e ∈ mixedEntries, Fits e.1 e.2 := by
    simp only [mixedEntries, List.forall_mem_cons]
    exact ⟨label, caption, column, text, by simp⟩
  have fits : Fits (.text rootName) (.map mixedEntries) :=
    .map (by decide) (by decide) ⟨.text "caption", by simp [mixedEntries], by decide⟩ all
  exact ⟨fits, definition_write_alike (fun _ => by decide) (.inr fits)⟩

end DefinitionTree.Xml
