/-
DefinitionTree/Proofs/Xml/Legible.lean

When a node that was written can be read.

Writing asks less of names and texts than reading does.  A node is legible if
its names are names of markup, no attribute comes twice, its texts hold nothing
but characters of markup, and none of them is an integer with too many digits.
These are exactly the nodes that are read again.

Main definitions and statements:

* `Node.IsLegible`: legible nodes;
* `readTag_eq_ok_iff`: the start tags that are read;
* `exists_addTo_iff`: the nodes that are read.
-/
import DefinitionTree.Proofs.Xml.Rereading

namespace DefinitionTree.Xml

/-! ### Texts -/

/-- The text spells an integer, but with more digits than one may have. -/
def isOverlong (cs : List Char) : Bool :=
  isWhole (dropMinus (Text.dropLineEnd cs))
    && Numeral.digitLimit < (dropMinus (Text.dropLineEnd cs)).length

/-- A text stands for a value unless it is an integer that is too long. -/
theorem exists_literal_iff (s : String) :
    (∃ t, literal s = .ok t) ↔ isOverlong s.toList = false := by
  unfold literal isOverlong
  simp only
  split
  · rename_i h
    subst h
    exact iff_of_true ⟨_, rfl⟩ (by decide)
  split
  · rename_i h
    subst h
    exact iff_of_true ⟨_, rfl⟩ (by decide)
  split
  · rename_i whole
    rw [whole, Bool.true_and]
    split
    · rename_i long
      simp [long]
    · rename_i short
      simp only [short, decide_false, iff_true]
      split <;> exact ⟨_, rfl⟩
  · rename_i whole
    rw [Bool.not_eq_true] at whole
    rw [whole, Bool.false_and]
    refine iff_of_true ?_ rfl
    split
    · split <;> exact ⟨_, rfl⟩
    · exact ⟨_, rfl⟩

/-- The text as an element holds it. -/
def heldText (s : String) : List Char := Text.trim (unifyLineBreaks s.toList)

/-- The text can be read where an element holds it. -/
def isReadable (s : String) : Bool := s.toList.all isXmlChar && !isOverlong (heldText s)

/-- What an element becomes depends on what is left of its text. -/
theorem exists_value_iff (name : String) (es : Entries) (s : String) :
    (∃ t, OpenElement.value ⟨name, es, (unifyLineBreaks s.toList).reverse⟩ = .ok t)
      ↔ isOverlong (heldText s) = false := by
  have text : Text.trim (unifyLineBreaks s.toList).reverse.reverse = heldText s := by
    rw [List.reverse_reverse, heldText]
  simp only [OpenElement.value, text]
  rcases held : heldText s with - | ⟨c, cs⟩
  · cases es with
    | nil => exact iff_of_true ⟨_, rfl⟩ (by decide)
    | cons e es => exact iff_of_true ⟨_, rfl⟩ (by decide)
  · have literal_ := exists_literal_iff (String.ofList (c :: cs))
    rw [String.toList_ofList] at literal_
    rw [← literal_]
    cases es with
    | nil => rfl
    | cons e es =>
      show (∃ t, (literal (String.ofList (c :: cs)) >>= fun t => pure (Tree.map _)) = .ok t) ↔ _
      generalize literal (String.ofList (c :: cs)) = read
      rcases read with fault | t
      · exact iff_of_false (by rintro ⟨_, ⟨⟩⟩) (by rintro ⟨_, ⟨⟩⟩)
      · exact iff_of_true ⟨_, rfl⟩ ⟨_, rfl⟩

/-! ### Start tags -/

/-- The attributes can be read: their names are names, and different ones. -/
structure AreAttributes (attributes : List (String × String)) : Prop where
  legible : ∀ a ∈ attributes, isName a.1.toList = true ∧ a.2.toList.all isXmlChar = true
  distinct : (attributes.map (·.1)).Nodup

/-- The attributes as a tag holds them once they are read. -/
def heldAttributes (attributes : List (String × String)) : List (String × List Char) :=
  (attributes.map fun a => (a.1, a.2.toList)).reverse

theorem addAttribute_eq_ok_iff {tag next : StartTag} {a : String × String} :
    addAttribute tag a = .ok next ↔
      (isName a.1.toList = true ∧ a.2.toList.all isXmlChar = true)
        ∧ a.1 ∉ tag.attributes.map (·.1)
        ∧ next = ⟨tag.name, (a.1, a.2.toList) :: tag.attributes⟩ := by
  have fresh : (tag.attributes.lookup a.1).isNone = true ↔ a.1 ∉ tag.attributes.map (·.1) := by
    rw [Option.isNone_iff_eq_none, List.lookup_eq_none_iff]
    simp only [List.mem_map, not_exists, not_and, bne_iff_ne]
    exact ⟨fun h b mem eq => h b mem eq.symm, fun h b mem eq => h b mem eq.symm⟩
  unfold addAttribute
  split
  · rename_i h
    rw [Bool.and_eq_true, Bool.and_eq_true, fresh] at h
    constructor
    · intro eq
      cases eq
      exact ⟨h.1, h.2, rfl⟩
    · rintro ⟨-, -, rfl⟩
      rfl
  · rename_i h
    rw [Bool.and_eq_true, Bool.and_eq_true, fresh] at h
    exact iff_of_false (fun eq => nomatch eq) fun ⟨named, new, _⟩ => h ⟨named, new⟩

/-- Attributes are added if they can be read and are not there yet. -/
theorem addAttributes_eq_ok_iff {attributes : List (String × String)} {start tag : StartTag} :
    attributes.foldlM addAttribute start = .ok tag ↔
      AreAttributes attributes ∧ (∀ a ∈ attributes, a.1 ∉ start.attributes.map (·.1))
        ∧ tag = ⟨start.name, heldAttributes attributes ++ start.attributes⟩ := by
  -- over the tag that has been read so far, to which the new attributes must be new
  induction attributes generalizing start with
  | nil =>
    constructor
    · intro h
      cases h
      exact ⟨⟨by simp, by simp⟩, by simp, rfl⟩
    · rintro ⟨-, -, rfl⟩
      rfl
  | cons a attributes ih =>
    have held : heldAttributes (a :: attributes)
        = heldAttributes attributes ++ [(a.1, a.2.toList)] := by simp [heldAttributes]
    rw [List.foldlM_cons, held, List.append_assoc, List.singleton_append]
    constructor
    · intro h
      rcases added : addAttribute start a with fault | next
      · rw [added] at h
        cases h
      rw [added] at h
      obtain ⟨legible, new, rfl⟩ := addAttribute_eq_ok_iff.mp added
      obtain ⟨rest, others, rfl⟩ := ih.mp h
      simp only [List.map_cons, List.mem_cons, not_or] at others
      refine ⟨⟨List.forall_mem_cons.mpr ⟨legible, rest.legible⟩,
        List.nodup_cons.mpr ⟨fun mem => ?_, rest.distinct⟩⟩,
        List.forall_mem_cons.mpr ⟨new, fun b mem => (others b mem).2⟩, rfl⟩
      obtain ⟨b, among, eq⟩ := List.mem_map.mp mem
      exact (others b among).1 eq
    · rintro ⟨all, new, rfl⟩
      obtain ⟨legible, rest⟩ := List.forall_mem_cons.mp all.legible
      obtain ⟨fresh, others⟩ := List.forall_mem_cons.mp new
      obtain ⟨alone, distinct⟩ := List.nodup_cons.mp all.distinct
      rw [addAttribute_eq_ok_iff.mpr ⟨legible, fresh, rfl⟩]
      refine ih.mpr ⟨⟨rest, distinct⟩, fun b mem => ?_, rfl⟩
      simp only [List.map_cons, List.mem_cons, not_or]
      exact ⟨fun eq => alone (List.mem_map.mpr ⟨b, mem, eq⟩), others b mem⟩

/-- A start tag is read if its names and values can be. -/
theorem readTag_eq_ok_iff {name : String} {attributes : List (String × String)} {tag : StartTag} :
    readTag name attributes = .ok tag ↔
      isName name.toList = true ∧ AreAttributes attributes
        ∧ tag = ⟨name, heldAttributes attributes⟩ := by
  unfold readTag
  split
  · rename_i named
    rw [addAttributes_eq_ok_iff]
    simp [named]
  · rename_i named
    exact iff_of_false (fun eq => nomatch eq) fun h => named h.1

/-- The attributes of an element as entries. -/
def attributeEntries (attributes : List (String × String)) : Entries :=
  attributes.map fun a => (.text (Wire.attributeMark ++ a.1), .text a.2)

theorem attributes_eq (name : String) (attributes : List (String × String)) :
    Doctype.attributes {} ⟨name, heldAttributes attributes⟩ = attributeEntries attributes := by
  simp only [Doctype.attributes, heldAttributes, List.reverse_reverse, List.map_map,
    List.filterMap_nil, List.append_nil, attributeEntries]
  refine List.map_congr_left fun a _ => ?_
  simp [Doctype.value, Doctype.rule?, attributeEntry]

/-! ### Nodes -/

mutual

/-- The node can be read where it is written. -/
def Node.IsLegible : Node → Prop
  | .comment none => True
  | .comment (some s) => s.toList.all isXmlChar = true
  | .element name attributes children text =>
    (isName name.toList = true ∧ AreAttributes attributes) ∧ AreLegible children
      ∧ isReadable text = true

/-- All nodes of the list can be read where they are written. -/
def AreLegible : List Node → Prop
  | [] => True
  | n :: rest => n.IsLegible ∧ AreLegible rest

end

/-- An element is read if its tag, its text and what is inside can be. -/
theorem exists_readElement_iff {name : String} {attributes : List (String × String)}
    {text : String} {inner : Entries → Except Failure Entries} {P : Prop}
    (inside : ∀ es, (∃ fs, inner es = .ok fs) ↔ P) :
    (∃ t, readElement name attributes text inner = .ok t)
      ↔ (isName name.toList = true ∧ AreAttributes attributes) ∧ P ∧ isReadable text = true := by
  -- tag, inside and text are read in this order, and each of them can fail
  rw [readElement]
  rcases read : readTag name attributes with fault | tag
  · refine iff_of_false (by rintro ⟨_, ⟨⟩⟩) ?_
    rintro ⟨⟨named, legible⟩, -⟩
    rw [readTag_eq_ok_iff.mpr ⟨named, legible, rfl⟩] at read
    cases read
  obtain ⟨named, legible, rfl⟩ := readTag_eq_ok_iff.mp read
  have inside := inside (Doctype.attributes {} ⟨name, heldAttributes attributes⟩)
  show (∃ t, (inner (Doctype.attributes {} ⟨name, heldAttributes attributes⟩) >>= _) = .ok t) ↔ _
  rcases result : inner (Doctype.attributes {} ⟨name, heldAttributes attributes⟩) with fault | fs
  · refine iff_of_false (by rintro ⟨_, ⟨⟩⟩) ?_
    rintro ⟨-, holds, -⟩
    obtain ⟨fs, eq⟩ := inside.mpr holds
    rw [result] at eq
    cases eq
  · have holds : P := inside.mp ⟨fs, result⟩
    have value := exists_value_iff name fs text
    show (∃ t, (if text.toList.all isXmlChar then _ else _) = Except.ok t) ↔ _
    rw [isReadable]
    cases text.toList.all isXmlChar
    · exact iff_of_false (by rintro ⟨_, ⟨⟩⟩) (by rintro ⟨-, -, ⟨⟩⟩)
    · simpa [named, legible, holds] using value

mutual

/-- A node is added to the entries that are read just if it is legible. -/
theorem exists_addTo_iff (n : Node) (es : Entries) :
    (∃ fs, n.addTo es = .ok fs) ↔ n.IsLegible := by
  cases n with
  | comment text =>
    cases text with
    | none => exact iff_of_true ⟨_, rfl⟩ trivial
    | some s =>
      rw [Node.addTo, Node.IsLegible]
      split
      · rename_i h
        exact iff_of_true ⟨_, rfl⟩ h
      · rename_i h
        exact iff_of_false (fun ⟨_, eq⟩ => nomatch eq) h
  | element name attributes children text =>
    rw [Node.IsLegible, ← exists_readElement_iff (exists_addAll_iff children), Node.addTo]
    rcases readElement name attributes text fun es => addAll es children with fault | t
    · exact iff_of_false (fun ⟨_, eq⟩ => nomatch eq) fun ⟨_, eq⟩ => nomatch eq
    · exact iff_of_true ⟨_, rfl⟩ ⟨_, rfl⟩

theorem exists_addAll_iff (nodes : List Node) (es : Entries) :
    (∃ fs, addAll es nodes = .ok fs) ↔ AreLegible nodes := by
  cases nodes with
  | nil => exact iff_of_true ⟨_, rfl⟩ trivial
  | cons n nodes =>
    rw [addAll, AreLegible]
    have here := exists_addTo_iff n es
    rcases result : n.addTo es with fault | fs
    · refine iff_of_false (fun ⟨_, eq⟩ => nomatch eq) fun h => ?_
      obtain ⟨fs, eq⟩ := here.mpr h.1
      rw [result] at eq
      cases eq
    · have legible : n.IsLegible := here.mp ⟨fs, result⟩
      exact (exists_addAll_iff nodes fs).trans (by simp [legible])

end

end DefinitionTree.Xml
