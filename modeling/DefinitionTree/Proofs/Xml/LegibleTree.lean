/-
DefinitionTree/Proofs/Xml/LegibleTree.lean

Trees that are read again where they are written.

Whether the element of a tree can be written and read can be seen from the tree.  Every
text in it must be one, without an integer that is too long, and made of characters of
markup.  The keys of attributes and children must be names of markup, and no attribute
may come twice.  Comments must not hold two hyphens side by side, nor end in one.

What stands in an attribute, in a text or in a list of lists is written as a text,
whatever it is.

Main definitions and statements:

* `Tree.IsLegible`: trees that can be written and read;
* `Xml.exists_reread_iff`: just these are read again.
-/
import DefinitionTree.Proofs.Xml.Element

namespace DefinitionTree

open Xml

/-! ### Values that are written as texts -/

/-- The tree has a text, and an element with this text is read. -/
def Tree.isReadable (t : Tree) : Bool := t.isWritable && Xml.isReadable t.scalarText

/-- The tree has a text that an attribute may hold. -/
def Tree.isAttribute (t : Tree) : Bool := t.isWritable && t.scalarText.toList.all isXmlChar

/-- The tree has a text that a comment may hold. -/
def Tree.isComment (t : Tree) : Bool :=
  t.isAttribute && !hasDoubleHyphen t.scalarText.toList
    && t.scalarText.toList.getLast? ≠ some '-'

namespace Xml

/-! ### Entries of a mapping -/

/-- The attributes among the entries have different names of markup, and values that
attributes may hold. -/
structure HasLegibleAttributes (es : Entries) : Prop where
  legible : ∀ e ∈ es, ∀ s, attributeName? e.1 = some s →
    isName s.toList = true ∧ e.2.isAttribute = true
  distinct : (es.filterMap fun e => attributeName? e.1).Nodup

/-- The key is neither that of a text or a comment, nor that of an attribute. -/
def IsChildKey (k : Key) : Prop :=
  k ≠ Wire.textKey ∧ k ≠ commentKey ∧ attributeName? k = none

/-- The key is a name of markup. -/
def IsNameKey (k : Key) : Prop := ∃ s, k = .text s ∧ isName s.toList = true

/-- The values that elements under a key are made of: the items of a list, and anything
else by itself. -/
def itemsOf : Tree → List Tree
  | .list ts => ts
  | t => [t]

theorem itemsOf_of_ne_list {t : Tree} (noList : ∀ ts, t ≠ .list ts) : itemsOf t = [t] := by
  rw [itemsOf]
  exact noList

end Xml

/-! ### Trees -/

/-- The element of the tree can be written and read. -/
inductive Tree.IsLegible : Tree → Prop
  | bare {t : Tree} : t.isMap = false → t.isReadable = true → IsLegible t
  | map {es : Entries} : (Wire.textIn es).isReadable = true → HasLegibleAttributes es →
    (∀ e ∈ es, e.1 = commentKey → ∀ u ∈ itemsOf e.2, u.isComment = true) →
    (∀ e ∈ es, IsChildKey e.1 → itemsOf e.2 ≠ [] → IsNameKey e.1) →
    (∀ e ∈ es, IsChildKey e.1 → ∀ u ∈ itemsOf e.2, IsLegible u) → IsLegible (.map es)

/-- The nodes of an entry can be written and read. -/
structure Xml.IsLegibleEntry (e : Key × Tree) : Prop where
  comments : e.1 = commentKey → ∀ u ∈ itemsOf e.2, u.isComment = true
  name : IsChildKey e.1 → itemsOf e.2 ≠ [] → IsNameKey e.1
  children : IsChildKey e.1 → ∀ u ∈ itemsOf e.2, u.IsLegible

namespace Tree

theorem isLegible_bare_iff {t : Tree} (noMap : t.isMap = false) :
    t.IsLegible ↔ t.isReadable = true := by
  refine ⟨fun legible => ?_, .bare noMap⟩
  cases legible with
  | bare _ readable => exact readable
  | map => cases noMap

theorem isLegible_map_iff {es : Entries} : (map es).IsLegible ↔
    (Wire.textIn es).isReadable = true ∧ HasLegibleAttributes es ∧
      ∀ e ∈ es, IsLegibleEntry e := by
  constructor
  · intro legible
    cases legible with
    | bare noMap => cases noMap
    | map text attributes comments names children =>
      exact ⟨text, attributes, fun e he => ⟨comments e he, names e he, children e he⟩⟩
  · rintro ⟨text, attributes, entries⟩
    exact .map text attributes (fun e he => (entries e he).comments)
      (fun e he => (entries e he).name) fun e he => (entries e he).children

end Tree

namespace Xml

/-! ### Texts -/

/-- A property of the text that a tree has. -/
theorem exists_toText_iff {t : Tree} {P : String → Prop} :
    (∃ s, t.toText = .ok s ∧ P s) ↔ t.isWritable = true ∧ P t.scalarText := by
  simp only [Tree.toText_eq_ok_iff, and_assoc, exists_and_left, exists_eq_left']

/-- A comment can be written and read if a comment may hold its text. -/
theorem exists_comment_iff (t : Tree) :
    (∃ n, commentOf t = .ok n ∧ n.IsLegible) ↔ t.isComment = true := by
  let node (s : String) : Except Failure Node :=
    if s = "" then .ok (.comment none)
    else if hasDoubleHyphen s.toList then .error .commentHyphens
    else if s.toList.getLast? = some '-' then .error .commentEndsInHyphen
    else .ok (.comment (some s))
  have legible (s : String) : (∃ n, node s = .ok n ∧ n.IsLegible) ↔
      s.toList.all isXmlChar = true ∧ hasDoubleHyphen s.toList = false
        ∧ s.toList.getLast? ≠ some '-' := by
    simp only [node]
    split
    · rename_i empty
      subst empty
      exact iff_of_true ⟨_, rfl, trivial⟩ (by decide)
    split
    · rename_i double
      simp [double]
    split
    · rename_i last
      simp [last]
    · rename_i single last
      simp [Node.IsLegible, single, last]
  have bound : commentOf t = t.toText >>= node := rfl
  simp only [bound, exists_bind_iff, legible, exists_toText_iff, Tree.isComment, Tree.isAttribute,
    Bool.and_eq_true, Bool.not_eq_true', decide_eq_true_eq, and_assoc]

/-! ### Attributes -/

/-- Of an entry with the key of an attribute the attribute comes first. -/
theorem attributesOf_cons {k : Key} {s : String} (named : attributeName? k = some s) (t : Tree)
    (es : Entries) : attributesOf ((k, t) :: es) = nameOf .attribute (.text s) >>= fun name =>
      t.toText >>= fun value => attributesOf es >>= fun rest => .ok ((name, value) :: rest) := by
  rw [attributesOf, named]
  rfl

theorem attributesOf_cons_other {k : Key} (other : attributeName? k = none) (t : Tree)
    (es : Entries) : attributesOf ((k, t) :: es) = attributesOf es := by
  rw [attributesOf, other]

/-- The names of attributes are what their keys say. -/
theorem names_of_attributesOf {es : Entries} {attributes : List (String × String)}
    (h : attributesOf es = .ok attributes) :
    attributes.map (·.1) = es.filterMap fun e => attributeName? e.1 := by
  induction es generalizing attributes with
  | nil =>
    cases h
    rfl
  | cons e es ih =>
    obtain ⟨k, t⟩ := e
    rcases named : attributeName? k with - | s
    · rw [attributesOf_cons_other named] at h
      simp only [ih h, List.filterMap_cons, named]
    · rw [attributesOf_cons named] at h
      obtain ⟨name, spelled, h⟩ := bind_eq_ok_iff.mp h
      obtain ⟨value, -, h⟩ := bind_eq_ok_iff.mp h
      obtain ⟨more, rest, h⟩ := bind_eq_ok_iff.mp h
      cases h
      obtain ⟨same, -⟩ := nameFault?_of_nameOf spelled
      cases same
      simp only [List.map_cons, ih rest, List.filterMap_cons, named]

/-- Attributes that can be written have names and values that can be read if their
entries say so. -/
theorem exists_legible_iff (es : Entries) :
    (∃ attributes, attributesOf es = .ok attributes ∧
      ∀ a ∈ attributes, isName a.1.toList = true ∧ a.2.toList.all isXmlChar = true) ↔
      ∀ e ∈ es, ∀ s, attributeName? e.1 = some s →
        isName s.toList = true ∧ e.2.isAttribute = true := by
  induction es with
  | nil => exact iff_of_true ⟨[], rfl, nofun⟩ nofun
  | cons e es ih =>
    obtain ⟨k, t⟩ := e
    rw [List.forall_mem_cons, ← ih]
    rcases named : attributeName? k with - | s
    · rw [attributesOf_cons_other named]
      simp
    · simp only [attributesOf_cons named, exists_bind_iff, Except.ok.injEq, exists_eq_left',
        List.forall_mem_cons]
      constructor
      · rintro ⟨name, spelled, value, text, more, rest, ⟨isName, chars⟩, others⟩
        obtain ⟨same, -⟩ := nameFault?_of_nameOf spelled
        cases same
        obtain ⟨writable, rfl⟩ := Tree.toText_eq_ok_iff.mp text
        have held : t.isAttribute = true := by rw [Tree.isAttribute, writable, chars]; rfl
        exact ⟨fun _ eq => Option.some.inj eq ▸ ⟨isName, held⟩, more, rest, others⟩
      · rintro ⟨here, more, rest, others⟩
        obtain ⟨isName, held⟩ := here s rfl
        rw [Tree.isAttribute, Bool.and_eq_true] at held
        exact ⟨s, by rw [nameOf, nameFault?_of_isName isName], _, Tree.toText_eq_ok held.1,
          more, rest, ⟨isName, held.2⟩, others⟩

/-- Attributes can be written and read if they have names and values that can. -/
theorem exists_attributes_iff (es : Entries) :
    (∃ attributes, attributesOf es = .ok attributes ∧ AreAttributes attributes) ↔
      HasLegibleAttributes es := by
  constructor
  · rintro ⟨attributes, tagged, legible, distinct⟩
    exact ⟨(exists_legible_iff es).mp ⟨attributes, tagged, legible⟩,
      names_of_attributesOf tagged ▸ distinct⟩
  · rintro ⟨legible, distinct⟩
    obtain ⟨attributes, tagged, legible⟩ := (exists_legible_iff es).mpr legible
    exact ⟨attributes, tagged, legible, (names_of_attributesOf tagged).symm ▸ distinct⟩

/-! ### Nodes -/

@[simp] theorem areLegible_append_iff {ns ms : List Node} :
    AreLegible (ns ++ ms) ↔ AreLegible ns ∧ AreLegible ms := by
  induction ns with
  | nil => simp [AreLegible]
  | cons n ns ih => rw [List.cons_append, AreLegible, AreLegible, ih, and_assoc]

/-- Nodes that are made one by one can be written and read if each of them can. -/
theorem exists_nodes_iff {make : Tree → Except Failure Node} {P : Tree → Prop} {ts : List Tree}
    (each : ∀ t ∈ ts, (∃ n, make t = .ok n ∧ n.IsLegible) ↔ P t) :
    (∃ nodes, ts.mapM make = .ok nodes ∧ AreLegible nodes) ↔ ∀ t ∈ ts, P t := by
  induction ts with
  | nil => exact iff_of_true ⟨[], rfl, trivial⟩ nofun
  | cons t ts ih =>
    obtain ⟨here, there⟩ := List.forall_mem_cons.mp each
    have bound : (t :: ts).mapM make
        = make t >>= fun n => ts.mapM make >>= fun nodes => .ok (n :: nodes) := List.mapM_cons
    rw [List.forall_mem_cons, ← here, ← ih there, ← exists_both_iff, bound]
    simp only [exists_bind_iff, Except.ok.injEq, exists_eq_left', AreLegible]

theorem elementsOf_eq_mapM (name : String) (ts : List Tree) :
    elementsOf name ts = ts.mapM (elementOf name) := by
  induction ts with
  | nil =>
    rw [elementsOf]
    rfl
  | cons t ts ih =>
    rw [elementsOf, ih, List.mapM_cons]

theorem commentsOf_eq_mapM (t : Tree) : commentsOf t = (itemsOf t).mapM commentOf := by
  cases t <;> simp [commentsOf, itemsOf]

theorem nodesOf_eq_mapM (k : Key) (t : Tree) :
    nodesOf k t = nameOf .element k >>= fun name => (itemsOf t).mapM (elementOf name) := by
  cases t <;> simp [nodesOf, itemsOf, elementsOf_eq_mapM]

/-- The element of the tree can be written and read, under any name of markup, just if
the tree is legible. -/
def IsDecided (t : Tree) : Prop :=
  ∀ name, (∃ n, elementOf name t = .ok n ∧ n.IsLegible) ↔ isName name.toList = true ∧ t.IsLegible

theorem exists_nodesOf_iff {k : Key} {t : Tree} (some_ : itemsOf t ≠ [])
    (decided : ∀ u ∈ itemsOf t, IsDecided u) :
    (∃ nodes, nodesOf k t = .ok nodes ∧ AreLegible nodes) ↔
      IsNameKey k ∧ ∀ u ∈ itemsOf t, u.IsLegible := by
  simp only [nodesOf_eq_mapM, exists_bind_iff]
  constructor
  · rintro ⟨name, spelled, nodes⟩
    have each := (exists_nodes_iff fun u mem => decided u mem name).mp nodes
    obtain ⟨u, mem⟩ := List.exists_mem_of_ne_nil _ some_
    exact ⟨⟨name, (nameFault?_of_nameOf spelled).1, (each u mem).1⟩, fun u mem => (each u mem).2⟩
  · rintro ⟨⟨s, rfl, named⟩, legible⟩
    exact ⟨s, by rw [nameOf, nameFault?_of_isName named],
      (exists_nodes_iff fun u mem => decided u mem s).mpr fun u mem => ⟨named, legible u mem⟩⟩

/-- The nodes of one entry. -/
def entryNodes (k : Key) (t : Tree) : Except Failure (List Node) :=
  if k = Wire.textKey ∨ (attributeName? k).isSome = true ∨ itemsOf t = [] then .ok []
  else if k = commentKey then commentsOf t
  else nodesOf k t

theorem childrenOf_cons_eq (k : Key) (t : Tree) (es : Entries) :
    childrenOf ((k, t) :: es) = entryNodes k t >>= fun first =>
      childrenOf es >>= fun rest => .ok (first ++ rest) := by
  have nothing : childrenOf es = Except.ok [] >>= fun first =>
      childrenOf es >>= fun rest => .ok (first ++ rest) := by
    rcases childrenOf es with fault | nodes <;> rfl
  rw [entryNodes]
  by_cases empty : t = .list []
  · subst empty
    rw [if_pos (.inr (.inr rfl)), ← nothing, childrenOf]
    split <;> rfl
  have items : itemsOf t ≠ [] := by
    cases t with
    | list ts => exact fun none => empty (congrArg Tree.list none)
    | _ => exact List.cons_ne_nil _ _
  rw [childrenOf]
  · by_cases outer : k = Wire.textKey ∨ (attributeName? k).isSome = true
    · rw [if_pos (by simpa using outer), if_pos (by tauto)]
      exact nothing
    have kept : ¬(k = Wire.textKey ∨ (attributeName? k).isSome = true ∨ itemsOf t = []) := by
      tauto
    rw [if_neg (by simpa using outer), if_neg kept]
    split <;> rfl
  · exact empty

theorem exists_entryNodes_iff {e : Key × Tree} (decided : ∀ u ∈ itemsOf e.2, IsDecided u) :
    (∃ nodes, entryNodes e.1 e.2 = .ok nodes ∧ AreLegible nodes) ↔ IsLegibleEntry e := by
  rw [entryNodes]
  split
  · rename_i outer
    have noChild : IsChildKey e.1 → itemsOf e.2 = [] := by
      rintro ⟨noText, -, noAttribute⟩
      rw [noAttribute] at outer
      simpa [noText] using outer
    have noComment : e.1 = commentKey → itemsOf e.2 = [] := by
      intro comment
      have noAttribute : attributeName? commentKey = none := by decide
      rw [comment, noAttribute] at outer
      simpa using outer.resolve_left (by decide)
    refine iff_of_true ⟨[], rfl, trivial⟩ ⟨fun comment => ?_, fun child => ?_, fun child => ?_⟩
    · simp [noComment comment]
    · exact absurd (noChild child)
    · simp [noChild child]
  rename_i inner
  simp only [not_or] at inner
  obtain ⟨noText, noAttribute, items⟩ := inner
  split
  · rename_i comment
    rw [commentsOf_eq_mapM, exists_nodes_iff fun u _ => exists_comment_iff u]
    exact ⟨fun comments => ⟨fun _ => comments, fun child => absurd comment child.2.1,
      fun child => absurd comment child.2.1⟩, fun legible => legible.comments comment⟩
  · rename_i noComment
    have child : IsChildKey e.1 := ⟨noText, noComment, by simpa using noAttribute⟩
    rw [exists_nodesOf_iff items decided]
    exact ⟨fun both => ⟨fun comment => absurd comment noComment, fun _ _ => both.1,
      fun _ => both.2⟩, fun legible => ⟨legible.name child items, legible.children child⟩⟩

theorem exists_childrenOf_iff {es : Entries} (decided : ∀ e ∈ es, ∀ u ∈ itemsOf e.2, IsDecided u) :
    (∃ nodes, childrenOf es = .ok nodes ∧ AreLegible nodes) ↔ ∀ e ∈ es, IsLegibleEntry e := by
  induction es with
  | nil => exact iff_of_true ⟨[], by rw [childrenOf], trivial⟩ nofun
  | cons e es ih =>
    obtain ⟨here, there⟩ := List.forall_mem_cons.mp decided
    rw [List.forall_mem_cons, ← exists_entryNodes_iff here, ← ih there, ← exists_both_iff,
      childrenOf_cons_eq]
    simp only [exists_bind_iff, Except.ok.injEq, exists_eq_left', areLegible_append_iff]

/-! ### Elements -/

theorem isDecided_bare {t : Tree} (noMap : t.isMap = false) : IsDecided t := by
  intro name
  have node (s : String) : (Node.element name [] [] s).IsLegible ↔
      isName name.toList = true ∧ isReadable s = true := by
    simp [Node.IsLegible, AreLegible, noAttributes]
  have bound : elementOf name t = t.toText >>= fun s => .ok (.element name [] [] s) :=
    elementOf_bare noMap name
  rw [bound, exists_bind_iff, Tree.isLegible_bare_iff noMap, Tree.isReadable, Bool.and_eq_true]
  simp only [Except.ok.injEq, exists_eq_left', node, exists_toText_iff]
  tauto

theorem isDecided_map {es : Entries} (decided : ∀ e ∈ es, ∀ u ∈ itemsOf e.2, IsDecided u) :
    IsDecided (.map es) := by
  intro name
  rw [Tree.isLegible_map_iff, ← exists_attributes_iff, ← exists_childrenOf_iff decided]
  simp only [elementOf, exists_bind_iff, exists_toText_iff, textOf, pure, Except.pure,
    Except.ok.injEq, exists_eq_left', Node.IsLegible, Tree.isReadable, Bool.and_eq_true]
  constructor
  · rintro ⟨writable, attributes, tagged, nodes, inside, ⟨named, legible⟩, children, readable⟩
    exact ⟨named, ⟨writable, readable⟩, ⟨attributes, tagged, legible⟩, nodes, inside, children⟩
  · rintro ⟨named, ⟨writable, readable⟩, ⟨attributes, tagged, legible⟩, nodes, inside, children⟩
    exact ⟨writable, attributes, tagged, nodes, inside, ⟨named, legible⟩, children, readable⟩

/-- The induction is over the tree together with its items, if it is a list, since both
may become elements. -/
theorem isDecided (t : Tree) : IsDecided t := by
  have both : IsDecided t ∧ ∀ u ∈ itemsOf t, IsDecided u := by
    induction t using Tree.induct with
    | leaf t scalar =>
      have element := isDecided_bare (Tree.isMap_leaf scalar)
      rw [itemsOf_of_ne_list (Tree.ne_list_leaf scalar), List.forall_mem_singleton]
      exact ⟨element, element⟩
    | list ts ih => exact ⟨isDecided_bare rfl, fun u mem => (ih u mem).1⟩
    | map es ih =>
      have element := isDecided_map fun e he => (ih e he).2
      exact ⟨element, List.forall_mem_singleton.mpr element⟩
  exact both.1

/-- Just the legible trees are read where they are written. -/
theorem exists_reread_iff {name : String} {t : Tree} :
    (∃ u, reread name t = .ok u) ↔ isName name.toList = true ∧ t.IsLegible := by
  rw [← isDecided t name]
  constructor
  · rintro ⟨u, read⟩
    obtain ⟨n, element, read⟩ := bind_eq_ok_iff.mp read
    exact ⟨n, element, (exists_read_iff element).mp ⟨u, read⟩⟩
  · rintro ⟨n, element, legible⟩
    obtain ⟨u, read⟩ := (exists_read_iff element).mpr legible
    exact ⟨u, (bind_of_ok element Node.read).trans read⟩

end Xml

end DefinitionTree
