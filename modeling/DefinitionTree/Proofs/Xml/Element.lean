/-
DefinitionTree/Proofs/Xml/Element.lean

Trees that were written as elements and read again.

Main definitions:

* `reread`: what a tree is read as where it was written.

Main statements:

* `elementOf_isWritable`: whatever becomes a node can be written;
* `definition_write`: a definition that was written is read as its tree;
* `reread_leaf`, `reread_eq`: what scalars and mappings are read as;
* `isMap_of_read`: an element with a child is read as a mapping.
-/
import DefinitionTree.Proofs.Outcome
import DefinitionTree.Proofs.Tree.Induction
import DefinitionTree.Proofs.Tree.Keys
import DefinitionTree.Proofs.Xml.Legible

namespace DefinitionTree.Xml

/-! ### What becomes a node can be written -/

theorem nameFault?_of_nameOf {place : NamePlace} {k : Key} {name : String}
    (h : nameOf place k = .ok name) : k = .text name ∧ nameFault? name = none := by
  unfold nameOf at h
  split at h
  · split at h
    · cases h
    · rename_i none
      cases h
      exact ⟨rfl, none⟩
  · cases h

theorem attributesOf_writable {es : Entries} {attributes : List (String × String)}
    (h : attributesOf es = .ok attributes) : ∀ a ∈ attributes, nameFault? a.1 = none := by
  induction es generalizing attributes with
  | nil =>
    cases h
    simp
  | cons e es ih =>
    obtain ⟨k, t⟩ := e
    unfold attributesOf at h
    split at h
    · obtain ⟨name, named, h⟩ := bind_eq_ok_iff.mp h
      obtain ⟨value, -, h⟩ := bind_eq_ok_iff.mp h
      obtain ⟨more, rest, h⟩ := bind_eq_ok_iff.mp h
      cases h
      exact List.forall_mem_cons.mpr ⟨(nameFault?_of_nameOf named).2, ih rest⟩
    · exact ih h

theorem commentOf_isWritable {t : Tree} {n : Node} (h : commentOf t = .ok n) : n.IsWritable := by
  obtain ⟨text, -, h⟩ := bind_eq_ok_iff.mp h
  split at h
  · cases h
    trivial
  split at h
  · cases h
  split at h
  · cases h
  · rename_i single last
    cases h
    exact ⟨by simpa using single, last⟩

theorem areWritable_iff {nodes : List Node} : AreWritable nodes ↔ ∀ n ∈ nodes, n.IsWritable := by
  induction nodes with
  | nil => simp [AreWritable]
  | cons n nodes ih => rw [AreWritable, ih, List.forall_mem_cons]

theorem commentsOf_areWritable {t : Tree} {nodes : List Node} (h : commentsOf t = .ok nodes) :
    AreWritable nodes := by
  have list {ts : List Tree} {nodes : List Node} (h : ts.mapM commentOf = .ok nodes) :
      AreWritable nodes := by
    induction ts generalizing nodes with
    | nil =>
      cases h
      trivial
    | cons t ts ih =>
      rw [List.mapM_cons] at h
      obtain ⟨n, here, h⟩ := bind_eq_ok_iff.mp h
      obtain ⟨more, rest, h⟩ := bind_eq_ok_iff.mp h
      cases h
      exact ⟨commentOf_isWritable here, ih rest⟩
  unfold commentsOf at h
  split at h
  · exact list h
  · obtain ⟨n, here, rfl⟩ := map_eq_ok_iff.mp h
    exact ⟨commentOf_isWritable here, trivial⟩

/-- What is no mapping is the text of an element. -/
theorem elementOf_bare {t : Tree} (noMap : t.isMap = false) (name : String) :
    elementOf name t = (fun s => .element name [] [] s) <$> t.toText := by
  rw [elementOf]
  rintro es rfl
  cases noMap

theorem elementOf_leaf {t : Tree} (noMap : t.isMap = false) (writable : t.isWritable = true)
    (name : String) : elementOf name t = .ok (.element name [] [] t.scalarText) := by
  rw [elementOf_bare noMap, Tree.toText_eq_ok writable]
  rfl

/-- The element of a mapping is made of its text, its attributes and its children. -/
theorem elementOf_map_eq_ok {es : Entries} {name : String} {n : Node}
    (h : elementOf name (.map es) = .ok n) : ∃ text attributes children,
      textOf es = .ok text ∧ attributesOf es = .ok attributes ∧ childrenOf es = .ok children ∧
        n = .element name attributes children text := by
  rw [elementOf] at h
  obtain ⟨text, held, h⟩ := bind_eq_ok_iff.mp h
  obtain ⟨attributes, tagged, h⟩ := bind_eq_ok_iff.mp h
  obtain ⟨children, inside, h⟩ := bind_eq_ok_iff.mp h
  cases h
  exact ⟨text, attributes, children, held, tagged, inside, rfl⟩

theorem nodesOf_single {t : Tree} (noList : ∀ ts, t ≠ .list ts) (k : Key) :
    nodesOf k t = nameOf .element k >>= fun name =>
      elementOf name t >>= fun n => .ok [n] := by
  rw [nodesOf]
  · rfl
  · exact noList

theorem childrenOf_areWritable {es : Entries} {nodes : List Node}
    (each : ∀ e ∈ es, ∀ {k nodes}, nodesOf k e.2 = .ok nodes → AreWritable nodes)
    (h : childrenOf es = .ok nodes) : AreWritable nodes := by
  induction es generalizing nodes with
  | nil =>
    rw [childrenOf] at h
    cases h
    trivial
  | cons e es ih =>
    obtain ⟨k, t⟩ := e
    obtain ⟨here, there⟩ := List.forall_mem_cons.mp each
    unfold childrenOf at h
    split at h
    · exact ih there h
    split at h
    · exact ih there h
    have both {first nodes : List Node} (writable : AreWritable first)
        (h : (childrenOf es >>= fun more => pure (first ++ more)) = Except.ok nodes) :
        AreWritable nodes := by
      obtain ⟨more, rest, eq⟩ := bind_eq_ok_iff.mp h
      cases eq
      rw [areWritable_iff] at writable ⊢
      exact List.forall_mem_append.mpr ⟨writable, areWritable_iff.mp (ih there rest)⟩
    simp only at h
    split at h
    · obtain ⟨first, comments, h⟩ := bind_eq_ok_iff.mp h
      exact both (commentsOf_areWritable comments) h
    · obtain ⟨first, nodes, h⟩ := bind_eq_ok_iff.mp h
      exact both (here nodes) h

theorem elementsOf_areWritable {ts : List Tree} {name : String} {nodes : List Node}
    (each : ∀ t ∈ ts, ∀ {n}, elementOf name t = .ok n → n.IsWritable)
    (h : elementsOf name ts = .ok nodes) : AreWritable nodes := by
  induction ts generalizing nodes with
  | nil =>
    rw [elementsOf] at h
    cases h
    trivial
  | cons t ts ih =>
    obtain ⟨here, there⟩ := List.forall_mem_cons.mp each
    rw [elementsOf] at h
    obtain ⟨n, first, h⟩ := bind_eq_ok_iff.mp h
    obtain ⟨more, rest, h⟩ := bind_eq_ok_iff.mp h
    cases h
    exact ⟨here first, ih there rest⟩

/-- The element of anything but a mapping can be written, under a name that can. -/
theorem isWritable_of_bare {t : Tree} (noMap : t.isMap = false) {name : String} {n : Node}
    (writable : nameFault? name = none) (h : elementOf name t = .ok n) : n.IsWritable := by
  rw [elementOf_bare noMap] at h
  obtain ⟨text, -, rfl⟩ := map_eq_ok_iff.mp h
  exact ⟨writable, by simp, trivial⟩

/-- Under a key that is no list stands the element alone. -/
theorem areWritable_of_single {t : Tree} (noList : ∀ ts, t ≠ .list ts)
    (element : ∀ {name n}, nameFault? name = none → elementOf name t = .ok n → n.IsWritable)
    {k : Key} {nodes : List Node} (h : nodesOf k t = .ok nodes) : AreWritable nodes := by
  rw [nodesOf_single noList] at h
  obtain ⟨name, named, h⟩ := bind_eq_ok_iff.mp h
  obtain ⟨n, here, h⟩ := bind_eq_ok_iff.mp h
  cases h
  exact ⟨element (nameFault?_of_nameOf named).2 here, trivial⟩

/-- Whatever becomes nodes can be written: the element of a tree, and the nodes
of a key that holds it. -/
theorem writable_of_tree (t : Tree) :
    (∀ {name n}, nameFault? name = none → elementOf name t = .ok n → n.IsWritable)
      ∧ ∀ {k nodes}, nodesOf k t = .ok nodes → AreWritable nodes := by
  induction t using Tree.induct with
  | leaf t scalar =>
    have element := @isWritable_of_bare t (Tree.isMap_leaf scalar)
    exact ⟨element, areWritable_of_single (Tree.ne_list_leaf scalar) element⟩
  | list ts ih =>
    refine ⟨isWritable_of_bare rfl, fun {k nodes} h => ?_⟩
    rw [nodesOf] at h
    obtain ⟨name, named, h⟩ := bind_eq_ok_iff.mp h
    exact elementsOf_areWritable (fun t ht => (ih t ht).1 (nameFault?_of_nameOf named).2) h
  | map es ih =>
    have element {name : String} {n : Node} (writable : nameFault? name = none)
        (h : elementOf name (.map es) = .ok n) : n.IsWritable := by
      obtain ⟨text, attributes, children, -, tagged, inside, rfl⟩ := elementOf_map_eq_ok h
      exact ⟨writable, attributesOf_writable tagged,
        childrenOf_areWritable (fun e he => (ih e he).2) inside⟩
    exact ⟨element, areWritable_of_single (by simp) element⟩

/-- The element of a tree is one, and has the name that was asked for. -/
theorem exists_element {name : String} {t : Tree} {n : Node} (h : elementOf name t = .ok n) :
    ∃ attributes children text, n = .element name attributes children text := by
  rcases kind : t.isMap with - | -
  · rw [elementOf_bare kind] at h
    obtain ⟨text, -, rfl⟩ := map_eq_ok_iff.mp h
    exact ⟨_, _, _, rfl⟩
  · cases t with
    | map es =>
      obtain ⟨text, attributes, children, -, -, -, rfl⟩ := elementOf_map_eq_ok h
      exact ⟨_, _, _, rfl⟩
    | _ => cases kind

/-! ### Definitions -/

/-- What a node is read as. -/
def Node.read : Node → Except Failure Tree
  | .comment _ => .ok .null
  | .element name attributes children text =>
    readElement name attributes text (addAll · children)

/-- What a tree is read as where it was written as an element. -/
def reread (name : String) (t : Tree) : Except Failure Tree := elementOf name t >>= Node.read

/-- The entries of a definition, given what its outermost element is read as. -/
def contentOf : Tree → Except Failure Entries
  | .null => .ok []
  | .map es => .ok es
  | t => .error (.rootHoldsText t.shown)

theorem nameFault?_rootName : nameFault? rootName = none := by decide

/-- A definition is written as one element. -/
theorem write_bind {α : Type} (style : Style) (es : Entries) (f : String → Except Failure α) :
    (write style (.map es) >>= f)
      = elementOf rootName (.map es) >>= fun n => f (String.ofList (writeNodes style 0 [n])) := by
  have named : nameOf .element (.text rootName) = .ok rootName := by
    rw [nameOf, nameFault?_rootName]
  have nodes : nodesOf (.text rootName) (.map es)
      = elementOf rootName (.map es) >>= fun n => .ok [n] := by
    rw [nodesOf_single (by simp), named]
    rfl
  rw [write, nodes]
  rcases elementOf rootName (.map es) with fault | n <;> rfl

/-- A definition that was written is read as its tree. -/
theorem definition_write {style : Style} (plain : style.isPlain = true) (es : Entries) :
    (write style (.map es) >>= definition) = reread rootName (.map es) >>= contentOf := by
  rw [write_bind, reread, bind_assoc]
  refine bind_congr_ok fun n written => ?_
  obtain ⟨attributes, children, text, rfl⟩ := exists_element written
  have writable := (writable_of_tree (.map es)).1 nameFault?_rootName written
  refine (definition_writeNode plain writable).trans ?_
  rw [Node.read]
  refine bind_congr_ok fun t _ => ?_
  cases t <;> rfl

/-! ### Names of markup -/

theorem isNameChar_of_isBlank {c : Char} (h : Text.isBlank c = true) : isNameChar c = false :=
  @Text.forall_isBlank (isNameChar · = false) (by decide) c h

/-- All of a name are characters of names, and the first one is a letter. -/
theorem chars_of_isName {s : String} (named : isName s.toList = true) :
    (∀ c ∈ s.toList, isNameChar c = true) ∧ ∀ c, s.toList.head? = some c → isNameStart c = true := by
  obtain ⟨c, cs, chars, start, all⟩ := exists_cons_of_isName named
  rw [chars]
  refine ⟨List.forall_mem_cons.mpr ⟨isNameChar_of_isNameStart start,
    List.all_eq_true.mp all⟩, ?_⟩
  rintro d ⟨⟩
  exact start

/-- A name of markup can be written. -/
theorem nameFault?_of_isName {s : String} (named : isName s.toList = true) :
    nameFault? s = none := by
  obtain ⟨all, first⟩ := chars_of_isName named
  have lacks (p : Char → Bool) (h : ∀ c, p c = true → isNameChar c = false) :
      ¬holds p s = true := by
    intro holds
    obtain ⟨c, mem, pc⟩ := List.any_eq_true.mp holds
    have no := h c pc
    rw [all c mem] at no
    cases no
  have mark (c : Char) (h : isNameStart c = false) : s.toList.head? ≠ some c := by
    intro eq
    rw [first c eq] at h
    cases h
  have question := mark '?' (by decide)
  have exclamation := mark '!' (by decide)
  have brackets := lacks (fun c => c == '<' || c == '>') (by
    intro c h
    rcases Bool.or_eq_true .. |>.mp h with h | h <;> rw [beq_iff_eq.mp h] <;> decide)
  have slash := lacks (· == '/') (by
    intro c h
    rw [beq_iff_eq.mp h]
    decide)
  have quotes := lacks (fun c => c == '"' || c == '\'') (by
    intro c h
    rcases Bool.or_eq_true .. |>.mp h with h | h <;> rw [beq_iff_eq.mp h] <;> decide)
  have equals := lacks (· == '=') (by
    intro c h
    rw [beq_iff_eq.mp h]
    decide)
  have blank := lacks Text.isBlank fun c => isNameChar_of_isBlank
  rw [nameFault?, if_neg (by simp [question, exclamation]), if_neg brackets, if_neg slash,
    if_neg quotes, if_neg equals, if_neg blank]

/-- A name of markup is neither the key of an attribute nor another key with a mark. -/
theorem plain_of_isName {s : String} (named : isName s.toList = true) :
    attributeName? (.text s) = none ∧ Key.text s ≠ Wire.textKey ∧ Key.text s ≠ commentKey := by
  obtain ⟨-, first⟩ := chars_of_isName named
  refine ⟨?_, ?_, ?_⟩
  · rw [attributeName?]
    split
    · rename_i prefixed
      obtain ⟨rest, eq⟩ := List.isPrefixOf_iff_prefix.mp prefixed
      have start := first '@' (by rw [← eq]; rfl)
      exact absurd start (by decide)
    · rfl
  · intro eq
    cases eq
    exact absurd named (by decide)
  · intro eq
    cases eq
    exact absurd named (by decide)

/-! ### Scalars -/

/-- The value of an element that holds nothing but a text. -/
def textValue (s : String) : Except Failure Tree :=
  match heldText s with
  | [] => .ok .null
  | cs => literal (String.ofList cs)

theorem readElement_eq {name : String} {attributes : List (String × String)} {text : String}
    {inner : Entries → Except Failure Entries} (named : isName name.toList = true)
    (legible : AreAttributes attributes) :
    readElement name attributes text inner = inner (attributeEntries attributes) >>= fun es =>
      if text.toList.all isXmlChar then
        OpenElement.value ⟨name, es, (unifyLineBreaks text.toList).reverse⟩
      else .error .malformed := by
  rw [readElement, readTag_eq_ok_iff.mpr ⟨named, legible, rfl⟩]
  show (inner (Doctype.attributes {} ⟨name, heldAttributes attributes⟩) >>= _) = _
  rw [attributes_eq]

theorem noAttributes : AreAttributes [] := ⟨by simp, by simp⟩

/-- A mapping is read part by part: its attributes, its children and its text. -/
theorem reread_eq {name : String} {es : Entries} {attributes : List (String × String)}
    {nodes : List Node} {text : String} (named : isName name.toList = true)
    (tagged : attributesOf es = .ok attributes) (legible : AreAttributes attributes)
    (inside : childrenOf es = .ok nodes) (held : textOf es = .ok text) :
    reread name (.map es) = addAll (attributeEntries attributes) nodes >>= fun gs =>
      if text.toList.all isXmlChar then
        OpenElement.value ⟨name, gs, (unifyLineBreaks text.toList).reverse⟩
      else .error .malformed := by
  rw [reread, elementOf, held, tagged, inside]
  show readElement name attributes text (addAll · nodes) = _
  exact readElement_eq named legible

theorem value_text (name s : String) :
    OpenElement.value ⟨name, [], (unifyLineBreaks s.toList).reverse⟩ = textValue s := by
  rw [OpenElement.value, List.reverse_reverse, textValue, heldText]
  split <;> simp_all

/-- A scalar is read as its text. -/
theorem reread_leaf {t : Tree} (noMap : t.isMap = false) (writable : t.isWritable = true)
    {name : String} (named : isName name.toList = true)
    (chars : t.scalarText.toList.all isXmlChar = true) :
    reread name t = textValue t.scalarText := by
  rw [reread, elementOf_leaf noMap writable]
  show readElement name [] t.scalarText (addAll · []) = _
  rw [readElement_eq named noAttributes]
  show (if t.scalarText.toList.all isXmlChar then _ else _) = _
  rw [if_pos chars]
  exact value_text name t.scalarText

/-! ### Children -/

/-- The entry becomes a child of its own: its key is a name, and its value no
list. -/
def IsChild (e : Key × Tree) : Prop :=
  (∃ s, e.1 = .text s ∧ isName s.toList = true) ∧ ∀ ts, e.2 ≠ .list ts

/-- The nodes of a child come first. -/
theorem childrenOf_cons {s : String} {t : Tree} (named : isName s.toList = true)
    (some_ : t ≠ .list []) (es : Entries) :
    childrenOf ((.text s, t) :: es) = nodesOf (.text s) t >>= fun first =>
      childrenOf es >>= fun nodes => .ok (first ++ nodes) := by
  obtain ⟨noAttribute, noText, noComment⟩ := plain_of_isName named
  rw [childrenOf, noAttribute, if_neg (by simp [noText])]
  · split
    · exact absurd ‹_› noComment
    · rfl
  · exact some_

theorem nodesOf_child {s : String} {t : Tree} (named : isName s.toList = true)
    (noList : ∀ ts, t ≠ .list ts) :
    nodesOf (.text s) t = elementOf s t >>= fun n => .ok [n] := by
  have name : nameOf .element (.text s) = .ok s := by rw [nameOf, nameFault?_of_isName named]
  rw [nodesOf_single noList, name]
  rfl

/-- Reading a child adds an entry. -/
theorem addTo_of_elementOf {s : String} {t : Tree} {n : Node} (h : elementOf s t = .ok n)
    (es : Entries) : n.addTo es = reread s t >>= fun w => .ok (addChild s w es) := by
  obtain ⟨attributes, children, text, rfl⟩ := exists_element h
  rw [reread, h]
  rfl

theorem addChild_new {s : String} {es : Entries} (h : Key.text s ∉ keysOf es) (t : Tree) :
    addChild s t es = es ++ [(.text s, t)] := by
  have none : es.field? s = none := Entries.get?_eq_none h
  rw [addChild, none]

/-! ### Elements with a child -/

/-- Of what is written as elements just the legible nodes are read. -/
theorem exists_read_iff {name : String} {t : Tree} {n : Node} (h : elementOf name t = .ok n) :
    (∃ w, n.read = .ok w) ↔ n.IsLegible := by
  obtain ⟨attributes, children, text, rfl⟩ := exists_element h
  rw [Node.IsLegible, ← exists_readElement_iff (exists_addAll_iff children)]
  rfl

theorem addChild_ne_nil (s : String) (t : Tree) (es : Entries) : addChild s t es ≠ [] := by
  have set_ne_nil (t : Tree) (es : Entries) : Entries.set (.text s) t es ≠ [] := by
    cases es with
    | nil => simp [Entries.set]
    | cons e es =>
      rw [Entries.set]
      split <;> simp
  unfold addChild
  split
  · simp
  · exact set_ne_nil _ _
  · exact set_ne_nil _ _

/-- The node is an element. -/
def Node.isElement : Node → Bool
  | .comment _ => false
  | .element _ _ _ _ => true

/-- An element is something wherever it stands. -/
theorem addAll_ne_nil {nodes : List Node} {es fs : Entries} (h : addAll es nodes = .ok fs)
    (some_ : es ≠ [] ∨ ∃ n ∈ nodes, n.isElement = true) : fs ≠ [] := by
  induction nodes generalizing es with
  | nil =>
    cases h
    simpa using some_
  | cons n nodes ih =>
    rw [addAll] at h
    obtain ⟨gs, here, there⟩ := bind_eq_ok_iff.mp h
    refine ih there ?_
    cases n with
    | comment text =>
      have same : gs = es := by
        cases text with
        | none =>
          cases here
          rfl
        | some s =>
          rw [Node.addTo] at here
          split at here
          · cases here
            rfl
          · cases here
      rw [same]
      simpa [Node.isElement] using some_
    | element name attributes children text =>
      rw [Node.addTo] at here
      obtain ⟨t, -, eq⟩ := bind_eq_ok_iff.mp here
      cases eq
      exact .inl (addChild_ne_nil name t es)

/-- A child is an element. -/
theorem exists_element_of_child {es : Entries} {nodes : List Node} {s : String} {t : Tree}
    (h : childrenOf es = .ok nodes) (named : isName s.toList = true)
    (noList : ∀ ts, t ≠ .list ts) (mem : (.text s, t) ∈ es) :
    ∃ n ∈ nodes, n.isElement = true := by
  induction es generalizing nodes with
  | nil => cases mem
  | cons e es ih =>
    rcases List.mem_cons.mp mem with rfl | there
    · rw [childrenOf_cons named (noList []), nodesOf_child named noList] at h
      obtain ⟨first, one, h⟩ := bind_eq_ok_iff.mp h
      obtain ⟨n, element, one⟩ := bind_eq_ok_iff.mp one
      obtain ⟨more, -, h⟩ := bind_eq_ok_iff.mp h
      cases one
      cases h
      obtain ⟨attributes, children, text, rfl⟩ := exists_element element
      exact ⟨_, List.mem_cons_self, rfl⟩
    -- whatever the first entry becomes, the child is among the nodes behind it
    · have behind {first : List Node}
          (h : (childrenOf es >>= fun more => pure (first ++ more)) = Except.ok nodes) :
          ∃ n ∈ nodes, n.isElement = true := by
        obtain ⟨more, rest, h⟩ := bind_eq_ok_iff.mp h
        cases h
        obtain ⟨n, hn, element⟩ := ih rest there
        exact ⟨n, List.mem_append_right first hn, element⟩
      obtain ⟨k, u⟩ := e
      unfold childrenOf at h
      split at h
      · exact ih h there
      split at h
      · exact ih h there
      simp only at h
      split at h
      · obtain ⟨first, -, h⟩ := bind_eq_ok_iff.mp h
        exact behind h
      · obtain ⟨first, -, h⟩ := bind_eq_ok_iff.mp h
        exact behind h

/-- An element with a child is read as a mapping. -/
theorem isMap_of_read {name : String} {es : Entries} {n : Node} {w : Tree}
    (h : elementOf name (.map es) = .ok n) (read : n.read = .ok w) {s : String} {t : Tree}
    (named : isName s.toList = true) (noList : ∀ ts, t ≠ .list ts) (mem : (.text s, t) ∈ es) :
    ∃ fs, w = .map fs := by
  obtain ⟨text, attributes, children, -, -, inside, rfl⟩ := elementOf_map_eq_ok h
  rw [Node.read, readElement] at read
  obtain ⟨tag, -, read⟩ := bind_eq_ok_iff.mp read
  obtain ⟨fs, added, read⟩ := bind_eq_ok_iff.mp read
  have some_ := addAll_ne_nil added (.inr (exists_element_of_child inside named noList mem))
  split at read
  · unfold OpenElement.value at read
    split at read
    · rename_i none
      exact absurd none some_
    · cases read
      exact ⟨_, rfl⟩
    · rename_i none _
      exact absurd none some_
    · obtain ⟨u, -, read⟩ := bind_eq_ok_iff.mp read
      cases read
      exact ⟨_, rfl⟩
  · cases read

end DefinitionTree.Xml
