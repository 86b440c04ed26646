/-
DefinitionTree/Proofs/Xml/Member.lean

What the entries of a mapping are read as.

An entry whose key is a name becomes an element of that name, or one for each
item if its value is a list.  Elements of one name are gathered where the first
of them stands, so a list of two or more items comes back as a list, and a single
item comes back alone.  Entries of different names do not disturb each other.

Main statements:

* `addAll_items`: the items of a list, one after the other;
* `addAll_members`: the entries of a mapping, one after the other;
* `reread_map`: mappings without attributes, text and lists.
-/
import DefinitionTree.Proofs.Xml.Element

namespace DefinitionTree.Xml

variable {name s : String} {es acc gs : Entries} {nodes : List Node}

/-! ### Lists -/

/-- No text stands for a list. -/
theorem ne_list_of_literal {t : Tree} (h : literal s = .ok t) (ts : List Tree) : t ≠ .list ts := by
  rintro rfl
  unfold literal at h
  simp only at h
  repeat' split at h
  all_goals cases h

theorem ne_list_of_value {e : OpenElement} {t : Tree} (h : e.value = .ok t) (ts : List Tree) :
    t ≠ .list ts := by
  unfold OpenElement.value at h
  split at h
  · cases h
    simp
  · cases h
    simp
  · exact ne_list_of_literal h ts
  · obtain ⟨u, -, h⟩ := bind_eq_ok_iff.mp h
    cases h
    simp

/-- No element is read as a list. -/
theorem ne_list_of_reread {t w : Tree} (h : reread name t = .ok w) (ts : List Tree) :
    w ≠ .list ts := by
  obtain ⟨n, -, read⟩ := bind_eq_ok_iff.mp h
  unfold Node.read at read
  split at read
  · cases read
    simp
  · unfold readElement at read
    obtain ⟨tag, -, read⟩ := bind_eq_ok_iff.mp read
    obtain ⟨es, -, read⟩ := bind_eq_ok_iff.mp read
    split at read
    · exact ne_list_of_value read ts
    · cases read

/-- Elements of one name: a single one stands alone. -/
def joined : List Tree → Tree
  | [t] => t
  | ts => .list ts

/-- One more item. -/
theorem addChild_joined {us : List Tree} (fresh : Key.text s ∉ keysOf acc) (some_ : us ≠ [])
    (noLists : ∀ u ∈ us, ∀ ts, u ≠ .list ts) (u : Tree) :
    addChild s u (acc ++ [(.text s, joined us)]) = acc ++ [(.text s, joined (us ++ [u]))] := by
  rw [addChild, Entries.field?, Entries.get?_append_new fresh]
  rcases us with - | ⟨first, - | ⟨second, more⟩⟩
  · exact absurd rfl some_
  · have noList := noLists first List.mem_cons_self
    cases first with
    | list ts => exact absurd rfl (noList ts)
    | _ => exact Entries.set_append_new fresh _ _
  · exact Entries.set_append_new fresh _ _

/-- Each item has an element of its own. -/
theorem elementsOf_cons {t : Tree} {ts : List Tree} (h : elementsOf s (t :: ts) = .ok nodes) :
    ∃ n more, elementOf s t = .ok n ∧ elementsOf s ts = .ok more ∧ nodes = n :: more := by
  rw [elementsOf] at h
  obtain ⟨n, here, h⟩ := bind_eq_ok_iff.mp h
  obtain ⟨more, there, h⟩ := bind_eq_ok_iff.mp h
  cases h
  exact ⟨n, more, here, there, rfl⟩

/-- Items are read one after the other. -/
theorem addAll_items {ts us : List Tree} (fresh : Key.text s ∉ keysOf acc) (some_ : us ≠ [])
    (noLists : ∀ u ∈ us, ∀ ts, u ≠ .list ts) (h : elementsOf s ts = .ok nodes) :
    addAll (acc ++ [(.text s, joined us)]) nodes = .ok gs ↔
      ∃ vs, List.Forall₂ (fun t v => reread s t = .ok v) ts vs
        ∧ gs = acc ++ [(.text s, joined (us ++ vs))] := by
  -- over the items that were read so far; as none of them is a list, a single one
  -- can be told from several
  induction ts generalizing us nodes with
  | nil =>
    rw [elementsOf] at h
    cases h
    constructor
    · intro h
      cases h
      exact ⟨[], .nil, by simp⟩
    · rintro ⟨vs, none, rfl⟩
      cases none
      simp [addAll]
  | cons t ts ih =>
    obtain ⟨n, more, here, there, rfl⟩ := elementsOf_cons h
    rw [addAll, addTo_of_elementOf here]
    rcases read : reread s t with fault | v
    · refine iff_of_false (by rintro ⟨⟩) ?_
      rintro ⟨vs, reads, -⟩
      cases reads with
      | cons here _ =>
        rw [read] at here
        cases here
    · have grown : ∀ u ∈ us ++ [v], ∀ ts, u ≠ .list ts :=
        List.forall_mem_append.mpr ⟨noLists, by simpa using ne_list_of_reread read⟩
      show addAll (addChild s v (acc ++ [(.text s, joined us)])) more = _ ↔ _
      rw [addChild_joined fresh some_ noLists, ih (by simp) grown there]
      constructor
      · rintro ⟨vs, reads, rfl⟩
        exact ⟨v :: vs, .cons read reads, by simp⟩
      · rintro ⟨vs, reads, rfl⟩
        cases reads with
        | cons here reads =>
          rw [read] at here
          cases here
          exact ⟨_, reads, by simp⟩

/-- The first item is added behind everything else. -/
theorem addAll_allItems {ts : List Tree} (fresh : Key.text s ∉ keysOf acc) (some_ : ts ≠ [])
    (h : elementsOf s ts = .ok nodes) :
    addAll acc nodes = .ok gs ↔
      ∃ us, List.Forall₂ (fun t u => reread s t = .ok u) ts us
        ∧ gs = acc ++ [(.text s, joined us)] := by
  rcases ts with - | ⟨t, ts⟩
  · exact absurd rfl some_
  obtain ⟨n, more, here, there, rfl⟩ := elementsOf_cons h
  rw [addAll, addTo_of_elementOf here]
  rcases read : reread s t with fault | u
  · refine iff_of_false (by rintro ⟨⟩) ?_
    rintro ⟨us, reads, -⟩
    cases reads with
    | cons here _ =>
      rw [read] at here
      cases here
  · have alone : addChild s u acc = acc ++ [(.text s, joined [u])] := addChild_new fresh u
    show addAll (addChild s u acc) more = _ ↔ _
    rw [alone, addAll_items fresh (by simp) (by simpa using ne_list_of_reread read) there]
    constructor
    · rintro ⟨us, reads, rfl⟩
      exact ⟨u :: us, .cons read reads, rfl⟩
    · rintro ⟨us, reads, rfl⟩
      cases reads with
      | cons here reads =>
        rw [read] at here
        cases here
        exact ⟨_, reads, rfl⟩

theorem elementsOf_of_rereads {ts us : List Tree}
    (reads : List.Forall₂ (fun t u => reread name t = .ok u) ts us) :
    ∃ nodes, elementsOf name ts = .ok nodes := by
  induction reads with
  | nil => exact ⟨[], by rw [elementsOf]⟩
  | cons here _ ih =>
    obtain ⟨n, element, -⟩ := bind_eq_ok_iff.mp here
    obtain ⟨nodes, there⟩ := ih
    rw [elementsOf, element, there]
    exact ⟨_, rfl⟩

/-! ### Entries -/

/-- The value is read as the other one where it was written under the name: a
list item by item. -/
def ReadsAs (s : String) (t w : Tree) : Prop :=
  match t with
  | .list ts => ∃ us, List.Forall₂ (fun t u => reread s t = .ok u) ts us ∧ w = joined us
  | t => reread s t = .ok w

theorem readsAs_iff {t w : Tree} (noList : ∀ ts, t ≠ .list ts) :
    ReadsAs s t w ↔ reread s t = .ok w := by
  cases t with
  | list ts => exact absurd rfl (noList ts)
  | _ => exact Iff.rfl

/-- The entry becomes elements: its key is a name, and there is an item if its
value is a list. -/
def IsMember (e : Key × Tree) : Prop :=
  (∃ s, e.1 = .text s ∧ isName s.toList = true) ∧ e.2 ≠ .list []

/-- The entry is read as the other one where it was written as a member. -/
def Returns (e f : Key × Tree) : Prop := e.1 = f.1 ∧ ∃ s, e.1 = .text s ∧ ReadsAs s e.2 f.2

theorem nodesOf_list (named : isName s.toList = true) (ts : List Tree) :
    nodesOf (.text s) (.list ts) = elementsOf s ts := by
  have name : nameOf .element (.text s) = .ok s := by rw [nameOf, nameFault?_of_isName named]
  rw [nodesOf, name]
  rfl

/-- What is read has been written. -/
theorem exists_nodesOf {t w : Tree} (named : isName s.toList = true) (read : ReadsAs s t w) :
    ∃ nodes, nodesOf (.text s) t = .ok nodes := by
  have single {t : Tree} (noList : ∀ ts, t ≠ .list ts) (read : ReadsAs s t w) :
      ∃ nodes, nodesOf (.text s) t = .ok nodes := by
    obtain ⟨n, element, -⟩ := bind_eq_ok_iff.mp ((readsAs_iff noList).mp read)
    rw [nodesOf_child named noList, element]
    exact ⟨_, rfl⟩
  cases t with
  | list ts =>
    obtain ⟨us, reads, -⟩ := read
    obtain ⟨nodes, written⟩ := elementsOf_of_rereads reads
    exact ⟨nodes, (nodesOf_list named ts).trans written⟩
  | _ => exact single (by simp) read

/-- An entry is read behind what was there. -/
theorem addAll_member {t : Tree} (named : isName s.toList = true) (some_ : t ≠ .list [])
    (fresh : Key.text s ∉ keysOf acc) (h : nodesOf (.text s) t = .ok nodes) :
    addAll acc nodes = .ok gs ↔ ∃ w, ReadsAs s t w ∧ gs = acc ++ [(.text s, w)] := by
  have single {t : Tree} (noList : ∀ ts, t ≠ .list ts) (h : nodesOf (.text s) t = .ok nodes) :
      addAll acc nodes = .ok gs ↔ ∃ w, ReadsAs s t w ∧ gs = acc ++ [(.text s, w)] := by
    rw [nodesOf_child named noList] at h
    obtain ⟨n, here, h⟩ := bind_eq_ok_iff.mp h
    cases h
    rw [addAll, addTo_of_elementOf here]
    simp only [readsAs_iff noList]
    rcases read : reread s t with fault | w
    · exact iff_of_false (by rintro ⟨⟩) (by rintro ⟨w, ⟨⟩, -⟩)
    · show Except.ok (addChild s w acc) = _ ↔ _
      rw [addChild_new fresh]
      constructor
      · rintro ⟨⟩
        exact ⟨w, rfl, rfl⟩
      · rintro ⟨w', ⟨⟩, rfl⟩
        rfl
  cases t with
  | list ts =>
    rw [nodesOf_list named] at h
    have items : ts ≠ [] := fun none => some_ (congrArg Tree.list none)
    rw [addAll_allItems fresh items h]
    constructor
    · rintro ⟨us, reads, rfl⟩
      exact ⟨_, ⟨us, reads, rfl⟩, rfl⟩
    · rintro ⟨w, ⟨us, reads, rfl⟩, rfl⟩
      exact ⟨us, reads, rfl⟩
  | _ => exact single (by simp) h

theorem addAll_append (es : Entries) (xs ys : List Node) :
    addAll es (xs ++ ys) = addAll es xs >>= fun fs => addAll fs ys := by
  induction xs generalizing es with
  | nil => rfl
  | cons n xs ih =>
    rw [List.cons_append, addAll, addAll, bind_assoc]
    exact congrArg _ (funext ih)

/-- Entries of different names are read one after the other. -/
theorem addAll_members (members : ∀ e ∈ es, IsMember e)
    (distinct : (keysOf acc ++ keysOf es).Nodup) (h : childrenOf es = .ok nodes) :
    addAll acc nodes = .ok gs ↔ ∃ fs, List.Forall₂ Returns es fs ∧ gs = acc ++ fs := by
  -- over what was read so far, which has other keys than what is still to come
  induction es generalizing acc nodes with
  | nil =>
    rw [childrenOf] at h
    cases h
    constructor
    · intro h
      cases h
      exact ⟨[], .nil, by simp⟩
    · rintro ⟨fs, none, rfl⟩
      cases none
      simp [addAll]
  | cons e es ih =>
    obtain ⟨k, t⟩ := e
    obtain ⟨⟨⟨s, eq, named⟩, some_⟩, rest⟩ := List.forall_mem_cons.mp members
    cases eq
    have fresh : Key.text s ∉ keysOf acc := by
      intro mem
      exact (List.nodup_append.mp distinct).2.2 _ mem _ List.mem_cons_self rfl
    rw [childrenOf_cons named some_] at h
    obtain ⟨first, here, h⟩ := bind_eq_ok_iff.mp h
    obtain ⟨more, there, h⟩ := bind_eq_ok_iff.mp h
    cases h
    rw [addAll_append]
    constructor
    · intro h
      obtain ⟨hs, added, h⟩ := bind_eq_ok_iff.mp h
      obtain ⟨w, read, rfl⟩ := (addAll_member named some_ fresh here).mp added
      obtain ⟨fs, reads, rfl⟩ := (ih rest (by simpa using distinct) there).mp h
      exact ⟨(.text s, w) :: fs, .cons ⟨rfl, s, rfl, read⟩ reads, by simp⟩
    · rintro ⟨fs, reads, rfl⟩
      cases reads with
      | @cons _ f _ fs first reads =>
        obtain ⟨eq, s', eq', read⟩ := first
        obtain ⟨k', w⟩ := f
        cases eq
        cases eq'
        rw [(addAll_member named some_ fresh here).mpr ⟨w, read, rfl⟩]
        exact (ih rest (by simpa using distinct) there).mpr ⟨fs, reads, by simp⟩

theorem exists_childrenOf {fs : Entries} (members : ∀ e ∈ es, IsMember e)
    (reads : List.Forall₂ Returns es fs) : ∃ nodes, childrenOf es = .ok nodes := by
  induction reads with
  | nil => exact ⟨[], by rw [childrenOf]⟩
  | @cons e f _ _ here _ ih =>
    obtain ⟨k, t⟩ := e
    obtain ⟨⟨⟨s, eq, named⟩, some_⟩, rest⟩ := List.forall_mem_cons.mp members
    cases eq
    obtain ⟨-, s', eq, read⟩ := here
    cases eq
    obtain ⟨first, written⟩ := exists_nodesOf named read
    obtain ⟨nodes, there⟩ := ih rest
    rw [childrenOf_cons named some_, written, there]
    exact ⟨_, rfl⟩

/-! ### Mappings -/

/-- What an element with entries becomes: the text comes last, if there is any. -/
theorem value_entries (name : String) (some_ : gs ≠ []) (s : String) :
    OpenElement.value ⟨name, gs, (unifyLineBreaks s.toList).reverse⟩
      = if heldText s = [] then .ok (.map gs)
        else textValue s >>= fun t => .ok (.map (gs ++ [(Wire.textKey, t)])) := by
  obtain ⟨g, gs, rfl⟩ := List.exists_cons_of_ne_nil some_
  have trimmed : Text.trim (unifyLineBreaks s.toList) = heldText s := rfl
  rw [OpenElement.value, List.reverse_reverse, textValue]
  simp only [trimmed]
  rcases heldText s with - | ⟨c, cs⟩ <;> rfl

/-- The entry is read as the other one where it was written as a child. -/
def Rereads (e f : Key × Tree) : Prop :=
  e.1 = f.1 ∧ ∃ s, e.1 = .text s ∧ reread s e.2 = .ok f.2

theorem IsChild.isMember {e : Key × Tree} (h : IsChild e) : IsMember e := ⟨h.1, h.2 []⟩

theorem returns_iff {fs : Entries} (children : ∀ e ∈ es, IsChild e) :
    List.Forall₂ Returns es fs ↔ List.Forall₂ Rereads es fs := by
  induction es generalizing fs with
  | nil => simp
  | cons e es ih =>
    obtain ⟨⟨-, noList⟩, rest⟩ := List.forall_mem_cons.mp children
    have here (f : Key × Tree) : Returns e f ↔ Rereads e f := by
      simp only [Returns, Rereads, readsAs_iff noList]
    simp only [List.forall₂_cons_left_iff, here, ih rest]

theorem attributesOf_children (children : ∀ e ∈ es, IsChild e) : attributesOf es = .ok [] := by
  induction es with
  | nil => rfl
  | cons e es ih =>
    obtain ⟨k, t⟩ := e
    obtain ⟨⟨⟨s, eq, named⟩, -⟩, rest⟩ := List.forall_mem_cons.mp children
    cases eq
    rw [attributesOf, (plain_of_isName named).1]
    exact ih rest

/-- The text of entries without one for the text is empty. -/
theorem textOf_eq_empty (h : Wire.textKey ∉ keysOf es) : textOf es = .ok "" := by
  rw [textOf, Wire.textIn, Wire.textKey, Entries.get?_eq_none h]
  rfl

theorem textOf_children (children : ∀ e ∈ es, IsChild e) : textOf es = .ok "" := by
  refine textOf_eq_empty fun mem => ?_
  obtain ⟨e, he, eq⟩ := List.mem_map.mp mem
  obtain ⟨⟨s, eq', named⟩, -⟩ := children e he
  exact (plain_of_isName named).2.1 (eq'.symm.trans eq)

/-- A mapping is read entry by entry. -/
theorem reread_map {w : Tree} (named : isName name.toList = true) (some_ : es ≠ [])
    (children : ∀ e ∈ es, IsChild e) (distinct : (keysOf es).Nodup) :
    reread name (.map es) = .ok w ↔ ∃ fs, List.Forall₂ Rereads es fs ∧ w = .map fs := by
  have members : ∀ e ∈ es, IsMember e := fun e mem => (children e mem).isMember
  simp only [← returns_iff children]
  have value {fs : Entries} (reads : List.Forall₂ Returns es fs) :
      OpenElement.value ⟨name, fs, (unifyLineBreaks "".toList).reverse⟩ = .ok (.map fs) := by
    cases reads with
    | nil => exact absurd rfl some_
    | cons => rfl
  -- if there are no nodes to read, no entry is read either
  rcases written : childrenOf es with fault | nodes
  · refine iff_of_false ?_ ?_
    · rw [reread, elementOf, written, attributesOf_children children, textOf_children children]
      rintro ⟨⟩
    · rintro ⟨fs, reads, -⟩
      obtain ⟨nodes, eq⟩ := exists_childrenOf members reads
      rw [written] at eq
      cases eq
  have added {gs : Entries} :=
    @addAll_members es [] gs nodes members (by simpa using distinct) written
  rw [reread_eq named (attributesOf_children children) noAttributes written
    (textOf_children children)]
  show addAll [] nodes >>= _ = _ ↔ _
  constructor
  · intro h
    obtain ⟨gs, inside, h⟩ := bind_eq_ok_iff.mp h
    obtain ⟨fs, reads, eq⟩ := added.mp inside
    rw [List.nil_append] at eq
    subst eq
    have outcome := (value reads).symm.trans h
    cases outcome
    exact ⟨gs, reads, rfl⟩
  · rintro ⟨fs, reads, rfl⟩
    rw [added.mpr ⟨fs, reads, rfl⟩]
    exact value reads

end DefinitionTree.Xml
