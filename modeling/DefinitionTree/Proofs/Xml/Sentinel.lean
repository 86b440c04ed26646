/-
DefinitionTree/Proofs/Xml/Sentinel.lean

Sentinels that were written as elements and read again.

The type of a sentinel is an attribute of its element, and comes back as it was.
The items of a list come back as they do in any element.

Main statements:

* `reread_mark`, `reread_marked`, `reread_taggedMark`: sentinels without items;
* `reread_array`: sentinels of lists.
-/
import DefinitionTree.Proofs.Xml.Member

namespace DefinitionTree.Xml

open Wire (Sentinel)

/-! ### The type of a sentinel -/

theorem attributeName?_typeKey : attributeName? Wire.typeKey = some "type" := by decide

theorem nameOf_type : nameOf .attribute (.text "type") = .ok "type" := by
  have writable : nameFault? "type" = none := by decide
  rw [nameOf, writable]

/-- The type of a sentinel becomes an attribute. -/
theorem attributesOf_mark (s : Sentinel) {es : Entries} (rest : attributesOf es = .ok []) :
    attributesOf (s.mark :: es) = .ok [("type", s.name)] := by
  rw [Sentinel.mark, attributesOf, attributeName?_typeKey]
  simp only [nameOf_type, rest]
  rfl

theorem childrenOf_mark (s : Sentinel) (es : Entries) :
    childrenOf (s.mark :: es) = childrenOf es := by
  rw [Sentinel.mark, childrenOf, attributeName?_typeKey]
  · simp
  · simp

/-- The attribute with the type of a sentinel can be read. -/
theorem areAttributes_mark (s : Sentinel) : AreAttributes [("type", s.name)] := by
  have named : isName "type".toList = true := by decide
  refine ⟨List.forall_mem_cons.mpr ⟨⟨named, ?_⟩, by simp⟩, by simp⟩
  cases s <;> decide

theorem attributeEntries_mark (s : Sentinel) :
    attributeEntries [("type", s.name)] = [s.mark] := by
  have key : Wire.attributeMark ++ "type" = "@_type" := by decide
  simp only [attributeEntries, List.map_cons, key]
  rfl

/-! ### Sentinels without items -/

variable {name : String}

/-- A sentinel that is nothing but its type is read as that. -/
theorem reread_mark (named : isName name.toList = true) (s : Sentinel) :
    reread name (.map [s.mark]) = .ok (.map [s.mark]) := by
  have attributes : attributesOf [s.mark] = .ok [("type", s.name)] := attributesOf_mark s rfl
  have children : childrenOf [s.mark] = .ok [] := by
    rw [childrenOf_mark, childrenOf]
  rw [reread_eq named attributes (areAttributes_mark s) children rfl, attributeEntries_mark]
  rfl

/-- The text of a sentinel is no child. -/
theorem childrenOf_marked (s : Sentinel) (text : String) :
    childrenOf [s.mark, (Wire.textKey, .text text)] = .ok [] := by
  rw [childrenOf_mark, childrenOf, childrenOf]
  · rfl
  · simp

/-- A sentinel with a text is read as one with what the text stands for, if
there is something to it. -/
theorem reread_marked (named : isName name.toList = true) (s : Sentinel) {text : String}
    (chars : text.toList.all isXmlChar = true) :
    reread name (.map [s.mark, (Wire.textKey, .text text)])
      = if heldText text = [] then .ok (.map [s.mark])
        else textValue text >>= fun t => .ok (.map [s.mark, (Wire.textKey, t)]) := by
  have attributes : attributesOf [s.mark, (Wire.textKey, .text text)]
      = .ok [("type", s.name)] := attributesOf_mark s rfl
  have held : textOf [s.mark, (Wire.textKey, .text text)] = .ok text := rfl
  rw [reread_eq named attributes (areAttributes_mark s) (childrenOf_marked s text) held,
    attributeEntries_mark]
  show (if text.toList.all isXmlChar then _ else _) = _
  rw [if_pos chars]
  exact value_entries name (by simp) text

/-- A tag in front of the type comes back behind it. -/
theorem reread_taggedMark (named : isName name.toList = true) (s : Sentinel) {t w : Tree}
    (noList : ∀ ts, t ≠ .list ts) (read : reread "_T_" t = .ok w) :
    reread name (.map [(Wire.tagKey, t), s.mark]) = .ok (.map [s.mark, (Wire.tagKey, w)]) := by
  have tagName : isName "_T_".toList = true := by decide
  obtain ⟨n, element, -⟩ := bind_eq_ok_iff.mp read
  have attributes : attributesOf [(Wire.tagKey, t), s.mark] = .ok [("type", s.name)] := by
    rw [Wire.tagKey, attributesOf, (plain_of_isName tagName).1]
    exact attributesOf_mark s rfl
  have children : childrenOf [(Wire.tagKey, t), s.mark] = .ok [n] := by
    rw [Wire.tagKey, childrenOf_cons tagName (noList []), nodesOf_child tagName noList, element,
      childrenOf_mark, childrenOf]
    rfl
  have held : textOf [(Wire.tagKey, t), s.mark] = .ok "" := rfl
  have added : addAll [s.mark] [n] = .ok [s.mark, (Wire.tagKey, w)] := by
    have new : Key.text "_T_" ∉ keysOf [s.mark] := by simp [Sentinel.mark, Wire.typeKey]
    rw [addAll, addTo_of_elementOf element, read]
    show addAll (addChild "_T_" w [s.mark]) [] = _
    rw [addChild_new new]
    rfl
  rw [reread_eq named attributes (areAttributes_mark s) children held, attributeEntries_mark,
    added]
  rfl

/-! ### Lists -/

theorem itemName : isName "_ITEM_".toList = true := by decide

/-- The sentinel of a list is read item by item. -/
theorem reread_array (named : isName name.toList = true) {ts : List Tree} (some_ : ts ≠ [])
    {w : Tree} :
    reread name (Wire.arraySentinel ts) = .ok w ↔
      ∃ us, List.Forall₂ (fun t u => reread "_ITEM_" t = .ok u) ts us
        ∧ w = .map [Sentinel.array.mark, (Wire.itemKey, joined us)] := by
  have attributes : attributesOf [Sentinel.array.mark, (Wire.itemKey, .list ts)]
      = .ok [("type", Sentinel.array.name)] := attributesOf_mark _ rfl
  have children : childrenOf [Sentinel.array.mark, (Wire.itemKey, .list ts)]
      = elementsOf "_ITEM_" ts >>= fun first => .ok (first ++ []) := by
    rw [childrenOf_mark, Wire.itemKey, childrenOf_cons itemName (by simpa using some_),
      nodesOf_list itemName, childrenOf]
    rfl
  have held : textOf [Sentinel.array.mark, (Wire.itemKey, .list ts)] = .ok "" := rfl
  rw [Wire.arraySentinel]
  -- an item that becomes no element cannot be read either
  rcases written : elementsOf "_ITEM_" ts with fault | nodes
  · rw [written] at children
    refine iff_of_false ?_ ?_
    · rw [reread, elementOf, held, attributes, children]
      rintro ⟨⟩
    · rintro ⟨us, reads, -⟩
      obtain ⟨nodes, eq⟩ := elementsOf_of_rereads reads
      rw [written] at eq
      cases eq
  rw [written] at children
  have fresh : Key.text "_ITEM_" ∉ keysOf [Sentinel.array.mark] := by
    simp [Sentinel.mark, Wire.typeKey]
  have added {gs : Entries} := @addAll_allItems "_ITEM_" _ gs nodes ts fresh some_ written
  rw [reread_eq named attributes (areAttributes_mark _) children held, attributeEntries_mark,
    List.append_nil]
  constructor
  · intro h
    obtain ⟨gs, inside, h⟩ := bind_eq_ok_iff.mp h
    obtain ⟨us, reads, rfl⟩ := added.mp inside
    cases h
    exact ⟨us, reads, rfl⟩
  · rintro ⟨us, reads, rfl⟩
    rw [added.mpr ⟨us, reads, rfl⟩]
    rfl

end DefinitionTree.Xml
