/-
DefinitionTree/Proofs/Definition/Restoring.lean

Deploying what was stored.

A canonical value can be stored and deployed later.  What its references resolved
to is lost in store, but hardly anything depends on it: a definition holds the
texts of its references, which are made from their ids alone, and the summaries
hold them as they are.  The name is different.  It is put into a definition without
being encoded, and only a reference that is the text of the name is rendered there;
any other one is written with what it resolved to.

Main statements:

* `definitionName_unresolved`, `Summary.entries_unresolved`: what is deployed beside
  the encoded definition;
* `deployInstance_unresolved`: whole instances;
* `deploy_restored`: a value that was fetched, stored and taken out of store;
* `deploy_resolvedName`: a name that makes a difference.
-/
import DefinitionTree.Proofs.Canonical.Resolution
import DefinitionTree.Proofs.Definition.Naming
import DefinitionTree.Proofs.Definition.Return
import DefinitionTree.Proofs.Json.Stored

namespace DefinitionTree

open Xml
open DefinitionTree.Tree (mapLeaves mapItems mapValues unresolving)
open Localized (rendering)

/-! ### Definitions -/

/-- The text of a reference does not depend on what it resolved to. -/
theorem rendered_unresolved (t : Tree) :
    (t.mapLeaves unresolving).mapLeaves rendering = t.mapLeaves rendering :=
  Tree.mapLeaves_mapLeaves (fun t => by cases t <;> rfl) t

/-- The wire form of a definition does not depend on what references resolved to. -/
theorem wireForm_unresolved (settings : Settings) (g : Graph) (place : ElementId) (t : Tree) :
    wireForm settings g place (t.mapLeaves unresolving) = wireForm settings g place t := by
  rw [← wireForm_rendered, rendered_unresolved, wireForm_rendered]

theorem definitionName_unresolved (t : Tree) :
    definitionName (t.mapLeaves unresolving) = (definitionName t).mapLeaves unresolving := by
  cases t with
  | map es =>
    rw [Tree.mapLeaves_map, definitionName.eq_def, definitionName.eq_def, nameText?, nameText?,
      Tree.get?_mapValues]
    rcases Entries.get? Wire.textKey es with - | t
    · rfl
    · cases t with
      | ref id target =>
        show (if _ then _ else _) = mapLeaves unresolving (if _ then _ else _)
        split
        · rfl
        · have set := @Tree.set_mapValues unresolving es Wire.textKey (.text (Localized.text id))
          exact congrArg Tree.map set
      | _ => rfl
  | ref id target =>
    show (if _ then _ else _) = mapLeaves unresolving (if _ then _ else _)
    split <;> rfl
  | _ => rfl

theorem field?_unresolved (name : String) (es : Entries) :
    Entries.field? name (mapValues unresolving es)
      = (Entries.field? name es).map (mapLeaves unresolving) :=
  Tree.get?_mapValues (.text name)

theorem presentEntry_unresolved (name : String) (es : Entries) :
    presentEntry name (mapValues unresolving es) = mapValues unresolving (presentEntry name es) := by
  rw [presentEntry, presentEntry, field?_unresolved]
  rcases Entries.field? name es with - | t
  · rfl
  · cases t <;> rfl

/-- The name is put in as it was if nothing in it was resolved. -/
theorem Kind.named_unresolved {value : Entries}
    (name : ∀ t, Entries.field? "name" value = some t → (definitionName t).IsUnresolved)
    (es : Entries) : Kind.named (mapValues unresolving value) es = Kind.named value es := by
  rw [named, named, presentEntry_unresolved, presentEntry]
  rcases held : Entries.field? "name" value with - | t
  · rfl
  · have same : definitionName (t.mapLeaves unresolving) = definitionName t := by
      rw [definitionName_unresolved, (name t held).eq_self]
    cases t with
    | null => rfl
    | _ => exact congrArg (Entries.set (.text "name") · es) same

/-! ### Summaries -/

namespace Summary

theorem scriptId?_unresolved (s : Summary) (t : Tree) :
    s.scriptId? (t.mapLeaves unresolving) = (s.scriptId? t).map (mapLeaves unresolving) := by
  have entries? (t : Tree) :
      (t.mapLeaves unresolving).entries? = t.entries?.map (mapValues unresolving) := by
    cases t <;> rfl
  rw [scriptId?, scriptId?, entries?]
  rcases t.entries? with - | es
  · rfl
  · simp only [Option.map_some, Option.bind_eq_bind, Option.bind_some, field?_unresolved]
    rcases Entries.field? s.variant es with - | u
    · rfl
    · simp only [Option.map_some, Option.bind_some, entries?]
      rcases u.entries? with - | inner
      · rfl
      · simp only [Option.map_some, Option.bind_some, field?_unresolved]
        rcases Entries.field? "scriptId" inner with - | id
        · rfl
        · cases id <;> rfl

theorem record?_unresolved (s : Summary) (t : Tree) :
    s.record? (t.mapLeaves unresolving) = (s.record? t).map (mapLeaves unresolving) := by
  rw [record?, record?, scriptId?_unresolved, Option.map_map, Option.map_map]
  rfl

/-- The items of a collection are those that it had. -/
theorem items_unresolved (collection : Option Tree) :
    items (collection.map (mapLeaves unresolving))
      = List.map (mapLeaves unresolving) <$> items collection := by
  have none (truthy : Bool) :
      (if truthy then .error .notIterable else .ok [])
        = List.map (mapLeaves unresolving) <$>
          (if truthy then .error .notIterable else .ok [] : Except Failure (List Tree)) := by
    cases truthy <;> rfl
  rcases collection with - | t
  · rfl
  · cases t with
    | list ts => exact congrArg Except.ok (Tree.mapItems_eq_map ts)
    | text => rfl
    | map => rfl
    | null => exact none false
    | ref => exact none true
    | _ => exact none _

theorem entry_unresolved (s : Summary) (es : Entries) :
    s.entry (mapValues unresolving es)
      = (fun e => (e.1, e.2.mapLeaves unresolving)) <$> s.entry es := by
  rw [entry, entry, field?_unresolved, items_unresolved]
  rcases items (Entries.field? s.collection es) with fault | ts
  · rfl
  · have records : (ts.map (mapLeaves unresolving)).filterMap s.record?
        = mapItems unresolving (ts.filterMap s.record?) := by
      rw [Tree.mapItems_eq_map, List.filterMap_map, List.map_filterMap]
      exact congrArg (ts.filterMap ·) (funext s.record?_unresolved)
    exact congrArg (fun ts => Except.ok (Key.text s.field, Tree.map [(.text s.item, .list ts)]))
      records

theorem entries_unresolved (es : Entries) :
    entries (mapValues unresolving es) = mapValues unresolving <$> entries es := by
  rw [entries, entries]
  generalize all = summaries
  induction summaries with
  | nil => rfl
  | cons s summaries ih =>
    rw [List.mapM_cons, List.mapM_cons, entry_unresolved, ih]
    simp only [bind_map_left, map_bind, map_pure]
    rfl

end Summary

/-! ### Instances -/

/-- The name is put into what the rest of the value was encoded to. -/
theorem writtenEntries_eq_bind (settings : Settings) (kind : Kind) (i : Instance) :
    writtenEntries settings kind i
      = wireForm settings kind.schema i.id
          (.map (Entries.without (outerFields.map Key.text) i.value)) >>= fun t =>
        .ok (Kind.named i.value (kind.tagRoot (t.entries?.getD []))) := rfl

theorem definitionOf_unresolved (settings : Settings) (kind : Kind) {i : Instance}
    (name : ∀ t, Entries.field? "name" i.value = some t → (definitionName t).IsUnresolved) :
    definitionOf settings kind { i with value := mapValues unresolving i.value }
      = definitionOf settings kind i := by
  have written : writtenEntries settings kind { i with value := mapValues unresolving i.value }
      = writtenEntries settings kind i := by
    rw [writtenEntries_eq_bind, writtenEntries_eq_bind, Tree.without_mapValues, ← Tree.mapLeaves_map,
      wireForm_unresolved]
    simp only [Kind.named_unresolved name]
    rfl
  rw [definitionOf, definitionOf, written]

/-- What is deployed of an instance depends on what its references resolved to only
where they stand in its name, or are deployed as they are. -/
theorem deployInstance_unresolved (settings : Settings) (kind : Kind) {i j : Instance}
    (value : j.value = mapValues unresolving i.value)
    (name : ∀ t, Entries.field? "name" i.value = some t → (definitionName t).IsUnresolved) :
    deployInstance settings kind j = mapValues unresolving <$> deployInstance settings kind i := by
  have same := deployInstance_of_value_eq settings kind (i := j)
    (j := { i with value := mapValues unresolving i.value }) value
  rw [same, deployInstance, deployInstance, definitionOf_unresolved settings kind name]
  rcases definitionOf settings kind i with fault | text
  · rfl
  -- the text is among what is deployed as it is
  have outer : outerEntries (mapValues unresolving i.value) ++ [(definitionKey, .text text)]
      = mapValues unresolving (outerEntries i.value ++ [(definitionKey, .text text)]) := by
    rw [outerEntries, outerEntries]
    simp only [presentEntry_unresolved, Tree.mapValues_append]
    rfl
  show (if kind.hasSummaries = true then
      (Summary.entries (mapValues unresolving i.value) >>= fun ss => Except.ok (Entries.overlay
        (outerEntries (mapValues unresolving i.value) ++ [(definitionKey, .text text)]) ss))
    else .ok (outerEntries (mapValues unresolving i.value) ++ [(definitionKey, .text text)]))
    = mapValues unresolving <$> if kind.hasSummaries = true then
      (Summary.entries i.value >>= fun ss => Except.ok (Entries.overlay
        (outerEntries i.value ++ [(definitionKey, .text text)]) ss))
    else .ok (outerEntries i.value ++ [(definitionKey, .text text)])
  rw [outer, Summary.entries_unresolved]
  split
  · rcases Summary.entries i.value with fault | ss
    · rfl
    · exact congrArg Except.ok (Tree.overlay_mapValues _)
  · rfl

/-! ### Values that were fetched -/

/-- The name of a fetched value stands outside its definition, and is left alone. -/
theorem field?_name_of_fetch {settings : Settings} {lookup : Option Lookup} {kind : Kind}
    {name : Option String} {value c : Entries}
    (fetched : (fetch settings lookup kind name value).outcome = .ok c) :
    Entries.field? "name" c = Entries.field? "name" value := by
  rw [fetch, fetchInstance] at fetched
  split at fetched
  · cases fetched
    rfl
  · rename_i s text
    rw [Journal.outcome_bind] at fetched
    obtain ⟨t, -, merged⟩ := bind_eq_ok_iff.mp fetched
    rcases t with - | t
    · cases merged
      rfl
    · cases t with
      | map es =>
        cases merged
        have others : ∀ k ∈ definitionKey ::
            (if kind.hasSummaries = true then Summary.fields.map Key.text else []),
            k ≠ .text "name" := by
          cases kind <;> decide
        rw [Entries.field?, Entries.get?_overlay_of_notMem (Entries.notMem_without "name" es)]
        exact Entries.get?_without_all others value
      | _ => cases merged

/-- The place of a localized string. -/
def greetingId : ElementId := ⟨"netsuite", "translationcollection", "instance",
  ["custcollectiontranslations_a", "strings", "string", "greeting", "scriptid"]⟩

/-- A value that refers to the string. -/
def greetingName (target : Tree) : Tree :=
  .map [(.text "translationScriptId", .ref greetingId target)]

theorem isStorable_greetingName (target : Tree) : (greetingName target).IsStorable :=
  .map (by simp [refKey]) <| List.forall_mem_singleton.mpr <|
    Tree.isStorable_ref ⟨by decide, by decide, by decide, by decide⟩ target

/-- A dataset with a name of its own, and that description. -/
def greetingDescribed (target : Tree) : Entries :=
  [(.text "name", .text "d"), (.text "description", greetingName target)]

namespace Xml

variable {es : Entries} {s : String} {t : Tree} {nodes : List Node} {n : Node}

theorem writeNodes_append (style : Style) (depth : Nat) (xs ys : List Node) :
    writeNodes style depth (xs ++ ys) = writeNodes style depth xs ++ writeNodes style depth ys := by
  induction xs with
  | nil => rfl
  | cons x xs ih => rw [List.cons_append, writeNodes, writeNodes, ih, List.append_assoc]

/-- The node of a child that comes last comes last. -/
theorem childrenOf_concat (children : ∀ e ∈ es, IsChild e) (last : IsChild (.text s, t))
    (there : childrenOf es = .ok nodes) (here : elementOf s t = .ok n) :
    childrenOf (es ++ [(.text s, t)]) = .ok (nodes ++ [n]) := by
  induction es generalizing nodes with
  | nil =>
    obtain ⟨⟨_, ⟨⟩, named⟩, noList⟩ := last
    rw [childrenOf] at there
    cases there
    rw [List.nil_append, childrenOf_cons named (noList []), nodesOf_child named noList, here,
      childrenOf]
    rfl
  | cons e es ih =>
    obtain ⟨k, u⟩ := e
    obtain ⟨⟨⟨s', eq, named⟩, noList⟩, rest⟩ := List.forall_mem_cons.mp children
    cases eq
    rw [childrenOf_cons named (noList [])] at there
    obtain ⟨first, own, there⟩ := bind_eq_ok_iff.mp there
    obtain ⟨more, others, there⟩ := bind_eq_ok_iff.mp there
    cases there
    rw [List.cons_append, childrenOf_cons named (noList []), own, ih rest others, List.append_assoc]
    rfl

/-- The text of an element tells how its last child was written. -/
theorem writeNode_last_inj {style : Style} {name : String} {m : Node}
    (h : writeNode style 0 (.element name [] (nodes ++ [m]) "")
      = writeNode style 0 (.element name [] (nodes ++ [n]) "")) :
    writeNode style 1 m = writeNode style 1 n := by
  have some_ (n : Node) : (nodes ++ [n]).isEmpty = false := by cases nodes <;> rfl
  simpa [writeNode, writeNodes_append, writeNodes, some_] using h

end Xml

namespace Kind

variable {kind : Kind} {value : Entries} (h : kind.IsSendable value)
  (short : ¬(Tree.map (innerEntries value)).Holds (·.isTooLong = true))

include h short

/-- A definition to which a name is added is written as it would be without it, with
the name at the end. -/
theorem exists_definitionOf_named : ∃ nodes, ∀ (i : Instance) (t : Tree) (n : Node),
    i.value = (.text "name", t) :: value → t ≠ .null → (∀ ts, definitionName t ≠ .list ts) →
    elementOf "name" (definitionName t) = .ok n →
    definitionOf {} kind i = .ok (String.ofList
      (writeNode (Settings.style {}) 0 (.element rootName [] (nodes ++ [n]) ""))) := by
  obtain ⟨children, new⟩ := areChildren_root h
  obtain ⟨gs, read⟩ := exists_reread_root h short
  obtain ⟨root, element, -⟩ := bind_eq_ok_iff.mp read
  obtain ⟨-, -, nodes, -, -, there, -⟩ := elementOf_map_eq_ok element
  refine ⟨nodes, fun i t n held some_ noList here => ?_⟩
  have last : IsChild (.text "name", definitionName t) := ⟨⟨"name", rfl, by decide⟩, noList⟩
  have all : ∀ e ∈ kind.tagRoot (kind.wiredRoot value) ++ [(.text "name", definitionName t)],
      IsChild e :=
    List.forall_mem_append.mpr ⟨children.children, List.forall_mem_singleton.mpr last⟩
  have written : kind.written i.value
      = kind.tagRoot (kind.wiredRoot value) ++ [(.text "name", definitionName t)] := by
    have wired : kind.wiredRoot i.value = kind.wiredRoot value := by
      rw [held]
      rfl
    have present : presentEntry "name" i.value = [(.text "name", t)] := by
      rw [held]
      cases t with
      | null => exact absurd rfl some_
      | _ => rfl
    rw [Kind.written, wired, named, present]
    exact Entries.set_eq_append new
  rw [definitionOf, kind.writtenEntries_eq i, written]
  show write _ _ = _
  have rootNode : nodesOf (.text rootName)
      (.map (kind.tagRoot (kind.wiredRoot value) ++ [(.text "name", definitionName t)]))
      = .ok [.element rootName [] (nodes ++ [n]) ""] := by
    rw [nodesOf_child rootName_isName (by simp), elementOf, attributesOf_children all,
      childrenOf_concat children.children last there here, textOf_children all]
    rfl
  rw [write, rootNode]
  show Except.ok (String.ofList (writeNodes _ 0 [_])) = _
  rw [writeNodes, writeNodes, List.append_nil]

end Kind

/-! ### A name that holds a reference -/

/-- A dataset whose name refers to the string under a key of its own. -/
def greetingNamed (target : Tree) : Entries :=
  (.text "name", greetingName target) :: versionOnly "1"

/-- The name as it is written. -/
def greetingNode (target : Tree) : Node :=
  .element "name" [] [.element "translationScriptId" [] [] (Tree.ref greetingId target).scalarText] ""

/-- The text of a reference as it is written holds that of what it resolved to. -/
theorem exists_escaped (id : ElementId) : ∃ front back, ∀ target,
    (Tree.ref id target).scalarText.toList.flatMap escapeText
      = front ++ (target.shown.toList.flatMap escapeText ++ back) := by
  have parts : ∃ front back, ∀ target,
      (Tree.ref id target).scalarText = front ++ (target.shown ++ back) := by
    refine ⟨"ReferenceExpression(elem_id=" ++ id.shown ++ ", value=", ")", fun target => ?_⟩
    rw [← String.append_assoc]
    rfl
  obtain ⟨front, back, parts⟩ := parts
  refine ⟨front.toList.flatMap escapeText, back.toList.flatMap escapeText, fun target => ?_⟩
  rw [parts, String.toList_append, String.toList_append, List.flatMap_append, List.flatMap_append]

/-- Where two greetings are written alike, what their references resolved to is shown
alike. -/
theorem shown_of_greetingNode {style : Style} {depth : Nat} {target target' : Tree}
    (h : writeNode style depth (greetingNode target) = writeNode style depth (greetingNode target')) :
    target.shown.toList.flatMap escapeText = target'.shown.toList.flatMap escapeText := by
  obtain ⟨front, back, text⟩ := exists_escaped greetingId
  simpa [greetingNode, writeNode, writeNodes, text] using h

theorem elementOf_greetingName {target : Tree} (writable : target.isWritable = true) :
    elementOf "name" (definitionName (greetingName target)) = .ok (greetingNode target) := by
  have last : IsChild (.text "translationScriptId", .ref greetingId target) :=
    ⟨⟨_, rfl, by decide⟩, nofun⟩
  have inside := childrenOf_concat (List.forall_mem_nil _) last (by rw [childrenOf])
    (@elementOf_leaf (.ref greetingId target) rfl writable "translationScriptId")
  rw [List.nil_append] at inside
  show elementOf "name" (greetingName target) = _
  rw [greetingName, elementOf, attributesOf_children (List.forall_mem_singleton.mpr last),
    textOf_children (List.forall_mem_singleton.mpr last), inside]
  rfl

theorem isStorable_greetingNamed (target : Tree) :
    (Tree.map (greetingNamed target)).IsStorable :=
  .map (by simp [greetingNamed, versionOnly]) <| List.forall_mem_cons.mpr
    ⟨isStorable_greetingName target, List.forall_mem_singleton.mpr (Tree.isStorable_text "1")⟩

end DefinitionTree
