/-
DefinitionTree/Proofs/Definition/Reading.lean

Fetching what was deployed.

The definition that was written is read from the text that was deployed.  Its
outermost element always has a child, the mark of the kind or the header that
holds it, so that it is read as a mapping.

Main definitions and statements:

* `Kind.IsReadAs`: what the definition of an instance is read as;
* `exists_definition_iff`: this is what is read from its text;
* `fetch_deployed`: what becomes of it when it is fetched.
-/
import DefinitionTree.Definition.RoundTrip
import DefinitionTree.Proofs.Definition.Deploy

namespace DefinitionTree

/-! ### What is written is read -/

/-- The definition that is written for a value is read as these entries. -/
def Kind.IsReadAs (kind : Kind) (value es : Entries) : Prop :=
  Xml.reread Xml.rootName (.map (kind.written value)) = .ok (.map es)

/-- The name of an instance is set, if it has one. -/
theorem Kind.named_cases (value es : Entries) :
    presentEntry "name" value = [] ∧ named value es = es ∨
      ∃ t, presentEntry "name" value = [(.text "name", t)] ∧
        named value es = es.set (.text "name") (definitionName t) := by
  have cases_ : presentEntry "name" value = [] ∨
      ∃ t, presentEntry "name" value = [(.text "name", t)] := by
    unfold presentEntry
    split
    · exact .inl rfl
    · exact .inr ⟨_, rfl⟩
    · exact .inl rfl
  rcases cases_ with none | ⟨t, some_⟩
  · exact .inl ⟨none, by rw [named, none]⟩
  · exact .inr ⟨t, some_, by rw [named, some_]⟩

/-- Other entries than the name stay. -/
theorem Kind.mem_named {value es : Entries} {e : Key × Tree} (h : e ∈ es)
    (ne : e.1 ≠ .text "name") : e ∈ named value es := by
  rcases named_cases value es with ⟨-, eq⟩ | ⟨t, -, eq⟩
  · rwa [eq]
  · rw [eq]
    exact Entries.mem_set_of_ne h ne _

/-- The root has a child, whatever the definition holds. -/
theorem Kind.exists_child (kind : Kind) (value : Entries) :
    ∃ s t, Xml.isName s.toList = true ∧ (∀ ts, t ≠ .list ts) ∧
      (Key.text s, t) ∈ kind.written value := by
  cases kind with
  | dataset =>
    exact ⟨"_T_", .text "dataSet", by decide, by simp,
      mem_named List.mem_cons_self (by decide)⟩
  | workbook =>
    exact ⟨"Workbook", _, by decide, by simp,
      mem_named (Entries.mem_set_self "Workbook" _ (Kind.workbook.wiredRoot value)) (by simp)⟩

theorem isPlain_style : (Settings.style {}).isPlain = true := by decide

/-- The root is read as a mapping, if it is read at all. -/
theorem Kind.isReadAs_of_reread {kind : Kind} {value : Entries} {w : Tree}
    (read : Xml.reread Xml.rootName (.map (kind.written value)) = .ok w) :
    ∃ es, w = .map es ∧ kind.IsReadAs value es := by
  obtain ⟨s, t, isName, noList, child⟩ := kind.exists_child value
  obtain ⟨n, element, node⟩ := bind_eq_ok_iff.mp read
  obtain ⟨es, rfl⟩ := Xml.isMap_of_read element node isName noList child
  exact ⟨es, rfl, read⟩

/-- The text of a definition is written and read if its root is read. -/
theorem exists_definition_iff {kind : Kind} {i : Instance} {es : Entries} :
    (∃ text, definitionOf {} kind i = .ok text ∧ Xml.definition text = .ok es) ↔
      kind.IsReadAs i.value es := by
  -- writing the text and reading it is the same as reading the element itself
  have reading : (definitionOf {} kind i >>= Xml.definition)
      = Xml.reread Xml.rootName (.map (kind.written i.value)) >>= Xml.contentOf := by
    rw [definitionOf, kind.writtenEntries_eq i]
    exact Xml.definition_write isPlain_style _
  have bound : (∃ text, definitionOf {} kind i = .ok text ∧ Xml.definition text = .ok es) ↔
      (definitionOf {} kind i >>= Xml.definition) = .ok es := by
    constructor
    · rintro ⟨text, eq, read⟩
      rw [eq]
      exact read
    · exact bind_eq_ok_iff.mp
  rw [bound, reading]
  constructor
  · intro h
    obtain ⟨w, read, content⟩ := bind_eq_ok_iff.mp h
    obtain ⟨fs, rfl, isReadAs⟩ := Kind.isReadAs_of_reread read
    cases content
    exact isReadAs
  · exact fun isReadAs => bind_of_ok isReadAs Xml.contentOf

/-! ### What is read is fetched -/

/-- The definition is among what was deployed. -/
theorem definitionText?_deployed {kind : Kind} {value ss : Entries} {text : String}
    (summaries : kind.HasSummariesOf value ss) :
    definitionText? (outerEntries value ++ (definitionKey, .text text) :: ss) = some text := by
  have found : Entries.get? definitionKey
      (outerEntries value ++ (definitionKey, .text text) :: ss) = some (.text text) :=
    Entries.get?_of_mem (distinct_deployed summaries (.text text))
      (List.mem_append_right _ List.mem_cons_self)
  rw [definitionText?, found]

/-- The definition is among the entries of any value that what was deployed is put over.
-/
theorem definitionText?_overlay {kind : Kind} {i : Instance} {d : Entries}
    (h : deployInstance {} kind i = .ok d) :
    ∃ text, definitionOf {} kind i = .ok text ∧
      ∀ value, definitionText? (Entries.overlay value d) = some text := by
  obtain ⟨text, ss, written, summaries, rfl⟩ := deployInstance_eq_ok_iff.mp h
  have found (value : Entries) : Entries.get? definitionKey
      (Entries.overlay value (outerEntries i.value ++ (definitionKey, .text text) :: ss))
        = some (.text text) :=
    Entries.get?_overlay_of_mem (distinct_deployed summaries (.text text))
      (List.mem_append_right _ List.mem_cons_self) value
  exact ⟨text, written, fun value => by rw [definitionText?, found value]⟩

/-- Beside the definition the outer entries remain, since summaries are left out. -/
theorem remainder_deployed {kind : Kind} {value ss : Entries} {text : String}
    (summaries : kind.HasSummariesOf value ss) :
    kind.remainder (outerEntries value ++ (definitionKey, .text text) :: ss)
      = outerEntries value := by
  let names : List String := "definition" :: if kind.hasSummaries then Summary.fields else []
  have dropped (es : Entries) : kind.remainder es = Entries.without (names.map Key.text) es := by
    cases kind <;> rfl
  have outer : Entries.without (names.map Key.text) (outerEntries value) = outerEntries value := by
    have others : ∀ k ∈ [Key.text "name", .text "scriptid", .text "dependencies"],
        k ∉ names.map Key.text := by
      cases kind <;> decide
    refine List.filter_eq_self.mpr fun e he => ?_
    rw [Bool.not_eq_true', ← Bool.not_eq_true, Entries.any_same_iff]
    exact others e.1 ((keysOf_outerEntries value).subset (mem_keysOf he))
  have rest : Entries.without (names.map Key.text) ((definitionKey, .text text) :: ss) = [] := by
    refine List.eq_nil_iff_forall_not_mem.mpr fun e he => ?_
    obtain ⟨mem, kept⟩ := Entries.mem_without_iff.mp he
    rcases List.mem_cons.mp mem with rfl | mem
    · exact kept List.mem_cons_self
    · refine kept (List.mem_cons_of_mem _ ?_)
      cases kind with
      | dataset => exact absurd mem (by rw [show ss = [] from summaries]; exact List.not_mem_nil)
      | workbook => exact summaries.keysOf.subset (mem_keysOf mem)
  rw [dropped, Entries.without, List.filter_append]
  exact (congrArg₂ (· ++ ·) outer rest).trans (List.append_nil _)

/-- What an instance holds after its definition came out as a tree. -/
def Kind.fetched (kind : Kind) (value : Entries) (t : Tree) : Except Failure Entries :=
  if t.isEmpty then .ok value
  else
    match t with
    | .map es => .ok ((kind.remainder value).overlay (Entries.dropField "name" es))
    | _ => .error .notAMapping

/-- Fetching reads the definition and normalizes it. -/
theorem outcome_fetchInstance {lookup : Option Lookup} {kind : Kind} {i : Instance} {text : String}
    (h : definitionText? i.value = some text) :
    (fetchInstance {} lookup kind i).outcome = Xml.definition text >>= fun es =>
      (Normalizer.walk ⟨kind.schema, lookup, {}⟩ (some kind.schema.rootRef) i.id
        (.map (Entries.dropField "name" es))).outcome >>= kind.fetched i.value := by
  rw [fetchInstance, h]
  simp only [canonicalDefinition, Normalizer.normalize, Journal.outcome_bind, Journal.outcome_of,
    bind_assoc]
  refine bind_congr_ok fun es _ => bind_congr_ok fun t _ => ?_
  unfold Kind.fetched
  cases empty : t.isEmpty with
  | true => rfl
  | false => cases t <;> rfl

theorem outcome_fetch {lookup : Option Lookup} {kind : Kind} {name : Option String}
    {value : Entries} {text : String} (h : definitionText? value = some text) :
    (fetch {} lookup kind name value).outcome = Xml.definition text >>= fun es =>
      (Normalizer.walk ⟨kind.schema, lookup, {}⟩ (some kind.schema.rootRef)
        (kind.instanceOf name value).id (.map (Entries.dropField "name" es))).outcome
          >>= kind.fetched value :=
  @outcome_fetchInstance lookup kind (kind.instanceOf name value) text h

/-- A tree comes out of fetching if it is nothing or a mapping. -/
theorem Kind.exists_fetched_iff {kind : Kind} {value : Entries} {t : Tree} :
    (∃ c, kind.fetched value t = .ok c) ↔ t.isEmpty = true ∨ t.isMap = true := by
  unfold fetched
  split
  · rename_i empty
    exact iff_of_true ⟨_, rfl⟩ (.inl empty)
  · rename_i some_
    cases t with
    | map es => exact iff_of_true ⟨_, rfl⟩ (.inr rfl)
    | _ => exact iff_of_false (fun ⟨_, eq⟩ => nomatch eq) (fun h => h.elim some_ nofun)

/-- A definition of one entry that normalizing leaves as it is takes the place of its
text, if there is nothing else. -/
theorem outcome_fetchInstance_single {lookup : Option Lookup} {kind : Kind} {i : Instance}
    {text name : String} {t : Tree} (held : i.value = [(definitionKey, .text text)])
    (read : Xml.definition text = .ok [(.text name, t)]) (other : name ∉ ["name", "_T_", "@_type"])
    (gives : Normalizer.Gives ⟨kind.schema, lookup, {}⟩
      (kind.schema.fieldType (some kind.schema.rootRef) (.text name)) t (.ok t))
    (some_ : t.isEmpty = false) :
    (fetchInstance {} lookup kind i).outcome = .ok [(.text name, t)] := by
  let n : Normalizer := ⟨kind.schema, lookup, {}⟩
  simp only [List.mem_cons, List.not_mem_nil, or_false, not_or] at other
  obtain ⟨noName, noTag, noMark⟩ := other
  have lacks {s : String} (ne : name ≠ s) : Entries.get? (.text s) [(Key.text name, t)] = none :=
    Entries.get?_eq_none (by simpa using ne.symm)
  have kept : Entries.dropField "name" [(Key.text name, t)] = [(.text name, t)] :=
    Entries.without_eq_self (by simpa using Ne.symm noName)
  have bare : Wire.sentinelOf? [(Key.text name, t)] = none := by
    rw [Wire.sentinelOf?, Wire.typeKey, lacks noMark]
  have entries : n.GivesEntries (some n.graph.rootRef) [(.text name, t)]
      (collect [(.text name, .ok t)]) :=
    Normalizer.givesEntries_of_forall₂ (.cons ⟨rfl, gives⟩ .nil)
  have walked := Normalizer.gives_plain bare (lacks noTag) entries i.id
    (Graph.counts_root (rootDepth_le_depth i))
  have collected : collect [(Key.text name, .ok t)] = .ok [(.text name, t)] := by
    show Except.ok (if t.isEmpty then [] else [(Key.text name, t)]) = _
    rw [some_]
    rfl
  have merged : kind.fetched i.value (.map [(.text name, t)]) = .ok [(.text name, t)] := by
    rw [Kind.fetched, kept, held]
    cases kind <;> rfl
  rw [collected] at walked
  rw [outcome_fetchInstance (by rw [held]; rfl), bind_of_ok read, kept]
  exact (bind_of_ok walked _).trans merged

end DefinitionTree
