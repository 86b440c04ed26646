/-
DefinitionTree/Proofs/Definition/Header.lean

The header of a workbook, written and read again.

The tag of a workbook stands in its header.  If the value has a header, this gets
the tag in front, and loses it again because the header is a union that drops
its tag.  If it has none, the header is put in as the sentinel of nothing, and
with a tag it still is that.

Main statements:

* `Kind.header_own`, `Kind.header_put`: the header that gets the tag;
* `Kind.isReread_header`, `Kind.comesBack_header`: what becomes of it.
-/
import DefinitionTree.Proofs.Definition.Root

namespace DefinitionTree.Kind

open Xml

/-- The declared type of a header. -/
def headerRef : TypeRef := Schema.wb "workbook"

theorem dropsTagAt_header : Kind.workbook.schema.dropsTagAt (some headerRef) = true := rfl

theorem keepsTagAt_header : Kind.workbook.schema.keepsTagAt (some headerRef) = false := rfl

variable {value : Entries}

section Header

variable {a : Admission} {p : Passage Kind.workbook.normalizer a} {restore : Field → Tree}
  (faithful : p.IsFaithful restore)
  (canonical : Kind.workbook.normalizer.Canonical a none (some Kind.workbook.schema.rootRef)
    (.map (innerEntries value)))

include canonical in
/-- The header of a canonical value is canonical where it stands. -/
theorem canonical_header (orderly : Kind.workbook.schema.IsOrderly) {t : Tree}
    (mem : (headerKey, t) ∈ innerEntries value) :
    Kind.workbook.normalizer.Canonical a (some headerKey) (some headerRef) t := by
  have inside := (Normalizer.canonicalEntries_iff.mp canonical.2 _ mem).2
  rwa [Normalizer.heldInside_of_hidden orderly.root rfl] at inside

include faithful canonical

/-- The header of the value is written without a tag. -/
theorem header_own {inner : Entries} (mem : (headerKey, .map inner) ∈ innerEntries value) :
    (headerKey, .map (Kind.workbook.normalizer.wired (some headerKey) (some headerRef) inner))
      ∈ Kind.workbook.wiredRoot value := by
  obtain ⟨fits, entries⟩ := canonical_header canonical faithful.orderly mem
  have noShown : Wire.exposedKey
      ∉ keysOf (Kind.workbook.normalizer.full (some headerRef) inner) :=
    Passage.exposedKey_notMem_full faithful (fits.exposed dropsTagAt_header rfl)
  have written := Passage.written_untagged faithful entries
    keepsTagAt_header fits rfl rfl noShown
  rw [← written]
  exact mem_wiredRoot faithful canonical (List.mem_append_left _ (List.mem_map_of_mem mem))

/-- The header that is put in is the sentinel of nothing. -/
theorem header_put {f : Field} (called : f.name = "Workbook")
    (mem : f ∈ Kind.workbook.normalizer.putBack (some Kind.workbook.schema.rootRef)
      (innerEntries value)) :
    ∃ s : Wire.Sentinel, (s = .null ∨ s = .array) ∧
      (Schema.workbook.fieldPlaceholder f).value = .map [s.mark] ∧
      Schema.restoredDefault f = (Schema.workbook.fieldPlaceholder f).emptied ∧
      (headerKey, .map [s.mark]) ∈ Kind.workbook.wiredRoot value := by
  have fields : ∀ f ∈ Schema.workbook.root.fields, f.name = "Workbook" →
      f.annotations.default?.isNone = true ∧ Schema.hasNoSorting f.type := by
    decide
  obtain ⟨t, back⟩ := Normalizer.putsBack_of_mem mem
  have root : Schema.workbook.objectAt? (some Schema.workbook.rootRef)
      = some Schema.workbook.root := rfl
  cases root.symm.trans back.object
  obtain ⟨none, noSorting⟩ := fields f back.mem called
  obtain ⟨s, empty, placeholder⟩ := (Schema.fieldPlaceholder_noSorting none noSorting).value
  refine ⟨s, empty, placeholder, Schema.restoredDefault_noSorting none noSorting, ?_⟩
  have written : Kind.workbook.normalizer.wireOf (some headerKey)
      (Schema.workbook.fieldPlaceholder f).value = .map [s.mark] := by
    rw [placeholder]
    exact Wire.encodeAt_mark s
  rw [← written, headerKey, ← called]
  exact mem_wiredRoot faithful canonical (List.mem_append_right _ (List.mem_map_of_mem mem))

/-- The header gets the tag of a workbook in front. -/
theorem tagged_header {hs : Entries} (mem : (headerKey, .map hs) ∈ Kind.workbook.wiredRoot value)
    (noTag : Wire.tagKey ∉ keysOf hs) :
    Kind.workbook.tagged (header (Kind.workbook.wiredRoot value))
      = (Wire.tagKey, .text Kind.workbook.rootTag) :: hs := by
  have found : Entries.get? headerKey (Kind.workbook.wiredRoot value) = some (.map hs) :=
    Entries.get?_of_mem (admitted_wiredRoot faithful canonical).plain.distinct mem
  have same : header (Kind.workbook.wiredRoot value) = hs := by
    rw [header, found]
    rfl
  rw [same, tagged_eq noTag]

end Header

/-! ### The header with its tag -/

theorem isMap_header (h : Kind.workbook.IsSendable value) {t : Tree}
    (mem : (headerKey, t) ∈ innerEntries value) : ∃ inner, t = .map inner :=
  @Graph.isMap_of_wellTyped _ _ "workbook_workbook" t
    (Graph.entriesTyped_iff.mp h.typed.2 _ mem).2

/-- A header is there, or is put in. -/
theorem header_cases (h : Kind.workbook.IsSendable value) :
    (∃ inner, (headerKey, .map inner) ∈ innerEntries value) ∨
      ∃ f, f.name = "Workbook" ∧ f ∈ Kind.workbook.normalizer.putBack
        (some Kind.workbook.schema.rootRef) (innerEntries value) := by
  obtain ⟨shape, entries⟩ := h.typed
  have typed := Graph.entriesTyped_iff.mp entries
  by_cases own : headerKey ∈ keysOf (innerEntries value)
  · obtain ⟨pre, t, post, split⟩ := exists_split own
    have mem : (headerKey, t) ∈ innerEntries value := by rw [split]; simp
    obtain ⟨inner, rfl⟩ := isMap_header h mem
    exact .inl ⟨inner, mem⟩
  · right
    have untyped : Entries.has Wire.typeKey (innerEntries value) = false := by
      rw [Wire.typeKey, Entries.has_eq_false_iff]
      exact Normalizer.typeKey_notMem (n := Kind.workbook.normalizer) Kind.workbook.isOrderly
        fun e he => (typed e he).1
    have lacks : Entries.has headerKey (innerEntries value) = false := by
      rwa [headerKey, Entries.has_eq_false_iff]
    -- the root says no type of its own and keeps no tag, so it lacks fields
    have additions : Kind.workbook.schema.additionsOf (some Kind.workbook.schema.rootRef)
        (innerEntries value) = .fields Schema.workbook.root.name
          (Schema.workbook.root.missing (innerEntries value)) := by
      rcases Schema.workbook.root.additions_cases (innerEntries value) with
        ⟨sentinel, -⟩ | ⟨-, keeps, -⟩ | ⟨-, -, eq⟩
      · rw [untyped] at sentinel
        cases sentinel
      · exact absurd keeps (by decide)
      · exact eq
    refine ⟨Schema.plain "Workbook" headerRef, rfl, ?_⟩
    rw [Normalizer.putBack, additions]
    refine List.mem_filter.mpr ⟨List.mem_append_right _ List.mem_cons_self, ?_⟩
    show (!Entries.has headerKey (innerEntries value) && true) = true
    rw [lacks]
    rfl

/-- An entry for the header is written, be the header one of the value or put in. -/
theorem headerKey_mem {a : Admission} {p : Passage Kind.workbook.normalizer a}
    {restore : Field → Tree} (h : Kind.workbook.IsSendable value) (faithful : p.IsFaithful restore)
    (canonical : Kind.workbook.normalizer.Canonical a none (some Kind.workbook.schema.rootRef)
      (.map (innerEntries value))) : headerKey ∈ keysOf (Kind.workbook.wiredRoot value) := by
  rcases header_cases h with ⟨inner, own⟩ | ⟨f, called, put⟩
  · exact mem_keysOf (header_own faithful canonical own)
  · obtain ⟨s, -, -, -, header⟩ := header_put faithful canonical called put
    exact mem_keysOf header

section Markup

variable (h : Kind.workbook.IsSendable value)
  (canonical : Kind.workbook.normalizer.Canonical .markup none
    (some Kind.workbook.schema.rootRef) (.map (innerEntries value)))

theorem tagKey_notMem_mark (s : Wire.Sentinel) : Wire.tagKey ∉ keysOf [s.mark] := by
  simp [Wire.tagKey, Wire.Sentinel.mark, Wire.typeKey]

theorem reread_tag : reread "_T_" (.text Kind.workbook.rootTag)
    = .ok (.text Kind.workbook.rootTag) := by
  obtain ⟨⟨named, -⟩, word, -⟩ := Kind.workbook.tag_facts
  exact Passage.reread_text (by decide) (isClean_of_isName named) word

/-- The markup of workbooks. -/
abbrev workbookMarkup : Passage Kind.workbook.normalizer .markup :=
  Passage.markup Kind.workbook.normalizer rfl

include h canonical in
/-- The header can be read. -/
theorem isReread_header (faithful : workbookMarkup.IsFaithful Schema.restoredDefault) :
    Passage.IsReread (.map (Kind.workbook.tagged (header (Kind.workbook.wiredRoot value)))) := by
  rcases header_cases h with ⟨inner, own⟩ | ⟨f, called, put⟩
  · obtain ⟨fits, entries⟩ := canonical_header canonical faithful.orderly own
    have admitted := Passage.admitted_wired faithful
      (fun e _ => workbookMarkup.settles faithful e.2) entries
      keepsTagAt_header fits
    obtain ⟨distinct, all⟩ := admitted.tagged (workbookMarkup.takes_tag Kind.workbook.tag_facts.1)
    rw [tagged_header faithful canonical (header_own faithful canonical own)
      admitted.plain.tagKey_notMem]
    exact workbookMarkup.takes_map (List.cons_ne_nil _ _) distinct all
  · obtain ⟨s, -, -, -, header⟩ := header_put faithful canonical called put
    rw [tagged_header faithful canonical header (tagKey_notMem_mark s)]
    refine ⟨by simp, fun name named => ?_⟩
    exact ⟨_, reread_taggedMark named s (by simp) reread_tag, by simp⟩

include h canonical in
/-- The header with the tag of the root in it comes back as it would without the tag. -/
theorem comesBack_header (faithful : workbookMarkup.IsFaithful Schema.restoredDefault)
    {x : Except Failure Tree}
    (mem : (headerKey, x) ∈ Kind.workbook.normalizer.settled Schema.restoredDefault none
      (some Kind.workbook.schema.rootRef) (innerEntries value)) :
    workbookMarkup.ComesBackAs (some Kind.workbook.schema.rootRef)
      (headerKey, .map (Kind.workbook.tagged (header (Kind.workbook.wiredRoot value))))
      (headerKey, x) := by
  refine ⟨rfl, fun w carries => ?_⟩
  show Kind.workbook.normalizer.Gives (some headerRef) w x
  -- the header was there, or it was put in as a sentinel
  rcases List.mem_append.mp mem with settled | put
  · rw [Normalizer.settleEntries_eq_map] at settled
    obtain ⟨⟨k, t⟩, own, eq⟩ := List.mem_map.mp settled
    cases eq
    obtain ⟨inner, rfl⟩ := isMap_header h own
    obtain ⟨fits, entries⟩ := canonical_header canonical faithful.orderly own
    have settles : ∀ e ∈ inner, workbookMarkup.Settles Schema.restoredDefault e.2 :=
      fun e _ => workbookMarkup.settles faithful e.2
    have admitted := Passage.admitted_wired faithful settles entries
      keepsTagAt_header fits
    rw [tagged_header faithful canonical (header_own faithful canonical own)
      admitted.plain.tagKey_notMem] at carries
    obtain ⟨name, word, ignored⟩ := Kind.workbook.tag_facts
    rw [Normalizer.heldInside_of_hidden faithful.orderly.root rfl]
    exact Passage.gives_tagged faithful settles entries fits dropsTagAt_header name word ignored rfl
      carries
  · obtain ⟨f, back, eq⟩ := List.mem_map.mp put
    obtain ⟨called, rfl⟩ := Prod.mk.inj eq
    obtain ⟨s, empty, placeholder, restored, header⟩ :=
      header_put faithful canonical (Key.text.inj called) back
    obtain ⟨name, named, read⟩ := carries
    rw [tagged_header faithful canonical header (tagKey_notMem_mark s)] at read
    cases (reread_taggedMark named s (by simp) reread_tag).symm.trans read
    rw [restored]
    refine Passage.gives_emptied empty placeholder ?_ rfl
    cases s <;> rfl

end Markup

/-- If it is read, nothing in it is too long. -/
theorem not_holds_of_reread_header {restore : Field → Tree}
    (faithful : (Passage.sink Kind.workbook.normalizer).IsFaithful restore)
    (canonical : Kind.workbook.normalizer.Canonical .named none
      (some Kind.workbook.schema.rootRef) (.map (innerEntries value)))
    {inner : Entries} (own : (headerKey, .map inner) ∈ innerEntries value)
    {name : String} {w : Tree} (named : isName name.toList = true)
    (read : reread name (.map (Kind.workbook.tagged (header (Kind.workbook.wiredRoot value))))
      = .ok w) :
    ¬(Tree.map inner).Holds (·.isTooLong = true) := by
  have canonical_ := canonical_header canonical faithful.orderly own
  have admitted := Passage.admitted_wired faithful
    (fun e _ => (Passage.sink Kind.workbook.normalizer).settles faithful e.2) canonical_.2
    keepsTagAt_header canonical_.1
  have sent := admitted.tagged
    ((Passage.sink Kind.workbook.normalizer).takes_tag Kind.workbook.tag_facts.1.1)
  rw [tagged_header faithful canonical (header_own faithful canonical own)
    admitted.plain.tagKey_notMem] at read
  have reads := Passage.areReread_of_sent (List.cons_ne_nil _ _) sent named read
  exact (Passage.shortens faithful (.map inner)).free rfl canonical_ keepsTagAt_header
    fun e he => reads e (List.mem_cons_of_mem _ he)

end DefinitionTree.Kind
