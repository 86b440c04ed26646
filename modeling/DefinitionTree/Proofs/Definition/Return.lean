/-
DefinitionTree/Proofs/Definition/Return.lean

Deploying and fetching a value.

A value that is to come back does so, up to the order of its keys, unless some
text or integer in its definition, or its name, is an integer with more digits
than are read.  Then its definition cannot be read at all.

Main statements:

* `Kind.exists_reread_root`, `Kind.gives_root`: what is read, and what it gives;
* `Kind.not_holds_of_reread`: what was read holds nothing too long;
* `fetch_deploy`: both together.
-/
import DefinitionTree.Proofs.Definition.Header
import DefinitionTree.Proofs.Tree.Alike

namespace DefinitionTree

open Xml

namespace Kind

variable {kind : Kind} {value : Entries} (h : kind.IsSendable value)

/-! ### What is written -/

/-- Writing alone is a faithful passage for every kind. -/
theorem sink_isFaithful (kind : Kind) :
    (Passage.sink kind.normalizer).IsFaithful kind.restored :=
  have formula : isName "formula".toList = true := by decide
  kind.isFaithful _ kind.letsIn_named (fun b => by cases b <;> rfl) formula

include h in
theorem canonical_named : kind.normalizer.Canonical .named none (some kind.schema.rootRef)
    (.map (innerEntries value)) :=
  Normalizer.canonical_of_wellTyped kind.isOrderly kind.agrees kind.letsIn_named h.typed (.inl rfl)
    fun _ held => nomatch held

include h in
theorem admitted_named :
    (Passage.sink kind.normalizer).Admitted (kind.wiredRoot value) :=
  admitted_wiredRoot kind.sink_isFaithful (canonical_named h)

include h in
/-- The entries that are written for a value before it gets its name can be read child by
child. -/
theorem areChildren_root : AreChildren (kind.tagRoot (kind.wiredRoot value)) ∧
    Key.text "name" ∉ keysOf (kind.tagRoot (kind.wiredRoot value)) :=
  ⟨areChildren_tagRoot (admitted_named h),
    name_notMem_tagRoot (name_notMem_wiredRoot kind.sink_isFaithful (canonical_named h))⟩

/-! ### What comes back -/

/-- Going through markup is a faithful passage for every kind. -/
theorem markup_isFaithful (kind : Kind) :
    (Passage.markup kind.normalizer rfl).IsFaithful kind.restored :=
  kind.isFaithful _ kind.letsIn_markup Primitive.reads_bool ⟨by decide, by decide⟩

section Short

variable (short : ¬(Tree.map (innerEntries value)).Holds (·.isTooLong = true))

include h short

theorem canonical_markup : kind.normalizer.Canonical .markup none (some kind.schema.rootRef)
    (.map (innerEntries value)) :=
  Normalizer.canonical_of_wellTyped kind.isOrderly kind.agrees kind.letsIn_markup
    (Graph.wellTyped_reads h.typed short) (.inl rfl) fun _ held => nomatch held

/-- The root element of a value that holds nothing too long is read. -/
theorem exists_reread_root : ∃ gs,
    reread rootName (.map (kind.tagRoot (kind.wiredRoot value))) = .ok (.map gs) := by
  have canonical := canonical_markup h short
  have admitted := admitted_wiredRoot kind.markup_isFaithful canonical
  have taken : ∀ e ∈ kind.tagRoot (kind.wiredRoot value), Passage.IsReread e.2 := by
    intro e he
    cases kind with
    | dataset =>
      rw [tagRoot, tagged_eq admitted.plain.tagKey_notMem] at he
      rcases List.mem_cons.mp he with rfl | he
      · obtain ⟨⟨named, -⟩, -⟩ := Kind.dataset.tag_facts
        exact Passage.isReread_text (isClean_of_isName named) (isOverlong_of_isName named)
      · exact admitted.taken e he
    | workbook =>
      rcases Entries.mem_or_eq_of_mem_set he with he | rfl
      · exact admitted.taken e he
      · exact isReread_header h canonical Kind.workbook.markup_isFaithful
  obtain ⟨children, -⟩ := areChildren_root h
  obtain ⟨gs, reads⟩ := Passage.exists_rereads fun e he =>
    ⟨(children.children e he).1, taken e he⟩
  exact ⟨gs, (children.reread_iff rootName_isName).mpr ⟨gs, reads, rfl⟩⟩

/-- What is read of the root is normalized to the entries that the definition holds. -/
theorem gives_root {gs : Entries}
    (read : reread rootName (.map (kind.tagRoot (kind.wiredRoot value))) = .ok (.map gs)) :
    kind.normalizer.Gives (some kind.schema.rootRef) (.map gs)
      (.ok (.map (innerEntries value))) := by
  have canonical := canonical_markup h short
  have faithful := kind.markup_isFaithful
  -- a complete value settles to itself, so what comes back is the value
  have settles : kind.normalizer.settle kind.restored none (some kind.schema.rootRef)
      (.map (innerEntries value)) = .ok (.map (innerEntries value)) := by
    rw [Normalizer.settle_wellTyped kind.isOrderly kind.agrees kind.keeps Primitive.sends_null
      h.typed (.inl rfl), Graph.withDefaults_eq_self h.complete]
  have carries : (Passage.markup kind.normalizer rfl).carries
      (.map (kind.tagRoot (kind.wiredRoot value))) (.map gs) := ⟨rootName, rootName_isName, read⟩
  have admitted := admitted_wiredRoot faithful canonical
  rw [← settles]
  cases kind with
  | dataset =>
    rw [tagRoot, tagged_eq admitted.plain.tagKey_notMem, wiredRoot_eq faithful canonical] at carries
    obtain ⟨fits, entries⟩ := canonical
    obtain ⟨name, word, ignored⟩ := Kind.dataset.tag_facts
    exact Passage.gives_tagged faithful (fun e _ => Passage.settles faithful e.2) entries fits rfl
      name word ignored rfl carries
  | workbook =>
    have mem := headerKey_mem h faithful canonical
    have header := isReread_header h canonical faithful
    obtain ⟨fs, eq, carried, mark, noTag⟩ :=
      Passage.carried_entries (admitted.set mem header) (areChildren_root h).1.some_ carries
    cases eq
    have back : List.Forall₂ _ (Kind.workbook.normalizer.wired none _ (innerEntries value))
        (Kind.workbook.normalizer.settled _ none _ (innerEntries value)) :=
      Passage.comesBack_wired faithful (fun e _ => Passage.settles faithful e.2) canonical.2
        faithful.orderly.root
    rw [← wiredRoot_eq faithful canonical] at back
    have returns := Passage.comesBackAs_set back mem fun x hx =>
      comesBack_header h canonical faithful hx
    exact Normalizer.gives_plain mark noTag (Passage.givesEntries returns carried)

end Short

/-! ### What is not read -/

include h in
/-- Where the root element of a value is read, nothing in the entries of its definition is
too long. -/
theorem not_holds_of_reread {w : Tree}
    (read : reread rootName (.map (kind.tagRoot (kind.wiredRoot value))) = .ok w) :
    ¬(Tree.map (innerEntries value)).Holds (·.isTooLong = true) := by
  have canonical := canonical_named h
  have faithful := kind.sink_isFaithful
  obtain ⟨children, -⟩ := areChildren_root h
  have reads := areReread_of_map rootName_isName children.some_ children.children
    children.distinct read
  -- every entry of the root is read, and reads only what is short enough
  rw [Tree.holds_map_iff]
  rintro ⟨⟨k, t⟩, he, holds⟩
  have inside := (Normalizer.canonicalEntries_iff.mp canonical.2 _ he).2
  rw [Normalizer.heldInside_of_hidden faithful.orderly.root rfl] at inside
  have written := mem_wiredRoot faithful canonical
    (List.mem_append_left _ (List.mem_map_of_mem he))
  cases kind with
  | dataset =>
    rw [tagRoot, tagged_eq (admitted_named h).plain.tagKey_notMem] at reads
    obtain ⟨s, u, named, read⟩ := reads _ (List.mem_cons_of_mem _ written)
    exact (Passage.shortens faithful t).held inside named read holds
  | workbook =>
    -- the header alone is written in a form of its own
    by_cases header : k = headerKey
    · subst header
      obtain ⟨inner, rfl⟩ := isMap_header h he
      obtain ⟨s, u, named, read⟩ := reads _ (Entries.mem_set_self "Workbook" _ _)
      exact not_holds_of_reread_header faithful canonical he named read holds
    · obtain ⟨s, u, named, read⟩ := reads _ (Entries.mem_set_of_ne written header _)
      exact (Passage.shortens faithful t).held inside named read holds

/-! ### What is deployed -/

include h in
/-- The collections of a value that is to come back can be looked at: they are lists, if
there are any. -/
theorem isIterable_of_sendable (has : kind.hasSummaries = true) :
    ∀ s ∈ Summary.all, Summary.IsIterable (Entries.field? s.collection value) := by
  have lists : ∀ s ∈ Summary.all, Key.text s.collection ∉ outerFields.map Key.text ∧
      ∃ item, kind.schema.fieldType (some kind.schema.rootRef) (.text s.collection)
        = some (.list item) := by
    cases kind with
    | dataset => cases has
    | workbook =>
      exact List.forall_mem_cons.mpr ⟨⟨by decide, _, rfl⟩, List.forall_mem_cons.mpr
        ⟨⟨by decide, _, rfl⟩, List.forall_mem_singleton.mpr ⟨by decide, _, rfl⟩⟩⟩
  intro s hs
  obtain ⟨inner, item, declared⟩ := lists s hs
  rcases found : Entries.field? s.collection value with - | t
  · trivial
  · have mem := mem_innerEntries.mpr ⟨Entries.mem_of_get? found, inner⟩
    have typed := (Graph.entriesTyped_iff.mp h.typed.2 _ mem).2
    rw [declared] at typed
    obtain ⟨ts, rfl⟩ := Graph.isList_of_wellTyped typed
    trivial

/-! ### What is read -/

include h in
/-- A value holds something too long just if this is the name, or stands in what the
definition holds. -/
theorem holdsTooLong_iff : HoldsTooLong value ↔
    (∃ t, Entries.field? "name" value = some t ∧ t.isTooLong = true) ∨
      (Tree.map (innerEntries value)).Holds (·.isTooLong = true) := by
  rw [HoldsTooLong, Tree.holds_map_iff, Tree.holds_map_iff]
  constructor
  · rintro ⟨⟨k, t⟩, mem, holds⟩
    obtain ⟨mem, inside⟩ := Entries.mem_without_iff.mp mem
    -- of the fields outside the definition only the name is written
    by_cases outer : k ∈ outerFields.map Key.text
    · have isName : k = .text "name" := by
        simp only [outerFields, List.map_cons, List.map_nil, List.mem_cons, List.not_mem_nil,
          or_false] at outer
        rcases outer with rfl | rfl | rfl | rfl
        · exact absurd inside (by simp)
        · rfl
        · exact absurd (mem_keysOf mem) h.noDefinition
        · exact absurd inside (by simp)
      subst isName
      have found : Entries.field? "name" value = some t := Entries.get?_of_mem h.distinct mem
      obtain ⟨s, rfl, -⟩ := h.name t found
      exact .inl ⟨_, found, (Tree.holds_leaf_iff rfl).mp holds⟩
    · exact .inr ⟨_, mem_innerEntries.mpr ⟨mem, outer⟩, holds⟩
  · rintro (⟨t, found, long⟩ | ⟨e, mem, holds⟩)
    · obtain ⟨s, rfl, -⟩ := h.name t found
      exact ⟨_, Entries.mem_without_iff.mpr ⟨Entries.mem_of_get? found, by simp⟩, .leaf rfl long⟩
    · obtain ⟨mem, inner⟩ := mem_innerEntries.mp mem
      refine ⟨e, Entries.mem_without_iff.mpr ⟨mem, fun outer => inner ?_⟩, holds⟩
      exact List.map_subset Key.text (by decide) outer

include h in
/-- The definition of a value that holds nothing too long is read, and gives the value
back. -/
theorem exists_isReadAs (short : ¬HoldsTooLong value) :
    ∃ es, kind.IsReadAs value es ∧ kind.normalizer.Gives (some kind.schema.rootRef)
      (.map (Entries.dropField "name" es)) (.ok (.map (innerEntries value))) := by
  rw [holdsTooLong_iff h, not_or] at short
  obtain ⟨shortName, short⟩ := short
  obtain ⟨children, new⟩ := areChildren_root h
  obtain ⟨gs, read⟩ := exists_reread_root h short
  have nameRead : ∀ t, Entries.field? "name" value = some t → t.isTooLong = false := by
    intro t found
    rw [← Bool.not_eq_true]
    exact fun long => shortName ⟨t, found, long⟩
  obtain ⟨es, isReadAs, rfl⟩ := (reread_named_iff children new h.name).mpr ⟨nameRead, read⟩
  exact ⟨es, isReadAs, gives_root h short read⟩

include h in
/-- A definition that was read holds nothing that is too long. -/
theorem not_holdsTooLong_of_isReadAs {es : Entries} (isReadAs : kind.IsReadAs value es) :
    ¬HoldsTooLong value := by
  obtain ⟨children, new⟩ := areChildren_root h
  obtain ⟨nameRead, read⟩ := (reread_named_iff children new h.name).mp
    ⟨es, isReadAs, rfl⟩
  rw [holdsTooLong_iff h]
  rintro (⟨t, found, long⟩ | holds)
  · rw [nameRead t found] at long
    cases long
  · exact not_holds_of_reread h read holds

end Kind

/-! ### Fetching what was deployed -/

section FetchDeploy

variable {kind : Kind} {value : Entries} (h : kind.IsSendable value) (name name' : Option String)

include h

/-- A value that holds nothing too long is deployed, and fetched as it was up to the
order of keys. -/
theorem fetch_deploy_alike (short : ¬HoldsTooLong value) :
    ∃ d c, deploy {} kind name value = .ok d ∧ (fetch {} none kind name' d).outcome = .ok c ∧
      (Tree.map value).Alike (.map c) := by
  obtain ⟨es, isReadAs, gives⟩ := Kind.exists_isReadAs h short
  obtain ⟨text, written, read⟩ :=
    (@exists_definition_iff kind (kind.instanceOf name value) es).mpr isReadAs
  obtain ⟨d, deployed⟩ := (@exists_deployInstance_iff _ (kind.instanceOf name value)).mpr
    ⟨⟨text, written⟩, Kind.isIterable_of_sendable h⟩
  obtain ⟨text', ss, written', summaries, rfl⟩ := deploy_eq_ok_iff.mp deployed
  cases written.symm.trans written'
  have walked := gives _ (Graph.counts_root (rootDepth_le_depth (kind.instanceOf name'
    (outerEntries value ++ (definitionKey, .text text) :: ss))))
  have some_ : (Tree.map (innerEntries value)).isEmpty = false := by
    simpa [Tree.isEmpty] using h.typed.1.nonempty
  have fetched : kind.fetched (outerEntries value ++ (definitionKey, .text text) :: ss)
      (.map (innerEntries value)) = .ok (outerEntries value ++ innerEntries value) := by
    rw [Kind.fetched, some_, remainder_deployed summaries, h.overlay_eq]
    rfl
  refine ⟨_, outerEntries value ++ innerEntries value, deployed, ?_, Tree.alike_of_perm h.perm⟩
  rw [outcome_fetch (definitionText?_deployed summaries), bind_of_ok read]
  exact (bind_of_ok walked _).trans fetched

/-- A value that holds something too long is not fetched from what was deployed. -/
theorem fetch_deploy_error (long : HoldsTooLong value) {d : Entries}
    (deployed : deploy {} kind name value = .ok d) (c : Entries) :
    (fetch {} none kind name' d).outcome ≠ .ok c := by
  intro fetched
  obtain ⟨text, ss, written, summaries, rfl⟩ := deploy_eq_ok_iff.mp deployed
  rw [outcome_fetch (definitionText?_deployed summaries)] at fetched
  obtain ⟨es, read, -⟩ := bind_eq_ok_iff.mp fetched
  have isReadAs := exists_definition_iff.mp ⟨text, written, read⟩
  exact Kind.not_holdsTooLong_of_isReadAs h isReadAs long

/-- **Which values come back.** A value that is to come back is deployed, and fetched as
it was up to the order of keys, unless its name or something in its definition is too
long. Fetching what was deployed of a value that holds something too long is an error. -/
theorem fetch_deploy :
    (¬HoldsTooLong value →
      ∃ d c, deploy {} kind name value = .ok d ∧ (fetch {} none kind name' d).outcome = .ok c ∧
        (Tree.map value).Alike (.map c)) ∧
    (HoldsTooLong value → ∀ d, deploy {} kind name value = .ok d →
      ∀ c, (fetch {} none kind name' d).outcome ≠ .ok c) :=
  ⟨fetch_deploy_alike h name name', fun long _ => fetch_deploy_error h name name' long⟩

end FetchDeploy

/-- A dataset with a name, a version that reads as a number, and a list of one
column. -/
def oneColumn : Entries := [
  (.text "name", .text "Sales & more"),
  (.text "version", .text "007"),
  (.text "columns", .list [.map [(.text "columnId", .int 1)]]),
  (.text "scriptid", .text "custdataset1")]

theorem isSendable_oneColumn : Kind.dataset.IsSendable oneColumn := by
  refine ⟨by decide, by decide, fun t found => ?_, fun t found => ?_, nofun, by decide,
    Graph.hasDefaults_of_none (fun _ => rfl) _⟩
  · cases found
    exact ⟨_, rfl, by decide⟩
  · cases found
    exact ⟨nofun, rfl⟩

theorem fetch_deploy_oneColumn :
    Kind.dataset.IsSendable oneColumn ∧ ¬HoldsTooLong oneColumn ∧
    ∃ d c, deploy {} .dataset none oneColumn = .ok d ∧
      (fetch {} none .dataset none d).outcome = .ok c ∧ (Tree.map oneColumn).Alike (.map c) := by
  have leaf {t : Tree} (scalar : t.key?.isSome = true) (short : t.isTooLong = false) :
      ¬t.Holds (·.isTooLong = true) := by
    rw [Tree.holds_leaf_iff scalar, short]
    decide
  have short : ¬HoldsTooLong oneColumn := by
    rw [HoldsTooLong]
    show ¬(Tree.map (oneColumn.take 3)).Holds _
    simp only [oneColumn, List.take, Tree.holds_map_iff, Tree.holds_list_iff, List.mem_cons,
      List.not_mem_nil, or_false, exists_eq_or_imp, exists_eq_left, not_or]
    exact ⟨leaf rfl (by decide +kernel), leaf rfl (by decide +kernel), leaf rfl (by decide +kernel)⟩
  exact ⟨isSendable_oneColumn, short, (fetch_deploy isSendable_oneColumn none none).1 short⟩

/-- A dataset that has only a version. -/
def versionOnly (s : String) : Entries := [(.text "version", .text s)]

theorem isSendable_versionOnly {s : String} (clean : isClean s = true) :
    Kind.dataset.IsSendable (versionOnly s) := by
  have inner : innerEntries (versionOnly s) = versionOnly s := rfl
  refine ⟨List.nodup_singleton _, by simp [versionOnly, definitionKey], nofun, nofun, nofun, ?_,
    Graph.hasDefaults_of_none (fun _ => rfl) _⟩
  rw [inner]
  refine ⟨⟨by simp [versionOnly], List.nodup_singleton _, rfl, fun keeps => nomatch keeps⟩, rfl, ?_⟩
  exact ⟨⟨.string, rfl, clean⟩, trivial⟩

theorem holdsTooLong_versionOnly_iff {s : String} :
    HoldsTooLong (versionOnly s) ↔ (Tree.text s).isTooLong = true := by
  show (Tree.map (versionOnly s)).Holds _ ↔ _
  rw [versionOnly, Tree.holds_map_iff]
  simp only [List.mem_singleton, exists_eq_left]
  exact Tree.holds_leaf_iff rfl

/-- The digit 1, once and as often as the number says. -/
def ones (n : Nat) : String := String.ofList (List.replicate (n + 1) '1')

/-- A text of ones with more digits than are read is one that an element gives back, but
too long. -/
theorem isTooLong_ones {n : Nat} (many : Numeral.digitLimit ≤ n) :
    isClean (ones n) = true ∧ (Tree.text (ones n)).isTooLong = true := by
  have spelled : (ones n).toList = '1' :: List.replicate n '1' := by
    rw [ones, String.toList_ofList, List.replicate_succ]
  have clean : isClean (ones n) = true := by
    refine isClean_of_noBlank fun c mem => ?_
    rw [ones, String.toList_ofList] at mem
    rw [List.eq_of_mem_replicate mem]
    decide
  have whole : isWhole ('1' :: List.replicate n '1') = true := by
    refine isWhole_of_first (by decide) (List.all_eq_true.mpr fun c mem => ?_)
    rw [List.eq_of_mem_replicate mem]
    decide
  have held : (Tree.text (ones n)).isTooLong = isOverlong (heldText (ones n)) := rfl
  refine ⟨clean, ?_⟩
  rw [held, heldText_of_isClean clean, isOverlong,
    dropLineEnd_of_trim (isClean_iff.mp clean).2.2, spelled]
  show (isWhole ('1' :: List.replicate n '1')
    && decide (Numeral.digitLimit < ('1' :: List.replicate n '1').length)) = true
  rw [whole, List.length_cons, List.length_replicate, Bool.true_and, decide_eq_true_eq]
  exact Nat.lt_succ_of_le many

/-- A version that has one digit more than are read does not come back. -/
theorem fetch_deploy_ones :
    Kind.dataset.IsSendable (versionOnly (ones Numeral.digitLimit)) ∧
    ∀ d, deploy {} .dataset none (versionOnly (ones Numeral.digitLimit)) = .ok d →
      ∀ c, (fetch {} none .dataset none d).outcome ≠ .ok c := by
  obtain ⟨clean, tooLong⟩ := isTooLong_ones (Nat.le_refl Numeral.digitLimit)
  have sendable := isSendable_versionOnly clean
  have long := holdsTooLong_versionOnly_iff.mpr tooLong
  exact ⟨sendable, fun _ => fetch_deploy_error sendable none none long⟩

end DefinitionTree
