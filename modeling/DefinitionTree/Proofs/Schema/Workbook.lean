/-
DefinitionTree/Proofs/Schema/Workbook.lean

The defaults of the schema of workbooks.

Only the sortings of data view columns have defaults: whether they are case
sensitive, and whether nothing comes first, are false where they are missing, and
a column without a sorting gets one that holds just these.  Everything else that
is put into a workbook is put in as nothing.

Main definitions and statements:

* `Schema.workbookDefaults`: the defaults by type;
* `Schema.workbook_restores`: whatever the passage, they stay and all else that is
  put in vanishes;
* `Schema.workbook_keeps`: what of the fields that are put in stays.
-/
import DefinitionTree.Proofs.Canonical.Default
import DefinitionTree.Proofs.Canonical.Direct
import DefinitionTree.Schema.Workbook

namespace DefinitionTree

namespace Schema

theorem workbook_isOrderly : workbook.IsOrderly := by decide

/-! ### The defaults -/

/-- What a sorting gets where it is missing. -/
def sortingDefaults : Entries :=
  [(.text "caseSensitive", .bool false), (.text "nullFirst", .bool false)]

/-- The defaults of workbooks. -/
def workbookDefaults : Defaults := fun type =>
  if type = some (wb "dataViewColumn") then [(.text "sorting", .map sortingDefaults)]
  else if type = some (wb "sorting") then sortingDefaults
  else []

/-- What stays of a field that is put in, if anything does. -/
def fieldDefault? (f : Field) : Option Tree :=
  match f.annotations.default? with
  | some d => some d
  | none => if f.type = wb "sorting" then some (.map sortingDefaults) else none

/-- What a field that is put in comes back as. -/
def restoredDefault (f : Field) : Tree :=
  (fieldDefault? f).getD (workbook.fieldPlaceholder f).emptied

/-- A type has one of the two lists of defaults, or none. -/
theorem workbookDefaults_cases (type : Option TypeRef) :
    type = some (wb "dataViewColumn") ∧
        workbookDefaults type = [(.text "sorting", .map sortingDefaults)] ∨
      type = some (wb "sorting") ∧ workbookDefaults type = sortingDefaults ∨
      workbookDefaults type = [] := by
  unfold workbookDefaults
  split
  · rename_i column
    exact .inl ⟨column, rfl⟩
  · split
    · rename_i sorting
      exact .inr (.inl ⟨sorting, rfl⟩)
    · exact .inr (.inr rfl)

theorem wellTyped_sortingDefaults {admits : Primitive → Tree → Bool}
    (truths : ∀ b, admits .boolean (.bool b) = true) :
    workbook.WellTyped admits (some (wb "sorting")) (.map sortingDefaults) := by
  have shape : workbook.HasShape (some (wb "sorting")) sortingDefaults := by decide
  refine ⟨shape, Graph.entriesTyped_iff.mpr ?_⟩
  intro e he
  rcases List.mem_pair.mp he with rfl | rfl
  · exact ⟨rfl, .boolean, rfl, truths false⟩
  · exact ⟨rfl, .boolean, rfl, truths false⟩

theorem workbookDefaults_areProper {admits : Primitive → Tree → Bool}
    (truths : ∀ b, admits .boolean (.bool b) = true) :
    workbook.AreProper admits workbookDefaults := by
  have sorting := wellTyped_sortingDefaults truths
  refine ⟨fun type => ?_, fun type => ?_, fun type => ?_, fun type => ?_, fun type => ?_⟩ <;>
    rcases workbookDefaults_cases type with ⟨rfl, eq⟩ | ⟨rfl, eq⟩ | eq <;> rw [eq]
  · simp
  · simp [sortingDefaults]
  · simp
  · simp
  · simp [sortingDefaults]
  · simp
  · intro d hd
    rw [List.mem_singleton.mp hd]
    exact ⟨rfl, sorting⟩
  · exact Graph.entriesTyped_iff.mp sorting.2
  · simp
  · intro d hd
    rw [List.mem_singleton.mp hd]
    rfl
  · intro d hd
    rcases List.mem_pair.mp hd with rfl | rfl <;> rfl
  · simp
  · exact fun keeps => absurd keeps (by decide)
  · exact fun keeps => absurd keeps (by decide)
  · exact fun _ => rfl

/-! ### Placeholders -/

/-- The default of the field is false. -/
def isFalseByDefault (f : Field) : Bool :=
  match f.annotations.default? with
  | some (.bool false) => true
  | _ => false

/-- Neither a sorting nor a column, which has one. -/
def hasNoSorting (r : TypeRef) : Prop := r ≠ wb "sorting" ∧ r ≠ wb "dataViewColumn"

instance (r : TypeRef) : Decidable (hasNoSorting r) := inferInstanceAs (Decidable (_ ∧ _))

theorem isNone_default : ∀ t ∈ workbook.types, t.keepsTag = false →
    hasNoSorting (.named t.name) → ∀ f ∈ t.fields, f.annotations.isOmitted = false →
      f.annotations.default?.isNone = true ∧ hasNoSorting f.type := by
  decide

theorem lacksDefaults_workbook : workbook.LacksDefaults hasNoSorting := by
  intro name t among found keeps f hf back
  have mem : t ∈ workbook.types := List.mem_of_find?_eq_some found
  have eq : t.name = name := by simpa using List.find?_some found
  subst eq
  obtain ⟨none, inside⟩ := isNone_default t mem keeps among f hf back
  exact ⟨by simpa using none, inside⟩

/-- Every field that is put back has no default below it, is false by default, or
is a sorting. -/
theorem field_cases : ∀ t ∈ workbook.types, ∀ f ∈ t.fields, f.annotations.isOmitted = false →
    f.annotations.default?.isNone = true ∧ hasNoSorting f.type ∨
      isFalseByDefault f = true ∧ f.type = boolean ∨
      f.annotations.default?.isNone = true ∧ f.type = wb "sorting" ∧ f.name = "sorting" := by
  decide

/-- The type of sortings. -/
def sortingType : ObjectType :=
  wbType "sorting"
    [falseByDefault "caseSensitive", plain "direction" string, plain "localeId" string,
      falseByDefault "nullFirst", plain "order" number]

theorem type?_sorting : workbook.type? "workbook_sorting" = some sortingType := rfl

/-- The placeholder of a sorting. -/
def sortingPlaceholder : Entries := [
  (.text "caseSensitive", .bool false), (.text "direction", Wire.nullSentinel),
  (.text "localeId", Wire.nullSentinel), (.text "nullFirst", .bool false),
  (.text "order", Wire.nullSentinel)]

theorem placeholder_sorting :
    workbook.placeholder (wb "sorting") = ⟨.map sortingPlaceholder, false⟩ := by
  have known : "workbook_sorting" ∈ workbook.typeNames := by decide
  have absent (closed : List String) (p : Primitive) :
      workbook.placeholderIn closed (.primitive p) = .absent := by rw [Graph.placeholderIn]
  show workbook.placeholderIn workbook.typeNames (.named "workbook_sorting") = _
  rw [Graph.placeholderIn]
  simp only [type?_sorting, known, dite_true]
  show Placeholder.ofFields [
    ("caseSensitive", .ofDefault (.bool false)),
    ("direction", workbook.placeholderIn _ (.primitive .string)),
    ("localeId", workbook.placeholderIn _ (.primitive .string)),
    ("nullFirst", .ofDefault (.bool false)),
    ("order", workbook.placeholderIn _ (.primitive .number))] = _
  simp only [absent]
  rfl

/-- What a field of a sorting, or another field that is put back, gets. -/
theorem fieldPlaceholder_sorting {f : Field} (none : f.annotations.default?.isNone = true)
    (type : f.type = wb "sorting") :
    workbook.fieldPlaceholder f = ⟨.map sortingPlaceholder, false⟩ := by
  rw [Graph.fieldPlaceholder, Option.isNone_iff_eq_none.mp none, type]
  exact placeholder_sorting

theorem fieldPlaceholder_false {f : Field} (h : isFalseByDefault f = true) :
    workbook.fieldPlaceholder f = ⟨.bool false, false⟩ ∧ fieldDefault? f = some (.bool false) := by
  unfold isFalseByDefault at h
  split at h
  · rename_i default_
    refine ⟨?_, ?_⟩
    · rw [Graph.fieldPlaceholder, default_]
      rfl
    · rw [fieldDefault?, default_]
  · cases h

theorem fieldPlaceholder_noSorting {f : Field} (none : f.annotations.default?.isNone = true)
    (type : hasNoSorting f.type) : (workbook.fieldPlaceholder f).IsBare := by
  rw [Graph.fieldPlaceholder, Option.isNone_iff_eq_none.mp none]
  exact Graph.placeholder_bare lacksDefaults_workbook type

/-- Of such a field nothing stays. -/
theorem restoredDefault_noSorting {f : Field} (none : f.annotations.default?.isNone = true)
    (type : hasNoSorting f.type) :
    restoredDefault f = (workbook.fieldPlaceholder f).emptied := by
  rw [restoredDefault, fieldDefault?, Option.isNone_iff_eq_none.mp none]
  simp [type.1]

/-- No other default is declared than that something is false. -/
theorem default_cases : ∀ t ∈ workbook.types, ∀ f ∈ t.fields,
    f.annotations.default?.isNone = true ∨ isFalseByDefault f = true := by
  decide

theorem workbook_hasFlatDefaults : workbook.HasFlatDefaults := by
  intro t ht f hf d default_
  rcases default_cases t ht f hf with none | isFalse
  · rw [default_] at none
    cases none
  · unfold isFalseByDefault at isFalse
    rw [default_] at isFalse
    split at isFalse
    · rename_i eq
      cases eq
      exact Tree.isFlat_leaf rfl nofun
    · cases isFalse

theorem workbook_hasCompletePlaceholders : workbook.HasCompletePlaceholders :=
  Graph.hasCompletePlaceholders_of_flat workbook_isOrderly.distinct workbook_hasFlatDefaults

/-! ### What stays of the fields that are put in -/

/-- What stays of all the fields that a type puts back. -/
def staying (t : ObjectType) : Entries :=
  (t.fields.filter fun f => !f.annotations.isOmitted).filterMap fun f =>
    (fieldDefault? f).map (Key.text f.name, ·)

theorem staying_eq {t : ObjectType} (h : t ∈ workbook.types) :
    staying t = workbookDefaults (some (.named t.name)) := by
  have all : workbook.types.map staying
      = workbook.types.map fun t => workbookDefaults (some (.named t.name)) := rfl
  exact List.map_inj_left.mp all t h

/-- A default is never empty. -/
theorem isEmpty_fieldDefault : ∀ t ∈ workbook.types, ∀ f ∈ t.fields,
    (fieldDefault? f).any Tree.isEmpty = false := by
  decide

/-- What stays of the fields that a mapping lacks. -/
theorem filter_missing {t : ObjectType} (h : t ∈ workbook.types) (es : Entries) :
    ((t.missing es).map fun f => (Key.text f.name, restoredDefault f)).filter
        (fun e => !e.2.isEmpty)
      = (staying t).filter fun d => !Entries.has d.1 es := by
  have own := isEmpty_fieldDefault t h
  unfold ObjectType.missing staying
  generalize t.fields = fields at own
  induction fields with
  | nil => rfl
  | cons f fields ih =>
    obtain ⟨here, there⟩ := List.forall_mem_cons.mp own
    have ih := ih there
    rcases lacks : Entries.has (.text f.name) es with - | - <;>
      rcases omitted : f.annotations.isOmitted with - | - <;>
      rcases stays : fieldDefault? f with - | d <;>
      simp_all [restoredDefault, Placeholder.isEmpty_emptied]

variable {lookup : Option Lookup} {settings : Settings} {a : Admission}

/-- Of the fields that are put into a workbook its defaults stay. -/
theorem workbook_keeps :
    Normalizer.Keeps ⟨workbook, lookup, settings⟩ restoredDefault workbookDefaults := by
  intro type es untyped
  rcases object : workbook.objectAt? type with - | t
  · have none : workbookDefaults type = [] := by
      rcases workbookDefaults_cases type with ⟨rfl, -⟩ | ⟨rfl, -⟩ | none
      · exact absurd object (by decide)
      · exact absurd object (by decide)
      · exact none
    simp [Normalizer.putBack, Graph.additionsOf, object, Defaults.lackedBy, none]
  · obtain ⟨rfl, types⟩ := Graph.exists_named object
    have free : Entries.has Wire.typeKey es = false := by
      rwa [Wire.typeKey, Entries.has_eq_false_iff]
    rw [Defaults.lackedBy, ← staying_eq types]
    rcases t.additions_cases es with ⟨sentinel, -⟩ | ⟨-, keeps, k, u, rfl, eq⟩ | ⟨-, -, eq⟩
    · rw [free] at sentinel
      cases sentinel
    · have none : staying t = [] := by
        rw [staying_eq types]
        have proper : workbook.AreProper Primitive.admits workbookDefaults :=
          workbookDefaults_areProper fun _ => rfl
        refine proper.noVariant (some (.named t.name)) ?_
        simpa [Graph.keepsTagAt, object] using keeps
      simp [Normalizer.putBack, Graph.additionsOf, object, eq, none]
    · rw [← filter_missing types]
      simp only [Normalizer.putBack, Graph.additionsOf, object, eq]

/-! ### What comes back -/

/-- A sorting as it is written. -/
def writtenSorting : Entries := [
  (.text "caseSensitive", Wire.wrap (.bool false)), (.text "direction", Wire.nullSentinel),
  (.text "localeId", Wire.nullSentinel), (.text "nullFirst", Wire.wrap (.bool false)),
  (.text "order", Wire.nullSentinel)]

theorem isPlain_writtenSorting : Wire.IsPlain writtenSorting := by
  refine ⟨by decide, fun k hk => ?_⟩
  simp only [writtenSorting, keysOf_cons, keysOf_nil, List.mem_cons, List.not_mem_nil,
    or_false] at hk
  rcases hk with rfl | rfl | rfl | rfl | rfl <;> exact ⟨_, rfl, by decide⟩

/-- `sorting` is no key whose values lose their tag. -/
theorem not_discriminates_sorting (agrees : Normalizer.Agrees ⟨workbook, lookup, settings⟩) :
    Wire.isDiscriminated settings.discriminatedKeys (.text "sorting") = false := by
  rw [← Bool.not_eq_true]
  intro discriminates
  obtain ⟨o, s, f, object, name, mem, rfl, type⟩ :=
    @Graph.exists_field workbook (some (wb "dataViewColumn")) (.text "sorting") rfl
  have drops := agrees.discriminated o (Graph.mem_types_of_objectAt? object) f mem
    (name ▸ discriminates)
  rw [← type] at drops
  have keeps : workbook.dropsTagAt (some (wb "sorting")) = false := by decide
  exact absurd (keeps.symm.trans drops) (by decide)

theorem encodeAt_sorting {ks : List String}
    (open_ : Wire.isDiscriminated ks (.text "sorting") = false) :
    Wire.encodeAt ks true (.text "sorting") (.map sortingPlaceholder) = .map writtenSorting := by
  have plain : Wire.IsPlain sortingPlaceholder :=
    ⟨isPlain_writtenSorting.distinct, isPlain_writtenSorting.plain⟩
  have truth (k : Key) : Wire.encodeAt ks true k (.bool false) = Wire.wrap (.bool false) :=
    Wire.encodeAt_scalar rfl
  have null (k : Key) : Wire.encodeAt ks true k Wire.nullSentinel = Wire.nullSentinel :=
    Wire.encodeAt_mark .null
  rw [Wire.encodeAt_untagged plain open_ (by decide)]
  simp only [sortingPlaceholder, List.map_cons, List.map_nil, Wire.encodeEntry, truth, null]
  rfl

section Restoring

variable (p : Passage ⟨workbook, lookup, settings⟩ a) {admits : Primitive → Tree → Bool}
  (lets : Normalizer.LetsIn ⟨workbook, lookup, settings⟩ a admits)
  (truths : ∀ b, admits .boolean (.bool b) = true)

include lets truths in
theorem admitted_writtenSorting : p.Admitted writtenSorting := by
  refine ⟨isPlain_writtenSorting, fun s hs => ?_, fun e he => ?_⟩
  · have declared : (workbook.fieldType (some (wb "sorting")) (.text s)).isSome = true := by
      simp only [writtenSorting, keysOf_cons, keysOf_nil, List.mem_cons, List.not_mem_nil,
        or_false, Key.text.injEq] at hs
      rcases hs with rfl | rfl | rfl | rfl | rfl <;> rfl
    obtain ⟨o, s', f, object, name, mem, rfl, -⟩ := Graph.exists_field declared
    rw [Key.text.inj name]
    exact lets.names o (Graph.mem_types_of_objectAt? object) f mem
  · simp only [writtenSorting, List.mem_cons, List.not_mem_nil, or_false] at he
    have truth : p.takes (Wire.wrap (.bool false)) :=
      p.takes_leaf (lets.declared .boolean (.bool false) (truths false))
    have null : p.takes Wire.nullSentinel := p.takes_mark (.inl rfl)
    rcases he with rfl | rfl | rfl | rfl | rfl
    · exact truth
    · exact null
    · exact null
    · exact truth
    · exact null

include lets truths in
theorem taken_writtenSorting : p.takes (.map writtenSorting) :=
  have admitted := admitted_writtenSorting p lets truths
  p.takes_map (List.cons_ne_nil _ _) admitted.plain.distinct admitted.entry

include lets truths in
/-- A truth value comes back, and an absent value as nothing. -/
theorem comesBack_writtenSorting :
    List.Forall₂ (p.ComesBackAs (some (wb "sorting"))) writtenSorting
      (([(.text "caseSensitive", .bool false), (.text "direction", .map []),
        (.text "localeId", .map []), (.text "nullFirst", .bool false),
        (.text "order", .map [])] : Entries).map fun e => (e.1, .ok e.2)) := by
  have truth (s : String)
      (type : workbook.fieldType (some (wb "sorting")) (.text s) = some (.primitive .boolean)) :
      p.ComesBackAs (some (wb "sorting")) (.text s, Wire.wrap (.bool false))
        (.text s, .ok (.bool false)) :=
    ⟨rfl, fun w carries => by
      show Normalizer.Gives _ (workbook.fieldType _ _) _ _
      rw [type]
      exact p.leaf (lets.declared .boolean (.bool false) (truths false)) carries⟩
  have null (s : String) : p.ComesBackAs (some (wb "sorting")) (.text s, Wire.nullSentinel)
      (.text s, .ok (.map [])) := by
    refine ⟨rfl, fun w carries => ?_⟩
    refine @Passage.gives_bare _ _ p .absent (.inl rfl) (.text s) _ w ?_
    rw [Normalizer.wireOf]
    exact (Wire.encodeAt_mark .null).symm ▸ carries
  exact .cons (truth _ rfl) (.cons (null _) (.cons (null _) (.cons (truth _ rfl)
    (.cons (null _) .nil))))

include lets truths in
/-- A sorting that was put in comes back with what is false in it. -/
theorem gives_sorting {w : Tree} (carries : p.carries (.map writtenSorting) w) :
    Normalizer.Gives ⟨workbook, lookup, settings⟩ (some (wb "sorting")) w
      (.ok (.map sortingDefaults)) := by
  obtain ⟨fs, rfl, carried, mark, tag⟩ :=
    Passage.carried_entries (admitted_writtenSorting p lets truths) (List.cons_ne_nil _ _) carries
  have gives := Normalizer.gives_plain mark tag
    (Passage.givesEntries (comesBack_writtenSorting p lets truths) carried)
  rw [collect_ok] at gives
  exact gives

include lets truths in
/-- Every passage that lets in what builtin types admit brings the defaults of a workbook
back, and all else that is put in vanishes. -/
theorem workbook_restores (agrees : Normalizer.Agrees ⟨workbook, lookup, settings⟩) :
    p.Restores restoredDefault := by
  intro type t f back
  have types := Graph.mem_types_of_objectAt? back.object
  have fieldType := back.fieldType workbook_isOrderly.distinct
  have name := lets.names t types f back.mem
  show (workbook.fieldPlaceholder f).value ≠ _ ∧ _ ∧
    p.takes (Normalizer.wireOf _ _ (workbook.fieldPlaceholder f).value) ∧
    ∀ w, p.carries (Normalizer.wireOf _ _ (workbook.fieldPlaceholder f).value) w →
      Normalizer.Gives _ (workbook.fieldType _ _) _ _
  -- nothing, a truth value that is false, or a sorting is put in
  rcases field_cases t types f back.mem back.kept with
    ⟨none, type⟩ | ⟨default_, boolean⟩ | ⟨none, sorting, called⟩
  · rw [restoredDefault_noSorting none type]
    exact p.restores_bare (fieldPlaceholder_noSorting none type) name
  · obtain ⟨placeholder, default_⟩ := fieldPlaceholder_false default_
    have stays : restoredDefault f = .bool false := by rw [restoredDefault, default_]; rfl
    have written (k : Key) : Normalizer.wireOf ⟨workbook, lookup, settings⟩ (some k) (.bool false)
        = Wire.wrap (.bool false) := Wire.encodeAt_scalar rfl
    rw [placeholder, written, stays, fieldType, boolean]
    exact ⟨by simp, name, p.takes_leaf (lets.declared .boolean (.bool false) (truths false)),
      fun w carries => p.leaf (lets.declared .boolean (.bool false) (truths false)) carries⟩
  · have stays : restoredDefault f = .map sortingDefaults := by
      rw [restoredDefault, fieldDefault?, Option.isNone_iff_eq_none.mp none]
      simp [sorting]
    have written : Normalizer.wireOf ⟨workbook, lookup, settings⟩ (some (.text "sorting"))
        (.map sortingPlaceholder) = .map writtenSorting :=
      encodeAt_sorting (not_discriminates_sorting agrees)
    rw [fieldPlaceholder_sorting none sorting, called, written, stays, ← called, fieldType, sorting]
    exact ⟨by simp, name, taken_writtenSorting p lets truths,
      fun w carries => gives_sorting p lets truths carries⟩

end Restoring

end Schema

end DefinitionTree
