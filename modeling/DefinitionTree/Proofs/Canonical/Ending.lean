/-
DefinitionTree/Proofs/Canonical/Ending.lean

Completing always ends.

A completion goes on into what it has just put in.  But a placeholder has all fields
of its type, and so has everything inside it, up to where a type was cut off and
nothing more is asked for.  Where the declared type counts there is nothing to fill
in a placeholder, whatever cycles the schema has.

Above the root the declared type need not count: the root type is taken up again at
one depth, and a placeholder that lies across it is filled there, with fields that
may be of other types than those that were declared.  What fills them is one level
deeper, where nothing is in the way any more.  So there are never more than three
fillings inside each other.

Main definitions and statements:

* `Graph.fillWith_ends`: completing ends where filling a field does;
* `Graph.fill_grows`: a larger bound on nested fillings changes nothing;
* `Graph.complete_ends`: completing a definition.
-/
import DefinitionTree.Proofs.Canonical.Chain
import DefinitionTree.Proofs.Outcome

namespace DefinitionTree

/-! ### Trees without mappings -/

/-- No mapping stands in the tree, at any depth. -/
def Tree.IsMapFree (t : Tree) : Prop := ∀ u : Tree, u.IsIn t → u.isMap = false

theorem Tree.IsFlat.isMapFree {t : Tree} (h : t.IsFlat) : t.IsMapFree := fun u inside =>
  (h u inside).2

namespace Graph

variable {g : Graph} {filler filler' : Filler} {type : Option TypeRef} {place : ElementId}

/-! ### A larger bound changes nothing -/

/-- Wherever the first way to fill a field gives something, the second one gives the
same. -/
def Filler.GrowsTo (filler filler' : Filler) : Prop :=
  ∀ owner f type place, Follows Eq (filler owner f type place) (filler' owner f type place)

theorem fillFields_grows (grows : filler.GrowsTo filler') (owner : String) (missing : List Field) :
    Follows Eq (g.fillFields filler type place owner missing)
      (g.fillFields filler' type place owner missing) := by
  induction missing with
  | nil => exact follows_ok rfl
  | cons f rest ih =>
    refine (grows _ _ _ _).bind ?_
    rintro t _ rfl
    refine ih.bind ?_
    rintro es _ rfl
    exact follows_ok rfl

/-- Wherever the first way to fill fields completes the tree, the second one completes it
to the same. -/
def FillsOn (g : Graph) (filler filler' : Filler) (t : Tree) : Prop :=
  ∀ type place, Follows Eq (g.fillWith filler type place t) (g.fillWith filler' type place t)

theorem fillItems_grows {ts : List Tree} (each : ∀ t ∈ ts, g.FillsOn filler filler' t)
    (index : Nat) : Follows Eq (g.fillItems filler type place index ts)
      (g.fillItems filler' type place index ts) := by
  induction ts generalizing index with
  | nil => exact follows_ok rfl
  | cons t ts ih =>
    obtain ⟨here, there⟩ := List.forall_mem_cons.mp each
    refine (here type _).bind ?_
    rintro u _ rfl
    refine (ih there (index + 1)).bind ?_
    rintro us _ rfl
    exact follows_ok rfl

theorem fillEntries_grows {es : Entries} (each : ∀ e ∈ es, g.FillsOn filler filler' e.2) :
    Follows Eq (g.fillEntries filler type place es) (g.fillEntries filler' type place es) := by
  induction es with
  | nil => exact follows_ok rfl
  | cons e es ih =>
    obtain ⟨k, t⟩ := e
    obtain ⟨here, there⟩ := List.forall_mem_cons.mp each
    refine (here _ _).bind ?_
    rintro u _ rfl
    refine (ih there).bind ?_
    rintro us _ rfl
    exact follows_ok rfl

theorem fillWith_grows (grows : filler.GrowsTo filler') (t : Tree) :
    g.FillsOn filler filler' t := by
  induction t using Tree.induct with
  | leaf t scalar =>
    intro type place
    rw [fillWith_leaf scalar, fillWith_leaf scalar]
    exact follows_ok rfl
  | list ts ih =>
    intro type place
    rw [fillWith, fillWith]
    exact (fillItems_grows ih 0).map fun _ _ => congrArg Tree.list
  | map es ih =>
    intro type place
    have old : Follows Eq (g.fillEntries filler type place es)
        (g.fillEntries filler' type place es) := fillEntries_grows ih
    rw [fillWith, fillWith]
    rcases g.additions type place es with - | k | ⟨owner, missing⟩ <;> dsimp only
    · exact old.map fun _ _ => congrArg Tree.map
    · split
      · exact follows_ok rfl
      · refine old.bind ?_
        rintro fs _ rfl
        exact follows_ok rfl
    · refine old.bind ?_
      rintro fs _ rfl
      refine (fillFields_grows grows owner missing).bind ?_
      rintro gs _ rfl
      exact follows_ok rfl

theorem nestedFiller_grows (g : Graph) (depth : Nat) :
    (g.nestedFiller depth).GrowsTo (g.nestedFiller (depth + 1)) := by
  induction depth with
  | zero =>
    rintro owner f type place t ⟨⟩
  | succ depth ih =>
    exact fun _ f type place => fillWith_grows ih (g.fieldPlaceholder f).value type place

/-- What comes out with some bound comes out with every larger one. -/
theorem fill_grows {depth depth' : Nat} (le : depth ≤ depth') (type : Option TypeRef)
    (place : ElementId) (t : Tree) :
    Follows Eq (g.fill depth type place t) (g.fill depth' type place t) := by
  induction le with
  | refl => exact fun u h => ⟨u, h, rfl⟩
  | step _ ih =>
    intro u h
    obtain ⟨_, there, rfl⟩ := ih u h
    exact fillWith_grows (nestedFiller_grows g _) t type place u there

/-! ### Where filling a field ends, completing does -/

/-- What holds of a type at a place holds of the types of everything inside. -/
structure IsDownward (g : Graph) (holds : Option TypeRef → ElementId → Prop) : Prop where
  item : ∀ {type place}, holds type place → ∀ index : Nat, holds (itemType type) (place.item index)
  entry : ∀ {type place}, holds type place → ∀ k, holds (g.fieldType type k) (place.entry k)

/-- Every field that is put back there is filled. -/
def FillsIn (g : Graph) (holds : Option TypeRef → ElementId → Prop) (filler : Filler) : Prop :=
  ∀ type place t f, holds type place → g.PutsBack (g.typeAt type place) t f →
    Ends (filler t.name f (g.fieldType type (.text f.name)) (place.entry (.text f.name)))

variable {holds : Option TypeRef → ElementId → Prop}

theorem fillFields_ends (fills : g.FillsIn holds filler) (here : holds type place)
    {t : ObjectType} {missing : List Field}
    (back : ∀ f ∈ missing, g.PutsBack (g.typeAt type place) t f) :
    Ends (g.fillFields filler type place t.name missing) := by
  induction missing with
  | nil => exact ends_ok _
  | cons f rest ih =>
    obtain ⟨first, others⟩ := List.forall_mem_cons.mp back
    exact (fills type place t f here first).bind fun _ => (ih others).bind fun _ => ends_ok _

/-- Completing the tree ends. -/
def FillEnds (g : Graph) (holds : Option TypeRef → ElementId → Prop) (filler : Filler) (t : Tree) :
    Prop := ∀ type place, holds type place → Ends (g.fillWith filler type place t)

theorem fillItems_ends {ts : List Tree}
    (each : ∀ t ∈ ts, ∀ index : Nat, Ends (g.fillWith filler type (place.item index) t))
    (index : Nat) : Ends (g.fillItems filler type place index ts) := by
  induction ts generalizing index with
  | nil => exact ends_ok _
  | cons t ts ih =>
    obtain ⟨here, there⟩ := List.forall_mem_cons.mp each
    exact (here index).bind fun _ => (ih there (index + 1)).bind fun _ => ends_ok _

theorem fillEntries_ends {es : Entries}
    (each : ∀ e ∈ es, Ends (g.fillWith filler (g.fieldType type e.1) (place.entry e.1) e.2)) :
    Ends (g.fillEntries filler type place es) := by
  induction es with
  | nil => exact ends_ok _
  | cons e es ih =>
    obtain ⟨here, there⟩ := List.forall_mem_cons.mp each
    exact here.bind fun _ => (ih there).bind fun _ => ends_ok _

/-- Where every field that is put back is filled, completing ends. -/
theorem fillWith_ends (down : g.IsDownward holds) (fills : g.FillsIn holds filler) (t : Tree) :
    g.FillEnds holds filler t := by
  induction t using Tree.induct with
  | leaf t scalar =>
    intro type place _
    rw [fillWith_leaf scalar]
    exact ends_ok t
  | list ts ih =>
    intro type place here
    rw [fillWith]
    exact (fillItems_ends (fun t mem index => ih t mem _ _ (down.item here index)) 0).map _
  | map es ih =>
    intro type place here
    have old : Ends (g.fillEntries filler type place es) :=
      fillEntries_ends fun e mem => ih e mem _ _ (down.entry here e.1)
    rw [fillWith]
    rcases lacks : g.additions type place es with - | k | ⟨owner, missing⟩ <;> dsimp only
    · exact old.map _
    · split
      · exact ends_ok _
      · exact old.bind fun _ => ends_ok _
    · obtain ⟨t, rfl, back⟩ :=
        putsBack_of_additionsOf ((additions_eq_additionsOf es).symm.trans lacks)
      exact old.bind fun _ => (fillFields_ends fills here back).bind fun _ => ends_ok _

/-! ### Placeholders -/

/-- No default of the schema holds a mapping. -/
def HasMapFreeDefaults (g : Graph) : Prop :=
  ∀ t ∈ g.types, ∀ f ∈ t.fields, ∀ d, f.annotations.default? = some d → d.IsMapFree

theorem HasFlatDefaults.hasMapFreeDefaults (flat : g.HasFlatDefaults) : g.HasMapFreeDefaults :=
  fun t ht f hf d default_ => (flat t ht f hf d default_).isMapFree

theorem HasMapFreeDefaults.of_putsBack (free : g.HasMapFreeDefaults) {t : ObjectType} {f : Field}
    {d : Tree} (back : g.PutsBack type t f) (default_ : f.annotations.default? = some d) :
    d.IsMapFree :=
  free t (mem_types_of_objectAt? back.object) f back.mem d default_

/-- In a tree without mappings there is nothing to fill. -/
theorem fillWith_mapFree_ends {t : Tree} (free : t.IsMapFree) :
    Ends (g.fillWith filler type place t) := by
  induction t using Tree.induct generalizing type place with
  | leaf t scalar =>
    rw [fillWith_leaf scalar]
    exact ends_ok t
  | list ts ih =>
    have each : ∀ t ∈ ts, ∀ index : Nat,
        Ends (g.fillWith filler (itemType type) (place.item index) t) :=
      fun t mem _ => ih t mem fun u inside => free u (.item mem inside)
    rw [fillWith]
    exact (fillItems_ends each 0).map _
  | map es => exact absurd (free _ (.self _)) (by simp [Tree.isMap])

/-- With the fields that are put back a mapping lacks nothing. -/
theorem fillWith_restored_ends {t : ObjectType}
    (object : g.objectAt? (g.typeAt type place) = some t) (keeps : t.keepsTag = false)
    {values : Field → Tree}
    (each : ∀ f ∈ t.restored, Ends (g.fillWith filler (g.fieldType type (.text f.name))
      (place.entry (.text f.name)) (values f))) :
    Ends (g.fillWith filler type place
      (.map (t.restored.map fun f => (.text f.name, values f)))) := by
  rw [fillWith_restored object keeps]
  exact (fillEntries_ends (List.forall_mem_map.mpr each)).map _

/-- Completing a placeholder at its type ends, whatever the way to fill fields, if it
does where the root type is taken up again inside. -/
theorem placeholderIn_ends (distinct : g.HasDistinctFields) (free : g.HasMapFreeDefaults)
    (closed : List String) (r : TypeRef)
    (across : ∀ type place' t, place.depth ≤ place'.depth → place'.depth = rootDepth →
      Ends (g.fillWith filler type place' t)) :
    Ends (g.fillWith filler (some r) place (g.placeholderIn closed r).value) := by
  -- the induction is on the types that may still be opened
  induction n : closed.length using Nat.strongRecOn generalizing closed r place with
  | ind n ih =>
    subst n
    rcases @placeholderIn_cases g closed r with bare | ⟨name, t, rfl, known, keeps, mem, eq⟩
    · rw [fillWith_bare bare]
      exact ends_ok _
    rw [eq]
    rcases ofFields_cases (t.restored.map fun f =>
      (f.name, g.fieldPlaceholderIn (closed.erase name) f)) with absent | fields
    · rw [absent, fillWith_bare (.inl rfl)]
      exact ends_ok _
    -- at the root's depth it is not this type that is filled
    by_cases root : place.depth = rootDepth
    · exact across _ place _ (Nat.le_refl _) root
    have stands : g.typeAt (some (.named name)) place = some (.named name) := if_neg root
    have object : g.objectAt? (g.typeAt (some (.named name)) place) = some t := by
      rw [stands]
      exact known
    rw [fields, List.map_map]
    refine fillWith_restored_ends object keeps fun f hf => ?_
    have back : g.PutsBack (some (.named name)) t f :=
      ⟨known, (ObjectType.mem_restored.mp hf).1, (ObjectType.mem_restored.mp hf).2⟩
    rw [back.fieldType distinct]
    rcases default_ : f.annotations.default? with - | d
    · simp only [fieldPlaceholderIn, default_]
      refine ih _ (length_erase_lt mem) (closed.erase name) f.type ?_ rfl
      intro type place' t deep
      exact across type place' t (Nat.le_of_lt (Nat.lt_of_lt_of_le (place.depth_lt_entry _) deep))
    · simp only [fieldPlaceholderIn, default_]
      exact fillWith_mapFree_ends (free.of_putsBack back default_)

/-- Completing what a missing field gets ends, whatever the way to fill fields, if it does
where the root type is taken up again inside. -/
theorem fieldPlaceholder_ends (distinct : g.HasDistinctFields) (free : g.HasMapFreeDefaults)
    {t : ObjectType} {f : Field} (back : g.PutsBack type t f)
    (across : ∀ type place' t, place.depth ≤ place'.depth → place'.depth = rootDepth →
      Ends (g.fillWith filler type place' t)) :
    Ends (g.fillWith filler (g.fieldType type (.text f.name)) place
      (g.fieldPlaceholder f).value) := by
  rw [back.fieldType distinct]
  rcases default_ : f.annotations.default? with - | d
  · simp only [fieldPlaceholder, default_]
    exact placeholderIn_ends distinct free g.typeNames f.type across
  · simp only [fieldPlaceholder, default_]
    exact fillWith_mapFree_ends (free.of_putsBack back default_)

/-! ### Three fillings inside each other -/

theorem isDownward_counts (g : Graph) : g.IsDownward g.Counts where
  item counts index := counts_item counts.deep index
  entry counts k := counts_entry counts.deep k

theorem isDownward_deep (g : Graph) : g.IsDownward fun _ place => rootDepth ≤ place.depth where
  item {_ place} deep index := Nat.le_of_lt (Nat.lt_of_le_of_lt deep (place.depth_lt_item index))
  entry {_ place} deep k := Nat.le_of_lt (Nat.lt_of_le_of_lt deep (place.depth_lt_entry k))

theorem isDownward_all (g : Graph) : g.IsDownward fun _ _ => True where
  item _ _ := trivial
  entry _ _ := trivial

/-- Where the declared type counts, nothing is filled inside a filling. -/
theorem fill_ends_of_counts (distinct : g.HasDistinctFields) (free : g.HasMapFreeDefaults)
    (depth : Nat) (counts : g.Counts type place) (t : Tree) :
    Ends (g.fill (depth + 1) type place t) := by
  refine fillWith_ends (isDownward_counts g) ?_ t type place counts
  intro type place t f counts back
  rw [counts.stands] at back
  refine fieldPlaceholder_ends distinct free back fun _ place' _ deep root => ?_
  have lt : rootDepth < place'.depth :=
    Nat.lt_of_lt_of_le (Nat.lt_of_le_of_lt counts.deep (place.depth_lt_entry _)) deep
  exact absurd root (Nat.ne_of_gt lt)

/-- From the root on, at whatever type, one filling may stand inside another one. -/
theorem fill_ends_of_deep (distinct : g.HasDistinctFields) (free : g.HasMapFreeDefaults)
    (depth : Nat) (deep : rootDepth ≤ place.depth) (type : Option TypeRef) (t : Tree) :
    Ends (g.fill (depth + 2) type place t) := by
  refine fillWith_ends (isDownward_deep g) (fun type place t f deep _ => ?_) t type place deep
  exact fill_ends_of_counts distinct free depth (counts_entry deep _) (g.fieldPlaceholder f).value

/-- Completing any tree ends, since three fillings inside one another are the most that
there are. -/
theorem fill_ends (distinct : g.HasDistinctFields) (free : g.HasMapFreeDefaults) (depth : Nat)
    (type : Option TypeRef) (place : ElementId) (t : Tree) :
    Ends (g.fill (depth + 3) type place t) := by
  refine fillWith_ends (isDownward_all g) (fun type place t f _ back => ?_) t type place trivial
  have across (type : Option TypeRef) (place' : ElementId) (t : Tree)
      (root : place'.depth = rootDepth) : Ends (g.fill (depth + 2) type place' t) :=
    fill_ends_of_deep distinct free depth (Nat.le_of_eq root.symm) type t
  -- what fills a field of the root stands below it, and other fillings may reach across
  by_cases root : place.depth = rootDepth
  · have counts : g.Counts (g.fieldType type (.text f.name)) (place.entry (.text f.name)) :=
      counts_entry (Nat.le_of_eq root.symm) _
    exact fill_ends_of_counts distinct free (depth + 1) counts (g.fieldPlaceholder f).value
  · rw [show g.typeAt type place = type from if_neg root] at back
    exact fieldPlaceholder_ends distinct free back fun type place' t _ => across type place' t

/-! ### Whole definitions -/

/-- Where a schema has no fields there is nothing to fill. -/
theorem fill_ends_of_no_fields (none_ : g.fieldNames = []) (depth : Nat) (type : Option TypeRef)
    (place : ElementId) (t : Tree) : Ends (g.fill depth type place t) := by
  refine fillWith_ends (isDownward_all g) (fun type place t f _ back => ?_) t type place trivial
  have there : (t.name, f.name) ∈ g.fieldNames :=
    List.mem_flatMap.mpr ⟨t, mem_types_of_objectAt? back.object, List.mem_map_of_mem back.mem⟩
  rw [none_] at there
  cases there

theorem complete_ends_of_free (distinct : g.HasDistinctFields) (free : g.HasMapFreeDefaults)
    (place : ElementId) (t : Tree) : Ends (g.complete place t) := by
  have fills : Ends (g.fill g.nesting (some g.rootRef) place t) := by
    rcases fields : g.fieldNames with - | ⟨name, rest⟩
    · exact fill_ends_of_no_fields fields g.nesting _ place t
    · rw [nesting, fields]
      exact fill_ends distinct free rest.length _ place t
  rw [complete]
  refine fills.bind fun u => ?_
  split
  · exact ends_ok _
  · exact ends_ok _

/-- **Placeholders are complete, so completing ends.**  Below the root of a definition
the placeholder of a type is completed, at that type, to itself, and nothing is filled
in it: this is so with any bound on fillings, even with none allowed.  And every tree
is completed anywhere with at most three fillings inside each other, to the same
whatever larger bound there is, so that the completed form exists; cycles in the
schema make no difference.  In every schema that was built the fields of a type have
different names (`Draft.distinct_of_build`). -/
theorem complete_ends (distinct : g.HasDistinctFields) (flat : g.HasFlatDefaults) :
    (∀ r place depth, rootDepth < place.depth →
      g.fill depth (some r) place (g.placeholder r).value = .ok (g.placeholder r).value) ∧
    ∀ place t, (∃ u, ∀ depth, 3 ≤ depth → g.fill depth (some g.rootRef) place t = .ok u) ∧
      ∃ c, g.complete place t = .ok c := by
  have free : g.HasMapFreeDefaults := flat.hasMapFreeDefaults
  refine ⟨fun r place depth deep => ?_, fun place t => ⟨?_, ?_⟩⟩
  · exact fillWith_placeholderIn distinct flat g.typeNames r (counts_of_lt deep)
  · obtain ⟨u, filled⟩ := fill_ends distinct free 0 (some g.rootRef) place t
    refine ⟨u, fun depth le => ?_⟩
    obtain ⟨_, there, rfl⟩ := fill_grows le (some g.rootRef) place t u filled
    exact there
  · exact complete_ends_of_free distinct free place t

theorem folderSchema_hasDistinctFields : folderSchema.HasDistinctFields := by
  show ∀ t ∈ folderSchema.root :: folderSchema.others, (t.fields.map (·.name)).Nodup
  decide

theorem folderSchema_hasFlatDefaults : folderSchema.HasFlatDefaults := by
  have falses : ∀ t ∈ folderSchema.root :: folderSchema.others, ∀ f ∈ t.fields,
      f.annotations.default?.all (fun d => d.key? = some (.bool false)) = true := by decide
  intro t ht f hf d default_
  have isFalse := falses t ht f hf
  rw [default_, Option.all_some, decide_eq_true_iff] at isFalse
  refine Tree.isFlat_leaf (by rw [isFalse]; rfl) ?_
  rintro rfl
  cases isFalse

/-- A folder lacks its parent, which is a folder, and is completed nevertheless. -/
theorem complete_folderSchema :
    folderSchema.HasDistinctFields ∧ folderSchema.HasFlatDefaults ∧
    (∀ place depth, rootDepth < place.depth →
      folderSchema.fill depth (some (.named "folder")) place
          (folderSchema.placeholder (.named "folder")).value
        = .ok (folderSchema.placeholder (.named "folder")).value) ∧
    ∃ c, folderSchema.complete (.ofInstance "netsuite" "workbook" "x1") (.map []) = .ok c := by
  obtain ⟨placeholders, trees⟩ :=
    complete_ends folderSchema_hasDistinctFields folderSchema_hasFlatDefaults
  exact ⟨folderSchema_hasDistinctFields, folderSchema_hasFlatDefaults,
    placeholders (.named "folder"), (trees _ (.map [])).2⟩

end Graph

end DefinitionTree
