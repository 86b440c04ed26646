/-
DefinitionTree/Proofs/Definition/Rerun.lean

Running the hook on elements that it has fetched already.

The hook puts the elements in a definite order: what belongs to no kind, and then
for each kind its types and its instances.  From then on the order stays, and so
do the types, and instances are fetched each by itself.  So a second run changes
nothing just if all instances are settled after the first one.

Main definitions and statements:

* `Hooks.arranged`, `Hooks.exists_arranged`: the order of elements after a run;
* `Hooks.onFetch_arranged`: what another run does to elements in that order;
* `Hooks.isSettled_of_isPlain`: definitions that leave all instances settled;
* `Hooks.onFetch_onFetch`: when a second run changes nothing.
-/
import DefinitionTree.Proofs.Definition.Reading
import DefinitionTree.Proofs.Definition.Settled
import DefinitionTree.Proofs.Xml.Codec

namespace DefinitionTree.Hooks

variable {h : Hooks} {kind : Kind} {lookup : Lookup}

/-! ### The order of elements -/

variable {es fs : List Element}

/-- The types of a kind as elements. -/
def typesOf (kind : Kind) : List Element := kind.schema.types.map .type

theorem others_nil (kind : Kind) : others kind [] = [] := rfl

@[simp] theorem others_append (kind : Kind) (es fs : List Element) :
    others kind (es ++ fs) = others kind es ++ others kind fs := List.filter_append ..

@[simp] theorem instances_append (kind : Kind) (es fs : List Element) :
    instances kind (es ++ fs) = instances kind es ++ instances kind fs := by
  simp only [instances, List.filter_append, List.filterMap_append]

/-- The names of types say which kind they belong to. -/
theorem isTypeOf_types (kind kind' : Kind) :
    ∀ t ∈ kind'.schema.types, isTypeOf kind (.type t) = decide (kind = kind') := by
  cases kind <;> cases kind' <;> decide

theorem others_types_self (kind : Kind) : others kind (typesOf kind) = [] := by
  refine List.filter_eq_nil_iff.mpr fun e mem => ?_
  obtain ⟨t, there, rfl⟩ := List.mem_map.mp mem
  simp [isTypeOf_types kind kind t there]

theorem others_types {kind kind' : Kind} (ne : kind ≠ kind') :
    others kind (typesOf kind') = typesOf kind' := by
  refine List.filter_eq_self.mpr fun e mem => ?_
  obtain ⟨t, there, rfl⟩ := List.mem_map.mp mem
  simp [isTypeOf_types kind kind' t there, ne, Element.isInstanceOf]

/-- Where nothing is an instance of the kind there are no instances of it. -/
theorem instances_eq_nil (none : ∀ e ∈ es, e.isInstanceOf kind.name = false) :
    instances kind es = [] := by
  have filtered : es.filter (Element.isInstanceOf kind.name) = [] :=
    List.filter_eq_nil_iff.mpr fun e mem => by simp [none e mem]
  rw [instances, filtered]
  rfl

theorem instances_types (kind kind' : Kind) : instances kind (typesOf kind') = [] := by
  refine instances_eq_nil fun e mem => ?_
  obtain ⟨t, -, rfl⟩ := List.mem_map.mp mem
  rfl

theorem name_injective {kind kind' : Kind} (same : kind.name = kind'.name) : kind = kind' := by
  have found := Kind.ofName?_name kind
  rw [same, Kind.ofName?_name] at found
  exact (Option.some.inj found).symm

/-- All of these are instances of the kind. -/
def AllOf (kind : Kind) (is : List Instance) : Prop := ∀ i ∈ is, i.typeName = kind.name

variable {is js : List Instance}

theorem isInstanceOf_of_allOf (all : AllOf kind is) (kind' : Kind) :
    ∀ i ∈ is, (Element.instance i).isInstanceOf kind'.name = decide (kind' = kind) := by
  intro i mem
  rw [Element.isInstanceOf, all i mem]
  refine decide_eq_decide.mpr ⟨fun same => (name_injective same).symm, fun same => ?_⟩
  rw [same]

theorem others_instances_self (all : AllOf kind is) : others kind (is.map .instance) = [] := by
  refine List.filter_eq_nil_iff.mpr fun e mem => ?_
  obtain ⟨i, there, rfl⟩ := List.mem_map.mp mem
  simp [isInstanceOf_of_allOf all kind i there]

theorem others_instances {kind' : Kind} (all : AllOf kind is) (ne : kind' ≠ kind) :
    others kind' (is.map .instance) = is.map .instance := by
  refine List.filter_eq_self.mpr fun e mem => ?_
  obtain ⟨i, there, rfl⟩ := List.mem_map.mp mem
  simp [isInstanceOf_of_allOf all kind' i there, ne, isTypeOf]

theorem instances_instances_self (all : AllOf kind is) :
    instances kind (is.map .instance) = is := by
  have kept : (is.map .instance).filter (Element.isInstanceOf kind.name) = is.map .instance := by
    refine List.filter_eq_self.mpr fun e mem => ?_
    obtain ⟨i, there, rfl⟩ := List.mem_map.mp mem
    simp [isInstanceOf_of_allOf all kind i there]
  rw [instances, kept, List.filterMap_map]
  exact List.filterMap_some

theorem instances_instances {kind' : Kind} (all : AllOf kind is) (ne : kind' ≠ kind) :
    instances kind' (is.map .instance) = [] := by
  refine instances_eq_nil fun e mem => ?_
  obtain ⟨i, there, rfl⟩ := List.mem_map.mp mem
  simp [isInstanceOf_of_allOf all kind' i there, ne]

/-- Where nothing is left out there is no instance. -/
theorem instances_of_others_eq (same : others kind es = es) : instances kind es = [] := by
  refine instances_eq_nil fun e mem => ?_
  have other := List.filter_eq_self.mp same e mem
  simp only [Bool.and_eq_true, Bool.not_eq_true'] at other
  exact other.2

theorem others_others (kind : Kind) (es : List Element) :
    others kind (others kind es) = others kind es := by
  simp [others]

theorem others_comm (kind kind' : Kind) (es : List Element) :
    others kind (others kind' es) = others kind' (others kind es) := by
  simp only [others, List.filter_filter]
  exact List.filter_congr fun e _ => Bool.and_comm ..

/-- Instances of other kinds stay. -/
theorem instances_others {kind kind' : Kind} (ne : kind ≠ kind') (es : List Element) :
    instances kind (others kind' es) = instances kind es := by
  rw [instances, others, List.filter_filter]
  refine congrArg (List.filterMap Element.instance?) (List.filter_congr fun e _ => ?_)
  rcases e with text | t | i
  · rfl
  · rfl
  · have other : i.typeName = kind.name → i.typeName ≠ kind'.name :=
      fun here there => ne (name_injective (here.symm.trans there))
    simp only [Element.isInstanceOf, isTypeOf]
    by_cases here : i.typeName = kind.name
    · simp [here, here ▸ other here]
    · simp [here]

/-- The instances of a kind are. -/
theorem allOf_instances (kind : Kind) (es : List Element) : AllOf kind (instances kind es) := by
  intro i mem
  obtain ⟨e, mem, eq⟩ := List.mem_filterMap.mp mem
  have here := (List.mem_filter.mp mem).2
  rcases e with text | t | j
  · cases eq
  · cases eq
  · cases eq
    simpa [Element.isInstanceOf] using here

/-! ### The hook -/

/-- A fetch of one kind puts its types and its instances behind everything
else. -/
theorem fetchKind_eq_ok_iff : (h.fetchKind es kind).outcome = .ok fs ↔ ∃ is,
    List.Forall₂ (fun i j => (h.fetched kind ⟨others kind es, h.store⟩ i).outcome = .ok j)
      (instances kind es) is ∧ fs = others kind es ++ typesOf kind ++ is.map .instance := by
  rw [fetchKind, Journal.outcome_bind]
  simp only [← Journal.outcome_mapM_eq_ok_iff]
  rcases ((instances kind es).mapM (h.fetched kind ⟨others kind es, h.store⟩)).outcome with e | is
  · exact iff_of_false (by rintro ⟨⟩) (by rintro ⟨is, ⟨⟩, -⟩)
  · constructor
    · rintro ⟨⟩
      exact ⟨is, rfl, rfl⟩
    · rintro ⟨is', ⟨⟩, rfl⟩
      rfl

/-- The hook fetches one kind after the other. -/
theorem onFetch_eq_ok_iff :
    ((h.onFetch es).2.outcome = .ok () ∧ (h.onFetch es).1 = fs) ↔ ∃ gs,
      (h.fetchKind es .workbook).outcome = .ok gs ∧ (h.fetchKind gs .dataset).outcome = .ok fs := by
  simp only [onFetch, Kind.all, fetchKinds]
  rcases (h.fetchKind es .workbook).outcome with e | gs
  · exact iff_of_false (by rintro ⟨⟨⟩, -⟩) (by rintro ⟨gs, ⟨⟩, -⟩)
  simp only [Except.ok.injEq, exists_eq_left']
  rcases (h.fetchKind gs .dataset).outcome with e | gs'
  · exact iff_of_false (by rintro ⟨⟨⟩, -⟩) (by rintro ⟨⟩)
  · constructor
    · rintro ⟨-, rfl⟩
      rfl
    · rintro ⟨⟩
      exact ⟨rfl, rfl⟩

/-- Elements in the order in which the hook puts them: what belongs to no kind, and
then the types and instances of one kind and of the other. -/
def arranged (base : List Element) (kind kind' : Kind) (is js : List Instance) : List Element :=
  base ++ typesOf kind ++ is.map .instance ++ typesOf kind' ++ js.map .instance

variable {base : List Element}

/-- What a fetch of either kind finds in them. -/
theorem parts_arranged {kind kind' : Kind} (apart : kind ≠ kind')
    (none : ∀ kind, others kind base = base) (all : AllOf kind is) (all' : AllOf kind' js) :
    others kind (arranged base kind kind' is js) = base ++ typesOf kind' ++ js.map .instance
      ∧ others kind' (arranged base kind kind' is js) = base ++ typesOf kind ++ is.map .instance
      ∧ instances kind (arranged base kind kind' is js) = is
      ∧ instances kind' (arranged base kind kind' is js) = js := by
  simp only [arranged, others_append, instances_append, none, instances_of_others_eq (none _),
    others_types_self, others_types apart, others_types apart.symm, instances_types,
    others_instances_self all, others_instances_self all', others_instances all apart.symm,
    others_instances all' apart, instances_instances_self all, instances_instances_self all',
    instances_instances all apart.symm, instances_instances all' apart, List.append_nil,
    List.nil_append, and_self]

/-- The instances can be told from the elements. -/
theorem arranged_inj {kind kind' : Kind} {is' js' : List Instance} (length : is.length = is'.length)
    (same : arranged base kind kind' is js = arranged base kind kind' is' js') :
    is = is' ∧ js = js' := by
  have injective : Function.Injective Element.instance := by
    intro i j same
    cases same
    rfl
  obtain ⟨front, back⟩ := List.append_inj same (by simp [length])
  obtain ⟨front, -⟩ := List.append_inj front (by simp [length])
  exact ⟨List.map_injective_iff.mpr injective (List.append_cancel_left front),
    List.map_injective_iff.mpr injective back⟩

/-- The instances of a kind are still those of the kind after a fetch. -/
theorem allOf_fetched (all : AllOf kind is)
    (fetched : List.Forall₂ (fun i j => (h.fetched kind lookup i).outcome = .ok j) is js) :
    AllOf kind js := by
  intro j mem
  obtain ⟨i, there, done⟩ := exists_of_forall₂ fetched mem
  exact (typeName_of_fetched done).trans (all i there)

/-- Fetching one kind does not touch the instances of another. -/
theorem instances_fetched {kind' : Kind} (apart : kind' ≠ kind) (all : AllOf kind is)
    (es : List Element) :
    instances kind' (others kind es ++ typesOf kind ++ is.map .instance) = instances kind' es := by
  simp only [instances_append, instances_types, instances_instances all apart,
    instances_others apart, List.append_nil]

/-- Each of these was fetched from one of the elements. -/
def AreFetched (h : Hooks) (kind : Kind) (es : List Element) (js : List Instance) : Prop :=
  ∀ j ∈ js, ∃ lookup, ∃ i ∈ instances kind es, (h.fetched kind lookup i).outcome = .ok j

theorem AreFetched.allOf (fetched : h.AreFetched kind es js) : AllOf kind js := by
  intro j mem
  obtain ⟨lookup, i, there, done⟩ := fetched j mem
  exact (typeName_of_fetched done).trans (allOf_instances kind es i there)

theorem areFetched_of_forall₂ (fetched : List.Forall₂
    (fun i j => (h.fetched kind lookup i).outcome = .ok j) (instances kind es) js) :
    h.AreFetched kind es js :=
  fun _ mem => ⟨lookup, exists_of_forall₂ fetched mem⟩

/-- After the hook the elements are in that order. -/
theorem exists_arranged (done : (h.onFetch es).2.outcome = .ok ()) : ∃ base ws ds,
    (∀ kind, others kind base = base) ∧ h.AreFetched .workbook es ws
      ∧ h.AreFetched .dataset es ds
      ∧ (h.onFetch es).1 = arranged base .workbook .dataset ws ds := by
  obtain ⟨gs, first, second⟩ := onFetch_eq_ok_iff.mp ⟨done, rfl⟩
  obtain ⟨ws, workbooks, rfl⟩ := fetchKind_eq_ok_iff.mp first
  obtain ⟨ds, datasets, eq⟩ := fetchKind_eq_ok_iff.mp second
  have workbooks := areFetched_of_forall₂ workbooks
  have apart : Kind.dataset ≠ .workbook := by decide
  -- fetching the workbooks does not touch the datasets
  rw [instances_fetched apart workbooks.allOf] at datasets
  refine ⟨others .dataset (others .workbook es), ws, ds, ?_, workbooks,
    areFetched_of_forall₂ datasets, ?_⟩
  · intro kind
    cases kind
    · rw [others_comm, others_others]
    · rw [others_others]
  · rw [eq, others_append, others_append, others_types apart,
      others_instances workbooks.allOf apart, arranged]

variable {ws ds : List Instance}

/-- Running the hook again changes nothing but the instances. -/
theorem onFetch_arranged (none : ∀ kind, others kind base = base) (workbooks : AllOf .workbook ws)
    (datasets : AllOf .dataset ds) :
    ((h.onFetch (arranged base .workbook .dataset ws ds)).2.outcome = .ok ()
      ∧ (h.onFetch (arranged base .workbook .dataset ws ds)).1 = fs) ↔ ∃ ws' ds',
      List.Forall₂ (fun i j => (h.fetched .workbook
        ⟨base ++ typesOf .dataset ++ ds.map .instance, h.store⟩ i).outcome = .ok j) ws ws' ∧
      List.Forall₂ (fun i j => (h.fetched .dataset
        ⟨base ++ typesOf .workbook ++ ws'.map .instance, h.store⟩ i).outcome = .ok j) ds ds' ∧
      fs = arranged base .workbook .dataset ws' ds' := by
  have apart : Kind.workbook ≠ .dataset := by decide
  obtain ⟨othersW, -, instancesW, -⟩ := parts_arranged apart none workbooks datasets
  rw [onFetch_eq_ok_iff]
  simp only [fetchKind_eq_ok_iff, othersW, instancesW]
  constructor
  · rintro ⟨gs, ⟨ws', first, rfl⟩, ds', second, rfl⟩
    -- in between the workbooks stand behind the datasets
    obtain ⟨othersD, -, instancesD, -⟩ :=
      parts_arranged apart.symm none datasets (allOf_fetched workbooks first)
    rw [arranged] at othersD instancesD
    rw [othersD, instancesD] at second
    rw [othersD]
    exact ⟨ws', ds', first, second, rfl⟩
  · rintro ⟨ws', ds', first, second, rfl⟩
    obtain ⟨othersD, -, instancesD, -⟩ :=
      parts_arranged apart.symm none datasets (allOf_fetched workbooks first)
    rw [arranged] at othersD instancesD
    refine ⟨_, ⟨ws', first, rfl⟩, ds', ?_, ?_⟩
    · rwa [othersD, instancesD]
    · rw [othersD, arranged]

/-! ### Datasets that hold nothing but a definition -/

/-- A dataset with a value. -/
def datasetOf (value : Entries) : Instance := { name := "d", typeName := "dataset", value }

theorem allOf_datasetOf (value : Entries) : AllOf .dataset [datasetOf value] :=
  List.forall_mem_singleton.mpr rfl

/-- A dataset that holds nothing but a definition is fetched as the entry in it. -/
theorem fetched_definition {s name v : String}
    (read : Xml.definition s = .ok [(.text name, .text v)])
    (other : name ∉ ["name", "_T_", "@_type"])
    (unlocalized : Wire.localized? "custcollectiontranslations" (.text v) = none)
    (lookup : Lookup) :
    (fetched {} .dataset lookup (datasetOf [(definitionKey, .text s)])).outcome
      = .ok (datasetOf [(.text name, .text v)]) := by
  have unresolved := @Normalizer.isUnresolved_of_localized?_eq_none
    ⟨Kind.dataset.schema, some lookup, {}⟩ v unlocalized
  exact outcome_fetched_of_ok
    (outcome_fetchInstance_single rfl read other (Normalizer.gives_text unresolved) rfl)

/-- Datasets alone are fetched each by itself. -/
theorem onFetch_datasets (all : AllOf .dataset is) (fetched : ∀ lookup, List.Forall₂
    (fun i j => (h.fetched .dataset lookup i).outcome = .ok j) is js) :
    (h.onFetch (is.map .instance)).2.outcome = .ok ()
      ∧ (h.onFetch (is.map .instance)).1 = arranged [] .workbook .dataset [] js := by
  have apart : Kind.workbook ≠ .dataset := by decide
  refine onFetch_eq_ok_iff.mpr ⟨_, fetchKind_eq_ok_iff.mpr ⟨[], ?_, rfl⟩,
    fetchKind_eq_ok_iff.mpr ⟨js, ?_, ?_⟩⟩
  · rw [instances_instances all apart]
    exact .nil
  · simp only [instances_append, others_instances all apart, instances_instances_self all,
      instances_types, List.append_nil, List.map_nil]
    exact fetched _
  · simp only [others_append, others_instances all apart, others_instances_self all,
      others_types apart.symm, List.nil_append, List.map_nil, arranged, List.append_nil]

/-! ### Running the hook twice -/

/-- Where no definition leaves a text under the key of definitions, all instances
are settled after a first run. -/
theorem isSettled_of_isPlain (done : (h.onFetch es).2.outcome = .ok ())
    (plain : ∀ kind, ∀ i ∈ instances kind es, h.IsPlain kind i) :
    ∀ kind, ∀ i ∈ instances kind (h.onFetch es).1, ∀ lookup, h.IsSettled kind lookup i := by
  obtain ⟨base, ws, ds, none, fetchedW, fetchedD, eq⟩ := exists_arranged done
  obtain ⟨-, -, instancesW, instancesD⟩ :=
    parts_arranged (by decide) none fetchedW.allOf fetchedD.allOf
  have settled {kind : Kind} {js : List Instance} (fetched : h.AreFetched kind es js) :
      ∀ j ∈ js, ∀ lookup, h.IsSettled kind lookup j := by
    intro j mem lookup
    obtain ⟨l, i, there, done⟩ := fetched j mem
    exact isSettled_of_fetched (plain kind i there) done lookup
  rw [eq]
  intro kind
  cases kind
  · rw [instancesW]
    exact settled fetchedW
  · rw [instancesD]
    exact settled fetchedD

/-- **When a second run changes nothing.**  Where a first run of the hook has come
to an end, another one comes to an end and leaves the elements as they are, their
order included, just if all instances of both kinds are settled. -/
theorem onFetch_onFetch (done : (h.onFetch es).2.outcome = .ok ()) :
    ((h.onFetch (h.onFetch es).1).2.outcome = .ok ()
        ∧ (h.onFetch (h.onFetch es).1).1 = (h.onFetch es).1) ↔
      ∀ kind, ∀ i ∈ instances kind (h.onFetch es).1,
        h.IsSettled kind ⟨others kind (h.onFetch es).1, h.store⟩ i := by
  obtain ⟨base, ws, ds, none, fetchedW, fetchedD, eq⟩ := exists_arranged done
  have workbooks := fetchedW.allOf
  have datasets := fetchedD.allOf
  have apart : Kind.workbook ≠ .dataset := by decide
  obtain ⟨othersW, othersD, instancesW, instancesD⟩ :=
    parts_arranged apart none workbooks datasets
  rw [eq, onFetch_arranged none workbooks datasets]
  constructor
  · rintro ⟨ws', ds', first, second, same⟩
    -- nothing changed, so each instance was fetched as itself
    obtain ⟨rfl, rfl⟩ := arranged_inj first.length_eq same
    intro kind i mem
    cases kind
    · rw [instancesW] at mem
      rw [othersW]
      exact fetched_eq_self_iff.mp (List.forall₂_same.mp first i mem)
    · rw [instancesD] at mem
      rw [othersD]
      exact fetched_eq_self_iff.mp (List.forall₂_same.mp second i mem)
  · intro settled
    refine ⟨ws, ds, List.forall₂_same.mpr fun i mem => ?_, List.forall₂_same.mpr fun i mem => ?_, rfl⟩
    · have here := settled .workbook i (by rwa [instancesW])
      rw [othersW] at here
      exact fetched_eq_self_iff.mpr here
    · have here := settled .dataset i (by rwa [instancesD])
      rw [othersD] at here
      exact fetched_eq_self_iff.mpr here

/-- A definition without another one in it. -/
def innerDefinition : String := "<root><a>b</a></root>"

theorem definition_innerDefinition :
    Xml.definition innerDefinition = .ok [(.text "a", .text "b")] :=
  @Xml.definition_single "a" (.text "b") (by decide) (.text (by decide) (by decide) rfl)

theorem fetched_innerDefinition (lookup : Lookup) :
    (fetched {} .dataset lookup (datasetOf [(definitionKey, .text innerDefinition)])).outcome
      = .ok (datasetOf [(.text "a", .text "b")]) :=
  fetched_definition definition_innerDefinition (by decide) (by decide) lookup

theorem onFetch_innerDefinition :
    let es := [.instance (datasetOf [(definitionKey, .text innerDefinition)])]
    (onFetch {} es).2.outcome = .ok ()
      ∧ (onFetch {} (onFetch {} es).1).2.outcome = .ok ()
      ∧ (onFetch {} (onFetch {} es).1).1 = (onFetch {} es).1 := by
  obtain ⟨done, first⟩ := onFetch_datasets (allOf_datasetOf [(definitionKey, .text innerDefinition)])
    fun lookup => .cons (fetched_innerDefinition lookup) .nil
  refine ⟨done, (onFetch_onFetch done).mpr ?_⟩
  have apart : Kind.workbook ≠ .dataset := by decide
  obtain ⟨-, -, workbooks, datasets⟩ := parts_arranged apart others_nil
    (List.forall_mem_nil _) (allOf_datasetOf [(.text "a", .text "b")])
  rw [first]
  intro kind i mem
  cases kind
  · rw [workbooks] at mem
    cases mem
  · rw [datasets] at mem
    rw [List.mem_singleton.mp mem]
    exact .parsed rfl

/-- A definition whose text is that of a definition again. -/
def nestedDefinition : String :=
  "<root><definition>&lt;root&gt;&lt;a&gt;b&lt;/a&gt;&lt;/root&gt;</definition></root>"

theorem fetched_nestedDefinition (lookup : Lookup) :
    (fetched {} .dataset lookup (datasetOf [(definitionKey, .text nestedDefinition)])).outcome
      = .ok (datasetOf [(definitionKey, .text innerDefinition)]) := by
  have read : Xml.definition nestedDefinition = .ok [(definitionKey, .text innerDefinition)] :=
    @Xml.definition_single "definition" (.text innerDefinition) (by decide)
      (.text (by decide) (by decide) rfl)
  exact fetched_definition read (by decide) (by decide) lookup

/-- The first run takes the outer definition away, and the second run the inner
one. -/
theorem onFetch_nestedDefinition :
    let es := [.instance (datasetOf [(definitionKey, .text nestedDefinition)])]
    (onFetch {} es).2.outcome = .ok () ∧ (onFetch {} (onFetch {} es).1).1 ≠ (onFetch {} es).1 := by
  obtain ⟨done, first⟩ := onFetch_datasets (allOf_datasetOf [(definitionKey, .text nestedDefinition)])
    fun lookup => .cons (fetched_nestedDefinition lookup) .nil
  refine ⟨done, ?_⟩
  rw [List.map_singleton] at first
  have second := (onFetch_arranged (h := {}) others_nil (List.forall_mem_nil _)
    (allOf_datasetOf [(definitionKey, .text innerDefinition)])).mpr
      ⟨[], [datasetOf [(.text "a", .text "b")]], .nil, .cons (fetched_innerDefinition _) .nil, rfl⟩
  rw [first, second.2]
  intro same
  obtain ⟨-, same⟩ := arranged_inj rfl same
  -- the inner definition would be the entry that it holds
  have value := congrArg (List.map Instance.value) same
  simp [datasetOf, definitionKey] at value

end DefinitionTree.Hooks
