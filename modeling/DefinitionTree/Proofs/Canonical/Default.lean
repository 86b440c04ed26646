/-
DefinitionTree/Proofs/Canonical/Default.lean

Defaults that stay.

Of the fields that are put into a mapping most come back as nothing.  Where the
ones that stay are known for each type, a well-typed value settles to itself with
these put in wherever they are missing.  Putting them in a second time changes
nothing.

Main definitions and statements:

* `Graph.withDefaults`: a value with the defaults that it lacks;
* `Graph.HasDefaults`: values that lack none;
* `Graph.withDefaults_withDefaults`: what got them lacks none any more;
* `Normalizer.settle_wellTyped`: what a well-typed value settles to.
-/
import DefinitionTree.Proofs.Canonical.Typed

namespace DefinitionTree

/-- For each type the entries that mappings of the type get where they lack them. -/
abbrev Defaults := Option TypeRef → Entries

/-- The defaults that a mapping of a type lacks. -/
def Defaults.lackedBy (defaults : Defaults) (type : Option TypeRef) (es : Entries) : Entries :=
  (defaults type).filter fun d => !Entries.has d.1 es

namespace Graph

/-! ### Putting defaults in -/

mutual

/-- A value of a type with the defaults that it lacks. -/
def withDefaults (g : Graph) (defaults : Defaults) (type : Option TypeRef) : Tree → Tree
  | .list ts => .list (g.itemsWithDefaults defaults (listedType type) ts)
  | .map es => .map (g.entriesWithDefaults defaults type es ++ defaults.lackedBy type es)
  | t => t

/-- The items of a list with their defaults. -/
def itemsWithDefaults (g : Graph) (defaults : Defaults) (type : Option TypeRef) :
    List Tree → List Tree
  | [] => []
  | t :: rest => g.withDefaults defaults type t :: g.itemsWithDefaults defaults type rest

/-- The values of a mapping with their defaults. -/
def entriesWithDefaults (g : Graph) (defaults : Defaults) (type : Option TypeRef) :
    Entries → Entries
  | [] => []
  | (k, t) :: rest =>
    (k, g.withDefaults defaults (g.fieldType type k) t)
      :: g.entriesWithDefaults defaults type rest

end

variable {g : Graph} {admits : Primitive → Tree → Bool} {defaults : Defaults}
  {type : Option TypeRef}

theorem itemsWithDefaults_eq_map (ts : List Tree) :
    g.itemsWithDefaults defaults type ts = ts.map (g.withDefaults defaults type) := by
  induction ts with
  | nil => rfl
  | cons t ts ih => rw [itemsWithDefaults, ih, List.map_cons]

theorem entriesWithDefaults_eq_map (es : Entries) :
    g.entriesWithDefaults defaults type es
      = es.map fun e => (e.1, g.withDefaults defaults (g.fieldType type e.1) e.2) := by
  induction es with
  | nil => rfl
  | cons e es ih =>
    obtain ⟨k, t⟩ := e
    rw [entriesWithDefaults, ih, List.map_cons]

theorem keysOf_entriesWithDefaults (es : Entries) :
    keysOf (g.entriesWithDefaults defaults type es) = keysOf es := by
  rw [entriesWithDefaults_eq_map, keysOf, List.map_map]
  rfl

theorem withDefaults_leaf {t : Tree} (scalar : t.key?.isSome = true) :
    g.withDefaults defaults type t = t := by
  cases t with
  | list => cases scalar
  | map => cases scalar
  | _ => rfl

/-- Nothing is emptied. -/
theorem isEmpty_withDefaults {t : Tree} (h : g.WellTyped admits type t)
    (null : ∀ p, admits p .null = false) : (g.withDefaults defaults type t).isEmpty = false := by
  cases t with
  | list ts =>
    obtain ⟨ne, -⟩ := h
    simpa [withDefaults, itemsWithDefaults_eq_map, Tree.isEmpty] using ne
  | map es =>
    obtain ⟨shape, -⟩ := h
    have ne := shape.nonempty
    simp only [withDefaults, entriesWithDefaults_eq_map, Tree.isEmpty, List.isEmpty_eq_false_iff]
    simp [ne]
  | null =>
    obtain ⟨p, -, admitted⟩ := (wellTyped_leaf rfl).mp h
    rw [null p] at admitted
    cases admitted
  | _ => rfl

/-! ### Values that lack none -/

mutual

/-- Every mapping in the value has the defaults of its type. -/
def HasDefaults (g : Graph) (defaults : Defaults) (type : Option TypeRef) : Tree → Prop
  | .list ts => g.ItemsHaveDefaults defaults (listedType type) ts
  | .map es => defaults.lackedBy type es = [] ∧ g.EntriesHaveDefaults defaults type es
  | _ => True

/-- Every mapping in the items of the list has the defaults of its type. -/
def ItemsHaveDefaults (g : Graph) (defaults : Defaults) (type : Option TypeRef) :
    List Tree → Prop
  | [] => True
  | t :: rest => g.HasDefaults defaults type t ∧ g.ItemsHaveDefaults defaults type rest

/-- Every mapping in the values of the entries has the defaults of its type. -/
def EntriesHaveDefaults (g : Graph) (defaults : Defaults) (type : Option TypeRef) :
    Entries → Prop
  | [] => True
  | (k, t) :: rest =>
    g.HasDefaults defaults (g.fieldType type k) t ∧ g.EntriesHaveDefaults defaults type rest

end

theorem itemsHaveDefaults_iff {ts : List Tree} :
    g.ItemsHaveDefaults defaults type ts ↔ ∀ t ∈ ts, g.HasDefaults defaults type t := by
  induction ts with
  | nil => simp [ItemsHaveDefaults]
  | cons t ts ih => rw [ItemsHaveDefaults, ih, List.forall_mem_cons]

theorem entriesHaveDefaults_iff {es : Entries} :
    g.EntriesHaveDefaults defaults type es ↔
      ∀ e ∈ es, g.HasDefaults defaults (g.fieldType type e.1) e.2 := by
  induction es with
  | nil => simp [EntriesHaveDefaults]
  | cons e es ih =>
    obtain ⟨k, t⟩ := e
    rw [EntriesHaveDefaults, ih, List.forall_mem_cons]

/-- Where there are no defaults none is lacking. -/
theorem hasDefaults_of_none (none : ∀ type, defaults type = []) (t : Tree) :
    g.HasDefaults defaults type t := by
  induction t using Tree.induct generalizing type with
  | leaf t scalar =>
    cases t with
    | list => cases scalar
    | map => cases scalar
    | _ => trivial
  | list ts ih => exact itemsHaveDefaults_iff.mpr fun t ht => ih t ht
  | map es ih =>
    refine ⟨by rw [Defaults.lackedBy, none, List.filter_nil], ?_⟩
    exact entriesHaveDefaults_iff.mpr fun e he => ih e he

/-- To what lacks none nothing is added. -/
theorem withDefaults_eq_self {t : Tree} (h : g.HasDefaults defaults type t) :
    g.withDefaults defaults type t = t := by
  induction t using Tree.induct generalizing type with
  | leaf t scalar => exact withDefaults_leaf scalar
  | list ts ih =>
    rw [withDefaults, itemsWithDefaults_eq_map]
    refine congrArg Tree.list ((List.map_congr_left fun t ht => ?_).trans (List.map_id _))
    exact ih t ht (itemsHaveDefaults_iff.mp h t ht)
  | map es ih =>
    obtain ⟨none, entries⟩ := h
    rw [withDefaults, none, List.append_nil, entriesWithDefaults_eq_map]
    refine congrArg Tree.map ((List.map_congr_left fun e he => ?_).trans (List.map_id _))
    exact congrArg (Prod.mk e.1) (ih e he (entriesHaveDefaults_iff.mp entries e he))

/-! ### Putting them in twice -/

/-- The defaults of each type are well typed and lack nothing themselves. -/
structure AreProper (g : Graph) (admits : Primitive → Tree → Bool) (defaults : Defaults) :
    Prop where
  texts : ∀ type, ∀ k ∈ keysOf (defaults type), ∃ s, k = .text s
  distinct : ∀ type, (keysOf (defaults type)).Nodup
  typed : ∀ type, ∀ d ∈ defaults type, (g.fieldType type d.1).isSome = true ∧
    g.WellTyped admits (g.fieldType type d.1) d.2
  complete : ∀ type, ∀ d ∈ defaults type,
    g.withDefaults defaults (g.fieldType type d.1) d.2 = d.2
  noVariant : ∀ type, g.keepsTagAt type = true → defaults type = []

theorem mem_of_lackedBy {es : Entries} {d : Key × Tree} (h : d ∈ defaults.lackedBy type es) :
    d ∈ defaults type ∧ Entries.has d.1 es = false := by
  simpa [Defaults.lackedBy] using h

/-- What lacked defaults has different keys with them, too. -/
theorem distinct_withDefaults (proper : g.AreProper admits defaults) {es : Entries}
    (distinct : (keysOf es).Nodup) :
    (keysOf (g.entriesWithDefaults defaults type es ++ defaults.lackedBy type es)).Nodup := by
  rw [keysOf_append, keysOf_entriesWithDefaults, List.nodup_append]
  refine ⟨distinct, (proper.distinct type).sublist (List.filter_sublist.map _), ?_⟩
  rintro k hk _ hd rfl
  obtain ⟨d, mem, rfl⟩ := List.mem_map.mp hd
  obtain ⟨mem, lacks⟩ := mem_of_lackedBy mem
  obtain ⟨s, eq⟩ := proper.texts type d.1 (List.mem_map.mpr ⟨d, mem, rfl⟩)
  rw [eq] at hk lacks
  rw [Entries.has_iff.mpr hk] at lacks
  cases lacks

/-- A well-typed value stays well typed. -/
theorem wellTyped_withDefaults (proper : g.AreProper admits defaults) {t : Tree}
    (h : g.WellTyped admits type t) : g.WellTyped admits type (g.withDefaults defaults type t) := by
  induction t using Tree.induct generalizing type with
  | leaf t scalar => rwa [withDefaults_leaf scalar]
  | list ts ih =>
    obtain ⟨ne, items⟩ := h
    rw [withDefaults, itemsWithDefaults_eq_map]
    refine ⟨by simpa using ne, itemsTyped_iff.mpr ?_⟩
    intro u hu
    obtain ⟨t, ht, rfl⟩ := List.mem_map.mp hu
    exact ih t ht (itemsTyped_iff.mp items t ht)
  | map es ih =>
    obtain ⟨shape, entries⟩ := h
    rw [withDefaults]
    refine ⟨⟨?_, distinct_withDefaults proper shape.distinct, shape.object, ?_⟩, ?_⟩
    · rw [entriesWithDefaults_eq_map]
      simp [shape.nonempty]
    -- a union that keeps its tag has its variant alone, and gets no defaults
    · intro keeps
      obtain ⟨k, inner, rfl⟩ := shape.variant keeps
      rw [Defaults.lackedBy, proper.noVariant type keeps]
      exact ⟨k, _, rfl⟩
    · rw [entriesTyped_iff, entriesWithDefaults_eq_map]
      intro e he
      rcases List.mem_append.mp he with he | he
      · obtain ⟨e, mem, rfl⟩ := List.mem_map.mp he
        obtain ⟨declared, typed⟩ := entriesTyped_iff.mp entries e mem
        exact ⟨declared, ih e mem typed⟩
      · exact proper.typed type e (mem_of_lackedBy he).1

/-- A mapping to which the defaults it lacks have been added lacks none. -/
theorem lackedBy_withDefaults (proper : g.AreProper admits defaults) (es : Entries) :
    defaults.lackedBy type
      (g.entriesWithDefaults defaults type es ++ defaults.lackedBy type es) = [] := by
  refine List.filter_eq_nil_iff.mpr fun d hd => ?_
  obtain ⟨s, eq⟩ := proper.texts type d.1 (List.mem_map.mpr ⟨d, hd, rfl⟩)
  have there : Key.text s ∈
      keysOf (g.entriesWithDefaults defaults type es ++ defaults.lackedBy type es) := by
    rw [keysOf_append, keysOf_entriesWithDefaults, List.mem_append]
    by_cases mem : Key.text s ∈ keysOf es
    · exact .inl mem
    · right
      have lacks : Entries.has d.1 es = false := by
        rwa [eq, Entries.has_eq_false_iff]
      exact List.mem_map.mpr ⟨d, List.mem_filter.mpr ⟨hd, by rw [lacks]; rfl⟩, eq⟩
  rw [eq, Entries.has_iff.mpr there]
  decide

/-- Putting defaults in a second time changes nothing. -/
theorem withDefaults_withDefaults (proper : g.AreProper admits defaults) (t : Tree) :
    g.withDefaults defaults type (g.withDefaults defaults type t)
      = g.withDefaults defaults type t := by
  induction t using Tree.induct generalizing type with
  | leaf t scalar => rw [withDefaults_leaf scalar, withDefaults_leaf scalar]
  | list ts ih =>
    simp only [withDefaults, itemsWithDefaults_eq_map, List.map_map]
    exact congrArg Tree.list (List.map_congr_left fun t ht => ih t ht)
  | map es ih =>
    rw [withDefaults, withDefaults, lackedBy_withDefaults proper, List.append_nil]
    refine congrArg Tree.map ?_
    rw [entriesWithDefaults_eq_map, entriesWithDefaults_eq_map, List.map_append, List.map_map]
    refine congrArg₂ (· ++ ·) (List.map_congr_left fun e he => ?_) ?_
    · exact congrArg (Prod.mk e.1) (ih e he)
    · refine (List.map_congr_left fun d hd => ?_).trans (List.map_id _)
      exact congrArg (Prod.mk d.1) (proper.complete type d (mem_of_lackedBy hd).1)

end Graph

namespace Normalizer

variable {n : Normalizer} {admits : Primitive → Tree → Bool} {defaults : Defaults}
  {restore : Field → Tree}

/-! ### What well-typed values settle to -/

/-- Of the fields that are put in, these defaults stay. -/
def Keeps (n : Normalizer) (restore : Field → Tree) (defaults : Defaults) : Prop :=
  ∀ type es, Wire.typeKey ∉ keysOf es →
    ((n.putBack type es).map fun f => (Key.text f.name, restore f)).filter (fun e => !e.2.isEmpty)
      = defaults.lackedBy type es

theorem settleItems_eq {type read : Option TypeRef} {ts : List Tree}
    (h : ∀ t ∈ ts, ∀ index : Nat, n.settle restore (some (.int index)) read t
      = .ok (n.graph.withDefaults defaults type t)) (index : Nat) :
    n.settleItems restore read index ts
      = (n.graph.itemsWithDefaults defaults type ts).map .ok := by
  induction ts generalizing index with
  | nil => rfl
  | cons t ts ih =>
    obtain ⟨here, there⟩ := List.forall_mem_cons.mp h
    rw [settleItems, here, ih there, Graph.itemsWithDefaults, List.map_cons]

theorem settleEntries_eq {heldAt : Key → Option Key} {type : Option TypeRef} {es : Entries}
    (h : ∀ e ∈ es, n.settle restore (heldAt e.1) (n.graph.fieldType type e.1) e.2
      = .ok (n.graph.withDefaults defaults (n.graph.fieldType type e.1) e.2)) :
    n.settleEntries restore heldAt type es
      = (n.graph.entriesWithDefaults defaults type es).map fun e => (e.1, .ok e.2) := by
  rw [settleEntries_eq_map, Graph.entriesWithDefaults_eq_map, List.map_map]
  exact List.map_congr_left fun e he => congrArg (Prod.mk e.1) (h e he)

/-- Declared keys, and those of fields that are put in, show no tag. -/
theorem exposedKey_notMem (orderly : n.graph.IsOrderly) {type : Option TypeRef} {es : Entries}
    (declared : ∀ e ∈ es, (n.graph.fieldType type e.1).isSome = true) :
    Wire.exposedKey ∉ keysOf es ++ (n.putBack type es).map fun f => Key.text f.name := by
  intro mem
  rcases List.mem_append.mp mem with mem | mem
  · obtain ⟨e, he, eq⟩ := List.mem_map.mp mem
    obtain ⟨o, s, f, object, name, mem, rfl, -⟩ := Graph.exists_field (declared e he)
    exact (orderly.plain o (Graph.mem_types_of_objectAt? object) f mem).2 (name.symm.trans eq)
  · obtain ⟨f, hf, eq⟩ := List.mem_map.mp mem
    obtain ⟨o, back⟩ := putsBack_of_mem hf
    exact (orderly.plain o (Graph.mem_types_of_objectAt? back.object) f back.mem).2 eq

/-- A declared key does not mark a type. -/
theorem typeKey_notMem (orderly : n.graph.IsOrderly) {type : Option TypeRef} {es : Entries}
    (declared : ∀ e ∈ es, (n.graph.fieldType type e.1).isSome = true) :
    Wire.typeKey ∉ keysOf es := by
  intro mem
  obtain ⟨e, he, eq⟩ := List.mem_map.mp mem
  obtain ⟨o, s, f, object, name, mem, rfl, -⟩ := Graph.exists_field (declared e he)
  have plain := (orderly.plain o (Graph.mem_types_of_objectAt? object) f mem).1
  exact Wire.isPlainName_ne_typeKey plain (Key.text.inj (name.symm.trans eq))

/-- A mapping settles to its values and the defaults that it lacks. -/
theorem settle_map_typed (orderly : n.graph.IsOrderly) (agrees : n.Agrees)
    (keeps : n.Keeps restore defaults) {held : Option Key} {type : Option TypeRef} {es : Entries}
    (declared : ∀ e ∈ es, (n.graph.fieldType type e.1).isSome = true)
    (inside : ∀ e ∈ es, n.settle restore (n.heldInside held type e.1)
      (n.graph.fieldType type e.1) e.2
        = .ok (n.graph.withDefaults defaults (n.graph.fieldType type e.1) e.2))
    (some_ : ∀ e ∈ n.graph.entriesWithDefaults defaults type es, e.2.isEmpty = false) :
    n.settle restore held type (.map es) = .ok (n.graph.withDefaults defaults type (.map es)) := by
  let put : Entries := (n.putBack type es).map fun f => (.text f.name, restore f)
  let own : Entries := n.graph.entriesWithDefaults defaults type es
  have outcomes : n.settleEntries restore (n.heldInside held type) type es
        ++ (n.putBack type es).map (fun f => (Key.text f.name, Except.ok (restore f)))
      = (own ++ put).map fun e => (e.1, .ok e.2) := by
    rw [settleEntries_eq inside, List.map_append, List.map_map]
    rfl
  -- a declared field is never called like a shown tag, so nothing is moved to the front
  have inOrder : n.arranged held (own ++ put) = own ++ put := by
    rw [arranged]
    split
    · refine toFront_eq_self ?_
      have keys : keysOf put = (n.putBack type es).map fun f => Key.text f.name := by
        rw [keysOf, List.map_map]
        rfl
      rw [keysOf_append, keys, Graph.keysOf_entriesWithDefaults]
      exact exposedKey_notMem orderly declared
    · rfl
  have all : own.filter (fun e => !e.2.isEmpty) = own :=
    List.filter_eq_self.mpr fun e he => by rw [some_ e he]; rfl
  rw [settle, if_neg (by rw [misreads_eq_false agrees]; decide), outcomes, arranged_map, inOrder,
    collect_ok, List.filter_append, all, keeps type es (typeKey_notMem orderly declared),
    Graph.withDefaults]
  rfl

/-- A well-typed value settles to itself with its defaults. -/
theorem settle_wellTyped (orderly : n.graph.IsOrderly) (agrees : n.Agrees)
    (keeps : n.Keeps restore defaults) (null : ∀ p, admits p .null = false) {t : Tree}
    {held : Option Key} {type read : Option TypeRef} (h : n.graph.WellTyped admits type t)
    (reads : ReadsAs type read) :
    n.settle restore held read t = .ok (n.graph.withDefaults defaults type t) := by
  induction t using Tree.induct generalizing held type read with
  | leaf t scalar =>
    rw [Graph.withDefaults_leaf scalar]
    cases t with
    | list => cases scalar
    | map => cases scalar
    | _ => rfl
  | list ts ih =>
    obtain ⟨ne, items⟩ := h
    have typed := Graph.itemsTyped_iff.mp items
    have some_ : Graph.listedType type ≠ none := by
      intro none
      obtain ⟨t, ht⟩ := List.exists_mem_of_ne_nil ts ne
      have typed := typed t ht
      rw [none] at typed
      exact Graph.not_wellTyped_none t typed
    have inside : ∀ t ∈ ts, ∀ index : Nat,
        n.settle restore (some (.int index)) (Graph.itemType read) t
          = .ok (n.graph.withDefaults defaults (Graph.listedType type) t) :=
      fun t ht _ => ih t ht (typed t ht) (readsAs_item reads rfl some_)
    have full : (n.graph.itemsWithDefaults defaults (Graph.listedType type) ts).filter
        (fun u => !u.isEmpty) = n.graph.itemsWithDefaults defaults (Graph.listedType type) ts := by
      rw [Graph.itemsWithDefaults_eq_map]
      refine List.filter_eq_self.mpr fun u hu => ?_
      obtain ⟨t, ht, rfl⟩ := List.mem_map.mp hu
      rw [Graph.isEmpty_withDefaults (typed t ht) null]
      rfl
    rw [settle, settleItems_eq inside, collectItems_ok, full, Graph.withDefaults]
    rfl
  | map es ih =>
    obtain ⟨shape, entries⟩ := h
    have typed := Graph.entriesTyped_iff.mp entries
    obtain rfl := reads.eq_of_object shape.object
    refine settle_map_typed orderly agrees keeps (fun e he => (typed e he).1)
      (fun e he => ih e he (typed e he).2 (.inl rfl)) ?_
    rw [Graph.entriesWithDefaults_eq_map]
    intro e he
    obtain ⟨e, mem, rfl⟩ := List.mem_map.mp he
    exact Graph.isEmpty_withDefaults (typed e mem).2 null

end Normalizer

end DefinitionTree
