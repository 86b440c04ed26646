/-
DefinitionTree/Proofs/Definition/KeyOrder.lean

The order of entries carries no meaning.

Whether a definition is read or written, encoded or summed up, another order of the
entries in it makes no difference but for the order of the result.  There is one
exception.  A text on the wire that is marked as one may hold a mapping, against all
rules, and then stands for all that this mapping shows, in its order.

Main statements:

* `Summary.entries_follows`: summaries;
* `wireForm_follows`: the wire form of a definition;
* `transforms_reordered`: all of them.
-/
import DefinitionTree.Definition.Deploy
import DefinitionTree.Definition.Summary
import DefinitionTree.Proofs.Canonical.Reordering
import DefinitionTree.Proofs.Schema.Draft
import DefinitionTree.Proofs.Schema.Kind

namespace DefinitionTree

open DefinitionTree.Tree (SameEntry reorderedBy_list_iff reorderedBy_map_iff)

/-! ### Summaries -/

namespace Summary

variable {es gs : Entries} {t u : Tree}

/-- What is found in related values is related. -/
theorem rel_bind {α β : Type} {R : α → α → Prop} {S : β → β → Prop} {x y : Option α}
    {p q : α → Option β} (h : Option.Rel R x y) (next : ∀ a b, R a b → Option.Rel S (p a) (q b)) :
    Option.Rel S (x.bind p) (y.bind q) := by
  cases h with
  | none => exact .none
  | some related => exact next _ _ related

/-- An item and its counterpart have the same script id. -/
theorem scriptId?_permuted (s : Summary) (h : t.Permuted u) :
    Option.Rel Tree.Permuted (s.scriptId? t) (s.scriptId? u) := by
  rw [scriptId?, scriptId?]
  refine rel_bind h.entries? fun es gs same => ?_
  have variants := rel_bind (Entries.Permuted.get? same s.variant) fun t u same => same.entries?
  refine rel_bind variants fun es gs same => ?_
  have id : Option.Rel Tree.Permuted (Entries.field? "scriptId" es)
      (Entries.field? "scriptId" gs) := Entries.Permuted.get? same "scriptId"
  generalize Entries.field? "scriptId" es = x, Entries.field? "scriptId" gs = y at id ⊢
  rcases id with @⟨t, u, same⟩ | -
  · cases t with
    | null =>
      rcases same.eq_or_ref rfl with rfl | ⟨_, _, _, eq, -⟩
      · exact .none
      · cases eq
    | list =>
      obtain ⟨us, rfl, -⟩ := reorderedBy_list_iff.mp same
      exact .some same
    | map =>
      obtain ⟨gs, rfl, -⟩ := reorderedBy_map_iff.mp same
      exact .some same
    | _ =>
      rcases same.eq_or_ref rfl with rfl | ⟨_, _, _, -, rfl⟩ <;> exact .some same
  · exact .none

theorem record?_permuted (s : Summary) (h : t.Permuted u) :
    Option.Rel Tree.Permuted (s.record? t) (s.record? u) := by
  have id := s.scriptId?_permuted h
  rw [record?, record?]
  generalize s.scriptId? t = x, s.scriptId? u = y at id
  cases id with
  | none => exact .none
  | some id => exact .some (reorderedBy_map_iff.mpr ⟨_, rfl, Entries.Permuted.single id _⟩)

theorem items_follows {x y : Option Tree} (h : Option.Rel Tree.Permuted x y) :
    Follows (List.Forall₂ Tree.Permuted) (items x) (items y) := by
  cases h with
  | none => exact follows_ok .nil
  | @some t u same =>
    cases t with
    | list ts =>
      obtain ⟨us, rfl, items⟩ := reorderedBy_list_iff.mp same
      exact follows_ok items
    | map es =>
      obtain ⟨gs, rfl, -⟩ := reorderedBy_map_iff.mp same
      exact follows_ok .nil
    | ref => rintro _ ⟨⟩
    | _ =>
      rcases same.eq_or_ref rfl with rfl | ⟨_, _, _, eq, -⟩
      · intro ts found
        refine ⟨ts, found, List.forall₂_same.mpr fun t _ => .refl _ t⟩
      · cases eq

theorem entry_follows (s : Summary) (h : Entries.Permuted es gs) :
    Follows (SameEntry Entries.HasTextKeys) (s.entry es) (s.entry gs) := by
  refine (items_follows (Entries.Permuted.get? h s.collection)).bind fun ts us same => ?_
  have records := List.rel_filterMap (fun t u same => s.record?_permuted same) same
  have list : (Tree.list (ts.filterMap s.record?)).Permuted (.list (us.filterMap s.record?)) :=
    reorderedBy_list_iff.mpr ⟨_, rfl, records⟩
  exact follows_ok ⟨rfl, reorderedBy_map_iff.mpr ⟨_, rfl, Entries.Permuted.single list _⟩⟩

/-- Summaries of the same value in another order. -/
theorem entries_follows (h : Entries.Permuted es gs) :
    Follows (List.Forall₂ (SameEntry Entries.HasTextKeys)) (entries es) (entries gs) := by
  have each (ss : List Summary) : Follows (List.Forall₂ (SameEntry Entries.HasTextKeys))
      (ss.mapM fun s => s.entry es) (ss.mapM fun s => s.entry gs) := by
    induction ss with
    | nil => exact follows_ok .nil
    | cons s ss ih =>
      rw [List.mapM_cons, List.mapM_cons]
      refine (s.entry_follows h).bind fun e f first => ?_
      exact ih.bind fun es fs others => follows_ok (.cons first others)
  exact each all

end Summary

/-! ### The wire form -/

/-- The wire form of the same definition in another order. -/
theorem wireForm_follows {g : Graph} (distinct : g.HasDistinctFields) (settings : Settings)
    (place : ElementId) {t u : Tree} (h : t.Permuted u) :
    Follows Tree.Permuted (wireForm settings g place t) (wireForm settings g place u) :=
  (g.complete_follows distinct h place).bind fun _ _ same => follows_ok (Wire.encode_permuted same)

/-! ### All of them -/

/-- In a schema that was built no type has two fields of one name. -/
theorem Draft.Drafted.hasDistinctFields {d : Draft} (h : d.Drafted) {root : String} {g : Graph}
    (built : d.build root = .ok g) : g.HasDistinctFields :=
  Draft.distinct_of_build h built

/-- **The order of entries carries no meaning.**  Given a schema whose types have fields
with different names (`Draft.Drafted.hasDistinctFields`) and a tree whose keys are
distinct texts, what the tree is normalized to, its wire form, its encoding and its
summaries stay the same up to reordering, or fail either way, if the tree is reordered.
Only normalizing asks for more: no text may be marked as one and hold a mapping that can
be reordered. -/
theorem transforms_reordered (n : Normalizer) (distinct : n.graph.HasDistinctFields)
    (place : ElementId) {t u : Tree} (texts : t.HasTextKeys) (same : t.Reordered u) :
    (rootDepth ≤ place.depth → t.HasSteadyTexts →
      SameOutcome (Option.Rel Tree.Reordered) (n.normalize place t).outcome
        (n.normalize place u).outcome) ∧
    SameOutcome Tree.Reordered (wireForm n.settings n.graph place t)
      (wireForm n.settings n.graph place u) ∧
    (Wire.encode n.settings.discriminatedKeys t).Reordered
      (Wire.encode n.settings.discriminatedKeys u) ∧
    ∀ es gs, t = .map es → u = .map gs →
      SameOutcome Tree.Reordered (.map <$> Summary.entries es) (.map <$> Summary.entries gs) := by
  have order : t.Permuted u := same.permuted texts
  have back : u.Permuted t := Tree.Permuted.symm order
  refine ⟨fun deep steady => ?_, ?_, (Wire.encode_permuted order).reordered, ?_⟩
  · refine (Normalizer.normalize_permuted deep order steady).mono fun x y related => ?_
    rcases related with related | -
    · exact .some (Tree.Permuted.reordered related)
    · exact .none
  · exact (SameOutcome.of_follows (wireForm_follows distinct n.settings place order)
      (wireForm_follows distinct n.settings place back)).mono fun _ _ related => related.reordered
  · rintro es gs rfl rfl
    have follows {es gs : Entries} (order : (Tree.map es).Permuted (.map gs)) :
        Follows Tree.Permuted (.map <$> Summary.entries es) (.map <$> Summary.entries gs) := by
      obtain ⟨_, ⟨⟩, same⟩ := reorderedBy_map_iff.mp order
      exact (Summary.entries_follows same).map fun vs ws values =>
        reorderedBy_map_iff.mpr ⟨ws, rfl, ws, values, .inl rfl⟩
    exact (SameOutcome.of_follows (follows order) (follows back)).mono
      fun _ _ related => related.reordered

/-- A dataset with its id in front, and behind. -/
theorem transforms_reordered_id :
    let es : Entries := [(.text "id", .int 3), (.text "name", .text "x")]
    let gs : Entries := [(.text "name", .text "x"), (.text "id", .int 3)]
    let t : Tree := .map es
    let u : Tree := .map gs
    let n : Normalizer := ⟨Schema.dataset, none, {}⟩
    let place : ElementId := .ofInstance "netsuite" "dataset" "x1"
    Schema.dataset.HasDistinctFields ∧ t.HasTextKeys ∧ t.Reordered u ∧
    rootDepth ≤ place.depth ∧ t.HasSteadyTexts ∧
    SameOutcome (Option.Rel Tree.Reordered) (n.normalize place t).outcome
      (n.normalize place u).outcome ∧
    SameOutcome Tree.Reordered (wireForm n.settings n.graph place t)
      (wireForm n.settings n.graph place u) ∧
    (Wire.encode n.settings.discriminatedKeys t).Reordered
      (Wire.encode n.settings.discriminatedKeys u) ∧
    SameOutcome Tree.Reordered (.map <$> Summary.entries es) (.map <$> Summary.entries gs) := by
  intro es gs t u n place
  have distinct : Schema.dataset.HasDistinctFields := Schema.dataset_isOrderly.distinct
  have texts : t.HasTextKeys := by
    refine .map ⟨by simp [keysOf, es], by decide⟩ fun e mem => Tree.hasTextKeys_leaf ?_
    rcases List.mem_pair.mp mem with rfl | rfl <;> rfl
  have steady : t.HasSteadyTexts := by
    refine .map rfl fun e mem => Tree.hasSteadyTexts_leaf ?_
    rcases List.mem_pair.mp mem with rfl | rfl <;> rfl
  have same : t.Reordered u :=
    reorderedBy_map_iff.mpr ⟨_, rfl, _, List.forall₂_same.mpr fun _ _ => ⟨rfl, .refl _ _⟩,
      .inr ⟨.swap .., trivial⟩⟩
  have deep : rootDepth ≤ place.depth := by decide
  obtain ⟨normalized, others⟩ := transforms_reordered n distinct place texts same
  refine ⟨distinct, texts, same, deep, steady, normalized deep steady, ?_⟩
  exact others.imp_right fun rest => rest.imp_right fun summed => summed es gs rfl rfl

/-- A dataset whose name is marked as a text and holds a mapping. -/
def namedByMapping (es : Entries) : Tree :=
  .map [(.text "name", .map [(Wire.typeKey, .text "string"), (Wire.textKey, .map es)])]

/-- The dataset of `namedByMapping` comes out with a name that shows the mapping, if the
mapping can be written. -/
theorem outcome_namedByMapping {es : Entries} (writable : (Tree.map es).isWritable = true)
    {place : ElementId} (deep : rootDepth ≤ place.depth) :
    (Normalizer.normalize ⟨Schema.dataset, none, {}⟩ place (namedByMapping es)).outcome
      = .ok (some (.map [(.text "name", .text (Tree.map es).shown)])) := by
  let n : Normalizer := ⟨Schema.dataset, none, {}⟩
  have each : List.Forall₂ (fun e f : Key × Tree => e.1 = f.1 ∧
      n.Gives (n.graph.fieldType (some n.graph.rootRef) e.1) e.2 (.ok f.2))
      [(.text "name", .map [(Wire.typeKey, .text "string"), (Wire.textKey, .map es)])]
      [(.text "name", .text (Tree.map es).shown)] :=
    .cons ⟨rfl, Normalizer.gives_string rfl (Tree.toText_eq_ok writable)⟩ .nil
  exact Normalizer.outcome_normalize (n := n) deep (Normalizer.gives_entries (fun _ => rfl) each)

theorem namedByMapping_permuted {es gs : Entries} (h : Entries.Permuted es gs) :
    (namedByMapping es).Permuted (namedByMapping gs) := by
  have inner : (Tree.map es).Permuted (.map gs) := reorderedBy_map_iff.mpr ⟨gs, rfl, h⟩
  have marked : Entries.Permuted [(Wire.typeKey, .text "string"), (Wire.textKey, .map es)]
      [(Wire.typeKey, .text "string"), (Wire.textKey, .map gs)] :=
    Entries.Permuted.cons (Entries.Permuted.single inner Wire.textKey) (.refl _ (.text "string"))
      (by simp [keysOf, Wire.textKey])
  exact reorderedBy_map_iff.mpr
    ⟨_, rfl, Entries.Permuted.single (reorderedBy_map_iff.mpr ⟨_, rfl, marked⟩) _⟩

theorem hasTextKeys_namedByMapping {es : Entries} (h : (Tree.map es).HasTextKeys) :
    (namedByMapping es).HasTextKeys := by
  refine .map (Entries.hasTextKeys_nil.cons nofun _) (List.forall_mem_singleton.mpr ?_)
  refine .map ((Entries.hasTextKeys_nil.cons nofun _).cons (by simp [keysOf]) _) ?_
  exact List.forall_mem_cons.mpr ⟨Tree.hasTextKeys_leaf rfl, List.forall_mem_singleton.mpr h⟩

/-- A name that shows a mapping shows its entries in their order, so that another order
makes another name. -/
theorem normalize_namedByMapping :
    let t := namedByMapping [(.text "b", .int 1), (.text "a", .int 2)]
    let u := namedByMapping [(.text "a", .int 2), (.text "b", .int 1)]
    let n : Normalizer := ⟨Schema.dataset, none, {}⟩
    let place : ElementId := .ofInstance "netsuite" "dataset" "x1"
    t.HasTextKeys ∧ t.Reordered u ∧ n.graph.HasDistinctFields ∧ n.graph.HasNoDefaults ∧
    rootDepth ≤ place.depth ∧
    ¬SameOutcome (Option.Rel Tree.Reordered) (n.normalize place t).outcome
      (n.normalize place u).outcome := by
  have deep : rootDepth ≤ (ElementId.ofInstance "netsuite" "dataset" "x1").depth := by decide
  have numbers : Entries.HasTextKeys [(.text "b", .int 1), (.text "a", .int 2)] :=
    (Entries.hasTextKeys_nil.cons nofun _).cons (by decide) _
  have order : Entries.Permuted [(.text "b", .int 1), (.text "a", .int 2)]
      [(.text "a", .int 2), (.text "b", .int 1)] :=
    ⟨_, List.forall₂_same.mpr fun _ _ => ⟨rfl, .refl _ _⟩, .inr ⟨.swap .., numbers⟩⟩
  refine ⟨hasTextKeys_namedByMapping (.map numbers fun e mem => Tree.hasTextKeys_leaf ?_),
    (namedByMapping_permuted order).reordered, Schema.dataset_isOrderly.distinct,
    Schema.dataset_hasNoDefaults, deep, ?_⟩
  · rcases List.mem_pair.mp mem with rfl | rfl <;> rfl
  · have one : (Tree.int 1).isWritable = true := Numeral.isWritable_iff.mpr (by decide +kernel)
    have two : (Tree.int 2).isWritable = true := Numeral.isWritable_iff.mpr (by decide +kernel)
    have first : (Tree.map [(.text "b", .int 1), (.text "a", .int 2)]).isWritable = true :=
      Tree.isWritable_map_iff.mpr (by simp [Key.isWritable, one, two])
    have last : (Tree.map [(.text "a", .int 2), (.text "b", .int 1)]).isWritable = true :=
      Tree.isWritable_map_iff.mpr (by simp [Key.isWritable, one, two])
    rw [outcome_namedByMapping first deep, outcome_namedByMapping last deep]
    rintro (@⟨_, _, same⟩ | -)
    obtain ⟨_, ⟨⟩, fs, values, order⟩ := reorderedBy_map_iff.mp same
    obtain rfl : fs = [_] := order.elim id fun order => List.perm_singleton.mp order.1
    rcases values with - | @⟨_, _, _, _, ⟨-, value⟩, -⟩
    exact absurd value.key?_eq (by decide)

end DefinitionTree
