/-
DefinitionTree/Proofs/Canonical/Reordering.lean

The canonical form up to the order of entries.

Each step of normalizing respects reordering: it looks at a mapping for its type
attribute and for its tag, takes the tag out or puts it in front, and leaves the rest
in its order.  One value is read as a whole, the text of a sentinel.  A truth value
does not depend on it unless it is a scalar, but a text does: what is no scalar is
written out there, entry by entry.  So texts have to be steady.  And whether there is a
text at all depends on what a reference resolved to, which is no part of a tree, so
there should be no reference where a truth value is read.

Main definitions and statements:

* `Tree.HasSteadyTexts`: what stands as the text of a text cannot be reordered, and what
  stands as the text of a truth value holds no reference;
* `Normalizer.decodes_permuted`: one step on a reordered value;
* `Normalizer.gives_permuted`: a run on a reordered value;
* `Normalizer.normalize_permuted`: the canonical form of a reordered definition.
-/
import DefinitionTree.Proofs.Canonical.Addition
import DefinitionTree.Proofs.Canonical.Residue
import DefinitionTree.Proofs.Wire.Reordering

namespace DefinitionTree

open DefinitionTree.Tree (reorderedBy_list_iff reorderedBy_map_iff)

/-! ### Texts that are written out -/

/-- What stands as the text of a sentinel of a text is steady, and of a truth value holds
no reference. -/
def Tree.HasSteadyTexts (t : Tree) : Prop :=
  ∀ es, (Tree.map es).IsIn t →
    (Wire.sentinelOf? es = some .string → (Wire.textIn es).IsSteady) ∧
    (Wire.sentinelOf? es = some .boolean → ∀ id target, ¬(Tree.ref id target).IsIn (Wire.textIn es))

/-- What stands as the text of a sentinel is reordered with it. -/
theorem Wire.textIn_permuted {es gs : Entries} (h : Entries.Permuted es gs) :
    (textIn es).Permuted (textIn gs) := by
  have text := Entries.Permuted.get? h "#text"
  rw [textIn, textIn, textKey]
  generalize Entries.get? (.text "#text") es = x, Entries.get? (.text "#text") gs = y at text
  cases text with
  | none => exact .refl _ _
  | some text => exact text

namespace Tree

variable {t u : Tree}

theorem hasSteadyTexts_leaf (scalar : t.key?.isSome = true) : t.HasSteadyTexts := by
  intro es inside
  cases inside with
  | self => cases scalar
  | item => cases scalar
  | entry => cases scalar

theorem HasSteadyTexts.map {es : Entries} (here : Wire.sentinelOf? es = none)
    (inside : ∀ e ∈ es, e.2.HasSteadyTexts) : (Tree.map es).HasSteadyTexts := by
  intro fs there
  cases there with
  | self => simp [here]
  | entry mem there => exact inside _ mem fs there

theorem HasSteadyTexts.of_isIn (h : t.HasSteadyTexts) (inside : u.IsIn t) : u.HasSteadyTexts :=
  fun es there => h es (there.trans inside)

/-- Reordering a tree without references gives a tree without references. -/
theorem not_ref_isIn_permuted (h : t.Permuted u) (none : ∀ id target, ¬(ref id target).IsIn t)
    (id : ElementId) (target : Tree) : ¬(ref id target).IsIn u := by
  intro inside
  obtain ⟨w, there, same⟩ := Permuted.exists_isIn inside h
  have key := same.key?_eq
  cases w with
  | ref id' target' => exact none id' target' there
  | _ => cases key

/-- What is the same up to reordering has the same steady texts. -/
theorem HasSteadyTexts.permuted (h : t.HasSteadyTexts) (same : t.Permuted u) :
    u.HasSteadyTexts := by
  intro gs inside
  obtain ⟨w, there, back⟩ := same.exists_isIn inside
  obtain ⟨es, rfl, entries⟩ := reorderedBy_map_iff.mp (Permuted.symm back)
  obtain ⟨_, ⟨⟩, entries⟩ := reorderedBy_map_iff.mp back
  have text := Wire.textIn_permuted entries
  obtain ⟨steady, unreferring⟩ := h es there
  rw [Wire.sentinelOf?_permuted entries]
  refine ⟨fun string => ?_, fun boolean => not_ref_isIn_permuted text (unreferring boolean)⟩
  rw [← (steady string).eq text]
  exact steady string

/-- Without references, what can be written can be written in another order. -/
theorem isWritable_of_permuted (h : t.Permuted u) (none : ∀ id target, ¬(ref id target).IsIn t)
    (writable : t.isWritable = true) : u.isWritable = true := by
  induction t using Tree.induct generalizing u with
  | leaf t scalar =>
    rcases h.eq_or_ref scalar with rfl | ⟨id, target, _, rfl, -⟩
    · exact writable
    · exact absurd (.self _) (none id target)
  | list ts ih =>
    obtain ⟨us, rfl, items⟩ := reorderedBy_list_iff.mp h
    rw [isWritable_list_iff] at writable ⊢
    intro u mem
    obtain ⟨t, there, same⟩ := exists_of_forall₂ items mem
    exact ih t there same (fun id target inside => none id target (.item there inside))
      (writable t there)
  | map es ih =>
    obtain ⟨gs, rfl, fs, values, order⟩ := reorderedBy_map_iff.mp h
    rw [isWritable_map_iff] at writable ⊢
    intro g mem
    have mem : g ∈ fs := by
      rcases order with rfl | ⟨order, -⟩
      · exact mem
      · exact order.mem_iff.mpr mem
    obtain ⟨e, there, key, same⟩ := exists_of_forall₂ values mem
    rw [← key]
    exact ⟨(writable e there).1, ih e there same
      (fun id target inside => none id target (.entry there inside)) (writable e there).2⟩

end Tree

namespace Wire

variable {t u : Tree}

/-- A text that starts with another character than the word `true` is not read as it. -/
theorem truth_eq_false {c : Char} (text : t.scalarText.toList.head? = some c)
    (visible : Text.isBlank c = false) (other : c.toLower ≠ 't') (noBool : ∀ b, t ≠ .bool b) :
    truth t = false := by
  have reads : truth t = (lowerCase (Text.trim t.scalarText.toList) == "true".toList) := by
    cases t with
    | bool b => exact absurd rfl (noBool b)
    | _ => rfl
  rw [reads, beq_eq_false_iff_ne]
  intro word
  -- what is left after trimming starts with the same character
  obtain ⟨front, back, blank, -, eq⟩ := Text.strip_append Text.isBlank t.scalarText.toList
  rw [← eq] at text
  rcases front with - | ⟨d, front⟩
  · rcases trimmed : Text.strip Text.isBlank t.scalarText.toList with - | ⟨d, ds⟩
    · rw [Text.trim, trimmed] at word
      cases word
    · rw [Text.trim, trimmed] at word
      rw [trimmed] at text
      cases text
      exact other (List.cons.inj word).1
  · cases text
    simp [visible] at blank

theorem truth_list (ts : List Tree) : truth (.list ts) = false := by
  refine truth_eq_false (c := '[') ?_ (by decide) (by decide) nofun
  simp [Tree.scalarText, Tree.shown]

theorem truth_map (es : Entries) : truth (.map es) = false := by
  refine truth_eq_false (c := '\x7b') ?_ (by decide) (by decide) nofun
  simp [Tree.scalarText, Tree.shown]

theorem truth_ref (id : ElementId) (target : Tree) : truth (.ref id target) = false := by
  refine truth_eq_false (c := 'R') ?_ (by decide) (by decide) nofun
  rw [Tree.scalarText, Tree.shown]
  · show ("ReferenceExpression(elem_id=" ++ id.shown ++ ", value=" ++ target.shown
      ++ ")").toList.head? = some 'R'
    simp
  all_goals nofun

/-- The truth value of a scalar alone depends on what it is. -/
theorem truth_permuted (h : t.Permuted u) : truth u = truth t := by
  cases t with
  | list ts =>
    obtain ⟨us, rfl, -⟩ := reorderedBy_list_iff.mp h
    rw [truth_list, truth_list]
  | map es =>
    obtain ⟨gs, rfl, -⟩ := reorderedBy_map_iff.mp h
    rw [truth_map, truth_map]
  | _ =>
    rcases h.eq_or_ref rfl with rfl | ⟨_, _, _, eq, rfl⟩
    · rfl
    · rw [eq, truth_ref, truth_ref]

/-- The items that a sentinel of a list stands for. -/
theorem items_permuted {x y : Option Tree} (h : Option.Rel Tree.Permuted x y) :
    List.Forall₂ Tree.Permuted (items x) (items y) := by
  rcases h with @⟨t, u, same⟩ | -
  · cases t with
    | list ts =>
      obtain ⟨us, rfl, items⟩ := reorderedBy_list_iff.mp same
      exact items
    | map es =>
      obtain ⟨gs, rfl, -⟩ := reorderedBy_map_iff.mp same
      exact .cons same .nil
    | null =>
      rcases same.eq_or_ref rfl with rfl | ⟨_, _, _, eq, -⟩
      · exact .nil
      · cases eq
    | _ =>
      rcases same.eq_or_ref rfl with rfl | ⟨_, _, _, -, rfl⟩ <;> exact .cons same .nil
  · exact .nil

end Wire

namespace Normalizer

variable {n : Normalizer} {type : Option TypeRef} {t u v : Tree}

/-! ### One step -/

/-- A leaf is decoded alike, unless it is a reference, which stays one. -/
theorem leaf_permuted (h : t.Permuted u) (scalar : t.key?.isSome = true)
    (decodes : n.DecodesTo type t v) : ∃ w, n.DecodesTo type u w ∧ v.Permuted w := by
  rcases h.eq_or_ref scalar with rfl | ⟨id, target, target', rfl, rfl⟩
  · exact ⟨v, decodes, .refl _ v⟩
  · obtain rfl : v = .ref id target := decodes.unique fun _ => rfl
    exact ⟨.ref id target', fun _ => rfl, h⟩

/-- The counterpart of a mapping is a sentinel of the same type, or none. -/
theorem exists_entries_permuted {es : Entries} (h : (Tree.map es).Permuted u) :
    ∃ gs, u = .map gs ∧ Entries.Permuted es gs ∧ Wire.sentinelOf? gs = Wire.sentinelOf? es := by
  obtain ⟨gs, rfl, same⟩ := reorderedBy_map_iff.mp h
  exact ⟨gs, rfl, same, Wire.sentinelOf?_permuted same⟩

/-- The truth value or the text that a sentinel stands for. -/
theorem Yields.permuted (yields : n.Yields type t v) (h : t.Permuted u)
    (steady : t.HasSteadyTexts) (decodes : n.DecodesTo type t v) :
    ∃ w, n.DecodesTo type u w ∧ v.Permuted w := by
  cases yields with
  | @boolean es s mark text =>
    obtain ⟨gs, rfl, same, mark'⟩ := exists_entries_permuted h
    have same := Wire.textIn_permuted same
    have writable := Tree.isWritable_of_permuted same ((steady es (.self _)).2 mark)
      (Tree.toText_eq_ok_iff.mp text).1
    refine ⟨_, decodesTo_boolean (mark'.trans mark) (Tree.toText_eq_ok writable), ?_⟩
    rw [Wire.truth_permuted same]
    exact .refl _ _
  | @string es s mark text =>
    obtain ⟨gs, rfl, same, mark'⟩ := exists_entries_permuted h
    rw [((steady es (.self _)).1 mark).eq (Wire.textIn_permuted same)] at text
    exact ⟨_, decodesTo_string (mark'.trans mark) text, .refl _ _⟩
  | scalar one =>
    refine leaf_permuted h ?_ decodes
    rcases one with ⟨b, rfl⟩ | ⟨i, rfl⟩ | ⟨x, rfl⟩ <;> rfl
  | _ => exact leaf_permuted h rfl decodes

/-- The tag of a mapping has a counterpart. -/
theorem exists_tag {es gs : Entries} {tag : Tree} (h : Entries.Permuted es gs)
    (found : Entries.get? Wire.tagKey es = some tag) :
    ∃ tag', Entries.get? Wire.tagKey gs = some tag' ∧ tag.Permuted tag' := by
  have value := Entries.Permuted.get? h "_T_"
  rw [← Wire.tagKey, found] at value
  generalize Entries.get? Wire.tagKey gs = y at value
  cases value with
  | some value => exact ⟨_, rfl, value⟩

theorem no_tag {es gs : Entries} (h : Entries.Permuted es gs)
    (untagged : Entries.get? Wire.tagKey es = none) : Entries.get? Wire.tagKey gs = none := by
  have value := Entries.Permuted.get? h "_T_"
  rw [← Wire.tagKey, untagged] at value
  generalize Entries.get? Wire.tagKey gs = y at value
  cases value
  rfl

/-- The list or the mapping that a value opens: the counterpart of the value opens it
in the same way. -/
theorem Opens.permuted (opens : n.Opens type t v) (h : t.Permuted u) :
    ∃ w, n.Opens type u w ∧ v.Permuted w := by
  cases opens with
  | list ts =>
    obtain ⟨us, rfl, items⟩ := reorderedBy_list_iff.mp h
    exact ⟨.list us, .list us, h⟩
  | @array es mark =>
    obtain ⟨gs, rfl, same, mark'⟩ := exists_entries_permuted h
    refine ⟨_, .array (mark'.trans mark), reorderedBy_list_iff.mpr ⟨_, rfl, ?_⟩⟩
    exact Wire.items_permuted (Entries.Permuted.get? same "_ITEM_")
  | @null es mark =>
    obtain ⟨gs, rfl, same, mark'⟩ := exists_entries_permuted h
    exact ⟨_, .null (mark'.trans mark), .refl _ _⟩
  | @plain es mark untagged =>
    obtain ⟨gs, rfl, same, mark'⟩ := exists_entries_permuted h
    exact ⟨_, .plain (mark'.trans mark) (no_tag same untagged), h⟩
  | @dropped es tag k mark union found key ignored =>
    obtain ⟨gs, rfl, same, mark'⟩ := exists_entries_permuted h
    obtain ⟨tag', found', value⟩ := exists_tag same found
    exact ⟨_, .dropped (mark'.trans mark) union found' (value.key?_eq.trans key) ignored,
      reorderedBy_map_iff.mpr ⟨_, rfl, Entries.Permuted.without same _⟩⟩
  | @nested es tag k mark union found key writable kept =>
    obtain ⟨gs, rfl, same, mark'⟩ := exists_entries_permuted h
    obtain ⟨tag', found', value⟩ := exists_tag same found
    have inner : (Tree.map (Entries.without [Wire.tagKey] es)).Permuted
        (.map (Entries.without [Wire.tagKey] gs)) :=
      reorderedBy_map_iff.mpr ⟨_, rfl, Entries.Permuted.without same _⟩
    exact ⟨_, .nested (mark'.trans mark) union found' (value.key?_eq.trans key) writable
        kept,
      reorderedBy_map_iff.mpr ⟨_, rfl, Entries.Permuted.single inner k⟩⟩
  | @exposed es tag mark undeclared found =>
    obtain ⟨gs, rfl, same, mark'⟩ := exists_entries_permuted h
    obtain ⟨tag', found', value⟩ := exists_tag same found
    have shown := Entries.Permuted.overlay (Entries.Permuted.without same [Wire.tagKey]) value
      "xmlType"
    exact ⟨_, .exposed (mark'.trans mark) undeclared found',
      reorderedBy_map_iff.mpr ⟨_, rfl, shown⟩⟩

/-- **One step respects reordering.** -/
theorem decodes_permuted (h : t.Permuted u) (steady : t.HasSteadyTexts)
    (decodes : n.DecodesTo type t v) : ∃ w, n.DecodesTo type u w ∧ v.Permuted w := by
  rcases step_of_decode (decodes default) with yields | opens
  · exact yields.permuted h steady decodes
  · obtain ⟨w, opens', same⟩ := opens.permuted h
    exact ⟨w, opens'.decodesTo, same⟩

/-! ### What a step opens -/

/-- Every item of a list that a value opens stands in the value. -/
theorem Opens.items_isIn {ts : List Tree} (opens : n.Opens type t (.list ts)) :
    ∀ u ∈ ts, u.IsIn t := by
  intro u mem
  cases opens with
  | list => exact .item mem (.self u)
  | @array es mark =>
    rcases found : Entries.get? Wire.itemKey es with - | items
    · simp [found, Wire.items] at mem
    · obtain ⟨e, there, -, rfl⟩ := Entries.exists_mem_of_get? found
      rw [found] at mem
      refine .entry there ?_
      generalize e.2 = items at mem
      cases items with
      | null => cases mem
      | list => exact .item mem (.self u)
      | _ =>
        rw [List.mem_singleton.mp mem]
        exact .self _

/-- Every value of a mapping that a value opens stands in the value, except for the rest
of a union that is nested. -/
theorem Opens.entries_isIn {es : Entries} (opens : n.Opens type t (.map es)) :
    ∀ e ∈ es, e.2.IsIn t ∨ ∃ fs, t = .map fs ∧ Wire.sentinelOf? fs = none ∧
      e.2 = .map (Entries.without [Wire.tagKey] fs) := by
  intro e mem
  cases opens with
  | null => cases mem
  | plain => exact .inl (.entry mem (.self _))
  | dropped => exact .inl (.entry (List.mem_of_mem_filter mem) (.self _))
  | nested mark =>
    rw [List.mem_singleton.mp mem]
    exact .inr ⟨_, rfl, mark, rfl⟩
  | exposed mark union found =>
    left
    rcases Entries.mem_of_mem_overlay mem with mem | ⟨f, mem, eq⟩
    · obtain ⟨f, there, -, eq⟩ := Entries.exists_mem_of_get? found
      rw [List.mem_singleton.mp mem]
      exact .entry there (eq ▸ .self _)
    · rw [← eq]
      exact .entry (List.mem_of_mem_filter mem) (.self _)

/-- What stands in a mapping that a value opens has steady texts, if the value has: the
rest of a union is no sentinel, as the union itself was none. -/
theorem Opens.hasSteadyTexts {es : Entries} (opens : n.Opens type t (.map es))
    (steady : t.HasSteadyTexts) : ∀ e ∈ es, e.2.HasSteadyTexts := by
  intro e mem
  rcases opens.entries_isIn e mem with inside | ⟨fs, rfl, mark, eq⟩
  · exact steady.of_isIn inside
  · have kept : Wire.sentinelOf? (Entries.without [Wire.tagKey] fs) = Wire.sentinelOf? fs := by
      rw [Wire.sentinelOf?, Wire.sentinelOf?, Wire.typeKey, Entries.get?_without (by decide)]
    rw [eq]
    exact .map (kept.trans mark) fun f mem =>
      steady.of_isIn (.entry (List.mem_of_mem_filter mem) (.self f.2))

/-! ### Runs -/

/-- **A run respects reordering.**  What a value is decoded to need not be a part of it,
so the induction is on the size. -/
theorem gives_permuted (h : t.Permuted u) (steady : t.HasSteadyTexts)
    (gives : n.Gives type t (.ok v)) : ∃ w, n.Gives type u (.ok w) ∧ v.Permuted w := by
  induction size : t.size using Nat.strongRecOn generalizing t u v type with
  | ind size ih =>
    subst size
    obtain ⟨x, decodes⟩ := exists_decodesTo gives
    obtain ⟨y, decodes', same⟩ := decodes_permuted h steady decodes
    have smaller : x.content < t.size := content_lt_of_decode (decodes default)
    have step := step_of_decode (decodes default)
    cases x with
    | list ts =>
      have opens : n.Opens type t (.list ts) := step.resolve_left fun yields => by
        cases yields.isLeaf
      obtain ⟨us, rfl, items⟩ := reorderedBy_list_iff.mp same
      obtain ⟨vs, each, rfl⟩ := exists_items decodes gives
      -- what the items come to transfers along the matching of the items
      obtain ⟨ws, done, related⟩ := forall₂_transfer items each fun t mem u v same gives =>
        ih t.size (Nat.lt_of_le_of_lt (Tree.size_le_sizeItems mem) smaller) same
          (steady.of_isIn (opens.items_isIn t mem)) gives rfl
      refine ⟨_, gives_items decodes' done, reorderedBy_list_iff.mpr ⟨_, rfl, ?_⟩⟩
      exact List.rel_filter (fun {v w} same => by simp only [same.isEmpty_eq]) related
    | map es =>
      have opens : n.Opens type t (.map es) := step.resolve_left fun yields => by
        cases yields.isLeaf
      obtain ⟨gs, rfl, entries⟩ := reorderedBy_map_iff.mp same
      obtain ⟨vs, each, rfl⟩ := exists_entries decodes gives
      obtain ⟨ws, done, related⟩ := Entries.Permuted.transfer entries
        (P := fun k t v => n.Gives (n.graph.fieldType type k) t (.ok v))
        (Q := fun k t v => n.Gives (n.graph.fieldType type k) t (.ok v)) each
        fun e mem f v same gives =>
          ih e.2.size (Nat.lt_of_le_of_lt (Tree.size_le_sizeEntries mem) smaller) same
            (opens.hasSteadyTexts steady e mem) gives rfl
      refine ⟨_, gives_entries decodes' done, reorderedBy_map_iff.mpr ⟨_, rfl, ?_⟩⟩
      exact related.filter fun e f same => by rw [same.2.isEmpty_eq]
    | _ =>
      cases gives.unique (gives_of_decode rfl decodes)
      exact ⟨y, gives_of_decode (by rw [same.key?_eq]; rfl) decodes', same⟩

/-- **The canonical form of a reordered definition.**  Both fail, nothing is left of
either, or what is left is the same up to reordering. -/
theorem normalize_permuted {place : ElementId} (deep : rootDepth ≤ place.depth)
    (h : t.Permuted u) (steady : t.HasSteadyTexts) :
    SameOutcome (Option.Rel Tree.Permuted) (n.normalize place t).outcome
      (n.normalize place u).outcome := by
  have follows {t u : Tree} (h : t.Permuted u) (steady : t.HasSteadyTexts) :
      Follows Tree.Permuted (n.walk (some n.graph.rootRef) place t).outcome
        (n.walk (some n.graph.rootRef) place u).outcome := by
    intro v outcome
    have counts : n.graph.Counts (some n.graph.rootRef) place := Graph.counts_root deep
    obtain ⟨w, gives, same⟩ := gives_permuted h steady (gives_of_outcome counts outcome)
    exact ⟨w, gives place counts, same⟩
  have both := SameOutcome.of_follows (follows h steady)
    (follows (Tree.Permuted.symm h) (steady.permuted h))
  rw [normalize, normalize, Journal.outcome_bind, Journal.outcome_bind]
  generalize (n.walk (some n.graph.rootRef) place t).outcome = x,
    (n.walk (some n.graph.rootRef) place u).outcome = y at both
  rcases x with e | v <;> rcases y with e' | w
  · trivial
  · exact both
  · exact both
  · have same : v.Permuted w := both
    show Option.Rel _ (if v.isEmpty then none else some v) (if w.isEmpty then none else some w)
    rw [same.isEmpty_eq]
    split
    · exact .none
    · exact .some same

end Normalizer

end DefinitionTree
