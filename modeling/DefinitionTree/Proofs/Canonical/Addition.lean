/-
DefinitionTree/Proofs/Canonical/Addition.lean

Completion up to the order of entries.

What a mapping lacks depends on which keys it has, and on how many; it is the same
for a mapping with its entries in another order, and it is put behind them either
way.  So completing respects reordering, at every level.  Two things are needed:
what is put in must not have a key that is there, which is why it was put in, nor
one key twice, which no schema asks for that was built.

A completion may fail, and of several failures the first one in order is reported.
So two completions fail together, but not always alike.

Main definitions and statements:

* `Graph.additions_permuted`: what a mapping lacks;
* `Graph.fillWith_follows`, `Graph.complete_follows`: completing a reordered tree.
-/
import DefinitionTree.Proofs.Canonical.Placeholder
import DefinitionTree.Proofs.Outcome
import DefinitionTree.Proofs.Tree.Reordering

namespace DefinitionTree

namespace Graph

open DefinitionTree.Tree (SameEntry reorderedBy_list_iff reorderedBy_map_iff)
open Entries (HasTextKeys)

variable {g : Graph} {filler : Filler} {type : Option TypeRef} {place : ElementId}
variable {es fs gs : Entries} {t u : Tree}

/-! ### What is lacking -/

theorem additions_permuted (h : Entries.Permuted es gs) :
    g.additions type place gs = g.additions type place es := by
  unfold additions
  split
  · rfl
  · rename_i t _
    exact t.additions_eq_of_perm h.keysOf_perm

/-- Fields are missing of a type of the schema, and none of them is there. -/
theorem exists_missing {owner : String} {missing : List Field}
    (h : g.additions type place es = .fields owner missing) :
    ∃ t ∈ g.types, missing = t.missing es := by
  unfold additions at h
  split at h
  · cases h
  · rename_i t object
    refine ⟨t, mem_types_of_objectAt? object, ?_⟩
    rcases t.additions_cases es with ⟨-, eq⟩ | ⟨-, -, k, u, -, eq⟩ | ⟨-, -, eq⟩ <;>
      rw [eq] at h <;> cases h
    rfl

/-- The mark of a variant is put behind that variant alone, at a union that keeps its
tag. -/
theorem exists_variant {k : Key} (h : g.additions type place es = .variantMark k) :
    ∃ o u, g.objectAt? (g.typeAt type place) = some o ∧ o.keepsTag = true ∧ es = [(k, u)] := by
  unfold additions at h
  split at h
  · cases h
  · rename_i o object
    rcases o.additions_cases es with ⟨-, eq⟩ | ⟨-, keeps, k', u, single, eq⟩ | ⟨-, -, eq⟩ <;>
      rw [eq] at h <;> cases h
    exact ⟨o, u, object, keeps, single⟩

/-! ### What is put in -/

/-- Only missing fields are put in, in their order. -/
theorem keysOf_fillFields {owner : String} {missing : List Field}
    (h : g.fillFields filler type place owner missing = .ok es) :
    (keysOf es).Sublist (missing.map fun f => Key.text f.name) := by
  induction missing generalizing es with
  | nil =>
    cases h
    exact .slnil
  | cons f rest ih =>
    rw [fillFields] at h
    obtain ⟨v, -, h⟩ := bind_eq_ok_iff.mp h
    obtain ⟨fs, others, last⟩ := bind_eq_ok_iff.mp h
    cases last
    by_cases null : v = .null
    · rw [null]
      exact (ih others).cons _
    · rw [kept_eq_cons null]
      exact (ih others).cons_cons _

/-- Distinct texts, and another one behind them, if it is new and has a value. -/
theorem hasTextKeys_append_kept {s : String} (texts : HasTextKeys es)
    (new : Key.text s ∉ keysOf es) (t : Tree) : HasTextKeys (es ++ kept (.text s) t []) := by
  by_cases null : t = .null
  · rw [null]
    simpa [kept] using texts
  · rw [kept_eq_cons null]
    exact texts.concat new t

/-- Entries and the fields that they lack have distinct texts as keys, if these
entries have. -/
theorem hasTextKeys_append (distinct : g.HasDistinctFields) {owner : String}
    {missing : List Field} (lacks : g.additions type place es = .fields owner missing)
    (filled : g.fillFields filler type place owner missing = .ok gs)
    (left : ∀ k ∈ keysOf fs, k ∈ keysOf es) (texts : HasTextKeys fs) :
    HasTextKeys (fs ++ gs) := by
  obtain ⟨t, mem, rfl⟩ := exists_missing lacks
  have sub := keysOf_fillFields filled
  have field {k : Key} (new : k ∈ keysOf gs) : ∃ f ∈ t.missing es, Key.text f.name = k :=
    List.mem_map.mp (sub.subset new)
  obtain ⟨names, lacking⟩ := t.missing_new es (distinct t mem)
  constructor
  · intro k there
    rw [keysOf_append, List.mem_append] at there
    rcases there with old | new
    · exact texts.texts k old
    · obtain ⟨f, -, rfl⟩ := field new
      exact ⟨f.name, rfl⟩
  · rw [keysOf_append]
    refine List.Nodup.append texts.distinct (names.sublist sub) fun k old new => ?_
    obtain ⟨f, missing, rfl⟩ := field new
    exact lacking f missing (left _ old)

/-! ### Completing -/

/-- Completing the second tree succeeds wherever completing the first one does, with a
related result. -/
def FillsAlong (g : Graph) (filler : Filler) (t u : Tree) : Prop :=
  ∀ type place, Follows Tree.Permuted (g.fillWith filler type place t)
    (g.fillWith filler type place u)

theorem fillItems_follows {ts us : List Tree} (items : List.Forall₂ (g.FillsAlong filler) ts us)
    (index : Nat) : Follows (List.Forall₂ Tree.Permuted)
      (g.fillItems filler type place index ts) (g.fillItems filler type place index us) := by
  induction items generalizing index with
  | nil => exact follows_ok .nil
  | cons here _ ih =>
    rw [fillItems, fillItems]
    refine (here type (place.item index)).bind fun v w same => ?_
    refine (ih (index + 1)).bind fun vs ws others => follows_ok ?_
    have key := same.key?_eq
    split
    · cases w with
      | null => exact others
      | _ => cases key
    · rename_i some_
      split
      · cases v with
        | null => exact absurd rfl some_
        | _ => cases key
      · exact .cons same others

/-- Whether an entry is kept can be told from the key that its value would make. -/
theorem kept_eq_ite (k : Key) (t : Tree) (es : Entries) :
    kept k t es = if t.key? = some .null then es else (k, t) :: es := by
  cases t <;> rfl

theorem kept_filter (k : Key) (t : Tree) (es : Entries) :
    kept k t (es.filter fun e => e.2.key? ≠ some .null)
      = ((k, t) :: es).filter fun e => e.2.key? ≠ some .null := by
  rw [kept_eq_ite, List.filter_cons]
  by_cases null : t.key? = some .null
  · simp [null]
  · simp [null]

/-- The values that completing a mapping gives, before null ones are left out. -/
theorem fillEntries_eq_ok_iff : g.fillEntries filler type place es = .ok fs ↔ ∃ us : Entries,
    List.Forall₂ (fun e u => e.1 = u.1 ∧
      g.fillWith filler (g.fieldType type e.1) (place.entry e.1) e.2 = .ok u.2) es us ∧
    fs = us.filter fun u => u.2.key? ≠ some .null := by
  induction es generalizing fs with
  | nil =>
    constructor
    · rintro ⟨⟩
      exact ⟨[], .nil, rfl⟩
    · rintro ⟨us, none, rfl⟩
      cases none
      rfl
  | cons e es ih =>
    obtain ⟨k, t⟩ := e
    rw [fillEntries]
    rcases here : g.fillWith filler (g.fieldType type k) (place.entry k) t with e | v
    · refine iff_of_false (by rintro ⟨⟩) ?_
      rintro ⟨us, all, -⟩
      cases all with
      | cons first _ =>
        rw [here] at first
        cases first.2
    · constructor
      · intro h
        rcases there : g.fillEntries filler type place es with e | vs
        · rw [there] at h
          cases h
        · rw [there] at h
          cases h
          obtain ⟨us, all, rfl⟩ := ih.mp there
          exact ⟨(k, v) :: us, .cons ⟨rfl, here⟩ all, kept_filter k v us⟩
      · rintro ⟨us, all, rfl⟩
        rcases all with - | @⟨_, ⟨k', w⟩, _, us, ⟨rfl, first⟩, others⟩
        obtain rfl : v = w := Except.ok.inj (here.symm.trans first)
        have there := ih.mpr ⟨us, others, rfl⟩
        rw [there]
        exact congrArg Except.ok (kept_filter k v us)

theorem keysOf_fillEntries (h : g.fillEntries filler type place es = .ok fs) :
    ∀ k ∈ keysOf fs, k ∈ keysOf es := by
  obtain ⟨us, all, rfl⟩ := fillEntries_eq_ok_iff.mp h
  intro k mem
  rw [keysOf_of_forall₂ (fun _ _ same => same.1) all]
  exact (List.filter_sublist.map _).subset mem

theorem fillEntries_follows (same : Entries.Permuted es gs)
    (each : ∀ e ∈ es, ∀ f, e.2.Permuted f → g.FillsAlong filler e.2 f) :
    Follows Entries.Permuted (g.fillEntries filler type place es)
      (g.fillEntries filler type place gs) := by
  intro fs done
  obtain ⟨us, all, rfl⟩ := fillEntries_eq_ok_iff.mp done
  obtain ⟨ws, all', related⟩ := same.transfer
    (P := fun k t u => g.fillWith filler (g.fieldType type k) (place.entry k) t = .ok u)
    (Q := fun k t u => g.fillWith filler (g.fieldType type k) (place.entry k) t = .ok u) all
    fun e mem f u value filled => each e mem f value _ _ u filled
  refine ⟨_, fillEntries_eq_ok_iff.mpr ⟨ws, all', rfl⟩, related.filter fun e f same => ?_⟩
  rw [same.2.key?_eq]

/-- **Completing respects reordering.** -/
theorem fillWith_follows (distinct : g.HasDistinctFields) (h : t.Permuted u) :
    g.FillsAlong filler t u := by
  induction t using Tree.induct generalizing u with
  | leaf t scalar =>
    intro type place
    rw [fillWith_leaf scalar, fillWith_leaf (by rwa [h.key?_eq])]
    exact follows_ok h
  | list ts ih =>
    intro type place
    obtain ⟨us, rfl, items⟩ := reorderedBy_list_iff.mp h
    rw [fillWith, fillWith]
    refine (fillItems_follows (forall₂_of_mem items fun t mem u => ih t mem) 0).map
      fun vs ws same => reorderedBy_list_iff.mpr ⟨ws, rfl, same⟩
  | map es ih =>
    intro type place
    obtain ⟨gs, rfl, same⟩ := reorderedBy_map_iff.mp h
    have inside : Follows (fun vs ws => Entries.Permuted vs ws ∧ ∀ k ∈ keysOf vs, k ∈ keysOf es)
        (g.fillEntries filler type place es) (g.fillEntries filler type place gs) :=
      (fillEntries_follows same fun e mem f => ih e mem).and_left fun vs => keysOf_fillEntries
    rw [fillWith, fillWith, additions_permuted same]
    rcases lacks : g.additions type place es with - | k | ⟨owner, missing⟩ <;> dsimp only
    · exact inside.map fun vs ws both => reorderedBy_map_iff.mpr ⟨ws, rfl, both.1⟩
    · split
      · exact follows_ok (.refl _ _)
      · rename_i mark
        refine inside.bind fun vs ws both => follows_ok ?_
        obtain ⟨same, left⟩ := both
        -- the mark is a key of its own, since the variant is not called like it
        refine reorderedBy_map_iff.mpr ⟨_, rfl, same.append _ fun texts => ?_⟩
        obtain ⟨-, u, -, -, rfl⟩ := exists_variant lacks
        refine hasTextKeys_append_kept texts (fun there => mark ?_) _
        obtain rfl : Key.text "_T_" = k := List.mem_singleton.mp (left _ there)
        exact Key.same_self _
    · refine inside.bind fun vs ws both => ?_
      obtain ⟨same, left⟩ := both
      refine (follows_self _).bind fun new new' both => follows_ok ?_
      obtain ⟨made, rfl⟩ := both
      refine reorderedBy_map_iff.mpr ⟨_, rfl, same.append _ ?_⟩
      exact hasTextKeys_append distinct lacks made left

/-- **Completing a whole definition respects reordering.** -/
theorem complete_follows (distinct : g.HasDistinctFields) (h : t.Permuted u) (place : ElementId) :
    Follows Tree.Permuted (g.complete place t) (g.complete place u) := by
  refine (fillWith_follows distinct h (some g.rootRef) place).bind fun v w same => ?_
  have key := same.key?_eq
  split
  · cases w with
    | null => exact follows_ok (.refl _ _)
    | _ => cases key
  · split
    · cases v with
      | null => contradiction
      | _ => cases key
    · exact follows_ok same

end Graph

end DefinitionTree
