/-
DefinitionTree/Proofs/Wire/Reordering.lean

The wire form up to the order of entries.

Encoding looks at the entries of a mapping in several ways: for the type that a
sentinel names, for the field that shows a tag, for the mark on a single variant,
which may stand before the variant or behind it; and it puts a tag in front.  In
none of these does the order of distinct texts matter, except that it is kept.

Main statements:

* `Wire.markedVariant?_permuted`: the mark on a variant is found on either side;
* `Wire.collapseEntries_permuted`: unions in another order;
* `Wire.encode_permuted`: the wire form of trees that are the same up to reordering.
-/
import DefinitionTree.Proofs.Tree.Reordering
import DefinitionTree.Wire.Encoding
import Mathlib.Data.List.Permutation

namespace DefinitionTree.Wire

open DefinitionTree.Tree (SameEntry reorderedBy_list_iff reorderedBy_map_iff)
open Entries (HasTextKeys)

variable {es fs gs : Entries} {t u : Tree} {ks : List String}

/-! ### What a mapping is -/

theorem sentinelOf?_permuted (h : Entries.Permuted es gs) : sentinelOf? gs = sentinelOf? es := by
  have same := h.get? "@_type"
  rw [sentinelOf?, sentinelOf?, typeKey]
  generalize Entries.get? (.text "@_type") es = x, Entries.get? (.text "@_type") gs = y at same
  cases same with
  | none => rfl
  | @some t u same =>
    have key := same.key?_eq
    by_cases text : ∃ s, t = .text s
    · obtain ⟨s, rfl⟩ := text
      rw [Tree.eq_text_of_key? key]
    · have text' : ¬∃ s, u = .text s := by
        rintro ⟨s, rfl⟩
        exact text ⟨s, Tree.eq_text_of_key? key.symm⟩
      cases t with
      | text s => exact absurd ⟨s, rfl⟩ text
      | _ =>
        cases u with
        | text s => exact absurd ⟨s, rfl⟩ text'
        | _ => rfl

theorem isTyped_permuted (h : Entries.Permuted es gs) : isTyped gs = isTyped es :=
  h.has_eq "@_type"

/-- Two variants with the same tag and related fields. -/
def SameVariant (v w : Tree × Entries) : Prop :=
  v.1.Permuted w.1 ∧ Entries.Permuted v.2 w.2

/-- Of two entries either one may hold the mark, and the other one the variant. -/
theorem markedVariant?_pair (k₁ k₂ : Key) (t₁ t₂ : Tree) :
    markedVariant? [(k₁, t₁), (k₂, t₂)] =
      if k₁.same tagKey then t₂.entries?.map fun inner => (t₁, inner)
      else if k₂.same tagKey then t₁.entries?.map fun inner => (t₂, inner)
      else none := by
  refine if_congr Iff.rfl ?_ (if_congr Iff.rfl ?_ rfl)
  · cases t₂ <;> rfl
  · cases t₁ <;> rfl

theorem markedVariant?_of_sameEntry (values : List.Forall₂ (SameEntry HasTextKeys) es fs) :
    Option.Rel SameVariant (markedVariant? es) (markedVariant? fs) := by
  have variant {tag tag' inner inner' : Tree} (tags : tag.Permuted tag')
      (inners : inner.Permuted inner') : Option.Rel SameVariant
        (inner.entries?.map fun es => (tag, es)) (inner'.entries?.map fun es => (tag', es)) := by
    have same := inners.entries?
    generalize inner.entries? = x, inner'.entries? = y at same
    cases same with
    | none => exact .none
    | some same => exact .some ⟨tags, same⟩
  rcases values with - | @⟨⟨k₁, t₁⟩, ⟨k₁', u₁⟩, es, fs, ⟨rfl, first⟩, rest⟩
  · exact .none
  rcases rest with - | @⟨⟨k₂, t₂⟩, ⟨k₂', u₂⟩, es, fs, ⟨rfl, second⟩, rest⟩
  · exact .none
  rcases rest with - | _
  · rw [markedVariant?_pair, markedVariant?_pair]
    split
    · exact variant first second
    · split
      · exact variant second first
      · exact .none
  · exact .none

/-- The mark may stand before the variant or behind it. -/
theorem markedVariant?_of_perm (texts : HasTextKeys fs) (order : fs.Perm gs) :
    markedVariant? fs = markedVariant? gs := by
  have length := order.length_eq
  rcases fs with - | ⟨⟨k₁, t₁⟩, - | ⟨⟨k₂, t₂⟩, - | ⟨e, fs⟩⟩⟩
  · rw [List.nil_perm.mp order]
  · rw [List.singleton_perm.mp order]
  · rcases List.pair_perm.mp order with rfl | rfl
    · rfl
    · have ne : k₁ ≠ k₂ := by simpa using texts.distinct
      rw [markedVariant?_pair, markedVariant?_pair]
      simp only [tagKey, Key.same_text_iff]
      by_cases first : k₁ = .text "_T_"
      · have second : k₂ ≠ .text "_T_" := fun eq => ne (first.trans eq.symm)
        rw [if_pos first, if_neg second, if_pos first]
      · simp only [if_neg first]
  · rcases gs with - | ⟨a, - | ⟨b, - | ⟨c, gs⟩⟩⟩
    · cases length
    · cases length
    · cases length
    · rfl

theorem markedVariant?_permuted (h : Entries.Permuted es gs) :
    Option.Rel SameVariant (markedVariant? es) (markedVariant? gs) := by
  obtain ⟨fs, values, order⟩ := h
  have first := markedVariant?_of_sameEntry values
  rcases order with rfl | ⟨order, texts⟩
  · exact first
  · rwa [markedVariant?_of_perm texts order] at first

/-! ### Unions -/

theorem collapseEntries_permuted (h : Entries.Permuted es gs) (k : Key) :
    Entries.Permuted (collapseEntries ks k es) (collapseEntries ks k gs) := by
  unfold collapseEntries
  rw [sentinelOf?_permuted h]
  split
  · refine (h.without [tagKey]).cons (.refl _ _) fun mem => ?_
    obtain ⟨⟨k', v⟩, there, eq⟩ := List.mem_map.mp mem
    cases eq
    simpa [tagKey] using (List.mem_filter.mp there).2
  · have shown := h.get? "xmlType"
    rw [exposedKey]
    generalize Entries.get? (.text "xmlType") es = x, Entries.get? (.text "xmlType") gs = y at shown
    cases shown with
    | some tag => exact (h.without [.text "xmlType"]).overlay tag "_T_"
    | none =>
      have marked := markedVariant?_permuted h
      generalize markedVariant? es = x, markedVariant? gs = y at marked
      cases marked with
      | none => exact h
      | some variant => exact variant.2.overlay variant.1 "_T_"

/-! ### Encoding -/

/-- The entries of a mapping are encoded one by one. -/
theorem encodeEntries_eq_values (wraps : Bool) (es : Entries) :
    encodeEntries ks wraps es
      = es.map fun e => (e.1, encodeAt ks (wraps && !isRawKey e.1) e.1 e.2) := by
  induction es with
  | nil => rw [encodeEntries, List.map_nil]
  | cons e es ih =>
    obtain ⟨k, t⟩ := e
    rw [encodeEntries, ih, List.map_cons]

theorem encodeEntries_permuted (h : Entries.Permuted es gs) (wraps : Bool)
    (each : ∀ e ∈ es, ∀ f, e.2.Permuted f → ∀ wraps k,
      (encodeAt ks wraps k e.2).Permuted (encodeAt ks wraps k f)) :
    Entries.Permuted (encodeEntries ks wraps es) (encodeEntries ks wraps gs) := by
  rw [encodeEntries_eq_values, encodeEntries_eq_values]
  exact h.map (F := fun k t => encodeAt ks (wraps && !isRawKey k) k t)
    fun e mem f value => each e mem f value _ e.1

theorem encodeItems_permuted {ts us : List Tree} {index : Nat}
    (items : List.Forall₂ (fun t u => ∀ wraps k,
      (encodeAt ks wraps k t).Permuted (encodeAt ks wraps k u)) ts us) :
    List.Forall₂ Tree.Permuted (encodeItems ks index ts) (encodeItems ks index us) := by
  induction items generalizing index with
  | nil =>
    rw [encodeItems]
    exact .nil
  | cons here _ ih =>
    rw [encodeItems, encodeItems]
    exact .cons (here true (.int index)) ih

/-- What is encoded of a mapping is its collapsed form, so the induction is on the
size. -/
theorem encodeAt_permuted (h : t.Permuted u) (wraps : Bool) (k : Key) :
    (encodeAt ks wraps k t).Permuted (encodeAt ks wraps k u) := by
  induction size : t.size using Nat.strongRecOn generalizing t u wraps k with
  | ind size ih =>
    subst size
    cases t with
    | list ts =>
      obtain ⟨us, rfl, items⟩ := reorderedBy_list_iff.mp h
      have inside : List.Forall₂ Tree.Permuted (encodeItems ks 0 ts) (encodeItems ks 0 us) := by
        refine encodeItems_permuted (forall₂_of_mem items fun t mem u same wraps k => ?_)
        refine ih t.size ?_ same wraps k rfl
        exact Tree.size_lt_of_mem_list mem
      rw [encodeAt, encodeAt]
      cases wraps
      · exact reorderedBy_list_iff.mpr ⟨_, rfl, inside⟩
      · refine reorderedBy_map_iff.mpr ⟨_, rfl, [_, _], .cons ⟨rfl, .refl _ _⟩ ?_, .inl rfl⟩
        exact .cons ⟨rfl, reorderedBy_list_iff.mpr ⟨_, rfl, inside⟩⟩ .nil
    | map es =>
      obtain ⟨gs, rfl, same⟩ := reorderedBy_map_iff.mp h
      have collapsed : Entries.Permuted (collapseEntries ks k es) (collapseEntries ks k gs) :=
        collapseEntries_permuted same k
      rw [encodeAt, encodeAt]
      simp only [isTyped_permuted collapsed]
      refine reorderedBy_map_iff.mpr ⟨_, rfl, encodeEntries_permuted collapsed _ ?_⟩
      intro e mem f value wraps k'
      exact ih e.2.size (Tree.size_lt_of_mem_map mem (sizeEntries_collapseEntries_le ks k es))
        value wraps k' rfl
    | ref id target =>
      -- what a reference resolved to is not written
      rcases h.eq_or_ref rfl with rfl | ⟨_, _, target', eq, rfl⟩
      · exact .refl _ _
      · cases eq
        have same : encodeAt ks wraps k (.ref id target')
            = encodeAt ks wraps k (.ref id target) := by
          rw [encodeAt, encodeAt]
          · rfl
          all_goals simp
        rw [same]
        exact .refl _ _
    | _ =>
      rcases h.eq_or_ref rfl with rfl | ⟨_, _, _, eq, -⟩
      · exact .refl _ _
      · cases eq

/-- **The wire form respects reordering.** -/
theorem encode_permuted (h : t.Permuted u) : (encode ks t).Permuted (encode ks u) := by
  cases t with
  | list ts =>
    obtain ⟨us, rfl, items⟩ := reorderedBy_list_iff.mp h
    refine reorderedBy_list_iff.mpr ⟨_, rfl, encodeItems_permuted ?_⟩
    exact items.imp fun _ _ same => encodeAt_permuted same
  | map es =>
    obtain ⟨gs, rfl, same⟩ := reorderedBy_map_iff.mp h
    rw [encode, encode, isTyped_permuted same]
    refine reorderedBy_map_iff.mpr ⟨_, rfl, encodeEntries_permuted same _ ?_⟩
    exact fun _ _ _ value => encodeAt_permuted value
  | ref id target =>
    rcases h.eq_or_ref rfl with rfl | ⟨_, _, _, eq, rfl⟩
    · exact .refl _ _
    · cases eq
      exact .refl _ _
  | _ =>
    rcases h.eq_or_ref rfl with rfl | ⟨_, _, _, eq, -⟩
    · exact .refl _ _
    · cases eq

end DefinitionTree.Wire
