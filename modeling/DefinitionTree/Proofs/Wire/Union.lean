/-
DefinitionTree/Proofs/Wire/Union.lean

Taking a union apart and putting it together again.

A union that is expanded or exposed is told by its looks when it is collapsed:
by the key `xmlType` if it is there, and else by a variant that is marked with
its tag.  What looks the same for another reason is mistaken.  A tag may be one
of the two keys that decide, and a field may be called `xmlType`; then something
of the union is lost.

Main statements:

* `Wire.collapse_expanded`, `Wire.collapse_exposed`: what comes back;
* `Wire.alike_collapse_iff`: when it is the union, up to the order of keys.
-/
import DefinitionTree.Proofs.Tree.Alike
import DefinitionTree.Proofs.Wire.Encoding
import DefinitionTree.Settings.Basic

namespace DefinitionTree.Wire

open Entries (AreDistinct)

variable {ignored discriminated : List String} {k : Key} {es : Entries} {tag : String}

/-! ### A variant under its tag -/

/-- The fields of a union go under its tag, if the tag is not ignored. -/
theorem expand_of_kept (tagged : Entries.get? tagKey es = some (.text tag))
    (kept : tag ∉ ignored) :
    expand ignored es = .ok [(.text tag, .map (Entries.without [tagKey] es))] := by
  have out : isAmong (.text tag) ignored = false := by
    simpa [isAmong] using kept
  simp [expand, tagged, Tree.key?, out]

/-- A tag that is set in front of the other fields. -/
theorem overlay_untagged (distinct : AreDistinct es) (t : Tree) :
    Entries.overlay [(tagKey, t)] (Entries.without [tagKey] es)
      = (tagKey, t) :: Entries.without [tagKey] es := by
  have gone := Entries.notMem_without "_T_" es
  rw [tagKey, Entries.overlay_single (distinct.without _), Entries.get?_eq_none gone,
    Entries.without_eq_self gone]
  rfl

/-- What becomes of a variant that is marked with its tag: a tag that decides by
itself puts its mark in the place of the fields. -/
theorem collapse_expanded (distinct : AreDistinct es)
    (open_ : isDiscriminated discriminated k = false) :
    collapseEntries discriminated k
        (Entries.overlay [(.text tag, .map (Entries.without [tagKey] es))] [(tagKey, .text tag)])
      = (tagKey, .text tag) ::
          if tag = "_T_" ∨ tag = "xmlType" then [] else Entries.without [tagKey] es := by
  by_cases isTag : tag = "_T_"
  · subst isTag
    rw [if_pos (.inl rfl)]
    -- the mark takes the place of the fields at once, and stays alone
    simp only [Entries.overlay, Entries.set, tagKey, Key.same_self, if_true,
      collapseEntries_of_shown open_]
    rfl
  · have marked : Entries.overlay [(.text tag, .map (Entries.without [tagKey] es))]
        [(tagKey, .text tag)]
        = [(.text tag, .map (Entries.without [tagKey] es)), (tagKey, .text tag)] :=
      Entries.set_eq_append (by simpa using Ne.symm isTag)
    rw [marked]
    by_cases isShown : tag = "xmlType"
    · subst isShown
      rw [if_pos (.inr rfl), collapseEntries_exposed open_ (Entries.get?_cons_self ..)]
      -- the fields are taken for the tag, and the mark takes their place
      rfl
    · rw [if_neg (not_or.mpr ⟨isTag, isShown⟩),
        collapseEntries_variant open_ (by simpa [tagKey] using isTag)
          (by simpa [exposedKey] using isShown),
        overlay_untagged distinct]

/-! ### A tag that is shown -/

/-- What becomes of a union whose tag is shown: the field of that name is the
tag, if there is one. -/
theorem collapse_exposed (distinct : AreDistinct es)
    (open_ : isDiscriminated discriminated k = false) (t : Tree) :
    collapseEntries discriminated k
        (Entries.overlay [(exposedKey, t)] (Entries.without [tagKey] es))
      = (tagKey, (Entries.get? exposedKey es).getD t) ::
          Entries.without [exposedKey] (Entries.without [tagKey] es) := by
  have rest := distinct.without [tagKey]
  have shown : Entries.get? exposedKey (Entries.without [tagKey] es)
      = Entries.get? exposedKey es := Entries.get?_without (by decide) es
  have exposed : Entries.overlay [(exposedKey, t)] (Entries.without [tagKey] es)
      = (exposedKey, (Entries.get? exposedKey es).getD t) ::
          Entries.without [exposedKey] (Entries.without [tagKey] es) := by
    rw [← shown]
    exact Entries.overlay_single rest _ t
  have swapped : Entries.without [exposedKey] (Entries.without [tagKey] es)
      = Entries.without [tagKey] (Entries.without [exposedKey] es) :=
    List.filter_comm ..
  have gone : Entries.without [exposedKey]
        (Entries.without [exposedKey] (Entries.without [tagKey] es))
      = Entries.without [exposedKey] (Entries.without [tagKey] es) :=
    Entries.without_eq_self (Entries.notMem_without "xmlType" _)
  rw [exposed, exposedKey, collapseEntries_exposed open_ (Entries.get?_cons_self ..), exposedKey,
    Entries.without_cons_of_same (Key.same_self _), ← exposedKey, gone, swapped,
    overlay_untagged (distinct.without _)]

/-! ### When the union comes back -/

/-- A mapping is the same, up to the order of keys, with its tag in front of the other
fields. -/
theorem alike_tagged (distinct : AreDistinct es)
    {t : Tree} (tagged : Entries.get? tagKey es = some t) :
    (Tree.map es).Alike (.map ((tagKey, t) :: Entries.without [tagKey] es)) :=
  Tree.alike_of_perm (distinct.perm_without tagged).symm

/-- What has its other fields taken from it has them all if it is the same up to
the order of keys. -/
theorem eq_without_of_alike (distinct : AreDistinct es)
    {t u : Tree} (tagged : Entries.get? tagKey es = some u) {rest : Entries}
    (part : rest.Sublist (Entries.without [tagKey] es))
    (alike : (Tree.map es).Alike (.map ((tagKey, t) :: rest))) :
    rest = Entries.without [tagKey] es := by
  refine part.eq_of_length ?_
  have length := alike.length_eq
  rw [distinct.length_without tagged, List.length_cons] at length
  exact Nat.succ.inj length

theorem exposedKey_mem_without_iff :
    exposedKey ∈ keysOf (Entries.without [tagKey] es) ↔ Entries.has exposedKey es = true := by
  rw [exposedKey, ← Entries.has_iff, Entries.has, Entries.get?_without (by decide)]
  rfl

/-- A union whose tag is not ignored comes back from its variant unless the tag
is one of the two keys that decide and there are fields to lose, and it comes
back from the mapping that shows its tag unless a field has that name.  The key
that it is held under must not be a discriminated one. -/
theorem alike_collapse_iff (distinct : AreDistinct es)
    (tagged : Entries.get? tagKey es = some (.text tag)) (kept : tag ∉ ignored)
    (open_ : isDiscriminated discriminated k = false) :
    (∃ fs, expand ignored es = .ok fs ∧
      ((Tree.map es).Alike
          (collapse discriminated k (.map (Entries.overlay fs [(tagKey, .text tag)]))) ↔
        (tag ≠ "_T_" ∧ tag ≠ "xmlType") ∨ Entries.without [tagKey] es = [])) ∧
    ∃ fs, expose es = .ok fs ∧
      ((Tree.map es).Alike (collapse discriminated k (.map fs)) ↔
        Entries.has exposedKey es = false) := by
  refine ⟨⟨_, expand_of_kept tagged kept, ?_⟩, ⟨_, by rw [expose, tagged], ?_⟩⟩
  · rw [collapse, collapse_expanded distinct open_]
    by_cases decides : tag = "_T_" ∨ tag = "xmlType"
    · rw [if_pos decides, ← not_or]
      constructor
      · exact fun alike =>
          .inr (eq_without_of_alike distinct tagged (List.nil_sublist _) alike).symm
      · rintro (other | alone)
        · exact absurd decides other
        · rw [← alone]
          exact alike_tagged distinct tagged
    · rw [if_neg decides, ← not_or]
      exact iff_of_true (alike_tagged distinct tagged) (.inl decides)
  · rw [collapse, collapse_exposed distinct open_]
    constructor
    · intro alike
      -- what stands under `xmlType` has taken the place of the tag, and is gone
      have same := eq_without_of_alike distinct tagged List.filter_sublist alike
      have gone : exposedKey ∉ keysOf (Entries.without [tagKey] es) :=
        same ▸ Entries.notMem_without "xmlType" _
      rwa [exposedKey_mem_without_iff, Bool.not_eq_true] at gone
    · intro absent
      have none : Entries.get? exposedKey es = none := by simpa [Entries.has] using absent
      have gone : exposedKey ∉ keysOf (Entries.without [tagKey] es) := by
        rw [exposedKey_mem_without_iff, absent]
        decide
      rw [none, exposedKey, Entries.without_eq_self gone]
      exact alike_tagged distinct tagged

/-- A union as it is fetched. -/
def sampleFilter : Entries := [(tagKey, .text "filter"), (.text "fieldStateName", .text "display")]

/-- Held under `criteria` it comes back in both ways. -/
theorem collapse_sampleFilter :
    (∃ fs, expand ({} : Settings).ignoredTags sampleFilter = .ok fs ∧
      (Tree.map sampleFilter).Alike
        (collapse ({} : Settings).discriminatedKeys (.text "criteria")
          (.map (Entries.overlay fs [(tagKey, .text "filter")])))) ∧
    ∃ fs, expose sampleFilter = .ok fs ∧
      (Tree.map sampleFilter).Alike
        (collapse ({} : Settings).discriminatedKeys (.text "criteria") (.map fs)) := by
  obtain ⟨⟨fs, expanded, first⟩, ⟨gs, exposed, second⟩⟩ :=
    @alike_collapse_iff ({} : Settings).ignoredTags ({} : Settings).discriminatedKeys
      (.text "criteria") sampleFilter "filter" (by decide) rfl (by decide) (by decide)
  exact ⟨⟨fs, expanded, first.mpr (.inl (by decide))⟩, ⟨gs, exposed, second.mpr (by decide)⟩⟩

/-- A union whose tag is the key under which tags are shown. -/
def tagCalledShown : Entries := [(tagKey, .text "xmlType"), (.text "x", .int 1)]

/-- The union of `tagCalledShown` loses its field. -/
theorem collapse_tagCalledShown :
    AreDistinct tagCalledShown ∧ Entries.get? tagKey tagCalledShown = some (.text "xmlType") ∧
      "xmlType" ∉ ({} : Settings).ignoredTags ∧
      isDiscriminated ({} : Settings).discriminatedKeys (.text "criteria") = false ∧
      ∃ fs, expand ({} : Settings).ignoredTags tagCalledShown = .ok fs ∧
        ¬(Tree.map tagCalledShown).Alike
          (collapse ({} : Settings).discriminatedKeys (.text "criteria")
            (.map (Entries.overlay fs [(tagKey, .text "xmlType")]))) := by
  refine ⟨by decide, rfl, by decide, by decide, _, rfl, fun alike => ?_⟩
  exact absurd alike.length_eq (by decide)

end DefinitionTree.Wire
