/-
DefinitionTree/Proofs/Tree/Reordering.lean

Trees up to the order of entries.

Two trees are the same up to reordering if the one comes of the other by putting
the entries of mappings in another order, at whatever level.  Nothing else may
differ, except for what a reference resolved to, which is no part of it.

Inside a mapping with arbitrary keys the order does carry meaning, because of two
keys that name the same entry only the first one is found.  So the order is tied to
a condition on the entries.  What is proved of mappings here holds where only
distinct texts are put in another order, and it comes in two steps: entries in the
same order with related values, and then the same entries in another order.

Main definitions and statements:

* `Tree.Reordered`, `Tree.Permuted`: any order, and that of distinct texts;
* `Entries.Permuted.get?`, `Entries.Permuted.overlay`: what respects it;
* `Entries.Permuted.transfer`: what is done to each entry respects it;
* `Tree.IsSteady.eq`: trees that cannot be reordered.
-/
import DefinitionTree.Proofs.Tree.Induction
import DefinitionTree.Proofs.Tree.Keys
import Mathlib.Data.List.Forall2
import Mathlib.Data.List.Perm.Basic

namespace DefinitionTree

/-! ### Keys that are distinct texts -/

namespace Entries

/-- All keys are texts, and no two of them are the same. -/
structure HasTextKeys (es : Entries) : Prop where
  texts : ∀ k ∈ keysOf es, ∃ s, k = .text s
  distinct : (keysOf es).Nodup

variable {es fs : Entries}

theorem HasTextKeys.of_keysOf_eq (h : HasTextKeys es) (same : keysOf fs = keysOf es) :
    HasTextKeys fs := by
  constructor
  · rw [same]
    exact h.texts
  · rw [same]
    exact h.distinct

theorem HasTextKeys.perm (h : HasTextKeys es) (order : es.Perm fs) : HasTextKeys fs where
  texts k mem := h.texts k ((order.map _).mem_iff.mpr mem)
  distinct := (order.map _).nodup_iff.mp h.distinct

theorem HasTextKeys.sublist (h : HasTextKeys es) (sub : fs.Sublist es) : HasTextKeys fs where
  texts k mem := h.texts k ((sub.map _).subset mem)
  distinct := h.distinct.sublist (sub.map _)

theorem HasTextKeys.areDistinct (h : HasTextKeys es) : AreDistinct es :=
  areDistinct_of_texts h.texts h.distinct

theorem hasTextKeys_nil : HasTextKeys [] := ⟨nofun, .nil⟩

theorem HasTextKeys.cons {s : String} (h : HasTextKeys es) (new : Key.text s ∉ keysOf es)
    (t : Tree) : HasTextKeys ((.text s, t) :: es) where
  texts := List.forall_mem_cons.mpr ⟨⟨s, rfl⟩, h.texts⟩
  distinct := List.nodup_cons.mpr ⟨new, h.distinct⟩

theorem HasTextKeys.concat {s : String} (h : HasTextKeys es) (new : Key.text s ∉ keysOf es)
    (t : Tree) : HasTextKeys (es ++ [(.text s, t)]) :=
  (h.cons new t).perm (List.perm_append_singleton _ _).symm

end Entries

/-- All mappings in the tree have distinct texts as keys. -/
def Tree.HasTextKeys (t : Tree) : Prop :=
  ∀ es, (Tree.map es).IsIn t → Entries.HasTextKeys es

namespace Tree

theorem hasTextKeys_leaf {t : Tree} (scalar : t.key?.isSome = true) : t.HasTextKeys := by
  intro es inside
  cases inside with
  | self => cases scalar
  | item => cases scalar
  | entry => cases scalar

theorem HasTextKeys.map {es : Entries} (here : Entries.HasTextKeys es)
    (inside : ∀ e ∈ es, e.2.HasTextKeys) : (Tree.map es).HasTextKeys := by
  intro fs there
  cases there with
  | self => exact here
  | entry mem there => exact inside _ mem fs there

end Tree

/-- Two relations between the same items, if one implies the other for these. -/
theorem forall₂_of_mem_both {α β : Type} {R S : α → β → Prop} {xs : List α} {ys : List β}
    (h : List.Forall₂ R xs ys) (imp : ∀ x ∈ xs, ∀ y ∈ ys, R x y → S x y) : List.Forall₂ S xs ys := by
  induction h with
  | nil => exact .nil
  | @cons x y xs ys here _ ih =>
    refine .cons (imp x List.mem_cons_self y List.mem_cons_self here) (ih fun x mem y mem' => ?_)
    exact imp x (List.mem_cons_of_mem _ mem) y (List.mem_cons_of_mem _ mem')

theorem forall₂_of_mem {α β : Type} {R S : α → β → Prop} {xs : List α} {ys : List β}
    (h : List.Forall₂ R xs ys) (imp : ∀ x ∈ xs, ∀ y, R x y → S x y) : List.Forall₂ S xs ys :=
  forall₂_of_mem_both h fun x mem y _ => imp x mem y

/-- Two lists give the same under two functions if they do so item by item. -/
theorem map_eq_map_iff_forall₂ {α β γ : Type} {f : α → γ} {g : β → γ} {xs : List α} {ys : List β} :
    xs.map f = ys.map g ↔ List.Forall₂ (fun x y => f x = g y) xs ys := by
  rw [← List.forall₂_map_right_iff (R := fun x z => f x = z), ← List.forall₂_map_left_iff,
    List.forall₂_eq_eq_eq]

/-- What relates the items of a list to results, and what relates them to other items,
relates these to results as well, if it does so one by one. -/
theorem forall₂_transfer {α β γ δ : Type} {R : α → β → Prop} {P : α → γ → Prop} {Q : β → δ → Prop}
    {S : γ → δ → Prop} {xs : List α} {ys : List β} {us : List γ} (h : List.Forall₂ R xs ys)
    (each : List.Forall₂ P xs us)
    (step : ∀ x ∈ xs, ∀ y u, R x y → P x u → ∃ w, Q y w ∧ S u w) :
    ∃ ws, List.Forall₂ Q ys ws ∧ List.Forall₂ S us ws := by
  induction h generalizing us with
  | nil =>
    cases each
    exact ⟨[], .nil, .nil⟩
  | cons here _ ih =>
    cases each with
    | cons first others =>
      obtain ⟨w, result, same⟩ := step _ List.mem_cons_self _ _ here first
      obtain ⟨ws, done, related⟩ := ih others fun x mem => step x (List.mem_cons_of_mem _ mem)
      exact ⟨w :: ws, .cons result done, .cons same related⟩

/-! ### The relation -/

namespace Tree

mutual

/-- The second tree is the first one, with entries in another order wherever these are
free to be reordered. -/
def ReorderedBy (free : Entries → Prop) : Tree → Tree → Prop
  | .list ts, u => ∃ us, u = .list us ∧ ReorderedItems free ts us
  | .map es, u => ∃ fs gs, u = .map gs ∧ ReorderedValues free es fs ∧
      (fs = gs ∨ fs.Perm gs ∧ free fs)
  | t, u => u.key? = t.key?

/-- The two lists are related item by item. -/
def ReorderedItems (free : Entries → Prop) : List Tree → List Tree → Prop
  | [], us => us = []
  | t :: ts, us => ∃ v vs, us = v :: vs ∧ ReorderedBy free t v ∧ ReorderedItems free ts vs

/-- The two mappings have the same keys in the same order, with related values. -/
def ReorderedValues (free : Entries → Prop) : Entries → Entries → Prop
  | [], fs => fs = []
  | (k, t) :: es, fs => ∃ v gs, fs = (k, v) :: gs ∧ ReorderedBy free t v ∧
      ReorderedValues free es gs

end

/-- The second tree is the first one up to the order of entries. -/
def Reordered (t u : Tree) : Prop := ReorderedBy (fun _ => True) t u

/-- The second tree is the first one up to the order of entries whose keys are
distinct texts. -/
abbrev Permuted (t u : Tree) : Prop := ReorderedBy Entries.HasTextKeys t u

variable {free : Entries → Prop} {t u : Tree}

theorem reorderedItems_iff {ts us : List Tree} :
    ReorderedItems free ts us ↔ List.Forall₂ (ReorderedBy free) ts us := by
  induction ts generalizing us with
  | nil => rw [ReorderedItems, List.forall₂_nil_left_iff]
  | cons t ts ih =>
    rw [ReorderedItems, List.forall₂_cons_left_iff]
    constructor
    · rintro ⟨v, vs, rfl, here, there⟩
      exact ⟨v, vs, here, ih.mp there, rfl⟩
    · rintro ⟨v, vs, here, there, rfl⟩
      exact ⟨v, vs, rfl, here, ih.mpr there⟩

/-- Two entries have the same key and related values. -/
def SameEntry (free : Entries → Prop) (e f : Key × Tree) : Prop :=
  e.1 = f.1 ∧ ReorderedBy free e.2 f.2

theorem reorderedValues_iff {es fs : Entries} :
    ReorderedValues free es fs ↔ List.Forall₂ (SameEntry free) es fs := by
  induction es generalizing fs with
  | nil => rw [ReorderedValues, List.forall₂_nil_left_iff]
  | cons e es ih =>
    obtain ⟨k, t⟩ := e
    rw [ReorderedValues, List.forall₂_cons_left_iff]
    constructor
    · rintro ⟨v, gs, rfl, here, there⟩
      exact ⟨(k, v), gs, ⟨rfl, here⟩, ih.mp there, rfl⟩
    · rintro ⟨⟨k', v⟩, gs, ⟨rfl, here⟩, there, rfl⟩
      exact ⟨v, gs, rfl, here, ih.mpr there⟩

end Tree

/-- The entries are those of two mappings that are the same up to reordering. -/
def Entries.ReorderedBy (free : Entries → Prop) (es gs : Entries) : Prop :=
  ∃ fs, List.Forall₂ (Tree.SameEntry free) es fs ∧ (fs = gs ∨ fs.Perm gs ∧ free fs)

theorem Entries.ReorderedBy.length_eq {free : Entries → Prop} {es gs : Entries}
    (h : Entries.ReorderedBy free es gs) : gs.length = es.length := by
  obtain ⟨fs, values, order⟩ := h
  rcases order with rfl | ⟨order, -⟩
  · exact values.length_eq.symm
  · rw [← order.length_eq, values.length_eq]

/-- The entries are those of two mappings that are the same up to reordering mappings
whose keys are distinct texts. -/
abbrev Entries.Permuted (es gs : Entries) : Prop := Entries.ReorderedBy Entries.HasTextKeys es gs

namespace Tree

variable {free : Entries → Prop} {t u : Tree}

theorem reorderedBy_list_iff {ts : List Tree} : ReorderedBy free (.list ts) u ↔
    ∃ us, u = .list us ∧ List.Forall₂ (ReorderedBy free) ts us := by
  rw [ReorderedBy]
  simp only [reorderedItems_iff]

theorem reorderedBy_map_iff {es : Entries} : ReorderedBy free (.map es) u ↔
    ∃ gs, u = .map gs ∧ Entries.ReorderedBy free es gs := by
  rw [ReorderedBy]
  simp only [reorderedValues_iff, Entries.ReorderedBy]
  constructor
  · rintro ⟨fs, gs, rfl, values, order⟩
    exact ⟨gs, rfl, fs, values, order⟩
  · rintro ⟨gs, rfl, fs, values, order⟩
    exact ⟨fs, gs, rfl, values, order⟩

theorem reorderedBy_leaf_iff (scalar : t.key?.isSome = true) :
    ReorderedBy free t u ↔ u.key? = t.key? := by
  cases t with
  | list => cases scalar
  | map => cases scalar
  | _ => rfl

/-- In either tree the same key stands, if any. -/
theorem ReorderedBy.key?_eq (h : ReorderedBy free t u) : u.key? = t.key? := by
  cases t with
  | list ts =>
    obtain ⟨us, rfl, -⟩ := reorderedBy_list_iff.mp h
    rfl
  | map es =>
    obtain ⟨gs, rfl, -⟩ := reorderedBy_map_iff.mp h
    rfl
  | _ => exact h

/-- Only mappings are related to mappings. -/
theorem ReorderedBy.entries? (h : ReorderedBy free t u) :
    Option.Rel (Entries.ReorderedBy free) t.entries? u.entries? := by
  cases t with
  | map es =>
    obtain ⟨gs, rfl, same⟩ := reorderedBy_map_iff.mp h
    exact .some same
  | list ts =>
    obtain ⟨us, rfl, -⟩ := reorderedBy_list_iff.mp h
    exact .none
  | _ =>
    have key := h.key?_eq
    cases u with
    | map => cases key
    | _ => exact .none

/-- A scalar is related to itself alone, and a reference to those with its id. -/
theorem ReorderedBy.eq_or_ref (h : ReorderedBy free t u) (scalar : t.key?.isSome = true) :
    u = t ∨ ∃ id target target', t = .ref id target ∧ u = .ref id target' := by
  have key := h.key?_eq
  cases t with
  | list => cases scalar
  | map => cases scalar
  | ref id target =>
    cases u with
    | ref id' target' =>
      cases key
      exact .inr ⟨id, target, target', rfl, rfl⟩
    | _ => cases key
  | _ =>
    cases u <;> cases key
    exact .inl rfl

theorem ReorderedBy.isEmpty_eq (h : ReorderedBy free t u) : u.isEmpty = t.isEmpty := by
  cases t with
  | list ts =>
    obtain ⟨us, rfl, items⟩ := reorderedBy_list_iff.mp h
    cases items with
    | nil => rfl
    | cons => rfl
  | map es =>
    obtain ⟨gs, rfl, same⟩ := reorderedBy_map_iff.mp h
    have length : gs.length = es.length := same.length_eq
    rw [isEmpty, isEmpty, Bool.eq_iff_iff, List.isEmpty_iff_length_eq_zero,
      List.isEmpty_iff_length_eq_zero, length]
  | _ =>
    rcases h.eq_or_ref rfl with rfl | ⟨id, target, target', eq, rfl⟩
    · rfl
    · rw [eq]
      rfl

/-- A tree is related to itself. -/
theorem ReorderedBy.refl (free : Entries → Prop) (t : Tree) : ReorderedBy free t t := by
  induction t using Tree.induct with
  | leaf t scalar => exact (reorderedBy_leaf_iff scalar).mpr rfl
  | list ts ih => exact reorderedBy_list_iff.mpr ⟨ts, rfl, List.forall₂_same.mpr ih⟩
  | map es ih =>
    have values : List.Forall₂ (SameEntry free) es es :=
      List.forall₂_same.mpr fun e mem => ⟨rfl, ih e mem⟩
    exact reorderedBy_map_iff.mpr ⟨es, rfl, es, values, .inl rfl⟩

/-- What is related where only some entries may be reordered is so where others may be,
too. -/
theorem ReorderedBy.mono {free' : Entries → Prop}
    (more : ∀ es fs : Entries, (Tree.map es).IsIn t → keysOf fs = keysOf es → free fs → free' fs)
    (h : ReorderedBy free t u) : ReorderedBy free' t u := by
  induction t using Tree.induct generalizing u with
  | leaf t scalar => exact (reorderedBy_leaf_iff scalar).mpr ((reorderedBy_leaf_iff scalar).mp h)
  | list ts ih =>
    obtain ⟨us, rfl, items⟩ := reorderedBy_list_iff.mp h
    refine reorderedBy_list_iff.mpr ⟨us, rfl, forall₂_of_mem items fun t mem u => ?_⟩
    exact ih t mem fun es fs inside => more es fs (.item mem inside)
  | map es ih =>
    obtain ⟨gs, rfl, fs, values, order⟩ := reorderedBy_map_iff.mp h
    have keys : keysOf es = keysOf fs := keysOf_of_forall₂ (fun _ _ same => same.1) values
    refine reorderedBy_map_iff.mpr ⟨gs, rfl, fs, ?_, ?_⟩
    · refine forall₂_of_mem values fun e mem f ⟨key, value⟩ => ⟨key, ?_⟩
      exact ih e mem (fun es fs inside => more es fs (.entry mem inside)) value
    · exact order.imp_right fun ⟨order, allowed⟩ => ⟨order, more es fs (.self _) keys.symm allowed⟩

/-- Where all keys are distinct texts any order is one of distinct texts. -/
theorem Reordered.permuted (h : t.Reordered u) (texts : t.HasTextKeys) : t.Permuted u :=
  ReorderedBy.mono (fun es _ inside same _ => (texts es inside).of_keysOf_eq same) h

theorem Permuted.reordered (h : t.Permuted u) : t.Reordered u :=
  ReorderedBy.mono (fun _ _ _ _ _ => trivial) h

end Tree

/-! ### Entries -/

namespace Entries

open DefinitionTree.Tree (SameEntry)

variable {free : Entries → Prop} {es fs gs : Entries} {s : String} {t u : Tree}

theorem keysOf_of_sameEntry (values : List.Forall₂ (SameEntry free) es fs) :
    keysOf fs = keysOf es :=
  (keysOf_of_forall₂ (fun _ _ same => same.1) values).symm

/-- Two values under the same key. -/
theorem Permuted.single (h : t.Permuted u) (k : Key) : Permuted [(k, t)] [(k, u)] :=
  ⟨[(k, u)], .cons ⟨rfl, h⟩ .nil, .inl rfl⟩

/-- Reordered entries have the same keys up to their order. -/
theorem Permuted.keysOf_perm (h : Permuted es gs) : (keysOf es).Perm (keysOf gs) := by
  obtain ⟨fs, values, order⟩ := h
  rw [← keysOf_of_sameEntry values]
  rcases order with rfl | ⟨order, -⟩
  · exact .refl _
  · exact order.map _

/-- What stands under a key has a counterpart under the same key. -/
theorem Permuted.exists_mem (h : Permuted es gs) {e : Key × Tree} (mem : e ∈ es) :
    ∃ g ∈ gs, e.1 = g.1 ∧ e.2.Permuted g.2 := by
  obtain ⟨fs, values, order⟩ := h
  obtain ⟨f, there, same⟩ := exists_of_forall₂ values.flip mem
  refine ⟨f, ?_, same⟩
  rcases order with rfl | ⟨order, -⟩
  · exact there
  · exact order.mem_iff.mp there

/-! ### Looking up -/

theorem get?_of_sameEntry (k : Key) (values : List.Forall₂ (SameEntry free) es fs) :
    Option.Rel (Tree.ReorderedBy free) (get? k es) (get? k fs) := by
  induction values with
  | nil => exact .none
  | @cons e f es fs here _ ih =>
    obtain ⟨k', t⟩ := e
    obtain ⟨k'', u⟩ := f
    obtain ⟨rfl, here⟩ := here
    rw [get?, get?]
    split
    · exact .some here
    · exact ih

/-- Among distinct texts the order does not matter. -/
theorem get?_of_perm (h : HasTextKeys fs) (order : fs.Perm gs) (s : String) :
    Entries.get? (.text s) fs = Entries.get? (.text s) gs := by
  rcases found : Entries.get? (.text s) gs with - | t
  · refine get?_eq_none fun mem => ?_
    have there := has_iff.mpr ((order.map _).mem_iff.mp mem)
    rw [has, found] at there
    cases there
  · exact get?_of_mem h.distinct (order.mem_iff.mpr (mem_of_get? found))

theorem Permuted.get? (h : Permuted es gs) (s : String) :
    Option.Rel Tree.Permuted (Entries.get? (.text s) es) (Entries.get? (.text s) gs) := by
  obtain ⟨fs, values, order⟩ := h
  have first := get?_of_sameEntry (.text s) values
  rcases order with rfl | ⟨order, texts⟩
  · exact first
  · rwa [get?_of_perm texts order] at first

theorem Permuted.has_eq (h : Permuted es gs) (s : String) :
    has (.text s) gs = has (.text s) es :=
  has_eq_of_perm h.keysOf_perm s

/-! ### Taking out and putting in -/

/-- What is kept may depend on keys, and on values as far as they are the same. -/
theorem Permuted.filter (h : Permuted es gs) {p : Key × Tree → Bool}
    (same : ∀ e f, SameEntry HasTextKeys e f → p e = p f) :
    Permuted (es.filter p) (gs.filter p) := by
  obtain ⟨fs, values, order⟩ := h
  refine ⟨fs.filter p, ?_, ?_⟩
  · exact List.rel_filter (fun {e f} here => iff_of_eq (congrArg (· = true) (same e f here))) values
  · rcases order with rfl | ⟨order, texts⟩
    · exact .inl rfl
    · exact .inr ⟨order.filter p, texts.sublist List.filter_sublist⟩

theorem Permuted.without (h : Permuted es gs) (ks : List Key) :
    Permuted (without ks es) (without ks gs) :=
  h.filter fun e f same => by rw [same.1]

/-- An entry in front, under a text that is new. -/
theorem Permuted.cons (h : Permuted es gs) (value : t.Permuted u)
    (new : Key.text s ∉ keysOf es) : Permuted ((.text s, t) :: es) ((.text s, u) :: gs) := by
  obtain ⟨fs, values, order⟩ := h
  refine ⟨(.text s, u) :: fs, .cons ⟨rfl, value⟩ values, ?_⟩
  rcases order with rfl | ⟨order, texts⟩
  · exact .inl rfl
  · exact .inr ⟨order.cons _, texts.cons (by rwa [keysOf_of_sameEntry values]) u⟩

/-- Reordered entries stay so with new entries behind them, if these keep the keys
distinct. -/
theorem Permuted.append (h : Permuted es gs) (new : Entries)
    (texts : HasTextKeys es → HasTextKeys (es ++ new)) : Permuted (es ++ new) (gs ++ new) := by
  obtain ⟨fs, values, order⟩ := h
  have keys := keysOf_of_sameEntry values
  refine ⟨fs ++ new, List.rel_append values ?_, ?_⟩
  · exact List.forall₂_same.mpr fun e _ => ⟨rfl, .refl _ e.2⟩
  · rcases order with rfl | ⟨order, distinct⟩
    · exact .inl rfl
    · have all := texts (distinct.of_keysOf_eq keys.symm)
      exact .inr ⟨order.append_right new, all.of_keysOf_eq (by simp [keys])⟩

theorem set_of_sameEntry (k : Key) (values : List.Forall₂ (SameEntry free) es fs)
    (value : Tree.ReorderedBy free t u) :
    List.Forall₂ (SameEntry free) (set k t es) (set k u fs) := by
  induction values with
  | nil => exact .cons ⟨rfl, value⟩ .nil
  | @cons e f es fs here there ih =>
    obtain ⟨k', t'⟩ := e
    obtain ⟨k'', u'⟩ := f
    obtain ⟨rfl, here⟩ := here
    rw [set, set]
    split
    · exact .cons ⟨rfl, value⟩ there
    · exact .cons ⟨rfl, here⟩ ih

theorem overlay_of_sameEntry {xs ys : Entries} (start : List.Forall₂ (SameEntry free) xs ys)
    (values : List.Forall₂ (SameEntry free) es fs) :
    List.Forall₂ (SameEntry free) (Entries.overlay xs es) (Entries.overlay ys fs) := by
  induction values generalizing xs ys with
  | nil => exact start
  | @cons e f es fs here _ ih =>
    obtain ⟨k, t⟩ := e
    obtain ⟨k', u⟩ := f
    obtain ⟨rfl, here⟩ := here
    exact ih (set_of_sameEntry k start here)

theorem Permuted.overlay (h : Permuted es gs) (value : t.Permuted u) (s : String) :
    Permuted (Entries.overlay [(.text s, t)] es) (Entries.overlay [(.text s, u)] gs) := by
  obtain ⟨fs, values, order⟩ := h
  refine ⟨Entries.overlay [(.text s, u)] fs,
    overlay_of_sameEntry (.cons ⟨rfl, value⟩ .nil) values, ?_⟩
  rcases order with rfl | ⟨order, texts⟩
  · exact .inl rfl
  · rw [overlay_single texts.areDistinct, overlay_single (texts.perm order).areDistinct,
      get?_of_perm texts order]
    refine .inr ⟨(order.filter _).cons _, (texts.sublist List.filter_sublist).cons ?_ _⟩
    intro mem
    obtain ⟨⟨k, v⟩, there, rfl⟩ := List.mem_map.mp mem
    simpa using (List.mem_filter.mp there).2

/-! ### Something done to each entry -/

/-- Related entries are taken to related ones, if each value is.  First the values are
exchanged, and then the order. -/
theorem Permuted.transfer {P Q : Key → Tree → Tree → Prop} (h : Permuted es gs) {us : Entries}
    (each : List.Forall₂ (fun e u => e.1 = u.1 ∧ P e.1 e.2 u.2) es us)
    (step : ∀ e ∈ es, ∀ f u, e.2.Permuted f → P e.1 e.2 u → ∃ w, Q e.1 f w ∧ u.Permuted w) :
    ∃ ws : Entries, List.Forall₂ (fun g w => g.1 = w.1 ∧ Q g.1 g.2 w.2) gs ws ∧
      Permuted us ws := by
  obtain ⟨fs, values, order⟩ := h
  obtain ⟨vs, done, related⟩ : ∃ vs : Entries,
      List.Forall₂ (fun f v => f.1 = v.1 ∧ Q f.1 f.2 v.2) fs vs ∧
        List.Forall₂ (SameEntry HasTextKeys) us vs := by
    refine forall₂_transfer values each ?_
    rintro ⟨k, t⟩ mem ⟨k', t'⟩ ⟨k'', u⟩ ⟨rfl, here⟩ ⟨rfl, first⟩
    obtain ⟨w, result, same⟩ := step _ mem t' u here first
    exact ⟨(k, w), ⟨rfl, result⟩, rfl, same⟩
  have keys : keysOf fs = keysOf vs := keysOf_of_forall₂ (fun _ _ same => same.1) done
  rcases order with rfl | ⟨order, texts⟩
  · exact ⟨vs, done, vs, related, .inl rfl⟩
  · obtain ⟨ws, result, back⟩ := List.perm_comp_forall₂ order.symm done
    exact ⟨ws, result, vs, related, .inr ⟨back.symm, texts.of_keysOf_eq keys.symm⟩⟩

/-- In particular something that is computed from each value. -/
theorem Permuted.map (h : Permuted es gs) {F : Key → Tree → Tree}
    (step : ∀ e ∈ es, ∀ f, e.2.Permuted f → (F e.1 e.2).Permuted (F e.1 f)) :
    Permuted (es.map fun e => (e.1, F e.1 e.2)) (gs.map fun e => (e.1, F e.1 e.2)) := by
  have each : List.Forall₂ (fun e u => e.1 = u.1 ∧ u.2 = F e.1 e.2) es
      (es.map fun e => (e.1, F e.1 e.2)) :=
    List.forall₂_map_right_iff.mpr (List.forall₂_same.mpr fun _ _ => ⟨rfl, rfl⟩)
  obtain ⟨ws, computed, same⟩ := h.transfer
    (P := fun k t w => w = F k t) (Q := fun k t w => w = F k t) each
    fun e mem f u value eq => ⟨F e.1 f, rfl, eq ▸ step e mem f value⟩
  have all : ws = gs.map fun e => (e.1, F e.1 e.2) := by
    clear same h
    induction computed with
    | nil => rfl
    | @cons g w gs ws here _ ih =>
      obtain ⟨k, v⟩ := w
      obtain ⟨rfl, rfl⟩ := here
      rw [ih, List.map_cons]
  rwa [all] at same

end Entries

namespace Tree

variable {t u : Tree}

/-- The relation can be read from either side. -/
theorem Permuted.symm (h : t.Permuted u) : u.Permuted t := by
  induction t using Tree.induct generalizing u with
  | leaf t scalar =>
    have key := h.key?_eq
    exact (reorderedBy_leaf_iff (by rwa [key])).mpr key.symm
  | list ts ih =>
    obtain ⟨us, rfl, items⟩ := reorderedBy_list_iff.mp h
    refine reorderedBy_list_iff.mpr ⟨ts, rfl, List.Forall₂.flip ?_⟩
    exact forall₂_of_mem items fun t mem u same => ih t mem same
  | map es ih =>
    obtain ⟨gs, rfl, fs, values, order⟩ := reorderedBy_map_iff.mp h
    have back : List.Forall₂ (SameEntry Entries.HasTextKeys) fs es :=
      (forall₂_of_mem values fun e mem f ⟨key, value⟩ =>
        (⟨key.symm, ih e mem value⟩ : SameEntry Entries.HasTextKeys f e)).flip
    refine reorderedBy_map_iff.mpr ⟨es, rfl, ?_⟩
    rcases order with rfl | ⟨order, texts⟩
    · exact ⟨es, back, .inl rfl⟩
    · obtain ⟨hs, values', order'⟩ := List.perm_comp_forall₂ order.symm back
      refine ⟨hs, values', .inr ⟨order', ?_⟩⟩
      exact (texts.perm order).of_keysOf_eq (Entries.keysOf_of_sameEntry values')

/-- Whatever stands in the one tree has a counterpart in the other one. -/
theorem Permuted.exists_isIn {v : Tree} (inside : v.IsIn u) (h : t.Permuted u) :
    ∃ w : Tree, w.IsIn t ∧ w.Permuted v := by
  induction inside generalizing t with
  | self => exact ⟨t, .self t, h⟩
  | @item u us mem _ ih =>
    obtain ⟨ts, rfl, items⟩ := reorderedBy_list_iff.mp h.symm
    obtain ⟨t, there, same⟩ := exists_of_forall₂ items.flip mem
    obtain ⟨w, inside, found⟩ := ih (Permuted.symm same)
    exact ⟨w, .item there inside, found⟩
  | @entry f fs mem _ ih =>
    obtain ⟨es, rfl, same⟩ := reorderedBy_map_iff.mp h.symm
    obtain ⟨e, there, -, value⟩ := Entries.Permuted.exists_mem same mem
    obtain ⟨w, inside, found⟩ := ih (Permuted.symm value)
    exact ⟨w, .entry there inside, found⟩

/-! ### Trees with no order -/

/-- There is just one order of what the tree holds: no mapping in it has two entries,
and nothing in it was resolved. -/
structure IsSteady (t : Tree) : Prop where
  single : ∀ es, (Tree.map es).IsIn t → es.length ≤ 1
  plain : ∀ id target, ¬(Tree.ref id target).IsIn t

theorem IsSteady.of_isIn (h : t.IsSteady) (inside : u.IsIn t) : u.IsSteady where
  single es there := h.single es (there.trans inside)
  plain id target there := h.plain id target (there.trans inside)

theorem IsSteady.eq (h : t.IsSteady) (same : t.Permuted u) : t = u := by
  induction t using Tree.induct generalizing u with
  | leaf t scalar =>
    rcases same.eq_or_ref scalar with eq | ⟨id, target, _, rfl, -⟩
    · exact eq.symm
    · exact absurd (.self _) (h.plain id target)
  | list ts ih =>
    obtain ⟨us, rfl, items⟩ := reorderedBy_list_iff.mp same
    have eq : List.Forall₂ (· = ·) ts us :=
      forall₂_of_mem items fun t mem u => ih t mem (h.of_isIn (.item mem (.self t)))
    rw [List.forall₂_eq_eq_eq] at eq
    rw [eq]
  | map es ih =>
    obtain ⟨gs, rfl, fs, values, order⟩ := reorderedBy_map_iff.mp same
    have eq : List.Forall₂ (· = ·) es fs := forall₂_of_mem values fun e mem f same =>
      Prod.ext same.1 (ih e mem (h.of_isIn (.entry mem (.self e.2))) same.2)
    rw [List.forall₂_eq_eq_eq] at eq
    subst eq
    rcases order with rfl | ⟨order, -⟩
    · rfl
    · -- there is nothing to exchange
      have few := h.single es (.self _)
      rcases es with - | ⟨e, - | ⟨f, es⟩⟩
      · rw [List.nil_perm.mp order]
      · rw [List.singleton_perm.mp order]
      · simp at few

end Tree

end DefinitionTree
