/-
DefinitionTree/Proofs/Canonical/Lookup.lean

What a lookup has to do with.

A lookup decides which texts become references, and nothing else.  So whatever
one reads off the canonical form of a value by a function of its leaves does not
depend on the lookup, as long as the function does not tell a text from the
reference that it becomes.  Failures are among what does not depend on it, and so
is whether anything is left.

Main definitions and statements:

* `Normalizer.consulting`: normalizing with another lookup;
* `Normalizer.walk_consulting`: the outcomes of two such runs;
* `Normalizer.normalize_consulting`: the same for whole definitions.
-/
import DefinitionTree.Proofs.Canonical.Step

namespace DefinitionTree

/-! ### Outcomes under a function -/

/-- Two outcomes are the same as far as a function of what was made tells. -/
def SameUnder {α β : Type} (g : α → β) (x y : Except Failure α) : Prop := g <$> x = g <$> y

namespace SameUnder

variable {α β : Type} {g : α → β} {x y : Except Failure α}

theorem refl (g : α → β) (x : Except Failure α) : SameUnder g x x := rfl

theorem of_error (e : Failure) : SameUnder g (.error e) (.error e) := rfl

theorem of_ok {a b : α} (h : g a = g b) : SameUnder g (.ok a) (.ok b) := congrArg Except.ok h

/-- What fails, fails in the same way. -/
theorem cases (h : SameUnder g x y) :
    (∃ e, x = .error e ∧ y = .error e) ∨ ∃ a b, x = .ok a ∧ y = .ok b ∧ g a = g b := by
  rcases x with e | a <;> rcases y with e' | b
  · cases h
    exact .inl ⟨e, rfl, rfl⟩
  · cases h
  · cases h
  · exact .inr ⟨a, b, rfl, rfl, Except.ok.inj h⟩

/-- What goes on in the same way from what is the same ends the same. -/
theorem bind {γ δ : Type} {k : γ → δ} {p q : α → Except Failure γ} (h : SameUnder g x y)
    (next : ∀ a b, g a = g b → SameUnder k (p a) (q b)) : SameUnder k (x >>= p) (y >>= q) := by
  rcases h.cases with ⟨e, rfl, rfl⟩ | ⟨a, b, rfl, rfl, same⟩
  · rfl
  · exact next a b same

/-- Outcomes that `g` does not tell apart are mapped by `p` to outcomes that `k` does not
tell apart, if `k` after `p` sees no more than `g`. -/
theorem map {γ δ : Type} {k : γ → δ} {p : α → γ} (h : SameUnder g x y)
    (next : ∀ a b, g a = g b → k (p a) = k (p b)) : SameUnder k (p <$> x) (p <$> y) := by
  rcases h.cases with ⟨e, rfl, rfl⟩ | ⟨a, b, rfl, rfl, same⟩
  · rfl
  · exact .of_ok (next a b same)

end SameUnder

/-! ### Two visitors -/

section

variable {v w : Visitor} {g : Graph} {type : Option TypeRef} {f : LeafMap}

/-- Items that come out the same make lists that do. -/
theorem Visitor.walkItems_same {place : ElementId} {ts : List Tree}
    (each : ∀ t ∈ ts, ∀ place,
      SameUnder (Tree.mapLeaves f) (v.walk g type place t).outcome (w.walk g type place t).outcome)
    (index : Nat) :
    SameUnder (Tree.mapItems f) (v.walkItems g type place index ts).outcome
      (w.walkItems g type place index ts).outcome := by
  induction ts generalizing index with
  | nil =>
    rw [walkItems_nil, walkItems_nil]
    exact .refl _ _
  | cons t ts ih =>
    obtain ⟨here, there⟩ := List.forall_mem_cons.mp each
    rw [outcome_walkItems_cons, outcome_walkItems_cons]
    refine (here (place.item index)).bind fun u u' same => ?_
    refine (ih there (index + 1)).bind fun us us' others => .of_ok ?_
    rw [Tree.isEmpty_of_mapLeaves_eq same]
    cases u'.isEmpty
    · exact List.cons_eq_cons.mpr ⟨same, others⟩
    · exact others

/-- Values that come out the same make mappings that do. -/
theorem Visitor.walkEntries_same {place : ElementId} {es : Entries}
    (each : ∀ e ∈ es, ∀ place, SameUnder (Tree.mapLeaves f)
      (v.walk g (g.fieldType type e.1) place e.2).outcome
      (w.walk g (g.fieldType type e.1) place e.2).outcome) :
    SameUnder (Tree.mapValues f) (v.walkEntries g type place es).outcome
      (w.walkEntries g type place es).outcome := by
  induction es with
  | nil =>
    rw [walkEntries_nil, walkEntries_nil]
    exact .refl _ _
  | cons e es ih =>
    obtain ⟨k, t⟩ := e
    obtain ⟨here, there⟩ := List.forall_mem_cons.mp each
    rw [outcome_walkEntries_cons, outcome_walkEntries_cons]
    refine (here (place.entry k)).bind fun u u' same => ?_
    refine (ih there).bind fun us us' others => .of_ok ?_
    rw [Tree.isEmpty_of_mapLeaves_eq same]
    cases u'.isEmpty
    · exact List.cons_eq_cons.mpr ⟨by rw [same], others⟩
    · exact others

end

/-! ### Two lookups -/

/-- Forgets every text, and what it refers to. -/
def LeafMap.blank : LeafMap where
  apply t :=
    match t with
    | .text _ => .text ""
    | .ref _ _ => .text ""
    | t => t
  isLeaf t scalar := by
    cases t with
    | list => cases scalar
    | map => cases scalar
    | _ => rfl
  null_iff t := by cases t <;> simp

namespace Normalizer

variable {n : Normalizer} {l l' : Option Lookup} {f : LeafMap}

/-- The normalizer with another lookup. -/
def consulting (n : Normalizer) (lookup : Option Lookup) : Normalizer := { n with lookup }

/-- The function does not tell which of two lookups the texts in a value were
looked up in. -/
def Agree (n : Normalizer) (l l' : Option Lookup) (f : LeafMap) (t : Tree) : Prop :=
  ∀ s, t.Holds (· = .text s) →
    f.apply ((n.consulting l).resolved s) = f.apply ((n.consulting l').resolved s)

/-- A function that forgets the texts tells no lookups apart. -/
theorem agree_blank (n : Normalizer) (l l' : Option Lookup) (t : Tree) :
    n.Agree l l' .blank t := by
  intro s _
  rcases (n.consulting l).resolved_cases s with eq | ⟨id, target, eq⟩ <;>
  rcases (n.consulting l').resolved_cases s with eq' | ⟨id', target', eq'⟩ <;>
  rw [eq, eq'] <;> rfl

/-- A lookup does not matter for anything but texts. -/
theorem decode_consulting {type : Option TypeRef} {place : ElementId} {t : Tree}
    (noText : ∀ s, t ≠ .text s) :
    (n.consulting l).decode type place t = (n.consulting l').decode type place t := by
  cases t with
  | text s => exact absurd rfl (noText s)
  | _ => rfl

/-! ### Whole runs -/

/-- **Lookups decide about leaves alone.**  Two runs that differ in the lookup
come out the same under any function that does not tell what a text was made
into. -/
theorem walk_consulting {t : Tree} (agree : n.Agree l l' f t) (type : Option TypeRef)
    (place : ElementId) :
    SameUnder (Tree.mapLeaves f) ((n.consulting l).walk type place t).outcome
      ((n.consulting l').walk type place t).outcome := by
  induction size : t.size using Nat.strongRecOn generalizing t type place with
  | ind size ih =>
    subst size
    rw [outcome_walk, outcome_walk]
    -- only at a text can the two runs take different steps
    by_cases text : ∃ s, t = .text s
    · obtain ⟨s, rfl⟩ := text
      have same := agree s (.leaf rfl rfl)
      rw [decode, decode, outcome_visitText, outcome_visitText]
      rcases (n.consulting l).resolved_cases s with eq | ⟨id, target, eq⟩ <;>
        rcases (n.consulting l').resolved_cases s with eq' | ⟨id', target', eq'⟩ <;>
        (rw [eq, eq'] at same ⊢; exact .of_ok same)
    · have same : (n.consulting l).decode ((n.consulting l).graph.typeAt type place) place t
          = (n.consulting l').decode ((n.consulting l').graph.typeAt type place) place t :=
        decode_consulting fun s eq => text ⟨s, eq⟩
      rw [same]
      rcases decoded : ((n.consulting l').decode ((n.consulting l').graph.typeAt type place) place
        t).outcome with e | u
      · exact .of_error e
      have smaller : u.content < t.size := content_lt_of_decode decoded
      rcases step_of_decode decoded with yields | opens
      · have scalar := yields.isLeaf
        cases u with
        | list => cases scalar
        | map => cases scalar
        | _ => exact .of_ok rfl
      -- whatever is walked next is smaller, and its texts were in `t` already
      have agree {u' : Tree} (size : u'.size < t.size)
          (holds : ∀ p, u'.Holds p → u.Holds p) (type : Option TypeRef) (place : ElementId) :
          SameUnder (Tree.mapLeaves f) ((n.consulting l).walk type place u').outcome
            ((n.consulting l').walk type place u').outcome :=
        ih u'.size size (fun s held => agree s (opens.holds (holds _ held))) type place rfl
      cases u with
      | list ts =>
        show SameUnder _ (Tree.list <$> _) (Tree.list <$> _)
        refine (Visitor.walkItems_same (fun u mem place => ?_) 0).map
          fun us us' same => congrArg Tree.list same
        exact agree (Nat.lt_of_le_of_lt (Tree.size_le_sizeItems mem) smaller)
          (fun _ held => .item mem held) _ place
      | map es =>
        show SameUnder _ (Tree.map <$> _) (Tree.map <$> _)
        refine (Visitor.walkEntries_same fun e mem place => ?_).map
          fun fs fs' same => congrArg Tree.map same
        exact agree (Nat.lt_of_le_of_lt (Tree.size_le_sizeEntries mem) smaller)
          (fun _ held => .entry mem held) _ place
      | _ => cases opens

/-- Two runs over a whole definition that differ in the lookup leave something or nothing
alike, and what they leave comes out the same under `f`. -/
theorem normalize_consulting {t : Tree} (agree : n.Agree l l' f t) (place : ElementId) :
    SameUnder (Option.map (Tree.mapLeaves f)) ((n.consulting l).normalize place t).outcome
      ((n.consulting l').normalize place t).outcome := by
  rw [normalize, normalize, Journal.outcome_bind, Journal.outcome_bind]
  refine (walk_consulting agree _ place).bind fun u u' same => .of_ok ?_
  rw [Tree.isEmpty_of_mapLeaves_eq same]
  cases u'.isEmpty
  · exact congrArg some same
  · rfl

end Normalizer

end DefinitionTree
