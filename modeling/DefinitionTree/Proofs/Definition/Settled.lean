/-
DefinitionTree/Proofs/Definition/Settled.lean

Instances that a fetch leaves as they are.

A fetch gives an instance another value only if it holds a definition that can be
read and that something is left of; then the content takes the place of the
definition among the entries of the instance.  So an instance is settled if it
holds no definition as a text, or one that cannot be read, or one of which nothing
is left, or one that would give it just the value it has.

An instance need not be settled once it was fetched: if there is a text under the
key of definitions in what its definition holds, that text looks like a definition
that was not read yet.  Otherwise it is settled for good, wherever the texts in
its definition are looked up.

Main definitions and statements:

* `Hooks.IsSettled`: settled instances;
* `Hooks.fetched_cases`, `Hooks.fetched_eq_self_iff`: what a fetch does;
* `Hooks.isSettled_of_fetched`: which instances are settled after one.
-/
import DefinitionTree.Definition.Hooks
import DefinitionTree.Proofs.Canonical.Lookup
import DefinitionTree.Proofs.Xml.Element

namespace DefinitionTree

/-! ### Journals -/

namespace Journal

variable {α β : Type}

/-- What is done for each item succeeds if it does for all of them. -/
theorem outcome_mapM_eq_ok_iff {f : α → Journal β} {xs : List α} {ys : List β} :
    (xs.mapM f).outcome = .ok ys ↔ List.Forall₂ (fun x y => (f x).outcome = .ok y) xs ys := by
  -- the loop collects in reverse, so the induction is over what has been collected
  have loop (done : List β) (ys : List β) : (List.mapM.loop f xs done).outcome = .ok ys ↔
      ∃ zs, List.Forall₂ (fun x y => (f x).outcome = .ok y) xs zs ∧ ys = done.reverse ++ zs := by
    induction xs generalizing done with
    | nil =>
      rw [List.mapM.loop, outcome_pure]
      constructor
      · rintro ⟨⟩
        exact ⟨[], .nil, by simp⟩
      · rintro ⟨zs, none, rfl⟩
        cases none
        simp
    | cons x xs ih =>
      rw [List.mapM.loop, outcome_bind]
      rcases here : (f x).outcome with e | y
      · refine iff_of_false (by rintro ⟨⟩) ?_
        rintro ⟨zs, all, -⟩
        cases all with
        | cons first _ =>
          rw [here] at first
          cases first
      · show (List.mapM.loop f xs (y :: done)).outcome = _ ↔ _
        rw [ih]
        constructor
        · rintro ⟨zs, all, rfl⟩
          exact ⟨y :: zs, .cons here all, by simp⟩
        · rintro ⟨zs, all, rfl⟩
          cases all with
          | cons first all =>
            rw [here] at first
            cases first
            exact ⟨_, all, by simp⟩
  rw [List.mapM, loop]
  simp

/-- What succeeds is not caught. -/
theorem outcome_tryCatch_of_ok {j : Journal α} {a : α} (done : j.outcome = .ok a)
    (handle : Failure → Journal α) : (tryCatch j handle).outcome = .ok a := by
  obtain ⟨notes, outcome⟩ := j
  cases done
  rfl

/-- What fails is. -/
theorem outcome_tryCatch_of_error {j : Journal α} {e : Failure} (failed : j.outcome = .error e)
    (handle : Failure → Journal α) : (tryCatch j handle).outcome = (handle e).outcome := by
  obtain ⟨notes, outcome⟩ := j
  cases failed
  rfl

end Journal

/-! ### One instance -/

/-- What an instance holds after its definition came out as something, or as
nothing. -/
def Kind.merged (kind : Kind) (value : Entries) : Option Tree → Except Failure Entries
  | none => .ok value
  | some (.map es) => .ok ((kind.remainder value).overlay (Entries.dropField "name" es))
  | some _ => .error .notAMapping

namespace Hooks

variable {h : Hooks} {kind : Kind} {lookup : Lookup} {i j : Instance} {s : String}

/-- An instance without a definition is left alone. -/
theorem outcome_fetchInstance_none (none : definitionText? i.value = none) :
    (fetchInstance h.settings (some lookup) kind i).outcome = .ok i.value := by
  rw [fetchInstance, none]
  rfl

/-- What comes of the definition of an instance is merged with the rest of its value. -/
theorem outcome_fetchInstance_some (h : Hooks) (kind : Kind) (lookup : Lookup)
    (text : definitionText? i.value = some s) :
    (fetchInstance h.settings (some lookup) kind i).outcome
      = (canonicalDefinition h.settings (some lookup) kind i s).outcome >>= kind.merged i.value := by
  rw [fetchInstance, text]
  simp only [Journal.outcome_bind]
  refine bind_congr_ok fun t _ => ?_
  rcases t with - | t
  · rfl
  · cases t <;> rfl

/-- What a fetch gives an instance takes the place of its value. -/
theorem outcome_fetched_of_ok {value : Entries}
    (done : (fetchInstance h.settings (some lookup) kind i).outcome = .ok value) :
    (h.fetched kind lookup i).outcome = .ok { i with value } := by
  rw [fetched, Journal.outcome_bind, Journal.outcome_tryCatch_of_ok]
  rotate_left
  · rw [Journal.outcome_bind, done]
    rfl
  · rfl

/-- A definition that cannot be read is kept; any other failure is one of the
hook. -/
theorem outcome_fetched_of_error {e : Failure}
    (failed : (fetchInstance h.settings (some lookup) kind i).outcome = .error e) :
    (h.fetched kind lookup i).outcome = if e.isUnreadable then .ok i else .error e := by
  rw [fetched, Journal.outcome_bind, Journal.outcome_tryCatch_of_error]
  rotate_left
  · rw [Journal.outcome_bind, failed]
    rfl
  · cases e.isUnreadable <;> rfl

/-! ### Settled instances -/

/-- A fetch leaves the instance as it is. -/
inductive IsSettled (h : Hooks) (kind : Kind) (lookup : Lookup) (i : Instance) : Prop
  | parsed (none : definitionText? i.value = none)
  | unreadable {s : String} {e : Failure} (text : definitionText? i.value = some s)
    (failed : (canonicalDefinition h.settings (some lookup) kind i s).outcome = .error e)
    (kept : e.isUnreadable = true)
  | emptied {s : String} (text : definitionText? i.value = some s)
    (gone : (canonicalDefinition h.settings (some lookup) kind i s).outcome = .ok none)
  | same {s : String} {es : Entries} (text : definitionText? i.value = some s)
    (left : (canonicalDefinition h.settings (some lookup) kind i s).outcome = .ok (some (.map es)))
    (same : (kind.remainder i.value).overlay (Entries.dropField "name" es) = i.value)

/-- What a fetch can do with an instance: it stays as it is, or the content of its
definition is merged into its value. -/
theorem fetched_cases (done : (h.fetched kind lookup i).outcome = .ok j) :
    (j = i ∧ h.IsSettled kind lookup i) ∨ ∃ s es, definitionText? i.value = some s
      ∧ (canonicalDefinition h.settings (some lookup) kind i s).outcome = .ok (some (.map es))
      ∧ j = { i with value := (kind.remainder i.value).overlay (Entries.dropField "name" es) } := by
  rcases text : definitionText? i.value with - | s
  · rw [outcome_fetched_of_ok (outcome_fetchInstance_none text)] at done
    cases done
    exact .inl ⟨rfl, .parsed text⟩
  have outcome := outcome_fetchInstance_some h kind lookup text
  rcases canonical : (canonicalDefinition h.settings (some lookup) kind i s).outcome with e | t
  · rw [canonical] at outcome
    rw [outcome_fetched_of_error outcome] at done
    split at done
    · rename_i kept
      cases done
      exact .inl ⟨rfl, .unreadable text canonical kept⟩
    · cases done
  · rw [canonical] at outcome
    rcases t with - | t
    · rw [outcome_fetched_of_ok outcome] at done
      cases done
      exact .inl ⟨rfl, .emptied text canonical⟩
    · cases t with
      | map es =>
        rw [outcome_fetched_of_ok outcome] at done
        cases done
        exact .inr ⟨s, es, rfl, canonical, rfl⟩
      | _ =>
        rw [outcome_fetched_of_error outcome] at done
        cases done

/-- The instances that a fetch leaves as they are are the settled ones. -/
theorem fetched_eq_self_iff :
    (h.fetched kind lookup i).outcome = .ok i ↔ h.IsSettled kind lookup i := by
  constructor
  · intro done
    rcases fetched_cases done with ⟨-, settled⟩ | ⟨s, es, text, left, eq⟩
    · exact settled
    · exact .same text left (congrArg Instance.value eq).symm
  · intro settled
    cases settled with
    | parsed none => exact outcome_fetched_of_ok (outcome_fetchInstance_none none)
    | unreadable text failed kept =>
      have outcome := outcome_fetchInstance_some h kind lookup text
      rw [failed] at outcome
      rw [outcome_fetched_of_error outcome, if_pos kept]
    | emptied text gone =>
      have outcome := outcome_fetchInstance_some h kind lookup text
      rw [gone] at outcome
      exact outcome_fetched_of_ok outcome
    | same text left same =>
      have outcome := outcome_fetchInstance_some h kind lookup text
      rw [left] at outcome
      have done := outcome_fetched_of_ok outcome
      rw [same] at done
      exact done

/-- Whatever becomes of an instance, it stays one of its kind. -/
theorem typeName_of_fetched (done : (h.fetched kind lookup i).outcome = .ok j) :
    j.typeName = i.typeName := by
  rcases fetched_cases done with ⟨rfl, -⟩ | ⟨s, es, -, -, rfl⟩
  · rfl
  · rfl

/-! ### Instances after a fetch -/

end Hooks

/-- Whether a definition can be read and whether anything is left of it do not
depend on where texts are looked up. -/
theorem canonicalDefinition_consulting (settings : Settings) (l l' : Option Lookup) (kind : Kind)
    (i : Instance) (s : String) :
    SameUnder (Option.map (Tree.mapLeaves .blank)) (canonicalDefinition settings l kind i s).outcome
      (canonicalDefinition settings l' kind i s).outcome := by
  rw [canonicalDefinition, canonicalDefinition, Journal.outcome_bind, Journal.outcome_bind]
  refine (SameUnder.refl id _).bind ?_
  rintro es es' rfl
  exact Normalizer.normalize_consulting
    (Normalizer.agree_blank ⟨kind.schema, none, settings⟩ l l' _) i.id

namespace Hooks

variable {h : Hooks} {kind : Kind} {lookup : Lookup} {i j : Instance}

/-- Wherever texts are looked up, the definition of the instance leaves no text
under the key of definitions. -/
def IsPlain (h : Hooks) (kind : Kind) (i : Instance) : Prop :=
  ∀ lookup s es, definitionText? i.value = some s →
    (canonicalDefinition h.settings (some lookup) kind i s).outcome = .ok (some (.map es)) →
    ∀ u, (definitionKey, .text u) ∉ es

theorem definitionText?_eq_none {es : Entries} (no : ∀ u, (definitionKey, .text u) ∉ es) :
    definitionText? es = none := by
  unfold definitionText?
  split
  · rename_i u found
    exact absurd (Entries.mem_of_get? found) (no u)
  · rfl

/-- Once its definition is merged there is no definition left. -/
theorem definitionText?_merged (kind : Kind) (value : Entries) {es : Entries}
    (plain : ∀ u, (definitionKey, .text u) ∉ es) :
    definitionText? ((kind.remainder value).overlay (Entries.dropField "name" es)) = none := by
  refine definitionText?_eq_none fun u mem => ?_
  rcases Entries.mem_of_mem_overlay_text mem with mem | mem
  · have kept := (List.mem_filter.mp mem).2
    simp [definitionKey] at kept
  · exact plain u (List.mem_of_mem_filter mem)

/-- After a fetch such an instance is settled for good. -/
theorem isSettled_of_fetched (plain : h.IsPlain kind i)
    (done : (h.fetched kind lookup i).outcome = .ok j) (lookup' : Lookup) :
    h.IsSettled kind lookup' j := by
  -- another lookup makes no difference to what can be read and what is left
  have alike (s : String) :=
    (canonicalDefinition_consulting h.settings (some lookup) (some lookup') kind i s).cases
  rcases fetched_cases done with ⟨rfl, settled⟩ | ⟨s, es, text, left, rfl⟩
  · cases settled with
    | parsed none => exact .parsed none
    | @unreadable s e text failed kept =>
      rcases alike s with ⟨e', eq, eq'⟩ | ⟨t, t', eq, -, -⟩
      · cases eq.symm.trans failed
        exact .unreadable text eq' kept
      · cases eq.symm.trans failed
    | @emptied s text gone =>
      rcases alike s with ⟨e', eq, -⟩ | ⟨t, t', eq, eq', same⟩
      · cases eq.symm.trans gone
      · cases eq.symm.trans gone
        exact .emptied text (eq'.trans (congrArg Except.ok (Option.map_eq_none_iff.mp same.symm)))
    | @same s es text left same =>
      -- the value would hold a definition, and by its content it holds none
      have none := definitionText?_merged kind j.value (plain lookup s es text left)
      rw [same, text] at none
      cases none
  · exact .parsed (definitionText?_merged kind i.value (plain lookup s es text left))

end Hooks

end DefinitionTree
