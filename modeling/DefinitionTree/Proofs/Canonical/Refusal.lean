/-
DefinitionTree/Proofs/Canonical/Refusal.lean

What normalizing refuses.

Decoding fails for two reasons: at a declared union a list or a mapping stands as the
tag, or an integer that is too long stands where a text is made of it.  So normalizing
a definition fails if and only if it comes upon such a value, wherever that is.

Main definitions and statements:

* `Normalizer.Refuses`: the values that cannot be decoded, and why;
* `Normalizer.MeetsRefusal`: there is such a value somewhere;
* `Normalizer.isDecided`: what normalizing a value gives, with and without one;
* `Normalizer.exists_walk_iff`: which definitions are normalized.
-/
import DefinitionTree.Proofs.Canonical.Decoding
import DefinitionTree.Proofs.Tree.Induction

namespace DefinitionTree

/-! ### Decoding one value -/

/-- Looking for a localized string never fails. -/
theorem Localized.exists_resolve (start : String) (lookup : Option Lookup) (t : Tree) :
    ∃ r, (resolve start lookup t).outcome = .ok r := by
  unfold resolve
  split
  · split
    · exact ⟨_, rfl⟩
    · split
      · exact ⟨_, rfl⟩
      · exact ⟨_, rfl⟩
  · exact ⟨_, rfl⟩

namespace Normalizer

variable {n : Normalizer} {type : Option TypeRef}

/-- Why a value of the type cannot be decoded. -/
inductive Refuses (n : Normalizer) (type : Option TypeRef) : Tree → Failure → Prop
  /-- a list or a mapping is the tag of a declared union -/
  | compoundTag {es : Entries} {tag : Tree} : Wire.sentinelOf? es = none → n.AtUnion type →
    Entries.get? Wire.tagKey es = some tag → tag.key? = none →
    Refuses n type (.map es) .compoundTag
  /-- an integer that is too long is the tag of a declared union -/
  | longTag {es : Entries} {tag : Tree} {k : Key} : Wire.sentinelOf? es = none →
    n.AtUnion type → Entries.get? Wire.tagKey es = some tag → tag.key? = some k →
    k.isWritable = false → Refuses n type (.map es) .integerUnwritable
  /-- the sentinel of a truth value or a text holds something that cannot be written -/
  | longText {es : Entries} {s : Wire.Sentinel} : Wire.sentinelOf? es = some s →
    s = .boolean ∨ s = .string → (Wire.textIn es).isWritable = false →
    Refuses n type (.map es) .integerUnwritable
  /-- an integer that is too long stands where a text is declared -/
  | longInteger {i : Int} : type.any (·.isString) = true → Numeral.isWritable i = false →
    Refuses n type (.int i) .integerUnwritable

/-- What is refused cannot be decoded, wherever it stands. -/
theorem Refuses.outcome {t : Tree} {f : Failure} (h : n.Refuses type t f) (place : ElementId) :
    (n.decode type place t).outcome = .error f := by
  cases h with
  | compoundTag mark union found compound =>
    rw [outcome_decode_declared mark found union, expand_compound found compound]
  | longTag mark union found key long =>
    rw [outcome_decode_declared mark found union, expand_eq found key, Key.check_eq_error long]
    rfl
  | longText mark either long =>
    rw [decode_sentinel mark]
    rcases either with rfl | rfl <;>
    · rw [Wire.decodeAs, Tree.toText_eq_error long]
      rfl
  | longInteger string long =>
    rw [decode, visitScalar, string, @Tree.toText_eq_error (.int _) long]
    rfl

theorem Refuses.gives {t : Tree} {f : Failure} (h : n.Refuses type t f) :
    n.Gives type t (.error f) := by
  intro place counts
  rw [outcome_walk, counts.stands, h.outcome place]
  rfl

/-- A sentinel is refused, or else decoded. -/
theorem decodesTo_sentinel {es : Entries} {s : Wire.Sentinel}
    (mark : Wire.sentinelOf? es = some s) :
    (∃ u, n.DecodesTo type (.map es) u) ∨ ∃ f, n.Refuses type (.map es) f := by
  rcases writable : (Wire.textIn es).isWritable with - | -
  · by_cases either : s = .boolean ∨ s = .string
    · exact .inr ⟨_, .longText mark either writable⟩
    · refine .inl ?_
      cases s with
      | null => exact ⟨_, decode_sentinel mark⟩
      | array => exact ⟨_, decode_sentinel mark⟩
      | boolean => exact absurd (.inl rfl) either
      | string => exact absurd (.inr rfl) either
  · have text := Tree.toText_eq_ok writable
    refine .inl ?_
    cases s with
    | null => exact ⟨_, decode_sentinel mark⟩
    | array => exact ⟨_, decode_sentinel mark⟩
    | boolean => exact ⟨_, decodesTo_boolean mark text⟩
    | string => exact ⟨_, decodesTo_string mark text⟩

/-- A declared union is refused, or else decoded. -/
theorem decodesTo_union {es : Entries} {tag : Tree} (mark : Wire.sentinelOf? es = none)
    (union : n.AtUnion type) (found : Entries.get? Wire.tagKey es = some tag) :
    (∃ u, n.DecodesTo type (.map es) u) ∨ ∃ f, n.Refuses type (.map es) f := by
  rcases key : tag.key? with - | k
  · exact .inr ⟨_, .compoundTag mark union found key⟩
  rcases writable : k.isWritable with - | -
  · exact .inr ⟨_, .longTag mark union found key writable⟩
  · rcases among : Wire.isAmong k n.settings.ignoredTags with - | -
    · exact .inl ⟨_, outcome_decode_nested mark found union key writable among⟩
    · exact .inl ⟨_, outcome_decode_dropped mark found union key among⟩

/-- A value is decoded, or else refused. -/
theorem decodesTo_or_refuses (n : Normalizer) (type : Option TypeRef) (t : Tree) :
    (∃ u, n.DecodesTo type t u) ∨ ∃ f, n.Refuses type t f := by
  have scalar {t : Tree} (writable : t.isWritable = true)
      (h : ∀ place, n.decode type place t = Journal.of (visitScalar type t)) :
      ∃ u, n.DecodesTo type t u := by
    rcases string : type.any (·.isString) with - | -
    · exact ⟨t, fun place => by rw [h place, visitScalar, string]; rfl⟩
    · refine ⟨.text t.scalarText, fun place => ?_⟩
      rw [h place, visitScalar, string, Tree.toText_eq_ok writable]
      rfl
  cases t with
  | map es =>
    rcases mark : Wire.sentinelOf? es with - | s
    · rcases found : Entries.get? Wire.tagKey es with - | tag
      · exact .inl ⟨.map es, outcome_decode_untagged mark found⟩
      · by_cases union : n.AtUnion type
        · exact decodesTo_union mark union found
        · exact .inl ⟨_, outcome_decode_exposed mark found union⟩
    · exact decodesTo_sentinel mark
  | list ts => exact .inl ⟨_, fun _ => rfl⟩
  | text s =>
    obtain ⟨r, resolved⟩ :=
      Localized.exists_resolve n.settings.collectionStart n.lookup (.text s)
    have outcome (place : ElementId) : (n.decode type place (.text s)).outcome
        = .ok (r.elim (.text s) fun found => .ref found.1 found.2) := by
      rw [decode, visitText, Journal.outcome_bind, resolved]
      rcases r with - | ⟨id, target⟩ <;> rfl
    exact .inl ⟨_, outcome⟩
  | null => exact .inl ⟨_, fun _ => rfl⟩
  | ref id target => exact .inl ⟨_, fun _ => rfl⟩
  | bool b => exact .inl (scalar rfl fun _ => rfl)
  | float x => exact .inl (scalar rfl fun _ => rfl)
  | int i =>
    rcases writable : Numeral.isWritable i with - | -
    · rcases string : type.any (·.isString) with - | -
      · exact .inl ⟨.int i, fun place => by rw [decode, visitScalar, string]; rfl⟩
      · exact .inr ⟨_, .longInteger string writable⟩
    · exact .inl (scalar writable fun _ => rfl)

/-- What is decoded is not refused. -/
theorem not_refuses_of_decodesTo {t u : Tree} (h : n.DecodesTo type t u) (f : Failure) :
    ¬n.Refuses type t f := by
  intro refuses
  have outcome := h default
  rw [refuses.outcome] at outcome
  cases outcome

theorem DecodesTo.unique {t u v : Tree} (h : n.DecodesTo type t u) (h' : n.DecodesTo type t v) :
    u = v :=
  Except.ok.inj ((h default).symm.trans (h' default))

/-! ### Values that are refused somewhere -/

/-- Normalizing a value of the type comes upon one that it refuses. -/
inductive MeetsRefusal (n : Normalizer) : Option TypeRef → Tree → Prop
  | here {type : Option TypeRef} {t : Tree} {f : Failure} :
    n.Refuses type t f → MeetsRefusal n type t
  | entry {type : Option TypeRef} {t : Tree} {es : Entries} {e : Key × Tree} :
    n.DecodesTo type t (.map es) → e ∈ es → MeetsRefusal n (n.graph.fieldType type e.1) e.2 →
      MeetsRefusal n type t
  | item {type : Option TypeRef} {t u : Tree} {ts : List Tree} :
    n.DecodesTo type t (.list ts) → u ∈ ts → MeetsRefusal n (Graph.itemType type) u →
      MeetsRefusal n type t

/-- Where a value is decoded to a mapping, what is refused stands inside that. -/
theorem meetsRefusal_map_iff {t : Tree} {es : Entries} (h : n.DecodesTo type t (.map es)) :
    n.MeetsRefusal type t ↔ ∃ e ∈ es, n.MeetsRefusal (n.graph.fieldType type e.1) e.2 := by
  constructor
  · intro meets
    cases meets with
    | here refuses => exact absurd refuses (not_refuses_of_decodesTo h _)
    | entry decodes mem inside =>
      cases decodes.unique h
      exact ⟨_, mem, inside⟩
    | item decodes => cases decodes.unique h
  · rintro ⟨e, mem, inside⟩
    exact .entry h mem inside

/-- Where a value is decoded to a list, what is refused stands inside that. -/
theorem meetsRefusal_list_iff {t : Tree} {ts : List Tree} (h : n.DecodesTo type t (.list ts)) :
    n.MeetsRefusal type t ↔ ∃ u ∈ ts, n.MeetsRefusal (Graph.itemType type) u := by
  constructor
  · intro meets
    cases meets with
    | here refuses => exact absurd refuses (not_refuses_of_decodesTo h _)
    | entry decodes => cases decodes.unique h
    | item decodes mem inside =>
      cases decodes.unique h
      exact ⟨_, mem, inside⟩
  · rintro ⟨u, mem, inside⟩
    exact .item h mem inside

theorem not_meetsRefusal_leaf {t u : Tree} (scalar : u.key?.isSome = true)
    (h : n.DecodesTo type t u) : ¬n.MeetsRefusal type t := by
  intro meets
  cases meets with
  | here refuses => exact not_refuses_of_decodesTo h _ refuses
  | entry decodes =>
    cases h.unique decodes
    cases scalar
  | item decodes =>
    cases h.unique decodes
    cases scalar

/-! ### The outcome -/

/-- Normalizing the value fails if it comes upon one that is refused, and only then. -/
def IsDecided (n : Normalizer) (type : Option TypeRef) (t : Tree) : Prop :=
  (∃ u, n.Gives type t (.ok u)) ∧ ¬n.MeetsRefusal type t ∨
    (∃ f, n.Gives type t (.error f)) ∧ n.MeetsRefusal type t

/-- Of two outcomes that come one after the other the first failure counts, so that
both are decided together: `p` and `q` say when the one and the other fails. -/
theorem decided_both {α β γ : Type} {first : Except Failure α → Prop}
    {rest : Except Failure β → Prop} {all : Except Failure γ → Prop} {make : α → β → γ}
    {p q : Prop}
    (both : ∀ {x y}, first x → rest y → all (x >>= fun u => y >>= fun us => .ok (make u us)))
    (here : (∃ u, first (.ok u)) ∧ ¬p ∨ (∃ f, first (.error f)) ∧ p)
    (there : (∃ us, rest (.ok us)) ∧ ¬q ∨ (∃ f, rest (.error f)) ∧ q) :
    (∃ us, all (.ok us)) ∧ ¬(p ∨ q) ∨ (∃ f, all (.error f)) ∧ (p ∨ q) := by
  rcases here with ⟨⟨u, gives⟩, clean⟩ | ⟨⟨f, gives⟩, meets⟩
  · rcases there with ⟨⟨us, others⟩, clean'⟩ | ⟨⟨f, others⟩, meets⟩
    · exact .inl ⟨⟨_, both gives others⟩, fun meets => meets.elim clean clean'⟩
    · exact .inr ⟨⟨f, both gives others⟩, .inr meets⟩
  · obtain ⟨y, others⟩ : ∃ y, rest y := by
      rcases there with ⟨⟨us, others⟩, -⟩ | ⟨⟨f, others⟩, -⟩
      · exact ⟨_, others⟩
      · exact ⟨_, others⟩
    exact .inr ⟨⟨f, both gives others⟩, .inl meets⟩

/-- A list fails with the first of its items that does. -/
theorem isDecided_items {ts : List Tree} (h : ∀ t ∈ ts, n.IsDecided type t) :
    (∃ us, n.GivesItems type ts (.ok us)) ∧ ¬(∃ t ∈ ts, n.MeetsRefusal type t) ∨
      (∃ f, n.GivesItems type ts (.error f)) ∧ ∃ t ∈ ts, n.MeetsRefusal type t := by
  induction ts with
  | nil => exact .inl ⟨⟨[], fun _ _ _ => Visitor.walkItems_nil ..⟩, by simp⟩
  | cons t ts ih =>
    obtain ⟨here, there⟩ := List.forall_mem_cons.mp h
    rw [List.exists_mem_cons_iff]
    exact decided_both givesItems_cons here (ih there)

/-- A mapping fails with the first of its values that does. -/
theorem isDecided_entries {es : Entries}
    (h : ∀ e ∈ es, n.IsDecided (n.graph.fieldType type e.1) e.2) :
    (∃ us, n.GivesEntries type es (.ok us)) ∧
        ¬(∃ e ∈ es, n.MeetsRefusal (n.graph.fieldType type e.1) e.2) ∨
      (∃ f, n.GivesEntries type es (.error f)) ∧
        ∃ e ∈ es, n.MeetsRefusal (n.graph.fieldType type e.1) e.2 := by
  induction es with
  | nil => exact .inl ⟨⟨[], fun _ _ => Visitor.walkEntries_nil ..⟩, by simp⟩
  | cons e es ih =>
    obtain ⟨here, there⟩ := List.forall_mem_cons.mp h
    rw [List.exists_mem_cons_iff]
    exact decided_both givesEntries_cons here (ih there)

/-- What a value is decoded to holds less than the value itself, so that what is
inside of it may be taken to be decided. -/
theorem isDecided (t : Tree) (type : Option TypeRef) : n.IsDecided type t := by
  induction size : t.size using Nat.strongRecOn generalizing t type with
  | ind size ih =>
    subst size
    rcases n.decodesTo_or_refuses type t with ⟨u, decodes⟩ | ⟨f, refuses⟩
    case inr => exact .inr ⟨⟨f, refuses.gives⟩, .here refuses⟩
    have smaller : u.content < t.size := content_lt_of_decode (decodes default)
    cases u with
    | map es =>
      have inside : ∀ e ∈ es, n.IsDecided (n.graph.fieldType type e.1) e.2 := by
        intro e he
        refine ih e.2.size ?_ e.2 _ rfl
        exact Nat.lt_of_le_of_lt (Tree.size_le_sizeEntries he) smaller
      rw [IsDecided, meetsRefusal_map_iff decodes]
      rcases isDecided_entries inside with
        ⟨⟨us, gives⟩, clean⟩ | ⟨⟨f, gives⟩, meets⟩
      · exact .inl ⟨⟨_, gives_of_decode_map decodes gives⟩, clean⟩
      · exact .inr ⟨⟨f, gives_of_decode_map decodes gives⟩, meets⟩
    | list ts =>
      have inside : ∀ u ∈ ts, n.IsDecided (Graph.itemType type) u := by
        intro u hu
        refine ih u.size ?_ u _ rfl
        exact Nat.lt_of_le_of_lt (Tree.size_le_sizeItems hu) smaller
      rw [IsDecided, meetsRefusal_list_iff decodes]
      rcases isDecided_items inside with
        ⟨⟨us, gives⟩, clean⟩ | ⟨⟨f, gives⟩, meets⟩
      · exact .inl ⟨⟨_, gives_of_decode_list decodes gives⟩, clean⟩
      · exact .inr ⟨⟨f, gives_of_decode_list decodes gives⟩, meets⟩
    | _ =>
      exact .inl ⟨⟨_, gives_of_decode rfl decodes⟩, not_meetsRefusal_leaf rfl decodes⟩

/-- Normalizing a value gives the same, be it a tree or an error, wherever the type
counts. -/
theorem exists_gives (n : Normalizer) (type : Option TypeRef) (t : Tree) :
    ∃ x, n.Gives type t x := by
  rcases isDecided t type with ⟨⟨u, gives⟩, -⟩ | ⟨⟨f, gives⟩, -⟩
  · exact ⟨_, gives⟩
  · exact ⟨_, gives⟩

/-- A definition is normalized unless something in it is refused. -/
theorem exists_walk_iff {place : ElementId} (deep : rootDepth ≤ place.depth) (t : Tree) :
    (∃ u, (n.walk (some n.graph.rootRef) place t).outcome = .ok u) ↔
      ¬n.MeetsRefusal (some n.graph.rootRef) t := by
  have counts : n.graph.Counts (some n.graph.rootRef) place := Graph.counts_root deep
  rcases isDecided t (some n.graph.rootRef) with
    ⟨⟨u, gives⟩, clean⟩ | ⟨⟨f, gives⟩, meets⟩
  · exact iff_of_true ⟨u, gives place counts⟩ clean
  · refine iff_of_false ?_ fun clean => clean meets
    rintro ⟨u, eq⟩
    rw [gives place counts] at eq
    cases eq

end Normalizer

end DefinitionTree
