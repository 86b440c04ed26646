/-
DefinitionTree/Proofs/Definition/RoundTrip.lean

When a round trip comes to an end.

Fetching is lenient, and so not everything that was fetched can be deployed and
fetched again.  Three things may go wrong.  A collection of a workbook may be a
number, a truth value or a reference, of which no items can be counted.  The tree
that is written may hold a key that is no name, or a text that is none of markup.
And what is read again may hold something that is refused, or may stand as a whole
for something that is no mapping.  If none of this is so, the round trip comes to an
end, as it does for every value that is well typed and complete.

Main definitions and statements:

* `Normalizer.Accepts`: definitions that come out as mappings;
* `Kind.IsReturnable`: values that can be deployed and fetched again;
* `isReturnable_of_isSendable`: well-typed values are among them;
* `roundTrip_returns_iff`: which round trips come to an end.
-/
import DefinitionTree.Proofs.Canonical.Lookup
import DefinitionTree.Proofs.Canonical.Residue
import DefinitionTree.Proofs.Definition.Return
import DefinitionTree.Proofs.Xml.Codec
import DefinitionTree.Proofs.Xml.LegibleTree

namespace DefinitionTree

/-! ### What is accepted -/

namespace Normalizer

variable {n : Normalizer} {place : ElementId} {es : Entries}

/-- Nothing in the definition is refused, and as a whole it stands for a mapping, or
for nothing. -/
structure Accepts (n : Normalizer) (es : Entries) : Prop where
  unrefused : ¬n.MeetsRefusal (some n.graph.rootRef) (.map es)
  mapping : ¬n.StandsForOther es

/-- An accepted definition is one that is normalized to a mapping, or to nothing. -/
theorem accepts_iff (deep : rootDepth ≤ place.depth) :
    n.Accepts es ↔ ∃ u, (n.walk (some n.graph.rootRef) place (.map es)).outcome = .ok u ∧
      (u.isMap = true ∨ u.isEmpty = true) := by
  have counts : n.graph.Counts (some n.graph.rootRef) place := Graph.counts_root deep
  constructor
  · rintro ⟨unrefused, mapping⟩
    obtain ⟨u, walked⟩ := (exists_walk_iff deep _).mpr unrefused
    exact ⟨u, walked, (isMap_or_isEmpty_iff (gives_of_outcome counts walked)).mpr mapping⟩
  · rintro ⟨u, walked, either⟩
    exact ⟨(exists_walk_iff deep _).mp ⟨u, walked⟩,
      (isMap_or_isEmpty_iff (gives_of_outcome counts walked)).mp either⟩

/-- What is accepted does not depend on where texts are looked up. -/
theorem Accepts.consulting {l : Option Lookup} (h : (n.consulting l).Accepts es)
    (l' : Option Lookup) : (n.consulting l').Accepts es := by
  have deep : rootDepth ≤ (ElementId.ofInstance "" "" "").depth := by decide
  obtain ⟨u, walked, either⟩ := (accepts_iff deep).mp h
  have same := walk_consulting (n.agree_blank l l' (.map es)) (some n.graph.rootRef)
    (ElementId.ofInstance "" "" "")
  obtain ⟨e, failed, -⟩ | ⟨v, u', eq, eq', alike⟩ := same.cases
  · cases failed.symm.trans walked
  cases eq.symm.trans walked
  refine (accepts_iff deep).mpr ⟨u', eq', ?_⟩
  rwa [← Tree.isMap_of_mapLeaves_eq alike, ← Tree.isEmpty_of_mapLeaves_eq alike]

end Normalizer

/-- An instance is fetched if its definition is read and accepted. -/
theorem exists_fetchInstance_iff {lookup : Option Lookup} {kind : Kind} {i : Instance}
    {text : String} (h : definitionText? i.value = some text) :
    (∃ c, (fetchInstance {} lookup kind i).outcome = .ok c) ↔
      ∃ es, Xml.definition text = .ok es ∧
        Normalizer.Accepts ⟨kind.schema, lookup, {}⟩ (Entries.dropField "name" es) := by
  have deep := rootDepth_le_depth i
  rw [outcome_fetchInstance h]
  constructor
  · rintro ⟨c, fetched⟩
    obtain ⟨es, read, fetched⟩ := bind_eq_ok_iff.mp fetched
    obtain ⟨t, walked, fetched⟩ := bind_eq_ok_iff.mp fetched
    have either := Kind.exists_fetched_iff.mp ⟨c, fetched⟩
    exact ⟨es, read, (Normalizer.accepts_iff deep).mpr ⟨t, walked, either.symm⟩⟩
  · rintro ⟨es, read, accepts⟩
    obtain ⟨t, walked, either⟩ := (Normalizer.accepts_iff deep).mp accepts
    obtain ⟨c, fetched⟩ := @Kind.exists_fetched_iff kind i.value t |>.mpr either.symm
    exact ⟨c, (bind_of_ok read _).trans ((bind_of_ok walked _).trans fetched)⟩

/-! ### Values that can be deployed and fetched again -/

/-- The value can be deployed and fetched again: the collections of a workbook can be
looked at, the definition that is written for it is legible, and what is read of this is
accepted. -/
structure Kind.IsReturnable (kind : Kind) (lookup : Option Lookup) (c : Entries) : Prop where
  iterable : kind.hasSummaries = true →
    ∀ s ∈ Summary.all, Summary.IsIterable (Entries.field? s.collection c)
  legible : (Tree.map (kind.written c)).IsLegible
  accepted : ∀ es, kind.IsReadAs c es →
    Normalizer.Accepts ⟨kind.schema, lookup, {}⟩ (Entries.dropField "name" es)

/-- The definition of a value is read as something if it is legible. -/
theorem Kind.exists_isReadAs_iff {kind : Kind} {c : Entries} :
    (∃ es, kind.IsReadAs c es) ↔ (Tree.map (kind.written c)).IsLegible := by
  have reread := @Xml.exists_reread_iff Xml.rootName (.map (kind.written c))
  rw [and_iff_right rootName_isName] at reread
  rw [← reread]
  constructor
  · rintro ⟨es, isReadAs⟩
    exact ⟨_, isReadAs⟩
  · rintro ⟨w, read⟩
    obtain ⟨es, -, isReadAs⟩ := isReadAs_of_reread read
    exact ⟨es, isReadAs⟩

/-- A value that is to come back can be deployed and fetched again, unless it holds
something that is too long. -/
theorem isReturnable_of_isSendable {kind : Kind} {c : Entries} (h : kind.IsSendable c)
    (short : ¬HoldsTooLong c) (lookup : Option Lookup) : kind.IsReturnable lookup c := by
  obtain ⟨es, isReadAs, gives⟩ := Kind.exists_isReadAs h short
  refine ⟨Kind.isIterable_of_sendable h, Kind.exists_isReadAs_iff.mp ⟨es, isReadAs⟩, ?_⟩
  intro es' isReadAs'
  cases Tree.map.inj (Except.ok.inj (isReadAs.symm.trans isReadAs'))
  have deep : rootDepth ≤ (ElementId.ofInstance "" "" "").depth := by decide
  have accepts : kind.normalizer.Accepts (Entries.dropField "name" es) :=
    (Normalizer.accepts_iff deep).mpr ⟨_, gives _ (Graph.counts_root deep), .inl rfl⟩
  exact accepts.consulting (n := kind.normalizer) (l := none) lookup

/-! ### Round trips -/

/-- The instance is given a name, or has a script id that can be written, if any. -/
def HasName (name : Option String) (value : Entries) : Prop :=
  name.any (· ≠ "") = true ∨
    ∀ id, Entries.field? "scriptid" value = some id → id.isWritable = true

/-- Fetching an instance with a name and this value gives that one, and the instance
keeps a name. -/
structure Kind.IsFetchedAs (kind : Kind) (lookup : Option Lookup) (name : Option String)
    (value c : Entries) : Prop where
  named : HasName name value
  outcome : (fetch {} lookup kind name value).outcome = .ok c
  stillNamed : HasName name c

section RoundTrip

variable {lookup : Option Lookup} {kind : Kind} {name : Option String} {value c : Entries}

/-- A round trip comes to an end if the canonical value is deployed and fetched. -/
theorem exists_roundTrip_iff (fetched : (fetch {} lookup kind name value).outcome = .ok c) :
    (∃ r, (roundTrip {} lookup kind name value).outcome = .ok r) ↔
      ∃ d, deploy {} kind name c = .ok d ∧
        ∃ again, (fetch {} lookup kind name (value.overlay d)).outcome = .ok again := by
  have outcome : (roundTrip {} lookup kind name value).outcome
      = deploy {} kind name c >>= fun d =>
        (fetch {} lookup kind name (value.overlay d)).outcome >>= fun again =>
          .ok ⟨c, d, (Tree.map again).agrees (.map c)⟩ := by
    rw [roundTrip, Journal.outcome_bind, bind_of_ok fetched]
    simp only [Journal.outcome_bind, Journal.outcome_of, Journal.outcome_pure]
  rw [outcome]
  constructor
  · rintro ⟨r, h⟩
    obtain ⟨d, deployed, h⟩ := bind_eq_ok_iff.mp h
    obtain ⟨again, refetched, -⟩ := bind_eq_ok_iff.mp h
    exact ⟨d, deployed, again, refetched⟩
  · rintro ⟨d, deployed, again, refetched⟩
    exact ⟨_, (bind_of_ok deployed _).trans (bind_of_ok refetched _)⟩

/-- **Which round trips come to an end.**  What was fetched can be deployed and fetched
again if the collections of a workbook can be looked at, if the tree that is written
for it is legible, and if nothing that is read of this is refused or stands for
something else than a mapping; and only then. -/
theorem roundTrip_returns_iff (h : kind.IsFetchedAs lookup name value c) :
    (∃ r, (roundTrip {} lookup kind name value).outcome = .ok r) ↔
      kind.IsReturnable lookup c := by
  rw [exists_roundTrip_iff h.outcome]
  constructor
  · rintro ⟨d, deployed, again⟩
    obtain ⟨text, written, found⟩ := definitionText?_overlay deployed
    obtain ⟨es, read, accepts⟩ := (exists_fetchInstance_iff (found value)).mp again
    have isReadAs : kind.IsReadAs c es := exists_definition_iff.mp ⟨text, written, read⟩
    refine ⟨(exists_deployInstance_iff.mp ⟨d, deployed⟩).2,
      Kind.exists_isReadAs_iff.mp ⟨es, isReadAs⟩, fun es' isReadAs' => ?_⟩
    cases Tree.map.inj (Except.ok.inj (isReadAs.symm.trans isReadAs'))
    exact accepts
  · rintro ⟨iterable, legible, accepted⟩
    obtain ⟨es, isReadAs⟩ := Kind.exists_isReadAs_iff.mpr legible
    obtain ⟨text, written, read⟩ :=
      (@exists_definition_iff kind (kind.instanceOf name c) es).mpr isReadAs
    obtain ⟨d, deployed⟩ := exists_deployInstance_iff.mpr ⟨⟨text, written⟩, iterable⟩
    obtain ⟨text', written', found⟩ := definitionText?_overlay deployed
    cases written.symm.trans written'
    exact ⟨d, deployed,
      (exists_fetchInstance_iff (found value)).mpr ⟨es, read, accepted es isReadAs⟩⟩

end RoundTrip

/-! ### A round trip that comes to an end, and one that does not -/

/-- A dataset that has a version. -/
def versioned : Entries := [(definitionKey, .text "<root><version>x</version></root>")]

theorem isFetchedAs_versioned : Kind.dataset.IsFetchedAs none none versioned (versionOnly "x") := by
  have read : Xml.definition "<root><version>x</version></root>" = .ok (versionOnly "x") :=
    @Xml.definition_single "version" (.text "x") (by decide) (.text (by decide) (by decide) rfl)
  have gives := @Normalizer.gives_text Kind.dataset.normalizer
    (Kind.dataset.schema.fieldType (some Kind.dataset.schema.rootRef) (.text "version")) "x"
    (Normalizer.isUnresolved_of_no_lookup rfl "x")
  exact ⟨.inr nofun, outcome_fetchInstance_single rfl read (by decide) gives rfl, .inr nofun⟩

theorem roundTrip_versioned :
    Kind.dataset.IsFetchedAs none none versioned (versionOnly "x") ∧
      ∃ r, (roundTrip {} none .dataset none versioned).outcome = .ok r := by
  have short : ¬HoldsTooLong (versionOnly "x") := by
    rw [holdsTooLong_versionOnly_iff]
    decide +kernel
  have returnable := isReturnable_of_isSendable (isSendable_versionOnly (by decide)) short none
  exact ⟨isFetchedAs_versioned, (roundTrip_returns_iff isFetchedAs_versioned).mpr returnable⟩

/-- A workbook whose pivots are a truth value, as an instance holds it. -/
def scalarPivots : Entries := [(definitionKey, .text "<root><pivots>true</pivots></root>")]

theorem isFetchedAs_scalarPivots :
    Kind.workbook.IsFetchedAs none none scalarPivots [(.text "pivots", .bool true)] := by
  have read : Xml.definition "<root><pivots>true</pivots></root>"
      = .ok [(.text "pivots", .bool true)] :=
    @Xml.definition_single "pivots" (.bool true) (by decide) (.bool true)
  have gives := @Normalizer.gives_scalar Kind.workbook.normalizer
    (Kind.workbook.schema.fieldType (some Kind.workbook.schema.rootRef) (.text "pivots"))
    (.bool true) _ rfl (fun _ => rfl) rfl
  exact ⟨.inr nofun, outcome_fetchInstance_single rfl read (by decide) gives rfl, .inr nofun⟩

/-- The pivots of `scalarPivots` cannot be counted, so that what is fetched of it cannot
be deployed. -/
theorem roundTrip_scalarPivots :
    (fetch {} none .workbook none scalarPivots).outcome = .ok [(.text "pivots", .bool true)] ∧
      ∀ r, (roundTrip {} none .workbook none scalarPivots).outcome ≠ .ok r := by
  have fetched := isFetchedAs_scalarPivots.outcome
  refine ⟨fetched, fun r returns => ?_⟩
  obtain ⟨d, deployed, -⟩ := (exists_roundTrip_iff fetched).mp ⟨r, returns⟩
  have iterable := (exists_deployInstance_iff.mp ⟨d, deployed⟩).2 rfl
  have pivots : Tree.isTruthy (.bool true) = false :=
    iterable ⟨"pivots", "pivot", "pivots", "pivot"⟩ (by decide)
  cases pivots

end DefinitionTree
