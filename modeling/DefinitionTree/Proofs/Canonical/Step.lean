/-
DefinitionTree/Proofs/Canonical/Step.lean

One step of normalizing.

Normalizing decodes a value where it stands and then goes on into what stands
there instead.  `Normalizer.Yields` and `Normalizer.Opens` list all that can stand
there, shape by shape, with what is known of the value in each case; so a property
of a whole run is proved by cases over one step, and by induction over what it
leaves to do.

Main statements:

* `Normalizer.step_of_decode`: every outcome of decoding is listed;
* `Normalizer.Opens.decodesTo`: and every list or mapping that is listed is one;
* `Normalizer.Opens.holds`: a step makes no leaves that were not there;
* `Normalizer.walk_induct`: induction over a run that returns.
-/
import DefinitionTree.Proofs.Canonical.Refusal
import DefinitionTree.Proofs.Outcome
import DefinitionTree.Proofs.Tree.Leaves

namespace DefinitionTree

/-! ### Values of entries -/

namespace Entries

/-- What is set is the new value, or was there. -/
theorem mem_of_mem_set {k : Key} {t : Tree} {es : Entries} {e : Key × Tree}
    (h : e ∈ set k t es) : e.2 = t ∨ e ∈ es := by
  induction es with
  | nil =>
    rw [List.mem_singleton.mp h]
    exact .inl rfl
  | cons f es ih =>
    obtain ⟨k', u⟩ := f
    rw [set] at h
    split at h
    · rcases List.mem_cons.mp h with rfl | h
      · exact .inl rfl
      · exact .inr (List.mem_cons_of_mem _ h)
    · rcases List.mem_cons.mp h with rfl | h
      · exact .inr List.mem_cons_self
      · exact (ih h).imp_right (List.mem_cons_of_mem _)

/-- The value of an entry of an overlay comes from one of the two. -/
theorem mem_of_mem_overlay {es fs : Entries} {e : Key × Tree} (h : e ∈ overlay es fs) :
    e ∈ es ∨ ∃ f ∈ fs, f.2 = e.2 := by
  induction fs generalizing es with
  | nil => exact .inl h
  | cons f fs ih =>
    obtain ⟨k, t⟩ := f
    rcases ih h with h | ⟨f, hf, eq⟩
    · rcases mem_of_mem_set h with eq | h
      · exact .inr ⟨(k, t), List.mem_cons_self, eq.symm⟩
      · exact .inl h
    · exact .inr ⟨f, List.mem_cons_of_mem _ hf, eq⟩

/-- The value of any key stands in an entry. -/
theorem exists_mem_of_get? {k : Key} {t : Tree} {es : Entries} (h : get? k es = some t) :
    ∃ e ∈ es, e.1.same k = true ∧ e.2 = t := by
  induction es with
  | nil => cases h
  | cons e es ih =>
    obtain ⟨k', u⟩ := e
    rw [get?] at h
    split at h
    · rename_i same
      exact ⟨(k', u), List.mem_cons_self, same, Option.some.inj h⟩
    · obtain ⟨f, hf, same, eq⟩ := ih h
      exact ⟨f, List.mem_cons_of_mem _ hf, same, eq⟩

end Entries

namespace Normalizer

variable {n : Normalizer} {type : Option TypeRef}

/-! ### Steps -/

/-- What a text stands for: the reference that it resolves to, or itself. -/
def resolved (n : Normalizer) (s : String) : Tree :=
  match (Localized.resolve n.settings.collectionStart n.lookup (.text s)).outcome with
  | .ok (some (id, target)) => .ref id target
  | _ => .text s

/-- The leaves that stand in place of a value of a type after one step. -/
inductive Yields (n : Normalizer) (type : Option TypeRef) : Tree → Tree → Prop
  | null : Yields n type .null .null
  | ref (id : ElementId) (target : Tree) : Yields n type (.ref id target) (.ref id target)
  /-- a text may stand for a reference -/
  | text (s : String) : Yields n type (.text s) (n.resolved s)
  /-- truth values and numbers become texts where a text is declared -/
  | scalar {t u : Tree} : (∃ b, t = .bool b) ∨ (∃ i, t = .int i) ∨ (∃ x, t = .float x) →
    visitScalar type t = .ok u → Yields n type t u
  | boolean {es : Entries} {s : String} : Wire.sentinelOf? es = some .boolean →
    (Wire.textIn es).toText = .ok s →
    Yields n type (.map es) (.bool (Wire.truth (Wire.textIn es)))
  | string {es : Entries} {s : String} : Wire.sentinelOf? es = some .string →
    (Wire.textIn es).toText = .ok s → Yields n type (.map es) (.text s)

/-- The lists and mappings that stand in place of a value of a type after one
step. -/
inductive Opens (n : Normalizer) (type : Option TypeRef) : Tree → Tree → Prop
  | list (ts : List Tree) : Opens n type (.list ts) (.list ts)
  | array {es : Entries} : Wire.sentinelOf? es = some .array →
    Opens n type (.map es) (.list (Wire.items (Entries.get? Wire.itemKey es)))
  | null {es : Entries} : Wire.sentinelOf? es = some .null → Opens n type (.map es) (.map [])
  | plain {es : Entries} : Wire.sentinelOf? es = none → Entries.get? Wire.tagKey es = none →
    Opens n type (.map es) (.map es)
  /-- a tag of a declared union that carries no information is dropped -/
  | dropped {es : Entries} {tag : Tree} {k : Key} : Wire.sentinelOf? es = none →
    n.AtUnion type → Entries.get? Wire.tagKey es = some tag → tag.key? = some k →
    Wire.isAmong k n.settings.ignoredTags = true →
    Opens n type (.map es) (.map (Entries.without [Wire.tagKey] es))
  /-- any other tag of a declared union becomes the key of the rest -/
  | nested {es : Entries} {tag : Tree} {k : Key} : Wire.sentinelOf? es = none →
    n.AtUnion type → Entries.get? Wire.tagKey es = some tag → tag.key? = some k →
    k.isWritable = true → Wire.isAmong k n.settings.ignoredTags = false →
    Opens n type (.map es) (.map [(k, .map (Entries.without [Wire.tagKey] es))])
  /-- a tag that no type declares is shown -/
  | exposed {es : Entries} {tag : Tree} : Wire.sentinelOf? es = none →
    ¬n.AtUnion type → Entries.get? Wire.tagKey es = some tag →
    Opens n type (.map es)
      (.map (Entries.overlay [(Wire.exposedKey, tag)] (Entries.without [Wire.tagKey] es)))

/-- A text becomes what it stands for. -/
theorem outcome_visitText (s : String) : (n.visitText s).outcome = .ok (n.resolved s) := by
  obtain ⟨r, outcome⟩ := Localized.exists_resolve n.settings.collectionStart n.lookup (.text s)
  rw [visitText, Journal.outcome_bind, resolved, outcome]
  rcases r with - | ⟨id, target⟩ <;> rfl

theorem resolved_eq {s : String} {r : Option (ElementId × Tree)}
    (h : (Localized.resolve n.settings.collectionStart n.lookup (.text s)).outcome = .ok r) :
    n.resolved s = r.elim (.text s) fun found => .ref found.1 found.2 := by
  rw [resolved, h]
  rcases r with - | ⟨id, target⟩ <;> rfl

/-- A text stands for itself or for a reference. -/
theorem resolved_cases (s : String) :
    n.resolved s = .text s ∨ ∃ id target, n.resolved s = .ref id target := by
  unfold resolved
  split
  · exact .inr ⟨_, _, rfl⟩
  · exact .inl rfl

theorem Yields.isLeaf {t u : Tree} (h : n.Yields type t u) : u.key?.isSome = true := by
  cases h with
  | text s =>
    rcases n.resolved_cases s with eq | ⟨id, target, eq⟩ <;> rw [eq] <;> rfl
  | scalar one visited =>
    rcases visitScalar_cases visited with ⟨-, s, -, rfl⟩ | ⟨-, rfl⟩
    · rfl
    · rcases one with ⟨b, rfl⟩ | ⟨i, rfl⟩ | ⟨x, rfl⟩ <;> rfl
  | _ => rfl

/-- A mapping that is no sentinel opens: its tag decides how. -/
theorem opens_of_decode {place : ElementId} {es : Entries} {u : Tree}
    (mark : Wire.sentinelOf? es = none) (h : (n.decode type place (.map es)).outcome = .ok u) :
    n.Opens type (.map es) u := by
  rcases found : Entries.get? Wire.tagKey es with - | tag
  · rw [outcome_decode_untagged mark found] at h
    cases h
    exact .plain mark found
  by_cases union : n.AtUnion type
  · rcases key : tag.key? with - | k
    · -- a list or a mapping as a tag is an error
      rw [(Refuses.compoundTag mark union found key).outcome] at h
      cases h
    rcases writable : k.isWritable with - | -
    · rw [(Refuses.longTag mark union found key writable).outcome] at h
      cases h
    · rcases among : Wire.isAmong k n.settings.ignoredTags with - | -
      · rw [outcome_decode_nested mark found union key writable among] at h
        cases h
        exact .nested mark union found key writable among
      · rw [outcome_decode_dropped mark found union key among] at h
        cases h
        exact .dropped mark union found key among
  · rw [outcome_decode_exposed mark found union] at h
    cases h
    exact .exposed mark union found

/-- Whatever a value is decoded to is one or the other. -/
theorem step_of_decode {place : ElementId} {t u : Tree}
    (h : (n.decode type place t).outcome = .ok u) : n.Yields type t u ∨ n.Opens type t u := by
  cases t with
  | map es =>
    rcases mark : Wire.sentinelOf? es with - | s
    · exact .inr (opens_of_decode mark h)
    · rw [decode_sentinel mark] at h
      cases s with
      | null =>
        cases h
        exact .inr (.null mark)
      | array =>
        cases h
        exact .inr (.array mark)
      | boolean =>
        obtain ⟨s, text, rfl⟩ := map_eq_ok_iff.mp h
        exact .inl (.boolean mark text)
      | string =>
        obtain ⟨s, text, rfl⟩ := map_eq_ok_iff.mp h
        exact .inl (.string mark text)
  | list ts =>
    cases h
    exact .inr (.list ts)
  | text s =>
    rw [decode, outcome_visitText] at h
    cases h
    exact .inl (.text s)
  | null =>
    cases h
    exact .inl .null
  | ref id target =>
    cases h
    exact .inl (.ref id target)
  | bool b => exact .inl (.scalar (.inl ⟨b, rfl⟩) h)
  | int i => exact .inl (.scalar (.inr (.inl ⟨i, rfl⟩)) h)
  | float x => exact .inl (.scalar (.inr (.inr ⟨x, rfl⟩)) h)

/-- A value is decoded to whatever it opens, wherever it stands. -/
theorem Opens.decodesTo {t u : Tree} (opens : n.Opens type t u) : n.DecodesTo type t u := by
  cases opens with
  | list => exact fun _ => rfl
  | array mark => exact decode_sentinel mark
  | null mark => exact decode_sentinel mark
  | plain mark untagged => exact outcome_decode_untagged mark untagged
  | dropped mark union found key ignored => exact outcome_decode_dropped mark found union key ignored
  | nested mark union found key writable kept =>
    exact outcome_decode_nested mark found union key writable kept
  | exposed mark undeclared found => exact outcome_decode_exposed mark found undeclared

/-! ### Leaves after a step -/

/-- Taking entries out makes no leaves. -/
theorem holds_without {p : Tree → Prop} {ks : List Key} {es : Entries}
    (h : (Tree.map (Entries.without ks es)).Holds p) : (Tree.map es).Holds p := by
  obtain ⟨e, mem, held⟩ := Tree.holds_map_iff.mp h
  exact .entry (List.mem_of_mem_filter mem) held

/-- What was opened holds no leaves that were not there. -/
theorem Opens.holds {p : Tree → Prop} {t u : Tree} (step : n.Opens type t u) (h : u.Holds p) :
    t.Holds p := by
  cases step with
  | list => exact h
  | plain => exact h
  | dropped => exact holds_without h
  | null => simp [Tree.holds_map_iff] at h
  | nested =>
    obtain ⟨e, mem, held⟩ := Tree.holds_map_iff.mp h
    rw [List.mem_singleton.mp mem] at held
    exact holds_without held
  | exposed mark union found =>
    obtain ⟨e, mem, held⟩ := Tree.holds_map_iff.mp h
    rcases Entries.mem_of_mem_overlay mem with mem | ⟨f, mem, eq⟩
    · obtain ⟨f, there, -, eq⟩ := Entries.exists_mem_of_get? found
      rw [List.mem_singleton.mp mem] at held
      exact .entry there (eq ▸ held)
    · rw [← eq] at held
      exact holds_without (.entry mem held)
  | @array es mark =>
    rcases found : Entries.get? Wire.itemKey es with - | items
    · simp [Wire.items, found, Tree.holds_list_iff] at h
    · obtain ⟨f, there, -, eq⟩ := Entries.exists_mem_of_get? found
      have held : items.Holds p := by
        rw [found] at h
        cases items with
        | null => simp [Wire.items, Tree.holds_list_iff] at h
        | list => exact h
        | _ => simpa [Wire.items, Tree.holds_list_iff] using h
      exact .entry there (eq ▸ held)

/-! ### Runs -/

/-- The items of a list that was walked, one by one. -/
theorem forall₂_of_walkItems {R : Tree → Tree → Prop} {place : ElementId} {ts us : List Tree}
    (each : ∀ index, ∀ t ∈ ts, ∀ v, (n.walk type (place.item index) t).outcome = .ok v → R t v)
    {index : Nat} (h : (n.visitor.walkItems n.graph type place index ts).outcome = .ok us) :
    ∃ vs, List.Forall₂ R ts vs ∧ us = vs.filter fun v => !v.isEmpty := by
  induction ts generalizing index us with
  | nil =>
    rw [Visitor.walkItems_nil] at h
    cases h
    exact ⟨[], .nil, rfl⟩
  | cons t ts ih =>
    rw [Visitor.outcome_walkItems_cons] at h
    rcases here : (n.visitor.walk n.graph type (place.item index) t).outcome with fault | v
    · rw [here] at h
      cases h
    rcases there : (n.visitor.walkItems n.graph type place (index + 1) ts).outcome with fault | vs
    · rw [here, there] at h
      cases h
    obtain ⟨ws, all, rfl⟩ := ih (fun index t ht => each index t (List.mem_cons_of_mem _ ht)) there
    rw [here, there] at h
    cases h
    refine ⟨v :: ws, .cons (each index t List.mem_cons_self v here) all, ?_⟩
    rw [List.filter_cons]
    cases v.isEmpty <;> rfl

/-- The entries of a mapping that was walked, one by one. -/
theorem forall₂_of_walkEntries {R : Key × Tree → Tree → Prop} {place : ElementId}
    {es fs : Entries}
    (each : ∀ e ∈ es, ∀ v,
      (n.walk (n.graph.fieldType type e.1) (place.entry e.1) e.2).outcome = .ok v → R e v)
    (h : (n.visitor.walkEntries n.graph type place es).outcome = .ok fs) :
    ∃ gs : Entries, List.Forall₂ (fun e g => e.1 = g.1 ∧ R e g.2) es gs ∧
      fs = gs.filter fun g => !g.2.isEmpty := by
  induction es generalizing fs with
  | nil =>
    rw [Visitor.walkEntries_nil] at h
    cases h
    exact ⟨[], .nil, rfl⟩
  | cons e es ih =>
    obtain ⟨k, t⟩ := e
    rw [Visitor.outcome_walkEntries_cons] at h
    rcases here : (n.visitor.walk n.graph (n.graph.fieldType type k) (place.entry k) t).outcome
      with fault | v
    · rw [here] at h
      cases h
    rcases there : (n.visitor.walkEntries n.graph type place es).outcome with fault | vs
    · rw [here, there] at h
      cases h
    obtain ⟨gs, all, rfl⟩ := ih (fun e he => each e (List.mem_cons_of_mem _ he)) there
    rw [here, there] at h
    cases h
    refine ⟨(k, v) :: gs, .cons ⟨rfl, each (k, t) List.mem_cons_self v here⟩ all, ?_⟩
    rw [List.filter_cons]
    cases v.isEmpty <;> rfl

/-- A property of all pairs of a value and its canonical form, by cases over the
first step: what stands there then is walked, and what came out empty is left
out. -/
theorem walk_induct {P : Option TypeRef → Tree → Tree → Prop}
    (leaf : ∀ type t u, n.Yields type t u → P type t u)
    (list : ∀ type t ts us, n.Opens type t (.list ts) →
      List.Forall₂ (P (Graph.itemType type)) ts us →
      P type t (.list (us.filter fun u => !u.isEmpty)))
    (map : ∀ type t es fs, n.Opens type t (.map es) →
      List.Forall₂ (fun e f => e.1 = f.1 ∧ P (n.graph.fieldType type e.1) e.2 f.2) es fs →
      P type t (.map (fs.filter fun f => !f.2.isEmpty)))
    {place : ElementId} (counts : n.graph.Counts type place) {t v : Tree}
    (h : (n.walk type place t).outcome = .ok v) : P type t v := by
  -- what stands there after a step holds less than the value itself
  induction size : t.size using Nat.strongRecOn generalizing type t v place with
  | ind size ih =>
    subst size
    rw [outcome_walk, counts.stands] at h
    rcases decoded : (n.decode type place t).outcome with fault | u
    · rw [decoded] at h
      cases h
    rw [decoded] at h
    have smaller : u.content < t.size := content_lt_of_decode decoded
    have deep := counts.deep
    rcases step_of_decode decoded with yields | opens
    · have same : u = v := by
        have scalar := yields.isLeaf
        cases u with
        | list => cases scalar
        | map => cases scalar
        | _ => exact Except.ok.inj h
      exact same ▸ leaf type t u yields
    cases u with
    | list ts =>
      obtain ⟨us, walked, rfl⟩ := map_eq_ok_iff.mp h
      obtain ⟨vs, all, rfl⟩ := forall₂_of_walkItems (R := P (Graph.itemType type))
        (fun index u hu v outcome =>
          ih u.size (Nat.lt_of_le_of_lt (Tree.size_le_sizeItems hu) smaller)
            (Graph.counts_item deep index) outcome rfl) walked
      exact list type t ts vs opens all
    | map es =>
      obtain ⟨fs, walked, rfl⟩ := map_eq_ok_iff.mp h
      obtain ⟨gs, all, rfl⟩ := forall₂_of_walkEntries
        (R := fun e v => P (n.graph.fieldType type e.1) e.2 v)
        (fun e he v outcome =>
          ih e.2.size (Nat.lt_of_le_of_lt (Tree.size_le_sizeEntries he) smaller)
            (Graph.counts_entry deep e.1) outcome rfl) walked
      exact map type t es gs opens all
    | _ => cases opens

end Normalizer

end DefinitionTree
