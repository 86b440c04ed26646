/-
DefinitionTree/Proofs/Canonical/Passage.lean

From canonical values through the wire and back.

What is written reaches the reader by some passage: directly, or as markup that
is written and read again.  A passage says what of the wire it preserves: which
scalars come out as they were, and that sentinels, lists and mappings keep their
shape.  Whatever the passage, normalizing what it carries gives what the value
settles to.

The induction is on the value.  It needs to know nothing of the mappings inside
but what the rules for their shapes say, and of the fields that are put in only
what they are restored to.

Main statements:

* `Passage`: what is asked of a passage;
* `Passage.settles`: what comes out of it.
-/
import DefinitionTree.Proofs.Canonical.Settling
import Mathlib.Data.List.Forall2

namespace DefinitionTree

/-! ### Passages -/

/-- One entry is carried to another: the key stays. -/
def CarriesEntry (carries : Tree → Tree → Prop) (e f : Key × Tree) : Prop :=
  e.1 = f.1 ∧ carries e.2 f.2

/-- A way from where wire values are written to where they are read. -/
structure Passage (n : Normalizer) (a : Admission) where
  carries : Tree → Tree → Prop
  /-- what can be sent this way: all that is written of canonical values -/
  takes : Tree → Prop
  takes_leaf : ∀ {type t}, a.leaf type t → takes (Wire.wrap t)
  takes_mark : ∀ {s : Wire.Sentinel}, s = .null ∨ s = .array → takes (.map [s.mark])
  takes_array : ∀ {ts}, ts ≠ [] → (∀ t ∈ ts, takes t) → takes (Wire.arraySentinel ts)
  takes_tag : ∀ {s}, a.name s → takes (Wire.wrap (.text s))
  takes_map : ∀ {es : Entries}, es ≠ [] → (keysOf es).Nodup →
    (∀ e ∈ es, (∃ s, e.1 = .text s ∧ (e.1 = Wire.tagKey ∨ IsPlainName s ∧ a.name s))
      ∧ takes e.2) → takes (.map es)
  /-- the scalars that are let in come back -/
  leaf : ∀ {type t w}, a.leaf type t → carries (Wire.wrap t) w → n.Gives type w (.ok t)
  /-- sentinels of nothing stay sentinels of nothing -/
  mark : ∀ {s : Wire.Sentinel} {w}, s = .null ∨ s = .array → carries (.map [s.mark]) w →
    ∃ fs, w = .map fs ∧ Wire.sentinelOf? fs = some s ∧ Entries.get? Wire.itemKey fs = none
  /-- lists stay lists, item by item -/
  array : ∀ {ts w}, ts ≠ [] → (∀ t ∈ ts, takes t) → carries (Wire.arraySentinel ts) w →
    ∃ fs, w = .map fs ∧ Wire.sentinelOf? fs = some .array ∧
      List.Forall₂ carries ts (Wire.items (Entries.get? Wire.itemKey fs))
  /-- a tag stays a tag, unless it had to be wrapped -/
  tag : ∀ {s w}, a.name s → carries (Wire.wrap (.text s)) w →
    w.key? = if Text.isNumberLike s then none else some (.text s)
  /-- mappings stay mappings, entry by entry -/
  map : ∀ {es w}, es ≠ [] → (keysOf es).Nodup →
    (∀ e ∈ es, (∃ s, e.1 = .text s ∧ (e.1 = Wire.tagKey ∨ IsPlainName s ∧ a.name s))
      ∧ takes e.2) →
    carries (.map es) w → ∃ fs, w = .map fs ∧ List.Forall₂ (CarriesEntry carries) es fs

namespace Passage

variable {n : Normalizer} {a : Admission}

/-- What the fields that are put in come back as. -/
def Restores (p : Passage n a) (restore : Field → Tree) : Prop :=
  ∀ type t f, n.graph.PutsBack type t f →
    (n.graph.fieldPlaceholder f).value ≠ .null ∧ a.name f.name ∧
    p.takes (n.wireOf (some (.text f.name)) (n.graph.fieldPlaceholder f).value) ∧
    ∀ w, p.carries (n.wireOf (some (.text f.name)) (n.graph.fieldPlaceholder f).value) w →
      n.Gives (n.graph.fieldType type (.text f.name)) w (.ok (restore f))

variable {p : Passage n a} {restore : Field → Tree}
  {held : Option Key} {type : Option TypeRef} {es : Entries}

/-! ### Entries -/

/-- What is written for an entry comes back as that. -/
def ComesBackAs (p : Passage n a) (type : Option TypeRef) (e : Key × Tree)
    (x : Key × Except Failure Tree) : Prop :=
  e.1 = x.1 ∧ ∀ w, p.carries e.2 w → n.Gives (n.graph.fieldType type e.1) w x.2

/-- Entries that are carried give what each of them comes back as. -/
theorem givesEntries {ws fs : Entries} {xs : List (Key × Except Failure Tree)}
    (back : List.Forall₂ (p.ComesBackAs type) ws xs)
    (carried : List.Forall₂ (CarriesEntry p.carries) ws fs) :
    n.GivesEntries type fs (collect xs) := by
  refine Normalizer.givesEntries_of_forall₂ ?_
  induction back generalizing fs with
  | nil =>
    cases carried
    exact .nil
  | cons here _ ih =>
    cases carried with
    | cons carries rest =>
      refine .cons ⟨carries.1 ▸ here.1, ?_⟩ (ih rest)
      rw [← carries.1]
      exact here.2 _ carries.2

/-- Entries come back each as its own outcome, also with one of them in front of the
others. -/
theorem comesBackAs_toFront {ws : Entries} {xs : List (Key × Except Failure Tree)} (k : Key)
    (back : List.Forall₂ (p.ComesBackAs type) ws xs) :
    List.Forall₂ (p.ComesBackAs type) (toFront k ws) (toFront k xs) := by
  refine List.rel_append (List.rel_filter ?_ back) (List.rel_filter ?_ back)
  · rintro e x ⟨eq, -⟩
    simp [eq]
  · rintro e x ⟨eq, -⟩
    simp [eq]

/-- What comes back stands under the keys that were written. -/
theorem keysOf_of_comesBackAs {ws : Entries} {xs : List (Key × Except Failure Tree)}
    (back : List.Forall₂ (p.ComesBackAs type) ws xs) : keysOf ws = keysOf xs :=
  keysOf_of_forall₂ (fun _ _ here => here.1) back

/-- Another value for a key comes back with the others if it comes back alone. -/
theorem comesBackAs_set {ws : Entries} {xs : List (Key × Except Failure Tree)} {s : String}
    {t : Tree} (back : List.Forall₂ (p.ComesBackAs type) ws xs) (mem : Key.text s ∈ keysOf ws)
    (alone : ∀ x, (Key.text s, x) ∈ xs → p.ComesBackAs type (.text s, t) (.text s, x)) :
    List.Forall₂ (p.ComesBackAs type) (Entries.set (.text s) t ws) xs := by
  induction back with
  | nil => cases mem
  | @cons e x _ _ here rest ih =>
    obtain ⟨k, u⟩ := e
    obtain ⟨k', x⟩ := x
    obtain ⟨rfl, -⟩ := id here
    rw [Entries.set]
    split
    · rename_i same
      cases Key.same_text_iff.mp same
      exact .cons (alone x List.mem_cons_self) rest
    · rename_i other
      rw [keysOf_cons, List.mem_cons] at mem
      have further := mem.resolve_left fun eq => other (Key.same_text_iff.mpr eq.symm)
      exact .cons here (ih further fun x hx => alone x (List.mem_cons_of_mem _ hx))

/-- Carrying keeps the keys. -/
theorem keysOf_of_carried {ws fs : Entries}
    (carried : List.Forall₂ (CarriesEntry p.carries) ws fs) : keysOf fs = keysOf ws :=
  (keysOf_of_forall₂ (fun _ _ here => here.1) carried).symm

/-! ### The induction -/

/-- What has to be known of the schema and the settings: discriminated keys are
tags that are dropped, and the fields that are put in are restored. -/
structure IsFaithful (p : Passage n a) (restore : Field → Tree) : Prop where
  orderly : n.graph.IsOrderly
  restores : p.Restores restore
  ignored : ∀ s ∈ n.settings.discriminatedKeys, s ∈ n.settings.ignoredTags
  names : ∀ s ∈ n.settings.discriminatedKeys, a.name s

/-- What is put in is something. -/
theorem IsFaithful.fields (h : p.IsFaithful restore) :
    ∀ f ∈ n.putBack type es, (n.graph.fieldPlaceholder f).value ≠ .null := by
  intro f hf
  obtain ⟨t, back⟩ := Normalizer.putsBack_of_mem hf
  exact (h.restores _ t f back).1

/-- The entries can be sent as those of a mapping. -/
structure Admitted (p : Passage n a) (ws : Entries) : Prop where
  plain : Wire.IsPlain ws
  names : ∀ s, Key.text s ∈ keysOf ws → a.name s
  taken : ∀ e ∈ ws, p.takes e.2

theorem Admitted.erase {pre post : Entries} {k : Key} {x : Tree}
    (h : p.Admitted (pre ++ (k, x) :: post)) : p.Admitted (pre ++ post) where
  plain := h.plain.erase
  names s hs := h.names s (by
    rw [keysOf_append, List.mem_append] at hs
    rcases hs with hs | hs <;> simp [hs])
  taken e he := h.taken e (by
    rw [List.mem_append] at he
    rcases he with he | he <;> simp [he])

/-- Another value for a key can be sent with the others. -/
theorem Admitted.set {ws : Entries} {s : String} {t : Tree} (h : p.Admitted ws)
    (mem : Key.text s ∈ keysOf ws) (taken : p.takes t) :
    p.Admitted (Entries.set (.text s) t ws) := by
  have keys := Entries.keysOf_set_of_mem mem t
  refine ⟨⟨keys ▸ h.plain.distinct, keys ▸ h.plain.plain⟩, keys ▸ h.names, fun e he => ?_⟩
  rcases Entries.mem_or_eq_of_mem_set he with he | rfl
  · exact h.taken e he
  · exact taken

/-- The keys of admitted entries are names that are let in, and their values can be sent.
-/
theorem Admitted.entry {ws : Entries} (h : p.Admitted ws) (e : Key × Tree) (he : e ∈ ws) :
    (∃ s, e.1 = .text s ∧ (e.1 = Wire.tagKey ∨ IsPlainName s ∧ a.name s)) ∧ p.takes e.2 := by
  obtain ⟨s, eq, plain⟩ := h.plain.plain e.1 (mem_keysOf he)
  exact ⟨⟨s, eq, .inr ⟨plain, h.names s (eq ▸ mem_keysOf he)⟩⟩, h.taken e he⟩

/-- Admitted entries can be sent with a tag in front of them. -/
theorem Admitted.tagged {ws : Entries} (h : p.Admitted ws) {x : Tree} (taken : p.takes x) :
    (keysOf ((Wire.tagKey, x) :: ws)).Nodup ∧ ∀ e ∈ (Wire.tagKey, x) :: ws,
      (∃ s, e.1 = .text s ∧ (e.1 = Wire.tagKey ∨ IsPlainName s ∧ a.name s)) ∧ p.takes e.2 :=
  ⟨List.nodup_cons.mpr ⟨h.plain.tagKey_notMem, h.plain.distinct⟩,
    List.forall_mem_cons.mpr ⟨⟨⟨"_T_", rfl, .inl rfl⟩, taken⟩, h.entry⟩⟩

/-- The value comes out as what it settles to, whether it is held or free. -/
structure Settles (p : Passage n a) (restore : Field → Tree) (t : Tree) : Prop where
  taken : ∀ k type, n.Canonical a (some k) type t →
    p.takes (n.wireOf (some k) (n.graph.completed type t))
  held : ∀ k type w, n.Canonical a (some k) type t →
    p.carries (n.wireOf (some k) (n.graph.completed type t)) w →
    n.Gives type w (n.settle restore (some k) type t)
  admitted : ∀ es type, t = .map es → n.Canonical a none type t →
    n.graph.keepsTagAt type = false → p.Admitted (n.wired none type es)
  free : ∀ es type fs, t = .map es → n.Canonical a none type t →
    n.graph.keepsTagAt type = false →
    List.Forall₂ (CarriesEntry p.carries) (n.wired none type es) fs →
    n.GivesEntries type fs (collect (n.settled restore none type es))

/-! #### Scalars -/

theorem settles_leaf {t : Tree} (scalar : t.key?.isSome = true) : p.Settles restore t := by
  have written (k : Key) (type : Option TypeRef) (h : a.leaf type t) :
      n.wireOf (some k) (n.graph.completed type t) = Wire.wrap t := by
    have isScalar := a.isScalar h
    have plain : Localized.render t = t := by
      cases t with
      | ref => exact isScalar.elim
      | _ => rfl
    rw [Graph.completed_leaf scalar, Normalizer.wireOf, Wire.encodeAt_scalar scalar,
      plain]
  refine ⟨fun k type h => ?_, fun k type w h carries => ?_, ?_, ?_⟩
  · have leaf := Normalizer.canonical_leaf scalar h
    rw [written k type leaf]
    exact p.takes_leaf leaf
  · have leaf := Normalizer.canonical_leaf scalar h
    rw [written k type leaf] at carries
    rw [Normalizer.settle_of_isScalar (a.isScalar leaf)]
    exact p.leaf leaf carries
  · rintro es type rfl
    cases scalar
  · rintro es type fs rfl
    cases scalar

/-! #### Lists -/

/-- The items of a list as they are written, from an index on, come back as what
they settle to. -/
theorem givesItems {ts : List Tree} (ih : ∀ t ∈ ts, p.Settles restore t) {index : Nat}
    (h : n.CanonicalItems a type index ts) :
    (∀ u ∈ Wire.encodeItems n.settings.discriminatedKeys index (ts.map (n.graph.completed type)),
      p.takes u) ∧
    ∀ ws, List.Forall₂ p.carries
        (Wire.encodeItems n.settings.discriminatedKeys index (ts.map (n.graph.completed type))) ws →
      List.Forall₂ (fun w x => n.Gives type w x) ws (n.settleItems restore type index ts) := by
  induction ts generalizing index with
  | nil =>
    rw [List.map_nil, Wire.encodeItems]
    refine ⟨by simp, fun ws carried => ?_⟩
    cases carried
    exact .nil
  | cons t ts ihs =>
    obtain ⟨here, there⟩ := h
    obtain ⟨taken, rest⟩ := ihs (fun u hu => ih u (List.mem_cons_of_mem _ hu)) there
    have settles := ih t List.mem_cons_self
    rw [List.map_cons, Wire.encodeItems]
    refine ⟨?_, fun ws carried => ?_⟩
    · exact List.forall_mem_cons.mpr ⟨settles.taken _ _ here, taken⟩
    · cases carried with
      | cons carries more =>
        exact .cons (settles.held _ _ _ here carries) (rest _ more)

/-- The items of a canonical list are written inside the sentinel of a list. -/
theorem wireOf_list {k : Key} {type : Option TypeRef} {ts : List Tree}
    (h : n.CanonicalItems a (Graph.itemType type) 0 ts) :
    n.wireOf (some k) (n.graph.completed type (.list ts))
      = Wire.arraySentinel (Wire.encodeItems n.settings.discriminatedKeys 0
          (ts.map (n.graph.completed (Graph.itemType type)))) := by
  have values : ∀ t ∈ ts, t ≠ .null := by
    generalize 0 = index at h
    induction ts generalizing index with
    | nil => simp
    | cons t ts ih =>
      exact List.forall_mem_cons.mpr
        ⟨Normalizer.ne_null_of_canonical h.1, ih (index + 1) h.2⟩
  rw [Graph.completed, Graph.completedItems_eq_map values, Normalizer.wireOf,
    Wire.encodeAt_list]

theorem encodeItems_ne_nil {type : Option TypeRef} {ts : List Tree} (h : ts ≠ []) :
    Wire.encodeItems n.settings.discriminatedKeys 0
      (ts.map (n.graph.completed (Graph.itemType type))) ≠ [] := by
  cases ts with
  | nil => exact absurd rfl h
  | cons t ts =>
    rw [List.map_cons, Wire.encodeItems]
    simp

theorem settles_list {ts : List Tree} (ih : ∀ t ∈ ts, p.Settles restore t) :
    p.Settles restore (.list ts) := by
  refine ⟨fun k type h => ?_, fun k type w h carries => ?_, ?_, ?_⟩
  · rw [wireOf_list h.2]
    exact p.takes_array (encodeItems_ne_nil h.1) (givesItems ih h.2).1
  · obtain ⟨ne, items⟩ := h
    obtain ⟨taken, gives⟩ := givesItems ih items
    rw [wireOf_list items] at carries
    obtain ⟨fs, rfl, mark, carried⟩ := p.array (encodeItems_ne_nil ne) taken carries
    exact Normalizer.gives_array mark (Normalizer.givesItems_of_forall₂ (gives _ carried))
  · rintro es type eq
    cases eq
  · rintro es type fs eq
    cases eq

end Passage

end DefinitionTree
