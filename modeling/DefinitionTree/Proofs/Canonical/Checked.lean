/-
DefinitionTree/Proofs/Canonical/Checked.lean

Walks that look every type up.

A walk passes on the declared types of fields and of items, and takes a name that
no type has for no declared type.  Here the same walks are made so that they look
up each type that is passed on, and fail where there is none.  In a closed schema
they come to the same: normalizing, completing and making placeholders never meet a
type that is missing.

Main definitions and statements:

* `Graph.check`: looking up one type;
* `Visitor.checked`, `Graph.checkedComplete`, `Graph.checkedPlaceholder`: the walks;
* `Visitor.outcome_walk_checked`, `Graph.checkedComplete_eq`,
  `Graph.checkedPlaceholder_eq`: that they come to the same;
* `Draft.build_never_dangles`: what holds of every schema that was built.
-/
import DefinitionTree.Canonical.Normalization
import DefinitionTree.Proofs.Schema.Closed

namespace DefinitionTree

namespace Graph

variable {g : Graph} {type : Option TypeRef}

/-- Looks a declared type up: it fails if no type has the name. -/
def check (g : Graph) : Option TypeRef → Except Failure Unit
  | some r => if g.resolves r then .ok () else .error (.unknownName r.text)
  | none => .ok ()

theorem check_eq_ok (known : g.IsKnown type) : g.check type = .ok () := by
  rcases type with - | r
  · rfl
  · rw [check, if_pos (resolves_of_base (known r rfl))]

end Graph

/-! ### Visiting -/

namespace Visitor

variable {v w : Visitor} {g : Graph} {type : Option TypeRef} {place : ElementId}

/-- A visitor that looks up the type of each value before it visits it. -/
def checked (v : Visitor) (g : Graph) : Visitor where
  visit type place t := do
    Journal.of (g.check type)
    v.visit type place t
  content_lt type place t u h := by
    rw [Journal.outcome_bind, Journal.outcome_of] at h
    rcases looked : g.check type with e | ⟨⟩
    · rw [looked] at h
      cases h
    · rw [looked] at h
      exact v.content_lt type place t u h

theorem outcome_visit_checked (known : g.IsKnown type) (place : ElementId) (t : Tree) :
    ((v.checked g).visit type place t).outcome = (v.visit type place t).outcome := by
  show (Journal.of (g.check type) >>= fun _ => v.visit type place t).outcome = _
  rw [Journal.outcome_bind, Journal.outcome_of, Graph.check_eq_ok known]
  rfl

/-- The two walks of a tree come to the same, whatever known type it has. -/
def WalkAlike (v w : Visitor) (g : Graph) (t : Tree) : Prop :=
  ∀ type place, g.IsKnown type → (v.walk g type place t).outcome = (w.walk g type place t).outcome

theorem outcome_walkItems_alike {ts : List Tree} (each : ∀ t ∈ ts, WalkAlike v w g t)
    (known : g.IsKnown type) (index : Nat) :
    (v.walkItems g type place index ts).outcome = (w.walkItems g type place index ts).outcome := by
  induction ts generalizing index with
  | nil => rw [walkItems_nil, walkItems_nil]
  | cons t ts ih =>
    obtain ⟨here, there⟩ := List.forall_mem_cons.mp each
    rw [outcome_walkItems_cons, outcome_walkItems_cons, here type _ known, ih there]

theorem outcome_walkEntries_alike (closed : g.IsClosed) {es : Entries}
    (each : ∀ e ∈ es, WalkAlike v w g e.2) :
    (v.walkEntries g type place es).outcome = (w.walkEntries g type place es).outcome := by
  induction es with
  | nil => rw [walkEntries_nil, walkEntries_nil]
  | cons e es ih =>
    obtain ⟨k, t⟩ := e
    obtain ⟨here, there⟩ := List.forall_mem_cons.mp each
    rw [outcome_walkEntries_cons, outcome_walkEntries_cons,
      here _ _ (closed.isKnown_field type k), ih there]

/-- Visitors that do the same at every known type make the same of a tree. -/
theorem walkAlike (closed : g.IsClosed)
    (same : ∀ type place t, g.IsKnown type →
      (v.visit type place t).outcome = (w.visit type place t).outcome) (t : Tree) :
    WalkAlike v w g t := by
  -- what stands in place of a value need not be a part of it, but holds less
  induction size : t.size using Nat.strongRecOn generalizing t with
  | ind size ih =>
    subst size
    intro type place known
    rw [outcome_walk, outcome_walk, ← same type place t known]
    rcases seen : (v.visit type place t).outcome with e | u
    · rfl
    have smaller : u.content < t.size := v.content_lt type place t u seen
    cases u with
    | list ts =>
      have each : ∀ t' ∈ ts, WalkAlike v w g t' := fun t' mem =>
        ih _ (Nat.lt_of_le_of_lt (Tree.size_le_sizeItems mem) smaller) t' rfl
      exact congrArg (Tree.list <$> ·) (outcome_walkItems_alike each (Graph.isKnown_item known) 0)
    | map es =>
      have each : ∀ e ∈ es, WalkAlike v w g e.2 := fun e mem =>
        ih _ (Nat.lt_of_le_of_lt (Tree.size_le_sizeEntries mem) smaller) e.2 rfl
      exact congrArg (Tree.map <$> ·) (outcome_walkEntries_alike closed each)
    | _ => rfl

/-- In a closed schema no look-up of a walk fails. -/
theorem outcome_walk_checked (closed : g.IsClosed) (known : g.IsKnown type) (place : ElementId)
    (t : Tree) : ((v.checked g).walk g type place t).outcome = (v.walk g type place t).outcome :=
  walkAlike closed (fun _ place t known => outcome_visit_checked known place t) t type place known

end Visitor

/-! ### Placeholders -/

namespace Graph

variable {g : Graph} {type : Option TypeRef} {place : ElementId}

/-- The placeholder of a type, looked up, while these object types may still be
opened. -/
def checkedPlaceholderIn (g : Graph) (closed : List String) (type : TypeRef) :
    Except Failure Placeholder :=
  match type with
  | .primitive _ => .ok .absent
  | .list _ => .ok .emptyList
  | .named name =>
    match g.type? name with
    | none => .error (.unknownName name)
    | some t =>
      if t.keepsTag then .ok .absent
      else if h : name ∈ closed then
        have : (closed.erase name).length < closed.length := length_erase_lt h
        .ofFields <$> t.restored.mapM fun f =>
          match f.annotations.default? with
          | some d => .ok (f.name, .ofDefault d)
          | none => (f.name, ·) <$> g.checkedPlaceholderIn (closed.erase name) f.type
      else .ok .absent
termination_by closed.length

/-- The placeholder of a type, looked up. -/
def checkedPlaceholder (g : Graph) (type : TypeRef) : Except Failure Placeholder :=
  g.checkedPlaceholderIn g.typeNames type

/-- The value that a missing field gets, its type looked up. -/
def checkedFieldPlaceholder (g : Graph) (f : Field) : Except Failure Placeholder :=
  match f.annotations.default? with
  | some d => .ok (.ofDefault d)
  | none => g.checkedPlaceholder f.type

theorem IsClosed.isKnown_of_restored (closed : g.IsClosed) {name : String} {t : ObjectType}
    (found : g.type? name = some t) {f : Field} (hf : f ∈ t.restored) :
    g.resolves f.type.base = true :=
  closed.known t (List.mem_of_find?_eq_some found) f (ObjectType.mem_restored.mp hf).1

theorem checkedPlaceholderIn_eq (isClosed : g.IsClosed) (closed : List String) (r : TypeRef)
    (known : g.resolves r = true) :
    g.checkedPlaceholderIn closed r = .ok (g.placeholderIn closed r) := by
  -- the induction is on the types that may still be opened
  induction n : closed.length using Nat.strongRecOn generalizing closed r with
  | ind n ih =>
    subst n
    cases r with
    | named name =>
      obtain ⟨t, found⟩ := Option.isSome_iff_exists.mp known
      rw [checkedPlaceholderIn, placeholderIn]
      simp only [found]
      -- unions that keep their tag and types that are open already need no look-up
      split
      · rfl
      split
      · rename_i mem
        rw [mapM_eq_ok_map fun f => (f.name, g.fieldPlaceholderIn (closed.erase name) f)]
        · rfl
        intro f hf
        have inside : g.resolves f.type = true :=
          resolves_of_base (isClosed.isKnown_of_restored found hf)
        rcases default_ : f.annotations.default? with - | d
        · simp only [fieldPlaceholderIn, default_,
            ih _ (length_erase_lt mem) (closed.erase name) f.type inside rfl]
          rfl
        · simp only [fieldPlaceholderIn, default_]
      · rfl
    | _ => rw [checkedPlaceholderIn, placeholderIn]

/-- In a closed schema a placeholder is made without a look-up that fails. -/
theorem checkedPlaceholder_eq (closed : g.IsClosed) {r : TypeRef} (known : g.resolves r = true) :
    g.checkedPlaceholder r = .ok (g.placeholder r) :=
  checkedPlaceholderIn_eq closed g.typeNames r known

theorem checkedFieldPlaceholder_eq (closed : g.IsClosed) {t : ObjectType} (ht : t ∈ g.types)
    {f : Field} (hf : f ∈ t.fields) : g.checkedFieldPlaceholder f = .ok (g.fieldPlaceholder f) := by
  rw [checkedFieldPlaceholder, fieldPlaceholder]
  rcases f.annotations.default? with - | d
  · exact checkedPlaceholder_eq closed (resolves_of_base (closed.known t ht f hf))
  · rfl

/-! ### Completing -/

mutual

/-- Completes a value and everything inside it, every type looked up. -/
def checkedFill (g : Graph) (filler : Filler) (type : Option TypeRef) (place : ElementId) :
    Tree → Except Failure Tree
  | .list ts => do
    g.check (itemType type)
    .list <$> g.checkedFillItems filler (itemType type) place 0 ts
  | .map es =>
    match g.additions type place es with
    | .nothing => .map <$> g.checkedFillEntries filler type place es
    | .variantMark k =>
      -- the mark is passed on like any other entry
      if k.same Wire.tagKey then do
        g.check (g.fieldType type Wire.tagKey)
        return .map [(k, Tree.ofKey k)]
      else do
        let old ← g.checkedFillEntries filler type place es
        g.check (g.fieldType type Wire.tagKey)
        return .map (old ++ kept Wire.tagKey (Tree.ofKey k) [])
    | .fields owner missing => do
      let old ← g.checkedFillEntries filler type place es
      let new ← g.fillFields filler type place owner missing
      return .map (old ++ new)
  | t => .ok t

/-- Completes the items of a list, whose type has been looked up. -/
def checkedFillItems (g : Graph) (filler : Filler) (type : Option TypeRef) (place : ElementId)
    (index : Nat) : List Tree → Except Failure (List Tree)
  | [] => .ok []
  | t :: rest => do
    let u ← g.checkedFill filler type (place.item index) t
    let us ← g.checkedFillItems filler type place (index + 1) rest
    return match u with
      | .null => us
      | u => u :: us

/-- Completes the values of a mapping, the type of each looked up. -/
def checkedFillEntries (g : Graph) (filler : Filler) (type : Option TypeRef) (place : ElementId) :
    Entries → Except Failure Entries
  | [] => .ok []
  | (k, t) :: rest => do
    g.check (g.fieldType type k)
    let u ← g.checkedFill filler (g.fieldType type k) (place.entry k) t
    let us ← g.checkedFillEntries filler type place rest
    return kept k u us

end

/-- Fills a missing field, its type and all types inside its placeholder looked
up. -/
def checkedFiller (g : Graph) (inner : Filler) : Filler := fun _ f type place => do
  let p ← g.checkedFieldPlaceholder f
  g.check type
  g.checkedFill inner type place p.value

/-- The way to fill a missing field with at most this many fillings inside each
other, every type looked up. -/
def checkedNestedFiller (g : Graph) : Nat → Filler
  | 0 => fun owner f _ _ => .error (.endlessDefault owner f.name)
  | depth + 1 => g.checkedFiller (g.checkedNestedFiller depth)

/-- The completed form of a definition at a place, every type looked up. -/
def checkedComplete (g : Graph) (place : ElementId) (t : Tree) : Except Failure Tree := do
  match ← g.checkedFill (g.checkedNestedFiller g.nesting) (some g.rootRef) place t with
  | .null => return .map []
  | u => return u

/-- Two ways to fill the fields of the schema that do the same at every known type. -/
def FillAlike (g : Graph) (filler filler' : Filler) : Prop :=
  ∀ t ∈ g.types, ∀ f ∈ t.fields, ∀ type place, g.IsKnown type →
    filler t.name f type place = filler' t.name f type place

variable {filler filler' : Filler}

theorem fillFields_alike (closed : g.IsClosed) (alike : g.FillAlike filler filler')
    {taken : Option TypeRef} {t : ObjectType} {missing : List Field}
    (back : ∀ f ∈ missing, g.PutsBack taken t f) :
    g.fillFields filler type place t.name missing
      = g.fillFields filler' type place t.name missing := by
  induction missing with
  | nil => rfl
  | cons f rest ih =>
    obtain ⟨here, there⟩ := List.forall_mem_cons.mp back
    rw [fillFields, fillFields, ih there, alike t (mem_types_of_objectAt? here.object) f here.mem
      _ _ (closed.isKnown_field type (.text f.name))]

/-- Looking up every type on the way, the value is completed to the same. -/
def FillsChecked (g : Graph) (filler filler' : Filler) (t : Tree) : Prop :=
  ∀ type place, g.IsKnown type → g.checkedFill filler type place t = g.fillWith filler' type place t

theorem checkedFillItems_eq {ts : List Tree} (each : ∀ t ∈ ts, g.FillsChecked filler filler' t)
    (known : g.IsKnown type) (index : Nat) :
    g.checkedFillItems filler type place index ts = g.fillItems filler' type place index ts := by
  induction ts generalizing index with
  | nil => rfl
  | cons t ts ih =>
    obtain ⟨here, there⟩ := List.forall_mem_cons.mp each
    rw [checkedFillItems, here type _ known, ih there]
    rfl

theorem checkedFillEntries_eq (closed : g.IsClosed) {es : Entries}
    (each : ∀ e ∈ es, g.FillsChecked filler filler' e.2) :
    g.checkedFillEntries filler type place es = g.fillEntries filler' type place es := by
  induction es with
  | nil => rfl
  | cons e es ih =>
    obtain ⟨k, t⟩ := e
    obtain ⟨here, there⟩ := List.forall_mem_cons.mp each
    have known : g.IsKnown (g.fieldType type k) := closed.isKnown_field type k
    rw [checkedFillEntries, fillEntries, here _ _ known, ih there, check_eq_ok known]
    rfl

theorem checkedFill_eq (closed : g.IsClosed) (alike : g.FillAlike filler filler') (t : Tree) :
    g.FillsChecked filler filler' t := by
  induction t using Tree.induct with
  | leaf t scalar =>
    intro type place _
    cases t with
    | list => cases scalar
    | map => cases scalar
    | _ => rfl
  | list ts ih =>
    intro type place known
    have item : g.IsKnown (itemType type) := isKnown_item known
    rw [checkedFill, fillWith, checkedFillItems_eq ih item, check_eq_ok item]
    rfl
  | map es ih =>
    intro type place _
    have old : g.checkedFillEntries filler type place es = g.fillEntries filler' type place es :=
      checkedFillEntries_eq closed ih
    have mark : g.check (g.fieldType type Wire.tagKey) = .ok () :=
      check_eq_ok (closed.isKnown_field type Wire.tagKey)
    rw [checkedFill, fillWith, old]
    rcases lacks : g.additions type place es with - | k | ⟨owner, missing⟩
    · rfl
    · dsimp only
      rw [mark]
      rfl
    · obtain ⟨t, rfl, back⟩ :=
        putsBack_of_additionsOf ((additions_eq_additionsOf es).symm.trans lacks)
      dsimp only
      rw [fillFields_alike closed alike back]

theorem checkedNestedFiller_alike (closed : g.IsClosed) (depth : Nat) :
    g.FillAlike (g.checkedNestedFiller depth) (g.nestedFiller depth) := by
  induction depth with
  | zero => exact fun _ _ _ _ _ _ _ => rfl
  | succ depth ih =>
    intro t ht f hf type place known
    show (do
      let p ← g.checkedFieldPlaceholder f
      g.check type
      g.checkedFill (g.checkedNestedFiller depth) type place p.value) = _
    rw [checkedFieldPlaceholder_eq closed ht hf, check_eq_ok known]
    exact checkedFill_eq closed ih (g.fieldPlaceholder f).value type place known

/-- In a closed schema a definition is completed without a look-up that fails. -/
theorem checkedComplete_eq (closed : g.IsClosed) (place : ElementId) (t : Tree) :
    g.checkedComplete place t = g.complete place t := by
  have fills : g.checkedFill (g.checkedNestedFiller g.nesting) (some g.rootRef) place t
      = g.fill g.nesting (some g.rootRef) place t :=
    checkedFill_eq closed (checkedNestedFiller_alike closed g.nesting) t _ place (isKnown_root g)
  rw [checkedComplete, fills]
  rfl

end Graph

/-! ### Schemas that were built -/

/-- Normalizes a definition, every type looked up. -/
def Normalizer.checkedNormalize (n : Normalizer) (place : ElementId) (t : Tree) :
    Journal (Option Tree) := do
  let u ← (n.visitor.checked n.graph).walk n.graph (some n.graph.rootRef) place t
  return if u.isEmpty then none else some u

theorem Normalizer.outcome_checkedNormalize {n : Normalizer} (closed : n.graph.IsClosed)
    (place : ElementId) (t : Tree) :
    (n.checkedNormalize place t).outcome = (n.normalize place t).outcome := by
  rw [checkedNormalize, normalize, Journal.outcome_bind, Journal.outcome_bind, walk,
    Visitor.outcome_walk_checked closed (Graph.isKnown_root n.graph)]

/-- **Schemas that were built never dangle.**  A draft is built if and only if its root
is declared and each reference, with its list layers taken off, is builtin or
declared.  In what is built every look-up along every path from an object type gives
what is declared there; and normalizing, completing and making placeholders do what
they do when they look up every type on the way. -/
theorem Draft.build_never_dangles {d : Draft} (h : d.Drafted) (root : String) :
    ((∃ g, d.build root = .ok g) ↔
      d.Declares root ∧ ∀ t ∈ d.types, ∀ f ∈ t.fields, d.Knows (TypeRef.bareName f.spelling)) ∧
    ∀ g, d.build root = .ok g →
      (∀ t ∈ g.types, ∀ path, ∃ n, g.nodeAlong (some (.object t)) path = .ok n ∧
        Option.Rel g.StandsFor (g.typeAlong (some (.named t.name)) path) n) ∧
      (∀ lookup settings place t,
        (Normalizer.checkedNormalize ⟨g, lookup, settings⟩ place t).outcome
          = (Normalizer.normalize ⟨g, lookup, settings⟩ place t).outcome) ∧
      (∀ place t, g.checkedComplete place t = g.complete place t) ∧
      ∀ r, g.resolves r = true → g.checkedPlaceholder r = .ok (g.placeholder r) := by
  refine ⟨exists_build_iff h, fun g built => ?_⟩
  have closed : g.IsClosed := Graph.isClosed_of_build h built
  refine ⟨fun t ht path => ?_, fun _ _ => Normalizer.outcome_checkedNormalize closed,
    Graph.checkedComplete_eq closed, fun r => Graph.checkedPlaceholder_eq closed⟩
  exact Graph.exists_nodeAlong closed (.some (.object (type?_of_build h built ht))) path

/-- Shelves hold rows of books, and each book knows its shelf. -/
def Draft.shelfDraft : Draft where
  types := [
    ⟨"shelf", [⟨"rows", .ofText "List<List<book>>", "List<List<book>>", {}⟩], false, false⟩,
    ⟨"book", [⟨"shelf", .ofText "shelf", "shelf", {}⟩], false, false⟩]

theorem Draft.drafted_shelfDraft : shelfDraft.Drafted := by
  have shelf : Draft.declare {} "shelf" false false = .ok ⟨[⟨"shelf", [], false, false⟩]⟩ := rfl
  have book : Draft.declare ⟨[⟨"shelf", [], false, false⟩]⟩ "book" false false
      = .ok ⟨[⟨"shelf", [], false, false⟩, ⟨"book", [], false, false⟩]⟩ := rfl
  have rows : Draft.addField ⟨[⟨"shelf", [], false, false⟩, ⟨"book", [], false, false⟩]⟩ "shelf"
      "rows" "List<List<book>>" [] = .ok _ := rfl
  exact .step (.step (.step (.step .empty (.declare shelf)) (.declare book)) (.addField rows))
    (.addField (rfl : Draft.addField _ "book" "shelf" "shelf" [] = _))

/-- The draft is built, and from a book of a row back to the shelf no look-up fails. -/
theorem Draft.build_shelfDraft : shelfDraft.Drafted ∧ ∃ g, shelfDraft.build "shelf" = .ok g ∧
    ∃ n, g.nodeAlong (some (.object g.root)) [.entry "rows", .item 0, .item 0, .entry "shelf"]
      = .ok n ∧ Option.Rel g.StandsFor (g.typeAlong (some g.rootRef)
        [.entry "rows", .item 0, .item 0, .entry "shelf"]) n := by
  have drafted : shelfDraft.Drafted := drafted_shelfDraft
  have row : TypeRef.bareName "List<List<book>>" = "book" := by
    rw [TypeRef.bareName, TypeRef.bareChars_of_list
      (show TypeRef.listItem? "List<List<book>>".toList = some "List<book>".toList by decide),
      TypeRef.bareChars_of_list
      (show TypeRef.listItem? "List<book>".toList = some "book".toList by decide),
      TypeRef.bareChars_of_none (by decide)]
    rfl
  have shelf : TypeRef.bareName "shelf" = "shelf" := by
    rw [TypeRef.bareName, TypeRef.bareChars_of_none (by decide)]
    rfl
  obtain ⟨built_iff, walks⟩ := build_never_dangles drafted "shelf"
  have known : ∀ t ∈ shelfDraft.types, ∀ f ∈ t.fields,
      shelfDraft.Knows (TypeRef.bareName f.spelling) := by
    simp [shelfDraft, row, shelf, Knows, Declares]
  obtain ⟨g, built⟩ := built_iff.mpr ⟨⟨_, List.mem_cons_self, rfl⟩, known⟩
  obtain ⟨along, -⟩ := walks g built
  exact ⟨drafted, g, built, along g.root List.mem_cons_self _⟩

end DefinitionTree
