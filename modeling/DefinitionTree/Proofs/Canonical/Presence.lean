/-
DefinitionTree/Proofs/Canonical/Presence.lean

Which defaults are there after completion.

A mapping that lacks a field gets the field's default, wherever in a definition it
stands, and a default that is a scalar is not completed further.  But two things
keep it away.  What is absent is left out of mappings, and a default may itself be
absent: a field with such a default is not put in.  And a mapping whose only key is
the mark of a variant, at a union that keeps its tag, becomes the mark: whatever
stood in it is lost, and its fields with it.

Main definitions and statements:

* `Graph.objectTo?`: the object type at the end of a path;
* `Graph.GivesWay`: what is lost to a mark;
* `Graph.reach?_filled`: what else stands at the end of a path, completed;
* `Graph.complete_default_iff`: which defaults are there.
-/
import DefinitionTree.Proofs.Canonical.Addition
import DefinitionTree.Proofs.Canonical.Ending
import DefinitionTree.Proofs.Tree.Path

namespace DefinitionTree

open DefinitionTree.Tree (Branch)

/-- The place one branch down. -/
def ElementId.under (place : ElementId) : Branch → ElementId
  | .item index => place.item index
  | .value k => place.entry k

namespace Graph

variable {g : Graph} {filler : Filler} {type : Option TypeRef} {place : ElementId}
variable {es fs : Entries} {t u c : Tree} {branch : Branch} {path : List Branch}

/-! ### Types along paths of branches -/

/-- The declared type one branch down. -/
def typeUnder (g : Graph) (type : Option TypeRef) : Branch → Option TypeRef
  | .item _ => itemType type
  | .value k => g.fieldType type k

/-- The object type that counts at the end of a path. -/
def objectTo? (g : Graph) (type : Option TypeRef) (place : ElementId) (path : List Branch) :
    Option ObjectType :=
  g.objectAt? (g.typeAt (path.foldl g.typeUnder type) (path.foldl ElementId.under place))

/-! ### Variants that are called like the mark -/

/-- The only key of the mapping is the mark, at a union that keeps its tag. -/
def IsMarkAlone (g : Graph) (type : Option TypeRef) (place : ElementId) (t : Tree) : Prop :=
  ∃ o u, g.objectAt? (g.typeAt type place) = some o ∧ o.keepsTag = true ∧
    t = .map [(Wire.tagKey, u)]

/-- The path goes on from such a mapping. -/
def GivesWay (g : Graph) : Option TypeRef → ElementId → Tree → List Branch → Prop
  | _, _, _, [] => False
  | type, place, t, branch :: path => g.IsMarkAlone type place t ∨
      ∃ u, t.branch? branch = some u ∧
        g.GivesWay (g.typeUnder type branch) (place.under branch) u path

/-- The variant gives way to its own name. -/
theorem fillWith_markAlone (alone : g.IsMarkAlone type place t) :
    g.fillWith filler type place t = .ok (.map [(Wire.tagKey, Tree.ofKey Wire.tagKey)]) := by
  obtain ⟨o, u, object, keeps, rfl⟩ := alone
  have mark : g.additions type place [(Wire.tagKey, u)] = .variantMark Wire.tagKey := by
    rw [additions, object]
    rcases o.additions_cases [(Wire.tagKey, u)] with ⟨typed, -⟩ | ⟨-, -, k, v, single, eq⟩ |
      ⟨-, several, -⟩
    · cases typed
    · cases single
      exact eq
    · exact absurd rfl (several keeps)
  rw [fillWith, mark]
  exact if_pos (Key.same_self _)

/-- Any other mapping keeps its entries, completed, and missing fields stand behind
them. -/
theorem fillWith_map_cases (h : g.fillWith filler type place (.map es) = .ok c) :
    g.IsMarkAlone type place (.map es) ∨
    ∃ old new, g.fillEntries filler type place es = .ok old ∧ c = .map (old ++ new) ∧
      ∀ owner missing, g.additions type place es = .fields owner missing →
        g.fillFields filler type place owner missing = .ok new := by
  -- what the mapping lacks decides what stands behind its entries
  rw [fillWith] at h
  rcases lacks : g.additions type place es with - | k | ⟨owner, missing⟩ <;>
    simp only [lacks] at h
  · right
    obtain ⟨old, inside, rfl⟩ := map_eq_ok_iff.mp h
    refine ⟨old, [], inside, by rw [List.append_nil], ?_⟩
    rintro _ _ ⟨⟩
  · split at h
    · rename_i mark
      left
      obtain ⟨o, u, object, keeps, rfl⟩ := exists_variant lacks
      obtain rfl : k = Wire.tagKey := Key.same_text_iff.mp mark
      exact ⟨o, u, object, keeps, rfl⟩
    · right
      obtain ⟨old, inside, last⟩ := bind_eq_ok_iff.mp h
      cases last
      refine ⟨old, _, inside, rfl, ?_⟩
      rintro _ _ ⟨⟩
  · right
    obtain ⟨old, inside, h⟩ := bind_eq_ok_iff.mp h
    obtain ⟨new, fields, last⟩ := bind_eq_ok_iff.mp h
    cases last
    refine ⟨old, new, inside, rfl, ?_⟩
    rintro _ _ ⟨⟩
    exact fields

/-! ### One branch down -/

/-- Only what is absent comes to nothing. -/
theorem key?_filled (h : g.fillWith filler type place t = .ok c) :
    c.key? = some .null ↔ t.key? = some .null := by
  cases t with
  | list ts =>
    obtain ⟨us, -, rfl⟩ := map_eq_ok_iff.mp h
    rfl
  | map es =>
    rcases fillWith_map_cases h with alone | ⟨old, new, -, rfl, -⟩
    · rw [fillWith_markAlone alone] at h
      cases h
      rfl
    · rfl
  | _ =>
    cases h
    rfl

/-- An item moves up by as many as are absent before it. -/
theorem getElem?_fillItems {ts us : List Tree} {index i : Nat}
    (filled : g.fillItems filler type place index ts = .ok us) (there : ts[i]? = some u)
    (some_ : u.key? ≠ some .null) :
    ∃ v, us[(ts.take i).countP fun u => u.key? ≠ some .null]? = some v ∧
      g.fillWith filler type (place.item (index + i)) u = .ok v := by
  induction ts generalizing index i us with
  | nil => cases there
  | cons t ts ih =>
    rw [fillItems] at filled
    obtain ⟨w, here, filled⟩ := bind_eq_ok_iff.mp filled
    obtain ⟨ws, rest, last⟩ := bind_eq_ok_iff.mp filled
    have items : us = if w.key? = some .null then ws else w :: ws := by
      cases last
      cases w <;> rfl
    cases i with
    | zero =>
      cases there
      rw [if_neg fun none => some_ ((key?_filled here).mp none)] at items
      exact ⟨w, by rw [items]; rfl, here⟩
    | succ i =>
      obtain ⟨v, at_, value⟩ := ih rest there
      refine ⟨v, ?_, by rwa [← Nat.succ_add_eq_add_succ]⟩
      -- the first item is counted just if it is not left out
      rw [List.take_succ_cons, List.countP_cons, items]
      simp only [key?_filled here]
      by_cases absent : t.key? = some .null
      · simpa [absent] using at_
      · simpa [absent] using at_

theorem lookup_fillEntries {k : Key} (filled : g.fillEntries filler type place es = .ok fs)
    (there : es.lookup k = some u) (some_ : u.key? ≠ some .null) :
    ∃ v, fs.lookup k = some v ∧
      g.fillWith filler (g.fieldType type k) (place.entry k) u = .ok v := by
  induction es generalizing fs with
  | nil => cases there
  | cons e es ih =>
    obtain ⟨k', t⟩ := e
    rw [fillEntries] at filled
    obtain ⟨w, here, filled⟩ := bind_eq_ok_iff.mp filled
    obtain ⟨ws, rest, last⟩ := bind_eq_ok_iff.mp filled
    cases last
    rw [kept_eq_ite]
    rw [List.lookup_cons] at there
    split at there
    · rename_i same
      cases there
      obtain rfl : k = k' := eq_of_beq same
      rw [if_neg fun none => some_ ((key?_filled here).mp none), List.lookup_cons_self]
      exact ⟨w, rfl, here⟩
    · rename_i other
      obtain ⟨v, at_, value⟩ := ih rest there
      refine ⟨v, ?_, value⟩
      split
      · exact at_
      · rw [List.lookup_cons, other]
        exact at_

/-- What stands one branch down is completed there, unless the mapping becomes its
mark. -/
theorem branch?_filled (h : g.fillWith filler type place t = .ok c)
    (down : t.branch? branch = some u) (some_ : u.key? ≠ some .null)
    (other : ¬g.IsMarkAlone type place t) :
    ∃ v, c.branch? (t.shifted branch) = some v ∧
      g.fillWith filler (g.typeUnder type branch) (place.under branch) u = .ok v := by
  cases branch with
  | item index =>
    cases t with
    | list ts =>
      obtain ⟨us, items, rfl⟩ := map_eq_ok_iff.mp h
      obtain ⟨v, at_, value⟩ := getElem?_fillItems items down some_
      exact ⟨v, at_, by rwa [Nat.zero_add] at value⟩
    | _ => cases down
  | value k =>
    cases t with
    | map es =>
      obtain ⟨old, new, inside, rfl, -⟩ := (fillWith_map_cases h).resolve_left other
      obtain ⟨v, at_, value⟩ := lookup_fillEntries inside down some_
      refine ⟨v, ?_, value⟩
      show (old ++ new).lookup k = some v
      rw [List.lookup_append, at_]
      rfl
    | _ => cases down

/-! ### At the end of a path -/

/-- What stands at the end of a path is completed there, unless it is lost to a
mark. -/
theorem reach?_filled (h : g.fillWith filler type place t = .ok c)
    (there : t.reach? path = some u) (some_ : u.key? ≠ some .null)
    (stays : ¬g.GivesWay type place t path) :
    ∃ v, c.reach? (t.shiftedPath path) = some v ∧
      g.fillWith filler (path.foldl g.typeUnder type) (path.foldl ElementId.under place) u
        = .ok v := by
  induction path generalizing type place t c with
  | nil =>
    cases there
    exact ⟨c, rfl, h⟩
  | cons branch path ih =>
    obtain ⟨w, down, rest⟩ := Option.bind_eq_some_iff.mp there
    obtain ⟨other, inside⟩ := not_or.mp stays
    obtain ⟨v, at_, value⟩ := branch?_filled h down (Tree.key?_ne_null_of_reach? rest some_) other
    rw [Tree.shiftedPath_cons_of_branch? down, Tree.reach?_cons_of_branch? at_]
    exact ih value rest fun way => inside ⟨w, down, way⟩

/-- Where the path goes on from something that becomes its mark, something stands. -/
theorem GivesWay.key?_ne_null (way : g.GivesWay type place t path) : t.key? ≠ some .null := by
  cases path with
  | nil => cases way
  | cons branch path =>
    cases t with
    | null =>
      rcases way with ⟨o, u, -, -, eq⟩ | ⟨u, down, -⟩
      · cases eq
      · cases branch <;> cases down
    | _ => nofun

/-- No mapping stands inside a mark. -/
theorem reach?_mark_ne_map (k : Key) (branch : Branch) (path : List Branch) :
    (Tree.map [(k, Tree.ofKey k)]).reach? (branch :: path) ≠ some (.map fs) := by
  intro there
  obtain ⟨v, down, rest⟩ := Option.bind_eq_some_iff.mp there
  have leaf : v = Tree.ofKey k := by
    cases branch with
    | item => cases down
    | value k' =>
      have found : [(k, Tree.ofKey k)].lookup k' = some v := down
      rw [List.lookup_cons] at found
      split at found
      · exact (Option.some.inj found).symm
      · cases found
  subst leaf
  cases path with
  | nil => cases k <;> cases rest
  | cons branch path => cases branch <;> cases k <;> cases rest

/-- What is lost to a mark leaves no mapping. -/
theorem reach?_ne_map_of_givesWay (h : g.fillWith filler type place t = .ok c)
    (way : g.GivesWay type place t path) (fs : Entries) :
    c.reach? (t.shiftedPath path) ≠ some (.map fs) := by
  induction path generalizing type place t c with
  | nil => cases way
  | cons branch path ih =>
    by_cases alone : g.IsMarkAlone type place t
    · rw [fillWith_markAlone alone] at h
      cases h
      exact reach?_mark_ne_map _ _ _
    · -- the mark comes further down
      obtain ⟨w, down, inside⟩ := way.resolve_left alone
      obtain ⟨v, at_, value⟩ := branch?_filled h down inside.key?_ne_null alone
      rw [Tree.shiftedPath_cons_of_branch? down, Tree.reach?_cons_of_branch? at_]
      exact ih value inside

/-! ### Fields that are put in -/

/-- A missing field gets what fills it, unless that is absent. -/
theorem field?_fillFields {owner : String} {missing : List Field} {f : Field} {v : Tree}
    (filled : g.fillFields filler type place owner missing = .ok fs)
    (distinct : (missing.map fun f => Key.text f.name).Nodup) (mem : f ∈ missing)
    (value : filler owner f (g.fieldType type (.text f.name)) (place.entry (.text f.name))
      = .ok v) :
    Entries.field? f.name fs = if v.key? = some .null then none else some v := by
  induction missing generalizing fs with
  | nil => cases mem
  | cons f' rest ih =>
    obtain ⟨new, distinct⟩ := List.nodup_cons.mp distinct
    rw [fillFields] at filled
    obtain ⟨w, here, filled⟩ := bind_eq_ok_iff.mp filled
    obtain ⟨ws, others, last⟩ := bind_eq_ok_iff.mp filled
    cases last
    rw [kept_eq_ite, Entries.field?]
    rcases List.mem_cons.mp mem with rfl | mem
    · obtain rfl : w = v := Except.ok.inj (here.symm.trans value)
      split
      · -- no field behind it has the same name
        exact Entries.get?_eq_none fun there => new ((keysOf_fillFields others).subset there)
      · exact Entries.get?_cons_self _ _ _
    · have other : Key.text f'.name ≠ .text f.name := fun same =>
        new (List.mem_map.mpr ⟨f, mem, same.symm⟩)
      split
      · exact ih others distinct mem
      · rw [Entries.get?_cons_of_ne other]
        exact ih others distinct mem

theorem additions_eq_fields {o : ObjectType} (object : g.objectAt? (g.typeAt type place) = some o)
    (untyped : Entries.has Wire.typeKey es = false) (several : o.keepsTag = true → es.length ≠ 1) :
    g.additions type place es = .fields o.name (o.missing es) := by
  rw [additions, object]
  rcases o.additions_cases es with ⟨typed, -⟩ | ⟨-, keeps, k, u, rfl, -⟩ | ⟨-, -, eq⟩
  · rw [untyped] at typed
    cases typed
  · exact absurd rfl (several keeps)
  · exact eq

/-- A mapping that lacks a field gets its default, unless that is absent. -/
theorem field?_filled (distinct : g.HasDistinctFields) {depth : Nat} {o : ObjectType} {f : Field}
    {d : Tree} (h : g.fill (depth + 1) type place (.map es) = .ok c)
    (object : g.objectAt? (g.typeAt type place) = some o)
    (untyped : Entries.has Wire.typeKey es = false) (several : o.keepsTag = true → es.length ≠ 1)
    (lacks : f ∈ o.missing es) (default_ : f.annotations.default? = some d)
    (scalar : d.key?.isSome = true) :
    ∃ fs, c = .map fs ∧
      Entries.field? f.name fs = if d.key? = some .null then none else some d := by
  have other : ¬g.IsMarkAlone type place (.map es) := by
    rintro ⟨o', u, object', keeps, eq⟩
    cases object.symm.trans object'
    cases eq
    exact several keeps rfl
  obtain ⟨old, new, inside, rfl, fields⟩ := (fillWith_map_cases h).resolve_left other
  have filled := fields _ _ (additions_eq_fields object untyped several)
  obtain ⟨names, lacking⟩ := o.missing_new es (distinct o (mem_types_of_objectAt? object))
  -- a scalar default is not filled any further
  have value : g.nestedFiller (depth + 1) o.name f (g.fieldType type (.text f.name))
      (place.entry (.text f.name)) = .ok d := by
    have placeholder : (g.fieldPlaceholder f).value = d := by
      simp only [fieldPlaceholder, default_]
      rfl
    rw [nestedFiller, filler, placeholder]
    exact fillWith_leaf scalar
  refine ⟨_, rfl, ?_⟩
  rw [Entries.field?, Entries.get?_append_of_notMem fun there =>
    lacking f lacks (keysOf_fillEntries inside _ there)]
  exact field?_fillFields filled names lacks value

/-! ### Whole definitions -/

/-- At the end of the path stands a mapping at an object type.  It does not say
itself what type it has, nor is it a single entry at a union that keeps its tag.  And
it lacks a field that is put back and whose default is a scalar. -/
structure LacksDefault (g : Graph) (place : ElementId) (t : Tree) (path : List Branch)
    (es : Entries) (o : ObjectType) (f : Field) (d : Tree) : Prop where
  stands : t.reach? path = some (.map es)
  object : g.objectTo? (some g.rootRef) place path = some o
  untyped : Entries.has Wire.typeKey es = false
  several : o.keepsTag = true → es.length ≠ 1
  mem : f ∈ o.fields
  lacks : Entries.has (.text f.name) es = false
  back : f.annotations.isOmitted = false
  default : f.annotations.default? = some d
  scalar : d.key?.isSome = true

theorem LacksDefault.missing {place : ElementId} {o : ObjectType} {f : Field} {d : Tree}
    (h : g.LacksDefault place t path es o f d) : f ∈ o.missing es :=
  List.mem_filter.mpr ⟨h.mem, by rw [h.lacks, h.back]; rfl⟩

/-- What is not absent is completed to what is filled in. -/
theorem fill_of_complete (done : g.complete place t = .ok c) (some_ : t.key? ≠ some .null) :
    g.fill g.nesting (some g.rootRef) place t = .ok c := by
  obtain ⟨u, filled, last⟩ := bind_eq_ok_iff.mp done
  have left : u.key? ≠ some .null := fun none => some_ ((key?_filled filled).mp none)
  cases u with
  | null => exact absurd rfl left
  | _ =>
    cases last
    exact filled

/-- **Which defaults are there.**  Completing a definition ends if no default holds a
mapping.  In the completed form a mapping that lacked a field with a scalar default
has the field, with this default, if and only if the default is not absent and the
mapping is not lost to a mark.  In every schema that was built the fields of a type
have different names (`Draft.distinct_of_build`). -/
theorem complete_default_iff (distinct : g.HasDistinctFields) (place : ElementId) (t : Tree) :
    (g.HasMapFreeDefaults → ∃ c, g.complete place t = .ok c) ∧
    ∀ c, g.complete place t = .ok c → ∀ path es o f d, g.LacksDefault place t path es o f d →
      ((∃ fs, c.reach? (t.shiftedPath path) = some (.map fs) ∧
          Entries.field? f.name fs = some d) ↔
        d ≠ .null ∧ ¬g.GivesWay (some g.rootRef) place t path) := by
  refine ⟨fun free => complete_ends_of_free distinct free place t, fun c done path es o f d h => ?_⟩
  -- where a mapping stands at all, something is filled in
  have some_ : (Tree.map es).key? ≠ some .null := nofun
  have filled := fill_of_complete done (Tree.key?_ne_null_of_reach? h.stands some_)
  by_cases way : g.GivesWay (some g.rootRef) place t path
  · refine iff_of_false ?_ fun both => both.2 way
    rintro ⟨fs, there, -⟩
    exact reach?_ne_map_of_givesWay filled way fs there
  · obtain ⟨v, there, value⟩ := reach?_filled filled h.stands some_ way
    obtain ⟨fs, rfl, field⟩ :=
      field?_filled distinct value h.object h.untyped h.several h.missing h.default h.scalar
    have default_iff : Entries.field? f.name fs = some d ↔ d ≠ .null := by
      rw [field]
      cases d <;> simp [Tree.key?]
    rw [there, ← default_iff]
    constructor
    · rintro ⟨_, ⟨⟩, has⟩
      exact ⟨has, way⟩
    · rintro ⟨has, -⟩
      exact ⟨fs, rfl, has⟩

/-- Without unions that keep their tag nothing is lost to a mark. -/
theorem not_givesWay (untagged : ∀ o ∈ g.types, o.keepsTag = false) :
    ¬g.GivesWay type place t path := by
  induction path generalizing type place t with
  | nil => nofun
  | cons branch path ih =>
    rintro (⟨o, u, object, keeps, -⟩ | ⟨u, -, inside⟩)
    · rw [untagged o (mem_types_of_objectAt? object)] at keeps
      cases keeps
    · exact ih inside

/-- The access to the parent of a folder, with nothing said about it. -/
def parentAccess : Tree := .map [(.text "parent", .map [(.text "access", .map [])])]

theorem parentAccess_lacksDefault :
    folderSchema.LacksDefault (.ofInstance "netsuite" "workbook" "x1") parentAccess
      [.value (.text "parent"), .value (.text "access")] [] folderSchema.others[0]
      folderSchema.others[0].fields[1] (.bool false) where
  stands := rfl
  object := rfl
  untyped := rfl
  several := nofun
  mem := List.getElem_mem _
  lacks := rfl
  back := rfl
  default := rfl
  scalar := rfl

/-- The access to the parent gets the default of its field, which is not public. -/
theorem complete_parentAccess :
    folderSchema.HasDistinctFields ∧ ∃ c fs,
      folderSchema.complete (.ofInstance "netsuite" "workbook" "x1") parentAccess = .ok c ∧
      c.reach? [.value (.text "parent"), .value (.text "access")] = some (.map fs) ∧
      Entries.field? "public" fs = some (.bool false) := by
  obtain ⟨ends_, defaults⟩ := complete_default_iff folderSchema_hasDistinctFields
    (.ofInstance "netsuite" "workbook" "x1") parentAccess
  obtain ⟨c, done⟩ := ends_ folderSchema_hasFlatDefaults.hasMapFreeDefaults
  have untagged : ∀ o ∈ folderSchema.root :: folderSchema.others, o.keepsTag = false := by decide
  obtain ⟨fs, there, has⟩ := (defaults c done _ _ _ _ _ parentAccess_lacksDefault).mpr
    ⟨nofun, not_givesWay untagged⟩
  exact ⟨folderSchema_hasDistinctFields, c, fs, done, there, has⟩

/-- One field, whose default is absent. -/
def absentDefault : Graph where
  root := ⟨"a", [⟨"x", .primitive .string, "string", { default? := some .null }⟩], false, false⟩
  others := []

theorem absentDefault_hasMapFreeDefaults : absentDefault.HasMapFreeDefaults := by
  intro t ht f hf d default_
  obtain rfl := List.mem_singleton.mp ht
  obtain rfl := List.mem_singleton.mp hf
  cases default_
  intro u inside
  cases inside
  rfl

/-- The field is not put in. -/
theorem complete_absentDefault :
    absentDefault.HasMapFreeDefaults ∧
    absentDefault.LacksDefault (.ofInstance "netsuite" "dataset" "x1")
        (.map [(.text "y", .int 1)]) [] [(.text "y", .int 1)] absentDefault.root
        absentDefault.root.fields[0] .null ∧
      absentDefault.complete (.ofInstance "netsuite" "dataset" "x1") (.map [(.text "y", .int 1)])
        = .ok (.map [(.text "y", .int 1)]) ∧
      Entries.field? "x" [(.text "y", .int 1)] = none :=
  ⟨absentDefault_hasMapFreeDefaults,
    ⟨rfl, rfl, rfl, nofun, List.getElem_mem _, rfl, rfl, rfl, rfl⟩, rfl, rfl⟩

/-- A union with a variant that is called like the mark, whose field has a default. -/
def markedVariant : Graph where
  root := ⟨"a", [⟨"u", .named "u", "u", {}⟩], false, false⟩
  others := [⟨"u", [⟨"_T_", .named "n", "n", {}⟩], true, false⟩,
    ⟨"n", [⟨"flag", .primitive .boolean, "boolean", { default? := some (.bool false) }⟩],
      false, false⟩]

-- the variant is lost to the mark, and the default with it
example : markedVariant.complete (.ofInstance "netsuite" "dataset" "x1")
    (.map [(.text "u", .map [(.text "_T_", .map [])])])
      = .ok (.map [(.text "u", .map [(.text "_T_", .text "_T_")])]) := rfl

end Graph

end DefinitionTree
