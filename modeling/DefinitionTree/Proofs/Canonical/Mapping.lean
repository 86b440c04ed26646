/-
DefinitionTree/Proofs/Canonical/Mapping.lean

Mappings through the wire and back.

Four things can become of a mapping.  Held under a discriminated key it loses
the tag that the key gave it; at a union that keeps its tag it holds its variant
under the tag again; where it shows a tag of its own, it shows it again, in
front; and otherwise it comes back entry by entry.

Main statements:

* `Passage.written_discriminated`, `Passage.written_variant`,
  `Passage.written_exposed`, `Passage.written_untagged`: what is written;
* `Passage.taken_variant`, `Passage.taken_mapping`: it can be sent;
* `Passage.gives_tagged`, `Passage.gives_discriminated`, `Passage.gives_variant`,
  `Passage.gives_shown`: what becomes of it;
* `Passage.settles`: whatever the passage, a canonical value comes out as what
  it settles to.
-/
import DefinitionTree.Proofs.Canonical.Passage

namespace DefinitionTree.Passage

variable {n : Normalizer} {a : Admission} {p : Passage n a} {restore : Field → Tree}
  {held : Option Key} {type : Option TypeRef} {es : Entries}

/-! ### Carrying entries -/

/-- Admitted entries are carried one by one. -/
theorem carried_entries {ws : Entries} {w : Tree} (h : p.Admitted ws) (ne : ws ≠ [])
    (carries : p.carries (.map ws) w) :
    ∃ fs, w = .map fs ∧ List.Forall₂ (CarriesEntry p.carries) ws fs ∧
      Wire.sentinelOf? fs = none ∧ Entries.get? Wire.tagKey fs = none := by
  obtain ⟨fs, rfl, carried⟩ := p.map ne h.plain.distinct h.entry carries
  have keys := keysOf_of_carried carried
  refine ⟨fs, rfl, carried, Wire.sentinelOf?_eq_none ?_, Entries.get?_eq_none ?_⟩
  · rw [keys]
    exact h.plain.typeKey_notMem
  · rw [keys]
    exact h.plain.tagKey_notMem

/-- Admitted entries behind a tag are carried one by one, and the tag with them. -/
theorem carried_tagged {ws : Entries} {x w : Tree} (h : p.Admitted ws) (taken : p.takes x)
    (carries : p.carries (.map ((Wire.tagKey, x) :: ws)) w) :
    ∃ tag fs, w = .map ((Wire.tagKey, tag) :: fs) ∧ p.carries x tag ∧
      List.Forall₂ (CarriesEntry p.carries) ws fs ∧
      Wire.sentinelOf? ((Wire.tagKey, tag) :: fs) = none ∧
      Entries.without [Wire.tagKey] ((Wire.tagKey, tag) :: fs) = fs := by
  obtain ⟨distinct, entries⟩ := h.tagged taken
  obtain ⟨gs, rfl, carried⟩ := p.map (List.cons_ne_nil _ _) distinct entries carries
  cases carried with
  | @cons _ f _ fs first rest =>
    obtain ⟨k, tag⟩ := f
    obtain ⟨rfl, carries⟩ := first
    have keys := keysOf_of_carried rest
    refine ⟨tag, fs, rfl, carries, rest, Wire.sentinelOf?_eq_none ?_, ?_⟩
    · rw [keysOf_cons, keys, List.mem_cons, not_or]
      exact ⟨by decide, h.plain.typeKey_notMem⟩
    · rw [Entries.without_cons_of_same (Key.same_self _)]
      refine Entries.without_eq_self ?_
      rw [keys]
      exact h.plain.tagKey_notMem

section Mapping

variable (faithful : p.IsFaithful restore) (ih : ∀ e ∈ es, p.Settles restore e.2)
  (h : n.CanonicalEntries a (n.heldInside held type) type es)
  (keeps : n.graph.keepsTagAt type = false)

omit ih h in
include keeps in
/-- Unless a union keeps its tag, everything inside a mapping is held. -/
theorem exists_heldInside (held : Option Key) (k : Key) : ∃ k', n.heldInside held type k = some k' := by
  rw [Normalizer.heldInside, keeps]
  by_cases shown : (n.showsTag held && k = Wire.exposedKey) = true
  · exact ⟨Wire.tagKey, by simp [shown]⟩
  · exact ⟨k, by simp [shown]⟩

include faithful in
/-- A field that is put in is held under its name. -/
theorem heldInside_putBack {t : ObjectType} {f : Field} (keeps : n.graph.keepsTagAt type = false)
    (back : n.graph.PutsBack type t f) :
    n.heldInside held type (.text f.name) = some (.text f.name) :=
  Normalizer.heldInside_of_shown keeps
    (faithful.orderly.plain t (Graph.mem_types_of_objectAt? back.object) f back.mem).2

include faithful ih h keeps in
/-- The entries of a mapping that are written come back as what they settle to. -/
theorem comesBack_wired :
    List.Forall₂ (p.ComesBackAs type) (n.wired held type es) (n.settled restore held type es) := by
  rw [Normalizer.wired, Normalizer.full, List.map_append, List.map_map, List.map_map,
    Normalizer.settled, Normalizer.settleEntries_eq_map]
  refine List.rel_append ?_ ?_
  · rw [List.forall₂_map_left_iff, List.forall₂_map_right_iff, List.forall₂_same]
    intro e he
    refine ⟨rfl, fun w carries => ?_⟩
    have canonical := (Normalizer.canonicalEntries_iff.mp h e he).2
    obtain ⟨k', eq⟩ := exists_heldInside keeps held e.1
    simp only [Function.comp_apply, eq] at carries canonical ⊢
    exact (ih e he).held k' _ w canonical carries
  · rw [List.forall₂_map_left_iff, List.forall₂_map_right_iff, List.forall₂_same]
    intro f hf
    refine ⟨rfl, fun w carries => ?_⟩
    obtain ⟨t, back⟩ := Normalizer.putsBack_of_mem hf
    simp only [Function.comp_apply, heldInside_putBack faithful keeps back] at carries ⊢
    exact (faithful.restores _ t f back).2.2.2 w carries

include faithful ih h keeps in
/-- The entries of a mapping that are written can be sent. -/
theorem admitted_wired (fits : n.Fits held type es) : p.Admitted (n.wired held type es) := by
  have plain := Normalizer.isPlain_full faithful.orderly fits h
  have keys : keysOf (n.wired held type es) = keysOf (n.full type es) := Normalizer.keysOf_wired
  refine ⟨⟨keys ▸ plain.distinct, keys ▸ plain.plain⟩, fun s hs => ?_, fun e he => ?_⟩
  · rw [keys, Normalizer.keysOf_full, List.mem_append] at hs
    rcases hs with hs | hs
    · obtain ⟨e, he, eq⟩ := List.mem_map.mp hs
      obtain ⟨⟨s', eq', -, name⟩, -⟩ := Normalizer.canonicalEntries_iff.mp h e he
      cases eq.symm.trans eq'
      exact name
    · obtain ⟨f, hf, eq⟩ := List.mem_map.mp hs
      obtain ⟨t, back⟩ := Normalizer.putsBack_of_mem hf
      cases eq
      exact (faithful.restores _ t f back).2.1
  · obtain ⟨e', full, rfl⟩ := List.mem_map.mp he
    rcases List.mem_append.mp full with own | put
    · obtain ⟨e, mem, rfl⟩ := List.mem_map.mp own
      have canonical := (Normalizer.canonicalEntries_iff.mp h e mem).2
      obtain ⟨k', eq⟩ := exists_heldInside keeps held e.1
      simp only [eq] at canonical ⊢
      exact (ih e mem).taken k' _ canonical
    · obtain ⟨f, hf, rfl⟩ := List.mem_map.mp put
      obtain ⟨t, back⟩ := Normalizer.putsBack_of_mem hf
      simp only [heldInside_putBack faithful keeps back]
      exact (faithful.restores _ t f back).2.2.1

include faithful h keeps in
/-- Under a discriminated key the key is written as the tag. -/
theorem written_discriminated {s : String} (fits : n.Fits held type es)
    (eq : held = some (.text s)) (discriminates : n.discriminates (.text s) = true) :
    n.wireOf held (n.graph.completed type (.map es))
      = .map ((Wire.tagKey, Wire.wrap (.text s)) :: n.wired held type es) := by
  have hidden : n.showsTag held = false := by simp [eq, Normalizer.showsTag, discriminates]
  rw [Normalizer.completed_map h faithful.fields keeps,
    Normalizer.wired_eq_map keeps (.inl hidden), eq]
  exact Wire.encodeAt_discriminated (Normalizer.isPlain_full faithful.orderly fits h) discriminates

include faithful h keeps in
/-- The tag that a mapping shows is written as its tag. -/
theorem written_exposed {k : Key} (fits : n.Fits held type es) (eq : held = some k)
    (shows : n.discriminates k = false) (mem : Wire.exposedKey ∈ keysOf es) :
    ∃ pre x post, n.wired held type es = pre ++ (Wire.exposedKey, x) :: post ∧
      n.wireOf held (n.graph.completed type (.map es))
        = .map ((Wire.tagKey, x) :: (pre ++ post)) := by
  have plain := Normalizer.isPlain_full faithful.orderly fits h
  have full : Wire.exposedKey ∈ keysOf (n.full type es) := by
    rw [Normalizer.keysOf_full]
    exact List.mem_append_left _ mem
  obtain ⟨pre, t, post, split⟩ := exists_split full
  rw [split] at plain
  obtain ⟨front, back⟩ := plain.notMem_of_split
  have inPlace (es : Entries) (noShown : Wire.exposedKey ∉ keysOf es) :
      es.map (fun e => (e.1, n.wireOf (n.heldInside held type e.1) e.2))
        = es.map (Wire.encodeEntry n.settings.discriminatedKeys) := by
    refine List.map_congr_left fun e he => ?_
    rw [Normalizer.heldInside_of_shown keeps fun eq => noShown (eq ▸ mem_keysOf he)]
    rfl
  have renamed : n.heldInside held type Wire.exposedKey = some Wire.tagKey := by
    simp [Normalizer.heldInside, keeps, eq, Normalizer.showsTag, shows]
  refine ⟨pre.map (Wire.encodeEntry n.settings.discriminatedKeys),
    Wire.encodeAt n.settings.discriminatedKeys true Wire.tagKey t,
    post.map (Wire.encodeEntry n.settings.discriminatedKeys), ?_, ?_⟩
  · rw [Normalizer.wired, split, List.map_append, List.map_cons, renamed, inPlace pre front,
      inPlace post back]
    rfl
  · rw [Normalizer.completed_map h faithful.fields keeps, split, eq, ← List.map_append]
    exact Wire.encodeAt_exposed plain shows

include faithful h keeps in
/-- A mapping that shows no tag is written without one. -/
theorem written_untagged {k : Key} (fits : n.Fits held type es) (eq : held = some k)
    (shows : n.discriminates k = false) (noShown : Wire.exposedKey ∉ keysOf (n.full type es)) :
    n.wireOf held (n.graph.completed type (.map es)) = .map (n.wired held type es) := by
  rw [Normalizer.completed_map h faithful.fields keeps,
    Normalizer.wired_eq_map keeps (.inr noShown), eq]
  exact Wire.encodeAt_untagged (Normalizer.isPlain_full faithful.orderly fits h) shows noShown

end Mapping

/-- A mapping that is not held at all is written entry by entry. -/
theorem written_root (faithful : p.IsFaithful restore) (keeps : n.graph.keepsTagAt type = false)
    (h : n.Canonical a none type (.map es)) :
    Wire.encode n.settings.discriminatedKeys (n.graph.completed type (.map es))
      = .map (n.wired none type es) := by
  obtain ⟨fits, entries⟩ := h
  rw [Normalizer.completed_map entries faithful.fields keeps,
    Wire.encode_map (Normalizer.isPlain_full faithful.orderly fits entries),
    Normalizer.wired_eq_map keeps (.inl rfl)]

/-- A variant is written with its name as the tag. -/
theorem written_variant (faithful : p.IsFaithful restore) {k : Key} {s : String} {inner : Entries}
    (keeps : n.graph.keepsTagAt type = true) (shows : n.discriminates k = false)
    (plain : IsPlainName s) (noShown : Key.text s ≠ Wire.exposedKey)
    (fits : n.Fits none (n.graph.fieldType type (.text s)) inner)
    (h : n.CanonicalEntries a (n.heldInside none (n.graph.fieldType type (.text s)))
      (n.graph.fieldType type (.text s)) inner) :
    n.wireOf (some k) (n.graph.completed type (.map [(.text s, .map inner)]))
      = .map ((Wire.tagKey, Wire.wrap (.text s))
          :: n.wired none (n.graph.fieldType type (.text s)) inner) := by
  have inside := faithful.orderly.keepsTagAt_fieldType keeps (.text s)
  have noTag : Key.text s ≠ Wire.tagKey := by simpa [Wire.tagKey] using plain.noTag
  rw [(Normalizer.completed_variant keeps plain).1,
    Normalizer.completed_map h faithful.fields inside, Normalizer.wired_eq_map inside (.inl rfl)]
  exact Wire.encodeAt_variant (Normalizer.isPlain_full faithful.orderly fits h) shows noTag noShown

/-! ### Keys that hold mappings -/

/-- Only a text is a discriminated key. -/
theorem text_of_discriminates {k : Key} (h : n.discriminates k = true) :
    ∃ s, k = .text s ∧ s ∈ n.settings.discriminatedKeys := by
  cases k with
  | text s => exact ⟨s, rfl, by simpa [Normalizer.discriminates, Wire.isDiscriminated,
      Wire.isAmong] using h⟩
  | _ => cases h

theorem misreads_of_shows {k : Key} (h : n.discriminates k = false) :
    n.misreads (some k) = false := by
  cases k with
  | text s => simp [Normalizer.misreads, h]
  | _ => rfl

/-- At a union that keeps its tag nothing is held under a discriminated key. -/
theorem shows_of_keepsTagAt {k : Key} (fits : n.Fits (some k) type es)
    (keeps : n.graph.keepsTagAt type = true) : n.discriminates k = false := by
  rw [← Bool.not_eq_true]
  intro discriminates
  rw [Normalizer.keepsTagAt_eq_false (fits.discriminated k rfl discriminates)] at keeps
  cases keeps

/-- What is put in shows no tag. -/
theorem exposedKey_notMem_full (faithful : p.IsFaithful restore)
    (mem : Wire.exposedKey ∉ keysOf es) : Wire.exposedKey ∉ keysOf (n.full type es) := by
  rw [Normalizer.keysOf_full, List.mem_append, not_or]
  refine ⟨mem, fun put => ?_⟩
  obtain ⟨f, hf, name⟩ := List.mem_map.mp put
  obtain ⟨t, put⟩ := Normalizer.putsBack_of_mem hf
  exact (faithful.orderly.plain t (Graph.mem_types_of_objectAt? put.object) f put.mem).2 name

/-! ### What is written can be sent -/

/-- A variant can be sent. -/
theorem taken_variant (faithful : p.IsFaithful restore) {k : Key}
    (ih : ∀ e ∈ es, p.Settles restore e.2)
    (h : n.CanonicalEntries a (n.heldInside (some k) type) type es)
    (fits : n.Fits (some k) type es) (keeps : n.graph.keepsTagAt type = true) :
    p.takes (n.wireOf (some k) (n.graph.completed type (.map es))) := by
  obtain ⟨s, inner, rfl, -, noShown, -⟩ := fits.variant keeps
  obtain ⟨⟨s', eq, plain, name⟩, canonical, -⟩ := h
  cases eq
  rw [Normalizer.heldInside_variant keeps] at canonical
  have inside := faithful.orderly.keepsTagAt_fieldType keeps (.text s)
  have settles := ih (.text s, .map inner) List.mem_cons_self
  obtain ⟨distinct, entries⟩ :=
    (settles.admitted inner _ rfl canonical inside).tagged (p.takes_tag name)
  rw [written_variant faithful keeps (shows_of_keepsTagAt fits keeps) plain noShown canonical.1
    canonical.2]
  exact p.takes_map (List.cons_ne_nil _ _) distinct entries

/-- A mapping at a type that keeps no tag can be sent. -/
theorem taken_mapping (faithful : p.IsFaithful restore) {k : Key}
    (ih : ∀ e ∈ es, p.Settles restore e.2)
    (h : n.CanonicalEntries a (n.heldInside (some k) type) type es)
    (fits : n.Fits (some k) type es) (keeps : n.graph.keepsTagAt type = false) :
    p.takes (n.wireOf (some k) (n.graph.completed type (.map es))) := by
  have admitted := admitted_wired faithful ih h keeps fits
  by_cases discriminates : n.discriminates k = true
  · obtain ⟨s, rfl, known⟩ := text_of_discriminates discriminates
    obtain ⟨distinct, entries⟩ := admitted.tagged (p.takes_tag (faithful.names s known))
    rw [written_discriminated faithful h keeps fits rfl discriminates]
    exact p.takes_map (List.cons_ne_nil _ _) distinct entries
  have shows : n.discriminates k = false := by simpa using discriminates
  by_cases mem : Wire.exposedKey ∈ keysOf es
  · obtain ⟨pre, x, post, split, written⟩ := written_exposed faithful h keeps fits rfl shows mem
    rw [split] at admitted
    obtain ⟨distinct, entries⟩ :=
      admitted.erase.tagged (admitted.taken (Wire.exposedKey, x) (by simp))
    rw [written]
    exact p.takes_map (List.cons_ne_nil _ _) distinct entries
  · rw [written_untagged faithful h keeps fits rfl shows (exposedKey_notMem_full faithful mem)]
    refine p.takes_map ?_ admitted.plain.distinct admitted.entry
    simpa [Normalizer.wired] using Normalizer.full_ne_nil fits.nonempty

/-! ### What comes of them -/

section Mapping

variable (faithful : p.IsFaithful restore) (ih : ∀ e ∈ es, p.Settles restore e.2)
  (h : n.CanonicalEntries a (n.heldInside held type) type es) (fits : n.Fits held type es)

include faithful ih h fits in
/-- A mapping loses a tag that says nothing, wherever the tag comes from. -/
theorem gives_tagged {s : String} {w : Tree} (drops : n.graph.dropsTagAt type = true)
    (name : a.name s) (word : Text.isNumberLike s = false) (ignored : s ∈ n.settings.ignoredTags)
    (read : n.misreads held = false)
    (carries : p.carries (.map ((Wire.tagKey, Wire.wrap (.text s)) :: n.wired held type es)) w) :
    n.Gives type w (n.settle restore held type (.map es)) := by
  have keeps := Normalizer.keepsTagAt_eq_false drops
  have back := comesBack_wired faithful ih h keeps
  obtain ⟨tag, fs, rfl, carriesTag, carried, mark, rest⟩ :=
    carried_tagged (admitted_wired faithful ih h keeps fits) (p.takes_tag name) carries
  have key := p.tag name carriesTag
  rw [word, if_neg (by simp)] at key
  have among : Wire.isAmong (.text s) n.settings.ignoredTags = true := by
    simpa [Wire.isAmong] using ignored
  have inOrder : n.arranged held (n.settled restore held type es)
      = n.settled restore held type es := by
    rw [Normalizer.arranged]
    split
    · rename_i shown
      refine toFront_eq_self ?_
      rw [← keysOf_of_comesBackAs back, Normalizer.keysOf_wired]
      exact exposedKey_notMem_full faithful (fits.exposed drops shown)
    · rfl
  have settled : n.settle restore held type (.map es)
      = .map <$> collect (n.settled restore held type es) := by
    rw [Normalizer.settle, read, ← Normalizer.settled, inOrder]
    rfl
  rw [settled]
  refine Normalizer.gives_dropped mark (Entries.get?_cons_self _ tag fs)
    (Normalizer.atUnion_of_dropsTagAt drops) key among ?_
  rw [rest]
  exact givesEntries back carried

include faithful ih h fits in
/-- Under a discriminated key it loses the tag that the key gave it, unless that
tag was wrapped. -/
theorem gives_discriminated {s : String} {w : Tree} (eq : held = some (.text s))
    (discriminates : n.discriminates (.text s) = true)
    (carries : p.carries (n.wireOf held (n.graph.completed type (.map es))) w) :
    n.Gives type w (n.settle restore held type (.map es)) := by
  have drops := fits.discriminated (.text s) eq discriminates
  have keeps := Normalizer.keepsTagAt_eq_false drops
  have known : s ∈ n.settings.discriminatedKeys := by
    simpa [Normalizer.discriminates, Wire.isDiscriminated, Wire.isAmong] using discriminates
  have name := faithful.names s known
  rw [written_discriminated faithful h keeps fits eq discriminates] at carries
  by_cases numberLike : Text.isNumberLike s = true
  · obtain ⟨tag, fs, rfl, carriesTag, -, mark, -⟩ :=
      carried_tagged (admitted_wired faithful ih h keeps fits) (p.takes_tag name) carries
    have key := p.tag name carriesTag
    rw [if_pos numberLike] at key
    have misread : n.misreads held = true := by
      simp [eq, Normalizer.misreads, discriminates, numberLike]
    rw [Normalizer.settle, if_pos misread]
    exact Normalizer.gives_error mark (Entries.get?_cons_self _ tag fs)
      (Normalizer.atUnion_of_dropsTagAt drops) key
  · rw [Bool.not_eq_true] at numberLike
    have read : n.misreads held = false := by simp [eq, Normalizer.misreads, numberLike]
    exact gives_tagged faithful ih h fits drops name numberLike (faithful.ignored s known) read
      carries

omit faithful ih h in
include fits in
/-- Where a tag is shown no union is declared. -/
theorem not_atUnion_of_exposed (keeps : n.graph.keepsTagAt type = false)
    (shown : n.showsTag held = true) (mem : Wire.exposedKey ∈ keysOf es) : ¬n.AtUnion type := by
  intro union
  rcases Normalizer.keepsTagAt_or_dropsTagAt union with keeps' | drops
  · rw [keeps] at keeps'
    cases keeps'
  · exact fits.exposed drops shown mem

omit faithful ih h fits in
/-- A tag that is shown stands in front of entries that show none. -/
theorem overlay_exposed {ws fs : Entries} {tag : Tree} (admitted : p.Admitted ws)
    (carried : List.Forall₂ (CarriesEntry p.carries) ws fs)
    (fresh : Wire.exposedKey ∉ keysOf ws) :
    Entries.overlay [(Wire.exposedKey, tag)] fs = (Wire.exposedKey, tag) :: fs := by
  have keys := keysOf_of_carried carried
  show Entries.overlay [(Wire.exposedKey, tag)] fs = [(Wire.exposedKey, tag)] ++ fs
  refine Entries.overlay_eq_append (fun k hk => ?_) (List.nodup_cons.mpr ⟨?_, ?_⟩)
  · rw [keys] at hk
    obtain ⟨s, rfl, -⟩ := admitted.plain.plain k hk
    exact ⟨s, rfl⟩
  · show Wire.exposedKey ∉ keysOf fs
    rwa [keys]
  · show (keysOf fs).Nodup
    rw [keys]
    exact admitted.plain.distinct

include faithful ih h fits in
/-- A mapping that is no union of its own shows its tag again, in front. -/
theorem gives_shown {k : Key} {w : Tree} (eq : held = some k)
    (shows : n.discriminates k = false) (keeps : n.graph.keepsTagAt type = false)
    (carries : p.carries (n.wireOf held (n.graph.completed type (.map es))) w) :
    n.Gives type w (n.settle restore held type (.map es)) := by
  have admitted := admitted_wired faithful ih h keeps fits
  have back := comesBack_wired faithful ih h keeps
  have read : n.misreads held = false := by
    rw [eq]
    exact misreads_of_shows shows
  have shown : n.showsTag held = true := by simp [eq, Normalizer.showsTag, shows]
  rw [Normalizer.settle, read, Normalizer.arranged, shown]
  by_cases mem : Wire.exposedKey ∈ keysOf es
  · obtain ⟨pre, x, post, split, written⟩ := written_exposed faithful h keeps fits eq shows mem
    rw [written] at carries
    rw [split] at admitted back
    obtain ⟨tag, fs, rfl, carriesTag, carried, mark, rest⟩ :=
      carried_tagged admitted.erase (admitted.taken (Wire.exposedKey, x) (by simp)) carries
    obtain ⟨front, behind⟩ := admitted.plain.notMem_of_split
    have fresh : Wire.exposedKey ∉ keysOf (pre ++ post) := by
      rw [keysOf_append, List.mem_append, not_or]
      exact ⟨front, behind⟩
    refine Normalizer.gives_exposed mark (Entries.get?_cons_self _ tag fs)
      (not_atUnion_of_exposed fits keeps shown mem) ?_
    rw [rest, overlay_exposed admitted.erase carried fresh]
    have reordered := comesBackAs_toFront Wire.exposedKey back
    rw [toFront_split front behind] at reordered
    exact givesEntries reordered (.cons ⟨rfl, carriesTag⟩ carried)
  · have noShown : Wire.exposedKey ∉ keysOf (n.full type es) :=
      exposedKey_notMem_full faithful mem
    have keys : keysOf (n.wired held type es) = keysOf (n.full type es) := Normalizer.keysOf_wired
    rw [written_untagged faithful h keeps fits eq shows noShown] at carries
    have some_ : n.wired held type es ≠ [] := by
      simpa [Normalizer.wired] using Normalizer.full_ne_nil fits.nonempty
    obtain ⟨fs, rfl, carried, mark, tag⟩ := carried_entries admitted some_ carries
    have reordered := comesBackAs_toFront Wire.exposedKey back
    rw [toFront_eq_self (keys ▸ noShown)] at reordered
    exact Normalizer.gives_plain mark tag (givesEntries reordered carried)

end Mapping

/-- A union that keeps its tag holds its variant under the tag again. -/
theorem gives_variant (faithful : p.IsFaithful restore) {k : Key}
    (ih : ∀ e ∈ es, p.Settles restore e.2)
    (h : n.CanonicalEntries a (n.heldInside (some k) type) type es)
    (fits : n.Fits (some k) type es) (keeps : n.graph.keepsTagAt type = true) {w : Tree}
    (carries : p.carries (n.wireOf (some k) (n.graph.completed type (.map es))) w) :
    n.Gives type w (n.settle restore (some k) type (.map es)) := by
  obtain ⟨s, inner, rfl, word, noShown, kept⟩ := fits.variant keeps
  have shows := shows_of_keepsTagAt fits keeps
  obtain ⟨⟨s', eq, plain, name⟩, canonical, -⟩ := h
  cases eq
  rw [Normalizer.heldInside_variant keeps] at canonical
  have inside := faithful.orderly.keepsTagAt_fieldType keeps (.text s)
  obtain ⟨fitsInner, hInner⟩ := canonical
  have settles := ih (.text s, .map inner) List.mem_cons_self
  rw [written_variant faithful keeps shows plain noShown fitsInner hInner] at carries
  obtain ⟨tag, fs, rfl, carriesTag, carried, mark, rest⟩ :=
    carried_tagged (settles.admitted inner _ rfl ⟨fitsInner, hInner⟩ inside)
      (p.takes_tag name) carries
  have key := p.tag name carriesTag
  rw [word, if_neg (by simp)] at key
  have keys := keysOf_of_carried carried
  have innerPlain := (settles.admitted inner _ rfl ⟨fitsInner, hInner⟩ inside).plain
  have outcome : n.settle restore (some k) type (.map [(.text s, .map inner)])
      = .map <$> collect [(.text s, n.settle restore none (n.graph.fieldType type (.text s))
          (.map inner))] := by
    have alone (x : Except Failure Tree) :
        n.arranged (some k) [(Key.text s, x)] = [(Key.text s, x)] := by
      rw [Normalizer.arranged]
      split
      · exact toFront_eq_self (by simpa using noShown.symm)
      · rfl
    rw [Normalizer.settle, misreads_of_shows shows, (Normalizer.completed_variant keeps plain).2,
      Normalizer.settleEntries, Normalizer.settleEntries, Normalizer.heldInside_variant keeps]
    simp only [List.map_nil, List.append_nil, alone]
    rfl
  rw [outcome]
  refine Normalizer.gives_nested mark (Entries.get?_cons_self _ tag fs)
    (Normalizer.atUnion_of_keepsTagAt keeps) key rfl (Normalizer.not_isAmong kept) ?_
  rw [rest, Normalizer.settle]
  refine Normalizer.gives_plain ?_ ?_ (settles.free inner _ fs rfl ⟨fitsInner, hInner⟩ inside carried)
  · exact Wire.sentinelOf?_eq_none (keys ▸ innerPlain.typeKey_notMem)
  · exact Entries.get?_eq_none (keys ▸ innerPlain.tagKey_notMem)

theorem settles_map (faithful : p.IsFaithful restore) (ih : ∀ e ∈ es, p.Settles restore e.2) :
    p.Settles restore (.map es) := by
  refine ⟨fun k type h => ?_, fun k type w h carries => ?_, ?_, ?_⟩
  · obtain ⟨fits, entries⟩ := h
    by_cases keeps : n.graph.keepsTagAt type = true
    · exact taken_variant faithful ih entries fits keeps
    · rw [Bool.not_eq_true] at keeps
      exact taken_mapping faithful ih entries fits keeps
  · obtain ⟨fits, entries⟩ := h
    by_cases keeps : n.graph.keepsTagAt type = true
    · exact gives_variant faithful ih entries fits keeps carries
    · rw [Bool.not_eq_true] at keeps
      by_cases discriminates : n.discriminates k = true
      · obtain ⟨s, rfl, -⟩ := text_of_discriminates discriminates
        exact gives_discriminated faithful ih entries fits rfl discriminates carries
      · exact gives_shown faithful ih entries fits rfl (by simpa using discriminates) keeps carries
  · rintro _ type ⟨⟩ ⟨fits, entries⟩ keeps
    exact admitted_wired faithful ih entries keeps fits
  · rintro _ type fs ⟨⟩ ⟨fits, entries⟩ keeps carried
    exact givesEntries (comesBack_wired faithful ih entries keeps) carried

/-- Through every faithful passage a canonical value comes out as what it settles to. -/
theorem settles (faithful : p.IsFaithful restore) (t : Tree) : p.Settles restore t := by
  induction t using Tree.induct with
  | leaf t scalar => exact settles_leaf scalar
  | list ts ih => exact settles_list ih
  | map es ih => exact settles_map faithful ih

end DefinitionTree.Passage
