/-
DefinitionTree/Proofs/Json/Canonical.lean

The canonical form is canonical.

The canonical form of a tree does not depend on the order of entries, because the
entries of every mapping are sorted by key, and it tells everything else about the
tree.  A reference is written like a mapping that holds its full name, so trees in
which such a mapping stands are left out, and so are floating-point numbers and keys
that are no texts.  A tree with an integer that is too long has no canonical form.

Main definitions and statements:

* `Tree.SameByName`: the same up to the order of entries, and references by name;
* `Json.sameByName_of_canonical_eq`: what the text tells;
* `Json.canonical_eq_of_sameByName`: what it does not tell;
* `Json.canonicalText_eq_iff`: which trees have the same canonical text.
-/
import DefinitionTree.Proofs.Json.Unambiguity
import Mathlib.Data.String.Basic

namespace DefinitionTree

namespace Tree

/-! ### Trees that are the same -/

/-- The two trees are the same up to the order of entries.  References are compared by
their full names. -/
inductive SameByName : Tree → Tree → Prop
  | scalar {t : Tree} : t.key?.isSome = true → SameByName t t
  | ref {id id' : ElementId} {target target' : Tree} : id.fullName = id'.fullName →
      SameByName (.ref id target) (.ref id' target')
  | list {ts us : List Tree} : ts.length = us.length →
      (∀ {t u}, (t, u) ∈ ts.zip us → SameByName t u) → SameByName (.list ts) (.list us)
  | map {es fs gs : Entries} : es.length = fs.length →
      (∀ {e f}, (e, f) ∈ es.zip fs → e.1 = f.1) →
      (∀ {e f : Key × Tree}, (e, f) ∈ es.zip fs → SameByName e.2 f.2) →
      fs.Perm gs → SameByName (.map es) (.map gs)

theorem sameByName_list {ts us : List Tree} (h : List.Forall₂ SameByName ts us) :
    SameByName (.list ts) (.list us) :=
  have ⟨length, each⟩ := List.forall₂_iff_zip.mp h
  .list length each

theorem sameByName_map {es fs gs : Entries}
    (h : List.Forall₂ (fun e f => e.1 = f.1 ∧ SameByName e.2 f.2) es fs) (order : fs.Perm gs) :
    SameByName (.map es) (.map gs) :=
  have ⟨length, each⟩ := List.forall₂_iff_zip.mp h
  .map length (fun mem => (each mem).1) (fun mem => (each mem).2) order

end Tree

namespace Json

/-! ### What the text tells -/

theorem lead_eq_of_eq {t u : Tree} (h : t.IsTextual) (h' : u.IsTextual)
    (eq : canonical t = canonical u) : lead t = lead u := by
  have ended : canonical t ++ [] = canonical u ++ [] := by rw [eq]
  exact lead_eq h.ne_float h'.ne_float ended

theorem ofInt_inj {i j : Int} (h : Numeral.ofInt i = Numeral.ofInt j) : i = j := by
  rw [← (Xml.ofInt_facts i).2.1, h, (Xml.ofInt_facts j).2.1]

/-- Integers are not written like the other words. -/
theorem ofInt_ne_letter {i : Int} {c : Char} {cs : List Char} (minus : c ≠ '-')
    (noDigit : Numeral.isDigit c = false) : Numeral.ofInt i ≠ c :: cs := by
  intro eq
  rcases (Xml.ofInt_facts i).2.2 c (eq ▸ List.mem_cons_self) with rfl | digit
  · exact minus rfl
  · rw [noDigit] at digit
    cases digit

/-- A word names one scalar. -/
theorem eq_of_word {t u : Tree} (h : t.IsTextual) (h' : u.IsTextual) (word : lead t = .word)
    (eq : canonical t = canonical u) : t = u := by
  have word' : lead u = .word := (lead_eq_of_eq h h' eq).symm.trans word
  -- a number starts with a digit or a minus sign, any other word with a letter
  have letter (i : Int) : canonical (.int i) ≠ canonical .null ∧
      ∀ b, canonical (.int i) ≠ canonical (.bool b) := by
    refine ⟨ofInt_ne_letter (by decide) (by decide), fun b => ?_⟩
    cases b <;> exact ofInt_ne_letter (by decide) (by decide)
  cases t with
  | null =>
    cases u with
    | null => rfl
    | bool b => cases b <;> exact absurd eq (by decide)
    | int i => exact absurd eq.symm (letter i).1
    | float x => exact absurd rfl (h'.ne_float x)
    | _ => cases word'
  | bool b =>
    cases u with
    | null => cases b <;> exact absurd eq (by decide)
    | bool b' =>
      cases b <;> cases b'
      · rfl
      · exact absurd eq (by decide)
      · exact absurd eq (by decide)
      · rfl
    | int i => exact absurd eq.symm ((letter i).2 b)
    | float x => exact absurd rfl (h'.ne_float x)
    | _ => cases word'
  | int i =>
    cases u with
    | null => exact absurd eq (letter i).1
    | bool b => exact absurd eq ((letter i).2 b)
    | int j => rw [ofInt_inj eq]
    | float x => exact absurd rfl (h'.ne_float x)
    | _ => cases word'
  | float x => exact absurd rfl (h.ne_float x)
  | _ => cases word

theorem eq_text_of_canonical {s : String} {u : Tree} (h : u.IsTextual)
    (eq : canonical (.text s) = canonical u) : u = .text s := by
  have quote := lead_eq_of_eq (Tree.isTextual_text s) h eq
  cases u with
  | text s' =>
    have ended : string s ++ [] = string s' ++ [] := congrArg (· ++ []) eq
    rw [(string_append_inj ended).1]
  | _ => cases quote

/-- The text of a mapping or a reference tells its members. -/
theorem parts_eq {t u : Tree} (h : t.IsTextual) (h' : u.IsTextual) (brace : lead t = .brace)
    (eq : canonical t = canonical u) : parts t = parts u := by
  have brace' : lead u = .brace := (lead_eq_of_eq h h' eq).symm.trans brace
  rw [canonical_eq_braced brace, canonical_eq_braced brace'] at eq
  have ended : braced (parts t) ++ [] = braced (parts u) ++ [] := by rw [eq]
  refine (braced_append_inj (fun m mem n mem' => ?_) ended).1
  obtain ⟨v, textual, value⟩ := exists_textual h mem
  obtain ⟨v', textual', value'⟩ := exists_textual h' mem'
  rw [value, value']
  exact unambiguous_canonical textual textual'

/-- The text of a list tells those of its items. -/
theorem items_eq {ts us : List Tree} (h : (Tree.list ts).IsTextual) (h' : (Tree.list us).IsTextual)
    (eq : canonical (.list ts) = canonical (.list us)) : ts.map canonical = us.map canonical := by
  have ended : canonical (.list ts) ++ [] = canonical (.list us) ++ [] := by rw [eq]
  exact (canonical_list_append_inj h h' (fun t mem u mem' =>
    unambiguous_canonical (h.of_mem_list mem) (h'.of_mem_list mem')) ended).1

/-- No mapping is written like a reference. -/
theorem parts_map_ne {es : Entries} (h : (Tree.map es).IsTextual) (id : ElementId) (target : Tree) :
    parts (.map es) ≠ parts (.ref id target) := by
  intro eq
  have single : es.map member = [(refKey, canonical (.text id.fullName))] :=
    List.perm_singleton.mp ((byKey_perm es).symm.trans (.of_eq eq))
  obtain ⟨e, rfl, same⟩ := List.map_eq_singleton_iff.mp single
  obtain ⟨k, t⟩ := e
  obtain ⟨key, value⟩ := Prod.mk.inj same
  obtain ⟨s, rfl⟩ := (h.keys _ (.self _)).texts k List.mem_cons_self
  obtain rfl : s = refKey := key
  have textual : t.IsTextual := h.of_mem_map List.mem_cons_self
  rw [eq_text_of_canonical textual value.symm] at h
  exact h.plain id.fullName (.self _)

/-- Texts of keys are the keys. -/
theorem eq_of_keyName_eq {es fs : Entries} (h : Entries.HasTextKeys es)
    (h' : Entries.HasTextKeys fs) {e f : Key × Tree} (mem : e ∈ es) (mem' : f ∈ fs)
    (same : keyName e.1 = keyName f.1) : e.1 = f.1 := by
  obtain ⟨s, eq⟩ := h.texts e.1 (mem_keysOf mem)
  obtain ⟨s', eq'⟩ := h'.texts f.1 (mem_keysOf mem')
  rw [eq, eq'] at same ⊢
  exact congrArg Key.text same

/-- Trees with the same text are the same up to the order of entries. -/
theorem sameByName_of_canonical_eq {t u : Tree} (h : t.IsTextual) (h' : u.IsTextual)
    (eq : canonical t = canonical u) : t.SameByName u := by
  induction t using Tree.induct generalizing u with
  | leaf t scalar =>
    cases t with
    | list => cases scalar
    | map => cases scalar
    | text s =>
      rw [eq_text_of_canonical h' eq]
      exact .scalar rfl
    | ref id target =>
      have same := parts_eq h h' rfl eq
      have brace := lead_eq_of_eq h h' eq
      cases u with
      | ref id' target' =>
        have names : canonical (.text id.fullName) = canonical (.text id'.fullName) :=
          (Prod.mk.inj (List.cons.inj same).1).2
        exact .ref (Tree.text.inj (eq_text_of_canonical (Tree.isTextual_text _) names)).symm
      | map es => exact absurd same.symm (parts_map_ne h' id target)
      | _ => cases brace
    | _ =>
      rw [← eq_of_word h h' rfl eq]
      exact .scalar rfl
  | list ts ih =>
    have bracket := lead_eq_of_eq h h' eq
    cases u with
    | list us =>
      have same := map_eq_map_iff_forall₂.mp (items_eq h h' eq)
      refine Tree.sameByName_list (forall₂_of_mem_both same fun t mem u mem' eq => ?_)
      exact ih t mem (h.of_mem_list mem) (h'.of_mem_list mem') eq
    | _ => cases bracket
  | map es ih =>
    have same := parts_eq h h' rfl eq
    have brace := lead_eq_of_eq h h' eq
    cases u with
    | ref id target => exact absurd same (parts_map_ne h id target)
    | map fs =>
      -- members are the same in another order, and so are the entries they stand for
      have order : (es.map member).Perm (fs.map member) :=
        (byKey_perm es).symm.trans ((List.Perm.of_eq same).trans (byKey_perm fs))
      have entries : List.Forall₂ (fun m f => m = member f) (fs.map member) fs :=
        List.forall₂_map_left_iff.mpr (List.forall₂_same.mpr fun f _ => rfl)
      obtain ⟨gs, matched, order⟩ := List.perm_comp_forall₂ order entries
      refine Tree.sameByName_map ?_ order
      refine forall₂_of_mem_both (List.forall₂_map_left_iff.mp matched) fun e mem f mem' same => ?_
      have mem' := order.mem_iff.mp mem'
      obtain ⟨key, value⟩ := Prod.mk.inj same
      exact ⟨eq_of_keyName_eq (h.keys es (.self _)) (h'.keys fs (.self _)) mem mem' key,
        ih e mem (h.of_mem_map mem) (h'.of_mem_map mem') value⟩
    | _ => cases brace

/-! ### What the text does not tell -/

/-- Members with different keys are sorted the same in whatever order they come. -/
theorem byKey_eq_of_perm {ms ns : List (String × List Char)} (order : ms.Perm ns)
    (distinct : (ms.map Prod.fst).Nodup) : byKey ms = byKey ns := by
  have sorts (ms : List (String × List Char)) :
      (byKey ms).Pairwise fun m n => m.1 ≤ n.1 := by
    refine (List.pairwise_mergeSort (fun a b c => ?_) (fun a b => ?_) ms).imp of_decide_eq_true
    · simp only [decide_eq_true_eq]
      exact le_trans
    · rw [Bool.or_eq_true, decide_eq_true_eq, decide_eq_true_eq]
      exact le_total a.1 b.1
  have perm (ms : List (String × List Char)) : (byKey ms).Perm ms := List.mergeSort_perm _ _
  refine List.Perm.eq_of_pairwise (fun m n mem mem' le ge => ?_) (sorts ms) (sorts ns)
    ((perm ms).trans (order.trans (perm ns).symm))
  have mem := (perm ms).mem_iff.mp mem
  have mem' := order.mem_iff.mpr ((perm ns).mem_iff.mp mem')
  exact List.inj_on_of_nodup_map distinct mem mem' (le_antisymm le ge)

/-- Distinct texts are keys of distinct members. -/
theorem distinct_members {es : Entries} (h : Entries.HasTextKeys es) :
    ((es.map member).map Prod.fst).Nodup := by
  have names : (es.map member).map Prod.fst = (keysOf es).map keyName := by
    rw [keysOf, List.map_map, List.map_map]
    rfl
  rw [names]
  refine h.distinct.map_on fun k mem k' mem' same => ?_
  obtain ⟨s, rfl⟩ := h.texts k mem
  obtain ⟨s', rfl⟩ := h.texts k' mem'
  exact congrArg Key.text same

/-- Trees that are the same up to the order of entries have the same text. -/
theorem canonical_eq_of_sameByName {t u : Tree} (same : t.SameByName u) (h : t.HasTextKeys)
    (h' : u.HasTextKeys) : canonical t = canonical u := by
  induction same with
  | scalar => rfl
  | ref names => rw [canonical, canonical, names]
  | @list ts us length _ ih =>
    have items : List.Forall₂ (fun t u => canonical t = canonical u) ts us := by
      refine List.forall₂_iff_zip.mpr ⟨length, fun {t u} mem => ih mem ?_ ?_⟩
      · exact fun es inside => h es (.item (List.of_mem_zip mem).1 inside)
      · exact fun es inside => h' es (.item (List.of_mem_zip mem).2 inside)
    rw [canonical, canonical, canonicalItems_eq_map, canonicalItems_eq_map,
      map_eq_map_iff_forall₂.mpr items]
  | @map es fs gs length keys _ order ih =>
    have entries : List.Forall₂ (fun e f => member e = member f) es fs := by
      refine List.forall₂_iff_zip.mpr ⟨length, fun {e f} mem => ?_⟩
      refine Prod.ext (congrArg keyName (keys mem)) (ih mem ?_ ?_)
      · exact fun es inside => h es (.entry (List.of_mem_zip mem).1 inside)
      · exact fun es inside => h' es (.entry (order.mem_iff.mp (List.of_mem_zip mem).2) inside)
    have reordered : (es.map member).Perm (gs.map member) :=
      (List.Perm.of_eq (map_eq_map_iff_forall₂.mpr entries)).trans (order.map member)
    have sorted : byKey (es.map member) = byKey (gs.map member) :=
      byKey_eq_of_perm reordered (distinct_members (h es (.self _)))
    rw [canonical, canonical, members_eq_map, members_eq_map, sorted]

/-- Trees that are the same up to the order of entries hold the same integers. -/
theorem holdsLongInteger_of_sameByName {t u : Tree} (same : t.SameByName u)
    (long : u.HoldsLongInteger) : t.HoldsLongInteger := by
  induction same with
  | scalar => exact long
  | ref =>
    cases long with
    | leaf _ integer => cases integer
  | @list ts us length _ ih =>
    obtain ⟨u, mem, long⟩ := Tree.holds_list_iff.mp long
    have items : List.Forall₂ (fun t u : Tree => u.HoldsLongInteger → t.HoldsLongInteger) ts us :=
      List.forall₂_iff_zip.mpr ⟨length, ih⟩
    obtain ⟨t, there, back⟩ := exists_of_forall₂ items mem
    exact .item there (back long)
  | @map es fs gs length _ _ order ih =>
    obtain ⟨f, mem, long⟩ := Tree.holds_map_iff.mp long
    have entries : List.Forall₂ (fun e f : Key × Tree =>
        f.2.HoldsLongInteger → e.2.HoldsLongInteger) es fs :=
      List.forall₂_iff_zip.mpr ⟨length, ih⟩
    obtain ⟨e, there, back⟩ := exists_of_forall₂ entries (order.mem_iff.mpr mem)
    exact .entry there (back long)

/-! ### Canonical texts -/

/-- The canonical text, or the integer that is too long for one. -/
theorem canonicalText_cases {t : Tree} (texts : t.HasTextKeys) :
    ¬t.HoldsLongInteger ∧ canonicalText t = .ok (String.ofList (canonical t)) ∨
      t.HoldsLongInteger ∧ canonicalText t = .error .integerUnwritable := by
  rw [canonicalText, compactText]
  rcases compact_sorted_cases texts with ⟨short, eq⟩ | ⟨long, eq⟩ <;> rw [eq]
  · exact .inl ⟨short, rfl⟩
  · exact .inr ⟨long, rfl⟩

/-- **Canonical texts are canonical.**  A tree has a canonical text just in case no
integer in it is too long, and then the trees with the same canonical text are those that
are the same up to the order of entries, references being compared by their full names.
The only way to fail is on an integer that is too long. -/
theorem canonicalText_eq_iff {t u : Tree} (h : t.IsTextual) (h' : u.IsTextual) :
    ((∃ s, canonicalText t = .ok s) ↔ ¬t.HoldsLongInteger) ∧
    (t.HoldsLongInteger → canonicalText t = .error .integerUnwritable) ∧
    (¬t.HoldsLongInteger → (canonicalText t = canonicalText u ↔ t.SameByName u)) := by
  rcases canonicalText_cases h.keys with ⟨short, text⟩ | ⟨long, failed⟩
  · refine ⟨iff_of_true ⟨_, text⟩ short, fun long => absurd long short, fun _ => ?_⟩
    rw [text]
    rcases canonicalText_cases h'.keys with ⟨short', text'⟩ | ⟨long', failed'⟩
    · rw [text']
      refine ⟨fun eq => ?_, fun same => ?_⟩
      · exact sameByName_of_canonical_eq h h' (String.ofList_injective (Except.ok.inj eq))
      · rw [canonical_eq_of_sameByName same h.keys h'.keys]
    · rw [failed']
      exact iff_of_false nofun fun same => short (holdsLongInteger_of_sameByName same long')
  · refine ⟨iff_of_false ?_ (not_not_intro long), fun _ => failed, fun short => absurd long short⟩
    rintro ⟨s, text⟩
    exact nomatch failed.symm.trans text

/-- A mapping that holds a list and a reference, in one order. -/
def listFirst (target : Tree) : Tree :=
  .map [(.text "a", .list [.int 1, .bool true]),
    (.text "b", .ref (.ofInstance "netsuite" "dataset" "d") target)]

/-- The mapping of `listFirst` in the other order. -/
def listLast (target : Tree) : Tree :=
  .map [(.text "b", .ref (.ofInstance "netsuite" "dataset" "d") target),
    (.text "a", .list [.int 1, .bool true])]

theorem isTextual_flags : (Tree.list [.int 1, .bool true]).IsTextual :=
  .list <| List.forall_mem_cons.mpr ⟨Tree.isTextual_leaf rfl (by simp),
    List.forall_mem_singleton.mpr (Tree.isTextual_leaf rfl (by simp))⟩

theorem isTextual_listFirst (target : Tree) : (listFirst target).IsTextual :=
  .map ⟨by simp, by simp⟩ (by simp) <| List.forall_mem_cons.mpr
    ⟨isTextual_flags, List.forall_mem_singleton.mpr (Tree.isTextual_leaf rfl (by simp))⟩

theorem isTextual_listLast (target : Tree) : (listLast target).IsTextual :=
  .map ⟨by simp, by simp⟩ (by simp) <| List.forall_mem_cons.mpr
    ⟨Tree.isTextual_leaf rfl (by simp), List.forall_mem_singleton.mpr isTextual_flags⟩

theorem isTextual_int (i : Int) : (Tree.int i).IsTextual := Tree.isTextual_leaf rfl (by simp)

theorem not_holdsLongInteger_one : ¬(Tree.int 1).HoldsLongInteger := by
  rw [Tree.HoldsLongInteger, Tree.holds_leaf_iff rfl, Tree.isLongInteger,
    Numeral.isWritable_iff.mpr (by decide +kernel)]
  decide

theorem not_holdsLongInteger_listFirst (target : Tree) :
    ¬(listFirst target).HoldsLongInteger := by
  have leaf {t : Tree} (scalar : t.key?.isSome = true) (short : t.isLongInteger = false) :
      ¬t.Holds (·.isLongInteger = true) := by
    rw [Tree.holds_leaf_iff scalar, short]
    decide
  simp only [Tree.HoldsLongInteger, listFirst, Tree.holds_map_iff, Tree.holds_list_iff,
    List.mem_cons, List.not_mem_nil, or_false, exists_eq_or_imp, exists_eq_left, not_or]
  exact ⟨⟨not_holdsLongInteger_one, leaf rfl rfl⟩, leaf rfl rfl⟩

/-- Neither the order of entries nor what a reference resolved to makes a difference, but
a truth value and an integer do. -/
theorem canonicalText_listLast :
    (listFirst .null).IsTextual ∧ (listLast (.text "d")).IsTextual ∧
      (∃ s, canonicalText (listFirst .null) = .ok s) ∧
      canonicalText (listFirst .null) = canonicalText (listLast (.text "d")) ∧
      (Tree.int 1).IsTextual ∧ (Tree.bool true).IsTextual ∧
      canonicalText (.int 1) ≠ canonicalText (.bool true) := by
  have first := isTextual_listFirst .null
  have last := isTextual_listLast (.text "d")
  have bool : (Tree.bool true).IsTextual := Tree.isTextual_leaf rfl (by simp)
  have short := not_holdsLongInteger_listFirst .null
  obtain ⟨written, -, same⟩ := canonicalText_eq_iff first last
  refine ⟨first, last, written.mpr short, (same short).mpr ?_, isTextual_int 1, bool,
    ((canonicalText_eq_iff (isTextual_int 1) bool).2.2 not_holdsLongInteger_one).not.mpr nofun⟩
  refine Tree.sameByName_map ?_ (List.Perm.swap _ _ [])
  exact .cons ⟨rfl, Tree.sameByName_list (.cons (.scalar rfl) (.cons (.scalar rfl) .nil))⟩
    (.cons ⟨rfl, .ref rfl⟩ .nil)

/-- A mapping that holds a number. -/
def numbered (i : Int) : Tree := .map [(.text "n", .int i)]

theorem isTextual_numbered (i : Int) : (numbered i).IsTextual :=
  .map ⟨by simp, by simp⟩ (by simp) (List.forall_mem_singleton.mpr (isTextual_int i))

theorem canonicalText_numbered {i : Int} (long : Numeral.isWritable i = false) :
    canonicalText (numbered i) = .error .integerUnwritable := by
  have holds : (numbered i).HoldsLongInteger :=
    .entry List.mem_cons_self (.leaf rfl (by rw [Tree.isLongInteger, long]; rfl))
  exact ((canonicalText_cases (isTextual_numbered i).keys).resolve_left fun either =>
    either.1 holds).2

/-- There is no canonical text with the smallest integer that is too long. -/
theorem canonicalText_longNumber :
    let t := numbered (.ofNat (Nat.pow 10 Numeral.digitLimit))
    t.IsTextual ∧ canonicalText t = .error .integerUnwritable :=
  ⟨isTextual_numbered _, canonicalText_numbered (Numeral.isWritable_of_le (Nat.le_refl _))⟩

end Json

end DefinitionTree
