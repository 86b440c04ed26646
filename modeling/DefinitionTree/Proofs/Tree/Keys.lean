/-
DefinitionTree/Proofs/Tree/Keys.lean

Mappings whose keys are distinct.

A text is the same key as no other, so where the keys are texts every question
about a key is one about membership: what has the key is found, what lacks it is
left alone, and what is set for a new key goes to the end.  Keys of any kind are
distinct if no two are the same key; then too an entry with a text as its key is
the only one, and can be told apart from the rest.

Main statements:

* `Entries.get?_of_mem`, `Entries.get?_eq_none`: looking up;
* `Entries.without_eq_self`, `Entries.overlay_eq_append`: taking out and
  setting;
* `Entries.AreDistinct.perm_without`, `Entries.overlay_single`: one entry and
  the others;
* `Entries.get?_overlay_of_mem`: looking up what was set;
* `toFront_split`: bringing one entry to the front.
-/
import DefinitionTree.Tree.Basic
import Mathlib.Data.List.Forall2
import Mathlib.Data.List.Nodup

namespace DefinitionTree

variable {α : Type}

/-! ### Texts as keys -/

@[simp] theorem Key.text_same_iff {s : String} {k : Key} :
    (Key.text s).same k = true ↔ k = .text s := by
  rw [Key.same_comm]
  exact Key.same_text_iff

@[simp] theorem Key.text_same_eq_false_iff {s : String} {k : Key} :
    (Key.text s).same k = false ↔ k ≠ .text s := by
  rw [← Bool.not_eq_true, Key.text_same_iff]

/-- What is listed under each key has the key itself. -/
def keysOf (xs : List (Key × α)) : List Key := xs.map Prod.fst

@[simp] theorem keysOf_nil : keysOf ([] : List (Key × α)) = [] := rfl

@[simp] theorem keysOf_cons (k : Key) (a : α) (xs : List (Key × α)) :
    keysOf ((k, a) :: xs) = k :: keysOf xs := rfl

@[simp] theorem keysOf_append (xs ys : List (Key × α)) :
    keysOf (xs ++ ys) = keysOf xs ++ keysOf ys := List.map_append

theorem mem_keysOf {xs : List (Key × α)} {k : Key} {a : α} (h : (k, a) ∈ xs) : k ∈ keysOf xs :=
  List.mem_map.mpr ⟨(k, a), h, rfl⟩

/-- A key has something listed under it. -/
theorem exists_split {xs : List (Key × α)} {k : Key} (h : k ∈ keysOf xs) :
    ∃ pre a post, xs = pre ++ (k, a) :: post := by
  obtain ⟨⟨k', a⟩, mem, rfl⟩ := List.mem_map.mp h
  obtain ⟨pre, post, e⟩ := List.append_of_mem mem
  exact ⟨pre, a, post, e⟩

/-! ### Lists that are related one by one -/

section

variable {β : Type} {xs : List α} {ys : List β}

/-- What can be found for each item can be found for all of them. -/
theorem exists_forall₂ {R : α → β → Prop} (h : ∀ x ∈ xs, ∃ y, R x y) :
    ∃ ys, List.Forall₂ R xs ys := by
  induction xs with
  | nil => exact ⟨[], .nil⟩
  | cons x xs ih =>
    obtain ⟨⟨y, here⟩, there⟩ := List.forall_mem_cons.mp h
    obtain ⟨ys, rest⟩ := ih there
    exact ⟨y :: ys, .cons here rest⟩

/-- Whatever the second of two related lists holds is related to something in the
first. -/
theorem exists_of_forall₂ {R : α → β → Prop} (h : List.Forall₂ R xs ys) {y : β} (mem : y ∈ ys) :
    ∃ x ∈ xs, R x y := by
  induction h with
  | nil => cases mem
  | @cons x y' xs ys here _ ih =>
    rcases List.mem_cons.mp mem with rfl | mem
    · exact ⟨x, List.mem_cons_self, here⟩
    · obtain ⟨x, mem, related⟩ := ih mem
      exact ⟨x, List.mem_cons_of_mem _ mem, related⟩

/-- What is related under the same keys is listed under the same keys. -/
theorem keysOf_of_forall₂ {R : Key × α → Key × β → Prop} {es : List (Key × α)}
    {fs : List (Key × β)} (same : ∀ e f, R e f → e.1 = f.1) (h : List.Forall₂ R es fs) :
    keysOf es = keysOf fs := by
  induction h with
  | nil => rfl
  | @cons e f es fs here _ ih =>
    show e.1 :: keysOf es = f.1 :: keysOf fs
    rw [same e f here, ih]

end

/-! ### Looking up -/

namespace Entries

variable {s : String} {t : Tree} {es fs : Entries}

@[simp] theorem get?_cons_self (s : String) (t : Tree) (es : Entries) :
    get? (.text s) ((.text s, t) :: es) = some t := by
  simp [get?]

@[simp] theorem get?_cons_of_ne {k : Key} (h : k ≠ .text s) (t : Tree) (es : Entries) :
    get? (.text s) ((k, t) :: es) = get? (.text s) es := by
  simp [get?, h]

/-- A text that is no key has no value. -/
@[simp] theorem get?_eq_none (h : Key.text s ∉ keysOf es) : get? (.text s) es = none := by
  induction es with
  | nil => rfl
  | cons e es ih =>
    obtain ⟨k, t⟩ := e
    rw [keysOf_cons, List.mem_cons, not_or] at h
    rw [get?_cons_of_ne (Ne.symm h.1)]
    exact ih h.2

/-- What a text has as its value stands under it. -/
theorem mem_of_get? (h : get? (.text s) es = some t) : (Key.text s, t) ∈ es := by
  induction es with
  | nil => cases h
  | cons e es ih =>
    obtain ⟨k, u⟩ := e
    by_cases hk : k = .text s
    · subst hk
      rw [get?_cons_self] at h
      cases h
      exact List.mem_cons_self
    · rw [get?_cons_of_ne hk] at h
      exact List.mem_cons_of_mem _ (ih h)

/-- What is found stays found where more entries follow. -/
theorem get?_append {k : Key} (h : get? k es = some t) (fs : Entries) :
    get? k (es ++ fs) = some t := by
  induction es with
  | nil => cases h
  | cons e es ih =>
    obtain ⟨k', u⟩ := e
    rw [List.cons_append, get?]
    rw [get?] at h
    split at h
    · rename_i same
      rw [if_pos same, h]
    · rename_i other
      rw [if_neg other, ih h]

/-- What is not found is looked for in the entries that follow. -/
theorem get?_append_of_notMem (h : Key.text s ∉ keysOf es) (fs : Entries) :
    get? (.text s) (es ++ fs) = get? (.text s) fs := by
  induction es with
  | nil => rfl
  | cons e es ih =>
    obtain ⟨k, u⟩ := e
    rw [keysOf_cons, List.mem_cons, not_or] at h
    rw [List.cons_append, get?_cons_of_ne (Ne.symm h.1), ih h.2]

/-- What is found is found again where the values have changed in place. -/
theorem get?_map {F : Key × Tree → Tree} (h : get? (.text s) es = some t) :
    get? (.text s) (es.map fun e => (e.1, F e)) = some (F (.text s, t)) := by
  induction es with
  | nil => cases h
  | cons e es ih =>
    obtain ⟨k, u⟩ := e
    rw [List.map_cons]
    by_cases same : k = .text s
    · subst same
      rw [get?_cons_self] at h
      cases h
      exact get?_cons_self ..
    · rw [get?_cons_of_ne same] at h
      rw [get?_cons_of_ne same, ih h]

@[simp] theorem has_iff : has (.text s) es = true ↔ Key.text s ∈ keysOf es := by
  constructor
  · intro h
    obtain ⟨t, ht⟩ := Option.isSome_iff_exists.mp h
    exact mem_keysOf (mem_of_get? ht)
  · intro h
    by_contra hn
    have none : get? (.text s) es = none := by simpa [has] using hn
    clear hn
    induction es with
    | nil => cases h
    | cons e es ih =>
      obtain ⟨k, u⟩ := e
      by_cases hk : k = .text s
      · subst hk
        rw [get?_cons_self] at none
        cases none
      · rw [get?_cons_of_ne hk] at none
        rw [keysOf_cons, List.mem_cons] at h
        exact ih (h.resolve_left (Ne.symm hk)) none

@[simp] theorem has_eq_false_iff : has (.text s) es = false ↔ Key.text s ∉ keysOf es := by
  rw [← has_iff, Bool.not_eq_true]

/-- Whether a text is a key does not depend on the order of the keys. -/
theorem has_eq_of_perm (same : (keysOf es).Perm (keysOf fs)) (s : String) :
    has (.text s) fs = has (.text s) es := by
  rw [Bool.eq_iff_iff, has_iff, has_iff, same.mem_iff]

/-- Of distinct keys each has the value that stands under it. -/
theorem get?_of_mem (distinct : (keysOf es).Nodup) (h : (Key.text s, t) ∈ es) :
    get? (.text s) es = some t := by
  induction es with
  | nil => cases h
  | cons e es ih =>
    obtain ⟨k, u⟩ := e
    rw [keysOf_cons, List.nodup_cons] at distinct
    rcases List.mem_cons.mp h with e | he
    · cases e
      exact get?_cons_self s t es
    · have : k ≠ .text s := by
        rintro rfl
        exact distinct.1 (mem_keysOf he)
      rw [get?_cons_of_ne this]
      exact ih distinct.2 he

/-! ### Taking out and setting -/

/-- Among texts a key is only itself. -/
theorem any_same_iff {names : List String} {k : Key} :
    ((names.map Key.text).any fun x => x.same k) = true ↔ k ∈ names.map Key.text := by
  rw [List.any_eq_true]
  refine ⟨?_, fun mem => ⟨k, mem, Key.same_self _⟩⟩
  rintro ⟨x, mem, same⟩
  obtain ⟨s, -, rfl⟩ := List.mem_map.mp mem
  rwa [Key.text_same_iff.mp same]

/-- Entries stay unless their key is one of the texts. -/
theorem mem_without_iff {names : List String} {e : Key × Tree} :
    e ∈ without (names.map Key.text) es ↔ e ∈ es ∧ e.1 ∉ names.map Key.text := by
  rw [without, List.mem_filter, Bool.not_eq_true', ← Bool.not_eq_true, any_same_iff]

/-- Taking out a text that is no key changes nothing. -/
@[simp] theorem without_eq_self (h : Key.text s ∉ keysOf es) : without [.text s] es = es := by
  refine List.filter_eq_self.mpr fun e he => ?_
  have other : e.1 ≠ .text s := fun eq => h (eq ▸ mem_keysOf he)
  simp [other]

/-- What is taken out is gone. -/
@[simp] theorem notMem_without (s : String) (es : Entries) :
    Key.text s ∉ keysOf (without [.text s] es) := by
  intro mem
  obtain ⟨e, there, eq⟩ := List.mem_map.mp mem
  have out : e.1 ∉ [s].map Key.text := (mem_without_iff.mp there).2
  rw [eq] at out
  exact out List.mem_cons_self

/-- What is looked up was not taken out. -/
theorem get?_without_all {ks : List Key} (others : ∀ k ∈ ks, k ≠ .text s) (es : Entries) :
    get? (.text s) (without ks es) = get? (.text s) es := by
  induction es with
  | nil => rfl
  | cons e es ih =>
    obtain ⟨k', t⟩ := e
    simp only [without] at ih ⊢
    rw [List.filter_cons]
    split
    · rw [get?, get?, ih]
    · rename_i out
      have ne : ¬k'.same (.text s) = true := by
        intro same
        rw [Key.same_text_iff.mp same, Bool.not_eq_true', Bool.not_eq_false, List.any_eq_true] at out
        obtain ⟨k, mem, same⟩ := out
        exact others k mem (Key.same_text_iff.mp same)
      rw [ih, get?, if_neg ne]

@[simp] theorem get?_without {k : Key} (h : k ≠ .text s) (es : Entries) :
    get? (.text s) (without [k] es) = get? (.text s) es :=
  get?_without_all (List.forall_mem_singleton.mpr h) es

/-- Taking out the only entry with a key leaves the ones around it. -/
theorem without_split (pre : Key.text s ∉ keysOf es) (post : Key.text s ∉ keysOf fs) :
    without [.text s] (es ++ (.text s, t) :: fs) = es ++ fs := by
  have front : without [.text s] es = es := without_eq_self pre
  have back : without [.text s] fs = fs := without_eq_self post
  unfold without at front back ⊢
  rw [List.filter_append, List.filter_cons, front, back]
  simp

/-- A text is no key if it is the same as none. -/
theorem notMem_keysOf_iff : Key.text s ∉ keysOf es ↔ ∀ e ∈ es, (Key.text s).same e.1 = false := by
  simp only [keysOf, List.mem_map, not_exists, not_and, Key.text_same_eq_false_iff, ne_eq]

/-- What is set for a new key goes to the end. -/
theorem set_eq_append_of_apart {k : Key} (apart : ∀ e ∈ es, e.1.same k = false) :
    set k t es = es ++ [(k, t)] := by
  induction es with
  | nil => rfl
  | cons e es ih =>
    obtain ⟨k', u⟩ := e
    obtain ⟨here, there⟩ := List.forall_mem_cons.mp apart
    rw [set, if_neg (by rw [here]; decide), ih there]
    rfl

/-- What is set for a text that is no key yet goes to the end. -/
theorem set_eq_append (h : Key.text s ∉ keysOf es) : set (.text s) t es = es ++ [(.text s, t)] := by
  refine set_eq_append_of_apart fun e mem => ?_
  rw [Key.same_comm]
  exact notMem_keysOf_iff.mp h e mem

/-- Entries with new and distinct texts as their keys go to the end. -/
theorem overlay_eq_append (texts : ∀ k ∈ keysOf fs, ∃ s, k = .text s)
    (distinct : (keysOf (es ++ fs)).Nodup) : overlay es fs = es ++ fs := by
  induction fs generalizing es with
  | nil => simp [overlay]
  | cons e fs ih =>
    obtain ⟨k, t⟩ := e
    obtain ⟨s, rfl⟩ := texts k List.mem_cons_self
    have new : Key.text s ∉ keysOf es := by
      rw [keysOf_append, List.nodup_append] at distinct
      intro h
      exact distinct.2.2 _ h _ List.mem_cons_self rfl
    have eq : es ++ (Key.text s, t) :: fs = (es ++ [(.text s, t)]) ++ fs := by simp
    rw [eq] at distinct
    rw [overlay, set_eq_append new, eq]
    exact ih (fun k hk => texts k (List.mem_cons_of_mem _ hk)) distinct

/-! ### Distinct keys of any kind -/

/-- No two entries have the same key. -/
def AreDistinct (es : Entries) : Prop := es.Pairwise fun e f => e.1.same f.1 = false

instance (es : Entries) : Decidable (AreDistinct es) :=
  inferInstanceAs (Decidable (es.Pairwise _))

/-- Distinct texts are distinct keys. -/
theorem areDistinct_of_texts (texts : ∀ k ∈ keysOf es, ∃ s, k = .text s)
    (distinct : (keysOf es).Nodup) : AreDistinct es := by
  refine (List.pairwise_map.mp distinct).imp_of_mem fun {e f} _ mem ne => ?_
  obtain ⟨s, eq⟩ := texts f.1 (mem_keysOf mem)
  rw [eq, ← Bool.not_eq_true, Key.same_text_iff, ← eq]
  exact ne

theorem AreDistinct.without (h : AreDistinct es) (ks : List Key) : AreDistinct (without ks es) :=
  h.sublist List.filter_sublist

/-- The entry with a text comes first, and everything else behind it. -/
theorem AreDistinct.perm_without (h : AreDistinct es) (found : get? (.text s) es = some t) :
    es.Perm ((.text s, t) :: Entries.without [.text s] es) := by
  induction es with
  | nil => cases found
  | cons e es ih =>
    obtain ⟨k, u⟩ := e
    obtain ⟨apart, rest⟩ := List.pairwise_cons.mp h
    by_cases same : k = .text s
    · subst same
      rw [get?_cons_self] at found
      cases found
      rw [without_cons_of_same (Key.same_self _), without_eq_self (notMem_keysOf_iff.mpr apart)]
    · have other : ¬k.same (.text s) = true := fun eq => same (Key.same_text_iff.mp eq)
      rw [get?_cons_of_ne same] at found
      rw [without_cons_of_not_same other]
      exact ((ih rest found).cons _).trans (.swap ..)

theorem AreDistinct.length_without (h : AreDistinct es) (found : get? (.text s) es = some t) :
    es.length = (Entries.without [.text s] es).length + 1 :=
  (h.perm_without found).length_eq

/-- Setting entries with distinct keys in one that stands in front: it keeps its
place, and its value gives way to one of theirs. -/
theorem overlay_cons (distinct : AreDistinct es) (s : String) (t : Tree) {front : Entries}
    (apart : ∀ e ∈ front, ∀ f ∈ es, e.1.same f.1 = false) :
    overlay ((.text s, t) :: front) es
      = (.text s, (get? (.text s) es).getD t) :: (front ++ without [.text s] es) := by
  induction es generalizing t front with
  | nil => simp [overlay, get?, without]
  | cons e es ih =>
    obtain ⟨k, u⟩ := e
    obtain ⟨first, rest⟩ := List.pairwise_cons.mp distinct
    have apart' : ∀ e ∈ front, ∀ f ∈ es, e.1.same f.1 = false :=
      fun e mem f there => apart e mem f (List.mem_cons_of_mem _ there)
    rw [overlay, set]
    by_cases same : k = .text s
    · subst same
      rw [Key.same_self, if_pos rfl, ih rest u apart', get?_cons_self,
        get?_eq_none (notMem_keysOf_iff.mpr first), without_cons_of_same (Key.same_self _)]
      rfl
    · have other : ¬k.same (.text s) = true := fun eq => same (Key.same_text_iff.mp eq)
      rw [if_neg (by rwa [Key.same_comm]),
        set_eq_append_of_apart fun e mem => apart e mem _ List.mem_cons_self, ih rest t,
        get?_cons_of_ne same, without_cons_of_not_same other]
      · simp
      · intro e mem f there
        rcases List.mem_append.mp mem with mem | mem
        · exact apart' e mem f there
        · rw [List.mem_singleton.mp mem]
          exact first f there

/-- One entry, and distinct ones that are set in it. -/
theorem overlay_single (distinct : AreDistinct es) (s : String) (t : Tree) :
    overlay [(.text s, t)] es
      = (.text s, (get? (.text s) es).getD t) :: without [.text s] es :=
  @overlay_cons es distinct s t [] nofun

/-! ### What is set -/

/-- What is set for a text stands under it. -/
@[simp] theorem mem_set_self (s : String) (t : Tree) (es : Entries) :
    (Key.text s, t) ∈ set (.text s) t es := by
  induction es with
  | nil => simp [set]
  | cons e es ih =>
    obtain ⟨k, u⟩ := e
    rw [set]
    split
    · rename_i same
      rw [Key.same_text_iff.mp same]
      exact List.mem_cons_self
    · exact List.mem_cons_of_mem _ ih

/-- What stands under other keys stays. -/
theorem mem_set_of_ne {e : Key × Tree} (h : e ∈ es) (ne : e.1 ≠ .text s) (t : Tree) :
    e ∈ set (.text s) t es := by
  induction es with
  | nil => cases h
  | cons f es ih =>
    obtain ⟨k, u⟩ := f
    rw [set]
    split
    · rename_i same
      rcases List.mem_cons.mp h with rfl | h
      · exact absurd (Key.same_text_iff.mp same) ne
      · exact List.mem_cons_of_mem _ h
    · rcases List.mem_cons.mp h with rfl | h
      · exact List.mem_cons_self
      · exact List.mem_cons_of_mem _ (ih h)

/-- An entry of what `set` gives was there before, or is the one that was set. -/
theorem mem_or_eq_of_mem_set {e : Key × Tree} (h : e ∈ set (.text s) t es) :
    e ∈ es ∨ e = (.text s, t) := by
  induction es with
  | nil => exact .inr (List.mem_singleton.mp h)
  | cons f es ih =>
    obtain ⟨k, u⟩ := f
    rw [set] at h
    split at h
    · rename_i same
      cases Key.same_text_iff.mp same
      rcases List.mem_cons.mp h with rfl | h
      · exact .inr rfl
      · exact .inl (List.mem_cons_of_mem _ h)
    · rcases List.mem_cons.mp h with rfl | h
      · exact .inl List.mem_cons_self
      · exact (ih h).imp (List.mem_cons_of_mem _) id

/-- An entry whose key is a text was set, or was there. -/
theorem mem_of_mem_set_text {k : Key} {u : Tree} (h : (Key.text s, u) ∈ set k t es) :
    (Key.text s, u) = (k, t) ∨ (Key.text s, u) ∈ es := by
  induction es with
  | nil => exact .inl (List.mem_singleton.mp h)
  | cons f es ih =>
    obtain ⟨k', v⟩ := f
    rw [set] at h
    split at h
    · rename_i same
      rcases List.mem_cons.mp h with eq | h
      · cases eq
        rw [Key.text_same_iff.mp same]
        exact .inl rfl
      · exact .inr (List.mem_cons_of_mem _ h)
    · rcases List.mem_cons.mp h with eq | h
      · exact .inr (eq ▸ List.mem_cons_self)
      · exact (ih h).imp_right (List.mem_cons_of_mem _)

/-- An entry of an overlay whose key is a text stands in one of the two. -/
theorem mem_of_mem_overlay_text {u : Tree} (h : (Key.text s, u) ∈ overlay es fs) :
    (Key.text s, u) ∈ es ∨ (Key.text s, u) ∈ fs := by
  induction fs generalizing es with
  | nil => exact .inl h
  | cons f fs ih =>
    obtain ⟨k, t⟩ := f
    rcases ih h with h | h
    · rcases mem_of_mem_set_text h with eq | h
      · exact .inr (eq ▸ List.mem_cons_self)
      · exact .inl h
    · exact .inr (List.mem_cons_of_mem _ h)

@[simp] theorem keysOf_set_of_mem (h : Key.text s ∈ keysOf es) (t : Tree) :
    keysOf (set (.text s) t es) = keysOf es := by
  induction es with
  | nil => cases h
  | cons e es ih =>
    obtain ⟨k, u⟩ := e
    rw [set]
    split
    · rfl
    · rename_i other
      rw [keysOf_cons, List.mem_cons] at h
      have further := h.resolve_left fun eq => other (Key.same_text_iff.mpr eq.symm)
      rw [keysOf_cons, keysOf_cons, ih further]

/-- The keys stay different ones. -/
theorem distinct_set (distinct : (keysOf es).Nodup) (s : String) (t : Tree) :
    (keysOf (set (.text s) t es)).Nodup := by
  by_cases mem : Key.text s ∈ keysOf es
  · rwa [keysOf_set_of_mem mem]
  · rw [set_eq_append mem, keysOf_append, List.nodup_append]
    refine ⟨distinct, by simp, ?_⟩
    rintro k hk _ hk' rfl
    cases List.mem_singleton.mp hk'
    exact mem hk

@[simp] theorem get?_set_self (s : String) (t : Tree) (es : Entries) :
    get? (.text s) (set (.text s) t es) = some t := by
  induction es with
  | nil => simp [set]
  | cons e es ih =>
    obtain ⟨k, u⟩ := e
    rw [set]
    split
    · rename_i same
      simp [get?, same]
    · rename_i other
      simp only [get?, other]
      exact ih

/-- What was put last under a new key is found. -/
theorem get?_append_new (h : Key.text s ∉ keysOf es) (t : Tree) :
    get? (.text s) (es ++ [(.text s, t)]) = some t := by
  rw [← set_eq_append h]
  exact get?_set_self s t es

theorem set_append_new (h : Key.text s ∉ keysOf es) (t u : Tree) :
    set (.text s) u (es ++ [(.text s, t)]) = es ++ [(.text s, u)] := by
  induction es with
  | nil => simp [set]
  | cons e es ih =>
    obtain ⟨k, v⟩ := e
    rw [keysOf_cons, List.mem_cons, not_or] at h
    have other : ¬k.same (.text s) = true := fun eq => h.1 (Key.same_text_iff.mp eq).symm
    rw [List.cons_append, set, if_neg other, ih h.2]
    rfl

@[simp] theorem get?_set_of_ne {k : Key} (h : k ≠ .text s) (t : Tree) (es : Entries) :
    get? (.text s) (set k t es) = get? (.text s) es := by
  have other : ¬k.same (.text s) = true := fun same => h (Key.same_text_iff.mp same)
  induction es with
  | nil => simp [set, get?, other]
  | cons e es ih =>
    obtain ⟨k', u⟩ := e
    rw [set]
    split
    · rename_i same
      have other' : ¬k'.same (.text s) = true := by
        intro eq
        cases Key.same_text_iff.mp eq
        exact other (by rwa [Key.same_comm])
      simp [get?, other']
    · simp only [get?, ih]

theorem get?_overlay_of_notMem (h : Key.text s ∉ keysOf fs) (es : Entries) :
    get? (.text s) (overlay es fs) = get? (.text s) es := by
  induction fs generalizing es with
  | nil => rfl
  | cons e fs ih =>
    obtain ⟨k, u⟩ := e
    rw [keysOf_cons, List.mem_cons, not_or] at h
    rw [overlay, ih h.2, get?_set_of_ne (Ne.symm h.1)]

/-- What is set last is what is found. -/
theorem get?_overlay_of_mem (distinct : (keysOf fs).Nodup) (h : (Key.text s, t) ∈ fs)
    (es : Entries) : get? (.text s) (overlay es fs) = some t := by
  induction fs generalizing es with
  | nil => cases h
  | cons e fs ih =>
    obtain ⟨k, u⟩ := e
    rw [keysOf_cons, List.nodup_cons] at distinct
    rw [overlay]
    rcases List.mem_cons.mp h with eq | h
    · cases eq
      rw [get?_overlay_of_notMem distinct.1, get?_set_self]
    · exact ih distinct.2 h _

/-- What is set is found, and otherwise what was there before. -/
theorem get?_overlay (distinct : (keysOf fs).Nodup) (s : String) (es : Entries) :
    get? (.text s) (overlay es fs) = (get? (.text s) fs).or (get? (.text s) es) := by
  rcases found : get? (.text s) fs with - | t
  · have notThere : Key.text s ∉ keysOf fs := fun mem =>
      Option.isSome_iff_ne_none.mp (has_iff.mpr mem) found
    rw [get?_overlay_of_notMem notThere]
    rfl
  · exact get?_overlay_of_mem distinct (mem_of_get? found) es

end Entries

/-! ### Bringing an entry to the front -/

/-- What has the key, and behind it everything else. -/
def toFront (k : Key) (xs : List (Key × α)) : List (Key × α) :=
  xs.filter (fun x => x.1 = k) ++ xs.filter fun x => x.1 ≠ k

theorem toFront_perm (k : Key) (xs : List (Key × α)) : (toFront k xs).Perm xs := by
  have := List.filter_append_perm (fun x : Key × α => decide (x.1 = k)) xs
  simpa [toFront] using this

/-- Only the keys decide what comes to the front. -/
theorem toFront_map {β : Type} (f : α → β) (k : Key) (xs : List (Key × α)) :
    toFront k (xs.map fun x => (x.1, f x.2)) = (toFront k xs).map fun x => (x.1, f x.2) := by
  simp only [toFront, List.filter_map, List.map_append]
  rfl

theorem filter_ne_eq_self {k : Key} {xs : List (Key × α)} (h : k ∉ keysOf xs) :
    xs.filter (fun x => x.1 ≠ k) = xs := by
  refine List.filter_eq_self.mpr fun x hx => ?_
  have : x.1 ≠ k := by
    rintro rfl
    exact h (mem_keysOf hx)
  simpa using this

theorem filter_eq_nil {k : Key} {xs : List (Key × α)} (h : k ∉ keysOf xs) :
    xs.filter (fun x => x.1 = k) = [] := by
  refine List.filter_eq_nil_iff.mpr fun x hx => ?_
  have : x.1 ≠ k := by
    rintro rfl
    exact h (mem_keysOf hx)
  simpa using this

/-- Of distinct keys each has one entry. -/
theorem filter_eq_singleton {k : Key} {a : α} {xs : List (Key × α)} (distinct : (keysOf xs).Nodup)
    (h : (k, a) ∈ xs) : xs.filter (fun x => x.1 = k) = [(k, a)] := by
  obtain ⟨pre, post, rfl⟩ := List.append_of_mem h
  rw [keysOf_append, keysOf_cons, List.nodup_append, List.nodup_cons] at distinct
  obtain ⟨-, ⟨behind, -⟩, apart⟩ := distinct
  have front : k ∉ keysOf pre := fun mem => apart k mem k List.mem_cons_self rfl
  rw [List.filter_append, List.filter_cons, filter_eq_nil front, filter_eq_nil behind]
  simp

/-- Where nothing has the key everything stays. -/
theorem toFront_eq_self {k : Key} {xs : List (Key × α)} (h : k ∉ keysOf xs) :
    toFront k xs = xs := by
  rw [toFront, filter_eq_nil h, filter_ne_eq_self h, List.nil_append]

/-- The only entry with a key comes to the front. -/
theorem toFront_split {k : Key} {a : α} {xs ys : List (Key × α)} (pre : k ∉ keysOf xs)
    (post : k ∉ keysOf ys) : toFront k (xs ++ (k, a) :: ys) = (k, a) :: (xs ++ ys) := by
  rw [toFront, List.filter_append, List.filter_append, List.filter_cons, List.filter_cons,
    filter_eq_nil pre, filter_eq_nil post, filter_ne_eq_self pre, filter_ne_eq_self post]
  simp

end DefinitionTree
