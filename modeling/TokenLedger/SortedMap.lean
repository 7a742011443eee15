/-!
Maps kept as lists of entries whose keys ascend.

The order leaves no freedom in how a map is laid out, so two maps that answer every look-up alike
are the same value (`SortedMap.ext_find?`). Each operation is described by its effect on look-ups;
after that nobody needs the lists again, except to go through the entries in order.
-/

namespace TokenLedger

/-- A finite map whose entries are listed by ascending key. -/
@[ext] structure SortedMap (κ ν : Type) [Ord κ] where
  toList : List (κ × ν)
  ascending : toList.Pairwise fun a b => compare a.1 b.1 = .lt

namespace SortedMap

variable {κ ν : Type} [Ord κ]

instance [DecidableEq κ] [DecidableEq ν] : DecidableEq (SortedMap κ ν) := fun a b =>
  if h : a.toList = b.toList then
    isTrue (by cases a; cases b; simp_all)
  else
    isFalse fun e => h (congrArg toList e)

/-! ## Entries -/

/-- The value that the listed entries hold under a key. -/
def lookup (k : κ) : List (κ × ν) → Option ν
  | [] => none
  | (k', v) :: rest =>
    match compare k k' with
    | .lt => none
    | .eq => some v
    | .gt => lookup k rest

/-- The entries with one more, in the place of an earlier one under the same key. -/
def withEntry (k : κ) (v : ν) : List (κ × ν) → List (κ × ν)
  | [] => [(k, v)]
  | (k', v') :: rest =>
    match compare k k' with
    | .lt => (k, v) :: (k', v') :: rest
    | .eq => (k, v) :: rest
    | .gt => (k', v') :: withEntry k v rest

/-- The entries but the one under a key. -/
def withoutKey (k : κ) : List (κ × ν) → List (κ × ν)
  | [] => []
  | (k', v') :: rest =>
    match compare k k' with
    | .lt => (k', v') :: rest
    | .eq => rest
    | .gt => (k', v') :: withoutKey k rest

theorem mem_withEntry {k : κ} {v : ν} {entries : List (κ × ν)} {e : κ × ν}
    (h : e ∈ withEntry k v entries) : e = (k, v) ∨ e ∈ entries := by
  induction entries with
  | nil => simpa [withEntry] using h
  | cons head rest ih =>
    obtain ⟨k', v'⟩ := head
    simp only [withEntry] at h
    split at h
    · simpa using h
    · rcases List.mem_cons.1 h with h | h
      · exact .inl h
      · exact .inr (List.mem_cons_of_mem _ h)
    · rcases List.mem_cons.1 h with h | h
      · exact .inr (h ▸ List.mem_cons_self ..)
      · exact (ih h).imp id (List.mem_cons_of_mem _)

theorem mem_withoutKey {k : κ} {entries : List (κ × ν)} {e : κ × ν}
    (h : e ∈ withoutKey k entries) : e ∈ entries := by
  induction entries with
  | nil => simp [withoutKey] at h
  | cons head rest ih =>
    obtain ⟨k', v'⟩ := head
    simp only [withoutKey] at h
    split at h
    · exact h
    · exact List.mem_cons_of_mem _ h
    · rcases List.mem_cons.1 h with h | h
      · exact h ▸ List.mem_cons_self ..
      · exact List.mem_cons_of_mem _ (ih h)

theorem pairwise_withoutKey (k : κ) {entries : List (κ × ν)}
    (h : entries.Pairwise fun a b => compare a.1 b.1 = .lt) :
    (withoutKey k entries).Pairwise fun a b => compare a.1 b.1 = .lt := by
  induction entries with
  | nil => exact .nil
  | cons head rest ih =>
    obtain ⟨k', v'⟩ := head
    obtain ⟨below, tail⟩ := List.pairwise_cons.1 h
    simp only [withoutKey]
    split
    · exact h
    · exact tail
    · exact List.pairwise_cons.2 ⟨fun e he => below e (mem_withoutKey he), ih tail⟩

/-- A key below every listed one is not listed. -/
theorem lookup_eq_none_of_below {k : κ} {entries : List (κ × ν)}
    (h : ∀ e ∈ entries, compare k e.1 = .lt) : lookup k entries = none := by
  cases entries with
  | nil => rfl
  | cons head rest =>
    obtain ⟨k', v'⟩ := head
    simp [lookup, h (k', v') (List.mem_cons_self ..)]

/-- A key above every listed one comes last. -/
theorem withEntry_of_above {k : κ} (v : ν) {entries : List (κ × ν)}
    (above : ∀ e ∈ entries, compare k e.1 = .gt) :
    withEntry k v entries = entries ++ [(k, v)] := by
  induction entries with
  | nil => rfl
  | cons head rest ih =>
    obtain ⟨k', v'⟩ := head
    have gt : compare k k' = .gt := above (k', v') List.mem_cons_self
    simp only [withEntry, gt, ih fun e he => above e (List.mem_cons_of_mem _ he),
      List.cons_append]

section Laws

variable [Std.TransOrd κ] [Std.LawfulEqOrd κ]

theorem pairwise_withEntry (k : κ) (v : ν) {entries : List (κ × ν)}
    (h : entries.Pairwise fun a b => compare a.1 b.1 = .lt) :
    (withEntry k v entries).Pairwise fun a b => compare a.1 b.1 = .lt := by
  induction entries with
  | nil => simp [withEntry]
  | cons head rest ih =>
    obtain ⟨k', v'⟩ := head
    obtain ⟨below, tail⟩ := List.pairwise_cons.1 h
    simp only [withEntry]
    split
    · rename_i lt
      refine List.pairwise_cons.2 ⟨fun e he => ?_, h⟩
      rcases List.mem_cons.1 he with rfl | he
      · exact lt
      · exact Std.TransCmp.lt_trans lt (below e he)
    · rename_i eq
      have : k = k' := Std.LawfulEqOrd.eq_of_compare eq
      subst this
      exact List.pairwise_cons.2 ⟨below, tail⟩
    · rename_i gt
      refine List.pairwise_cons.2 ⟨fun e he => ?_, ih tail⟩
      rcases mem_withEntry he with rfl | he
      · exact Std.OrientedCmp.lt_of_gt gt
      · exact below e he

theorem lookup_withEntry [DecidableEq κ] (k k' : κ) (v : ν) (entries : List (κ × ν)) :
    lookup k' (withEntry k v entries) = if k' = k then some v else lookup k' entries := by
  induction entries with
  | nil =>
    by_cases same : k' = k
    · subst same; simp [withEntry, lookup]
    · simp only [withEntry, lookup, same, if_false]
      split <;> simp_all
  | cons head rest ih =>
    obtain ⟨a, w⟩ := head
    simp only [withEntry]
    split
    · rename_i lt
      by_cases same : k' = k
      · subst same; simp [lookup]
      · simp only [lookup, same, if_false]
        cases h : compare k' k with
        | lt => simp [Std.TransCmp.lt_trans h lt]
        | eq => exact absurd (Std.LawfulEqOrd.eq_of_compare h) same
        | gt => rfl
    · rename_i eq
      have : k = a := Std.LawfulEqOrd.eq_of_compare eq
      subst this
      by_cases same : k' = k
      · subst same; simp [lookup]
      · simp only [lookup, same, if_false]
        cases h : compare k' k with
        | lt => rfl
        | eq => exact absurd (Std.LawfulEqOrd.eq_of_compare h) same
        | gt => rfl
    · rename_i gt
      simp only [lookup, ih]
      by_cases same : k' = k
      · subst same; simp [gt]
      · simp [same]

theorem lookup_withoutKey [DecidableEq κ] (k k' : κ) {entries : List (κ × ν)}
    (asc : entries.Pairwise fun a b => compare a.1 b.1 = .lt) :
    lookup k' (withoutKey k entries) = if k' = k then none else lookup k' entries := by
  induction entries with
  | nil => simp [withoutKey, lookup]
  | cons head rest ih =>
    obtain ⟨a, w⟩ := head
    obtain ⟨below, tail⟩ := List.pairwise_cons.1 asc
    simp only [withoutKey]
    split
    · rename_i lt
      by_cases same : k' = k
      · subst same; simp [lookup, lt]
      · simp [same]
    · rename_i eq
      have : k = a := Std.LawfulEqOrd.eq_of_compare eq
      subst this
      by_cases same : k' = k
      · subst same; simp [lookup_eq_none_of_below below]
      · simp only [lookup, same, if_false]
        cases h : compare k' k with
        | lt => exact lookup_eq_none_of_below fun e he => Std.TransCmp.lt_trans h (below e he)
        | eq => exact absurd (Std.LawfulEqOrd.eq_of_compare h) same
        | gt => rfl
    · rename_i gt
      simp only [lookup, ih tail]
      by_cases same : k' = k
      · subst same; simp [gt]
      · simp [same]

theorem lookup_eq_some_iff {k : κ} {v : ν} {entries : List (κ × ν)}
    (asc : entries.Pairwise fun a b => compare a.1 b.1 = .lt) :
    lookup k entries = some v ↔ (k, v) ∈ entries := by
  induction entries with
  | nil => simp [lookup]
  | cons head rest ih =>
    obtain ⟨a, w⟩ := head
    obtain ⟨below, tail⟩ := List.pairwise_cons.1 asc
    simp only [lookup, List.mem_cons, Prod.mk.injEq]
    cases h : compare k a with
    | lt =>
      have apart : k ≠ a := by rintro rfl; simp at h
      have absent : (k, v) ∉ rest := fun m => by
        have := Std.TransCmp.lt_trans h (below _ m)
        simp at this
      simp [apart, absent]
    | eq =>
      have : k = a := Std.LawfulEqOrd.eq_of_compare h
      subst this
      have absent : (k, v) ∉ rest := fun m => by
        have := below _ m
        simp at this
      simp [absent, eq_comm]
    | gt =>
      have apart : k ≠ a := by rintro rfl; simp at h
      simp [apart, ih tail]

theorem entries_eq_of_lookup {as bs : List (κ × ν)}
    (ascA : as.Pairwise fun a b => compare a.1 b.1 = .lt)
    (ascB : bs.Pairwise fun a b => compare a.1 b.1 = .lt)
    (same : ∀ k, lookup k as = lookup k bs) : as = bs := by
  induction as generalizing bs with
  | nil =>
    cases bs with
    | nil => rfl
    | cons b bs =>
      have := same b.1
      simp [lookup] at this
  | cons a as ih =>
    cases bs with
    | nil =>
      have := same a.1
      simp [lookup] at this
    | cons b bs =>
      obtain ⟨belowA, tailA⟩ := List.pairwise_cons.1 ascA
      obtain ⟨belowB, tailB⟩ := List.pairwise_cons.1 ascB
      have heads : a = b := by
        obtain ⟨ka, va⟩ := a
        obtain ⟨kb, vb⟩ := b
        have atA := same ka
        have atB := same kb
        cases h : compare ka kb with
        | lt => simp [lookup, h] at atA
        | eq =>
          have : ka = kb := Std.LawfulEqOrd.eq_of_compare h
          subst this
          simpa [lookup] using atA
        | gt =>
          have : compare kb ka = .lt := Std.OrientedCmp.lt_of_gt h
          simp [lookup, this] at atB
      subst heads
      have tails : as = bs := by
        refine ih tailA tailB fun k => ?_
        have := same k
        simp only [lookup] at this
        cases h : compare k a.1 with
        | lt =>
          rw [lookup_eq_none_of_below fun e he => Std.TransCmp.lt_trans h (belowA e he),
            lookup_eq_none_of_below fun e he => Std.TransCmp.lt_trans h (belowB e he)]
        | eq =>
          have : k = a.1 := Std.LawfulEqOrd.eq_of_compare h
          subst this
          rw [lookup_eq_none_of_below belowA, lookup_eq_none_of_below belowB]
        | gt => simpa [h] using this
      rw [tails]

end Laws

/-! ## Maps -/

/-- The map without entries. -/
def empty : SortedMap κ ν := ⟨[], .nil⟩

instance : Inhabited (SortedMap κ ν) := ⟨empty⟩

/-- How many entries a map has. -/
def size (m : SortedMap κ ν) : Nat := m.toList.length

/-- Whether a map has no entry. -/
def isEmpty (m : SortedMap κ ν) : Bool := m.toList.isEmpty

/-- The value under a key. -/
def find? (m : SortedMap κ ν) (k : κ) : Option ν := lookup k m.toList

/-- Whether a key has a value. -/
def contains (m : SortedMap κ ν) (k : κ) : Bool := (m.find? k).isSome

/-- The map without a key. -/
def erase (m : SortedMap κ ν) (k : κ) : SortedMap κ ν :=
  ⟨withoutKey k m.toList, pairwise_withoutKey k m.ascending⟩

@[simp] theorem find?_empty (k : κ) : (empty : SortedMap κ ν).find? k = none := rfl

section Laws

variable [Std.TransOrd κ] [Std.LawfulEqOrd κ]

/-- The map with a value under a key, in the place of any earlier one. -/
def insert (m : SortedMap κ ν) (k : κ) (v : ν) : SortedMap κ ν :=
  ⟨withEntry k v m.toList, pairwise_withEntry k v m.ascending⟩

theorem toList_insert_of_above {m : SortedMap κ ν} {k : κ} (v : ν)
    (above : ∀ e ∈ m.toList, compare k e.1 = .gt) :
    (m.insert k v).toList = m.toList ++ [(k, v)] :=
  withEntry_of_above v above

/-- The map of the listed entries; of two under one key the later counts. -/
def ofList (entries : List (κ × ν)) : SortedMap κ ν :=
  entries.foldl (fun m e => m.insert e.1 e.2) empty

@[simp] theorem find?_insert [DecidableEq κ] (m : SortedMap κ ν) (k k' : κ) (v : ν) :
    (m.insert k v).find? k' = if k' = k then some v else m.find? k' :=
  lookup_withEntry k k' v m.toList

@[simp] theorem find?_erase [DecidableEq κ] (m : SortedMap κ ν) (k k' : κ) :
    (m.erase k).find? k' = if k' = k then none else m.find? k' :=
  lookup_withoutKey k k' m.ascending

theorem find?_eq_some_iff (m : SortedMap κ ν) (k : κ) (v : ν) :
    m.find? k = some v ↔ (k, v) ∈ m.toList :=
  lookup_eq_some_iff m.ascending

theorem mem_keys_of_find? {m : SortedMap κ ν} {k : κ} {v : ν} (found : m.find? k = some v) :
    k ∈ m.toList.map Prod.fst :=
  List.mem_map.2 ⟨(k, v), (find?_eq_some_iff m k v).1 found, rfl⟩

omit [Std.TransOrd κ] in
/-- No key is listed twice. -/
theorem nodup_keys (m : SortedMap κ ν) : (m.toList.map Prod.fst).Nodup := by
  refine List.pairwise_map.2 (m.ascending.imp fun {a b} below same => ?_)
  rw [same] at below
  simp at below

/-- Maps that answer every look-up alike are equal. -/
theorem ext_find? {a b : SortedMap κ ν} (same : ∀ k, a.find? k = b.find? k) : a = b :=
  SortedMap.ext (entries_eq_of_lookup a.ascending b.ascending same)

end Laws

end SortedMap

end TokenLedger
