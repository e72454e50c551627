/-!
Finite maps kept as a list of entries in ascending order of their keys. Every operation goes
through `alter` or `filterMap`, so two look-up laws describe them all, and two maps with the same
look-ups are equal.
-/

namespace SnapshotTable

set_option autoImplicit false

/-- A finite map. Its entries stand in strictly ascending key order, so each key occurs once. -/
structure SortedMap (α β : Type) (cmp : α → α → Ordering) where
  entries : List (α × β)
  ascending : entries.Pairwise fun a b => cmp a.1 b.1 = .lt
deriving DecidableEq

namespace SortedMap

variable {α β γ : Type} {cmp : α → α → Ordering}

/-- Replaces the value at a key, `none` standing for an absent one. -/
def alterEntries (cmp : α → α → Ordering) (key : α) (change : Option β → Option β) :
    List (α × β) → List (α × β)
  | [] => (change none).toList.map (key, ·)
  | entry :: rest =>
    match cmp key entry.1 with
    | .lt => (change none).toList.map (key, ·) ++ entry :: rest
    | .eq => (change (some entry.2)).toList.map (entry.1, ·) ++ rest
    | .gt => entry :: alterEntries cmp key change rest

private theorem key_of_mem_alterEntries {key : α} {change : Option β → Option β}
    {entries : List (α × β)} {entry : α × β} (mem : entry ∈ alterEntries cmp key change entries) :
    entry.1 = key ∨ entry.1 ∈ entries.map (·.1) := by
  induction entries with
  | nil => simp [alterEntries] at mem; grind
  | cons head rest ih =>
    simp only [alterEntries] at mem
    split at mem <;> simp at mem <;> grind

private theorem ascending_alterEntries [Std.TransCmp cmp] (key : α)
    (change : Option β → Option β) {entries : List (α × β)}
    (ascending : entries.Pairwise fun a b => cmp a.1 b.1 = .lt) :
    (alterEntries cmp key change entries).Pairwise fun a b => cmp a.1 b.1 = .lt := by
  induction entries with
  | nil => cases h : change none <;> simp [alterEntries, h]
  | cons head rest ih =>
    obtain ⟨below, tail⟩ := List.pairwise_cons.1 ascending
    simp only [alterEntries]
    split
    · rename_i order
      cases change none with
      | none => simpa using ascending
      | some value =>
        refine List.pairwise_cons.2 ⟨fun entry mem => ?_, ascending⟩
        rcases List.mem_cons.1 mem with rfl | mem
        · exact order
        · exact Std.TransCmp.lt_trans order (below entry mem)
    · cases change (some head.2) with
      | none => simpa using tail
      | some value => exact List.pairwise_cons.2 ⟨below, tail⟩
    · rename_i order
      refine List.pairwise_cons.2 ⟨fun entry mem => ?_, ih tail⟩
      rcases key_of_mem_alterEntries mem with same | mem
      · exact same ▸ Std.OrientedCmp.lt_of_gt order
      · obtain ⟨other, mem, same⟩ := List.mem_map.1 mem
        exact same ▸ below other mem

def empty : SortedMap α β cmp := ⟨[], List.Pairwise.nil⟩

instance : EmptyCollection (SortedMap α β cmp) := ⟨empty⟩

instance : Inhabited (SortedMap α β cmp) := ⟨empty⟩

def size (map : SortedMap α β cmp) : Nat := map.entries.length

def isEmpty (map : SortedMap α β cmp) : Bool := map.entries.isEmpty

def keys (map : SortedMap α β cmp) : List α := map.entries.map (·.1)

def values (map : SortedMap α β cmp) : List β := map.entries.map (·.2)

def find? (map : SortedMap α β cmp) (key : α) : Option β :=
  (map.entries.find? fun entry => cmp key entry.1 == .eq).map (·.2)

def contains (map : SortedMap α β cmp) (key : α) : Bool := (map.find? key).isSome

def alter [Std.TransCmp cmp] (map : SortedMap α β cmp) (key : α)
    (change : Option β → Option β) : SortedMap α β cmp :=
  ⟨alterEntries cmp key change map.entries, ascending_alterEntries key change map.ascending⟩

def insert [Std.TransCmp cmp] (map : SortedMap α β cmp) (key : α) (value : β) :
    SortedMap α β cmp :=
  map.alter key fun _ => some value

def erase [Std.TransCmp cmp] (map : SortedMap α β cmp) (key : α) : SortedMap α β cmp :=
  map.alter key fun _ => none

/-- Keeps an entry's key when `change` gives it a new value, and drops the entry otherwise. -/
def filterMap (map : SortedMap α β cmp) (change : α → β → Option γ) : SortedMap α γ cmp where
  entries := map.entries.filterMap fun entry => (change entry.1 entry.2).map (entry.1, ·)
  ascending := by
    refine List.Pairwise.filterMap _ (fun a b order a' ha b' hb => ?_) map.ascending
    obtain ⟨_, _, rfl⟩ := Option.map_eq_some_iff.1 ha
    obtain ⟨_, _, rfl⟩ := Option.map_eq_some_iff.1 hb
    exact order

def filter (map : SortedMap α β cmp) (keep : α → β → Bool) : SortedMap α β cmp :=
  map.filterMap fun key value => if keep key value then some value else none

/-- Inserts the pairs in order, so the last pair of a key stays. -/
def ofList [Std.TransCmp cmp] (pairs : List (α × β)) : SortedMap α β cmp :=
  pairs.foldl (fun map pair => map.insert pair.1 pair.2) empty

@[simp] theorem find?_empty (key : α) : (empty : SortedMap α β cmp).find? key = none := rfl

theorem find?_of_isEmpty {map : SortedMap α β cmp} (isEmpty : map.isEmpty) (key : α) :
    map.find? key = none := by
  obtain ⟨entries, _⟩ := map
  cases entries with
  | nil => rfl
  | cons head rest => simp [SortedMap.isEmpty] at isEmpty

private theorem find?_eq_none_of_lt [Std.TransCmp cmp] {key : α} {entries : List (α × β)}
    (below : ∀ entry ∈ entries, cmp key entry.1 = .lt) :
    entries.find? (fun entry => cmp key entry.1 == .eq) = none := by
  rw [List.find?_eq_none]
  intro entry mem
  simp [below entry mem]

/-- After a change at `key`, equal keys see the changed value and all other keys see theirs. -/
theorem find?_alter [Std.TransCmp cmp] (map : SortedMap α β cmp) (key other : α)
    (change : Option β → Option β) :
    (map.alter key change).find? other =
      if cmp other key = .eq then change (map.find? key) else map.find? other := by
  obtain ⟨entries, ascending⟩ := map
  simp only [find?, alter]
  induction entries with
  | nil =>
    cases h : change none <;> by_cases same : cmp other key = .eq <;>
      simp [alterEntries, h, same]
  | cons head rest ih =>
    obtain ⟨below, tail⟩ := List.pairwise_cons.1 ascending
    have ih := ih tail
    simp only [alterEntries]
    split
    · rename_i order
      have absent : rest.find? (fun entry => cmp key entry.1 == .eq) = none :=
        find?_eq_none_of_lt fun entry mem => Std.TransCmp.lt_trans order (below entry mem)
      by_cases same : cmp other key = .eq
      · have headLt : cmp other head.1 = .lt := Std.TransCmp.lt_of_eq_of_lt same order
        have absentOther : rest.find? (fun entry => cmp other entry.1 == .eq) = none :=
          find?_eq_none_of_lt fun entry mem => Std.TransCmp.lt_trans headLt (below entry mem)
        cases h : change none <;> simp [same, order, absent, headLt, absentOther, h]
      · cases h : change none <;> simp [same, List.find?_cons]
    · rename_i order
      by_cases same : cmp other key = .eq
      · have headEq : cmp other head.1 = .eq := Std.TransCmp.eq_trans same order
        have absentOther : rest.find? (fun entry => cmp other entry.1 == .eq) = none :=
          find?_eq_none_of_lt fun entry mem => Std.TransCmp.lt_of_eq_of_lt headEq (below entry mem)
        cases h : change (some head.2) <;> simp [same, order, headEq, absentOther, h]
      · have headNe : cmp other head.1 ≠ .eq := fun eq =>
          same (Std.TransCmp.eq_trans eq (Std.OrientedCmp.eq_symm order))
        cases h : change (some head.2) <;> simp [same, headNe]
    · rename_i order
      by_cases same : cmp other key = .eq
      · have headGt : cmp other head.1 = .gt := Std.TransCmp.gt_of_eq_of_gt same order
        simp only [same, if_true] at ih ⊢
        simpa [List.find?_cons, headGt, order] using ih
      · simp only [same, if_false] at ih ⊢
        by_cases headEq : cmp other head.1 = .eq
        · simp [headEq]
        · simpa [List.find?_cons, headEq] using ih

theorem find?_insert [Std.TransCmp cmp] (map : SortedMap α β cmp) (key other : α) (value : β) :
    (map.insert key value).find? other =
      if cmp other key = .eq then some value else map.find? other :=
  find?_alter map key other _

theorem find?_erase [Std.TransCmp cmp] (map : SortedMap α β cmp) (key other : α) :
    (map.erase key).find? other = if cmp other key = .eq then none else map.find? other :=
  find?_alter map key other _

theorem find?_alter_eq [Std.TransCmp cmp] [Std.LawfulEqCmp cmp] [DecidableEq α]
    (map : SortedMap α β cmp) (key other : α) (change : Option β → Option β) :
    (map.alter key change).find? other =
      if other = key then change (map.find? key) else map.find? other := by
  simp only [find?_alter, Std.LawfulEqCmp.compare_eq_iff_eq]

theorem find?_insert_eq [Std.TransCmp cmp] [Std.LawfulEqCmp cmp] [DecidableEq α]
    (map : SortedMap α β cmp) (key other : α) (value : β) :
    (map.insert key value).find? other = if other = key then some value else map.find? other :=
  find?_alter_eq map key other _

theorem mem_entries_iff [Std.TransCmp cmp] [Std.LawfulEqCmp cmp] (map : SortedMap α β cmp)
    (key : α) (value : β) : (key, value) ∈ map.entries ↔ map.find? key = some value := by
  obtain ⟨entries, ascending⟩ := map
  simp only [find?]
  induction entries with
  | nil => simp
  | cons head rest ih =>
    obtain ⟨below, tail⟩ := List.pairwise_cons.1 ascending
    by_cases same : key = head.1
    · subst same
      have absent : (head.1, value) ∉ rest := fun mem => by
        simpa [Std.ReflCmp.compare_self] using below _ mem
      simp [Std.ReflCmp.compare_self, absent, Prod.ext_iff, eq_comm]
    · have headNe : cmp key head.1 ≠ .eq := fun eq => same (Std.LawfulEqCmp.eq_of_compare eq)
      simp [Prod.ext_iff, same, headNe, ih tail]

theorem mem_keys_iff [Std.TransCmp cmp] [Std.LawfulEqCmp cmp] {map : SortedMap α β cmp}
    {key : α} : key ∈ map.keys ↔ ∃ value, map.find? key = some value := by
  simp only [keys, List.mem_map, ← mem_entries_iff]
  constructor
  · rintro ⟨entry, mem, rfl⟩
    exact ⟨entry.2, mem⟩
  · rintro ⟨value, mem⟩
    exact ⟨_, mem, rfl⟩

theorem nodup_keys [Std.ReflCmp cmp] (map : SortedMap α β cmp) : map.keys.Nodup := by
  refine List.pairwise_map.2 (map.ascending.imp fun order same => ?_)
  simp [same, Std.ReflCmp.compare_self] at order

theorem find?_filterMap [Std.TransCmp cmp] [Std.LawfulEqCmp cmp] (map : SortedMap α β cmp)
    (change : α → β → Option γ) (key : α) :
    (map.filterMap change).find? key = (map.find? key).bind (change key) := by
  apply Option.ext
  intro value
  rw [← mem_entries_iff]
  simp only [filterMap, List.mem_filterMap, Option.map_eq_some_iff, Option.bind_eq_some_iff,
    ← mem_entries_iff, Prod.exists, Prod.mk.injEq]
  grind

theorem find?_filter [Std.TransCmp cmp] [Std.LawfulEqCmp cmp] (map : SortedMap α β cmp)
    (keep : α → β → Bool) (key : α) :
    (map.filter keep).find? key = (map.find? key).filter (keep key) := by
  rw [filter, find?_filterMap]
  cases map.find? key <;> simp [Option.filter]

theorem find?_ofList [Std.TransCmp cmp] [Std.LawfulEqCmp cmp] [DecidableEq α]
    (pairs : List (α × β)) (key : α) : (ofList pairs : SortedMap α β cmp).find? key =
      (pairs.reverse.find? fun pair => pair.1 == key).map (·.2) := by
  have inserted (map : SortedMap α β cmp) :
      (pairs.foldl (fun map pair => map.insert pair.1 pair.2) map).find? key =
        ((pairs.reverse.find? fun pair => pair.1 == key).map (·.2)).or (map.find? key) := by
    induction pairs generalizing map with
    | nil => rfl
    | cons pair rest induction =>
      rw [List.foldl_cons, induction, List.reverse_cons, List.find?_append, find?_insert_eq]
      cases rest.reverse.find? fun pair => pair.1 == key with
      | some found => rfl
      | none =>
        by_cases same : key = pair.1
        · simp [same]
        · have other : pair.1 ≠ key := fun eq => same eq.symm
          simp [same, other]
  rw [ofList, inserted]
  simp

theorem ext_find? [Std.TransCmp cmp] [Std.LawfulEqCmp cmp] {left right : SortedMap α β cmp}
    (same : ∀ key, left.find? key = right.find? key) : left = right := by
  have members : ∀ entry, entry ∈ left.entries ↔ entry ∈ right.entries := fun entry => by
    rw [mem_entries_iff left entry.1 entry.2, mem_entries_iff right entry.1 entry.2, same]
  obtain ⟨left, leftAscending⟩ := left
  obtain ⟨right, rightAscending⟩ := right
  simp only [mk.injEq]
  simp only at members
  clear same
  induction left generalizing right with
  | nil =>
    cases right with
    | nil => rfl
    | cons head rest => simpa using members head
  | cons first rest ih =>
    cases right with
    | nil => simpa using members first
    | cons second others =>
      obtain ⟨belowFirst, restAscending⟩ := List.pairwise_cons.1 leftAscending
      obtain ⟨belowSecond, othersAscending⟩ := List.pairwise_cons.1 rightAscending
      have heads : first = second := by
        rcases List.mem_cons.1 ((members first).1 (List.mem_cons_self ..)) with eq | mem
        · exact eq
        rcases List.mem_cons.1 ((members second).2 (List.mem_cons_self ..)) with eq | mem'
        · exact eq.symm
        exact absurd (belowFirst _ mem') (Std.OrientedCmp.not_lt_of_lt (belowSecond _ mem))
      subst heads
      refine congrArg _ (ih restAscending others othersAscending
        fun entry => ⟨fun mem => ?_, fun mem => ?_⟩)
      · rcases List.mem_cons.1 ((members entry).1 (List.mem_cons_of_mem _ mem)) with rfl | mem'
        · simpa [Std.ReflCmp.compare_self] using belowFirst _ mem
        · exact mem'
      · rcases List.mem_cons.1 ((members entry).2 (List.mem_cons_of_mem _ mem)) with rfl | mem'
        · simpa [Std.ReflCmp.compare_self] using belowSecond _ mem
        · exact mem'

theorem insert_comm [Std.TransCmp cmp] [Std.LawfulEqCmp cmp] (map : SortedMap α β cmp)
    {key other : α} (apart : key ≠ other) (value otherValue : β) :
    (map.insert key value).insert other otherValue =
      (map.insert other otherValue).insert key value := by
  apply ext_find?
  intro asked
  simp only [find?_insert, Std.LawfulEqCmp.compare_eq_iff_eq]
  by_cases first : asked = key
  · simp [first, apart]
  · simp [first]

end SortedMap

end SnapshotTable
