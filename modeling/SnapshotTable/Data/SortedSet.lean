import SnapshotTable.Data.SortedMap

/-!
Finite sets, kept as sorted maps to nothing. Members are listed in ascending order.
-/

namespace SnapshotTable

set_option autoImplicit false

abbrev SortedSet (α : Type) (cmp : α → α → Ordering) := SortedMap α Unit cmp

namespace SortedSet

variable {α : Type} {cmp : α → α → Ordering}

def toList (set : SortedSet α cmp) : List α := set.keys

def add [Std.TransCmp cmp] (set : SortedSet α cmp) (member : α) : SortedSet α cmp :=
  set.insert member ()

def addAll [Std.TransCmp cmp] (set : SortedSet α cmp) (members : List α) : SortedSet α cmp :=
  members.foldl (fun set member => add set member) set

def ofMembers [Std.TransCmp cmp] (members : List α) : SortedSet α cmp :=
  addAll SortedMap.empty members

theorem ascending_toList (set : SortedSet α cmp) :
    (toList set).Pairwise fun a b => cmp a b = .lt :=
  List.pairwise_map.2 set.ascending

theorem nodup_toList [Std.ReflCmp cmp] (set : SortedSet α cmp) : (toList set).Nodup :=
  SortedMap.nodup_keys set

theorem ext_contains [Std.TransCmp cmp] [Std.LawfulEqCmp cmp] {left right : SortedSet α cmp}
    (same : ∀ member, left.contains member = right.contains member) : left = right := by
  refine SortedMap.ext_find? fun member => ?_
  have here := same member
  simp only [SortedMap.contains] at here
  cases found : SortedMap.find? left member <;> cases other : SortedMap.find? right member <;>
    simp_all

section Laws

variable [Std.TransCmp cmp] [Std.LawfulEqCmp cmp] [DecidableEq α]

theorem contains_eq_contains_toList (set : SortedSet α cmp) (member : α) :
    set.contains member = (toList set).contains member := by
  rw [Bool.eq_iff_iff, SortedMap.contains, Option.isSome_iff_exists, List.contains_iff_mem]
  exact SortedMap.mem_keys_iff.symm

theorem contains_add (set : SortedSet α cmp) (member other : α) :
    (add set member).contains other = (other == member || set.contains other) := by
  rw [add, SortedMap.contains, SortedMap.find?_insert_eq]
  by_cases same : other = member <;> simp [same, SortedMap.contains]

theorem contains_erase (set : SortedSet α cmp) (member other : α) :
    SortedMap.contains (set.erase member) other = (other != member && set.contains other) := by
  simp only [SortedMap.contains, SortedMap.find?_erase, Std.LawfulEqCmp.compare_eq_iff_eq]
  by_cases same : other = member <;> simp [same]

theorem contains_addAll (set : SortedSet α cmp) (members : List α) (other : α) :
    (addAll set members).contains other = (members.contains other || set.contains other) := by
  induction members generalizing set with
  | nil => simp [addAll]
  | cons head rest ih =>
    have step : addAll set (head :: rest) = addAll (add set head) rest := rfl
    rw [step, ih, contains_add, List.contains_cons, ← Bool.or_assoc, Bool.or_comm (rest.contains _)]

theorem contains_ofMembers (members : List α) (other : α) :
    (ofMembers members : SortedSet α cmp).contains other = members.contains other := by
  rw [ofMembers, contains_addAll]
  simp [SortedMap.contains]

theorem contains_ofMembers_iff (members : List α) (other : α) :
    (ofMembers members : SortedSet α cmp).contains other ↔ other ∈ members := by
  rw [contains_ofMembers, List.contains_iff_mem]

theorem mem_toList_iff (set : SortedSet α cmp) (member : α) :
    member ∈ toList set ↔ set.contains member := by
  rw [contains_eq_contains_toList, List.contains_iff_mem]

theorem ofMembers_toList (set : SortedSet α cmp) : ofMembers (toList set) = set :=
  ext_contains fun member => by rw [contains_ofMembers, ← contains_eq_contains_toList]

theorem toList_add_perm {set : SortedSet α cmp} {member : α}
    (fresh : set.contains member = false) : (toList (add set member)).Perm (member :: toList set) := by
  have outside : member ∉ toList set := by simp [mem_toList_iff, fresh]
  rw [List.perm_ext_iff_of_nodup (nodup_toList _) (List.nodup_cons.2 ⟨outside, nodup_toList _⟩)]
  intro other
  rw [List.mem_cons, mem_toList_iff, mem_toList_iff, contains_add]
  simp

theorem toList_erase_perm {set : SortedSet α cmp} {member : α} (held : set.contains member) :
    (toList set).Perm (member :: toList (set.erase member)) := by
  have outside : member ∉ toList (set.erase member) := by
    simp [mem_toList_iff, contains_erase]
  rw [List.perm_ext_iff_of_nodup (nodup_toList _) (List.nodup_cons.2 ⟨outside, nodup_toList _⟩)]
  intro other
  rw [List.mem_cons, mem_toList_iff, mem_toList_iff, contains_erase]
  by_cases same : other = member <;> simp [same, held]

end Laws

end SortedSet

end SnapshotTable
