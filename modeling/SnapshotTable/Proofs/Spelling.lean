import Mathlib.Data.List.Forall2
import SnapshotTable.Transaction.Wire

/-!
The forms in which the four fields of a transaction can be spelled: heads of any width, the map and
the list with their lengths given or open, the fields in any order. The reader takes all of them,
and what the writer makes is one of them.
-/

namespace SnapshotTable

set_option autoImplicit false

namespace Cbor

open Reader

variable {β : Type}

theorem untilStop_of_read {step : β → Reader β} {input after : Bytes} {head : Head}
    (seen : Head.read input = .ok (head, after)) (other : head ≠ .stop) (count : Nat) (state : β) :
    untilStop step (count + 1) state input = (step state >>= untilStop step count) input := by
  have here : (get : Reader Bytes) input = .ok (input, input) := rfl
  rw [untilStop, bind_of_ok here, bind_of_ok seen]
  cases head with
  | stop => exact absurd rfl other
  | _ => rfl

/-- The step reads each item, whatever follows it, and no item looks like a stop. -/
inductive Steps (step : β → Reader β) : β → List Bytes → β → Prop
  | nil {state : β} : Steps step state [] state
  | cons {state next last : β} {item : Bytes} {items : List Bytes} :
    (∀ rest, step state (item ++ rest) = .ok (next, rest)) →
    (∀ rest, ∃ head after, Head.read (item ++ rest) = .ok (head, after) ∧ head ≠ .stop) →
    Steps step next items last → Steps step state (item :: items) last

namespace Steps

variable {step : β → Reader β} {state last : β} {items : List Bytes}

theorem repeated (steps : Steps step state items last) (rest : Bytes) :
    repeated step items.length state (items.flatten ++ rest) = .ok (last, rest) := by
  induction steps with
  | nil => rfl
  | cons here _ _ ih =>
    rw [List.length_cons, Cbor.repeated, List.flatten_cons, List.append_assoc, bind_of_ok (here _)]
    exact ih

theorem length_le (steps : Steps step state items last) : items.length ≤ items.flatten.length := by
  induction steps with
  | nil => exact Nat.le_refl _
  | @cons _ _ _ item items _ looks _ ih =>
    obtain ⟨head, after, read, _⟩ := looks []
    have some : 0 < item.length := by
      cases item with
      | nil => cases read
      | cons first others => exact Nat.succ_pos _
    rw [List.length_cons, List.flatten_cons, List.length_append]
    omega

theorem untilStop (steps : Steps step state items last) (rest : Bytes) {count : Nat}
    (enough : items.length < count) :
    untilStop step count state (items.flatten ++ 0xff :: rest) = .ok (last, rest) := by
  induction steps generalizing count with
  | nil =>
    obtain ⟨count, rfl⟩ := Nat.exists_eq_add_of_lt enough
    rfl
  | @cons state next last item items here looks later ih =>
    obtain ⟨count, rfl⟩ : ∃ left, count = left + 1 := ⟨count - 1, by omega⟩
    rw [List.length_cons] at enough
    rw [List.flatten_cons, List.append_assoc]
    obtain ⟨head, after, seen, other⟩ := looks (items.flatten ++ 0xff :: rest)
    rw [untilStop_of_read seen other, bind_of_ok (here _)]
    exact ih (by omega)

end Steps

inductive Container where
  | array
  | map

namespace Container

def major : Container → Nat
  | array => 4
  | map => 5

def head : Container → Option Nat → Head
  | array => .array
  | map => .map

/-- The forms of a container: its items come after a head with their number, or between an open head
and a stop. -/
inductive Spells (container : Container) (items : List Bytes) : Bytes → Prop
  | counted {bytes : Bytes} : Head.Spells container.major items.length bytes →
    Spells container items (bytes ++ items.flatten)
  | opened : Spells container items
    (UInt8.ofNat (container.major * 32 + 31) :: (items.flatten ++ [0xff]))

/-- In each of its forms a container is found, and its items are read by their steps. -/
theorem Spells.read {container : Container} {items : List Bytes} {bytes : Bytes}
    (spelled : container.Spells items bytes) (rest : Bytes) : ∃ length inner,
      headPastTags (bytes ++ rest) = .ok (container.head length, inner) ∧
        ∀ {step : β → Reader β} {state last : β}, Steps step state items last →
          elements length step state inner = .ok (last, rest) := by
  have noTag : ∀ length number, container.head length ≠ .tag number := by
    cases container <;> simp [head]
  cases spelled with
  | @counted bytes counted =>
    have first : Head.read (bytes ++ (items.flatten ++ rest)) =
        .ok (container.head (some items.length), items.flatten ++ rest) := by
      rw [Head.read_spells counted (by cases container <;> decide)]
      cases container <;> rfl
    rw [List.append_assoc]
    exact ⟨_, _, headPastTags_of_read first (noTag _), fun steps => steps.repeated rest⟩
  | opened =>
    have first : Head.read (UInt8.ofNat (container.major * 32 + 31) ::
        (items.flatten ++ 0xff :: rest)) =
          .ok (container.head none, items.flatten ++ 0xff :: rest) := by
      cases container <;> rfl
    rw [List.cons_append, List.append_assoc]
    refine ⟨_, _, headPastTags_of_read first (noTag _), fun steps => ?_⟩
    refine steps.untilStop rest ?_
    have := steps.length_le
    rw [List.length_append]
    omega

end Container

end Cbor

namespace Wire

open Cbor Reader

def NumbersSpell (numbers : List UInt64) (bytes : Bytes) : Prop :=
  ∃ items, List.Forall₂ (fun number => Head.Spells 0 number.toNat) numbers items ∧
    Container.array.Spells items bytes

theorem steps_readNumber {numbers : List UInt64} {items : List Bytes}
    (spelled : List.Forall₂ (fun number => Head.Spells 0 number.toNat) numbers items)
    (known : List UInt64) : Steps readNumber known items (numbers.reverse ++ known) := by
  induction spelled generalizing known with
  | nil => exact .nil
  | @cons number item numbers items here _ ih =>
    rw [List.reverse_cons, List.append_assoc, List.singleton_append]
    refine .cons (fun rest => ?_) (fun rest => ?_) (ih (number :: known))
    · rw [readNumber, bind_of_ok (uint64_spells here rest)]
      rfl
    · exact ⟨_, _, Head.read_spells here (by decide) rest, nofun⟩

theorem readNumbers_spells {numbers : List UInt64} {bytes : Bytes}
    (spelled : NumbersSpell numbers bytes) (rest : Bytes) :
    readNumbers (bytes ++ rest) = .ok (numbers, rest) := by
  obtain ⟨items, all, held⟩ := spelled
  obtain ⟨length, inner, found, read⟩ := held.read rest
  have listed := read (steps_readNumber all [])
  rw [List.append_nil] at listed
  rw [readNumbers, bind_of_ok found]
  dsimp only [Container.head]
  rw [bind_of_ok listed, List.reverse_reverse]
  rfl

def Field.Spells (field : Field) (bytes : Bytes) : Prop :=
  ∃ head, Head.Spells 3 field.key.length head ∧ bytes = head ++ field.key

theorem Field.Spells.looks {field : Field} {bytes : Bytes} (spelled : field.Spells bytes)
    (rest : Bytes) : Head.read (bytes ++ rest) =
      .ok (.text (some field.key.length), field.key ++ rest) := by
  obtain ⟨head, here, rfl⟩ := spelled
  rw [List.append_assoc]
  exact Head.read_spells here (by decide) _

theorem Field.read_spells {field : Field} {bytes : Bytes} (spelled : field.Spells bytes)
    (rest : Bytes) : Field.read (bytes ++ rest) = .ok (some field, rest) := by
  rw [Field.read, bind_of_ok (headPastTags_of_read (spelled.looks rest) nofun)]
  cases field <;> rfl

/-- A field with its value. -/
inductive Entry where
  | v (number : UInt64)
  | ex (numbers : List UInt64)
  | rp (number : UInt64)
  | wp (number : UInt64)

namespace Entry

def field : Entry → Field
  | v _ => .v
  | ex _ => .ex
  | rp _ => .rp
  | wp _ => .wp

def ValueSpells : Entry → Bytes → Prop
  | v number | rp number | wp number => Head.Spells 0 number.toNat
  | ex numbers => NumbersSpell numbers

/-- The forms of an entry: those of its key followed by those of its value. -/
def Spells (entry : Entry) (bytes : Bytes) : Prop :=
  ∃ key value, entry.field.Spells key ∧ entry.ValueSpells value ∧ bytes = key ++ value

end Entry

def Draft.Lacks (draft : Draft) : Field → Prop
  | .v => draft.v = none
  | .ex => draft.ex = none
  | .rp => draft.rp = none
  | .wp => draft.wp = none

def Draft.fill (draft : Draft) : Entry → Draft
  | .v number => { draft with v := some number }
  | .ex numbers => { draft with ex := some numbers }
  | .rp number => { draft with rp := some number }
  | .wp number => { draft with wp := some number }

theorem Draft.lacks_fill {draft : Draft} {entry : Entry} {field : Field}
    (lacks : draft.Lacks field) (other : field ≠ entry.field) : (draft.fill entry).Lacks field := by
  cases entry <;> cases field <;> first | exact lacks | exact absurd rfl other

theorem readOnce_of_ok {α : Type} {known : Option α} {value : Reader α} {input rest : Bytes}
    {found : α} (new : known = none) (read : value input = .ok (found, rest))
    (next : Option α → Draft) :
    (readOnce known value >>= fun read => pure (next read) : Reader Draft) input =
      .ok (next (some found), rest) := by
  have once : readOnce known value input = .ok (some found, rest) := by
    rw [new]
    change (value input).bind _ = _
    rw [read]
    rfl
  rw [bind_of_ok once]
  rfl

theorem readEntry_spells {draft : Draft} {entry : Entry} {bytes : Bytes}
    (spelled : entry.Spells bytes) (lacks : draft.Lacks entry.field) (rest : Bytes) :
    readEntry draft (bytes ++ rest) = .ok (draft.fill entry, rest) := by
  obtain ⟨key, value, here, there, rfl⟩ := spelled
  rw [List.append_assoc, readEntry, bind_of_ok (Field.read_spells here _)]
  cases entry with
  | v number =>
    exact readOnce_of_ok lacks (uint64_spells there rest) fun read => { draft with v := read }
  | ex numbers =>
    exact readOnce_of_ok lacks (readNumbers_spells there rest) fun read => { draft with ex := read }
  | rp number =>
    exact readOnce_of_ok lacks (uint64_spells there rest) fun read => { draft with rp := read }
  | wp number =>
    exact readOnce_of_ok lacks (uint64_spells there rest) fun read => { draft with wp := read }

theorem steps_readEntry {entries : List Entry} {items : List Bytes}
    (spelled : List.Forall₂ Entry.Spells entries items)
    (distinct : entries.Pairwise fun entry other => other.field ≠ entry.field) {draft : Draft}
    (lacks : ∀ entry ∈ entries, draft.Lacks entry.field) :
    Steps readEntry draft items (entries.foldl Draft.fill draft) := by
  induction spelled generalizing draft with
  | nil => exact .nil
  | @cons entry item entries items here _ ih =>
    obtain ⟨apart, distinct⟩ := List.pairwise_cons.1 distinct
    obtain ⟨new, lacks⟩ := List.forall_mem_cons.1 lacks
    refine .cons (readEntry_spells here new) (fun rest => ?_) (ih distinct fun other mem => ?_)
    · obtain ⟨key, value, spelled, _, rfl⟩ := here
      rw [List.append_assoc]
      exact ⟨_, _, spelled.looks _, nofun⟩
    · exact Draft.lacks_fill (lacks other mem) (apart other mem)

def entries (wire : Wire) : List Entry := [.v wire.v, .ex wire.ex, .rp wire.rp, .wp wire.wp]

/-- The forms of the four fields together, in any order. -/
def Spells (wire : Wire) (bytes : Bytes) : Prop :=
  ∃ entries items, entries.Perm wire.entries ∧ List.Forall₂ Entry.Spells entries items ∧
    Container.map.Spells items bytes

theorem distinct_entries (wire : Wire) :
    wire.entries.Pairwise fun entry other => other.field ≠ entry.field := by
  simp [entries, Entry.field]

theorem fill_perm {wire : Wire} {entries : List Entry} (perm : entries.Perm wire.entries) :
    entries.foldl Draft.fill {} = ⟨some wire.v, some wire.ex, some wire.rp, some wire.wp⟩ := by
  refine (perm.foldl_eq' ?_ ({} : Draft)).trans rfl
  intro first mem second mem' draft
  have mem := perm.mem_iff.1 mem
  have mem' := perm.mem_iff.1 mem'
  simp only [Wire.entries, List.mem_cons, List.not_mem_nil, or_false] at mem mem'
  rcases mem with rfl | rfl | rfl | rfl <;> rcases mem' with rfl | rfl | rfl | rfl <;> rfl

/-- The fields are read in each of their forms, whatever follows them. -/
theorem read_spells {wire : Wire} {bytes : Bytes} (spelled : wire.Spells bytes) (rest : Bytes) :
    read (bytes ++ rest) = .ok (wire, rest) := by
  obtain ⟨entries, items, perm, all, held⟩ := spelled
  obtain ⟨length, inner, found, read⟩ := held.read rest
  have distinct : entries.Pairwise fun entry other => other.field ≠ entry.field :=
    perm.symm.pairwise wire.distinct_entries fun differ => Ne.symm differ
  have lacks : ∀ entry ∈ entries, ({} : Draft).Lacks entry.field := fun entry _ => by
    cases entry <;> rfl
  have filled := read (steps_readEntry all distinct lacks)
  rw [fill_perm perm] at filled
  rw [Wire.read, bind_of_ok found]
  dsimp only [Container.head]
  rw [bind_of_ok filled]
  rfl

theorem Field.spells_write (field : Field) : field.Spells field.write :=
  ⟨_, Head.spells_shortest (by cases field <;> decide), rfl⟩

theorem spells_writeUInt64 (number : UInt64) : Head.Spells 0 number.toNat (writeUInt64 number) :=
  Head.spells_shortest number.toNat_lt

theorem numbersSpell_writeNumbers {numbers : List UInt64} (short : numbers.length < UInt64.size) :
    NumbersSpell numbers (writeNumbers numbers) := by
  refine ⟨numbers.map writeUInt64, ?_, ?_⟩
  · rw [List.forall₂_map_right_iff]
    exact List.forall₂_same.2 fun number _ => spells_writeUInt64 number
  · have counted : Head.Spells Container.array.major (numbers.map writeUInt64).length
        (Head.shortest 4 numbers.length) := by
      rw [List.length_map]
      exact Head.spells_shortest short
    rw [writeNumbers, List.flatMap_def]
    exact .counted counted

theorem spells_write {wire : Wire} (short : wire.ex.length < UInt64.size) :
    wire.Spells wire.write := by
  let items := [Field.v.write ++ writeUInt64 wire.v, Field.ex.write ++ writeNumbers wire.ex,
    Field.rp.write ++ writeUInt64 wire.rp, Field.wp.write ++ writeUInt64 wire.wp]
  have same : wire.write = Head.shortest 5 4 ++ items.flatten := by
    simp [write, items]
  have four : Head.Spells Container.map.major items.length (Head.shortest 5 4) :=
    Head.spells_shortest (by decide : 4 < UInt64.size)
  have numbers := numbersSpell_writeNumbers short
  refine ⟨wire.entries, items, .refl _, ?_, same ▸ .counted four⟩
  exact .cons ⟨_, _, Field.v.spells_write, spells_writeUInt64 _, rfl⟩
    (.cons ⟨_, _, Field.ex.spells_write, numbers, rfl⟩
      (.cons ⟨_, _, Field.rp.spells_write, spells_writeUInt64 _, rfl⟩
        (.cons ⟨_, _, Field.wp.spells_write, spells_writeUInt64 _, rfl⟩ .nil)))

end Wire

end SnapshotTable
