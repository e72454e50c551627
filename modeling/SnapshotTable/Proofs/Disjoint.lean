import Mathlib.Data.List.Infix
import SnapshotTable.Proofs.Interleaving
import SnapshotTable.Proofs.Locality

/-!
Two tables on one store whose writes reach different rows. However their calls are interleaved, each
of them gets the answers, and its log the images, that it would have got if all calls of the first
table had been made before all calls of the second one; and the store ends with the same cells.
-/

namespace SnapshotTable

set_option autoImplicit false

namespace Turn

def call : Turn → TableCall
  | first call | second call => call

def isFirst : Turn → Bool
  | first _ => true
  | second _ => false

end Turn

structure Answer where
  turn : Turn
  result : Except TableError turn.call.Reply
  table : Table

/-- The items of one table ahead of those of the other one, each in their own order. -/
def separated {α : Type} (isFirst : α → Bool) (items : List α) : List α :=
  items.filter isFirst ++ items.filter (!isFirst ·)

namespace Sharing

def table (shared : Sharing) (first : Bool) : Table := if first then shared.first else shared.second

def answer (shared : Sharing) (turn : Turn) : Answer :=
  let (result, table, _) := (shared.table turn.isFirst).perform shared.store turn.call
  ⟨turn, result, table⟩

def answers (shared : Sharing) : List Turn → List Answer
  | [] => []
  | turn :: rest => shared.answer turn :: answers (turn.run shared) rest

theorem answers_append (shared : Sharing) (before after : List Turn) :
    shared.answers (before ++ after) = shared.answers before ++ (shared.run before).answers after := by
  induction before generalizing shared with
  | nil => rfl
  | cons turn rest ih => exact congrArg (shared.answer turn :: ·) (ih (turn.run shared))

variable {shared alone : Sharing}

theorem store_run (shared : Sharing) (turn : Turn) : (turn.run shared).store =
    ((shared.table turn.isFirst).perform shared.store turn.call).2.2 := by
  cases turn <;> rfl

theorem table_run_self (shared : Sharing) (turn : Turn) :
    (turn.run shared).table turn.isFirst =
      ((shared.table turn.isFirst).perform shared.store turn.call).2.1 := by
  cases turn <;> rfl

theorem table_run_other (shared : Sharing) (turn : Turn) {side : Bool}
    (other : turn.isFirst ≠ side) : (turn.run shared).table side = shared.table side := by
  cases turn <;> cases side <;> first | rfl | exact absurd rfl other

/-- Alongside the run of both tables the calls of one of them alone: the table is the same, the stores
agree in the rows that are its own, and elsewhere the second store is as it was. -/
structure Alongside (side : Bool) (rows : Bytes → Prop) (start : MemoryStore)
    (shared alone : Sharing) : Prop where
  wellFormed : ∀ side, (shared.table side).WellFormed
  unbuffered : shared.store.Unbuffered
  unbuffered' : alone.store.Unbuffered
  table : shared.table side = alone.table side
  inside : shared.store.AgreeIn rows alone.store
  outside : alone.store.AgreeIn (¬rows ·) start

namespace Alongside

variable {side : Bool} {rows : Bytes → Prop} {start : MemoryStore} {turn : Turn}

theorem wellFormed_turn (along : shared.Alongside side rows start alone) (turn : Turn)
    (side' : Bool) : ((turn.run shared).table side').WellFormed := by
  by_cases own : turn.isFirst = side'
  · rw [← own, table_run_self]
    exact (along.wellFormed _).perform _ _
  · rw [table_run_other _ _ own]
    exact along.wellFormed side'

theorem own_turn (along : shared.Alongside side rows start alone) (own : turn.isFirst = side)
    (writing : turn.call.isWriting)
    (before : ∀ row ∈ (shared.table side).changedRows, rows row)
    (after : ∀ row ∈ ((turn.run shared).table side).changedRows, rows row) :
    shared.answer turn = alone.answer turn ∧
      (turn.run shared).Alongside side rows start (turn.run alone) := by
  subst own
  have wellFormed := along.wellFormed turn.isFirst
  rw [table_run_self] at after
  obtain ⟨result, next⟩ := Table.writing_congr wellFormed writing (along.inside.imp after)
  have undergoes := Table.writing_undergoes wellFormed writing along.unbuffered
  have undergoes' := Table.writing_undergoes wellFormed writing along.unbuffered'
  have stays : ∀ place, (shared.table turn.isFirst).sent turn.call place ≠ none →
      ¬¬rows place.row :=
    fun place touched other => other (before _ (Table.row_of_sent wellFormed touched))
  refine ⟨?_, along.wellFormed_turn turn, ?_, ?_, ?_, ?_, ?_⟩
  · simp only [answer, ← along.table, result, next]
  · rw [store_run]
    exact undergoes.unbuffered
  · rw [store_run, ← along.table]
    exact undergoes'.unbuffered
  · rw [table_run_self, table_run_self, ← along.table, next]
  · rw [store_run, store_run, ← along.table]
    exact undergoes.agree undergoes' along.inside
  · rw [store_run, ← along.table]
    exact (undergoes'.agree_outside stays).trans along.outside

theorem other_turn (along : shared.Alongside side rows start alone) (other : turn.isFirst ≠ side)
    (writing : turn.call.isWriting)
    (before : ∀ row ∈ (shared.table turn.isFirst).changedRows, ¬rows row) :
    (turn.run shared).Alongside side rows start alone := by
  have wellFormed := along.wellFormed turn.isFirst
  have undergoes := Table.writing_undergoes wellFormed writing along.unbuffered
  have apart : (turn.run shared).store.AgreeIn rows shared.store := by
    rw [store_run]
    exact undergoes.agree_outside fun place touched => before _ (Table.row_of_sent wellFormed touched)
  refine ⟨along.wellFormed_turn turn, ?_, along.unbuffered', ?_, apart.trans along.inside,
    along.outside⟩
  · rw [store_run]
    exact undergoes.unbuffered
  · rw [table_run_other _ _ other]
    exact along.table

theorem run (along : shared.Alongside side rows start alone) {turns : List Turn}
    (writing : ∀ turn ∈ turns, turn.call.isWriting)
    (own : ∀ before, before <+: turns →
      ∀ row ∈ ((shared.run before).table side).changedRows, rows row)
    (others : ∀ before, before <+: turns →
      ∀ row ∈ ((shared.run before).table !side).changedRows, ¬rows row) :
    (shared.answers turns).filter (·.turn.isFirst == side) =
        alone.answers (turns.filter (·.isFirst == side)) ∧
      (shared.run turns).Alongside side rows start
        (alone.run (turns.filter (·.isFirst == side))) := by
  -- The run of one table alone moves on in that table's turns and waits in the other one's.
  induction turns generalizing shared alone with
  | nil => exact ⟨rfl, along⟩
  | cons turn rest ih =>
    obtain ⟨here, later⟩ := List.forall_mem_cons.1 writing
    have laterOwn := fun before (ahead : before <+: rest) =>
      own (turn :: before) (List.cons_prefix_cons.2 ⟨rfl, ahead⟩)
    have laterOthers := fun before (ahead : before <+: rest) =>
      others (turn :: before) (List.cons_prefix_cons.2 ⟨rfl, ahead⟩)
    by_cases mine : turn.isFirst = side
    · obtain ⟨same, next⟩ := along.own_turn mine here (own [] List.nil_prefix)
        (laterOwn [] List.nil_prefix)
      obtain ⟨answers, final⟩ := ih next later laterOwn laterOthers
      have kept : (turn :: rest).filter (·.isFirst == side) =
          turn :: rest.filter (·.isFirst == side) := List.filter_cons_of_pos (by simpa using mine)
      have listed : (shared.answers (turn :: rest)).filter (·.turn.isFirst == side) =
          shared.answer turn :: ((turn.run shared).answers rest).filter (·.turn.isFirst == side) :=
        List.filter_cons_of_pos (by simpa [answer] using mine)
      rw [kept, listed, answers, same]
      exact ⟨rfl, final⟩
    · have turned : turn.isFirst = !side := Bool.eq_not.2 mine
      have next := along.other_turn mine here (turned ▸ others [] List.nil_prefix)
      obtain ⟨answers, final⟩ := ih next later laterOwn laterOthers
      have kept : (turn :: rest).filter (·.isFirst == side) = rest.filter (·.isFirst == side) :=
        List.filter_cons_of_neg (by simpa using mine)
      have listed : (shared.answers (turn :: rest)).filter (·.turn.isFirst == side) =
          ((turn.run shared).answers rest).filter (·.turn.isFirst == side) :=
        List.filter_cons_of_neg (by simpa [answer] using mine)
      rw [kept, listed]
      exact ⟨answers, final⟩

end Alongside

theorem table_run_of_others {side : Bool} {turns : List Turn}
    (others : ∀ turn ∈ turns, turn.isFirst ≠ side) (shared : Sharing) :
    (shared.run turns).table side = shared.table side := by
  induction turns generalizing shared with
  | nil => rfl
  | cons turn rest ih =>
    obtain ⟨other, later⟩ := List.forall_mem_cons.1 others
    exact (ih later (turn.run shared)).trans (table_run_other shared turn other)

/-- The rows that the first table's writes reach are none of those that the second one's reach, at
any two moments of the run. Then every call is answered as if all of the first table's had come
before all of the second one's, both tables become the same at every step, images included, and the
store ends with the same cells. -/
theorem disjoint_rows_do_not_interact {shared : Sharing} {turns : List Turn}
    (first : Table.Reached MemoryStore shared.first)
    (second : Table.Reached MemoryStore shared.second) (unbuffered : shared.store.Unbuffered)
    (writing : ∀ turn ∈ turns, turn.call.isWriting)
    (disjoint : ∀ before other, before <+: turns → other <+: turns →
      ∀ row ∈ (shared.run before).first.changedRows,
        row ∉ (shared.run other).second.changedRows) :
    let ordered := separated Turn.isFirst turns
    shared.answers ordered = separated (·.turn.isFirst) (shared.answers turns) ∧
      (shared.run ordered).first = (shared.run turns).first ∧
        (shared.run ordered).second = (shared.run turns).second ∧
          (shared.run ordered).store.contents = (shared.run turns).store.contents := by
  intro ordered
  let rows (row : Bytes) : Prop :=
    ∃ before, before <+: turns ∧ row ∈ (shared.run before).first.changedRows
  have own : ∀ before, before <+: turns →
      ∀ row ∈ (shared.run before).first.changedRows, rows row :=
    fun before ahead row mem => ⟨before, ahead, mem⟩
  have others : ∀ before, before <+: turns →
      ∀ row ∈ (shared.run before).second.changedRows, ¬rows row := by
    rintro before ahead row mem ⟨other, ahead', mem'⟩
    exact disjoint other before ahead' ahead row mem' mem
  have wellFormed : ∀ side, (shared.table side).WellFormed := by
    intro side
    cases side with
    | true => exact first.wellFormed
    | false => exact second.wellFormed
  -- The second table owns all rows but the first one's, so the two halves cover every place.
  have start : shared.Alongside true rows shared.store shared :=
    ⟨wellFormed, unbuffered, unbuffered, rfl, .refl _ _, .refl _ _⟩
  obtain ⟨firstAnswers, firstEnded⟩ := start.run writing own others
  let middle := shared.run (turns.filter (·.isFirst == true))
  have untouched : shared.table false = middle.table false :=
    (table_run_of_others (by simp) shared).symm
  have start' : shared.Alongside false (¬rows ·) middle.store middle :=
    ⟨wellFormed, unbuffered, firstEnded.unbuffered', untouched, firstEnded.outside.symm, .refl _ _⟩
  obtain ⟨secondAnswers, secondEnded⟩ := start'.run writing others
    fun before ahead row mem other => other (own before ahead row mem)
  have order : ordered =
      turns.filter (·.isFirst == true) ++ turns.filter (·.isFirst == false) := by
    simp [ordered, separated]
  have ran : shared.run ordered = middle.run (turns.filter (·.isFirst == false)) := by
    rw [order]
    exact List.foldl_append ..
  have firstDone : (middle.run (turns.filter (·.isFirst == false))).table true =
      middle.table true := table_run_of_others (by simp) middle
  refine ⟨?_, ?_, ?_, ?_⟩
  · rw [order, answers_append, ← firstAnswers, ← secondAnswers]
    simp [separated]
  · rw [ran]
    exact firstDone.trans firstEnded.table.symm
  · rw [ran]
    exact secondEnded.table.symm
  · rw [ran]
    funext place
    by_cases here : rows place.row
    · have late := secondEnded.outside.contents place (fun other => other here)
      exact late.trans (firstEnded.inside.contents place here).symm
    · exact (secondEnded.inside.contents place here).symm

/-- Both tables delete and put, the second one commits while the first one still buffers, and the
first one is rolled back after its own commit. -/
theorem rows_apart_do_not_interact :
    let store := Sample.store [{ row := "a", version := 1, value := [1] },
      { row := "b", version := 1, value := [2] }]
    let tx := Transaction.new ⟨1⟩ ⟨2⟩ []
    let other := Transaction.new ⟨1⟩ ⟨3⟩ []
    let shared : Sharing := ⟨(({} : Table).bind tx).2, (({} : Table).bind other).2, store⟩
    let turns : List Turn := [.second (Sample.RowWrite.deleteRow "b").call,
      .first (Sample.RowWrite.put "a" "d" [3]).call, .second (Sample.RowWrite.put "b" "c" [4]).call,
      .second .commit, .first (Sample.RowWrite.deleteRow "a").call, .first .commit,
      .second (Sample.RowWrite.deleteRow "b").call, .first .rollback, .second .commit]
    let ordered := separated Turn.isFirst turns
    ordered ≠ turns ∧ (shared.run turns).second.log.length = 3 ∧
      shared.answers ordered = separated (·.turn.isFirst) (shared.answers turns) ∧
        (shared.run ordered).store.contents = (shared.run turns).store.contents := by
  intro store tx other shared turns ordered
  have first : Table.Reached MemoryStore shared.first := (Table.Reached.new {}).call store (.bind tx)
  have second : Table.Reached MemoryStore shared.second :=
    (Table.Reached.new {}).call store (.bind other)
  have unbuffered : store.Unbuffered := ⟨by decide +kernel, by decide +kernel⟩
  have apart : ∀ before ∈ turns.inits, ∀ after ∈ turns.inits,
      ∀ row ∈ (shared.run before).first.changedRows,
        row ∉ (shared.run after).second.changedRows := by decide +kernel
  have writing : ∀ turn ∈ turns, turn.call.isWriting := by decide
  obtain ⟨answers, _, _, contents⟩ := disjoint_rows_do_not_interact first second unbuffered writing
    fun before after ahead ahead' =>
      apart before ((List.mem_inits _ _).2 ahead) after ((List.mem_inits _ _).2 ahead')
  exact ⟨by decide, by decide +kernel, answers, contents⟩

end Sharing

end SnapshotTable
