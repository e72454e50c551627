import SnapshotTable.Table.Basic

/-!
What is bound to a table, as seen from its state, its log, and the ways in which either can change.
-/

namespace SnapshotTable.Table

set_option autoImplicit false

variable {table : Table} {tx : Transaction} {log : PendingLog}

theorem state_eq_unbound_iff (table : Table) : table.state = .unbound ↔ table.binding = none := by
  rw [state]
  split
  · rename_i none
    exact ⟨fun _ => none, fun _ => rfl⟩
  · rename_i binding some
    rw [some]
    split <;> simp

theorem bound_of_unbound (unbound : table.binding = none) : table.bound = .error .notBound := by
  rw [bound, unbound]

theorem bound_eq_ok (bound : table.binding = some ⟨tx, log⟩) : table.bound = .ok tx := by
  simp [Table.bound, bound]

theorem made_of_bound {α ρ : Type} (bound : table.binding = some ⟨tx, log⟩)
    (make : Transaction → α → Except CodecError ρ) (request : α) :
    table.made make request = (make tx request).mapError .codec := by
  rw [made, bound_eq_ok bound]

theorem log_of_unbound (unbound : table.binding = none) : table.log = [] := by
  rw [Table.log, unbound]
  rfl

theorem log_of_bound (bound : table.binding = some ⟨tx, log⟩) : table.log = log := by
  rw [Table.log, bound]
  rfl

theorem extendLog_nil (table : Table) : table.extendLog [] = table := by
  obtain ⟨config, binding⟩ := table
  cases binding <;> simp [extendLog]

theorem extendLog_bound (bound : table.binding = some ⟨tx, log⟩) (entries : List PendingEntry) :
    (table.extendLog entries).binding = some ⟨tx, log ++ entries⟩ := by
  simp [extendLog, bound]

theorem bound_extendLog (table : Table) (entries : List PendingEntry) :
    (table.extendLog entries).bound = table.bound := by
  obtain ⟨config, binding⟩ := table
  cases binding <;> rfl

theorem extendLog_append (table : Table) (entries others : List PendingEntry) :
    (table.extendLog entries).extendLog others = table.extendLog (entries ++ others) := by
  obtain ⟨config, binding⟩ := table
  cases binding <;> simp [extendLog]

theorem bind_of_unbound (unbound : table.binding = none) (valid : tx.validate = .ok ()) :
    table.bind tx = (.ok (), { table with binding := some { tx := tx } }) := by
  rw [bind, unbound]
  simp only [valid]

theorem bind_of_bound (bound : table.transaction? = some tx) (other : Transaction) :
    table.bind other = (.error (.alreadyBound tx.writePointer), table) := by
  obtain ⟨binding, same, rfl⟩ := Option.map_eq_some_iff.1 bound
  rw [bind, same]

theorem bind_cases (table : Table) (tx : Transaction) : (table.bind tx).2 = table ∨
    (tx.validate = .ok () ∧ (table.bind tx).2.binding = some ⟨tx, []⟩) := by
  rw [bind]
  split
  · exact .inl rfl
  · split
    · exact .inl rfl
    · rename_i valid
      exact .inr ⟨valid, rfl⟩

theorem bind_ok {table bound : Table} {tx : Transaction}
    (binds : table.bind tx = (.ok (), bound)) :
    table.binding = none ∧ tx.validate = .ok () ∧
      bound = { table with binding := some { tx := tx } } := by
  unfold bind at binds
  split at binds
  · cases binds
  · rename_i unbound
    split at binds
    · cases binds
    · rename_i valid
      cases binds
      exact ⟨unbound, valid, rfl⟩

end SnapshotTable.Table
