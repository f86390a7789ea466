import Mathlib.Data.List.Basic
import Mathlib.Data.List.Induction
import Mathlib.Data.List.Nodup

/-!
# Keyed ledgers

A table holds at most one row for each key: a row is written over the first row with its key, or
appended if there is none. A ledger is the list of the rows that were written, and the table it
leaves holds the last row of every key.
-/

namespace EdgeMind.Framework

variable {Row Key : Type*} [DecidableEq Key] (key : Row → Key)

/-- Write a row in place of the first row with its key, or append it. -/
def upsert (row : Row) : List Row → List Row
  | [] => [row]
  | r :: table => if key r = key row then row :: table else r :: upsert row table

def replay (ledger : List Row) : List Row := ledger.foldl (fun table row => upsert key row table) []

theorem find?_upsert (row : Row) (table : List Row) (k : Key) :
    (upsert key row table).find? (fun r => key r = k) =
      if key row = k then some row else table.find? fun r => key r = k := by
  induction table with
  | nil => simp [upsert, List.find?_singleton]
  | cons r table ih =>
      unfold upsert
      by_cases hr : key r = key row
      · rw [if_pos hr]
        by_cases hk : key row = k <;> simp [hr, hk]
      · rw [if_neg hr, List.find?_cons, List.find?_cons, ih]
        by_cases hk : key row = k
        · simp [hk ▸ hr, hk]
        · simp [hk]

theorem mem_upsert (row : Row) (table : List Row) : row ∈ upsert key row table := by
  induction table with
  | nil => exact List.mem_singleton_self row
  | cons r table ih =>
      unfold upsert
      split
      · exact List.mem_cons_self
      · exact List.mem_cons_of_mem r ih

theorem eq_or_mem_of_mem_upsert {row r : Row} {table : List Row}
    (h : r ∈ upsert key row table) : r = row ∨ r ∈ table := by
  induction table with
  | nil => exact .inl (List.mem_singleton.mp h)
  | cons head table ih =>
      unfold upsert at h
      split at h
      · exact (List.mem_cons.mp h).imp_right (List.mem_cons_of_mem head)
      · rcases List.mem_cons.mp h with rfl | h
        · exact .inr List.mem_cons_self
        · exact (ih h).imp_right (List.mem_cons_of_mem head)

theorem exists_key_upsert (row : Row) {table : List Row} {r : Row} (h : r ∈ table) :
    ∃ r' ∈ upsert key row table, key r' = key r := by
  induction table with
  | nil => cases h
  | cons head table ih =>
      unfold upsert
      split
      · next hhead =>
          rcases List.mem_cons.mp h with rfl | h
          · exact ⟨row, List.mem_cons_self, hhead.symm⟩
          · exact ⟨r, List.mem_cons_of_mem row h, rfl⟩
      · rcases List.mem_cons.mp h with rfl | h
        · exact ⟨r, List.mem_cons_self, rfl⟩
        · obtain ⟨r', hr', hkey⟩ := ih h
          exact ⟨r', List.mem_cons_of_mem head hr', hkey⟩

theorem exists_key_upsert_iff (row : Row) (table : List Row) (k : Key) :
    (∃ r ∈ upsert key row table, key r = k) ↔ key row = k ∨ ∃ r ∈ table, key r = k := by
  constructor
  · rintro ⟨r, hr, rfl⟩
    rcases eq_or_mem_of_mem_upsert key hr with rfl | hr
    · exact .inl rfl
    · exact .inr ⟨r, hr, rfl⟩
  · rintro (rfl | ⟨r, hr, rfl⟩)
    · exact ⟨row, mem_upsert key row table, rfl⟩
    · exact exists_key_upsert key row hr

theorem mem_upsert_of_ne {row r : Row} {table : List Row} (h : r ∈ table)
    (hne : key r ≠ key row) : r ∈ upsert key row table := by
  induction table with
  | nil => cases h
  | cons head table ih =>
      unfold upsert
      split
      · next hhead =>
          rcases List.mem_cons.mp h with rfl | h
          · exact absurd hhead hne
          · exact List.mem_cons_of_mem row h
      · rcases List.mem_cons.mp h with rfl | h
        · exact List.mem_cons_self
        · exact List.mem_cons_of_mem head (ih h)

@[simp]
theorem replay_concat (ledger : List Row) (row : Row) :
    replay key (ledger ++ [row]) = upsert key row (replay key ledger) := by
  rw [replay, List.foldl_append]
  rfl

theorem find?_replay (ledger : List Row) (k : Key) :
    (replay key ledger).find? (fun r => key r = k) =
      ledger.reverse.find? fun r => key r = k := by
  induction ledger using List.reverseRecOn with
  | nil => rfl
  | append_singleton ledger row ih =>
      rw [replay_concat, find?_upsert, ih, List.reverse_append, List.reverse_singleton,
        List.singleton_append, List.find?_cons]
      by_cases hk : key row = k <;> simp [hk]

theorem find?_of_mem {table : List Row} (hkeys : (table.map key).Nodup) {r : Row} (h : r ∈ table) :
    table.find? (fun r' => key r' = key r) = some r := by
  induction table with
  | nil => cases h
  | cons head table ih =>
      rw [List.map_cons, List.nodup_cons] at hkeys
      rcases List.mem_cons.mp h with rfl | h
      · exact List.find?_cons_of_pos (by simp)
      · have hne : key head ≠ key r := fun heq => hkeys.1 (heq ▸ List.mem_map_of_mem h)
        rw [List.find?_cons_of_neg (by simpa using hne), ih hkeys.2 h]

theorem upsert_keys (row : Row) (table : List Row) :
    (upsert key row table).map key =
      if key row ∈ table.map key then table.map key else table.map key ++ [key row] := by
  induction table with
  | nil => rfl
  | cons head table ih =>
      unfold upsert
      by_cases hhead : key head = key row
      · rw [if_pos hhead, if_pos (by rw [List.map_cons, hhead]; exact List.mem_cons_self),
          List.map_cons, List.map_cons, hhead]
      · have hmem : key row ∈ (head :: table).map key ↔ key row ∈ table.map key := by
          rw [List.map_cons, List.mem_cons, or_iff_right fun heq => hhead heq.symm]
        rw [if_neg hhead, List.map_cons, ih]
        split
        · next h => rw [if_pos (hmem.mpr h), List.map_cons]
        · next h => rw [if_neg fun h' => h (hmem.mp h'), List.map_cons, List.cons_append]

theorem replay_keys [BEq Key] [LawfulBEq Key] (ledger : List Row) :
    (replay key ledger).map key = (ledger.map key).eraseDups := by
  induction ledger using List.reverseRecOn with
  | nil => rfl
  | append_singleton ledger row ih =>
      rw [replay_concat, upsert_keys, ih, List.map_append, List.map_singleton,
        List.eraseDups_append]
      split
      · next h =>
          rw [List.mem_eraseDups] at h
          rw [List.removeAll, List.filter_cons_of_neg (by simpa using h)]
          exact (List.append_nil _).symm
      · next h =>
          rw [List.mem_eraseDups] at h
          rw [List.removeAll, List.filter_cons_of_pos (by simpa using h)]
          rfl

theorem replay_keys_nodup (ledger : List Row) : ((replay key ledger).map key).Nodup := by
  induction ledger using List.reverseRecOn with
  | nil => exact List.nodup_nil
  | append_singleton ledger row ih =>
      rw [replay_concat, upsert_keys]
      split
      · exact ih
      · next h =>
          rw [← List.concat_eq_append]
          exact List.Nodup.concat h ih

theorem find?_of_mem_replay {ledger : List Row} {r : Row} (h : r ∈ replay key ledger) :
    ledger.reverse.find? (fun r' => key r' = key r) = some r := by
  rw [← find?_replay]
  exact find?_of_mem key (replay_keys_nodup key ledger) h

theorem exists_key_replay {ledger : List Row} {r : Row} (h : r ∈ ledger) :
    ∃ r' ∈ replay key ledger, key r' = key r := by
  induction ledger using List.reverseRecOn with
  | nil => cases h
  | append_singleton ledger row ih =>
      rw [replay_concat]
      rcases List.mem_append.mp h with h | h
      · obtain ⟨r', hr', hkey⟩ := ih h
        obtain ⟨r'', hr'', hkey'⟩ := exists_key_upsert key row hr'
        exact ⟨r'', hr'', hkey'.trans hkey⟩
      · rw [List.mem_singleton.mp h]
        exact ⟨row, mem_upsert key row _, rfl⟩

theorem replay_uniform {ledger : List Row} {k : Key} (h : ∀ r ∈ ledger, key r = k) :
    replay key ledger = ledger.getLast?.toList := by
  induction ledger using List.reverseRecOn with
  | nil => rfl
  | append_singleton ledger row ih =>
      have hrow : key row = k := h row (List.mem_append_right ledger (List.mem_singleton_self row))
      rw [replay_concat, ih fun r hr => h r (List.mem_append_left [row] hr), List.getLast?_concat]
      cases hlast : ledger.getLast? with
      | none => rfl
      | some r =>
          have hr : key r = k := h r (List.mem_append_left [row] (List.mem_of_getLast? hlast))
          exact if_pos (hr.trans hrow.symm)

theorem replay_eq_singleton_iff (ledger : List Row) (row : Row) :
    replay key ledger = [row] ↔
      ledger.getLast? = some row ∧ ∀ r ∈ ledger, key r = key row := by
  constructor
  · intro h
    have hkeys : ∀ r ∈ ledger, key r = key row := by
      intro r hr
      obtain ⟨r', hr', hkey⟩ := exists_key_replay key hr
      rw [h, List.mem_singleton] at hr'
      rw [← hkey, hr']
    rw [replay_uniform key hkeys] at h
    exact ⟨Option.toList_eq_singleton_iff.mp h, hkeys⟩
  · intro h
    obtain ⟨hlast, hkeys⟩ := h
    rw [replay_uniform key hkeys, hlast]
    rfl

end EdgeMind.Framework
