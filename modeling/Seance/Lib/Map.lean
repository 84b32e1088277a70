import Mathlib.Data.List.Induction
import Seance.Lib.Table

namespace Seance.Lib

/-- A map as the table of its pairs. -/
abbrev Map (κ ν : Type) := Table (Prod.fst : κ × ν → κ)

namespace Map

variable {κ ν : Type}

def keys (m : Map κ ν) : List κ := m.rows.map Prod.fst

def values (m : Map κ ν) : List ν := m.rows.map Prod.snd

variable [DecidableEq κ]

def get (m : Map κ ν) (k : κ) : Option ν := (m.find? k).map Prod.snd

def insert (m : Map κ ν) (k : κ) (v : ν) : Map κ ν := m.put (k, v)

def remove (m : Map κ ν) (k : κ) : Map κ ν := m.delete (fun pair => pair.1 = k)

variable {m : Map κ ν} {k : κ} {v : ν}

@[simp] theorem get_empty (k : κ) : get (Table.empty : Map κ ν) k = none := rfl

theorem get_insert (m : Map κ ν) (k : κ) (v : ν) (q : κ) :
    (m.insert k v).get q = if q = k then some v else m.get q := by
  unfold get insert
  rw [Table.find?_put]
  split
  · rfl
  · rfl

theorem get_remove (m : Map κ ν) (k : κ) (q : κ) :
    (m.remove k).get q = if q = k then none else m.get q := by
  unfold get remove
  rw [Table.find?_delete]
  cases h : m.find? q with
  | none => simp
  | some pair =>
    obtain ⟨key, v⟩ := pair
    have hkey : key = q := Table.find?_key h
    by_cases hq : q = k
    · simp [hq, hkey]
    · simp [hq, hkey]

theorem mem_rows {pair : κ × ν} : pair ∈ m.rows ↔ m.get pair.1 = some pair.2 := by
  rw [Table.mem_iff_find?, get, Option.map_eq_some_iff]
  constructor
  · exact fun h => ⟨pair, h, rfl⟩
  · rintro ⟨found, h, hv⟩
    rw [h, ← Prod.ext (Table.find?_key h) hv]

theorem mem_keys : k ∈ m.keys ↔ (m.get k).isSome := by
  unfold keys
  rw [List.mem_map]
  constructor
  · rintro ⟨pair, hpair, rfl⟩
    rw [mem_rows.mp hpair]
    rfl
  · intro h
    obtain ⟨v, hv⟩ := Option.isSome_iff_exists.mp h
    exact ⟨(k, v), mem_rows.mpr hv, rfl⟩

end Map

end Seance.Lib

namespace Seance.Lib.Map

variable {α κ β : Type} [DecidableEq κ]

/-- `map.entry(k).or_default().push(b)` -/
def push (m : Map κ (List β)) (k : κ) (b : β) : Map κ (List β) :=
  m.insert k ((m.get k).getD [] ++ [b])

/-- The values of the items with a key. -/
def valuesOf (key : α → κ) (value : α → β) (l : List α) (k : κ) : List β :=
  (l.filter fun a => key a = k).map value

/-- Items pushed under their keys stand under them in their order. -/
theorem get_push_all (key : α → κ) (value : α → β) (l : List α) (k : κ) :
    (l.foldl (fun m a => push m (key a) (value a)) (Table.empty : Map κ (List β))).get k =
      if valuesOf key value l k = [] then none else some (valuesOf key value l k) := by
  induction l using List.reverseRecOn with
  | nil => rfl
  | append_singleton l a ih =>
    have hvalues : valuesOf key value (l ++ [a]) k =
        valuesOf key value l k ++ if key a = k then [value a] else [] := by
      unfold valuesOf
      rw [List.filter_append, List.map_append]
      by_cases hkey : key a = k
      · have hone : [a].filter (fun a => decide (key a = k)) = [a] :=
          List.filter_cons_of_pos (decide_eq_true hkey)
        rw [if_pos hkey, hone, List.map_singleton]
      · have hnone : [a].filter (fun a => decide (key a = k)) = [] :=
          List.filter_cons_of_neg fun h => hkey (of_decide_eq_true h)
        rw [if_neg hkey, hnone, List.map_nil]
    rw [List.foldl_append, List.foldl_cons, List.foldl_nil, push, get_insert, hvalues]
    by_cases hkey : key a = k
    · rw [if_pos hkey.symm, if_pos hkey, hkey, ih]
      split
      · rename_i hnil
        rw [hnil]
        rfl
      · rw [if_neg (by simp)]
        rfl
    · rw [if_neg (Ne.symm hkey), if_neg hkey, List.append_nil, ih]

end Seance.Lib.Map
