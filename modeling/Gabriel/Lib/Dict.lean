import Mathlib.Data.List.Nodup

/-!
# Insertion-ordered dictionaries

A finite map kept as the list of its entries in the order in which their keys were first inserted, without two
entries for one key.  Storing under an existing key replaces the value in place, as a Python `dict` does.
-/

/-- A dictionary: entries in insertion order, no key twice. -/
structure Dict (κ ν : Type) where
  entries : List (κ × ν)
  nodup : (entries.map Prod.fst).Nodup

namespace Dict

variable {κ ν : Type}

/-- The empty dictionary. -/
def empty : Dict κ ν := ⟨[], List.nodup_nil⟩

/-- The keys in insertion order. -/
def keys (d : Dict κ ν) : List κ := d.entries.map Prod.fst

/-- The number of entries. -/
def size (d : Dict κ ν) : Nat := d.entries.length

variable [DecidableEq κ]

/-- `d.get(k)`. -/
def get? (d : Dict κ ν) (k : κ) : Option ν := (d.entries.find? fun e => e.1 = k).map Prod.snd

private def replaceAt (k : κ) (v : ν) (e : κ × ν) : κ × ν := if e.1 = k then (k, v) else e

private theorem map_fst_replaceAt (k : κ) (v : ν) (l : List (κ × ν)) :
    (l.map (replaceAt k v)).map Prod.fst = l.map Prod.fst := by
  rw [List.map_map]
  apply List.map_congr_left
  intro e _
  simp only [Function.comp_apply, replaceAt]
  split
  · rename_i h; exact h.symm
  · rfl

/-- `d[k] = v`: in place if `k` is a key, else at the end. -/
def set (d : Dict κ ν) (k : κ) (v : ν) : Dict κ ν :=
  if h : k ∈ d.keys then ⟨d.entries.map (replaceAt k v), by rw [map_fst_replaceAt]; exact d.nodup⟩
  else ⟨d.entries ++ [(k, v)], by
    rw [List.map_append, List.nodup_append]
    refine ⟨d.nodup, by simp, ?_⟩
    intro a ha b hb hab
    simp only [List.map_cons, List.map_nil, List.mem_singleton] at hb
    exact h (hb ▸ hab ▸ ha)⟩

/-- `del d[k]` (without the error for a missing key). -/
def erase (d : Dict κ ν) (k : κ) : Dict κ ν :=
  ⟨d.entries.filter fun e => e.1 ≠ k, d.nodup.sublist (List.filter_sublist.map _)⟩

@[simp] theorem get?_empty (k : κ) : (empty : Dict κ ν).get? k = none := rfl

theorem get?_eq_none_iff {d : Dict κ ν} {k : κ} : d.get? k = none ↔ k ∉ d.keys := by
  simp only [get?, Option.map_eq_none_iff, List.find?_eq_none, decide_eq_true_eq, keys, List.mem_map, not_exists,
    not_and]

theorem mem_keys_iff {d : Dict κ ν} {k : κ} : k ∈ d.keys ↔ ∃ v, d.get? k = some v := by
  rw [← Option.isSome_iff_exists, Option.isSome_iff_ne_none, ne_eq, get?_eq_none_iff, not_not]

private theorem find?_map_replaceAt_self (k : κ) (v : ν) (l : List (κ × ν)) (h : k ∈ l.map Prod.fst) :
    (l.map (replaceAt k v)).find? (fun e => e.1 = k) = some (k, v) := by
  induction l with
  | nil => simp at h
  | cons e l ih =>
    simp only [List.map_cons, replaceAt]
    by_cases he : e.1 = k
    · simp [he]
    · simp only [he, ↓reduceIte, List.find?_cons, decide_false]
      apply ih
      simp only [List.map_cons, List.mem_cons] at h
      rcases h with h | h
      · exact absurd h.symm he
      · exact h

private theorem find?_map_replaceAt_ne {k j : κ} (v : ν) (hj : j ≠ k) (l : List (κ × ν)) :
    (l.map (replaceAt k v)).find? (fun e => e.1 = j) = l.find? (fun e => e.1 = j) := by
  induction l with
  | nil => rfl
  | cons e l ih =>
    simp only [List.map_cons, replaceAt, List.find?_cons]
    by_cases he : e.1 = k
    · simp only [he, ↓reduceIte, Ne.symm hj, decide_false]
      exact ih
    · simp only [he, ↓reduceIte]
      split
      · rfl
      · exact ih

@[simp] theorem get?_set_self (d : Dict κ ν) (k : κ) (v : ν) : (d.set k v).get? k = some v := by
  unfold set
  split
  · rename_i h
    simp only [get?, find?_map_replaceAt_self k v d.entries h, Option.map_some]
  · rename_i h
    have hn : d.entries.find? (fun e => e.1 = k) = none := by
      rw [← get?_eq_none_iff] at h
      simpa only [get?, Option.map_eq_none_iff] using h
    simp only [get?, List.find?_append, hn, Option.none_or]
    simp

theorem get?_set_ne (d : Dict κ ν) {k j : κ} (v : ν) (hj : j ≠ k) : (d.set k v).get? j = d.get? j := by
  unfold set
  split
  · simp only [get?, find?_map_replaceAt_ne v hj]
  · simp only [get?, List.find?_append]
    simp [Ne.symm hj]

theorem get?_set (d : Dict κ ν) (k j : κ) (v : ν) : (d.set k v).get? j = if j = k then some v else d.get? j := by
  by_cases h : j = k
  · subst h; simp
  · simp [h, get?_set_ne]

@[simp] theorem get?_erase_self (d : Dict κ ν) (k : κ) : (d.erase k).get? k = none := by
  rw [get?_eq_none_iff]
  simp [keys, erase]

theorem get?_erase_ne (d : Dict κ ν) {k j : κ} (hj : j ≠ k) : (d.erase k).get? j = d.get? j := by
  simp only [get?, erase, List.find?_filter]
  congr 2
  funext e
  by_cases he : e.1 = j
  · simp [he, hj]
  · simp [he]

theorem get?_erase (d : Dict κ ν) (k j : κ) : (d.erase k).get? j = if j = k then none else d.get? j := by
  by_cases h : j = k
  · subst h; simp
  · simp [h, get?_erase_ne]

end Dict
