/-!
Lists of entries with distinct keys, in the order in which the keys were first put. Putting an
entry replaces the one with its key where it stands, or else appends; erasing a key removes its one
entry. `toList` is the view, with `toList_put` and `toList_erase` for the operations and `keys_put`
for the order.
-/

namespace MeshControl

variable {α κ : Type} [DecidableEq κ]

/-- Replaces the first entry with the key of a new one, or appends the new one. -/
def replaceOrAppend (key : α → κ) (entry : α) : List α → List α
  | [] => [entry]
  | old :: rest =>
    if key old = key entry then entry :: rest else old :: replaceOrAppend key entry rest

/-- Replacing keeps the keys as they are, and appending adds the new key behind them. -/
theorem map_replaceOrAppend (key : α → κ) (entry : α) (entries : List α) :
    (replaceOrAppend key entry entries).map key =
      if key entry ∈ entries.map key then entries.map key
      else entries.map key ++ [key entry] := by
  induction entries with
  | nil => rfl
  | cons old rest ih =>
    by_cases h : key old = key entry
    · simp [replaceOrAppend, h]
    · simp only [replaceOrAppend, h, if_false, List.map_cons, ih, List.mem_cons]
      have h' : ¬ key entry = key old := fun e => h e.symm
      by_cases hm : key entry ∈ rest.map key
      · simp [hm]
      · simp [hm, h']

/-- Entries with distinct keys in a fixed order. -/
structure KeyedList (key : α → κ) where
  toList : List α
  nodup_keys : (toList.map key).Nodup

namespace KeyedList

variable {key : α → κ}

def empty : KeyedList key := ⟨[], List.nodup_nil⟩

def keys (entries : KeyedList key) : List κ := entries.toList.map key

def get? (entries : KeyedList key) (k : κ) : Option α :=
  entries.toList.find? (key · = k)

/-- Puts an entry under its key, in the place of the entry that had the key before. -/
def put (entries : KeyedList key) (entry : α) : KeyedList key where
  toList := replaceOrAppend key entry entries.toList
  nodup_keys := by
    rw [map_replaceOrAppend]
    split
    · exact entries.nodup_keys
    · rename_i h
      rw [List.nodup_append]
      refine ⟨entries.nodup_keys, by simp, ?_⟩
      intro a ha b hb
      simp only [List.mem_singleton] at hb
      subst hb
      exact fun e => h (e ▸ ha)

def erase (entries : KeyedList key) (k : κ) : KeyedList key where
  toList := entries.toList.filter (key · ≠ k)
  nodup_keys :=
    (List.filter_sublist.map key).nodup entries.nodup_keys

def contains (entries : KeyedList key) (k : κ) : Bool :=
  entries.toList.any (key · = k)

omit [DecidableEq κ] in
@[simp] theorem toList_empty : (empty : KeyedList key).toList = [] := rfl

@[simp] theorem toList_put (entries : KeyedList key) (entry : α) :
    (entries.put entry).toList = replaceOrAppend key entry entries.toList := rfl

@[simp] theorem toList_erase (entries : KeyedList key) (k : κ) :
    (entries.erase k).toList = entries.toList.filter (key · ≠ k) := rfl

/-- A new key goes behind the others, and a known key keeps its place. -/
theorem keys_put (entries : KeyedList key) (entry : α) :
    (entries.put entry).keys =
      if key entry ∈ entries.keys then entries.keys else entries.keys ++ [key entry] :=
  map_replaceOrAppend key entry entries.toList

theorem contains_iff_mem_keys (entries : KeyedList key) (k : κ) :
    entries.contains k = true ↔ k ∈ entries.keys := by
  simp [contains, keys]

end KeyedList

end MeshControl
