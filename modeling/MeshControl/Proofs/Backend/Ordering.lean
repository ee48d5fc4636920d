import Mathlib.Data.List.Nodup
import Mathlib.Logic.Function.Basic
import MeshControl.Backend.Memory
import MeshControl.Proofs.Backend.Recorded

/-!
A backend in memory keeps what is published in the order in which it was first added. The reference
is a map from keys to values that remembers the order of its keys (`OrderedMap`). It adds to the end
of that order and erases from the middle, and a value is replaced by updating the map, so that there
is no list of entries to search. A `KeyedList` stands for such a map (`KeyedList.Represents`), and
putting and erasing entries stand for the insertions and erasures of the map. Hence a backend that
is brought through any history of changes holds the entries of two maps, each of which has seen
nothing but its own part of the history (`MemoryBackend.entries_eq_orderedMap`).
-/

namespace MeshControl

/-- A map whose keys stand in the order in which they were added. -/
structure OrderedMap (κ α : Type) where
  keys : List κ := []
  value : κ → Option α := fun _ => none

/-- A change of a map. -/
inductive MapEdit (κ α : Type) where
  | insert (key : κ) (entry : α)
  | erase (key : κ)

namespace OrderedMap

variable {κ α : Type} [DecidableEq κ]

def entries (map : OrderedMap κ α) : List α := map.keys.filterMap map.value

/-- A new key is the last one, and a known key stays where it is. -/
def insert (map : OrderedMap κ α) (key : κ) (entry : α) : OrderedMap κ α where
  keys := if key ∈ map.keys then map.keys else map.keys ++ [key]
  value := Function.update map.value key (some entry)

def erase (map : OrderedMap κ α) (key : κ) : OrderedMap κ α where
  keys := map.keys.erase key
  value := Function.update map.value key none

/-- Makes a change, and answers whether there was the key that is to be erased. -/
def edit (map : OrderedMap κ α) : MapEdit κ α → Status × OrderedMap κ α
  | .insert key entry => (.noError, map.insert key entry)
  | .erase key => if key ∈ map.keys then (.noError, map.erase key) else (.noSuchKey, map)

/-- The map that a history of changes makes of an empty one. -/
def ofEdits (edits : List (MapEdit κ α)) : OrderedMap κ α :=
  edits.foldl (fun map edit => (map.edit edit).2) {}

end OrderedMap

namespace KeyedList

variable {α κ : Type} [DecidableEq κ] {key : α → κ}

theorem find?_key_eq {entries : List α} (hnodup : (entries.map key).Nodup) {entry : α}
    (hmem : entry ∈ entries) : entries.find? (key · = key entry) = some entry := by
  induction entries with
  | nil => cases hmem
  | cons first rest ih =>
    rw [List.map_cons, List.nodup_cons] at hnodup
    rcases List.mem_cons.mp hmem with rfl | hrest
    · simp
    · have hne : key first ≠ key entry := fun heq =>
        hnodup.1 (heq ▸ List.mem_map_of_mem hrest)
      rw [List.find?_cons_of_neg (by simpa using hne)]
      exact ih hnodup.2 hrest

/-- The entries are the values under the keys, in the order of the keys. -/
theorem filterMap_get?_keys (list : KeyedList key) :
    list.keys.filterMap list.get? = list.toList := by
  have hvalues : ∀ entry ∈ list.toList, (list.get? ∘ key) entry = some entry := fun _ hmem =>
    find?_key_eq list.nodup_keys hmem
  unfold keys
  rw [List.filterMap_map, List.filterMap_congr hvalues, List.filterMap_some]

theorem find?_replaceOrAppend (entry : α) (entries : List α) (k : κ) :
    (replaceOrAppend key entry entries).find? (key · = k) =
      if k = key entry then some entry else entries.find? (key · = k) := by
  induction entries with
  | nil => by_cases h : k = key entry <;> simp [replaceOrAppend, h, eq_comm]
  | cons old rest ih =>
    unfold replaceOrAppend
    by_cases hold : key old = key entry
    · by_cases h : k = key entry <;> simp [hold, h, eq_comm]
    · rw [if_neg hold]
      by_cases hk : key old = k
      · subst hk
        simp [hold]
      · rw [List.find?_cons_of_neg (by simpa using hk), ih,
          List.find?_cons_of_neg (by simpa using hk)]

theorem get?_put (list : KeyedList key) (entry : α) :
    (list.put entry).get? = Function.update list.get? (key entry) (some entry) := by
  funext k
  rw [Function.update_apply]
  exact find?_replaceOrAppend entry list.toList k

theorem get?_erase (list : KeyedList key) (k : κ) :
    (list.erase k).get? = Function.update list.get? k none := by
  funext other
  rw [Function.update_apply]
  unfold get?
  rw [toList_erase, List.find?_filter]
  by_cases h : other = k
  · subst h
    simp
  · rw [if_neg h]
    congr 1
    funext entry
    by_cases hother : key entry = other <;> simp [hother, h]

theorem keys_erase (list : KeyedList key) (k : κ) : (list.erase k).keys = list.keys.erase k := by
  have hnodup : list.keys.Nodup := list.nodup_keys
  rw [hnodup.erase_eq_filter k]
  unfold keys
  rw [toList_erase, List.filter_map]
  congr 1
  refine List.filter_congr fun entry _ => ?_
  rw [Function.comp_apply, bne, beq_eq_decide, decide_not]

/-- A list stands for a map with the same keys, in the same order, and the same values. -/
structure Represents (list : KeyedList key) (map : OrderedMap κ α) : Prop where
  keys_eq : list.keys = map.keys
  get?_eq : list.get? = map.value

namespace Represents

variable {list : KeyedList key} {map : OrderedMap κ α}

theorem empty : (empty : KeyedList key).Represents {} := ⟨rfl, rfl⟩

theorem entries_eq (h : list.Represents map) : list.toList = map.entries := by
  rw [OrderedMap.entries, ← h.keys_eq, ← h.get?_eq, filterMap_get?_keys]

theorem contains_iff (h : list.Represents map) (k : κ) :
    list.contains k = true ↔ k ∈ map.keys := by
  rw [contains_iff_mem_keys, h.keys_eq]

theorem put (h : list.Represents map) (entry : α) :
    (list.put entry).Represents (map.insert (key entry) entry) where
  keys_eq := by rw [keys_put, OrderedMap.insert, h.keys_eq]
  get?_eq := by rw [get?_put, OrderedMap.insert, h.get?_eq]

theorem erase (h : list.Represents map) (k : κ) : (list.erase k).Represents (map.erase k) where
  keys_eq := by rw [keys_erase, OrderedMap.erase, h.keys_eq]
  get?_eq := by rw [get?_erase, OrderedMap.erase, h.get?_eq]

end Represents

variable {list : KeyedList key} {front back : List α} {old : α}

omit [DecidableEq κ] in
/-- No other entry has the key of an entry. -/
theorem key_ne_of_toList_eq (h : list.toList = front ++ old :: back) :
    ∀ entry ∈ front ++ back, key entry ≠ key old := by
  have hnodup := list.nodup_keys
  rw [h, List.map_append, List.map_cons, List.nodup_middle, List.nodup_cons, ← List.map_append]
    at hnodup
  exact fun entry hentry heq => hnodup.1 (heq ▸ List.mem_map_of_mem hentry)

theorem toList_put_of_eq {entry : α} (h : list.toList = front ++ old :: back)
    (hkey : key old = key entry) : (list.put entry).toList = front ++ entry :: back := by
  have hfront : ∀ other ∈ front, key other ≠ key entry := fun other hother =>
    hkey ▸ key_ne_of_toList_eq h other (List.mem_append_left back hother)
  rw [toList_put, h]
  clear h
  induction front with
  | nil => simp [replaceOrAppend, hkey]
  | cons first rest ih =>
    rw [List.cons_append, replaceOrAppend, if_neg (hfront first List.mem_cons_self),
      ih fun other hother => hfront other (List.mem_cons_of_mem first hother), List.cons_append]

theorem toList_put_of_notMem {entry : α} (h : key entry ∉ list.toList.map key) :
    (list.put entry).toList = list.toList ++ [entry] := by
  rw [toList_put]
  revert h
  induction list.toList with
  | nil => exact fun _ => rfl
  | cons first rest ih =>
    intro h
    rw [List.map_cons, List.mem_cons, not_or] at h
    rw [replaceOrAppend, if_neg (Ne.symm h.1), ih h.2, List.cons_append]

theorem toList_erase_of_eq (h : list.toList = front ++ old :: back) :
    (list.erase (key old)).toList = front ++ back := by
  have hothers := key_ne_of_toList_eq h
  rw [toList_erase, h, List.filter_append, List.filter_cons_of_neg (by simp),
    ← List.filter_append, List.filter_eq_self]
  simpa using hothers

end KeyedList

/-- What becomes of the entries that a state holds when one is added or removed. An entry with a
known key takes the place of the one that had it, and another goes behind them all. To remove a key
is to take out its entry, and nothing is done for a key that is not there. -/
structure KeepsOrder {σ α κ : Type} (key : α → κ) (entries : σ → List α)
    (add : σ → α → Status × σ) (remove : σ → κ → Status × σ) (state : σ) : Prop where
  nodup : ((entries state).map key).Nodup
  replaces : ∀ front old back entry, entries state = front ++ old :: back → key old = key entry →
    (add state entry).1 = .noError ∧ entries (add state entry).2 = front ++ entry :: back
  appends : ∀ entry, key entry ∉ (entries state).map key →
    (add state entry).1 = .noError ∧ entries (add state entry).2 = entries state ++ [entry]
  removes : ∀ front old back, entries state = front ++ old :: back →
    (remove state (key old)).1 = .noError ∧
      entries (remove state (key old)).2 = front ++ back
  refuses : ∀ k, k ∉ (entries state).map key → remove state k = (.noSuchKey, state)

/-- A change that a backend is asked for is carried out. -/
def BackendCall.perform {β : Type} [Backend β] (backend : β) : BackendCall → Status × β
  | .addService service => Backend.addService backend service
  | .removeService enterprise serviceData => Backend.removeService backend enterprise serviceData
  | .addPrefix entry preferred valid => Backend.addPrefix backend entry preferred valid
  | .removePrefix meshPrefix length => Backend.removePrefix backend meshPrefix length

namespace KeyedList

variable {σ α κ : Type} [DecidableEq κ] {key : α → κ} {state : σ}

/-- A state keeps the order if it puts what is added into a list and erases what is removed. -/
theorem keepsOrder {add : σ → α → Status × σ} {remove : σ → κ → Status × σ}
    (list : σ → KeyedList key)
    (hput : ∀ entry, (add state entry).1 = .noError ∧
      list (add state entry).2 = (list state).put entry)
    (herase : ∀ k, (list state).contains k = true → (remove state k).1 = .noError ∧
      list (remove state k).2 = (list state).erase k)
    (hrefuse : ∀ k, (list state).contains k = false → remove state k = (.noSuchKey, state)) :
    KeepsOrder key (fun state => (list state).toList) add remove state where
  nodup := (list state).nodup_keys
  replaces front old back entry h hkey := by
    rw [(hput entry).2]
    exact ⟨(hput entry).1, toList_put_of_eq h hkey⟩
  appends entry h := by
    rw [(hput entry).2]
    exact ⟨(hput entry).1, toList_put_of_notMem h⟩
  removes front old back h := by
    have hmem : (list state).contains (key old) = true := by
      simp [contains_iff_mem_keys, keys, h]
    rw [(herase _ hmem).2]
    exact ⟨(herase _ hmem).1, toList_erase_of_eq h⟩
  refuses k h := hrefuse k (by rwa [← Bool.not_eq_true, contains_iff_mem_keys])

end KeyedList

namespace MemoryBackend

/-- Something that is done to a backend in memory. -/
inductive Deed where
  | change (call : BackendCall)
  | withTunnelName (name : String)
  | setNetworkState (networkState : NetworkState)
  | setPartition (partition : Int32)
  | setNodeRole (nodeRole : NodeRole)

namespace Deed

/-- A change is answered with a status. -/
def perform (backend : MemoryBackend) : Deed → Option Status × MemoryBackend
  | .change call =>
    let (status, backend) := call.perform backend
    (some status, backend)
  | .withTunnelName name => (none, backend.withTunnelName name)
  | .setNetworkState networkState => (none, backend.setNetworkState networkState)
  | .setPartition partition => (none, backend.setPartition partition)
  | .setNodeRole nodeRole => (none, backend.setNodeRole nodeRole)

/-- What is made of the services. -/
def serviceEdit? : Deed → Option (MapEdit (UInt32 × Bytes) Service)
  | .change (.addService service) => some (.insert service.key service)
  | .change (.removeService enterprise serviceData) => some (.erase (enterprise, serviceData))
  | _ => none

/-- What is made of the prefixes. -/
def prefixEdit? : Deed → Option (MapEdit (MeshPrefix × UInt8) OnMeshPrefix)
  | .change (.addPrefix entry _ _) => some (.insert entry.key entry)
  | .change (.removePrefix meshPrefix length) => some (.erase (meshPrefix, length))
  | _ => none

end Deed

/-- The backend that a history makes of a new one. -/
def ofDeeds (history : List Deed) : MemoryBackend :=
  history.foldl (fun backend deed => (deed.perform backend).2) {}

/-- A list follows what concerns it as a map does, with the same answers, and is left alone by
everything else. -/
structure Follows {α κ : Type} [DecidableEq κ] {key : α → κ}
    (list : MemoryBackend → KeyedList key) (edit? : Deed → Option (MapEdit κ α)) : Prop where
  edits : ∀ {backend map deed edit}, (list backend).Represents map → edit? deed = some edit →
    (deed.perform backend).1 = some (map.edit edit).1 ∧
      (list (deed.perform backend).2).Represents (map.edit edit).2
  keeps : ∀ backend {deed}, edit? deed = none → list (deed.perform backend).2 = list backend

theorem Follows.foldl {α κ : Type} [DecidableEq κ] {key : α → κ}
    {list : MemoryBackend → KeyedList key} {edit? : Deed → Option (MapEdit κ α)}
    (hfollows : Follows list edit?) {backend : MemoryBackend} {map : OrderedMap κ α}
    (h : (list backend).Represents map) (history : List Deed) :
    (list (history.foldl (fun backend deed => (deed.perform backend).2) backend)).Represents
      ((history.filterMap edit?).foldl (fun map edit => (map.edit edit).2) map) := by
  induction history generalizing backend map with
  | nil => exact h
  | cons deed history ih =>
    rw [List.foldl_cons]
    cases hedit : edit? deed with
    | none =>
      rw [List.filterMap_cons_none hedit]
      exact ih (by rwa [hfollows.keeps backend hedit])
    | some edit =>
      rw [List.filterMap_cons_some hedit, List.foldl_cons]
      exact ih (hfollows.edits h hedit).2

theorem follows_services : Follows MemoryBackend.services Deed.serviceEdit? where
  edits {backend map deed edit} h hedit := by
    unfold Deed.serviceEdit? at hedit
    split at hedit
    · rename_i service
      cases hedit
      exact ⟨rfl, h.put service⟩
    · rename_i enterprise serviceData
      cases hedit
      simp only [Deed.perform, BackendCall.perform, Backend.removeService, removeService,
        OrderedMap.edit, h.contains_iff]
      split
      · exact ⟨rfl, h.erase _⟩
      · exact ⟨rfl, h⟩
    · cases hedit
  keeps backend deed hnone := by
    cases deed with
    | change call =>
      cases call with
      | addService => cases hnone
      | removeService => cases hnone
      | addPrefix => rfl
      | removePrefix meshPrefix length =>
        simp only [Deed.perform, BackendCall.perform, Backend.removePrefix, removePrefix]
        split <;> rfl
    | withTunnelName | setNetworkState | setPartition | setNodeRole => rfl

theorem follows_prefixes : Follows MemoryBackend.prefixes Deed.prefixEdit? where
  edits {backend map deed edit} h hedit := by
    unfold Deed.prefixEdit? at hedit
    split at hedit
    · rename_i entry _ _
      cases hedit
      exact ⟨rfl, h.put entry⟩
    · rename_i meshPrefix length
      cases hedit
      simp only [Deed.perform, BackendCall.perform, Backend.removePrefix, removePrefix,
        OrderedMap.edit, h.contains_iff]
      split
      · exact ⟨rfl, h.erase _⟩
      · exact ⟨rfl, h⟩
    · cases hedit
  keeps backend deed hnone := by
    cases deed with
    | change call =>
      cases call with
      | addService => rfl
      | removeService enterprise serviceData =>
        simp only [Deed.perform, BackendCall.perform, Backend.removeService, removeService]
        split <;> rfl
      | addPrefix => cases hnone
      | removePrefix => cases hnone
    | withTunnelName | setNetworkState | setPartition | setNodeRole => rfl

theorem keepsOrder_services (backend : MemoryBackend) :
    KeepsOrder Service.key Backend.services Backend.addService
      (fun backend key => Backend.removeService backend key.1 key.2) backend :=
  KeyedList.keepsOrder services (fun _ => ⟨rfl, rfl⟩)
    (fun _ hmem => by simp [Backend.removeService, removeService, hmem])
    (fun _ hnone => by simp [Backend.removeService, removeService, hnone])

theorem keepsOrder_prefixes (backend : MemoryBackend) (preferred valid : UInt32) :
    KeepsOrder OnMeshPrefix.key Backend.prefixes
      (fun backend entry => Backend.addPrefix backend entry preferred valid)
      (fun backend key => Backend.removePrefix backend key.1 key.2) backend :=
  KeyedList.keepsOrder prefixes (fun _ => ⟨rfl, rfl⟩)
    (fun _ hmem => by simp [Backend.removePrefix, removePrefix, hmem])
    (fun _ hnone => by simp [Backend.removePrefix, removePrefix, hnone])

/-- A backend in memory is a pair of maps that keep the order of their keys. Whatever is done to a
new one, its services are the entries of a map that sees the changes of services only, and its
prefixes are those of a map that sees the changes of prefixes only; each next change is answered as
by its map and leaves what the other map holds, and the settings change nothing in either. So the
keys are distinct, an entry is replaced where it stands or added behind the others, and a key is
removed with its one entry if it is there and refused if it is not. -/
theorem entries_eq_orderedMap (history : List Deed) :
    let backend := ofDeeds history
    let services := OrderedMap.ofEdits (history.filterMap Deed.serviceEdit?)
    let prefixes := OrderedMap.ofEdits (history.filterMap Deed.prefixEdit?)
    Backend.services backend = services.entries ∧
    Backend.prefixes backend = prefixes.entries ∧
    (∀ deed : Deed,
      (∀ edit, deed.serviceEdit? = some edit →
        (deed.perform backend).1 = some (services.edit edit).1) ∧
      (∀ edit, deed.prefixEdit? = some edit →
        (deed.perform backend).1 = some (prefixes.edit edit).1) ∧
      (deed.serviceEdit? = none →
        Backend.services (deed.perform backend).2 = Backend.services backend) ∧
      (deed.prefixEdit? = none →
        Backend.prefixes (deed.perform backend).2 = Backend.prefixes backend)) ∧
    KeepsOrder Service.key Backend.services Backend.addService
      (fun backend key => Backend.removeService backend key.1 key.2) backend ∧
    ∀ preferred valid, KeepsOrder OnMeshPrefix.key Backend.prefixes
      (fun backend entry => Backend.addPrefix backend entry preferred valid)
      (fun backend key => Backend.removePrefix backend key.1 key.2) backend := by
  intro backend services prefixes
  have hservices : backend.services.Represents services := follows_services.foldl .empty history
  have hprefixes : backend.prefixes.Represents prefixes := follows_prefixes.foldl .empty history
  refine ⟨hservices.entries_eq, hprefixes.entries_eq, fun deed => ⟨fun edit hedit => ?_,
    fun edit hedit => ?_, fun hnone => ?_, fun hnone => ?_⟩, keepsOrder_services backend,
    keepsOrder_prefixes backend⟩
  · exact (follows_services.edits hservices hedit).1
  · exact (follows_prefixes.edits hprefixes hedit).1
  · exact congrArg KeyedList.toList (follows_services.keeps backend hnone)
  · exact congrArg KeyedList.toList (follows_prefixes.keeps backend hnone)

/-- Services are published, the first of them once more with other server data, and the second is
withdrawn. -/
def renewing : List Deed :=
  [.change (.addService ⟨44970, [1], [7]⟩), .setPartition 5,
    .change (.addService ⟨44970, [2], [8]⟩), .change (.addService ⟨44970, [1], [9]⟩),
    .change (.addService ⟨1, [2], [8]⟩),
    .change (.removePrefix ⟨[0, 0, 0, 0, 0, 0, 0, 1], rfl⟩ 64), .change (.removeService 44970 [2])]

theorem entries_eq_orderedMap_renewing :
    Backend.services (ofDeeds renewing) = [⟨44970, [1], [9]⟩, ⟨1, [2], [8]⟩] ∧
    Backend.prefixes (ofDeeds renewing) = [] ∧
    (Deed.perform (ofDeeds renewing) (.change (.removeService 44970 [2]))).1 = some .noSuchKey ∧
    (Deed.perform (ofDeeds renewing) (.change (.removeService 44970 [1]))).1 = some .noError ∧
    Backend.services (Backend.removeService (ofDeeds renewing) 44970 [1]).2 = [⟨1, [2], [8]⟩] := by
  obtain ⟨hservices, hprefixes, hdeed, horder, -⟩ := entries_eq_orderedMap renewing
  have hpublished : Backend.services (ofDeeds renewing) = [⟨44970, [1], [9]⟩, ⟨1, [2], [8]⟩] :=
    hservices.trans (by decide)
  refine ⟨hpublished, hprefixes.trans (by decide), ?_, ?_, ?_⟩
  · rw [(hdeed _).1 _ rfl]
    decide
  · rw [(hdeed _).1 _ rfl]
    decide
  · exact (horder.removes [] _ _ hpublished).2

end MemoryBackend

end MeshControl
