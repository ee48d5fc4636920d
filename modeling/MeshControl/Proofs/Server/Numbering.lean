import MeshControl.Proofs.Server.Convergence

/-!
Where a connection stands among the others. As long as no connection is collected, ids count the
places: the connection at a place has the next number as its id, so it is found under that id, and a
connection that is put in its place stands there.
-/

namespace MeshControl

namespace Registry

/-- Ids count the places from one. -/
structure IsNumbered (registry : Registry) : Prop where
  id_eq : ∀ number connection, registry.connections[number]? = some connection →
    connection.id = number + 1
  nextId_eq : registry.nextId = registry.connections.length + 1

variable {registry : Registry} {number : Nat}

theorem IsNumbered.map (h : registry.IsNumbered) {change : Connection → Connection}
    (hid : ∀ connection : Connection, (change connection).id = connection.id) :
    IsNumbered { registry with connections := registry.connections.map change } where
  id_eq number connection hconnection := by
    rw [List.getElem?_map, Option.map_eq_some_iff] at hconnection
    obtain ⟨before, hbefore, rfl⟩ := hconnection
    rw [hid, h.id_eq number before hbefore]
  nextId_eq := by
    rw [List.length_map]
    exact h.nextId_eq

theorem IsNumbered.replace (h : registry.IsNumbered) (connection : Connection) :
    (registry.replace connection).IsNumbered := by
  refine h.map fun other => ?_
  split
  · rename_i hid
    exact hid.symm
  · rfl

theorem IsNumbered.append (h : registry.IsNumbered) {connection : Connection}
    (hid : connection.id = registry.nextId) :
    IsNumbered ⟨registry.connections ++ [connection], registry.nextId + 1⟩ where
  id_eq number other hother := by
    rw [List.getElem?_append] at hother
    split at hother
    · exact h.id_eq number other hother
    · rename_i hplace
      obtain ⟨hlast, hsame⟩ := List.getElem?_eq_some_iff.mp hother
      rw [List.length_singleton] at hlast
      rw [List.getElem_singleton] at hsame
      rw [← hsame, hid, h.nextId_eq]
      omega
  nextId_eq := by
    rw [h.nextId_eq, List.length_append, List.length_singleton]

theorem IsNumbered.get?_eq (h : registry.IsNumbered) (number : Nat) :
    registry.get? (number + 1) = registry.connections[number]? := by
  unfold get?
  cases hfound : registry.connections[number]? with
  | some connection =>
    obtain ⟨hbound, hconnection⟩ := List.getElem?_eq_some_iff.mp hfound
    rw [List.find?_eq_some_iff_getElem]
    refine ⟨by simp [h.id_eq number connection hfound], number, hbound, hconnection, ?_⟩
    intro earlier hearlier
    have hid := h.id_eq earlier _ (List.getElem?_eq_getElem (Nat.lt_trans hearlier hbound))
    simp only [hid, Bool.not_eq_true', beq_eq_false_iff_ne]
    omega
  | none =>
    rw [List.find?_eq_none]
    intro connection hmem hid
    obtain ⟨place, hplace⟩ := List.mem_iff_getElem?.mp hmem
    rw [beq_iff_eq, h.id_eq place connection hplace, Nat.add_right_cancel_iff] at hid
    rw [hid, hfound] at hplace
    cases hplace

theorem IsNumbered.getElem?_replace (h : registry.IsNumbered) {connection : Connection}
    (hid : connection.id = number + 1) (other : Nat) :
    (registry.replace connection).connections[other]? =
      if other = number then registry.connections[other]?.map fun _ => connection
      else registry.connections[other]? := by
  simp only [Registry.replace, List.getElem?_map]
  cases hother : registry.connections[other]? with
  | none => simp
  | some found =>
    have hplace : found.id = connection.id ↔ other = number := by
      rw [h.id_eq other found hother, hid, Nat.add_right_cancel_iff]
    by_cases hsame : other = number
    · simp [hplace, hsame]
    · simp [hplace, hsame]

end Registry

namespace Server

variable {β : Type} {server : Server β} {inlet : Inlet} {outlet : Outlet} {now : Nat}

/-- A server with place and memory for one more peer puts its connection behind the others. -/
theorem accept_of_room {input : Buffer}
    (hplace : server.registry.liveCount < server.config.maxConnections)
    (hinput : Buffer.withCapacity server.config.bufferSize = .ok input) :
    server.accept inlet outlet now = (.accepted server.registry.nextId,
      { server with
        registry.connections := server.registry.connections ++
          [{ id := server.registry.nextId, inlet, outlet, input, lastActivity := now }]
        registry.nextId := server.registry.nextId + 1 }) := by
  rw [accept, if_neg (Nat.not_le.mpr hplace), Registry.allocate, hinput]
  rfl

theorem accept_of_noMemory {e : WireError}
    (hplace : server.registry.liveCount < server.config.maxConnections)
    (hinput : Buffer.withCapacity server.config.bufferSize = .error e) :
    server.accept inlet outlet now = (.noMemory, server) := by
  rw [accept, if_neg (Nat.not_le.mpr hplace), Registry.allocate, hinput]
  rfl

theorem accept_of_full (hfull : server.config.maxConnections ≤ server.registry.liveCount) :
    server.accept inlet outlet now = (.full, server) := by
  rw [accept, if_pos hfull]

/-- A peer is taken in behind the others, or nothing becomes of the server. -/
theorem accept_cases (server : Server β) (inlet : Inlet) (outlet : Outlet) (now : Nat) :
    (∃ input : Buffer, input.filled = [] ∧
      server.accept inlet outlet now = (.accepted server.registry.nextId,
        { server with
          registry.connections := server.registry.connections ++
            [{ id := server.registry.nextId, inlet, outlet, input, lastActivity := now }]
          registry.nextId := server.registry.nextId + 1 })) ∨
    ((server.config.maxConnections ≤ server.registry.liveCount ∨
      ∃ e, Buffer.withCapacity server.config.bufferSize = .error e) ∧
      (∀ id, (server.accept inlet outlet now).1 ≠ .accepted id) ∧
      (server.accept inlet outlet now).2 = server) := by
  rcases Nat.lt_or_ge server.registry.liveCount server.config.maxConnections with hplace | hfull
  · cases hinput : Buffer.withCapacity server.config.bufferSize with
    | error e =>
      rw [accept_of_noMemory hplace hinput]
      exact .inr ⟨.inr ⟨e, rfl⟩, nofun, rfl⟩
    | ok input =>
      exact .inl ⟨input, Buffer.filled_withCapacity hinput, accept_of_room hplace hinput⟩
  · rw [accept_of_full hfull]
    exact .inr ⟨.inl hfull, nofun, rfl⟩

end Server

end MeshControl
