import MeshControl.Backend.Basic
/-!
A backend that can be told to answer every change with one status. While it is told so, it changes
nothing and has no tunnel name.
-/

namespace MeshControl

/-- A backend, and the status that it is told to answer with. -/
structure Overriding (β : Type) where
  backend : β
  status : Option Status := none

namespace Overriding

variable {β : Type} [Backend β]

/-- Carries out a change, unless a status is given. -/
def change (overriding : Overriding β) (operation : β → Status × β) : Status × Overriding β :=
  match overriding.status with
  | some status => (status, overriding)
  | none =>
    let (status, backend) := operation overriding.backend
    (status, { overriding with backend })

instance : Backend (Overriding β) where
  addService overriding service := overriding.change (Backend.addService · service)
  removeService overriding enterprise serviceData :=
    overriding.change (Backend.removeService · enterprise serviceData)
  addPrefix overriding entry preferred valid :=
    overriding.change (Backend.addPrefix · entry preferred valid)
  removePrefix overriding meshPrefix length :=
    overriding.change (Backend.removePrefix · meshPrefix length)
  tunnelName overriding :=
    match overriding.status with
    | some status => .error status
    | none => Backend.tunnelName overriding.backend
  networkState overriding := Backend.networkState overriding.backend
  partition overriding := Backend.partition overriding.backend
  nodeRole overriding := Backend.nodeRole overriding.backend
  services overriding := Backend.services overriding.backend
  prefixes overriding := Backend.prefixes overriding.backend

end Overriding

end MeshControl
