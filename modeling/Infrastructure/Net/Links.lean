import Mathlib.Data.List.AList

/-! The network devices of a host, and the iproute2 commands that change them. -/

namespace Infrastructure.Net

inductive Shape where
  | bridge
  | veth (peer : String)
  | vxlan (vni : Nat) (src : String)
  deriving DecidableEq, Repr

/-- The bridge a device is attached to, and for an overlay where unknown frames go. -/
structure Device where
  shape : Shape
  master : Option String := none
  up : Bool := false
  flood : List String := []
  deriving DecidableEq, Repr

abbrev Devices := AList fun _ : String => Device

namespace Devices

variable (devices : Devices)

def adjust (name : String) (change : Device → Device) : Option (String × Devices) :=
  (devices.lookup name).map fun device => ("", devices.insert name (change device))

def perform : List String → Option (String × Devices)
  | ["ip", "link", "show", name] => (devices.lookup name).map fun _ => ("", devices)
  | ["ip", "link", "add", name, "type", "veth", "peer", "name", peer] =>
    if devices.lookup name = none ∧ devices.lookup peer = none ∧ name ≠ peer then
      some ("", (devices.insert name ⟨.veth peer, none, false, []⟩).insert peer ⟨.veth name,
        none, false, []⟩)
    else none
  | ["ip", "link", "set", name, "up"] =>
    devices.adjust name fun device => { device with up := true }
  | ["ip", "link", "set", name, "master", bridge] =>
    if (devices.lookup bridge).isSome then
      devices.adjust name fun device => { device with master := some bridge }
    else none
  | _ => none

end Devices

end Infrastructure.Net
