/-
Oaat.Controller.Discovery — an endpoint's mDNS record
(`oaat-endpoint/src/discovery.rs`: `EndpointAnnouncement::register`), and what
a controller reads of it (`oaat-controller/src/discovery.rs`: `parse_endpoint`).

Strings are lists of characters, and addresses are of any type. What carries
the record is the mDNS library: a `ResolvedService` is what it gives, with its
lookup of a property as a function.
-/
import Oaat.Core.Capability

namespace Oaat.Controller

open Oaat.Core

structure EndpointAnnouncement where
  instanceName : List Char
  port : UInt16
  endpointId : List Char
  capabilities : Capabilities
  channelsMax : UInt8
  volumeType : Option (List Char)
  model : Option (List Char)
  vendor : Option (List Char)
  firmware : Option (List Char)

/-- The properties that `register` puts into the record; `ip` is the text of the
address. -/
def EndpointAnnouncement.props (a : EndpointAnnouncement) (ip : List Char) :
    List (List Char × List Char) :=
  [("v".toList, (toString PROTOCOL_VERSION).toList), ("id".toList, a.endpointId),
    ("name".toList, a.instanceName), ("caps".toList, a.capabilities.display),
    ("ch".toList, (toString a.channelsMax).toList), ("ip".toList, ip)] ++
    (a.volumeType.toList.map fun vol => ("vol".toList, vol)) ++
    (a.model.toList.map fun model => ("model".toList, model)) ++
    (a.vendor.toList.map fun vendor => ("vendor".toList, vendor)) ++
    a.firmware.toList.map fun fw => ("fw".toList, fw)

variable {Ip : Type}

structure ResolvedService (Ip : Type) where
  /-- In the order in which the library gives them. -/
  addressesV4 : List Ip
  port : UInt16
  fullname : List Char
  /-- The value of a property. -/
  get : List Char → Option (List Char)

structure DiscoveredEndpoint (Ip : Type) where
  name : List Char
  endpointId : List Char
  addr : Ip × UInt16
  capabilities : Option Capabilities
  channelsMax : UInt8
  model : Option (List Char)
  vendor : Option (List Char)

def parseEndpoint (info : ResolvedService Ip) : Option (DiscoveredEndpoint Ip) := do
  let ip ← info.addressesV4.head?
  let endpointId ← info.get "id".toList
  return {
    name := (info.get "name".toList).getD info.fullname
    endpointId
    addr := (ip, info.port)
    capabilities := (info.get "caps".toList).bind fun s => (Capabilities.parse s).toOption
    channelsMax := ((info.get "ch".toList).bind Capabilities.parseU8).getD 2
    model := info.get "model".toList
    vendor := info.get "vendor".toList }

end Oaat.Controller
