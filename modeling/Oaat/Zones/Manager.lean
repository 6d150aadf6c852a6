/-
Oaat.Zones.Manager — the controller's zones
(`oaat-controller/src/manager.rs`: `ZoneManager`).

An operation returns its result, the manager, and what it sends: the events for
the subscribers, and the goodbyes on the connections that leave a zone. A zone
can also be worked on directly (`zone_mut`).
-/
import Oaat.Zones.Zone

namespace Oaat.Zones

open Oaat.Core Oaat.Lib

inductive ZoneEvent where
  | zoneCreated (zoneId name : String)
  | zoneDissolved (zoneId : String)
  | endpointJoined (zoneId endpointId endpointName : String)
  | endpointLeft (zoneId endpointId : String)
  deriving Repr, DecidableEq

/-- What an operation sends. -/
inductive Notice where
  | event (e : ZoneEvent)
  | goodbye (msg : Message)
  deriving Repr, DecidableEq

structure ZoneManager where
  zones : Table String Zone

namespace ZoneManager

def new : ZoneManager := { zones := ∅ }

/-- The zone is worked on in place. -/
def put (m : ZoneManager) (zoneId : String) (z : Zone) : ZoneManager :=
  { m with zones := m.zones.insert zoneId z }

def createZone (m : ZoneManager) (zoneId name : String) : ZoneManager × List Notice :=
  (m.put zoneId (.new zoneId), [.event (.zoneCreated zoneId name)])

def dissolveZone (m : ZoneManager) (zoneId : String) : Bool × ZoneManager × List Notice :=
  if zoneId ∈ m.zones then
    (true, { m with zones := m.zones.erase zoneId }, [.event (.zoneDissolved zoneId)])
  else (false, m, [])

def addEndpointToZone (m : ZoneManager) (zoneId : String) (addr : SocketAddr)
    (outcome : Except OaatError HelloAck) : Except OaatError String × ZoneManager × List Notice :=
  match m.zones.lookup zoneId with
  | none => (.error (.protocol ("zone not found: " ++ zoneId)), m, [])
  | some zone =>
    match zone.addEndpoint addr outcome with
    | (.error e, zone) => (.error e, m.put zoneId zone, [])
    | (.ok epId, zone) =>
      let epName := (zone.endpointName epId).getD ""
      (.ok epId, m.put zoneId zone, [.event (.endpointJoined zoneId epId epName)])

def removeEndpointFromZone (m : ZoneManager) (zoneId endpointId : String) :
    Bool × ZoneManager × List Notice :=
  match m.zones.lookup zoneId with
  | none => (false, m, [])
  | some zone =>
    match zone.removeEndpoint endpointId with
    | (true, zone, goodbyes) =>
      (true, m.put zoneId zone,
        .event (.endpointLeft zoneId endpointId) :: goodbyes.map .goodbye)
    | (false, _, _) => (false, m, [])

/-- The endpoint leaves its zone before it is known whether the other one takes
it. `outcome` is how connecting to it again ends. -/
def moveEndpoint (m : ZoneManager) (endpointId fromZone toZone : String)
    (outcome : Except OaatError HelloAck) : Except OaatError Unit × ZoneManager × List Notice :=
  match m.zones.lookup fromZone with
  | none => (.error (.protocol ("zone not found: " ++ fromZone)), m, [])
  | some zone =>
    match zone.endpointAddr endpointId with
    | none => (.error (.protocol ("endpoint not found: " ++ endpointId)), m, [])
    | some addr =>
      let (_, m, left) := m.removeEndpointFromZone fromZone endpointId
      match m.addEndpointToZone toZone addr outcome with
      | (.error e, m, joined) => (.error e, m, left ++ joined)
      | (.ok _, m, joined) => (.ok (), m, left ++ joined)

/-- The endpoint is a member of the zone. -/
def isMember (m : ZoneManager) (zoneId endpointId : String) : Bool :=
  (m.zones.lookup zoneId).any fun z => endpointId ∈ z.endpoints

end ZoneManager

/-! ## Runs -/

inductive ManagerOp where
  | createZone (zoneId name : String)
  | dissolveZone (zoneId : String)
  | addEndpointToZone (zoneId : String) (addr : SocketAddr) (outcome : Except OaatError HelloAck)
  | removeEndpointFromZone (zoneId endpointId : String)
  | moveEndpoint (endpointId fromZone toZone : String) (outcome : Except OaatError HelloAck)
  /-- An operation of the zone itself; nothing without the zone. -/
  | zone (zoneId : String) (op : Op)

def ZoneManager.step (build : Build) (m : ZoneManager) :
    ManagerOp → Except Panic (ZoneManager × List Notice)
  | .createZone zoneId name => .ok (m.createZone zoneId name)
  | .dissolveZone zoneId => .ok (m.dissolveZone zoneId).2
  | .addEndpointToZone zoneId addr outcome => .ok (m.addEndpointToZone zoneId addr outcome).2
  | .removeEndpointFromZone zoneId endpointId =>
    .ok (m.removeEndpointFromZone zoneId endpointId).2
  | .moveEndpoint endpointId fromZone toZone outcome =>
    .ok (m.moveEndpoint endpointId fromZone toZone outcome).2
  | .zone zoneId op =>
    match m.zones.lookup zoneId with
    | none => .ok (m, [])
    | some z => do
      let (z, goodbyes) ← z.step build op
      return (m.put zoneId z, goodbyes.map .goodbye)

/-! ## Lookups -/

namespace ZoneManager

variable {m : ZoneManager} {zoneId : String} {z : Zone}

@[simp] theorem lookup_put_self (m : ZoneManager) (zoneId : String) (z : Zone) :
    (m.put zoneId z).zones.lookup zoneId = some z := AList.lookup_insert _

theorem lookup_put_ne {id : String} (h : id ≠ zoneId) :
    (m.put zoneId z).zones.lookup id = m.zones.lookup id := AList.lookup_insert_ne h

theorem isMember_put (m : ZoneManager) (zoneId : String) (z : Zone) (id endpointId : String) :
    (m.put zoneId z).isMember id endpointId =
      if id = zoneId then decide (endpointId ∈ z.endpoints) else m.isMember id endpointId := by
  unfold isMember
  split
  next hid =>
    rw [hid, lookup_put_self]
    rfl
  next hid => rw [lookup_put_ne hid]

theorem isMember_of_lookup (h : m.zones.lookup zoneId = some z) (endpointId : String) :
    m.isMember zoneId endpointId = decide (endpointId ∈ z.endpoints) := by
  rw [isMember, h]
  rfl

/-- Joining a zone that there is. -/
theorem addEndpointToZone_some (h : m.zones.lookup zoneId = some z) (addr : SocketAddr)
    (info : HelloAck) :
    ∃ notices, m.addEndpointToZone zoneId addr (.ok info) =
      (.ok info.endpointId, m.put zoneId (z.addEndpoint addr (.ok info)).2, notices) := by
  simp only [addEndpointToZone, h]
  exact ⟨_, rfl⟩

/-- A connection attempt that fails leaves the zones as they are. -/
theorem addEndpointToZone_error (m : ZoneManager) (zoneId : String) (addr : SocketAddr)
    (e : OaatError) :
    ∃ e' m' notices, m.addEndpointToZone zoneId addr (.error e) = (.error e', m', notices) ∧
      ∀ id, m'.zones.lookup id = m.zones.lookup id := by
  simp only [addEndpointToZone]
  split
  next => exact ⟨_, _, _, rfl, fun _ => rfl⟩
  next zone hzone =>
    refine ⟨_, _, _, rfl, ?_⟩
    intro id
    by_cases hid : id = zoneId
    · rw [hid, lookup_put_self, hzone]
    · exact lookup_put_ne hid

theorem removeEndpointFromZone_some (h : m.zones.lookup zoneId = some z) {endpointId : String}
    (hmem : endpointId ∈ z.endpoints) :
    ∃ notices, m.removeEndpointFromZone zoneId endpointId =
      (true, m.put zoneId (z.removeEndpoint endpointId).2.1, notices) := by
  obtain ⟨e, he⟩ := Table.mem_iff_lookup.mp hmem
  simp only [removeEndpointFromZone, h, Zone.removeEndpoint, he]
  exact ⟨_, rfl⟩

theorem removeEndpointFromZone_none {endpointId : String}
    (h : m.isMember zoneId endpointId = false) :
    m.removeEndpointFromZone zoneId endpointId = (false, m, []) := by
  unfold isMember at h
  unfold removeEndpointFromZone
  cases hz : m.zones.lookup zoneId with
  | none => rfl
  | some z =>
    have hnone : z.endpoints.lookup endpointId = none := by
      rw [AList.lookup_eq_none]
      simpa [hz] using h
    simp only [Zone.removeEndpoint, hnone]

/-- There is no such member to move. -/
theorem moveEndpoint_none {endpointId fromZone : String}
    (h : m.isMember fromZone endpointId = false) (toZone : String)
    (outcome : Except OaatError HelloAck) :
    ∃ e, m.moveEndpoint endpointId fromZone toZone outcome = (.error e, m, []) := by
  unfold isMember at h
  unfold moveEndpoint
  cases hz : m.zones.lookup fromZone with
  | none => exact ⟨_, rfl⟩
  | some z =>
    have hnone : z.endpointAddr endpointId = none := by
      rw [Zone.endpointAddr, Option.map_eq_none_iff, AList.lookup_eq_none]
      simpa [hz] using h
    simp only [hnone]
    exact ⟨_, rfl⟩

/-- A move is a removal, and then a join. -/
theorem moveEndpoint_some {endpointId fromZone toZone : String} {e : EndpointEntry}
    (hz : m.zones.lookup fromZone = some z) (he : z.endpoints.lookup endpointId = some e)
    {outcome : Except OaatError HelloAck} {r : Except OaatError String} {m' : ZoneManager}
    {joined : List Notice}
    (hadd : (m.put fromZone (z.removeEndpoint endpointId).2.1).addEndpointToZone toZone e.addr
      outcome = (r, m', joined)) :
    ∃ notices, m.moveEndpoint endpointId fromZone toZone outcome =
      (r.map fun _ => (), m', notices) := by
  have haddr : z.endpointAddr endpointId = some e.addr := by rw [Zone.endpointAddr, he]; rfl
  obtain ⟨left, hremove⟩ := removeEndpointFromZone_some hz (Table.mem_iff_lookup.mpr ⟨e, he⟩)
  simp only [moveEndpoint, hz, haddr, hremove, hadd]
  cases r with
  | error e => exact ⟨_, rfl⟩
  | ok id => exact ⟨_, rfl⟩

end ZoneManager

end Oaat.Zones
