/-
Oaat.Zones.Moves — moving an endpoint from one zone to another.

A move should leave every zone as it was when it fails. It removes the endpoint
first, and then looks up the other zone and connects again, either of which can
fail; and what answers at the endpoint's address may have another id. The main
theorem says when a move is all or nothing, whatever the zones and whatever
comes of the connection attempt.
-/
import Oaat.Zones.Manager
import Oaat.Zones.Sends

namespace Oaat.Zones

open Oaat.Core Oaat.Lib

/-- A failed move leaves the members of every zone as they were; one that
succeeds has moved the endpoint. -/
def AllOrNothing (m : ZoneManager) (endpointId fromZone toZone : String)
    (outcome : Except OaatError HelloAck) : Prop :=
  match m.moveEndpoint endpointId fromZone toZone outcome with
  | (.error _, m', _) => ∀ zoneId id, m'.isMember zoneId id = m.isMember zoneId id
  | (.ok (), m', _) =>
    m'.isMember toZone endpointId = true ∧
      (toZone ≠ fromZone → m'.isMember fromZone endpointId = false)

/-- There is nothing to move, or the other zone is there and the endpoint answers
under its own id. (An endpoint that is in the other zone already may answer under
any.) -/
def Movable (m : ZoneManager) (endpointId fromZone toZone : String)
    (outcome : Except OaatError HelloAck) : Prop :=
  m.isMember fromZone endpointId = false ∨
    toZone ∈ m.zones ∧ ∃ info, outcome = .ok info ∧
      (info.endpointId = endpointId ∨ toZone ≠ fromZone ∧ m.isMember toZone endpointId = true)

section

variable {m : ZoneManager} {z : Zone} {endpointId fromZone toZone : String}

theorem mem_removeEndpoint (z : Zone) (endpointId id : String) :
    id ∈ (z.removeEndpoint endpointId).2.1.endpoints ↔ id ≠ endpointId ∧ id ∈ z.endpoints := by
  unfold Zone.removeEndpoint
  split
  next => exact AList.mem_erase
  next hnone =>
    refine ⟨fun hid => ⟨?_, hid⟩, fun h => h.2⟩
    rintro rfl
    exact AList.lookup_eq_none.mp hnone hid

theorem mem_addEndpoint (z : Zone) (addr : SocketAddr) (info : HelloAck) (id : String) :
    id ∈ (z.addEndpoint addr (.ok info)).2.endpoints ↔ id = info.endpointId ∨ id ∈ z.endpoints := by
  show id ∈ Table.visit _ (AList.insert _ _ _) ↔ _
  rw [Table.mem_visit, AList.mem_insert]

/-- The zones after the removal. -/
theorem isMember_removed (hz : m.zones.lookup fromZone = some z) (endpointId zoneId id : String) :
    (m.put fromZone (z.removeEndpoint endpointId).2.1).isMember zoneId id = true ↔
      m.isMember zoneId id = true ∧ ¬ (zoneId = fromZone ∧ id = endpointId) := by
  rw [ZoneManager.isMember_put]
  by_cases hzone : zoneId = fromZone
  · rw [if_pos hzone, hzone, ZoneManager.isMember_of_lookup hz, decide_eq_true_eq,
      decide_eq_true_eq, mem_removeEndpoint]
    tauto
  · rw [if_neg hzone]
    tauto

/-- The endpoint is lost when the move fails after the removal. -/
theorem not_allOrNothing (hz : m.zones.lookup fromZone = some z) {e : EndpointEntry}
    (he : z.endpoints.lookup endpointId = some e) {outcome : Except OaatError HelloAck}
    {err : OaatError} {m' : ZoneManager} {joined : List Notice}
    (hadd : (m.put fromZone (z.removeEndpoint endpointId).2.1).addEndpointToZone toZone e.addr
      outcome = (.error err, m', joined))
    (hsame : ∀ id, m'.zones.lookup id =
      (m.put fromZone (z.removeEndpoint endpointId).2.1).zones.lookup id) :
    ¬ AllOrNothing m endpointId fromZone toZone outcome := by
  obtain ⟨notices, hmove⟩ := ZoneManager.moveEndpoint_some hz he hadd
  have hbefore : m.isMember fromZone endpointId = true := by
    rw [ZoneManager.isMember_of_lookup hz, decide_eq_true_eq]
    exact Table.mem_iff_lookup.mpr ⟨e, he⟩
  have hafter : m'.isMember fromZone endpointId ≠ true := by
    rw [ZoneManager.isMember, hsame, ← ZoneManager.isMember, Ne, isMember_removed hz]
    exact fun h => h.2 ⟨rfl, rfl⟩
  unfold AllOrNothing
  rw [hmove]
  intro hall
  exact hafter ((hall fromZone endpointId).trans hbefore)

/-- A move that succeeds. -/
theorem allOrNothing_joined (hz : m.zones.lookup fromZone = some z) {e : EndpointEntry}
    (he : z.endpoints.lookup endpointId = some e) {info : HelloAck} {z₂ : Zone}
    (hto : (m.put fromZone (z.removeEndpoint endpointId).2.1).zones.lookup toZone = some z₂)
    {joined : List Notice}
    (hadd : (m.put fromZone (z.removeEndpoint endpointId).2.1).addEndpointToZone toZone e.addr
      (.ok info) = (.ok info.endpointId,
        (m.put fromZone (z.removeEndpoint endpointId).2.1).put toZone
          (z₂.addEndpoint e.addr (.ok info)).2, joined)) :
    AllOrNothing m endpointId fromZone toZone (.ok info) ↔
      info.endpointId = endpointId ∨ toZone ≠ fromZone ∧ m.isMember toZone endpointId = true := by
  obtain ⟨notices, hmove⟩ := ZoneManager.moveEndpoint_some hz he hadd
  have hremoved := isMember_removed hz endpointId
  have hin : endpointId ∈ z₂.endpoints ↔
      toZone ≠ fromZone ∧ m.isMember toZone endpointId = true := by
    have := hremoved toZone endpointId
    rw [ZoneManager.isMember_of_lookup hto, decide_eq_true_eq] at this
    rw [this]
    tauto
  -- the endpoint has left the zone that it came from
  have hleft : toZone ≠ fromZone →
      ((m.put fromZone (z.removeEndpoint endpointId).2.1).put toZone
        (z₂.addEndpoint e.addr (.ok info)).2).isMember fromZone endpointId = false := by
    intro hzone
    rw [ZoneManager.isMember_put, if_neg hzone.symm, ← Bool.not_eq_true, hremoved]
    exact fun h => h.2 ⟨rfl, rfl⟩
  unfold AllOrNothing
  rw [hmove]
  show _ ∧ _ ↔ _
  rw [and_iff_left hleft, ZoneManager.isMember_put, if_pos rfl, decide_eq_true_eq,
    mem_addEndpoint, hin, eq_comm]

/-- Taking a member out of a zone leaves the zones that there are. -/
theorem mem_zones_put_iff (hz : m.zones.lookup fromZone = some z) (left : Zone) :
    toZone ∈ (m.put fromZone left).zones ↔ toZone ∈ m.zones := by
  by_cases hzone : toZone = fromZone
  · rw [hzone]
    refine iff_of_true ?_ (Table.mem_iff_lookup.mpr ⟨z, hz⟩)
    exact Table.mem_iff_lookup.mpr ⟨left, m.lookup_put_self fromZone left⟩
  · rw [← AList.lookup_isSome, ← AList.lookup_isSome, ZoneManager.lookup_put_ne hzone]

/-- **Moving is all or nothing**, exactly when there is nothing to move, or the
other zone is there and the endpoint answers under its own id. -/
theorem move_all_or_nothing_iff (m : ZoneManager) (endpointId fromZone toZone : String)
    (outcome : Except OaatError HelloAck) :
    AllOrNothing m endpointId fromZone toZone outcome ↔
      Movable m endpointId fromZone toZone outcome := by
  cases hmember : m.isMember fromZone endpointId with
  | false =>
    obtain ⟨e, hmove⟩ := ZoneManager.moveEndpoint_none hmember toZone outcome
    refine iff_of_true ?_ (.inl hmember)
    unfold AllOrNothing
    rw [hmove]
    exact fun _ _ => rfl
  | true =>
    obtain ⟨z, hz, hin⟩ : ∃ z, m.zones.lookup fromZone = some z ∧ endpointId ∈ z.endpoints := by
      simpa [ZoneManager.isMember, Option.any_eq_true] using hmember
    obtain ⟨e, he⟩ := Table.mem_iff_lookup.mp hin
    have hmovable : Movable m endpointId fromZone toZone outcome ↔
        toZone ∈ m.zones ∧ ∃ info, outcome = .ok info ∧
          (info.endpointId = endpointId ∨
            toZone ≠ fromZone ∧ m.isMember toZone endpointId = true) := by
      rw [Movable, hmember, Bool.true_eq_false, false_or]
    rw [hmovable]
    cases outcome with
    | error err =>
      obtain ⟨err', m', joined, hadd, hsame⟩ := ZoneManager.addEndpointToZone_error
        (m.put fromZone (z.removeEndpoint endpointId).2.1) toZone e.addr err
      refine iff_of_false (not_allOrNothing hz he hadd hsame) ?_
      rintro ⟨-, info, hok, -⟩
      cases hok
    | ok info =>
      cases hto : (m.put fromZone (z.removeEndpoint endpointId).2.1).zones.lookup toZone with
      | none =>
        have hnone : toZone ∉ m.zones := by
          rw [← mem_zones_put_iff hz, ← AList.lookup_eq_none]
          exact hto
        have hadd : (m.put fromZone (z.removeEndpoint endpointId).2.1).addEndpointToZone toZone
            e.addr (.ok info) = (.error (.protocol ("zone not found: " ++ toZone)),
              m.put fromZone (z.removeEndpoint endpointId).2.1, []) := by
          simp only [ZoneManager.addEndpointToZone, hto]
        exact iff_of_false (not_allOrNothing hz he hadd fun _ => rfl) fun h => hnone h.1
      | some z₂ =>
        have hthere : toZone ∈ m.zones :=
          (mem_zones_put_iff hz _).mp (Table.mem_iff_lookup.mpr ⟨z₂, hto⟩)
        obtain ⟨joined, hadd⟩ := ZoneManager.addEndpointToZone_some hto e.addr info
        rw [allOrNothing_joined hz he hto hadd]
        constructor
        · intro hanswers
          exact ⟨hthere, info, rfl, hanswers⟩
        · rintro ⟨-, info', hok, hanswers⟩
          cases hok
          exact hanswers

end

/-- Two zones, with the kitchen in the first. -/
def twoZones : ZoneManager :=
  ((ZoneManager.new.createZone "down" "Downstairs").1.createZone "up" "Upstairs").1
    |>.addEndpointToZone "down" someAddr (.ok (helloFrom "kitchen")) |>.2.1

/-- The kitchen does not answer when it is moved upstairs; it is then in no zone.
The same happens when there is no zone to move it to. -/
theorem kitchen_dropped :
    twoZones.isMember "down" "kitchen" = true ∧
    (twoZones.moveEndpoint "kitchen" "down" "up" (.error (.io "connection refused"))).1 =
      .error (.io "connection refused") ∧
    (twoZones.moveEndpoint "kitchen" "down" "up"
      (.error (.io "connection refused"))).2.1.isMember "down" "kitchen" = false ∧
    (twoZones.moveEndpoint "kitchen" "down" "attic" (.ok (helloFrom "kitchen"))).1 =
      .error (.protocol "zone not found: attic") ∧
    (twoZones.moveEndpoint "kitchen" "down" "attic"
      (.ok (helloFrom "kitchen"))).2.1.isMember "down" "kitchen" = false ∧
    ¬ AllOrNothing twoZones "kitchen" "down" "up" (.error (.io "connection refused")) := by
  have hbefore : twoZones.isMember "down" "kitchen" = true := by decide +kernel
  have hafter : (twoZones.moveEndpoint "kitchen" "down" "up"
      (.error (.io "connection refused"))).2.1.isMember "down" "kitchen" = false := by
    decide +kernel
  have herror : (twoZones.moveEndpoint "kitchen" "down" "up"
      (.error (.io "connection refused"))).1 = .error (.io "connection refused") := by
    rfl
  refine ⟨hbefore, herror, hafter, by rfl, by decide +kernel, ?_⟩
  intro hall
  have hsame : (twoZones.moveEndpoint "kitchen" "down" "up"
      (.error (.io "connection refused"))).2.1.isMember "down" "kitchen" =
      twoZones.isMember "down" "kitchen" := hall "down" "kitchen"
  rw [hbefore, hafter] at hsame
  cases hsame

end Oaat.Zones
