/-
Oaat.Zones.EventLog — the zone events as a log of the zones.

A companion that subscribes to the `ZoneEvent`s knows the zones from them
alone: `ZoneView` is what it keeps, and `ZoneView.apply` what it does with an
event. The main theorem says that after every call of the manager, successful
or not, the view has the manager's zones with the ids of their endpoints.
-/
import Oaat.Zones.Moves
import Mathlib.Data.Finset.Basic

namespace Oaat.Zones

open Oaat.Core Oaat.Lib

/-- The zones a subscriber knows, with the ids of their endpoints. -/
abbrev ZoneView : Type := Table String (Finset String)

namespace ZoneView

def apply (v : ZoneView) : ZoneEvent → ZoneView
  | .zoneCreated zoneId _ => v.insert zoneId ∅
  | .zoneDissolved zoneId => v.erase zoneId
  | .endpointJoined zoneId endpointId _ => v.modify zoneId fun ids => insert endpointId ids
  | .endpointLeft zoneId endpointId => v.modify zoneId fun ids => ids.erase endpointId

/-- The goodbyes are not for the subscribers. -/
def notice (v : ZoneView) : Notice → ZoneView
  | .event e => v.apply e
  | .goodbye _ => v

/-- A subscriber that missed nothing. -/
def replay (v : ZoneView) (notices : List Notice) : ZoneView := notices.foldl notice v

variable (v : ZoneView)

@[simp] theorem replay_nil : v.replay [] = v := rfl

@[simp] theorem replay_event (e : ZoneEvent) (notices : List Notice) :
    v.replay (.event e :: notices) = (v.apply e).replay notices := rfl

@[simp] theorem replay_goodbyes (goodbyes : List Message) :
    v.replay (goodbyes.map .goodbye) = v := by
  induction goodbyes with
  | nil => rfl
  | cons msg goodbyes ih => exact ih

theorem replay_append (before after : List Notice) :
    v.replay (before ++ after) = (v.replay before).replay after := List.foldl_append

end ZoneView

/-- The ids of a zone's endpoints, as a set. -/
def Zone.idSet (z : Zone) : Finset String := z.endpoints.keys.toFinset

@[simp] theorem Zone.mem_idSet {z : Zone} {id : String} : id ∈ z.idSet ↔ id ∈ z.endpoints := by
  rw [Zone.idSet, List.mem_toFinset, AList.mem_keys]

/-- The view has exactly the zones of the manager, with the ids of their
endpoints. -/
def Mirrors (v : ZoneView) (m : ZoneManager) : Prop :=
  ∀ zoneId, v.lookup zoneId = (m.zones.lookup zoneId).map Zone.idSet

/-- A call of the manager itself, not of one of its zones. -/
def ManagerOp.isCall : ManagerOp → Bool
  | .zone _ _ => false
  | _ => true

/-! ## One call -/

section

variable {v : ZoneView} {m : ZoneManager} {zoneId endpointId : String} {z : Zone}

/-- A zone is put back with the ids that an event gives it. -/
theorem Mirrors.put (h : Mirrors v m) {v' : ZoneView} {z' : Zone}
    (hself : v'.lookup zoneId = some z'.idSet)
    (hother : ∀ id, id ≠ zoneId → v'.lookup id = v.lookup id) : Mirrors v' (m.put zoneId z') := by
  intro id
  by_cases hid : id = zoneId
  · rw [hid, hself, ZoneManager.lookup_put_self]
    rfl
  · rw [hother id hid, ZoneManager.lookup_put_ne hid]
    exact h id

/-- An event about the endpoints of one zone. -/
theorem Mirrors.put_modify (h : Mirrors v m) (hz : m.zones.lookup zoneId = some z) {z' : Zone}
    {f : Finset String → Finset String} (hids : f z.idSet = z'.idSet) :
    Mirrors (v.modify zoneId f) (m.put zoneId z') := by
  refine h.put ?_ ?_
  · rw [Table.lookup_modify_self, h zoneId, hz, ← hids]
    rfl
  · intro id hid
    rw [Table.lookup_modify, if_neg hid]

theorem Mirrors.createZone (h : Mirrors v m) (zoneId name : String) :
    Mirrors (v.replay (m.createZone zoneId name).2) (m.createZone zoneId name).1 := by
  refine h.put ?_ ?_
  · exact AList.lookup_insert _
  · intro id hid
    exact AList.lookup_insert_ne hid

theorem Mirrors.dissolveZone (h : Mirrors v m) (zoneId : String) :
    Mirrors (v.replay (m.dissolveZone zoneId).2.2) (m.dissolveZone zoneId).2.1 := by
  unfold ZoneManager.dissolveZone
  split
  next =>
    intro id
    show (v.erase zoneId).lookup id = ((m.zones.erase zoneId).lookup id).map Zone.idSet
    by_cases hid : id = zoneId
    · subst hid
      rw [AList.lookup_erase, AList.lookup_erase]
      rfl
    · rw [AList.lookup_erase_ne hid, AList.lookup_erase_ne hid]
      exact h id
  next => exact h

/-- The name in the event has no part in it, and a failed attempt has no event. -/
theorem Mirrors.addEndpointToZone (h : Mirrors v m) (zoneId : String) (addr : SocketAddr)
    (outcome : Except OaatError HelloAck) :
    Mirrors (v.replay (m.addEndpointToZone zoneId addr outcome).2.2)
      (m.addEndpointToZone zoneId addr outcome).2.1 := by
  cases hz : m.zones.lookup zoneId with
  | none =>
    simp only [ZoneManager.addEndpointToZone, hz]
    exact h
  | some z =>
    cases outcome with
    | error e =>
      simp only [ZoneManager.addEndpointToZone, hz, Zone.addEndpoint]
      refine h.put ?_ fun _ _ => rfl
      rw [ZoneView.replay_nil, h zoneId, hz]
      rfl
    | ok info =>
      have hids : insert info.endpointId z.idSet = (z.addEndpoint addr (.ok info)).2.idSet := by
        ext id
        rw [Finset.mem_insert, Zone.mem_idSet, Zone.mem_idSet, mem_addEndpoint]
      simp only [ZoneManager.addEndpointToZone, hz]
      exact h.put_modify hz hids

theorem Mirrors.removeEndpointFromZone (h : Mirrors v m) (zoneId endpointId : String) :
    Mirrors (v.replay (m.removeEndpointFromZone zoneId endpointId).2.2)
      (m.removeEndpointFromZone zoneId endpointId).2.1 := by
  cases hz : m.zones.lookup zoneId with
  | none =>
    simp only [ZoneManager.removeEndpointFromZone, hz]
    exact h
  | some z =>
    have hids : z.idSet.erase endpointId = (z.removeEndpoint endpointId).2.1.idSet := by
      ext id
      rw [Finset.mem_erase, Zone.mem_idSet, Zone.mem_idSet, mem_removeEndpoint]
    simp only [ZoneManager.removeEndpointFromZone, hz]
    split
    next zone goodbyes hremove =>
      rw [hremove] at hids
      simp only [ZoneView.replay_event, ZoneView.replay_goodbyes]
      exact h.put_modify hz hids
    next => exact h

/-- A move that fails after the removal has told of the removal. -/
theorem Mirrors.moveEndpoint (h : Mirrors v m) (endpointId fromZone toZone : String)
    (outcome : Except OaatError HelloAck) :
    Mirrors (v.replay (m.moveEndpoint endpointId fromZone toZone outcome).2.2)
      (m.moveEndpoint endpointId fromZone toZone outcome).2.1 := by
  unfold ZoneManager.moveEndpoint
  split
  next => exact h
  next zone hzone =>
    split
    next => exact h
    next addr haddr =>
      have hleft := h.removeEndpointFromZone fromZone endpointId
      have hjoined := hleft.addEndpointToZone toZone addr outcome
      rw [← ZoneView.replay_append] at hjoined
      dsimp only
      split
      next e m' joined hadd =>
        rw [hadd] at hjoined
        exact hjoined
      next id m' joined hadd =>
        rw [hadd] at hjoined
        exact hjoined

end

/-- A call of the manager returns, and its events tell what it did. -/
theorem Mirrors.step (build : Build) {v : ZoneView} {m : ZoneManager} (h : Mirrors v m)
    {op : ManagerOp} (hop : op.isCall = true) :
    ∃ m' notices, m.step build op = .ok (m', notices) ∧ Mirrors (v.replay notices) m' := by
  cases op with
  | createZone zoneId name => exact ⟨_, _, rfl, h.createZone zoneId name⟩
  | dissolveZone zoneId => exact ⟨_, _, rfl, h.dissolveZone zoneId⟩
  | addEndpointToZone zoneId addr outcome =>
    exact ⟨_, _, rfl, h.addEndpointToZone zoneId addr outcome⟩
  | removeEndpointFromZone zoneId endpointId =>
    exact ⟨_, _, rfl, h.removeEndpointFromZone zoneId endpointId⟩
  | moveEndpoint endpointId fromZone toZone outcome =>
    exact ⟨_, _, rfl, h.moveEndpoint endpointId fromZone toZone outcome⟩
  | zone zoneId op => cases hop

/-! ## Runs of calls -/

theorem Mirrors.run (build : Build) {v : ZoneView} {m : ZoneManager} (h : Mirrors v m)
    {ops : List ManagerOp} (hops : ∀ op ∈ ops, op.isCall = true) :
    ∃ m' notices, run (ZoneManager.step build) m ops = .ok (m', notices) ∧
      Mirrors (v.replay notices) m' := by
  induction ops generalizing v m with
  | nil => exact ⟨m, [], rfl, h⟩
  | cons op ops ih =>
    obtain ⟨m₁, first, hstep, h₁⟩ := h.step build (hops op (by simp))
    obtain ⟨m₂, rest, hrun, h₂⟩ := ih h₁ fun op' hop' => hops op' (List.mem_cons_of_mem _ hop')
    refine ⟨m₂, first ++ rest, run_cons_ok hstep hrun, ?_⟩
    rw [ZoneView.replay_append]
    exact h₂

/-- **The zone events are a faithful log.** After every call, successful or not, a
subscriber that has followed the events from the start knows the zones and the
ids of their endpoints, exactly. -/
theorem events_are_faithful (build : Build) (ops : List ManagerOp)
    (hops : ∀ op ∈ ops, op.isCall = true) :
    ∀ calls, calls <+: ops →
      ∃ m notices, run (ZoneManager.step build) .new calls = .ok (m, notices) ∧
        ∀ zoneId, (ZoneView.replay ∅ notices).lookup zoneId =
          (m.zones.lookup zoneId).map Zone.idSet := by
  intro calls hcalls
  have hstart : Mirrors ∅ ZoneManager.new := fun _ => rfl
  refine hstart.run build ?_
  intro op hop
  exact hops op (hcalls.subset hop)

/-- Two zones, one of them made twice; the kitchen is moved, and does not answer. -/
def aMoveFails : List ManagerOp :=
  [.createZone "down" "Downstairs", .createZone "up" "Upstairs",
   .addEndpointToZone "down" someAddr (.ok (helloFrom "kitchen")),
   .addEndpointToZone "up" someAddr (.ok (helloFrom "attic")),
   .createZone "up" "Upstairs",
   .moveEndpoint "kitchen" "down" "up" (.error (.io "connection refused"))]

theorem events_are_faithful_aMoveFails :
    (∀ op ∈ aMoveFails, op.isCall = true) ∧
    ∀ calls, calls <+: aMoveFails →
      ∃ m notices, run (ZoneManager.step .release) .new calls = .ok (m, notices) ∧
        ∀ zoneId, (ZoneView.replay ∅ notices).lookup zoneId =
          (m.zones.lookup zoneId).map Zone.idSet := by
  have hcalls : ∀ op ∈ aMoveFails, op.isCall = true := by decide
  exact ⟨hcalls, events_are_faithful .release aMoveFails hcalls⟩

end Oaat.Zones
