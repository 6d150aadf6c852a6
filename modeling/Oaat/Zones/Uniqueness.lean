/-
Oaat.Zones.Uniqueness — an endpoint in more than one zone.

"An Endpoint belongs to at most one Zone at any time" (`docs/rfc.md` 2.2), and a
move takes an endpoint out of its zone before the other one takes it in. A join
does not look for the endpoint elsewhere: its id is only known from the answer,
and no zone knows the others. The main theorem says for which joins and moves
every endpoint stays in at most one zone.
-/
import Oaat.Zones.EventLog

namespace Oaat.Zones

open Oaat.Core Oaat.Lib

/-- No endpoint is a member of two zones. -/
def AtMostOneZone (m : ZoneManager) : Prop :=
  ∀ zoneId otherId endpointId, m.isMember zoneId endpointId = true →
    m.isMember otherId endpointId = true → zoneId = otherId

/-- Whoever answers a join is in no other zone; for a move, in none but the one
that it is just taken out of. -/
def AnswersFree (m : ZoneManager) : ManagerOp → Prop
  | .addEndpointToZone zoneId _ (.ok info) =>
    zoneId ∈ m.zones → ∀ otherId, m.isMember otherId info.endpointId = true → otherId = zoneId
  | .moveEndpoint endpointId fromZone toZone (.ok info) =>
    m.isMember fromZone endpointId = true → toZone ∈ m.zones →
      ∀ otherId, m.isMember otherId info.endpointId = true →
        otherId = toZone ∨ otherId = fromZone ∧ info.endpointId = endpointId
  | _ => True

section

variable {m m' : ZoneManager} {zoneId endpointId fromZone toZone : String} {z : Zone}

/-! ## Who is a member after a call -/

theorem isMember_createZone (m : ZoneManager) (zoneId name id endpointId : String) :
    (m.createZone zoneId name).1.isMember id endpointId = true ↔
      id ≠ zoneId ∧ m.isMember id endpointId = true := by
  show (m.put zoneId (.new zoneId)).isMember id endpointId = true ↔ _
  rw [ZoneManager.isMember_put]
  split
  next hid =>
    have hempty : endpointId ∉ (Zone.new zoneId).endpoints := AList.notMem_empty endpointId
    simp [hid, hempty]
  next hid => simp [hid]

theorem isMember_dissolveZone (m : ZoneManager) (zoneId id endpointId : String) :
    (m.dissolveZone zoneId).2.1.isMember id endpointId = true ↔
      id ≠ zoneId ∧ m.isMember id endpointId = true := by
  unfold ZoneManager.dissolveZone
  split
  next =>
    unfold ZoneManager.isMember
    by_cases hid : id = zoneId
    · subst hid
      simp [AList.lookup_erase]
    · simp [AList.lookup_erase_ne hid, hid]
  next hnone =>
    refine ⟨fun h => ⟨?_, h⟩, fun h => h.2⟩
    rintro rfl
    rw [ZoneManager.isMember, AList.lookup_eq_none.mpr hnone] at h
    cases h

theorem isMember_removeEndpointFromZone (m : ZoneManager) (zoneId endpointId id epId : String) :
    (m.removeEndpointFromZone zoneId endpointId).2.1.isMember id epId = true ↔
      m.isMember id epId = true ∧ ¬ (id = zoneId ∧ epId = endpointId) := by
  cases hmember : m.isMember zoneId endpointId with
  | false =>
    rw [ZoneManager.removeEndpointFromZone_none hmember]
    refine ⟨fun h => ⟨h, ?_⟩, fun h => h.1⟩
    rintro ⟨rfl, rfl⟩
    rw [hmember] at h
    cases h
  | true =>
    obtain ⟨z, hz, hin⟩ : ∃ z, m.zones.lookup zoneId = some z ∧ endpointId ∈ z.endpoints := by
      simpa [ZoneManager.isMember, Option.any_eq_true] using hmember
    obtain ⟨notices, hremove⟩ := ZoneManager.removeEndpointFromZone_some hz hin
    rw [hremove]
    exact isMember_removed hz endpointId id epId

theorem isMember_join (hz : m.zones.lookup zoneId = some z) (addr : SocketAddr) (info : HelloAck)
    (id epId : String) :
    (m.put zoneId (z.addEndpoint addr (.ok info)).2).isMember id epId = true ↔
      m.isMember id epId = true ∨ id = zoneId ∧ epId = info.endpointId := by
  rw [ZoneManager.isMember_put]
  by_cases hid : id = zoneId
  · rw [if_pos hid, hid, ZoneManager.isMember_of_lookup hz, decide_eq_true_eq, decide_eq_true_eq,
      mem_addEndpoint]
    tauto
  · rw [if_neg hid]
    tauto

/-! ## One call -/

/-- Members that leave disturb no one. -/
theorem AtMostOneZone.mono (h : AtMostOneZone m)
    (hsub : ∀ id epId, m'.isMember id epId = true → m.isMember id epId = true) :
    AtMostOneZone m' := by
  intro zoneId otherId epId hzone hother
  exact h zoneId otherId epId (hsub zoneId epId hzone) (hsub otherId epId hother)

/-- One new member. -/
theorem atMostOneZone_join_iff (h : AtMostOneZone m)
    (hjoin : ∀ id epId, m'.isMember id epId = true ↔
      m.isMember id epId = true ∨ id = zoneId ∧ epId = endpointId) :
    AtMostOneZone m' ↔ ∀ otherId, m.isMember otherId endpointId = true → otherId = zoneId := by
  constructor
  · intro h' otherId hother
    exact h' otherId zoneId endpointId ((hjoin _ _).mpr (.inl hother))
      ((hjoin _ _).mpr (.inr ⟨rfl, rfl⟩))
  · intro hfree id otherId epId hid hother
    rcases (hjoin _ _).mp hid with hid | ⟨rfl, rfl⟩
    · rcases (hjoin _ _).mp hother with hother | ⟨rfl, rfl⟩
      · exact h id otherId epId hid hother
      · exact hfree id hid
    · rcases (hjoin _ _).mp hother with hother | ⟨rfl, -⟩
      · exact (hfree otherId hother).symm
      · rfl

theorem atMostOneZone_addEndpointToZone_iff (h : AtMostOneZone m) (zoneId : String)
    (addr : SocketAddr) (info : HelloAck) :
    AtMostOneZone (m.addEndpointToZone zoneId addr (.ok info)).2.1 ↔
      (zoneId ∈ m.zones →
        ∀ otherId, m.isMember otherId info.endpointId = true → otherId = zoneId) := by
  cases hz : m.zones.lookup zoneId with
  | none =>
    have hnone : zoneId ∉ m.zones := AList.lookup_eq_none.mp hz
    simp only [ZoneManager.addEndpointToZone, hz]
    exact iff_of_true h fun hin => absurd hin hnone
  | some z =>
    obtain ⟨notices, hadd⟩ := ZoneManager.addEndpointToZone_some hz addr info
    have hthere : zoneId ∈ m.zones := Table.mem_iff_lookup.mpr ⟨z, hz⟩
    rw [hadd, atMostOneZone_join_iff h (isMember_join hz addr info), forall_prop_of_true hthere]

theorem AtMostOneZone.addEndpointToZone_error (h : AtMostOneZone m) (zoneId : String)
    (addr : SocketAddr) (e : OaatError) :
    AtMostOneZone (m.addEndpointToZone zoneId addr (.error e)).2.1 := by
  obtain ⟨e', m', notices, hadd, hsame⟩ := m.addEndpointToZone_error zoneId addr e
  rw [hadd]
  refine h.mono ?_
  intro id epId hid
  rwa [ZoneManager.isMember, ← hsame]

/-- The endpoint is taken out first, and then joins. -/
theorem atMostOneZone_moveEndpoint_iff (h : AtMostOneZone m) (endpointId fromZone toZone : String)
    (outcome : Except OaatError HelloAck) :
    AtMostOneZone (m.moveEndpoint endpointId fromZone toZone outcome).2.1 ↔
      AnswersFree m (.moveEndpoint endpointId fromZone toZone outcome) := by
  cases hmember : m.isMember fromZone endpointId with
  | false =>
    obtain ⟨e, hmove⟩ := ZoneManager.moveEndpoint_none hmember toZone outcome
    rw [hmove]
    refine iff_of_true h ?_
    cases outcome with
    | error e => trivial
    | ok info => exact fun hin => absurd hin (by rw [hmember]; exact Bool.false_ne_true)
  | true =>
    obtain ⟨z, hz, hin⟩ : ∃ z, m.zones.lookup fromZone = some z ∧ endpointId ∈ z.endpoints := by
      simpa [ZoneManager.isMember, Option.any_eq_true] using hmember
    obtain ⟨e, he⟩ := Table.mem_iff_lookup.mp hin
    have hremoved := isMember_removed hz endpointId
    have hleft : AtMostOneZone (m.put fromZone (z.removeEndpoint endpointId).2.1) :=
      h.mono fun id epId hid => ((hremoved id epId).mp hid).1
    obtain ⟨r, m', joined, hadd⟩ : ∃ r m' joined,
        (m.put fromZone (z.removeEndpoint endpointId).2.1).addEndpointToZone toZone e.addr outcome =
          (r, m', joined) := ⟨_, _, _, rfl⟩
    obtain ⟨notices, hmove⟩ := ZoneManager.moveEndpoint_some hz he hadd
    rw [hmove]
    cases outcome with
    | error e' =>
      have herror := hleft.addEndpointToZone_error toZone e.addr e'
      rw [hadd] at herror
      exact iff_of_true herror trivial
    | ok info =>
      have hjoin := atMostOneZone_addEndpointToZone_iff hleft toZone e.addr info
      rw [hadd, mem_zones_put_iff hz] at hjoin
      rw [AnswersFree, forall_prop_of_true hmember, hjoin]
      refine forall_congr' fun _ => forall_congr' fun otherId => ?_
      rw [hremoved]
      tauto

end

/-- Whether a call keeps every endpoint in at most one zone. -/
theorem atMostOneZone_step_iff (build : Build) {m : ZoneManager} {op : ManagerOp}
    {r : ZoneManager × List Notice} (h : AtMostOneZone m) (hop : op.isCall = true)
    (hstep : m.step build op = .ok r) : AtMostOneZone r.1 ↔ AnswersFree m op := by
  cases op with
  | createZone zoneId name =>
    cases hstep
    refine iff_of_true (h.mono ?_) trivial
    intro id epId hid
    exact ((isMember_createZone m zoneId name id epId).mp hid).2
  | dissolveZone zoneId =>
    cases hstep
    refine iff_of_true (h.mono ?_) trivial
    intro id epId hid
    exact ((isMember_dissolveZone m zoneId id epId).mp hid).2
  | addEndpointToZone zoneId addr outcome =>
    cases hstep
    cases outcome with
    | error e => exact iff_of_true (h.addEndpointToZone_error zoneId addr e) trivial
    | ok info => exact atMostOneZone_addEndpointToZone_iff h zoneId addr info
  | removeEndpointFromZone zoneId endpointId =>
    cases hstep
    refine iff_of_true (h.mono ?_) trivial
    intro id epId hid
    exact ((isMember_removeEndpointFromZone m zoneId endpointId id epId).mp hid).1
  | moveEndpoint endpointId fromZone toZone outcome =>
    cases hstep
    exact atMostOneZone_moveEndpoint_iff h endpointId fromZone toZone outcome
  | zone zoneId op => cases hop

/-! ## Runs of calls -/

theorem atMostOneZone_new : AtMostOneZone .new := by
  intro zoneId otherId endpointId hzone _
  cases hzone

/-- **An endpoint belongs to at most one zone**, after every call, exactly when
whoever answers a join is in no other zone (for a move: in none but the one that
it is just taken out of). -/
theorem at_most_one_zone_iff (build : Build) (ops : List ManagerOp)
    (hops : ∀ op ∈ ops, op.isCall = true) :
    Throughout (ZoneManager.step build) (fun m _ => AtMostOneZone m) .new ops ↔
      Along (ZoneManager.step build) AnswersFree .new ops := by
  have hmirrors : Mirrors ∅ ZoneManager.new := fun _ => rfl
  obtain ⟨m, notices, hrun, -⟩ := hmirrors.run build hops
  have hstep : ∀ (m : ZoneManager) (log : List Notice) op m' notices, True →
      op.isCall = true → AtMostOneZone m →
      m.step build op = .ok (m', notices) →
      (AtMostOneZone m' ↔ AnswersFree m op) ∧ (AnswersFree m op → True) :=
    fun m log op m' notices _ hop h hstep =>
      ⟨atMostOneZone_step_iff build h hop hstep, fun _ => trivial⟩
  exact throughout_iff_along_of ops _ _ m notices hstep trivial hops atMostOneZone_new hrun

/-- The kitchen joins upstairs while it is downstairs. -/
def joinsTwice : List ManagerOp :=
  [.createZone "down" "Downstairs", .createZone "up" "Upstairs",
   .addEndpointToZone "down" someAddr (.ok (helloFrom "kitchen")),
   .addEndpointToZone "up" someAddr (.ok (helloFrom "kitchen"))]

/-- It is then in both zones. -/
theorem kitchen_in_two_zones :
    (∀ op ∈ joinsTwice, op.isCall = true) ∧
    ∃ m notices, run (ZoneManager.step .release) .new joinsTwice = .ok (m, notices) ∧
      m.isMember "down" "kitchen" = true ∧ m.isMember "up" "kitchen" = true ∧
      ¬ AtMostOneZone m := by
  have hview : viewRun (ZoneManager.step .release)
      (fun m _ => (m.isMember "down" "kitchen", m.isMember "up" "kitchen")) .new joinsTwice =
        some (true, true) := by
    decide +kernel
  obtain ⟨m, notices, hrun, hboth⟩ := run_of_viewRun hview
  obtain ⟨hdown, hup⟩ := Prod.mk.inj hboth
  refine ⟨by decide, m, notices, hrun, hdown, hup, ?_⟩
  intro hone
  exact absurd (hone "down" "up" "kitchen" hdown hup) (by decide)

/-- The kitchen joins one of two zones. -/
theorem at_most_one_zone_iff_joined :
    Throughout (ZoneManager.step .release) (fun m _ => AtMostOneZone m) .new
      [.createZone "down" "Downstairs", .createZone "up" "Upstairs",
       .addEndpointToZone "down" someAddr (.ok (helloFrom "kitchen"))] := by
  refine (at_most_one_zone_iff .release _ (by decide)).mpr ?_
  refine ⟨trivial, fun _ _ h₁ => ⟨trivial, fun _ _ h₂ => ⟨?_, fun _ _ _ => trivial⟩⟩⟩
  cases h₁
  cases h₂
  intro _ otherId hother
  -- both zones are empty so far
  have hup := ((isMember_createZone _ "up" "Upstairs" otherId "kitchen").mp hother).2
  have hdown := ((isMember_createZone _ "down" "Downstairs" otherId "kitchen").mp hup).2
  cases hdown

end Oaat.Zones
