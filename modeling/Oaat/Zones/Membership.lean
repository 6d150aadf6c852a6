/-
Oaat.Zones.Membership — what the members of a zone know of each other.

Every member with a connection should have been sent, last, a list of exactly
the current members (`Agrees`). Joining and the removal with notice send the
list to everyone. A removal through the manager, a prune, a late join that
fails, and a move send it to no one in the zone that is left, and this does not
show only when no one with a connection stays behind.
-/
import Oaat.Zones.Manager
import Oaat.Zones.Sends

namespace Oaat.Zones

open Oaat.Core Oaat.Lib

/-- The last update that the member was sent lists exactly the members. -/
def Informed (z : Zone) (e : EndpointEntry) : Prop :=
  ∃ ids, e.last memberList = some (z.zoneId, ids) ∧ ids.Perm z.endpointIds

def Agrees (z : Zone) : Prop :=
  ∀ id e, z.endpoints.lookup id = some e → e.live = true → Informed z e

def Agreed (m : ZoneManager) : Prop :=
  ∀ zoneId z, m.zones.lookup zoneId = some z → Agrees z

/-- The endpoints that an operation takes out of a zone without a word to the
others. -/
def silentlyGone (z : Zone) : Op → List String
  | .removeEndpoint endpointId => if endpointId ∈ z.endpoints then [endpointId] else []
  | .pruneDisconnected => z.dead
  | .joinActive _ (.ok info) true => if z.activeStream.isSome then [info.endpointId] else []
  | _ => []

/-- No one leaves silently, or no one with a connection stays behind. -/
def Announced (z : Zone) (op : Op) : Prop :=
  silentlyGone z op = [] ∨
    ∀ id e, z.endpoints.lookup id = some e → e.live = true → id ∈ silentlyGone z op

/-- The same of the manager's operations. A move within a zone ends with a
join. -/
def AnnouncedBy (m : ZoneManager) : ManagerOp → Prop
  | .removeEndpointFromZone zoneId endpointId =>
    ∀ z, m.zones.lookup zoneId = some z → Announced z (.removeEndpoint endpointId)
  | .moveEndpoint endpointId fromZone toZone outcome =>
    ∀ z, m.zones.lookup fromZone = some z →
      Announced z (.removeEndpoint endpointId) ∨ toZone = fromZone ∧ ∃ info, outcome = .ok info
  | .zone zoneId op => ∀ z, m.zones.lookup zoneId = some z → Announced z op
  | _ => True

section

variable {build : Build} {z z' : Zone} {op : Op} {out : List Message}

/-! ## Lists of members -/

theorem mem_endpointIds {id : String} : id ∈ z.endpointIds ↔ id ∈ z.endpoints :=
  AList.mem_keys.symm

theorem endpointIds_perm_iff :
    z'.endpointIds.Perm z.endpointIds ↔ ∀ id, id ∈ z'.endpoints ↔ id ∈ z.endpoints :=
  Table.keys_perm_iff

theorem agrees_broadcast (z : Zone) : Agrees z.broadcastZoneUpdate := by
  intro id e he hlive
  obtain ⟨e₀, -, rfl⟩ := Option.map_eq_some_iff.mp ((lookup_forAll _ _ _).symm.trans he)
  rw [live_tell] at hlive
  refine ⟨z.endpointIds, ?_, ?_⟩
  · rw [last_tell hlive]
    rfl
  · rw [show z.broadcastZoneUpdate.endpointIds = z.endpointIds from Table.keys_visit _ _]

theorem Agrees.of_unread (h : Agrees z) (hu : Unread memberList z z')
    (hid : z'.zoneId = z.zoneId) (hkeys : z'.endpointIds.Perm z.endpointIds) : Agrees z' := by
  intro id e' he' hlive'
  obtain ⟨e, he, hlive, hlast⟩ := hu id e' he' hlive'
  obtain ⟨ids, hids, hperm⟩ := h id e he hlive
  exact ⟨ids, by rw [hlast, hids, hid], hperm.trans hkeys.symm⟩

/-- Some members leave without a word. -/
theorem agrees_gone_iff (h : Agrees z) {gone : List String}
    (hsub : ∀ id ∈ gone, id ∈ z.endpoints)
    (hlook : ∀ id, z'.endpoints.lookup id = if id ∈ gone then none else z.endpoints.lookup id)
    (hzone : z'.zoneId = z.zoneId) :
    Agrees z' ↔
      gone = [] ∨ ∀ id e, z.endpoints.lookup id = some e → e.live = true → id ∈ gone := by
  constructor
  · intro hagrees
    by_cases hnil : gone = []
    · exact .inl hnil
    · right
      intro id e he hlive
      by_contra hid
      obtain ⟨g, hg⟩ := List.exists_mem_of_ne_nil gone hnil
      obtain ⟨ids, hids, hperm⟩ := h id e he hlive
      obtain ⟨ids', hids', hperm'⟩ := hagrees id e (by rw [hlook, if_neg hid, he]) hlive
      obtain rfl : ids = ids' := by
        have hsame := hids.symm.trans hids'
        simp only [Option.some.injEq, Prod.mk.injEq] at hsame
        exact hsame.2
      -- the list still names the one that left
      have hnamed : g ∈ ids := hperm.mem_iff.mpr (mem_endpointIds.mpr (hsub g hg))
      have hstays : g ∈ z'.endpoints := mem_endpointIds.mp (hperm'.mem_iff.mp hnamed)
      have hleft : g ∉ z'.endpoints := by rw [← AList.lookup_eq_none, hlook, if_pos hg]
      exact hleft hstays
  · rintro (rfl | hall) id e he hlive
    · have hsame : ∀ id, z'.endpoints.lookup id = z.endpoints.lookup id := by
        intro id
        rw [hlook, if_neg List.not_mem_nil]
      obtain ⟨ids, hids, hperm⟩ := h id e (by rw [← hsame, he]) hlive
      refine ⟨ids, by rw [hids, hzone], hperm.trans (endpointIds_perm_iff.mpr ?_)⟩
      intro id
      rw [Table.mem_iff_lookup, Table.mem_iff_lookup, hsame]
    · rw [hlook] at he
      split at he
      next => cases he
      next hid => exact absurd (hall id e he hlive) hid

/-! ## Joining -/

theorem last_updateWith {e : EndpointEntry} (hlive : e.live = true) (info : HelloAck) :
    (e.tell (z.updateWith info)).last memberList =
      some (z.zoneId, info.endpointId :: z.endpointIds.erase info.endpointId) := by
  rw [last_tell hlive]
  rfl

theorem last_memberList_catchUp {stream : ActiveStream} {id : String} {e : EndpointEntry}
    (hlive : e.live = true) :
    (z.catchUp stream id e).last memberList = e.last memberList := by
  have hquiet : ∀ (e : EndpointEntry) msg, e.live = true → memberList msg = none →
      (e.tell msg).live = true ∧ (e.tell msg).last memberList = e.last memberList :=
    fun e msg hl hm => ⟨by rwa [live_tell], last_tell_unread hl hm⟩
  unfold Zone.catchUp
  cases stream.metadata with
  | none =>
    obtain ⟨hlive₁, hlast₁⟩ := hquiet e (.volumeSet (z.volume.effectiveVolume id)) hlive rfl
    cases stream.playing with
    | false => exact hlast₁
    | true => exact (hquiet _ (.play stream.streamId) hlive₁ rfl).2.trans hlast₁
  | some track =>
    obtain ⟨hlive₀, hlast₀⟩ := hquiet e (.metadata track) hlive rfl
    obtain ⟨hlive₁, hlast₁⟩ := hquiet _ (.volumeSet (z.volume.effectiveVolume id)) hlive₀ rfl
    cases stream.playing with
    | false => exact hlast₁.trans hlast₀
    | true => exact ((hquiet _ (.play stream.streamId) hlive₁ rfl).2.trans hlast₁).trans hlast₀

/-- Whoever joins is on the list, and has been sent it. -/
theorem last_admits {addr : SocketAddr} {info : HelloAck} {lost : Bool} {e : EndpointEntry}
    (he : z.admits addr info lost = some e) :
    e.last memberList =
      some (z.zoneId, info.endpointId :: z.endpointIds.erase info.endpointId) := by
  unfold Zone.admits at he
  split at he
  next =>
    cases he
    rfl
  next stream =>
    split at he
    next => cases he
    next =>
      cases he
      rw [last_memberList_catchUp (by rw [live_tell]; rfl), last_tell_unread rfl rfl]
      rfl

theorem agrees_admitted {info : HelloAck} {e : EndpointEntry}
    (hadmitted : Admitted z info (some e) z')
    (hlast : e.last memberList =
      some (z.zoneId, info.endpointId :: z.endpointIds.erase info.endpointId)) : Agrees z' := by
  have hnodup : (info.endpointId :: z.endpointIds.erase info.endpointId).Nodup := by
    rw [List.nodup_cons]
    exact ⟨List.Nodup.not_mem_erase z.endpoints.keys_nodup, z.endpoints.keys_nodup.erase _⟩
  have hperm : (info.endpointId :: z.endpointIds.erase info.endpointId).Perm z'.endpointIds := by
    refine (List.perm_ext_iff_of_nodup hnodup z'.endpoints.keys_nodup).mpr ?_
    intro id
    rw [← AList.mem_keys, Table.mem_iff_lookup, hadmitted.lookup, List.mem_cons]
    by_cases hid : id = info.endpointId
    · simp [hid]
    · rw [if_neg hid, List.mem_erase_of_ne hid, mem_endpointIds, Table.mem_iff_lookup]
      simp [hid]
  intro id e' he' hlive'
  rw [hadmitted.lookup] at he'
  refine ⟨_, ?_, hperm⟩
  rw [hadmitted.zoneId]
  split at he'
  next =>
    cases he'
    exact hlast
  next =>
    obtain ⟨e₀, -, rfl⟩ := Option.map_eq_some_iff.mp he'
    rw [live_tell] at hlive'
    exact last_updateWith hlive' info

/-- A late join that fails is on everyone's list. -/
theorem agrees_refused_iff {info : HelloAck} (hadmitted : Admitted z info none z') :
    Agrees z' ↔
      ∀ id e, z.endpoints.lookup id = some e → e.live = true → id = info.endpointId := by
  constructor
  · intro hagrees id e he hlive
    by_contra hid
    obtain ⟨ids, hids, hperm⟩ := hagrees id (e.tell (z.updateWith info))
      (by rw [hadmitted.lookup, if_neg hid, he]; rfl) (by rwa [live_tell])
    rw [last_updateWith hlive, Option.some.injEq, Prod.mk.injEq] at hids
    have hnamed : info.endpointId ∈ ids := by rw [← hids.2]; exact .head _
    have hstays := mem_endpointIds.mp (hperm.mem_iff.mp hnamed)
    rw [Table.mem_iff_lookup, hadmitted.lookup, if_pos rfl] at hstays
    obtain ⟨e, he⟩ := hstays
    cases he
  · intro hall id e' he' hlive'
    rw [hadmitted.lookup] at he'
    split at he'
    next => cases he'
    next hid =>
      obtain ⟨e₀, he₀, rfl⟩ := Option.map_eq_some_iff.mp he'
      rw [live_tell] at hlive'
      exact absurd (hall id e₀ he₀ hlive') hid

/-! ## One operation -/

theorem agrees_removeEndpoint_iff (h : Agrees z) (endpointId : String) :
    Agrees (z.removeEndpoint endpointId).2.1 ↔ Announced z (.removeEndpoint endpointId) := by
  have hframe : (z.removeEndpoint endpointId).2.1.zoneId = z.zoneId := by
    unfold Zone.removeEndpoint
    split <;> rfl
  refine agrees_gone_iff h ?_ ?_ hframe
  · intro id hid
    simp only [silentlyGone] at hid
    split at hid
    next hmem => rwa [List.mem_singleton.mp hid]
    next => cases hid
  · intro id
    unfold silentlyGone Zone.removeEndpoint
    by_cases hmem : endpointId ∈ z.endpoints
    · obtain ⟨e, he⟩ := Table.mem_iff_lookup.mp hmem
      simp only [he, if_pos hmem, List.mem_singleton]
      split
      next hid => rw [hid, AList.lookup_erase]
      next hid => rw [AList.lookup_erase_ne hid]
    · simp only [AList.lookup_eq_none.mpr hmem, if_neg hmem, List.not_mem_nil, if_false]

theorem mem_of_dead {id : String} (hid : id ∈ z.dead) : id ∈ z.endpoints := by
  obtain ⟨e, he, hsome⟩ := List.mem_filterMap.mp hid
  split at hsome
  next =>
    cases hsome
    exact AList.mem_keys.mpr (List.mem_map_of_mem he)
  next => cases hsome

theorem agrees_joinActive_iff {addr : SocketAddr} {info : HelloAck} {lost : Bool}
    (hadmitted : Admitted z info (z.admits addr info lost) z') :
    Agrees z' ↔ Announced z (.joinActive addr (.ok info) lost) := by
  cases hentry : z.admits addr info lost with
  | some e =>
    rw [hentry] at hadmitted
    refine iff_of_true (agrees_admitted hadmitted (last_admits hentry)) (.inl ?_)
    cases lost with
    | false => rfl
    | true =>
      cases hstream : z.activeStream with
      | none => simp [silentlyGone, hstream]
      | some stream => simp [Zone.admits, hstream] at hentry
  | none =>
    -- only a lost connection is refused, and only by a stream
    rw [hentry] at hadmitted
    have hgone : silentlyGone z (.joinActive addr (.ok info) lost) = [info.endpointId] := by
      cases hstream : z.activeStream with
      | none => simp [Zone.admits, hstream] at hentry
      | some stream =>
        cases lost with
        | false => simp [Zone.admits, hstream] at hentry
        | true => simp [silentlyGone, hstream]
    rw [agrees_refused_iff hadmitted, Announced, hgone]
    simp

/-- **One operation of a zone.** -/
theorem agrees_step_iff (h : Agrees z) (hstep : z.step build op = .ok (z', out)) :
    Agrees z' ↔ Announced z op := by
  have hquiet : ∀ z₁, Unread memberList z z₁ → z₁.zoneId = z.zoneId →
      z₁.endpointIds = z.endpointIds → Agrees z₁ := by
    intro z₁ hu hid hkeys
    exact h.of_unread hu hid (by rw [hkeys])
  cases op with
  | addEndpoint addr outcome =>
    cases hstep
    cases outcome with
    | error e => exact iff_of_true h (.inl rfl)
    | ok info =>
      refine iff_of_true ?_ (.inl rfl)
      exact agrees_admitted (withMember_admitted z addr info) rfl
  | joinActive addr outcome lost =>
    cases outcome with
    | error e =>
      cases hstep
      exact iff_of_true h (.inl rfl)
    | ok info => exact agrees_joinActive_iff (step_joinActive hstep)
  | removeEndpoint endpointId =>
    obtain rfl : (z.removeEndpoint endpointId).2.1 = z' :=
      congrArg Prod.fst (Except.ok.inj hstep)
    exact agrees_removeEndpoint_iff h endpointId
  | removeEndpointAndNotify endpointId =>
    obtain rfl : (z.removeEndpointAndNotify endpointId).2.1 = z' :=
      congrArg Prod.fst (Except.ok.inj hstep)
    refine iff_of_true ?_ (.inl rfl)
    unfold Zone.removeEndpointAndNotify
    split
    next => exact agrees_broadcast _
    next z₁ goodbye hz =>
      -- there was no such member
      unfold Zone.removeEndpoint at hz
      split at hz
      next => cases hz
      next =>
        cases hz
        exact h
  | pruneDisconnected =>
    cases hstep
    exact agrees_gone_iff h (fun id hid => mem_of_dead hid) (lookup_pruneDisconnected z) rfl
  | setVolumeEndpoint endpointId level =>
    obtain ⟨offset, -, rfl⟩ := step_setVolumeEndpoint hstep
    obtain ⟨hid, -, hkeys⟩ :=
      tellOne_frame (z.setOffset endpointId offset) endpointId (.volumeSet level)
    refine iff_of_true (hquiet _ ?_ hid hkeys) (.inl rfl)
    exact unread_tellOne (z := z.setOffset endpointId offset) rfl endpointId
  | setVolumeOffset endpointId offset =>
    cases hstep
    obtain ⟨hid, -, hkeys⟩ := tellOne_frame (z.setOffset endpointId offset) endpointId
      (.volumeSet ((z.setOffset endpointId offset).volume.effectiveVolume endpointId))
    refine iff_of_true (hquiet _ ?_ hid hkeys) (.inl rfl)
    exact unread_tellOne (z := z.setOffset endpointId offset) rfl endpointId
  | setMuteEndpoint endpointId muted =>
    cases hstep
    obtain ⟨hid, -, hkeys⟩ := tellOne_frame z endpointId (.mute muted)
    exact iff_of_true (hquiet _ (unread_tellOne rfl endpointId) hid hkeys) (.inl rfl)
  | setVolumeAll level =>
    cases hstep
    refine iff_of_true (hquiet _ ?_ rfl (Table.keys_visit _ _)) (.inl rfl)
    exact unread_setVolumeAll (fun _ => rfl) z level
  | markDegraded endpointId | markDisconnected endpointId =>
    cases hstep
    refine iff_of_true (hquiet _ ?_ rfl (Table.keys_visit _ _)) (.inl rfl)
    exact unread_modify (fun e => same_state e _) rfl
  | proposeFormatAll | sendMetadataAll | setMuteAll =>
    cases hstep
    refine iff_of_true (hquiet _ ?_ rfl (Table.keys_visit _ _)) (.inl rfl)
    exact unread_tellAll rfl _
  | playAll | stopAll =>
    cases hstep
    refine iff_of_true (hquiet _ ?_ rfl (Table.keys_visit _ _)) (.inl rfl)
    exact unread_forAll (fun _ e => same_tellThen rfl e _) rfl
  | lost endpointId =>
    cases hstep
    refine iff_of_true (hquiet _ ?_ rfl (Table.keys_visit _ _)) (.inl rfl)
    exact unread_modify same_lose rfl

/-- An operation that panics has announced nothing. -/
theorem announced_of_error {p : Panic} (hstep : z.step build op = .error p) : Announced z op := by
  cases op with
  | joinActive addr outcome lost =>
    cases outcome with
    | error e => exact .inl rfl
    | ok info =>
      obtain ⟨r, z₁, hjoin, -⟩ := joinActive_admitted z addr info lost
      have hz : z.step build (.joinActive addr (.ok info) lost) = .ok (z₁, []) :=
        bind_of_ok _ hjoin
      rw [hz] at hstep
      cases hstep
  | setVolumeEndpoint => exact .inl rfl
  | _ => cases hstep

end

/-! ## The manager's operations -/

section

variable {build : Build} {m : ZoneManager} {z : Zone} {zoneId : String}

/-- Only the zone that was worked on is in question. -/
theorem agreed_put_iff
    (h : ∀ id z', id ≠ zoneId → m.zones.lookup id = some z' → Agrees z') :
    Agreed (m.put zoneId z) ↔ Agrees z := by
  constructor
  · intro hagreed
    exact hagreed zoneId z (ZoneManager.lookup_put_self m zoneId z)
  · intro hz id z' hz'
    by_cases hid : id = zoneId
    · rw [hid, ZoneManager.lookup_put_self] at hz'
      cases hz'
      exact hz
    · rw [ZoneManager.lookup_put_ne hid] at hz'
      exact h id z' hid hz'

theorem Agreed.put_iff (h : Agreed m) : Agreed (m.put zoneId z) ↔ Agrees z :=
  agreed_put_iff fun id z' _ hz' => h id z' hz'

theorem agrees_new (zoneId : String) : Agrees (.new zoneId) := by
  intro id e he
  cases he

theorem agreed_of_lookup {m' : ZoneManager}
    (hsame : ∀ id, m'.zones.lookup id = m.zones.lookup id) : Agreed m' ↔ Agreed m := by
  unfold Agreed
  simp only [hsame]

theorem announced_of_not_member {endpointId : String} (hno : endpointId ∉ z.endpoints) :
    Announced z (.removeEndpoint endpointId) := by
  left
  simp only [silentlyGone, if_neg hno]

/-- The join of the same zone tells everyone; that of another one does not help the
members that are left. -/
theorem agreed_rejoined_iff (h : Agreed m) (left : Zone) {joined : Zone} (hjoined : Agrees joined)
    (fromZone toZone : String) :
    Agreed ((m.put fromZone left).put toZone joined) ↔
      Agreed (m.put fromZone left) ∨ toZone = fromZone := by
  by_cases hzone : toZone = fromZone
  · refine iff_of_true ?_ (.inr hzone)
    refine (agreed_put_iff ?_).mpr hjoined
    intro id z' hid hz'
    rw [ZoneManager.lookup_put_ne (hzone ▸ hid)] at hz'
    exact h id z' hz'
  · rw [or_iff_left hzone]
    constructor
    · intro hagreed
      refine h.put_iff.mpr (hagreed fromZone _ ?_)
      rw [ZoneManager.lookup_put_ne (Ne.symm hzone), ZoneManager.lookup_put_self]
    · intro hleft
      exact hleft.put_iff.mpr hjoined

/-- **A move** is announced in the zone that is left only when that is also the
zone that is joined. -/
theorem agreed_moveEndpoint_iff (h : Agreed m) (endpointId fromZone toZone : String)
    (outcome : Except OaatError HelloAck) :
    Agreed (m.moveEndpoint endpointId fromZone toZone outcome).2.1 ↔
      AnnouncedBy m (.moveEndpoint endpointId fromZone toZone outcome) := by
  cases hmember : m.isMember fromZone endpointId with
  | false =>
    obtain ⟨e, hmove⟩ := ZoneManager.moveEndpoint_none hmember toZone outcome
    rw [hmove]
    refine iff_of_true h ?_
    intro z hz
    rw [ZoneManager.isMember_of_lookup hz, decide_eq_false_iff_not] at hmember
    exact .inl (announced_of_not_member hmember)
  | true =>
    obtain ⟨z, hz, hin⟩ : ∃ z, m.zones.lookup fromZone = some z ∧ endpointId ∈ z.endpoints := by
      simpa [ZoneManager.isMember, Option.any_eq_true] using hmember
    obtain ⟨e, he⟩ := Table.mem_iff_lookup.mp hin
    have hremoved : Agreed (m.put fromZone (z.removeEndpoint endpointId).2.1) ↔
        Announced z (.removeEndpoint endpointId) :=
      h.put_iff.trans (agrees_removeEndpoint_iff (h fromZone z hz) endpointId)
    have hby : AnnouncedBy m (.moveEndpoint endpointId fromZone toZone outcome) ↔
        Announced z (.removeEndpoint endpointId) ∨
          toZone = fromZone ∧ ∃ info, outcome = .ok info := by
      constructor
      · intro hall
        exact hall z hz
      · intro hone z' hz'
        rw [hz] at hz'
        cases hz'
        exact hone
    rw [hby]
    cases outcome with
    | error err =>
      obtain ⟨err', m', joined, hadd, hsame⟩ := ZoneManager.addEndpointToZone_error
        (m.put fromZone (z.removeEndpoint endpointId).2.1) toZone e.addr err
      obtain ⟨notices, hmove⟩ := ZoneManager.moveEndpoint_some hz he hadd
      rw [hmove, agreed_of_lookup hsame, hremoved]
      simp
    | ok info =>
      cases hto : (m.put fromZone (z.removeEndpoint endpointId).2.1).zones.lookup toZone with
      | none =>
        have hne : toZone ≠ fromZone := by
          rintro rfl
          rw [ZoneManager.lookup_put_self] at hto
          cases hto
        have hadd : (m.put fromZone (z.removeEndpoint endpointId).2.1).addEndpointToZone toZone
            e.addr (.ok info) = (.error (.protocol ("zone not found: " ++ toZone)),
              m.put fromZone (z.removeEndpoint endpointId).2.1, []) := by
          simp only [ZoneManager.addEndpointToZone, hto]
        obtain ⟨notices, hmove⟩ := ZoneManager.moveEndpoint_some hz he hadd
        rw [hmove, hremoved]
        simp [hne]
      | some z₂ =>
        obtain ⟨joined, hadd⟩ := ZoneManager.addEndpointToZone_some hto e.addr info
        obtain ⟨notices, hmove⟩ := ZoneManager.moveEndpoint_some hz he hadd
        have hjoined : Agrees (z₂.addEndpoint e.addr (.ok info)).2 :=
          agrees_admitted (withMember_admitted z₂ e.addr info) rfl
        rw [hmove, agreed_rejoined_iff h _ hjoined fromZone toZone, hremoved]
        simp

/-- After the operation, everyone knows. -/
def Informs (build : Build) (m : ZoneManager) (op : ManagerOp) : Prop :=
  ∀ m' out, m.step build op = .ok (m', out) → Agreed m'

theorem informs_iff_of_step {op : ManagerOp} {m₁ : ZoneManager} {out₁ : List Notice}
    (hstep : m.step build op = .ok (m₁, out₁)) : Informs build m op ↔ Agreed m₁ := by
  constructor
  · intro hinforms
    exact hinforms m₁ out₁ hstep
  · intro hagreed m' out hm'
    rw [hstep] at hm'
    cases hm'
    exact hagreed

theorem agreed_dissolveZone (h : Agreed m) (zoneId : String) :
    Agreed (m.dissolveZone zoneId).2.1 := by
  intro id z hz
  unfold ZoneManager.dissolveZone at hz
  split at hz
  next =>
    by_cases hid : id = zoneId
    · subst hid
      simp at hz
    · exact h id z ((AList.lookup_erase_ne hid).symm.trans hz)
  next => exact h id z hz

/-- Whatever comes of the connection attempt. -/
theorem agreed_addEndpointToZone (h : Agreed m) (zoneId : String) (addr : SocketAddr)
    (outcome : Except OaatError HelloAck) :
    Agreed (m.addEndpointToZone zoneId addr outcome).2.1 := by
  cases outcome with
  | error e =>
    obtain ⟨e', m', notices, hadd, hsame⟩ := m.addEndpointToZone_error zoneId addr e
    rw [hadd]
    exact (agreed_of_lookup hsame).mpr h
  | ok info =>
    cases hz : m.zones.lookup zoneId with
    | none =>
      simp only [ZoneManager.addEndpointToZone, hz]
      exact h
    | some z =>
      obtain ⟨notices, hadd⟩ := ZoneManager.addEndpointToZone_some hz addr info
      rw [hadd]
      exact h.put_iff.mpr (agrees_admitted (withMember_admitted z addr info) rfl)

theorem agreed_removeEndpointFromZone_iff (h : Agreed m) (zoneId endpointId : String) :
    Agreed (m.removeEndpointFromZone zoneId endpointId).2.1 ↔
      AnnouncedBy m (.removeEndpointFromZone zoneId endpointId) := by
  cases hz : m.zones.lookup zoneId with
  | none =>
    simp only [ZoneManager.removeEndpointFromZone, hz]
    refine iff_of_true h ?_
    intro z hz'
    rw [hz] at hz'
    cases hz'
  | some z =>
    have hby : AnnouncedBy m (.removeEndpointFromZone zoneId endpointId) ↔
        Announced z (.removeEndpoint endpointId) := by
      simp [AnnouncedBy, hz]
    rw [hby]
    by_cases hin : endpointId ∈ z.endpoints
    · obtain ⟨notices, hremove⟩ := ZoneManager.removeEndpointFromZone_some hz hin
      rw [hremove]
      exact h.put_iff.trans (agrees_removeEndpoint_iff (h zoneId z hz) endpointId)
    · have hnot : m.isMember zoneId endpointId = false := by
        rw [ZoneManager.isMember_of_lookup hz, decide_eq_false_iff_not]
        exact hin
      rw [ZoneManager.removeEndpointFromZone_none hnot]
      exact iff_of_true h (announced_of_not_member hin)

/-- An operation on one zone, through the manager. -/
theorem informs_zone_iff (h : Agreed m) (zoneId : String) (op : Op) :
    Informs build m (.zone zoneId op) ↔ AnnouncedBy m (.zone zoneId op) := by
  cases hz : m.zones.lookup zoneId with
  | none =>
    have hstep : m.step build (.zone zoneId op) = .ok (m, []) := by
      simp only [ZoneManager.step, hz]
    rw [informs_iff_of_step hstep]
    simp [AnnouncedBy, hz, h]
  | some z =>
    have hby : AnnouncedBy m (.zone zoneId op) ↔ Announced z op := by
      simp [AnnouncedBy, hz]
    rw [hby]
    cases hop : z.step build op with
    | error p =>
      refine iff_of_true ?_ (announced_of_error hop)
      intro m' out hstep
      simp [ZoneManager.step, hz, hop, bind, Except.bind] at hstep
    | ok r =>
      obtain ⟨z₁, goodbyes⟩ := r
      have hstep : m.step build (.zone zoneId op) =
          .ok (m.put zoneId z₁, goodbyes.map .goodbye) := by
        simp only [ZoneManager.step, hz]
        exact bind_of_ok _ hop
      rw [informs_iff_of_step hstep, h.put_iff]
      exact agrees_step_iff (h zoneId z hz) hop

/-- **One operation of the manager.** -/
theorem informs_iff (h : Agreed m) {op : ManagerOp} : Informs build m op ↔ AnnouncedBy m op := by
  cases op with
  | createZone zoneId name =>
    rw [informs_iff_of_step rfl]
    exact iff_of_true (h.put_iff.mpr (agrees_new zoneId)) trivial
  | dissolveZone zoneId =>
    rw [informs_iff_of_step rfl]
    exact iff_of_true (agreed_dissolveZone h zoneId) trivial
  | addEndpointToZone zoneId addr outcome =>
    rw [informs_iff_of_step rfl]
    exact iff_of_true (agreed_addEndpointToZone h zoneId addr outcome) trivial
  | removeEndpointFromZone zoneId endpointId =>
    rw [informs_iff_of_step rfl]
    exact agreed_removeEndpointFromZone_iff h zoneId endpointId
  | moveEndpoint endpointId fromZone toZone outcome =>
    rw [informs_iff_of_step rfl]
    exact agreed_moveEndpoint_iff h endpointId fromZone toZone outcome
  | zone zoneId op => exact informs_zone_iff h zoneId op

end

/-! ## Every run -/

theorem agreed_new : Agreed .new := by
  intro zoneId z hz
  cases hz

/-- **Zone members know their peers**, exactly when no one leaves a zone without
notice while someone with a connection stays behind: then, and only then, after
every operation of the run the last update that each member was sent lists
exactly the members of its zone. -/
theorem members_know_peers_iff (build : Build) (ops : List ManagerOp) :
    Along (ZoneManager.step build) (Informs build) .new ops ↔
      Along (ZoneManager.step build) AnnouncedBy .new ops := by
  have hiff : ∀ m op, Agreed m → (Informs build m op ↔ AnnouncedBy m op) :=
    fun m op h => informs_iff h
  have hkeep : ∀ m op m' out, Agreed m → Informs build m op →
      m.step build op = .ok (m', out) → Agreed m' :=
    fun m op m' out _ hinforms hstep => hinforms m' out hstep
  exact along_congr hiff hkeep agreed_new

/-- The kitchen and the office share a zone. -/
def twoMembers : List ManagerOp :=
  [.createZone "home" "Home", .addEndpointToZone "home" someAddr (.ok (helloFrom "kitchen")),
    .addEndpointToZone "home" someAddr (.ok (helloFrom "office"))]

/-- The kitchen is removed with notice. -/
theorem members_know_peers_notified :
    Along (ZoneManager.step .release) (Informs .release) .new
      (twoMembers ++ [.zone "home" (.removeEndpointAndNotify "kitchen")]) := by
  refine (members_know_peers_iff .release _).mpr ?_
  refine ⟨trivial, fun _ _ _ => ⟨trivial, fun _ _ _ => ⟨trivial, fun _ _ _ => ⟨?_, ?_⟩⟩⟩⟩
  · exact fun z hz => .inl rfl
  · exact fun _ _ _ => trivial

/-- The kitchen is removed through the manager, and the office still counts it
in. -/
theorem kitchen_still_listed :
    ∃ m out z e, run (ZoneManager.step .release) .new
        (twoMembers ++ [.removeEndpointFromZone "home" "kitchen"]) = .ok (m, out) ∧
      m.zones.lookup "home" = some z ∧ z.endpoints.lookup "office" = some e ∧ e.live = true ∧
      e.last memberList = some ("home", ["office", "kitchen"]) ∧ z.endpointIds = ["office"] ∧
      ¬ Agreed m := by
  refine ⟨_, _, _, _, rfl, rfl, rfl, rfl, rfl, rfl, ?_⟩
  intro hagreed
  obtain ⟨ids, hids, hperm⟩ := hagreed "home" _ rfl "office" _ rfl rfl
  obtain rfl : ["office", "kitchen"] = ids := (Prod.mk.inj (Option.some.inj hids)).2
  have hlength := hperm.length_eq
  cases hlength

end Oaat.Zones
