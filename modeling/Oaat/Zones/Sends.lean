/-
Oaat.Zones.Sends — what the members of a zone were told last.

A reading `f` picks some messages out of those written to a member: the levels
of its `VolumeSet`s (`volumeLevel`), or the members that its `ZoneUpdate`s list
(`memberList`). Most operations leave the last of them alone (`Unread`), and
each operation has one lemma that says so, for any reading.
-/
import Oaat.Zones.Zone

namespace Oaat.Zones

open Oaat.Core Oaat.Lib

def volumeLevel : Message → Option UInt8
  | .volumeSet level => some level
  | _ => none

/-- The zone of an update, and the members that it lists. -/
def memberList : Message → Option (String × List String)
  | .zoneUpdate zoneId endpointIds => some (zoneId, endpointIds)
  | _ => none

/-- The last message written to the member that `f` reads. -/
def EndpointEntry.last {α : Type} (f : Message → Option α) (e : EndpointEntry) : Option α :=
  e.sent.reverse.findSome? f

/-- Who still has a connection in `z'` had it in `z`, and was told nothing that
`f` reads. -/
def Unread {α : Type} (f : Message → Option α) (z z' : Zone) : Prop :=
  ∀ id e', z'.endpoints.lookup id = some e' → e'.live = true →
    ∃ e, z.endpoints.lookup id = some e ∧ e.live = true ∧ e'.last f = e.last f

section

variable {α : Type} {f : Message → Option α} {e : EndpointEntry} {msg : Message} {z : Zone}

/-! ## One member -/

@[simp] theorem live_tell (e : EndpointEntry) (msg : Message) : (e.tell msg).live = e.live := by
  unfold EndpointEntry.tell EndpointEntry.sendMessage
  split <;> rfl

theorem sent_tell (hlive : e.live = true) (msg : Message) :
    (e.tell msg).sent = e.sent ++ [msg] := by
  simp [EndpointEntry.tell, EndpointEntry.sendMessage, hlive]

theorem last_tell (hlive : e.live = true) (msg : Message) :
    (e.tell msg).last f = (f msg).or (e.last f) := by
  rw [EndpointEntry.last, sent_tell hlive, List.reverse_append, List.reverse_singleton,
    List.singleton_append, List.findSome?_cons, EndpointEntry.last]
  cases f msg <;> rfl

theorem last_tell_unread (hlive : e.live = true) (hf : f msg = none) :
    (e.tell msg).last f = e.last f := by
  rw [last_tell hlive, hf, Option.none_or]

theorem tellThen_eq (e : EndpointEntry) (msg : Message) (state : EndpointState) :
    e.tellThen msg state = if e.live then { e.tell msg with state } else e := by
  unfold EndpointEntry.tellThen EndpointEntry.tell EndpointEntry.sendMessage
  cases e.live <;> rfl

/-- A member after a message that `f` does not read, or after none. -/
def Same {α : Type} (f : Message → Option α) (e e' : EndpointEntry) : Prop :=
  e'.live = true → e.live = true ∧ e'.last f = e.last f

theorem Same.trans {e₁ e₂ e₃ : EndpointEntry} (h₁ : Same f e₁ e₂) (h₂ : Same f e₂ e₃) :
    Same f e₁ e₃ := by
  intro hlive
  obtain ⟨hlive₂, hlast₂⟩ := h₂ hlive
  obtain ⟨hlive₁, hlast₁⟩ := h₁ hlive₂
  exact ⟨hlive₁, hlast₂.trans hlast₁⟩

theorem same_state (e : EndpointEntry) (state : EndpointState) : Same f e { e with state } :=
  fun hlive => ⟨hlive, rfl⟩

theorem same_tell (hf : f msg = none) (e : EndpointEntry) : Same f e (e.tell msg) := by
  intro hlive
  rw [live_tell] at hlive
  exact ⟨hlive, last_tell_unread hlive hf⟩

theorem same_tellThen (hf : f msg = none) (e : EndpointEntry) (state : EndpointState) :
    Same f e (e.tellThen msg state) := by
  rw [tellThen_eq]
  split
  next => exact (same_tell hf e).trans (same_state _ state)
  next => exact fun hlive => ⟨hlive, rfl⟩

/-! ## All members -/

theorem Unread.refl (f : Message → Option α) (z : Zone) : Unread f z z :=
  fun _ e' h hlive => ⟨e', h, hlive, rfl⟩

theorem lookup_forAll (z : Zone) (g : String → EndpointEntry → EndpointEntry) (id : String) :
    (z.forAll g).endpoints.lookup id = (z.endpoints.lookup id).map (g id) :=
  Table.lookup_visit g z.endpoints id

theorem unread_forAll {g : String → EndpointEntry → EndpointEntry} (hg : ∀ id e, Same f e (g id e))
    {z' : Zone} (hz : z'.endpoints = z.endpoints.visit g) : Unread f z z' := by
  intro id e' h hlive
  rw [hz, Table.lookup_visit] at h
  obtain ⟨e, he, rfl⟩ := Option.map_eq_some_iff.mp h
  exact ⟨e, he, hg id e hlive⟩

theorem unread_tellAll (hf : f msg = none) (z : Zone) : Unread f z (z.tellAll msg) :=
  unread_forAll (fun _ e => same_tell hf e) rfl

theorem unread_setVolumeAll (hf : ∀ level, f (.volumeSet level) = none) (z : Zone)
    (level : UInt8) : Unread f z (z.setVolumeAll level) := by
  have hsame : ∀ id e, Same f e
      (e.tell (.volumeSet ({ z.volume with master := level }.effectiveVolume id))) :=
    fun id e => same_tell (hf _) e
  exact unread_forAll hsame rfl

theorem unread_modify {g : EndpointEntry → EndpointEntry} (hg : ∀ e, Same f e (g e))
    {endpointId : String} {z' : Zone} (hz : z'.endpoints = z.endpoints.modify endpointId g) :
    Unread f z z' := by
  refine unread_forAll (fun id e => ?_) hz
  split
  next => exact hg e
  next => exact fun hlive => ⟨hlive, rfl⟩

/-- Some members leave. -/
theorem unread_of_lookup {z' : Zone}
    (hz : ∀ id e, z'.endpoints.lookup id = some e → z.endpoints.lookup id = some e) :
    Unread f z z' :=
  fun id e' h hlive => ⟨e', hz id e' h, hlive, rfl⟩

theorem unread_erase {endpointId : String} {z' : Zone}
    (hz : z'.endpoints = z.endpoints.erase endpointId) : Unread f z z' := by
  refine unread_of_lookup fun id e h => ?_
  rw [hz] at h
  by_cases hid : id = endpointId
  · subst hid
    simp at h
  · rwa [AList.lookup_erase_ne hid] at h

theorem tellOne_frame (z : Zone) (endpointId : String) (msg : Message) :
    (z.tellOne endpointId msg).2.zoneId = z.zoneId ∧
      (z.tellOne endpointId msg).2.volume = z.volume ∧
      (z.tellOne endpointId msg).2.endpoints.keys = z.endpoints.keys := by
  unfold Zone.tellOne
  split
  next => exact ⟨rfl, rfl, Table.keys_modify _ _ _⟩
  next => exact ⟨rfl, rfl, rfl⟩

theorem lookup_tellOne (z : Zone) (endpointId : String) (msg : Message) (id : String) :
    (z.tellOne endpointId msg).2.endpoints.lookup id =
      if id = endpointId then (z.endpoints.lookup id).map (·.tell msg)
      else z.endpoints.lookup id := by
  unfold Zone.tellOne
  split
  next => exact Table.lookup_modify ..
  next hnone =>
    split
    next hid => rw [hid, hnone, Option.map_none]
    next => rfl

theorem unread_tellOne (hf : f msg = none) (endpointId : String) :
    Unread f z (z.tellOne endpointId msg).2 := by
  unfold Zone.tellOne
  split
  next => exact unread_modify (same_tell hf) rfl
  next => exact .refl f z

theorem unread_removeEndpoint (endpointId : String) :
    Unread f z (z.removeEndpoint endpointId).2.1 := by
  unfold Zone.removeEndpoint
  split
  next => exact unread_erase rfl
  next => exact .refl f z

theorem lookup_pruneDisconnected (z : Zone) (id : String) :
    z.pruneDisconnected.2.endpoints.lookup id =
      if id ∈ z.dead then none else z.endpoints.lookup id :=
  Table.lookup_eraseAll z.dead z.endpoints id

theorem unread_pruneDisconnected (f : Message → Option α) (z : Zone) :
    Unread f z z.pruneDisconnected.2 := by
  refine unread_of_lookup fun id e h => ?_
  rw [lookup_pruneDisconnected] at h
  split at h
  next => cases h
  next => exact h

theorem same_lose (e : EndpointEntry) : Same f e { e with live := false } := nofun

end

/-! ## Joining -/

/-- The update that a new member brings about. -/
def Zone.updateWith (z : Zone) (info : HelloAck) : Message :=
  .zoneUpdate z.zoneId (info.endpointId :: z.endpointIds.erase info.endpointId)

/-- A member that has just joined. -/
def Zone.joined (z : Zone) (addr : SocketAddr) (info : HelloAck) : EndpointEntry :=
  { info, addr, state := .ready, live := true,
    sent := [.zoneAssign z.zoneId info.endpointId, z.updateWith info] }

section

variable {z : Zone} {addr : SocketAddr} {info : HelloAck} {id : String}

/-- The zone with one more member. -/
def Zone.withMember (z : Zone) (addr : SocketAddr) (info : HelloAck) : Zone :=
  (z.addEndpoint addr (.ok info)).2

/-- The entry of an endpoint that has joined, with the stream if there is one;
`none` when its connection was lost before the proposal. -/
def Zone.admits (z : Zone) (addr : SocketAddr) (info : HelloAck) (lost : Bool) :
    Option EndpointEntry :=
  match z.activeStream with
  | none => some (z.joined addr info)
  | some stream =>
    if lost then none
    else some (z.catchUp stream info.endpointId
      ((z.joined addr info).tell (.formatPropose stream.proposal)))

/-- What a join makes of a zone: every other member is sent the update, and the
new one has the entry `entry`. -/
structure Admitted (z : Zone) (info : HelloAck) (entry : Option EndpointEntry) (z' : Zone) :
    Prop where
  zoneId : z'.zoneId = z.zoneId
  volume : z'.volume = z.volume
  lookup : ∀ id, z'.endpoints.lookup id =
    if id = info.endpointId then entry
    else (z.endpoints.lookup id).map (·.tell (z.updateWith info))

theorem withMember_admitted (z : Zone) (addr : SocketAddr) (info : HelloAck) :
    Admitted z info (some (z.joined addr info)) (z.withMember addr info) := by
  refine ⟨rfl, rfl, ?_⟩
  intro id
  show (Table.visit _ (AList.insert _ _ _)).lookup id = _
  rw [Table.lookup_visit]
  split
  next hid =>
    subst hid
    rw [AList.lookup_insert]
    simp [EndpointEntry.tell, EndpointEntry.sendMessage, Zone.joined, Zone.updateWith,
      Zone.endpointIds]
  next hid =>
    rw [AList.lookup_insert_ne hid]
    simp [Zone.updateWith, Zone.endpointIds]

/-- Without a stream, a late join is a join. -/
theorem joinActive_idle (h : z.activeStream = none) (lost : Bool) :
    z.joinActive addr (.ok info) lost = .ok (.ok info.endpointId, z.withMember addr info) := by
  have hz : (z.withMember addr info).activeStream = none := h
  show (match (z.withMember addr info).activeStream with | none => _ | some stream => _) = _
  simp only [hz]
  rfl

theorem joinActive_stream {stream : ActiveStream} (h : z.activeStream = some stream)
    (lost : Bool) :
    z.joinActive addr (.ok info) lost =
      (if lost then (z.withMember addr info).lose info.endpointId
        else z.withMember addr info).catchUpWith stream info.endpointId := by
  have hz : (z.withMember addr info).activeStream = some stream := h
  show (match (z.withMember addr info).activeStream with | none => _ | some stream => _) = _
  simp only [hz]
  rfl

theorem catchUpWith_lost (stream : ActiveStream) {e : EndpointEntry}
    (h : z.endpoints.lookup id = some e) (hlive : e.live = false) :
    ∃ err, z.catchUpWith stream id =
      .ok (.error err, { z with endpoints := z.endpoints.erase id }) := by
  refine ⟨.io "broken pipe", ?_⟩
  simp [Zone.catchUpWith, h, EndpointEntry.sendMessage, hlive]

theorem catchUpWith_live {stream : ActiveStream} {e : EndpointEntry}
    (h : z.endpoints.lookup id = some e) (hlive : e.live = true) :
    z.catchUpWith stream id =
      .ok (.ok id, { z with
        endpoints := z.endpoints.insert id
          (z.catchUp stream id (e.tell (.formatPropose stream.proposal))) }) := by
  simp [Zone.catchUpWith, h, EndpointEntry.tell, EndpointEntry.sendMessage, hlive]

theorem live_catchUp (z : Zone) (stream : ActiveStream) (id : String) (e : EndpointEntry) :
    (z.catchUp stream id e).live = e.live := by
  unfold Zone.catchUp
  cases stream.metadata <;> cases stream.playing <;> simp

/-- **A late join** never panics. -/
theorem joinActive_admitted (z : Zone) (addr : SocketAddr) (info : HelloAck) (lost : Bool) :
    ∃ r z', z.joinActive addr (.ok info) lost = .ok (r, z') ∧
      Admitted z info (z.admits addr info lost) z' := by
  have hmember := withMember_admitted z addr info
  have hnew : (z.withMember addr info).endpoints.lookup info.endpointId =
      some (z.joined addr info) := by
    rw [hmember.lookup, if_pos rfl]
  cases hstream : z.activeStream with
  | none =>
    rw [Zone.admits, hstream]
    exact ⟨_, _, joinActive_idle hstream lost, hmember⟩
  | some stream =>
    rw [Zone.admits, hstream, joinActive_stream hstream]
    cases lost with
    | true =>
      have hlook : ((z.withMember addr info).lose info.endpointId).endpoints.lookup
          info.endpointId = some { z.joined addr info with live := false } := by
        show (Table.modify _ _ _).lookup _ = _
        rw [Table.lookup_modify_self, hnew]
        rfl
      obtain ⟨err, hjoin⟩ := catchUpWith_lost stream hlook rfl
      refine ⟨_, _, hjoin, rfl, rfl, ?_⟩
      intro id
      show (AList.erase _ (Table.modify _ _ _)).lookup id = _
      by_cases hid : id = info.endpointId
      · rw [if_pos hid, hid, AList.lookup_erase]
        rfl
      · rw [AList.lookup_erase_ne hid, Table.lookup_modify, if_neg hid, hmember.lookup, if_neg hid,
          if_neg hid]
    | false =>
      refine ⟨_, _, catchUpWith_live hnew rfl, rfl, rfl, ?_⟩
      intro id
      show ((z.withMember addr info).endpoints.insert _ _).lookup id = _
      by_cases hid : id = info.endpointId
      · rw [if_pos hid, hid, AList.lookup_insert]
        rfl
      · rw [AList.lookup_insert_ne hid, hmember.lookup, if_neg hid, if_neg hid]

/-! ## Steps that return -/

variable {build : Build} {z' : Zone} {out : List Message}

/-- A late join, whatever comes of it. -/
theorem step_joinActive {lost : Bool}
    (hstep : z.step build (.joinActive addr (.ok info) lost) = .ok (z', out)) :
    Admitted z info (z.admits addr info lost) z' := by
  obtain ⟨r, z₁, hjoin, hadmitted⟩ := joinActive_admitted z addr info lost
  have hz : z.step build (.joinActive addr (.ok info) lost) = .ok (z₁, []) :=
    bind_of_ok _ hjoin
  rw [hz] at hstep
  cases hstep
  exact hadmitted

theorem step_setVolumeEndpoint {endpointId : String} {level : UInt8}
    (hstep : z.step build (.setVolumeEndpoint endpointId level) = .ok (z', out)) :
    ∃ offset, build.i8 (z.offsetFor level) = .ok offset ∧
      z' = ((z.setOffset endpointId offset).tellOne endpointId (.volumeSet level)).2 := by
  obtain ⟨r, hset, hret⟩ := bind_eq_ok.mp hstep
  obtain ⟨offset, hoffset, hr⟩ := bind_eq_ok.mp hset
  cases hr
  cases hret
  exact ⟨offset, hoffset, rfl⟩

end

end Oaat.Zones
