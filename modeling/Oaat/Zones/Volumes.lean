/-
Oaat.Zones.Volumes — the levels that a zone's members have been sent.

Every member should have been sent its effective volume (`Told`), whatever the
order of joins and volume changes. Two things come in the way. A member that
joins without a stream is sent no level. And the offset of a level is taken
between two bytes read as `i8`, and the level itself is sent without a clamp,
so a level above 100 or a master above 127 does not come back as it was asked
for. The main theorem says that there is nothing else.
-/
import Oaat.Zones.Sends

namespace Oaat.Zones

open Oaat.Core Oaat.Lib

/-- Every member with a connection was last sent its effective volume. -/
def Told (z : Zone) : Prop :=
  ∀ id e, z.endpoints.lookup id = some e → e.live = true →
    e.last volumeLevel = some (z.volume.effectiveVolume id)

/-- No arithmetic of the operation overflows. -/
def Fits (z : Zone) : Op → Prop
  | .setVolumeEndpoint _ level => InI8 (z.offsetFor level)
  | _ => True

/-- The operation leaves the offset of an endpoint as it is. -/
def keepsOffset (endpointId : String) : Op → Bool
  | .setVolumeEndpoint id _ | .setVolumeOffset id _ | .removeEndpoint id
  | .removeEndpointAndNotify id => id ≠ endpointId
  | .pruneDisconnected => false
  | _ => true

/-- Every later `set_volume_all` gives the endpoint the master's level plus
`delta`. -/
def Follows (build : Build) (z : Zone) (endpointId : String) (delta : Int) : Prop :=
  ∀ between level w log, (∀ op ∈ between, keepsOffset endpointId op = true) →
    run (Zone.step build) z (between ++ [.setVolumeAll level]) = .ok (w, log) →
    w.volume.effectiveVolume endpointId = VolumeMap.clampLevel (level.toNat + delta) ∧
      ∀ e, w.endpoints.lookup endpointId = some e → e.live = true →
        e.last volumeLevel = some (VolumeMap.clampLevel (level.toNat + delta))

/-- What is promised of a level that was set for one endpoint. -/
def Balanced (build : Build) (z : Zone) : Op → Zone → Prop
  | .setVolumeEndpoint endpointId level, z' =>
    Follows build z' endpointId (min level.toNat 100 - z.volume.master.toNat)
  | _, _ => True

/-- What an operation should do: nothing overflows, and afterwards every member
has been told its level. -/
def Meets (build : Build) (z : Zone) (op : Op) : Prop :=
  Fits z op ∧ ∀ z' out, z.step build op = .ok (z', out) → Told z' ∧ Balanced build z op z'

def Zone.isLive (z : Zone) (endpointId : String) : Bool :=
  (z.endpoints.lookup endpointId).any (·.live)

/-- Endpoints join a stream; levels are at most 100, and set under a master of at
most 127. (Under a master of 0, a level of at most 127 is as good as 100 for an
endpoint that is not sent it.) -/
def Levelled (z : Zone) : Op → Prop
  | .addEndpoint _ (.ok _) => False
  | .joinActive _ (.ok _) _ => z.activeStream.isSome
  | .setVolumeEndpoint endpointId level =>
    level ≤ 100 ∧ z.volume.master ≤ 127 ∨
      level ≤ 127 ∧ z.volume.master = 0 ∧ z.isLive endpointId = false
  | _ => True

instance (z : Zone) : ∀ op, Decidable (Levelled z op)
  | .addEndpoint _ (.ok _) => inferInstanceAs (Decidable False)
  | .joinActive _ (.ok _) _ => inferInstanceAs (Decidable (_ = true))
  | .setVolumeEndpoint _ _ => inferInstanceAs (Decidable (_ ∨ _))
  | .addEndpoint _ (.error _) | .joinActive _ (.error _) _ | .removeEndpoint _
  | .removeEndpointAndNotify _ | .markDegraded _ | .markDisconnected _ | .pruneDisconnected
  | .proposeFormatAll .. | .sendMetadataAll _ | .playAll _ | .stopAll _ | .setVolumeAll _
  | .setVolumeOffset _ _ | .setMuteAll _ | .setMuteEndpoint _ _ | .lost _ => .isTrue trivial

section

variable {build : Build} {z z' : Zone} {endpointId : String} {level : UInt8} {op : Op}
  {out : List Message}

/-! ## Levels -/

theorem toInt_toInt8 (x : UInt8) :
    x.toInt8.toInt = if x.toNat < 128 then (x.toNat : Int) else x.toNat - 256 := by
  show x.toBitVec.toInt = _
  rw [BitVec.toInt_eq_toNat_cond]
  simp only [UInt8.toNat_toBitVec]
  split <;> split <;> omega

theorem toNat_clampLevel (v : Int) :
    (VolumeMap.clampLevel v).toNat = (max 0 (min v 100)).toNat := by
  rw [VolumeMap.clampLevel, UInt8.toNat_ofNat_of_lt']
  simp only [UInt8.size]
  omega

theorem clampLevel_eq_iff {v w : Int} :
    VolumeMap.clampLevel v = VolumeMap.clampLevel w ↔ max 0 (min v 100) = max 0 (min w 100) := by
  rw [← UInt8.toNat_inj, toNat_clampLevel, toNat_clampLevel]
  omega

theorem eq_clampLevel_iff {x : UInt8} {v : Int} :
    x = VolumeMap.clampLevel v ↔ (x.toNat : Int) = max 0 (min v 100) := by
  rw [← UInt8.toNat_inj, toNat_clampLevel]
  omega

/-- The byte read as an `i8`. -/
def signed (n : Nat) : Int := if n < 128 then n else n - 256

/-- Over the numbers: with the offset `signed l - signed m`, the level `l` comes
back at every master, and is what was sent, exactly when it and the master are
in range. -/
theorem in_range_iff {l m : Nat} (hl : l < 256) (hm : m < 256) (live : Bool) :
    (InI8 (signed l - signed m) ∧
      (∀ x : Nat, x < 256 → max 0 (min (x + (signed l - signed m)) 100) =
        max 0 (min (x + ((min l 100 : Nat) - (m : Int))) 100)) ∧
      (live = true → (l : Int) = max 0 (min (m + (signed l - signed m)) 100))) ↔
    (l ≤ 100 ∧ m ≤ 127 ∨ l ≤ 127 ∧ m = 0 ∧ live = false) := by
  unfold InI8 signed
  constructor
  · rintro ⟨⟨hlow, hhigh⟩, hback, hsent⟩
    -- the masters that tell: none, the same, and one below
    have hzero := hback 0 (by omega)
    have hsame := hback m hm
    have hbelow := hback (m - 1) (by omega)
    cases live with
    | true =>
      have hequal := hsent rfl
      left
      constructor <;> split at * <;> split at * <;> omega
    | false =>
      by_cases h100 : l ≤ 100
      · left
        refine ⟨h100, ?_⟩
        split at * <;> split at * <;> omega
      · right
        refine ⟨?_, ?_, rfl⟩ <;> split at * <;> split at * <;> omega
  · intro hrange
    have hlow : l < 128 := by omega
    have hmaster : m < 128 := by omega
    simp only [if_pos hlow, if_pos hmaster]
    refine ⟨by omega, ?_, ?_⟩
    · intro x _
      omega
    · intro hlive
      rw [hlive] at hrange
      simp only [Bool.true_eq_false, and_false, or_false] at hrange
      omega

/-- The same of the zone's own bytes. -/
theorem level_iff (z : Zone) (level : UInt8) (live : Bool) :
    (InI8 (z.offsetFor level) ∧
      (∀ m : UInt8, VolumeMap.clampLevel (m.toNat + z.offsetFor level) =
        VolumeMap.clampLevel (m.toNat + (min level.toNat 100 - z.volume.master.toNat))) ∧
      (live = true → level = VolumeMap.clampLevel (z.volume.master.toNat + z.offsetFor level))) ↔
    (level ≤ 100 ∧ z.volume.master ≤ 127 ∨
      level ≤ 127 ∧ z.volume.master = 0 ∧ live = false) := by
  have hoffset : z.offsetFor level = signed level.toNat - signed z.volume.master.toNat := by
    rw [Zone.offsetFor, toInt_toInt8, toInt_toInt8, signed, signed]
  have hbytes : (level ≤ 100 ∧ z.volume.master ≤ 127 ∨
      level ≤ 127 ∧ z.volume.master = 0 ∧ live = false) ↔
      (level.toNat ≤ 100 ∧ z.volume.master.toNat ≤ 127 ∨
        level.toNat ≤ 127 ∧ z.volume.master.toNat = 0 ∧ live = false) := by
    rw [UInt8.le_iff_toNat_le, UInt8.le_iff_toNat_le, UInt8.le_iff_toNat_le, ← UInt8.toNat_inj]
    rfl
  rw [hbytes, ← in_range_iff level.toNat_lt z.volume.master.toNat_lt live, hoffset]
  refine and_congr_right fun _ => and_congr ?_ (imp_congr_right fun _ => eq_clampLevel_iff)
  constructor
  · intro hall x hx
    have hback := clampLevel_eq_iff.mp (hall (.ofNat x))
    rwa [UInt8.toNat_ofNat_of_lt' hx] at hback
  · intro hall m
    exact clampLevel_eq_iff.mpr (hall m.toNat m.toNat_lt)

/-! ## Offsets -/

theorem offset_setOffset (z : Zone) (endpointId id : String) (offset : Int8) :
    (z.setOffset endpointId offset).volume.offset id =
      if id = endpointId then offset else z.volume.offset id := by
  show ((AList.insert _ _ _).lookup id).getD 0 = _
  split
  next hid => rw [hid, AList.lookup_insert, Option.getD_some]
  next hid =>
    rw [AList.lookup_insert_ne hid]
    rfl

theorem offset_removeEndpoint {id : String} (hid : id ≠ endpointId) :
    (z.removeEndpoint endpointId).2.1.volume.offset id = z.volume.offset id := by
  unfold Zone.removeEndpoint
  split
  next =>
    show ((AList.erase _ _).lookup id).getD 0 = _
    rw [AList.lookup_erase_ne hid]
    rfl
  next => rfl

theorem removeEndpointAndNotify_volume (z : Zone) (endpointId : String) :
    (z.removeEndpointAndNotify endpointId).2.1.volume =
      (z.removeEndpoint endpointId).2.1.volume := by
  unfold Zone.removeEndpointAndNotify
  split
  next h => rw [h]; rfl
  next h => rw [h]

theorem step_offset {id : String} (hkeeps : keepsOffset id op = true)
    (hstep : z.step build op = .ok (z', out)) : z'.volume.offset id = z.volume.offset id := by
  cases op with
  | addEndpoint addr outcome =>
    cases hstep
    cases outcome <;> rfl
  | joinActive addr outcome lost =>
    cases outcome with
    | error e => cases hstep; rfl
    | ok info => rw [(step_joinActive hstep).volume]
  | removeEndpoint endpointId =>
    have hid : endpointId ≠ id := by simpa [keepsOffset] using hkeeps
    obtain rfl : (z.removeEndpoint endpointId).2.1 = z' :=
      congrArg Prod.fst (Except.ok.inj hstep)
    exact offset_removeEndpoint hid.symm
  | removeEndpointAndNotify endpointId =>
    have hid : endpointId ≠ id := by simpa [keepsOffset] using hkeeps
    obtain rfl : (z.removeEndpointAndNotify endpointId).2.1 = z' :=
      congrArg Prod.fst (Except.ok.inj hstep)
    rw [removeEndpointAndNotify_volume]
    exact offset_removeEndpoint hid.symm
  | setVolumeEndpoint endpointId level =>
    have hid : endpointId ≠ id := by simpa [keepsOffset] using hkeeps
    obtain ⟨offset, -, rfl⟩ := step_setVolumeEndpoint hstep
    rw [(tellOne_frame _ _ _).2.1, offset_setOffset, if_neg hid.symm]
  | setVolumeOffset endpointId offset =>
    have hid : endpointId ≠ id := by simpa [keepsOffset] using hkeeps
    cases hstep
    show ((z.setOffset endpointId offset).tellOne endpointId _).2.volume.offset id = _
    rw [(tellOne_frame _ _ _).2.1, offset_setOffset, if_neg hid.symm]
  | setMuteEndpoint endpointId muted =>
    cases hstep
    show (z.tellOne endpointId _).2.volume.offset id = _
    rw [(tellOne_frame _ _ _).2.1]
  | pruneDisconnected => cases hkeeps
  | markDegraded | markDisconnected | proposeFormatAll | sendMetadataAll | playAll | stopAll
  | setVolumeAll | setMuteAll | lost =>
    cases hstep
    rfl

theorem run_offset {id : String} {ops : List Op} (hkeeps : ∀ op ∈ ops, keepsOffset id op = true)
    (hrun : run (Zone.step build) z ops = .ok (z', out)) :
    z'.volume.offset id = z.volume.offset id := by
  have hstep : ∀ (w : Zone) op w' o, w.volume.offset id = z.volume.offset id →
      keepsOffset id op = true → w.step build op = .ok (w', o) →
      w'.volume.offset id = z.volume.offset id ∧ ∀ x ∈ o, True :=
    fun w op w' o hw hop hs => ⟨(step_offset hop hs).trans hw, fun _ _ => trivial⟩
  exact (run_keeps hstep rfl (along_of_forall fun op hop _ => hkeeps op hop) hrun).1

/-! ## What the members are told -/

theorem told_setVolumeAll (z : Zone) (level : UInt8) : Told (z.setVolumeAll level) := by
  intro id e he hlive
  unfold Zone.setVolumeAll at he
  rw [lookup_forAll] at he
  obtain ⟨e₀, -, rfl⟩ := Option.map_eq_some_iff.mp he
  rw [live_tell] at hlive
  rw [last_tell hlive]
  rfl

/-- A later `set_volume_all` adds the offset to the master. -/
theorem follows_iff (build : Build) (z : Zone) (endpointId : String) (delta : Int) :
    Follows build z endpointId delta ↔
      ∀ m : UInt8, VolumeMap.clampLevel (m.toNat + (z.volume.offset endpointId).toInt) =
        VolumeMap.clampLevel (m.toNat + delta) := by
  constructor
  · intro hfollows m
    exact (hfollows [] m (z.setVolumeAll m) [] (by simp) rfl).1
  · intro hall between m w log hkeeps hrun
    obtain ⟨z₁, o₁, o₂, hbetween, hlast, -⟩ := run_append_inv hrun
    obtain ⟨w', o, os, hset, hnil, -⟩ := run_cons_inv hlast
    cases hset
    cases hnil
    have heff : (z₁.setVolumeAll m).volume.effectiveVolume endpointId =
        VolumeMap.clampLevel (m.toNat + delta) := by
      rw [← hall m, ← run_offset hkeeps hbetween]
      rfl
    refine ⟨heff, ?_⟩
    intro e he hlive
    rw [told_setVolumeAll z₁ m endpointId e he hlive, heff]

theorem Told.of_unread (h : Told z) (hu : Unread volumeLevel z z')
    (hv : ∀ id e, z'.endpoints.lookup id = some e →
      z'.volume.effectiveVolume id = z.volume.effectiveVolume id) : Told z' := by
  intro id e' he' hlive'
  obtain ⟨e, he, hlive, hlast⟩ := hu id e' he' hlive'
  rw [hlast, h id e he hlive, hv id e' he']

/-- One endpoint gets a new offset, and is sent a level. -/
theorem told_setOffset_iff (h : Told z) (endpointId : String) (offset : Int8) (level : UInt8) :
    Told ((z.setOffset endpointId offset).tellOne endpointId (.volumeSet level)).2 ↔
      (z.isLive endpointId = true →
        level = (z.setOffset endpointId offset).volume.effectiveVolume endpointId) := by
  have hlook := lookup_tellOne (z.setOffset endpointId offset) endpointId (.volumeSet level)
  have hvol := (tellOne_frame (z.setOffset endpointId offset) endpointId (.volumeSet level)).2.1
  constructor
  · intro htold hlive
    cases he : z.endpoints.lookup endpointId with
    | none => simp [Zone.isLive, he] at hlive
    | some e =>
      have hl : e.live = true := by simpa [Zone.isLive, he] using hlive
      have hnew := htold endpointId (e.tell (.volumeSet level))
        (by rw [hlook, if_pos rfl]; exact congrArg _ he) (by rwa [live_tell])
      rw [last_tell hl, hvol] at hnew
      exact Option.some.inj hnew
  · intro hsent id e' he' hlive'
    rw [hlook] at he'
    rw [hvol]
    split at he'
    next hid =>
      subst hid
      obtain ⟨e, he, rfl⟩ := Option.map_eq_some_iff.mp he'
      rw [live_tell] at hlive'
      have he : z.endpoints.lookup id = some e := he
      rw [last_tell hlive', ← hsent (by simp [Zone.isLive, he, hlive'])]
      rfl
    next hid =>
      rw [h id e' he' hlive']
      show some (VolumeMap.clampLevel (_ + (z.volume.offset id).toInt)) =
        some (VolumeMap.clampLevel (_ + ((z.setOffset endpointId offset).volume.offset id).toInt))
      rw [offset_setOffset, if_neg hid]
      rfl

theorem last_catchUp {stream : ActiveStream} {id : String} {e : EndpointEntry}
    (hlive : e.live = true) :
    (z.catchUp stream id e).last volumeLevel = some (z.volume.effectiveVolume id) := by
  have htold : ∀ e : EndpointEntry, e.live = true →
      (e.tell (.volumeSet (z.volume.effectiveVolume id))).last volumeLevel =
        some (z.volume.effectiveVolume id) := by
    intro e hl
    rw [last_tell hl]
    rfl
  unfold Zone.catchUp
  cases stream.metadata with
  | none =>
    cases stream.playing with
    | false => exact htold e hlive
    | true =>
      exact (last_tell_unread (by rwa [live_tell]) rfl).trans (htold e hlive)
  | some track =>
    have hlive' : (e.tell (.metadata track)).live = true := by rwa [live_tell]
    cases stream.playing with
    | false => exact htold _ hlive'
    | true => exact (last_tell_unread (by rwa [live_tell]) rfl).trans (htold _ hlive')

/-- After a join, only the new member is in question. -/
theorem told_admitted_iff (h : Told z) {info : HelloAck} {entry : Option EndpointEntry}
    (hadmitted : Admitted z info entry z') :
    Told z' ↔ ∀ e, entry = some e → e.live = true →
      e.last volumeLevel = some (z.volume.effectiveVolume info.endpointId) := by
  constructor
  · intro htold e hentry hlive
    rw [← hadmitted.volume]
    refine htold info.endpointId e ?_ hlive
    rw [hadmitted.lookup, if_pos rfl, hentry]
  · intro hnew id e' he' hlive'
    rw [hadmitted.lookup] at he'
    rw [hadmitted.volume]
    split at he'
    next hid =>
      rw [hid]
      exact hnew e' he' hlive'
    next =>
      obtain ⟨e, he, rfl⟩ := Option.map_eq_some_iff.mp he'
      rw [live_tell] at hlive'
      rw [last_tell_unread hlive' rfl]
      exact h id e he hlive'

/-- A member that joins outside a stream has been sent no level. -/
theorem last_joined (z : Zone) (addr : SocketAddr) (info : HelloAck) :
    (z.joined addr info).last volumeLevel = none := rfl

theorem told_withMember (h : Told z) (addr : SocketAddr) (info : HelloAck) :
    ¬ Told (z.withMember addr info) := by
  rw [told_admitted_iff h (withMember_admitted z addr info)]
  intro hnew
  have := hnew _ rfl rfl
  rw [last_joined] at this
  cases this

theorem told_joinActive_iff (h : Told z) {addr : SocketAddr} {info : HelloAck} {lost : Bool}
    (hadmitted : Admitted z info (z.admits addr info lost) z') :
    Told z' ↔ z.activeStream.isSome := by
  rw [told_admitted_iff h hadmitted]
  unfold Zone.admits
  cases z.activeStream with
  | none =>
    refine iff_of_false ?_ (by simp)
    intro hnew
    have := hnew _ rfl rfl
    rw [last_joined] at this
    cases this
  | some stream =>
    refine iff_of_true ?_ rfl
    intro e he hlive
    dsimp only at he
    split at he
    next => cases he
    next =>
      cases he
      rw [live_catchUp] at hlive
      exact last_catchUp hlive

/-- The endpoint that leaves takes only its own offset along. -/
theorem told_removeEndpoint (h : Told z) (endpointId : String) :
    Told (z.removeEndpoint endpointId).2.1 := by
  refine h.of_unread (unread_removeEndpoint endpointId) ?_
  intro id e he
  have hmaster : (z.removeEndpoint endpointId).2.1.volume.master = z.volume.master := by
    unfold Zone.removeEndpoint
    split <;> rfl
  have hid : id ≠ endpointId ∨ z.removeEndpoint endpointId = (false, z, []) := by
    unfold Zone.removeEndpoint at he ⊢
    split
    next e₁ he₁ =>
      left
      rintro rfl
      simp [he₁] at he
    next => exact .inr rfl
  rcases hid with hid | hnone
  · rw [VolumeMap.effectiveVolume, hmaster, offset_removeEndpoint hid]
    rfl
  · rw [hnone]

theorem told_pruneDisconnected (h : Told z) : Told z.pruneDisconnected.2 := by
  refine h.of_unread (unread_pruneDisconnected _ z) ?_
  intro id e he
  rw [lookup_pruneDisconnected] at he
  split at he
  next => cases he
  next hid =>
    have hoffset : z.pruneDisconnected.2.volume.offset id = z.volume.offset id := by
      show ((Table.eraseAll _ _).lookup id).getD 0 = _
      rw [Table.lookup_eraseAll, if_neg hid]
      rfl
    rw [VolumeMap.effectiveVolume, hoffset]
    rfl

theorem told_removeEndpointAndNotify (h : Told z) (endpointId : String) :
    Told (z.removeEndpointAndNotify endpointId).2.1 := by
  have hremoved := told_removeEndpoint h endpointId
  unfold Zone.removeEndpointAndNotify
  split
  next z₁ goodbye hz =>
    rw [hz] at hremoved
    exact hremoved.of_unread (unread_tellAll rfl _) fun _ _ _ => rfl
  next z₁ goodbye hz =>
    rw [hz] at hremoved
    exact hremoved

/-- **A level for one endpoint.** -/
theorem meets_setVolumeEndpoint_iff (h : Told z) :
    Meets build z (.setVolumeEndpoint endpointId level) ↔
      Levelled z (.setVolumeEndpoint endpointId level) := by
  -- what the step does, when the offset fits
  have hstep : InI8 (z.offsetFor level) →
      z.step build (.setVolumeEndpoint endpointId level) =
        .ok (((z.setOffset endpointId (.ofInt (z.offsetFor level))).tellOne endpointId
          (.volumeSet level)).2, []) := by
    intro hfits
    exact bind_of_ok _ (bind_of_ok _ (build.i8_of_fits hfits))
  have hafter : ∀ hfits : InI8 (z.offsetFor level),
      ((∀ z' out, z.step build (.setVolumeEndpoint endpointId level) = .ok (z', out) →
        Told z' ∧ Balanced build z (.setVolumeEndpoint endpointId level) z') ↔
      (∀ m : UInt8, VolumeMap.clampLevel (m.toNat + z.offsetFor level) =
        VolumeMap.clampLevel (m.toNat + (min level.toNat 100 - z.volume.master.toNat))) ∧
      (z.isLive endpointId = true →
        level = VolumeMap.clampLevel (z.volume.master.toNat + z.offsetFor level))) := by
    intro hfits
    have hoffset : ((z.setOffset endpointId (.ofInt (z.offsetFor level))).volume.offset
        endpointId).toInt = z.offsetFor level := by
      rw [offset_setOffset, if_pos rfl, Int8.toInt_ofInt_of_le hfits.1 hfits.2]
    have htold := told_setOffset_iff h endpointId (.ofInt (z.offsetFor level)) level
    rw [VolumeMap.effectiveVolume, hoffset] at htold
    have hfollows := follows_iff build
      ((z.setOffset endpointId (.ofInt (z.offsetFor level))).tellOne endpointId
        (.volumeSet level)).2 endpointId (min level.toNat 100 - z.volume.master.toNat)
    rw [(tellOne_frame _ _ _).2.1, hoffset] at hfollows
    constructor
    · intro hall
      obtain ⟨ht, hb⟩ := hall _ _ (hstep hfits)
      exact ⟨hfollows.mp hb, htold.mp ht⟩
    · rintro ⟨hback, hsent⟩ z' out hz'
      rw [hstep hfits] at hz'
      cases hz'
      exact ⟨htold.mpr hsent, hfollows.mpr hback⟩
  exact (and_congr_right hafter).trans (level_iff z level (z.isLive endpointId))

theorem meets_of_step {z₁ : Zone} {out₁ : List Message}
    (hstep : z.step build op = .ok (z₁, out₁)) (hfits : Fits z op)
    (hbalanced : Balanced build z op z₁) (htold : Told z₁) : Meets build z op := by
  refine ⟨hfits, ?_⟩
  intro z' out hz'
  rw [hstep] at hz'
  cases hz'
  exact ⟨htold, hbalanced⟩

/-- **One operation.** -/
theorem meets_iff (h : Told z) : Meets build z op ↔ Levelled z op := by
  have hquiet : ∀ z', Unread volumeLevel z z' → z'.volume = z.volume → Told z' := by
    intro z' hu hv
    exact h.of_unread hu fun id e he => by rw [hv]
  cases op with
  | addEndpoint addr outcome =>
    cases outcome with
    | error e => exact iff_of_true (meets_of_step rfl trivial trivial h) trivial
    | ok info =>
      refine iff_of_false ?_ id
      intro hmeets
      exact told_withMember h addr info (hmeets.2 _ _ rfl).1
  | joinActive addr outcome lost =>
    cases outcome with
    | error e => exact iff_of_true (meets_of_step rfl trivial trivial h) trivial
    | ok info =>
      obtain ⟨r, z₁, hjoin, hadmitted⟩ := joinActive_admitted z addr info lost
      have hz : z.step build (.joinActive addr (.ok info) lost) = .ok (z₁, []) :=
        bind_of_ok _ hjoin
      constructor
      · intro hmeets
        exact (told_joinActive_iff h hadmitted).mp (hmeets.2 _ _ hz).1
      · intro hsome
        exact meets_of_step hz trivial trivial ((told_joinActive_iff h hadmitted).mpr hsome)
  | setVolumeEndpoint endpointId level => exact meets_setVolumeEndpoint_iff h
  | setVolumeOffset endpointId offset =>
    refine iff_of_true (meets_of_step rfl trivial trivial ?_) trivial
    exact (told_setOffset_iff h endpointId offset _).mpr fun _ => rfl
  | setVolumeAll level =>
    exact iff_of_true (meets_of_step rfl trivial trivial (told_setVolumeAll z level)) trivial
  | removeEndpoint endpointId =>
    exact iff_of_true (meets_of_step rfl trivial trivial (told_removeEndpoint h endpointId)) trivial
  | removeEndpointAndNotify endpointId =>
    refine iff_of_true (meets_of_step rfl trivial trivial ?_) trivial
    exact told_removeEndpointAndNotify h endpointId
  | pruneDisconnected =>
    exact iff_of_true (meets_of_step rfl trivial trivial (told_pruneDisconnected h)) trivial
  | markDegraded endpointId | markDisconnected endpointId =>
    refine iff_of_true (meets_of_step rfl trivial trivial ?_) trivial
    exact hquiet _ (unread_modify (fun e => same_state e _) rfl) rfl
  | proposeFormatAll | sendMetadataAll | setMuteAll =>
    refine iff_of_true (meets_of_step rfl trivial trivial ?_) trivial
    exact hquiet _ (unread_tellAll rfl _) rfl
  | playAll | stopAll =>
    refine iff_of_true (meets_of_step rfl trivial trivial ?_) trivial
    exact hquiet _ (unread_forAll (fun _ e => same_tellThen rfl e _) rfl) rfl
  | setMuteEndpoint endpointId muted =>
    refine iff_of_true (meets_of_step rfl trivial trivial ?_) trivial
    exact hquiet _ (unread_tellOne rfl endpointId) (tellOne_frame z endpointId _).2.1
  | lost endpointId =>
    refine iff_of_true (meets_of_step rfl trivial trivial ?_) trivial
    exact hquiet _ (unread_modify same_lose rfl) rfl

/-- An operation returns, when nothing overflows. -/
theorem step_returns (hfits : Fits z op) : ∃ r, z.step build op = .ok r := by
  cases op with
  | joinActive addr outcome lost =>
    cases outcome with
    | error e => exact ⟨_, rfl⟩
    | ok info =>
      obtain ⟨r, z₁, hjoin, -⟩ := joinActive_admitted z addr info lost
      exact ⟨_, bind_of_ok _ hjoin⟩
  | setVolumeEndpoint endpointId level =>
    exact ⟨_, bind_of_ok _ (bind_of_ok _ (build.i8_of_fits hfits))⟩
  | _ => exact ⟨_, rfl⟩

end

/-! ## Every run -/

theorem told_new (zoneId : String) : Told (.new zoneId) := by
  intro id e he
  cases he

/-- **Zone volumes reach the endpoints**, exactly when endpoints only join a
stream, and levels for one endpoint are at most 100 and set under a master of at
most 127: then, and only then, every operation of the run returns without an
overflow and leaves every member at its effective volume, and a level set for
one endpoint follows the master. -/
theorem volumes_reach_iff (build : Build) (zoneId : String) (ops : List Op) :
    ((∃ r, run (Zone.step build) (.new zoneId) ops = .ok r) ∧
      Along (Zone.step build) (Meets build) (.new zoneId) ops) ↔
    Along (Zone.step build) Levelled (.new zoneId) ops := by
  have hiff : ∀ z op, Told z → (Meets build z op ↔ Levelled z op) := fun z op h => meets_iff h
  have hkeep : ∀ z op z' out, Told z → Meets build z op → z.step build op = .ok (z', out) →
      Told z' := fun z op z' out _ hmeets hstep => (hmeets.2 z' out hstep).1
  have hreturns : ∀ z op, Meets build z op → ∃ r, z.step build op = .ok r :=
    fun z op hmeets => step_returns hmeets.1
  rw [← along_congr hiff hkeep (told_new zoneId)]
  exact and_iff_right_of_imp (run_ok_of_along hreturns)

def proposes : Op := .proposeFormatAll "s" .pcmS16le 48000 2 .stereo 16

/-- The kitchen joins the stream, is set to 60 under a master of 80, and follows
the master. -/
def kitchenJoins : List Op :=
  [proposes, .setVolumeAll 80, .joinActive someAddr (.ok (helloFrom "kitchen")) false,
    .setVolumeEndpoint "kitchen" 60, .playAll "s", .setVolumeAll 90]

theorem volumes_reach_kitchen :
    (run (Zone.step .debug) (.new "home") kitchenJoins).map
      (fun r => (r.1.endpoints.lookup "kitchen").map (·.last volumeLevel)) = .ok (some (some 70)) ∧
    Along (Zone.step .debug) (Meets .debug) (.new "home") kitchenJoins := by
  refine ⟨by decide +kernel, ?_⟩
  have hlevelled : Along (Zone.step .debug) Levelled (.new "home") kitchenJoins := by
    decide +kernel
  exact ((volumes_reach_iff .debug "home" kitchenJoins).mpr hlevelled).2

/-- An endpoint that joins while nothing plays is sent no level; a level of 120 is
sent as it is, at an effective volume of 100; and a level of 100 under a master
of 200 overflows. -/
theorem volumes_missed :
    (∃ z e, run (Zone.step .release) (.new "home")
        [.addEndpoint someAddr (.ok (helloFrom "kitchen"))] = .ok (z, []) ∧
      z.endpoints.lookup "kitchen" = some e ∧ e.live = true ∧
      e.last volumeLevel = none ∧ z.volume.effectiveVolume "kitchen" = 100) ∧
    (∃ z e, run (Zone.step .release) (.new "home")
        [proposes, .joinActive someAddr (.ok (helloFrom "kitchen")) false,
          .setVolumeEndpoint "kitchen" 120] = .ok (z, []) ∧
      z.endpoints.lookup "kitchen" = some e ∧ e.live = true ∧
      e.last volumeLevel = some 120 ∧ z.volume.effectiveVolume "kitchen" = 100) ∧
    run (Zone.step .debug) (.new "home") [.setVolumeAll 200, .setVolumeEndpoint "kitchen" 100] =
      .error .overflow ∧
    ¬ Along (Zone.step .release) (Meets .release) (.new "home")
      [.addEndpoint someAddr (.ok (helloFrom "kitchen"))] := by
  refine ⟨⟨_, _, rfl, rfl, rfl, rfl, by decide⟩, ⟨_, _, rfl, rfl, rfl, rfl, by decide⟩, rfl, ?_⟩
  intro hmeets
  obtain ⟨htold, -⟩ := hmeets.1.2 _ _ rfl
  have := htold "kitchen" _ rfl rfl
  cases this

end Oaat.Zones
