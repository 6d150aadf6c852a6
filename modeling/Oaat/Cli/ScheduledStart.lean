/-
Oaat.Cli.ScheduledStart — the endpoints of a zone start together.

An endpoint schedules its start when a packet arrives while it is armed, and
that may be any packet: the ones before it are in the ring already. The
deadline is that of the ring's head, which the application computes from the
packet's timestamp and the fill level. While the output is stopped nothing
leaves the ring (`Queued`), so the head is the first frame of the stream for
every packet, and its presentation time the start of the stream.
-/
import Oaat.Cli.Playback
import Oaat.Cli.Timeline

namespace Oaat.Cli

open Oaat.Core Oaat.Endpoint Oaat.Lib

/-! ## The stream -/

section

variable {B : Backend}

/-- The passes that neither configure the output nor close it. -/
def KeepsRing : Action B → Prop
  | .event (.control (.formatProposed _)) _ _
  | .event (.control (.playback (.stop _))) _ _
  | .event (.control (.playback (.seek _ _))) _ _
  | .event (.control (.nextTrackReformat _ _ _)) _ _
  | .event .disconnected _ _
  | .release _ => False
  | _ => True

/-- What a pass brings of the stream. -/
def payloadOf : Action B → List UInt8
  | .event (.audioPacket _ payload) _ _ => payload
  | _ => []

/-- The frames that the passes bring, at `n` bytes each. -/
def totalFrames (n : Nat) (acts : List (Action B)) : Nat :=
  (acts.map fun a => (payloadOf a).length / n).sum

/-- A packet brings whole frames, and carries the time of its first one. -/
def Contiguous (start : UInt64) (rate : UInt32) (n : Nat) (past : List (Action B)) :
    Action B → Prop
  | .event (.audioPacket header payload) _ _ =>
    n ∣ payload.length ∧ totalFrames n past * 1_000_000_000 < 2 ^ 64 ∧
      header.ptsNs.toNat = start.toNat + nsOf rate.toNat (totalFrames n past)
  | _ => True

end

section

variable {dec : Decoders} {build : Build}

/-- The output is stopped and takes what a pass brings: no correction is pending,
and the ring has room. -/
def Stopped (s : Endpoint (cpalBackend dec)) (a : Action (cpalBackend dec)) : Prop :=
  CpalOutput.playing s.audio = false ∧ CpalOutput.correction s.audio = 0 ∧ s.released = false ∧
    (payloadOf a).length + (Cpal.inRing s.audio).length ≤ Cpal.ringSize s.audio

instance (s : Endpoint (cpalBackend dec)) (a : Action (cpalBackend dec)) :
    Decidable (Stopped s a) :=
  inferInstanceAs (Decidable (_ ∧ _ ∧ _ ∧ _ ≤ _))

/-- Passes that bring a stream from `start` on to a PCM output with an empty
ring. -/
structure Prefills (build : Build) (start : UInt64) (rate : UInt32)
    (s : Endpoint (cpalBackend dec)) (acts : List (Action (cpalBackend dec))) : Prop where
  rate_eq : s.streamSampleRate = rate
  rate_pos : 1 ≤ rate.toNat
  pcm : (CpalOutput.format s.audio).isPcm = true
  isOpen : (CpalOutput.stream s.audio).isSome = true
  empty : Cpal.inRing s.audio = []
  keeps : ∀ a ∈ acts, KeepsRing a
  contiguous : Each (Contiguous start rate (CpalOutput.frameBytes s.audio)) acts
  stopped : Along (Endpoint.step build) Stopped s acts

/-- The packet arrives on one of the passes, in the state `t`. -/
def Arrives (build : Build) (s : Endpoint (cpalBackend dec))
    (acts : List (Action (cpalBackend dec))) (header : AudioPacketHeader) (payload : List UInt8)
    (w : World) (h : CpalHost) (t : Endpoint (cpalBackend dec)) : Prop :=
  ∃ before after log, acts = before ++ .event (.audioPacket header payload) w h :: after ∧
    run (Endpoint.step build) s before = .ok (t, log)

/-- The pass schedules the start for `localNs` of the local clock, with `tracker`. -/
def Schedules (build : Build) (header : AudioPacketHeader) (payload : List UInt8) (w : World)
    (h : CpalHost) (t : Endpoint (cpalBackend dec)) (localNs : Nat) (tracker : PtsTracker) : Prop :=
  t.armed = true ∧ t.started = false ∧
    ∃ t' effects deadline,
      t.step build (.event (.audioPacket header payload) w h) = .ok (t', effects) ∧
      t'.started = false ∧ t'.startDeadline = some deadline ∧
      localNs + w.instant = w.now.toNat + deadline ∧ t'.tracker = some tracker

end

/-! ## The ring of a stopped output -/

/-- A PCM output with so many frames, of `n` bytes each, in its ring. -/
structure Queued (n frames : Nat) (o : CpalOutput) : Prop where
  frameBytes_eq : o.frameBytes = n
  pcm : o.format.isPcm = true
  isOpen : o.stream.isSome = true
  ring : (Cpal.inRing o).length = frames * n

section

variable {n frames : Nat} {o o' : CpalOutput}

/-- Everything else of the output may change. -/
theorem Queued.of_same (hq : Queued n frames o) (hstream : o'.stream = o.stream)
    (hframe : o'.frameBytes = o.frameBytes) (hformat : o'.format = o.format) :
    Queued n frames o' := by
  refine ⟨hframe.trans hq.frameBytes_eq, hformat ▸ hq.pcm, hstream ▸ hq.isOpen, ?_⟩
  rw [Cpal.inRing, hstream]
  exact hq.ring

theorem Queued.play (hq : Queued n frames o) : Queued n frames o.play := by
  unfold CpalOutput.play
  split
  · exact hq.of_same rfl rfl rfl
  · exact hq

theorem Queued.bufferLevel (hq : Queued n frames o) : o.bufferLevel = frames := by
  have hpos := Cpal.frameBytes_pos o
  have hlevel : o.bufferLevel = (Cpal.inRing o).length / o.frameBytes := by
    cases hst : o.stream with
    | none => simp [CpalOutput.bufferLevel, Cpal.inRing, hst]
    | some st => simp only [CpalOutput.bufferLevel, Cpal.inRing, hst]
  rw [hlevel, hq.ring, hq.frameBytes_eq, Nat.mul_div_cancel frames (hq.frameBytes_eq ▸ hpos)]

/-- The callbacks of a stopped output are silent and take nothing. -/
theorem callbacks_stopped (hstopped : o.playing = false) (during : List Nat) :
    (o.callbacks during).1 = o := by
  have hone : ∀ wanted, (o.callback wanted).1 = o := by
    intro wanted
    unfold CpalOutput.callback
    split
    next => rfl
    next => simp only [hstopped, Bool.not_false, Bool.true_or, if_pos]
  induction during with
  | nil => rfl
  | cons wanted rest ih =>
    change (CpalOutput.callbacks (o.callback wanted).1 rest).1 = o
    rw [hone, ih]

/-- A payload of whole frames that the ring has room for is in the ring after the
write, behind what was there. -/
theorem Queued.write (hq : Queued n frames o) (hstopped : o.playing = false)
    (hnone : o.correction = 0) {payload : List UInt8} (hwhole : n ∣ payload.length)
    (hroom : payload.length + (Cpal.inRing o).length ≤ Cpal.ringSize o) (dec : Decoders)
    (during : List Nat) :
    ∃ o' outs, o.writeAudio dec payload during = .ok (o', payload.length / n, outs) ∧
      Queued n (frames + payload.length / n) o' := by
  obtain ⟨st, hst⟩ := Option.isSome_iff_exists.mp hq.isOpen
  have hpos : 0 < n := hq.frameBytes_eq ▸ Cpal.frameBytes_pos o
  simp only [Cpal.inRing, Cpal.ringSize, hst] at hroom
  have hlen := hq.ring
  simp only [Cpal.inRing, hst] at hlen
  obtain ⟨k, hk⟩ := hwhole
  have hdiv : payload.length / n = k := by rw [hk, Nat.mul_div_cancel_left k hpos]
  have hvacant : payload.length ≤ st.ring.vacantLen := by
    rw [Ring.vacantLen]
    omega
  -- all frames are pushed
  have hall : min (st.ring.vacantLen / n) k = k :=
    Nat.min_eq_right (hdiv ▸ Nat.div_le_div_right hvacant)
  have hbytes : payload.take (k * n) = payload := by
    rw [Nat.mul_comm, ← hk, List.take_length]
  have hpush : o.push st payload during =
      ({ o with stream := some { st with ring := st.ring.pushSlice payload } }, payload.length / n,
        (o.callbacks during).2) := by
    simp only [CpalOutput.push, hq.frameBytes_eq, hdiv, hall, hbytes, callbacks_stopped hstopped,
      hst, Option.map_some]
  refine ⟨_, _, (Cpal.write_uncorrected hst hq.pcm hnone payload during).trans
    (congrArg Except.ok hpush), hq.frameBytes_eq, hq.pcm, rfl, ?_⟩
  change (st.ring.bytes ++ payload.take st.ring.vacantLen).length = _
  rw [List.take_of_length_le hvacant, List.length_append, hlen, hdiv, hk, Nat.add_mul,
    Nat.mul_comm n k]

end

/-! ## The passes -/

section

variable {dec : Decoders} {build : Build} {rate : UInt32} {n frames : Nat}
  {s s' : Endpoint (cpalBackend dec)} {a : Action (cpalBackend dec)}
  {acts : List (Action (cpalBackend dec))} {effects log : List Effect}

/-- The stream so far is in the ring. -/
structure Prefilled (rate : UInt32) (n frames : Nat) (s : Endpoint (cpalBackend dec)) : Prop where
  rate_eq : s.streamSampleRate = rate
  queued : Queued n frames s.audio

/-- What a packet's write leaves in the ring. -/
theorem Prefilled.wrote (hs : Prefilled rate n frames s) {header : AudioPacketHeader}
    {payload : List UInt8} {w : World} {h : (cpalBackend dec).Host}
    {audio : (cpalBackend dec).State} {wrote : List Effect}
    (hstopped : Stopped s (.event (.audioPacket header payload) w h)) (hwhole : n ∣ payload.length)
    (hwrote : Wrote s header payload h audio wrote) :
    Queued n (frames + payload.length / n) audio := by
  obtain ⟨hplaying, hnone, hreleased, hroom⟩ := hstopped
  cases hwrote with
  | ignored hskip =>
    rcases hskip with rfl | hreleased'
    · simpa using hs.queued
    · rw [hreleased] at hreleased'
      cases hreleased'
  | written audio opened hne hrel hw =>
    obtain ⟨o', outs, hok, hq⟩ := hs.queued.write hplaying hnone hwhole hroom dec h.callbacks
    simp only [cpalBackend, hok] at hw
    cases hw
    exact hq

/-- **The step rule.** -/
theorem step_prefilled (hs : Prefilled rate n frames s) (hkeeps : KeepsRing a)
    (hwhole : ∀ header payload w h, a = .event (.audioPacket header payload) w h →
      n ∣ payload.length) (hstopped : Stopped s a) (hstep : s.step build a = .ok (s', effects)) :
    Prefilled rate n (frames + (payloadOf a).length / n) s' := by
  have hq : Queued n (frames + 0 / n) s.audio := by
    rw [Nat.zero_div]
    exact hs.queued
  have hsame : ∀ audio : CpalOutput, audio.stream = CpalOutput.stream s.audio →
      audio.frameBytes = CpalOutput.frameBytes s.audio →
      audio.format = CpalOutput.format s.audio → Queued n (frames + 0 / n) audio :=
    fun audio h₁ h₂ h₃ => hq.of_same h₁ h₂ h₃
  cases step_inv hstep with
  | proposes | stops | seeks | reformats | reformatIgnored | disconnects | releases => cases hkeeps
  | connects | reports | errs | switches => exact ⟨hs.rate_eq, hq⟩
  | starts w startAt hd => exact ⟨hs.rate_eq, hq.play⟩
  | pauses streamId w h => exact ⟨hs.rate_eq, hsame _ rfl rfl rfl⟩
  | ticks w inUse idle audio tracker drift stats hserved =>
    refine ⟨hs.rate_eq, ?_⟩
    rcases hserved.audio_eq with rfl | ⟨-, -, c, rfl⟩
    · exact hq
    · exact hsame _ rfl rfl rfl
  | volumes cmd w h audio hreg =>
    refine ⟨hs.rate_eq, ?_⟩
    cases hreg with
    | kept => exact hq
    | volume level => exact hsame _ rfl rfl rfl
    | mute muted => exact hsame _ rfl rfl rfl
  | hosts h audio opened hhost =>
    cases hhost
    refine ⟨hs.rate_eq, ?_⟩
    rw [callbacks_stopped hstopped.1]
    exact hq
  | plays streamId w h audio reopened hre =>
    have haudio : audio = s.audio := by
      cases hre with
      | kept => rfl
      | unknown => rfl
      | configured fp audio opened r hrel =>
        rw [hstopped.2.2.1] at hrel
        cases hrel
    obtain ⟨-, -, -, hrate, hbegin⟩ :=
      begin_frame { s with released := false, audio, outputInUse := true }
    refine ⟨hrate.trans hs.rate_eq, ?_⟩
    rcases hbegin with hbegin | hbegin
    · rw [hbegin, haudio]
      exact hq
    · rw [hbegin, haudio]
      exact hq.play
  | packet header payload w h audio wrote hw =>
    exact ⟨hs.rate_eq, hs.wrote hstopped (hwhole header payload w h rfl) hw⟩
  | packetStarts header payload w h audio wrote head hw =>
    have hq := hs.wrote hstopped (hwhole header payload w h rfl) hw
    obtain ⟨-, -, hrate, -, hstart⟩ := deferredStart_frame
      { s with packetCount := s.packetCount + 1, totalBytes := s.totalBytes + payload.length,
               audio } w head
    refine ⟨hrate.trans hs.rate_eq, ?_⟩
    rcases hstart with hstart | hstart
    · rw [hstart]
      exact hq
    · rw [hstart]
      exact hq.play

theorem run_prefilled {t : Endpoint (cpalBackend dec)} (hkeeps : ∀ a ∈ acts, KeepsRing a)
    (hwhole : ∀ header payload w h, .event (.audioPacket header payload) w h ∈ acts →
      n ∣ payload.length)
    (hs : Prefilled rate n frames s) (hstopped : Along (Endpoint.step build) Stopped s acts)
    (hrun : run (Endpoint.step build) s acts = .ok (t, log)) :
    Prefilled rate n (frames + totalFrames n acts) t := by
  induction acts generalizing s frames log with
  | nil =>
    simp only [run_nil, Except.ok.injEq, Prod.mk.injEq] at hrun
    obtain ⟨rfl, -⟩ := hrun
    exact hs
  | cons a acts ih =>
    obtain ⟨s₁, ev, evs, hstep, hrest, -⟩ := run_cons_inv hrun
    have h₁ := step_prefilled hs (hkeeps a (by simp))
      (fun header payload w h ha => hwhole header payload w h (by simp [ha])) hstopped.1 hstep
    have hall := ih (fun b hb => hkeeps b (List.mem_cons_of_mem _ hb))
      (fun header payload w h hb => hwhole header payload w h (List.mem_cons_of_mem _ hb)) h₁
      (hstopped.2 s₁ ev hstep) hrest
    rw [totalFrames, List.map_cons, List.sum_cons, ← Nat.add_assoc]
    exact hall

/-- A packet of the stream finds everything before it in the ring. -/
theorem Prefills.arrives {start : UInt64} (hfill : Prefills build start rate s acts)
    {header : AudioPacketHeader} {payload : List UInt8} {w : World} {h : CpalHost}
    {t : Endpoint (cpalBackend dec)} (harr : Arrives build s acts header payload w h t) :
    ∃ frames, Prefilled rate (CpalOutput.frameBytes s.audio) frames t ∧
      CpalOutput.frameBytes s.audio ∣ payload.length ∧ frames * 1_000_000_000 < 2 ^ 64 ∧
      header.ptsNs.toNat = start.toNat + nsOf rate.toNat frames ∧
      Stopped t (.event (.audioPacket header payload) w h) := by
  obtain ⟨before, after, log, hsplit, hrun⟩ := harr
  have hstart : Prefilled rate (CpalOutput.frameBytes s.audio) 0 s :=
    ⟨hfill.rate_eq, rfl, hfill.pcm, hfill.isOpen, by simp [hfill.empty]⟩
  have hmem : ∀ a ∈ before, a ∈ acts := fun a ha => hsplit ▸ List.mem_append_left _ ha
  have hwhole : ∀ header payload w h, .event (.audioPacket header payload) w h ∈ before →
      CpalOutput.frameBytes s.audio ∣ payload.length := by
    intro header' payload' w' h' hp
    obtain ⟨past, later, rfl⟩ := List.append_of_mem hp
    have hpast := hfill.contiguous past (.event (.audioPacket header' payload') w' h')
      (later ++ .event (.audioPacket header payload) w h :: after) (by simp [hsplit])
    exact hpast.1
  obtain ⟨hbefore, hlater⟩ := along_append_inv hrun (hsplit ▸ hfill.stopped)
  have ht := run_prefilled (fun a ha => hfill.keeps a (hmem a ha)) hwhole hstart hbefore hrun
  rw [Nat.zero_add] at ht
  obtain ⟨hdvd, hfits, hpts⟩ := hfill.contiguous before _ after hsplit
  exact ⟨_, ht, hdvd, hfits, hpts, hlater.1⟩

/-! ## The start -/

/-- The sender and the application take the same number off and on. -/
theorem headPtsNs_eq {B : Backend} {s : Endpoint B} {start : UInt64} {header : AudioPacketHeader}
    (hrate : s.streamSampleRate = rate) (hpos : 1 ≤ rate.toNat)
    (hfits : frames * 1_000_000_000 < 2 ^ 64)
    (hpts : header.ptsNs.toNat = start.toNat + nsOf rate.toNat frames) :
    s.headPtsNs build header frames = .ok start := by
  have hmax : max s.streamSampleRate.toNat 1 = rate.toNat := by
    rw [hrate]
    omega
  have htaken : header.ptsNs.toNat - frames * 1_000_000_000 / rate.toNat = start.toNat := by
    rw [hpts, nsOf, Nat.add_sub_cancel]
  unfold Endpoint.headPtsNs
  refine bind_eq_ok.mpr ⟨frames * 1_000_000_000, ?_, ?_⟩
  · rw [Build.u64_of_fits build hfits]
    rfl
  · rw [hmax, htaken, UInt64.ofNat_toNat]
    rfl

theorem writePacket_ok (header : AudioPacketHeader) {payload : List UInt8}
    {h : (cpalBackend dec).Host} {audio : CpalOutput} {pushed : Nat} {outs : List (List OutSample)}
    (hok : CpalOutput.writeAudio dec s.audio payload h.callbacks = .ok (audio, pushed, outs)) :
    ∃ audio wrote, s.writePacket header payload h = .ok ({ s with audio }, wrote) := by
  unfold Endpoint.writePacket
  split
  next => exact ⟨audio, _, by simp only [cpalBackend, hok]; rfl⟩
  next => exact ⟨s.audio, _, rfl⟩

/-- A packet that arrives on an armed output starts it, with the head's time. -/
theorem audioPacket_starts {start : UInt64} {header : AudioPacketHeader} {payload : List UInt8}
    {w : World} {h : CpalHost} (hs : Prefilled rate n frames s) (hwhole : n ∣ payload.length)
    (hstopped : Stopped s (.event (.audioPacket header payload) w h))
    (hhead : ∀ s' : Endpoint (cpalBackend dec), s'.streamSampleRate = rate →
      s'.headPtsNs build header frames = .ok start)
    (harmed : s.armed = true) (hstarted : s.started = false) :
    ∃ audio effects, s.step build (.event (.audioPacket header payload) w h) =
      .ok ({ s with
        packetCount := s.packetCount + 1, totalBytes := s.totalBytes + payload.length
        audio }.deferredStart w start, effects) := by
  obtain ⟨hplaying, hnone, -, hroom⟩ := hstopped
  obtain ⟨o', outs, hok, -⟩ := hs.queued.write hplaying hnone hwhole hroom dec h.callbacks
  obtain ⟨audio, wrote, hwrite⟩ := writePacket_ok header
    (s := { s with
      packetCount := s.packetCount + 1, totalBytes := s.totalBytes + payload.length }) hok
  have hlevel : (cpalBackend dec).bufferLevel s.audio = frames := hs.queued.bufferLevel
  refine ⟨audio, wrote ++ [.tracked], ?_⟩
  change s.audioPacket build header payload w h = _
  unfold Endpoint.audioPacket
  refine bind_eq_ok.mpr ⟨_, hwrite, ?_⟩
  dsimp only
  rw [if_pos (by rw [harmed, hstarted]; rfl), hlevel]
  exact bind_eq_ok.mpr ⟨start, hhead _ hs.rate_eq, rfl⟩

/-- A start that is scheduled is at the local time of the head, and tracked from it. -/
theorem deferredStart_schedules {B : Backend} {s : Endpoint B} {w : World} {head : UInt64}
    {deadline localNs : Nat} {tracker : PtsTracker}
    (hwaits : (s.deferredStart w head).started = false)
    (hdeadline : (s.deferredStart w head).startDeadline = some deadline)
    (hlocal : localNs + w.instant = w.now.toNat + deadline)
    (htracker : (s.deferredStart w head).tracker = some tracker) :
    localNs = (w.clock.controllerToLocal head).toNat ∧
      tracker = { startNs := head, sampleRate := s.streamSampleRate } := by
  unfold Endpoint.deferredStart at hwaits hdeadline htracker
  dsimp only at hwaits hdeadline htracker
  split at hwaits
  next hlead =>
    rw [if_pos hlead] at hdeadline htracker
    simp only [Bool.and_eq_true, decide_eq_true_eq] at hlead
    cases hdeadline
    cases htracker
    exact ⟨by omega, rfl⟩
  next => cases hwaits

/-- The head's time is the start of the stream, and the start is made with it. -/
theorem Prefills.starts {start : UInt64} (hfill : Prefills build start rate s acts)
    {header : AudioPacketHeader} {payload : List UInt8} {w : World} {h : CpalHost}
    {t : Endpoint (cpalBackend dec)} (harr : Arrives build s acts header payload w h t) :
    t.streamSampleRate = rate ∧
      t.headPtsNs build header (CpalOutput.bufferLevel t.audio) = .ok start ∧
      (t.armed = true → t.started = false →
        ∃ audio effects, t.step build (.event (.audioPacket header payload) w h) =
          .ok ({ t with
            packetCount := t.packetCount + 1, totalBytes := t.totalBytes + payload.length
            audio }.deferredStart w start, effects)) := by
  obtain ⟨frames, ht, hwhole, hfits, hpts, hstopped⟩ := hfill.arrives harr
  have hhead : ∀ t' : Endpoint (cpalBackend dec), t'.streamSampleRate = rate →
      t'.headPtsNs build header frames = .ok start :=
    fun t' hrate => headPtsNs_eq hrate hfill.rate_pos hfits hpts
  refine ⟨ht.rate_eq, ?_, audioPacket_starts ht hwhole hstopped hhead⟩
  rw [ht.queued.bufferLevel]
  exact hhead t ht.rate_eq

theorem Prefills.schedules {start : UInt64} (hfill : Prefills build start rate s acts)
    {header : AudioPacketHeader} {payload : List UInt8} {w : World} {h : CpalHost}
    {t : Endpoint (cpalBackend dec)} (harr : Arrives build s acts header payload w h t)
    {localNs : Nat} {tracker : PtsTracker}
    (hsched : Schedules build header payload w h t localNs tracker) :
    localNs = (w.clock.controllerToLocal start).toNat ∧
      tracker = { startNs := start, sampleRate := rate } := by
  obtain ⟨harmed, hstarted, t', effects, deadline, hstep, hwaits, hdeadline, hlocal, htracker⟩ :=
    hsched
  obtain ⟨hrate, -, hstarts⟩ := hfill.starts harr
  obtain ⟨audio, effects', hstep'⟩ := hstarts harmed hstarted
  rw [hstep'] at hstep
  cases hstep
  obtain ⟨hat, htracked⟩ := deferredStart_schedules hwaits hdeadline hlocal htracker
  exact ⟨hat, hrate ▸ htracked⟩

end

/-- **The start does not depend on the packet.** Let packets of whole frames bring
a PCM stream from `start` on to a stopped output, in any pieces and among any
other passes that keep its ring, each with the time of its first frame. Whichever
packet finds the output armed, the head's presentation time is `start`, and the
pass starts the output with it. So two endpoints that schedule their start, with
one clock offset, do so for the same local time and with the same tracker. -/
theorem start_independent_of_packet {dec : Decoders} {build : Build} {start : UInt64}
    {rate : UInt32} {s : Endpoint (cpalBackend dec)} {acts : List (Action (cpalBackend dec))}
    (hfill : Prefills build start rate s acts) :
    (∀ header payload w h t, Arrives build s acts header payload w h t →
      t.headPtsNs build header (CpalOutput.bufferLevel t.audio) = .ok start ∧
      (t.armed = true → t.started = false →
        ∃ audio effects, t.step build (.event (.audioPacket header payload) w h) =
          .ok ({ t with
            packetCount := t.packetCount + 1, totalBytes := t.totalBytes + payload.length
            audio }.deferredStart w start, effects))) ∧
    ∀ (dec' : Decoders) (build' : Build) (s' : Endpoint (cpalBackend dec'))
      (acts' : List (Action (cpalBackend dec'))), Prefills build' start rate s' acts' →
      ∀ header payload w h t localNs tracker header' payload' w' h' t' localNs' tracker',
        Arrives build s acts header payload w h t →
        Schedules build header payload w h t localNs tracker →
        Arrives build' s' acts' header' payload' w' h' t' →
        Schedules build' header' payload' w' h' t' localNs' tracker' →
        w.clock.offsetNs = w'.clock.offsetNs → localNs = localNs' ∧ tracker = tracker' := by
  refine ⟨?_, ?_⟩
  · intro header payload w h t harr
    exact (hfill.starts harr).2
  · intro dec' build' s' acts' hfill' header payload w h t localNs tracker header' payload' w' h'
      t' localNs' tracker' harr hsched harr' hsched' hoffset
    obtain ⟨hlocal, htracker⟩ := hfill.schedules harr hsched
    obtain ⟨hlocal', htracker'⟩ := hfill'.schedules harr' hsched'
    have hclock : w.clock.controllerToLocal start = w'.clock.controllerToLocal start := by
      rw [SharedClock.controllerToLocal, SharedClock.controllerToLocal, hoffset]
    exact ⟨by rw [hlocal, hlocal', hclock], htracker.trans htracker'.symm⟩

/-! ### Two endpoints of a zone -/

/-- A clock half a microsecond behind the controller's. -/
def syncedWorld (now : UInt64) (instant : Nat) : World :=
  { localWorld now instant with
    clock := { SharedClock.new with offsetNs := 500, bootstrapped := true } }

/-- A packet of a stream, which the device hears nothing of yet. -/
def streamPacket (ptsNs : UInt64) (payload : List UInt8) (w : World) :
    Action (cpalBackend Cpal.pcmOnly) :=
  .event (.audioPacket { someHeader with ptsNs } payload) w willing

/-- An endpoint with 16-bit stereo at 48 kHz, before its first packet. -/
def stereoEndpoint (armed : Bool) : Endpoint (cpalBackend Cpal.pcmOnly) :=
  { cpalEndpoint with audio := Cpal.stereoOutput, armed, streamSampleRate := 48000 }

/-- Play comes before the first packet. -/
def earlyPlay : List (Action (cpalBackend Cpal.pcmOnly)) :=
  [streamPacket 2_000_000_000 [1, 0, 2, 0] (syncedWorld 1_900_000_000 70)]

/-- Play comes after the first packet. -/
def latePlay : List (Action (cpalBackend Cpal.pcmOnly)) :=
  [streamPacket 2_000_000_000 [1, 0, 2, 0] (syncedWorld 1_900_000_000 5),
   cpalEvent (.control (.playback (.play "s"))),
   streamPacket 2_000_020_833 [3, 0, 4, 0, 5, 0, 6, 0] (syncedWorld 1_900_040_000 40_005)]

theorem earlyPlay_prefills :
    Prefills .release 2_000_000_000 48000 (stereoEndpoint true) earlyPlay where
  rate_eq := rfl
  rate_pos := by decide
  pcm := rfl
  isOpen := rfl
  empty := rfl
  keeps := by simp [earlyPlay, streamPacket, KeepsRing]
  contiguous := by
    rw [earlyPlay, ← List.nil_append [_], each_concat]
    exact ⟨each_nil _, by decide, by decide, by decide +kernel⟩
  stopped := by decide +kernel

theorem latePlay_prefills :
    Prefills .release 2_000_000_000 48000 (stereoEndpoint false) latePlay where
  rate_eq := rfl
  rate_pos := by decide
  pcm := rfl
  isOpen := rfl
  empty := rfl
  keeps := by simp [latePlay, streamPacket, cpalEvent, KeepsRing]
  contiguous := by
    change Each _ ((([] ++ [_]) ++ [_]) ++ [_])
    simp only [each_concat]
    exact ⟨⟨⟨each_nil _, by decide, by decide, by decide +kernel⟩, trivial⟩, by decide, by decide,
      by decide +kernel⟩
  stopped := by decide +kernel

/-- One endpoint arms at the first packet, the other at the second: both start
99.9995 ms after the first packet came, and track from second 2 on. -/
theorem start_independent_of_packet_lateArming :
    (run (Endpoint.step .release) (stereoEndpoint true) earlyPlay).map
        (fun r => (r.1.startDeadline, r.1.tracker)) =
      .ok (some 99_999_570, some { startNs := 2_000_000_000, sampleRate := 48000 }) ∧
    (run (Endpoint.step .release) (stereoEndpoint false) latePlay).map
        (fun r => (r.1.startDeadline, r.1.tracker)) =
      .ok (some 99_999_505, some { startNs := 2_000_000_000, sampleRate := 48000 }) ∧
    ∀ t log, run (Endpoint.step .release) (stereoEndpoint false) (latePlay.take 2) = .ok (t, log) →
      t.headPtsNs .release { someHeader with ptsNs := 2_000_020_833 }
          (CpalOutput.bufferLevel t.audio) = .ok 2_000_000_000 ∧
      ∀ localNs tracker localNs' tracker',
        Schedules .release { someHeader with ptsNs := 2_000_000_000 } [1, 0, 2, 0]
          (syncedWorld 1_900_000_000 70) willing (stereoEndpoint true) localNs tracker →
        Schedules .release { someHeader with ptsNs := 2_000_020_833 } [3, 0, 4, 0, 5, 0, 6, 0]
          (syncedWorld 1_900_040_000 40_005) willing t localNs' tracker' →
        localNs = localNs' ∧ tracker = tracker' := by
  refine ⟨by decide +kernel, by decide +kernel, ?_⟩
  intro t log hrun
  have hearly : Arrives .release (stereoEndpoint true) earlyPlay
      { someHeader with ptsNs := 2_000_000_000 } [1, 0, 2, 0] (syncedWorld 1_900_000_000 70) willing
      (stereoEndpoint true) := ⟨[], [], [], rfl, rfl⟩
  have hlate : Arrives .release (stereoEndpoint false) latePlay
      { someHeader with ptsNs := 2_000_020_833 } [3, 0, 4, 0, 5, 0, 6, 0]
      (syncedWorld 1_900_040_000 40_005) willing t := ⟨latePlay.take 2, [], log, rfl, hrun⟩
  refine ⟨((start_independent_of_packet latePlay_prefills).1 _ _ _ _ t hlate).1, ?_⟩
  intro localNs tracker localNs' tracker' hsched hsched'
  exact (start_independent_of_packet earlyPlay_prefills).2 _ _ _ _ latePlay_prefills _ _ _ _ _ _ _
    _ _ _ _ _ _ _ hearly hsched hlate hsched' rfl

end Oaat.Cli
