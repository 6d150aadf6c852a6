/-
Oaat.Cli.EndToEnd — from the controller's zone to the listener.

Three parts meet here: the zone's sender with FEC, the endpoint's receive loop,
and the application that plays what the loop passes on, through cpal or ALSA.
The frames heard, and the bytes that a DAC takes, come from the packets that
the passes brought. So what holds of the packets that the loop returns holds of
them, over a link that keeps everything and over one that does what it likes.
-/
import Oaat.Cli.Feeding
import Oaat.Cli.Hearing
import Oaat.Fec.InOrder
import Mathlib.Data.List.Flatten

namespace Oaat.Cli

open Oaat.Core Oaat.Core.FecReceiver Oaat.Controller Oaat.Endpoint Oaat.Fec Oaat.Lib

/-! ## Packets and their frames -/

/-- The audio packets that the passes are given, in order. -/
def packetsOf {B : Backend} (acts : List (Action B)) : List FecPacket :=
  acts.flatMap fun
    | .event (.audioPacket header payload) _ _ => [(header, payload)]
    | _ => []

/-- The frames of some packets. -/
def framesOf (n : Nat) (packets : List FecPacket) : List (List UInt8) :=
  packets.flatMap fun p => frames n p.2

/-- The payloads that the calls on a zone give it to send. -/
def playedPayloads (ops : List Zone.Op) : List (List UInt8) :=
  ops.flatMap fun
    | .sendAudioAll a => [a.payload]
    | _ => []

/-- Their frames. -/
def playedFrames (n : Nat) (ops : List Zone.Op) : List (List UInt8) :=
  ops.flatMap fun
    | .sendAudioAll a => frames n a.payload
    | _ => []

section

variable {dec : Decoders} {n : Nat}

theorem framesOf_append (n : Nat) (packets more : List FecPacket) :
    framesOf n (packets ++ more) = framesOf n packets ++ framesOf n more := by
  simp [framesOf]

theorem frames_payloadOf (n : Nat) (a : Action (cpalBackend dec)) :
    frames n (payloadOf a) = framesOf n (packetsOf [a]) := by
  have hnil : frames n ([] : List UInt8) = [] := by simp [frames, chunk]
  cases a with
  | startTimer | servoTick | release | switchDevice | host => exact hnil
  | event e w host =>
    cases e with
    | audioPacket header payload => simp [packetsOf, framesOf, payloadOf]
    | _ => exact hnil

/-- The passes bring the frames of their packets. -/
theorem broughtFrames_eq (n : Nat) (acts : List (Action (cpalBackend dec))) :
    broughtFrames n acts = framesOf n (packetsOf acts) := by
  induction acts with
  | nil => rfl
  | cons a acts ih =>
    have hsplit : packetsOf (a :: acts) = packetsOf [a] ++ packetsOf acts := by simp [packetsOf]
    rw [hsplit, framesOf_append, ← ih, ← frames_payloadOf]
    rfl

/-- The data packets of a run carry the payloads of its calls. -/
theorem payloads_emitted {ops : List Zone.Op} {z : Zone}
    (hcalls : ∀ a, .sendAudioAll a ∈ ops → CallOk a) :
    (dataOnly (z.emitted ops)).map Prod.snd = playedPayloads ops := by
  induction ops generalizing z with
  | nil => rfl
  | cons op ops ih =>
    have hrest := ih (z := (z.step op).1) fun a ha => hcalls a (List.mem_cons_of_mem _ ha)
    have hemitted : z.emitted (op :: ops) = (z.step op).2 ++ (z.step op).1.emitted ops := rfl
    rw [hemitted, dataOnly, List.filter_append, List.map_append]
    simp only [dataOnly] at hrest
    rw [hrest]
    cases op with
    | enableFec | disableFec => rfl
    | sendAudioAll a =>
      have hone : (dataOnly (z.sendAudioAll a).2).map Prod.snd = [a.payload] := by
        rw [dataOnly_sendAudioAll z (hcalls a (by simp))]
        rfl
      simp only [dataOnly] at hone
      rw [Zone.step, hone]
      rfl

theorem framesOf_emitted {ops : List Zone.Op} {z : Zone}
    (hcalls : ∀ a, .sendAudioAll a ∈ ops → CallOk a) :
    framesOf n (dataOnly (z.emitted ops)) = playedFrames n ops := by
  have hframes : framesOf n (dataOnly (z.emitted ops)) =
      ((dataOnly (z.emitted ops)).map Prod.snd).flatMap (frames n) := by
    rw [framesOf, List.flatMap_map]
  rw [hframes, payloads_emitted hcalls, playedPayloads, playedFrames, List.flatMap_assoc]
  refine List.flatMap_congr fun op _ => ?_
  cases op with
  | sendAudioAll a => exact List.flatMap_singleton _ _
  | enableFec | disableFec => rfl

/-! ## What is heard -/

/-- What the listener has heard, and what is still in the ring. -/
def heardSoFar (n : Nat) (events : List Cpal.Event) (o : CpalOutput) : List (List UInt8) :=
  Cpal.heardFrames n events ++ frames n (Cpal.inRing o)

end

/-! ## Over any link -/

section

variable {sent : List FecPacket} {ops : List Zone.Op} {z : Zone} {p : FecPacket}

/-- **One datagram**, at any time: the loop goes on, and passes on only what was sent. -/
theorem receive_tracks (hstream : FecStream sent) (hsend : Sendable p) (hp : p ∈ sent)
    {s : AudioLoop} (h : Fec.Tracks sent s.fecRx) :
    ∃ s' out, audioReceive .release s (datagram p) = .ok (s', out) ∧ Fec.Tracks sent s'.fecRx ∧
      ∀ q ∈ out, Genuine sent q := by
  have hin : ∀ i ∈ receptions p, Received sent i := by
    intro i hi
    rcases List.mem_cons.mp hi with rfl | hi
    · exact hp
    · split at hi
      · rw [List.mem_singleton.mp hi]
        trivial
      · cases hi
  obtain ⟨r, out, hrun, ht, hg⟩ :=
    run_invariant (fun r i hr hi => hr.step hstream hi) (receptions p) s.fecRx h hin
  refine ⟨⟨r, (r.lost, r.recovered)⟩, out, ?_, ht, hg⟩
  rw [audioReceive_datagram hsend, feedAndFlush_eq_run, hrun]
  rfl

/-- Only frames that were sent are in the packets that the loop passes on. -/
theorem framesOf_genuine {n : Nat} {packets : List FecPacket}
    (h : ∀ p ∈ packets, Genuine sent p) {frame : List UInt8} (hf : frame ∈ framesOf n packets) :
    frame ∈ framesOf n (dataOnly sent) := by
  obtain ⟨p, hp, hf⟩ := List.mem_flatMap.mp hf
  obtain ⟨q, hq, hd, -, hpay⟩ := h p hp
  refine List.mem_flatMap.mpr ⟨q, List.mem_filter.mpr ⟨hq, by rw [hd]; rfl⟩, ?_⟩
  rw [hpay]
  exact hf

end

/-- **No frame is heard that was not played.** A zone sends fewer than 65536 packets,
with FEC switched as it likes. Whatever the network loses, repeats or reorders of
them, the endpoint's receive loop goes on, and an application that is given packets
of the loop, in any order and any selection, plays frames of the calls on the zone
and no others, however its servo, its timers and its controls act in between. -/
theorem only_played_frames_heard {dec : Decoders} {build : Build} {format : AudioFormat}
    {channels : UInt8} {s₀ t : Endpoint (cpalBackend dec)} {acts : List (Action (cpalBackend dec))}
    {events : List Cpal.Event} {z : Zone} (hz : Fec.Fresh z) {ops : List Zone.Op}
    (hcalls : ∀ a, .sendAudioAll a ∈ ops → CallOk a) (hlen : (z.emitted ops).length < 65536)
    {arrivals : List FecPacket} (harrivals : ∀ p ∈ arrivals, p ∈ z.emitted ops)
    (h : Listening build format channels s₀ acts t events) :
    ∃ s out, run (audioReceive .release) .new (arrivals.map datagram) = .ok (s, out) ∧
      ((∀ p ∈ packetsOf acts, p ∈ out) →
        ∀ frame ∈ heardSoFar (Cpal.frameSize format channels) events t.audio,
          frame ∈ playedFrames (Cpal.frameSize format channels) ops) := by
  have hstream := fecStream_emitted hz (opOk_of_callOk hcalls) hlen
  have hstep : ∀ (s : AudioLoop) d, Fec.Tracks (z.emitted ops) s.fecRx →
      (∃ p ∈ z.emitted ops, d = datagram p) →
      ∃ s' out, audioReceive .release s d = .ok (s', out) ∧ Fec.Tracks (z.emitted ops) s'.fecRx ∧
        ∀ q ∈ out, Genuine (z.emitted ops) q := by
    rintro s d hs ⟨p, hp, rfl⟩
    exact receive_tracks hstream (sendable_emitted hcalls hstream hp) hp hs
  obtain ⟨s, out, hrun, -, hgenuine⟩ :=
    run_invariant hstep (arrivals.map datagram) .new (Fec.Tracks.of_idle rfl rfl rfl) (by
      intro d hd
      obtain ⟨p, hp, rfl⟩ := List.mem_map.mp hd
      exact ⟨p, harrivals p hp, rfl⟩)
  refine ⟨s, out, hrun, ?_⟩
  intro hgiven frame hframe
  obtain ⟨hdelivers, hoffered⟩ := h.delivers
  have hbrought := hdelivers.warped.mem hframe
  rw [hoffered, broughtFrames_eq] at hbrought
  rw [← framesOf_emitted hcalls (z := z)]
  exact framesOf_genuine (fun p hp => hgenuine p (hgiven p hp)) hbrought

/-! ### A zone and an endpoint -/

/-- The packets that the receive loop passes on. -/
def passedOn (arrivals : List FecPacket) : List FecPacket :=
  match run (audioReceive .release) .new (arrivals.map datagram) with
  | .error _ => []
  | .ok (_, out) => out

theorem passedOn_of_run {arrivals out : List FecPacket} {s : AudioLoop}
    (h : run (audioReceive .release) .new (arrivals.map datagram) = .ok (s, out)) :
    passedOn arrivals = out := by
  simp only [passedOn, h]

/-- Play, and then each packet, with a frame for the device after it. -/
def playOut (packets : List FecPacket) : List (Action (cpalBackend Cpal.pcmOnly)) :=
  cpalEvent (.control (.playback (.play "s"))) ::
    packets.flatMap fun p => [.event (.audioPacket p.1 p.2) (localWorld 0 0) willing, oneFrame]

theorem packetsOf_playOut (packets : List FecPacket) : packetsOf (playOut packets) = packets := by
  simp only [playOut, packetsOf, cpalEvent, oneFrame, List.flatMap_cons, List.nil_append,
    List.flatMap_assoc, List.flatMap_nil, List.append_nil]
  exact List.flatMap_singleton' packets

theorem mem_playOut {packets : List FecPacket} {a : Action (cpalBackend Cpal.pcmOnly)}
    (ha : a ∈ playOut packets) : a = cpalEvent (.control (.playback (.play "s"))) ∨
      (∃ header payload, a = .event (.audioPacket header payload) (localWorld 0 0) willing) ∨
      a = oneFrame := by
  rcases List.mem_cons.mp ha with rfl | ha
  · exact .inl rfl
  · obtain ⟨p, -, ha⟩ := List.mem_flatMap.mp ha
    rcases List.mem_cons.mp ha with rfl | ha
    · exact .inr (.inl ⟨p.1, p.2, rfl⟩)
    · exact .inr (.inr (List.mem_singleton.mp ha))

theorem listening_playOut {packets : List FecPacket} {t : Endpoint (cpalBackend Cpal.pcmOnly)}
    {events : List Cpal.Event}
    (hrun : run (sounding .release) proposedEndpoint (playOut packets) = .ok (t, events)) :
    Listening .release .pcmS16le 2 proposedEndpoint (playOut packets) t events := by
  refine listening_proposedEndpoint ?_ ?_ hrun
  · intro a ha
    rcases mem_playOut ha with rfl | ⟨header, payload, rfl⟩ | rfl <;> trivial
  · intro a ha
    rcases mem_playOut ha with rfl | ⟨header, payload, rfl⟩ | rfl
    · simp [cpalEvent, willing, WholeCallbacks]
    · simp [willing, WholeCallbacks]
    · simp [oneFrame, WholeCallbacks]

/-- Four frames in a group of two packets. -/
def fourFrames : List Zone.Op :=
  [.sendAudioAll (audio 1000 [1, 0, 2, 0, 3, 0, 4, 0]),
    .sendAudioAll (audio 2000 [5, 0, 6, 0, 7, 0, 8, 0])]

theorem callOk_fourFrames : ∀ a, .sendAudioAll a ∈ fourFrames → CallOk a := by
  intro a ha
  simp only [fourFrames, List.mem_cons, Zone.Op.sendAudioAll.injEq, List.not_mem_nil,
    or_false] at ha
  rcases ha with rfl | rfl <;> exact ⟨by decide, by decide, by decide⟩

/-- Every packet comes twice, and the last one first. -/
def scrambledFrames : List FecPacket :=
  (pairZone.emitted fourFrames).reverse ++ (pairZone.emitted fourFrames).reverse

theorem only_played_frames_heard_scrambled :
    (run (sounding .release) proposedEndpoint (playOut (passedOn scrambledFrames))).map
      (fun r => heardSoFar 4 r.2 r.1.audio) =
        .ok [[1, 0, 2, 0], [3, 0, 4, 0], [5, 0, 6, 0], [7, 0, 8, 0], [5, 0, 6, 0], [7, 0, 8, 0],
          [1, 0, 2, 0], [3, 0, 4, 0]] ∧
    ∀ t events, run (sounding .release) proposedEndpoint (playOut (passedOn scrambledFrames)) =
        .ok (t, events) →
      ∀ frame ∈ heardSoFar 4 events t.audio, frame ∈ playedFrames 4 fourFrames := by
  refine ⟨by decide +kernel, ?_⟩
  intro t events hrun
  have hsent : ∀ p ∈ scrambledFrames, p ∈ pairZone.emitted fourFrames := by
    simp [scrambledFrames]
  obtain ⟨s, out, hloop, hheard⟩ := only_played_frames_heard fresh_pairZone callOk_fourFrames
    (by decide +kernel) hsent (listening_playOut hrun)
  exact hheard fun p hp => by rwa [packetsOf_playOut, passedOn_of_run hloop] at hp

/-! ## Over a link that keeps the order -/

section

variable {n : Nat} {z : Zone} {ops : List Zone.Op}

/-- The frames of a list of packets only depend on what they carry. -/
theorem framesOf_carried (n : Nat) (packets : List FecPacket) :
    framesOf n packets = (packets.map carried).flatMap fun c => frames n c.2 := by
  rw [framesOf, List.flatMap_map]
  rfl

theorem framesOf_sublist {packets sent : List FecPacket}
    (h : (packets.map carried).Sublist (sent.map carried)) :
    (framesOf n packets).Sublist (framesOf n sent) := by
  rw [framesOf_carried, framesOf_carried]
  exact h.flatMap _

end

/-- **Loss is heard as skips, and nothing else.** A zone sends fewer than 65536 packets,
with FEC switched as it likes, over a link that loses some and keeps the order of the
rest. An application that is given packets of the receive loop in their order plays
the frames of the calls on the zone in their order, with some left out and some
repeated in place. -/
theorem lossy_zone_is_heard {dec : Decoders} {build : Build} {format : AudioFormat}
    {channels : UInt8} {s₀ t : Endpoint (cpalBackend dec)} {acts : List (Action (cpalBackend dec))}
    {events : List Cpal.Event} {z : Zone} (hz : Fec.Fresh z) {ops : List Zone.Op}
    (hcalls : ∀ a, .sendAudioAll a ∈ ops → CallOk a) (hlen : (z.emitted ops).length < 65536)
    {arrivals : List FecPacket} (hlossy : arrivals.Sublist (z.emitted ops))
    (h : Listening build format channels s₀ acts t events) :
    ∃ s out, run (audioReceive .release) .new (arrivals.map datagram) = .ok (s, out) ∧
      ((packetsOf acts).Sublist out →
        Warped (playedFrames (Cpal.frameSize format channels) ops)
          (heardSoFar (Cpal.frameSize format channels) events t.audio)) := by
  have hl := laid_emitted hz (opOk_of_callOk hcalls) hlen
  obtain ⟨s, out, bound, hrun, hordered⟩ :=
    (ordered_new z.sequence (z.emitted ops) 0).receiveAll (s := .new) hl
      (fun p hp => sendable_emitted hcalls hl.stream hp) (fun p hp => hlossy.subset hp)
      (hl.rising.sublist hlossy) (fun _ _ => Nat.zero_le _)
  rw [List.nil_append] at hordered
  refine ⟨s, out, hrun, ?_⟩
  intro hgiven
  obtain ⟨hdelivers, hoffered⟩ := h.delivers
  have hwarped := hdelivers.warped
  rw [hoffered, broughtFrames_eq] at hwarped
  rw [← framesOf_emitted hcalls (z := z)]
  refine hwarped.of_sublist (framesOf_sublist ?_)
  exact (hgiven.map carried).trans (carried_sublist hl hordered.genuine hordered.rising)

/-- The second packet is lost and rebuilt, so nothing is skipped here. -/
theorem lossy_zone_is_heard_rebuilt :
    (run (sounding .release) proposedEndpoint
        (playOut (passedOn ((pairZone.emitted fourFrames).eraseIdx 1)))).map
      (fun r => heardSoFar 4 r.2 r.1.audio) = .ok (playedFrames 4 fourFrames) ∧
    ∀ t events, run (sounding .release) proposedEndpoint
        (playOut (passedOn ((pairZone.emitted fourFrames).eraseIdx 1))) = .ok (t, events) →
      Warped (playedFrames 4 fourFrames) (heardSoFar 4 events t.audio) := by
  refine ⟨by decide +kernel, ?_⟩
  intro t events hrun
  obtain ⟨s, out, hloop, hheard⟩ := lossy_zone_is_heard fresh_pairZone callOk_fourFrames
    (by decide +kernel) (List.eraseIdx_sublist _ 1) (listening_playOut hrun)
  refine hheard ?_
  rw [packetsOf_playOut, passedOn_of_run hloop]

/-! ## Over a link that keeps everything -/

section

variable {z : Zone} {ops : List Zone.Op}

theorem inStep_new (hz : Fec.Fresh z) : InStep z AudioLoop.new.fecRx where
  idle _ := rfl
  recovered := rfl
  group enc henc := by
    refine ⟨[], by rw [hz enc henc]; exact FecEncoder.holds_new _, by simp, ?_⟩
    exact .fresh rfl (fun hb => by cases hb) (fun hb => by cases hb)

theorem steady_new (z : Zone)
    (hcase : (∀ op ∈ ops, ∃ a, op = .sendAudioAll a) ∨ (z.emitted ops).length < 65536) :
    Steady z AudioLoop.new.fecRx ops := by
  refine hcase.imp id fun hlen => ⟨z.sequence, 0, ⟨fun _ => rfl, ?_⟩, by simp, by omega⟩
  intro x hx
  rcases hx with hx | hx <;> cases hx

end

/-- **What is played is heard.** A zone's run reaches the endpoint whole and in order: of
any length as long as it only sends, and below 65536 packets when it switches FEC. Once
the application has been given what the receive loop passes on, and as long as its
packets find no correction pending and room in the ring, the frames heard, those in the
ring, and those that wait for the rest of their group are the frames of the calls on
the zone. -/
theorem zone_is_heard_exactly {dec : Decoders} {build : Build} {format : AudioFormat}
    {channels : UInt8} {s₀ t : Endpoint (cpalBackend dec)} {acts : List (Action (cpalBackend dec))}
    {events : List Cpal.Event} {z : Zone} (hz : Fec.Fresh z) {ops : List Zone.Op}
    (hcalls : ∀ a, .sendAudioAll a ∈ ops → CallOk a)
    (hcase : (∀ op ∈ ops, ∃ a, op = .sendAudioAll a) ∨ (z.emitted ops).length < 65536)
    (h : Listening build format channels s₀ acts t events)
    (hsmooth : Along (sounding build) Smooth s₀ acts) :
    ∃ s out r waiting,
      run (audioReceive .release) .new ((z.emitted ops).map datagram) = .ok (s, out) ∧
      s.fecRx.flush .release = .ok (r, waiting) ∧
      (packetsOf acts = out →
        heardSoFar (Cpal.frameSize format channels) events t.audio ++
            framesOf (Cpal.frameSize format channels) waiting =
          playedFrames (Cpal.frameSize format channels) ops) := by
  obtain ⟨s, out, hrun, -, hout, hin, -⟩ :=
    InStep.runOps (b := .release) ops z .new (inStep_new hz) hcalls (steady_new z hcase) nofun
  obtain ⟨⟨r, waiting⟩, hflush⟩ := flush_release s.fecRx
  obtain ⟨rfl, -⟩ := flushed_idle hin.idle (flush_cases hflush)
  refine ⟨s, out, r, _, hrun, hflush, ?_⟩
  intro hgiven
  obtain ⟨hplays, hoffered⟩ := h.plays hsmooth
  have hexact := hplays.exact
  rw [hoffered, broughtFrames_eq, hgiven] at hexact
  have hnew : AudioLoop.new.fecRx.held = [] := rfl
  rw [hnew, List.nil_append] at hout
  unfold heardSoFar
  rw [hexact, ← framesOf_append, hout, framesOf_emitted hcalls]

/-- Four frames are played, two of them are heard, and two are in the ring. -/
theorem zone_is_heard_exactly_fourFrames :
    (run (sounding .release) proposedEndpoint
        (playOut (passedOn (pairZone.emitted fourFrames)))).map
      (fun r => Cpal.heardFrames 4 r.2) = .ok [[1, 0, 2, 0], [3, 0, 4, 0]] ∧
    ∀ t events, run (sounding .release) proposedEndpoint
        (playOut (passedOn (pairZone.emitted fourFrames))) = .ok (t, events) →
      ∃ waiting, heardSoFar 4 events t.audio ++ framesOf 4 waiting =
        [[1, 0, 2, 0], [3, 0, 4, 0], [5, 0, 6, 0], [7, 0, 8, 0]] := by
  refine ⟨by decide +kernel, ?_⟩
  intro t events hrun
  obtain ⟨s, out, r, waiting, hloop, -, hheard⟩ := zone_is_heard_exactly fresh_pairZone
    callOk_fourFrames (.inr (by decide +kernel)) (listening_playOut hrun) (by decide +kernel)
  exact ⟨waiting, hheard (by rw [packetsOf_playOut, passedOn_of_run hloop])⟩

/-! ## To a DAC -/

section

variable {conv : Conversions} {format : AudioFormat} {channels : UInt8}

/-- What the passes bring is what their packets carry. -/
theorem brought_eq (acts : List (Action (alsaBackend conv))) :
    brought acts = ((packetsOf acts).map Prod.snd).filter (!·.isEmpty) := by
  induction acts with
  | nil => rfl
  | cons a acts ih =>
    have hsplit : packetsOf (a :: acts) = packetsOf [a] ++ packetsOf acts := by simp [packetsOf]
    rw [brought_cons a acts, hsplit, List.map_append, List.filter_append, ih]
    congr 1
    cases a with
    | event e w host => cases e <;> rfl
    | _ => rfl

theorem converted_nil (format : AudioFormat) (channels : UInt8) :
    Alsa.converted format channels [] = [] := by
  have hnone : ∀ n, frames n ([] : List UInt8) = [] := fun n => by simp [frames, chunk]
  cases format with
  | dsdU8 => simp [Alsa.converted, packDsdU8ToU32Be, hnone]
  | pcmS24le => simp [Alsa.converted, padS24ToS32, hnone]
  | dsdU32le => simp [Alsa.converted, dsdU32leToBe, hnone]
  | _ => rfl

/-- Empty payloads add nothing. -/
theorem received_filter (format : AudioFormat) (channels : UInt8) (payloads : List (List UInt8)) :
    Alsa.received format channels (payloads.filter (!·.isEmpty)) =
      Alsa.received format channels payloads := by
  induction payloads with
  | nil => rfl
  | cons payload payloads ih =>
    cases payload with
    | nil =>
      refine ih.trans ?_
      simp [Alsa.received, converted_nil, wholeFrames]
    | cons b rest => exact congrArg (_ ++ ·) ih

/-- **The device bytes of a stream**, however it is cut into payloads of whole wire
frames: for `DSD_U8` and `DSD_U16LE`, between the device frames. -/
theorem received_flatten {payloads : List (List UInt8)} (hraw : Alsa.IsRaw format)
    (hch : 1 ≤ channels.toNat)
    (hframes : ∀ payload ∈ payloads, bytesPerFrame format channels ∣ payload.length)
    (hcut : (format ≠ .dsdU8 ∧ format ≠ .dsdU16le) ∨
      Aligned (4 * channels.toNat) (payloads.map List.length)) :
    Alsa.received format channels payloads =
      wholeFrames (Alsa.deviceFrameBytes format channels.toNat)
        (Alsa.converted format channels payloads.flatten) := by
  have hsizes : ∀ n ∈ payloads.map List.length, bytesPerFrame format channels ∣ n := by
    intro n hn
    obtain ⟨payload, hmem, rfl⟩ := List.mem_map.mp hn
    exact hframes payload hmem
  exact (Alsa.received_iff hraw hch hsizes).mpr hcut payloads rfl

end

/-- **What is played reaches the DAC.** An ALSA endpoint accepts a proposal of PCM or DSD at
full volume. A zone's run of whole wire frames reaches it whole and in order: of any
length as long as it only sends, and below 65536 packets when it switches FEC. Once the
application has been given what the receive loop passes on, and as long as the output
plays when a packet comes: what the DAC has taken, what its writer holds, and what waits
for the rest of a group, is the conversion of what was played, to the byte. -/
theorem zone_reaches_dac {conv : Conversions} {build : Build} {fp : FormatPropose}
    {s₀ : Endpoint (alsaBackend conv)} (h : Streams build fp s₀) {z : Zone} (hz : Fec.Fresh z)
    {ops : List Zone.Op} (hcalls : ∀ a, .sendAudioAll a ∈ ops → CallOk a)
    (hcase : (∀ op ∈ ops, ∃ a, op = .sendAudioAll a) ∨ (z.emitted ops).length < 65536)
    (hframes : ∀ payload ∈ playedPayloads ops,
      bytesPerFrame fp.format fp.channels ∣ payload.length)
    (hcut : (fp.format ≠ .dsdU8 ∧ fp.format ≠ .dsdU16le) ∨
      Aligned (4 * fp.channels.toNat) ((playedPayloads ops).map List.length)) :
    ∃ id s out r waiting, (Alsa.output s₀.audio).writer = some id ∧
      run (audioReceive .release) .new ((z.emitted ops).map datagram) = .ok (s, out) ∧
      s.fecRx.flush .release = .ok (r, waiting) ∧
      ∀ acts t events, Onward build id s₀ acts → Along (feeding id build) Sounding s₀ acts →
        packetsOf acts = out → run (feeding id build) s₀ acts = .ok (t, events) →
        tookBytes events ++
            pending (Alsa.deviceFrameBytes fp.format fp.channels.toNat) id t.audio ++
            Alsa.received fp.format fp.channels (waiting.map Prod.snd) =
          wholeFrames (Alsa.deviceFrameBytes fp.format fp.channels.toNat)
            (Alsa.converted fp.format fp.channels (playedPayloads ops).flatten) := by
  obtain ⟨hreleased, id, params, hframe, hwriter⟩ := h.fed
  obtain ⟨s, out, hrun, -, hout, hin, -⟩ :=
    InStep.runOps (b := .release) ops z .new (inStep_new hz) hcalls (steady_new z hcase) nofun
  obtain ⟨⟨r, waiting⟩, hflush⟩ := flush_release s.fecRx
  obtain ⟨rfl, -⟩ := flushed_idle hin.idle (flush_cases hflush)
  refine ⟨id, s, out, r, _, hwriter.writer, hrun, hflush, ?_⟩
  intro acts t events honward hsounds hgiven hfed
  obtain ⟨haccount, -, haccepted⟩ := honward.account h.raw hreleased hframe hwriter hfed
  have hnew : AudioLoop.new.fecRx.held = [] := rfl
  rw [hnew, List.nil_append] at hout
  rw [haccount, haccepted hsounds, brought_eq, received_filter, hgiven, Alsa.received,
    Alsa.received, ← List.flatMap_append, ← List.map_append, hout, payloads_emitted hcalls]
  exact received_flatten h.raw h.channels hframes hcut

/-- Play, and then each packet, which the device takes at once. -/
def feedOut (packets : List FecPacket) : List (Action (alsaBackend Alsa.plainConversions)) :=
  alsaEvent (.control (.playback (.play "s"))) [] :: .host [.thread 0 0 .go] ::
    packets.map fun p => alsaEvent (.audioPacket p.1 p.2)
      [.thread 0 0 .go, .thread 0 0 .go, .thread 0 0 .go, .thread 0 0 (.wrote (.ok 2))]

theorem packetsOf_feedOut (packets : List FecPacket) : packetsOf (feedOut packets) = packets := by
  simp only [feedOut, packetsOf, alsaEvent, List.flatMap_cons, List.nil_append, List.flatMap_map]
  exact List.flatMap_singleton' packets

theorem keepsRing_feedOut (packets : List FecPacket) : ∀ a ∈ feedOut packets, KeepsRing a := by
  intro a ha
  rcases List.mem_cons.mp ha with rfl | ha
  · trivial
  · rcases List.mem_cons.mp ha with rfl | ha
    · trivial
    · obtain ⟨p, -, rfl⟩ := List.mem_map.mp ha
      trivial

/-- Four frames are played, and the device has them. -/
theorem zone_reaches_dac_fourFrames :
    (run (feeding 0 .release) streamingEndpoint
        (feedOut (passedOn (pairZone.emitted fourFrames)))).map
      (fun r => tookBytes r.2) = .ok [1, 0, 2, 0, 3, 0, 4, 0, 5, 0, 6, 0, 7, 0, 8, 0] ∧
    ∀ t events, run (feeding 0 .release) streamingEndpoint
        (feedOut (passedOn (pairZone.emitted fourFrames))) = .ok (t, events) →
      ∃ waiting : List FecPacket, tookBytes events ++ pending 4 0 t.audio ++
          Alsa.received .pcmS16le 2 (waiting.map Prod.snd) =
        [1, 0, 2, 0, 3, 0, 4, 0, 5, 0, 6, 0, 7, 0, 8, 0] := by
  refine ⟨by decide +kernel, ?_⟩
  intro t events hrun
  obtain ⟨id, s, out, r, waiting, hid, hloop, -, hgets⟩ :=
    zone_reaches_dac streams_streamingEndpoint fresh_pairZone callOk_fourFrames
      (.inr (by decide +kernel)) (by decide) (.inl ⟨nofun, nofun⟩)
  obtain rfl : 0 = id := Option.some.inj (writer_streamingEndpoint.symm.trans hid)
  refine ⟨waiting, hgets _ t events ⟨keepsRing_feedOut _, by decide +kernel⟩
    (by decide +kernel) ?_ hrun⟩
  rw [packetsOf_feedOut, passedOn_of_run hloop]

end Oaat.Cli
