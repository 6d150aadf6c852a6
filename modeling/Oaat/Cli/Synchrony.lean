/-
Oaat.Cli.Synchrony — the rooms of a zone play together.

Each room runs its own exchange with the controller (`Net`), arms at its own
packet, and starts when its own clock shows the local time of the stream's
start. What the rooms have in common is the start itself, in the controller's
time. So the instants at which two rooms start are no further apart than their
clocks are from the controller's, each by half its largest RTT. While they
play, the two servos measure against the same start, and the positions of two
rooms at one instant differ by no more than what the servos measure and what
the clocks are off.
-/
import Oaat.Cli.ScheduledStart
import Oaat.Clock.Anchored
import Oaat.Clock.Published

namespace Oaat.Cli

open Oaat.Core Oaat.Endpoint Oaat.Lib Oaat.Clock

/-- A pass reads the clock of a state of the room's exchange. -/
structure Reads {o : ℤ} (w : World) (s : Net o) : Prop where
  reachable : Reachable s
  clock_eq : w.clock = s.clock
  now_eq : w.now = s.now.localNs

/-! ## The start -/

section

variable {build : Build} {dec : Decoders} {start : UInt64} {rate : UInt32}
  {s t : Endpoint (cpalBackend dec)} {acts : List (Action (cpalBackend dec))}
  {header : AudioPacketHeader} {payload : List UInt8} {w : World} {h : CpalHost} {localNs : Nat}
  {tracker : PtsTracker}

/-- A start that waits has a clock, and less than five seconds to go. -/
theorem deferredStart_lead {B : Backend} {s : Endpoint B} {head : UInt64}
    (hwaits : (s.deferredStart w head).started = false) :
    w.clock.bootstrapped = true ∧ w.now.toNat < (w.clock.controllerToLocal head).toNat ∧
      (w.clock.controllerToLocal head).toNat < w.now.toNat + 5_000_000_000 := by
  unfold Endpoint.deferredStart at hwaits
  dsimp only at hwaits
  split at hwaits
  next hlead =>
    simp only [Bool.and_eq_true, decide_eq_true_eq] at hlead
    exact ⟨hlead.1.1, by omega, by omega⟩
  next => cases hwaits

theorem Prefills.lead (hfill : Prefills build start rate s acts)
    (harr : Arrives build s acts header payload w h t)
    (hsched : Schedules build header payload w h t localNs tracker) :
    w.clock.bootstrapped = true ∧ w.now.toNat < localNs ∧
      localNs < w.now.toNat + 5_000_000_000 := by
  obtain ⟨hlocal, -⟩ := hfill.schedules harr hsched
  obtain ⟨harmed, hstarted, t', effects, deadline, hstep, hwaits, -⟩ := hsched
  obtain ⟨-, -, hstarts⟩ := hfill.starts harr
  obtain ⟨audio, effects', hstep'⟩ := hstarts harmed hstarted
  rw [hstep'] at hstep
  cases hstep
  rw [hlocal]
  exact deferredStart_lead hwaits

/-- An armed output with so much lead is scheduled. -/
theorem Prefills.schedules_of_lead (hfill : Prefills build start rate s acts)
    (harr : Arrives build s acts header payload w h t) (harmed : t.armed = true)
    (hstarted : t.started = false) (hboot : w.clock.bootstrapped = true)
    (hlo : w.now.toNat < (w.clock.controllerToLocal start).toNat)
    (hhi : (w.clock.controllerToLocal start).toNat < w.now.toNat + 5_000_000_000) :
    Schedules build header payload w h t (w.clock.controllerToLocal start).toNat
      { startNs := start, sampleRate := rate } := by
  obtain ⟨hrate, -, hstarts⟩ := hfill.starts harr
  obtain ⟨audio, effects, hstep⟩ := hstarts harmed hstarted
  refine ⟨harmed, hstarted, _, effects,
    w.instant + ((w.clock.controllerToLocal start).toNat - w.now.toNat), hstep, ?_⟩
  unfold Endpoint.deferredStart
  dsimp only
  rw [if_pos (by simp only [hboot, Bool.true_and, Bool.and_eq_true, decide_eq_true_eq]; omega)]
  exact ⟨hstarted, rfl, by omega, by rw [hrate]⟩

/-- A start that is scheduled is no further from the start of the stream, in the
controller's time, than the room's clock is off. -/
theorem Prefills.start_near {o : ℤ} {net : Net o} (hfill : Prefills build start rate s acts)
    (harr : Arrives build s acts header payload w h t)
    (hsched : Schedules build header payload w h t localNs tracker) (hreads : Reads w net)
    (hstart : start.toNat < 2 ^ 63) (hnow : w.now.toNat + 5_000_000_000 < 2 ^ 63) :
    |((localNs + o : ℤ) : ℚ) - start.toNat| ≤ net.error := by
  obtain ⟨hlocal, -⟩ := hfill.schedules harr hsched
  obtain ⟨hboot, hlo, hhi⟩ := hfill.lead harr hsched
  rw [hreads.clock_eq] at hboot hlocal
  rw [hlocal] at hlo hhi
  have hexact := controllerToLocal_eq hreads.reachable.published hstart (by omega) (by omega)
  have hdiff : (localNs + o : ℤ) - start.toNat = -(roundNs net.clock.state.offsetNs - o) := by
    omega
  have hcast := congrArg (fun z : ℤ => (z : ℚ)) hdiff
  simp only [Int.cast_sub, Int.cast_neg, Int.cast_natCast] at hcast
  rw [hcast, abs_neg]
  exact hreads.reachable.offset_near hboot

end

/-- A room's application schedules the start of the stream from `start` on for the
instant `starts`: some packet arrives on the prefilled output, and the pass reads
the room's clock. -/
def Room.StartsAt {o : ℤ} (room : Process) (net : Net o) (start : UInt64) (rate : UInt32)
    (starts : Nat) : Prop :=
  room.Fits starts ∧
  ∃ (build : Build) (dec : Decoders) (s t : Endpoint (cpalBackend dec))
    (acts : List (Action (cpalBackend dec))) (header : AudioPacketHeader) (payload : List UInt8)
    (w : World) (h : CpalHost) (tracker : PtsTracker),
    Prefills build start rate s acts ∧ Arrives build s acts header payload w h t ∧
      Schedules build header payload w h t (room.nowNs starts).toNat tracker ∧ Reads w net ∧
      w.now.toNat + 5_000_000_000 < 2 ^ 63

/-- In less time fewer frames pass, and in some more time at most a frame more than
fit it. -/
theorem framesIn_close {rate a b : Nat} {m : ℚ} (h : |(a : ℚ) - b| ≤ m) :
    |(framesIn rate a : ℚ) - framesIn rate b| ≤ m * rate / 1_000_000_000 + 1 := by
  have hfloor : ∀ ns : Nat, (framesIn rate ns : ℚ) ≤ ns * rate / 1_000_000_000 ∧
      (ns * rate / 1_000_000_000 : ℚ) < framesIn rate ns + 1 := by
    intro ns
    have hdiv := Nat.div_add_mod (ns * rate) 1_000_000_000
    have hmod := Nat.mod_lt (ns * rate) (by decide : 0 < 1_000_000_000)
    rw [← framesIn] at hdiv
    rw [le_div_iff₀ (by norm_num), div_lt_iff₀ (by norm_num)]
    constructor
    · exact_mod_cast (show framesIn rate ns * 1_000_000_000 ≤ ns * rate by omega)
    · exact_mod_cast (show ns * rate < (framesIn rate ns + 1) * 1_000_000_000 by omega)
  obtain ⟨ha, ha'⟩ := hfloor a
  obtain ⟨hb, hb'⟩ := hfloor b
  have hrate : (0 : ℚ) ≤ rate := Nat.cast_nonneg rate
  obtain ⟨hlo, hhi⟩ := abs_le.mp h
  have h₁ : ((a : ℚ) - b) * rate ≤ m * rate := mul_le_mul_of_nonneg_right hhi hrate
  have h₂ : -(m * rate) ≤ ((a : ℚ) - b) * rate := by
    have := mul_le_mul_of_nonneg_right hlo hrate
    linarith
  rw [abs_le]
  constructor <;> linarith

/-- The drift that the servo measures, when nothing is out of range. -/
theorem driftFrames_exact {build : Build} {t : PtsTracker} {now : UInt64} {frames : Nat} {d : Int}
    (hrate : t.sampleRate.toNat ≤ 1_000_000_000) (hnow : now.toNat < 2 ^ 63)
    (hframes : frames < 2 ^ 63) (hd : t.driftFrames build now frames = .ok d) :
    d = (framesIn t.sampleRate.toNat (now.toNat - t.startNs.toNat) : ℤ) - frames := by
  have hexpected : framesIn t.sampleRate.toNat (now.toNat - t.startNs.toNat) < 2 ^ 63 := by
    have hmul := Nat.mul_le_mul_left (now.toNat - t.startNs.toNat) hrate
    unfold framesIn
    omega
  rw [driftFrames_eq] at hd
  obtain ⟨i, hi, hilo, hihi⟩ :=
    wrap64 (framesIn t.sampleRate.toNat (now.toNat - t.startNs.toNat) : Nat)
  obtain ⟨j, hj, hjlo, hjhi⟩ := wrap64 (frames : Nat)
  generalize ((framesIn t.sampleRate.toNat (now.toNat - t.startNs.toNat) : Nat) : Int).bmod (2 ^ 64)
    = v at *
  generalize (frames : Int).bmod (2 ^ 64) = v' at *
  rw [Build.i64_of_fits build (by unfold InI64; omega)] at hd
  cases hd
  omega

/-- A servo tick of a room that plays the stream from `start` on: at the instant of
`net`, with `frames` played, it measures the drift `d`. -/
structure Measures {o : ℤ} {B : Backend} (net : Net o) (start : UInt64) (rate : UInt32)
    (s : Endpoint B) (w : World) (frames : Nat) (d : Int) : Prop where
  reads : Reads w net
  bootstrapped : w.clock.bootstrapped = true
  tracker : s.tracker = some { startNs := start, sampleRate := rate }
  domain : s.trackerIsControllerDomain = true
  position : B.contentPosition s.audio = some frames
  fits : frames < 2 ^ 63
  drift : ∃ build, PtsTracker.driftFrames build { startNs := start, sampleRate := rate }
    (s.trackerNow w) frames = .ok d

/-- What a room has played is what the controller's clock asks for, but for what the
servo measures and the clock is off. -/
theorem Measures.position_near {o : ℤ} {B : Backend} {net : Net o} {start : UInt64} {rate : UInt32}
    {s : Endpoint B} {w : World} {frames : Nat} {d : Int}
    (h : Measures net start rate s w frames d) (hrate : rate.toNat ≤ 1_000_000_000)
    (hlocal : net.now.localNs.toNat < 2 ^ 63) (hlo : 1_000_000_000 ≤ net.now.controllerNs.toNat)
    (hhi : net.now.controllerNs.toNat + 1_000_000_000 < 2 ^ 63) :
    ∃ estimate : Nat, |(estimate : ℚ) - net.now.controllerNs.toNat| ≤ net.error ∧
      (frames : ℤ) + d = framesIn rate.toNat (estimate - start.toNat) := by
  have hboot := h.bootstrapped
  rw [h.reads.clock_eq] at hboot
  obtain ⟨hfits, hnear⟩ := h.reads.reachable.localToController_near hboot hlocal hlo hhi
  obtain ⟨build, hd⟩ := h.drift
  rw [Endpoint.trackerNow, h.domain, if_pos rfl, h.reads.clock_eq, h.reads.now_eq] at hd
  have hexact := driftFrames_exact hrate hfits h.fits hd
  exact ⟨_, hnear, by rw [hexact]; ring⟩

/-- A process whose clock was set to `wallNs` at the beginning of time. -/
def startedAt (wallNs : UInt64) : Process where
  machine := { boot := 0, wallNs := fun _ => wallNs }
  originAt := 0
  monoAt := 0
  wallAt := 0
  ordered := ⟨le_rfl, le_rfl, le_rfl⟩

theorem startedAt_fits {wallNs : UInt64} (h : wallNs.toNat < 2 ^ 40) {t : Nat} (ht : t ≤ 10 ^ 10) :
    (startedAt wallNs).Fits t := by
  refine ⟨Nat.zero_le t, ?_, ?_⟩
  · change t - 0 < 2 ^ 64
    omega
  · change (t : ℤ) + ((wallNs.toNat : ℤ) - (0 : ℕ)) < 2 ^ 64
    omega

def controller : Process := startedAt 1_000_000_500

/-- What the clocks show at an instant of the first ten seconds. -/
def showing (wallNs : UInt64) (h : wallNs.toNat < 2 ^ 40) (t : Nat) :
    Instant (controller.epoch - (startedAt wallNs).epoch) :=
  Process.instant (startedAt wallNs) controller (min t (10 ^ 10))
    (startedAt_fits h (Nat.min_le_right _ _)) (startedAt_fits (by decide) (Nat.min_le_right _ _))

theorem showing_le {wallNs : UInt64} {h : wallNs.toNat < 2 ^ 40} {t u : Nat} (htu : t ≤ u) :
    (showing wallNs h t).localNs ≤ (showing wallNs h u).localNs := by
  have ht := Process.toNat_nowNs (startedAt_fits h (Nat.min_le_right t (10 ^ 10)))
  have hu := Process.toNat_nowNs (startedAt_fits h (Nat.min_le_right u (10 ^ 10)))
  rw [UInt64.le_iff_toNat_le]
  change ((startedAt wallNs).nowNs (min t (10 ^ 10))).toNat ≤
    ((startedAt wallNs).nowNs (min u (10 ^ 10))).toNat
  omega

/-- A room after `n` exchanges, a microsecond apart: so many nanoseconds there, ten at
the controller, and forty back. -/
def syncing (wallNs : UInt64) (h : wallNs.toNat < 2 ^ 40) (there : Nat) :
    Nat → Net (controller.epoch - (startedAt wallNs).epoch)
  | 0 => Net.start (showing wallNs h 0)
  | n + 1 =>
    { syncing wallNs h there n with now := showing wallNs h (1000 * n) }.exchange
      (showing wallNs h (1000 * n + there)) (showing wallNs h (1000 * n + there + 10))
      (showing wallNs h (1000 * n + there + 50))

theorem syncing_reachable (wallNs : UInt64) (h : wallNs.toNat < 2 ^ 40) {there : Nat}
    (hthere : there ≤ 900) (n : Nat) :
    Reachable (syncing wallNs h there n) ∧ (syncing wallNs h there n).inService = none ∧
      (syncing wallNs h there n).now.localNs ≤ (showing wallNs h (1000 * n)).localNs := by
  induction n with
  | zero => exact ⟨⟨_, .refl⟩, rfl, showing_le le_rfl⟩
  | succ n ih =>
    obtain ⟨⟨now, hrun⟩, hfree, hle⟩ := ih
    have hticked : Reachable { syncing wallNs h there n with now := showing wallNs h (1000 * n) } :=
      ⟨now, .tail hrun (.tick _ hle)⟩
    refine ⟨hticked.exchange hfree ?_ ?_ ?_, rfl, ?_⟩
    all_goals exact showing_le (by omega)

/-- A room once it has made ten exchanges, at an instant. -/
def synced (wallNs : UInt64) (h : wallNs.toNat < 2 ^ 40) (there t : Nat) :
    Net (controller.epoch - (startedAt wallNs).epoch) :=
  { syncing wallNs h there 10 with now := showing wallNs h t }

theorem synced_reachable (wallNs : UInt64) (h : wallNs.toNat < 2 ^ 40) {there t : Nat}
    (hthere : there ≤ 900) (ht : 10_000 ≤ t) : Reachable (synced wallNs h there t) := by
  obtain ⟨⟨now, hrun⟩, -, hle⟩ := syncing_reachable wallNs h hthere 10
  exact ⟨now, .tail hrun (.tick _ (UInt64.le_trans hle (showing_le (by omega))))⟩

/-- One room's clock is 500 ns behind the controller's, and measures that. -/
def kitchen : Net (controller.epoch - (startedAt 1_000_000_000).epoch) :=
  synced 1_000_000_000 (by decide) 40 899_000_000

/-- The other's is 1500 ns behind, and measures 10 ns more. -/
def study : Net (controller.epoch - (startedAt 999_999_000).epoch) :=
  synced 999_999_000 (by decide) 60 899_900_000

/-- A pass that reads a room's clock. -/
def worldOf {o : ℤ} (net : Net o) : World :=
  { localWorld net.now.localNs 0 with clock := net.clock }

/-- The first packet of a stream, which starts when the controller's clock shows two
seconds. -/
def openingPacket {o : ℤ} (net : Net o) : Action (cpalBackend Cpal.pcmOnly) :=
  streamPacket 2_000_000_000 [1, 0, 2, 0] (worldOf net)

theorem openingPacket_prefills {o : ℤ} (net : Net o) :
    Prefills .release 2_000_000_000 48000 (stereoEndpoint true) [openingPacket net] where
  rate_eq := rfl
  rate_pos := by decide
  pcm := rfl
  isOpen := rfl
  empty := rfl
  keeps := by simp [openingPacket, streamPacket, KeepsRing]
  contiguous := by
    rw [← List.nil_append [_], each_concat]
    exact ⟨each_nil _, by decide, by decide, by decide +kernel⟩
  stopped := by
    have hroom : ([1, 0, 2, 0] : List UInt8).length + (Cpal.inRing Cpal.stereoOutput).length ≤
        Cpal.ringSize Cpal.stereoOutput := by decide
    exact ⟨⟨rfl, rfl, rfl, hroom⟩, fun _ _ _ => trivial⟩

/-- A room whose clock is ready starts with that packet. -/
theorem startsAt_opening {o : ℤ} {room : Process} {net : Net o} {starts : Nat}
    (hreach : Reachable net) (hfits : room.Fits starts) (hboot : net.clock.bootstrapped = true)
    (hat : (room.nowNs starts).toNat = (net.clock.controllerToLocal 2_000_000_000).toNat)
    (hlo : net.now.localNs.toNat < (room.nowNs starts).toNat)
    (hhi : (room.nowNs starts).toNat < net.now.localNs.toNat + 5_000_000_000)
    (hnow : net.now.localNs.toNat + 5_000_000_000 < 2 ^ 63) :
    Room.StartsAt room net 2_000_000_000 48000 starts := by
  have harr : Arrives .release (stereoEndpoint true) [openingPacket net]
      { someHeader with ptsNs := 2_000_000_000 } [1, 0, 2, 0] (worldOf net) willing
      (stereoEndpoint true) := ⟨[], [], [], rfl, rfl⟩
  rw [hat] at hlo hhi
  have hsched := (openingPacket_prefills net).schedules_of_lead harr rfl rfl hboot hlo hhi
  rw [worldOf, ← hat] at hsched
  exact ⟨hfits, .release, Cpal.pcmOnly, stereoEndpoint true, stereoEndpoint true, _, _, _, _, _, _,
    openingPacket_prefills net, harr, hsched, ⟨hreach, rfl, rfl⟩, hnow⟩

/-- A room that plays the stream and has taken so many samples of it. -/
def playingRoom (samplesPlayed : Nat) : Endpoint (cpalBackend Cpal.pcmOnly) :=
  { stereoEndpoint false with
    started := true
    audio := { Cpal.stereoOutput with samplesPlayed }
    tracker := some { startNs := 2_000_000_000, sampleRate := 48000 }
    trackerIsControllerDomain := true }

end Oaat.Cli
