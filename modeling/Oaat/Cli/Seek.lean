/-
Oaat.Cli.Seek — what a seek leaves of the output's configuration.

The application seeks with `flush`, which both outputs do by closing the output
and configuring it anew. The ALSA output has kept the requested device for that
and asks for it again. The cpal output has kept what it opened, and asks for no
device in particular: its first flush goes to the default device of that moment,
and the cache keeps it there.
-/
import Oaat.Alsa.OpenFlag
import Oaat.Cli.Outputs
import Oaat.Endpoint.DeviceResolution

namespace Oaat.Cli

open Oaat.Core Oaat.Endpoint Oaat.Lib

/-! ## cpal -/

/-- The calls between two configurations, and the callbacks of the device. -/
inductive CpalCall (Device : Type) where
  | play
  | pause
  | writeAudio (data : List UInt8) (during : List Nat)
  | setVolume (level : UInt8)
  | flush (host : AudioHost Device)
  | callback (wanted : Nat)

/-- A call. The results are those of the configurations, which `flush` ignores. -/
def cpalStep {Device : Type} (lower : String → String) (dec : Decoders)
    (s : CpalDeviceOutput Device) :
    CpalCall Device → Except Panic (CpalDeviceOutput Device × List (Except String Unit))
  | .play => .ok ({ s with output := s.output.play }, [])
  | .pause => .ok ({ s with output := s.output.pause }, [])
  | .writeAudio data during =>
    match s.output.writeAudio dec data during with
    | .error e => .error e
    | .ok (output, _, _) => .ok ({ s with output }, [])
  | .setVolume level => .ok ({ s with output := s.output.setVolume level }, [])
  | .flush host =>
    let (s, r) := s.flush lower host
    .ok (s, [r])
  | .callback wanted => .ok ({ s with output := (s.output.callback wanted).1 }, [])

/-- The configuration of a call succeeds. -/
def Opens {Device : Type} (lower : String → String) (s : CpalDeviceOutput Device) :
    CpalCall Device → Prop
  | .flush host => (s.flush lower host).2 = .ok ()
  | _ => True

/-- The host that the first flush finds. -/
def firstFlush {Device : Type} (calls : List (CpalCall Device)) : Option (AudioHost Device) :=
  calls.findSome? fun
    | .flush host => some host
    | _ => none

/-- A stream is open in this configuration. -/
structure Streaming (format : AudioFormat) (sampleRate : UInt32) (channels : UInt8)
    (o : CpalOutput) : Prop where
  format_eq : o.format = format
  sampleRate_eq : o.sampleRate = sampleRate
  channels_eq : o.channels = channels
  isOpen : o.stream.isSome = true

section

variable {format : AudioFormat} {sampleRate : UInt32} {channels : UInt8} {o o' : CpalOutput}

/-- The output is configured, and no correction was asked for. -/
structure Settled (format : AudioFormat) (sampleRate : UInt32) (channels : UInt8)
    (o : CpalOutput) : Prop extends Streaming format sampleRate channels o where
  correction_eq : o.correction = 0

theorem Settled.play (h : Settled format sampleRate channels o) :
    Settled format sampleRate channels o.play := by
  unfold CpalOutput.play
  split
  · exact ⟨⟨h.format_eq, h.sampleRate_eq, h.channels_eq, h.isOpen⟩, h.correction_eq⟩
  · exact h

theorem Settled.callback (h : Settled format sampleRate channels o) (wanted : Nat) :
    Settled format sampleRate channels (o.callback wanted).1 := by
  unfold CpalOutput.callback
  split
  next => exact h
  next =>
    split
    next => exact h
    next => exact ⟨⟨h.format_eq, h.sampleRate_eq, h.channels_eq, rfl⟩, h.correction_eq⟩

theorem Settled.callbacks (h : Settled format sampleRate channels o) (during : List Nat) :
    Settled format sampleRate channels (o.callbacks during).1 := by
  induction during generalizing o with
  | nil => exact h
  | cons wanted rest ih => exact ih (h.callback wanted)

theorem Settled.push (h : Settled format sampleRate channels o) (st : Stream) (bytes : List UInt8)
    (during : List Nat) : Settled format sampleRate channels (o.push st bytes during).1 := by
  have hc := h.callbacks during
  refine ⟨⟨hc.format_eq, hc.sampleRate_eq, hc.channels_eq, ?_⟩, hc.correction_eq⟩
  exact Option.isSome_map.trans hc.isOpen

/-- A write returns, and keeps the configuration. -/
theorem Settled.writeAudio (h : Settled format sampleRate channels o) (dec : Decoders)
    (data : List UInt8) (during : List Nat) :
    ∃ o' pushed outs, o.writeAudio dec data during = .ok (o', pushed, outs) ∧
      Settled format sampleRate channels o' := by
  obtain ⟨st, hst⟩ := Option.isSome_iff_exists.mp h.isOpen
  obtain ⟨flac, hring⟩ := Cpal.ringBytes_state dec o data
  have hs : Settled format sampleRate channels (o.ringBytes dec data).1 := by
    rw [hring]
    exact ⟨⟨h.format_eq, h.sampleRate_eq, h.channels_eq, h.isOpen⟩, h.correction_eq⟩
  have hcorrect : (o.ringBytes dec data).1.correct (o.ringBytes dec data).2 =
      .ok ((o.ringBytes dec data).1, some (o.ringBytes dec data).2) := by
    simp [CpalOutput.correct, hs.correction_eq, JUMP_THRESHOLD_FRAMES]
  have hok : o.writeAudio dec data during =
      .ok ((o.ringBytes dec data).1.push st (o.ringBytes dec data).2 during) := by
    simp only [CpalOutput.writeAudio, hst, hcorrect]
  exact ⟨_, _, _, hok, hs.push st (o.ringBytes dec data).2 during⟩

/-- A configuration that succeeds. -/
theorem configure_settled {opening : Opening}
    (hok : o.configure format sampleRate channels opening = (o', .ok ())) :
    Settled format sampleRate channels o' ∧ o'.volume = o.volume ∧ o'.muted = o.muted ∧
      Cpal.inRing o' = [] := by
  unfold CpalOutput.configure at hok
  cases hdev : opening.device with
  | error e => simp [hdev] at hok
  | ok dev =>
    cases hbuild : opening.build with
    | error e => simp [hdev, hbuild] at hok
    | ok u =>
      simp only [hdev, hbuild, Prod.mk.injEq, and_true] at hok
      subst hok
      exact ⟨⟨⟨rfl, rfl, rfl, rfl⟩, rfl⟩, rfl, rfl, rfl⟩

end

section

variable {Device : Type} {lower : String → String} {host : AudioHost Device}
  {requested : Option String} {s s' : CpalDeviceOutput Device} {d : Device}
  {support : DeviceSampleSupport}

/-- The device comes from the cache, or it is found and cached. -/
theorem resolveDevice_ok (hok : s.resolveDevice lower host requested = (s', .ok (d, support))) :
    s'.output = s.output ∧ s'.cachedDevice = some (requested, d, support) ∧
      (s.cachedDevice = some (requested, d, support) ∨
        (∀ cached, s.cachedDevice = some cached → cached.1 ≠ requested) ∧
          CpalDeviceOutput.findDevice lower host requested = .ok d) := by
  unfold CpalDeviceOutput.resolveDevice at hok
  split at hok
  next key d' support' hhit =>
    cases hok
    obtain ⟨hcached, hkey⟩ := Option.filter_eq_some_iff.mp hhit
    rw [decide_eq_true_eq] at hkey
    dsimp only at hkey
    subst hkey
    exact ⟨rfl, hcached, .inl hcached⟩
  next hmiss =>
    split at hok
    next => cases hok
    next d' hfound =>
      cases hok
      refine ⟨rfl, rfl, .inr ⟨?_, hfound⟩⟩
      intro cached hcached hkey
      rw [hcached, Option.filter_some_pos (by simpa using hkey)] at hmiss
      cases hmiss

/-- What a configuration that succeeds leaves. -/
structure Resolved (format : AudioFormat) (sampleRate : UInt32) (channels : UInt8)
    (requested : Option String) (d : Device) (s : CpalDeviceOutput Device) : Prop where
  settled : Settled format sampleRate channels s.output
  device : s.streamDevice = some d
  cached : ∃ support, s.cachedDevice = some (requested, d, support)

theorem configureWithDevice_ok {format : AudioFormat} {sampleRate : UInt32} {channels : UInt8}
    (hok : s.configureWithDevice lower host format sampleRate channels requested = (s', .ok ())) :
    ∃ d, Resolved format sampleRate channels requested d s' ∧
      s'.output.volume = s.output.volume ∧ s'.output.muted = s.output.muted ∧
      Cpal.inRing s'.output = [] ∧
      ((∃ support, s.cachedDevice = some (requested, d, support)) ∨
        (∀ cached, s.cachedDevice = some cached → cached.1 ≠ requested) ∧
          CpalDeviceOutput.findDevice lower host requested = .ok d) := by
  unfold CpalDeviceOutput.configureWithDevice at hok
  split at hok
  next s₁ e hres =>
    -- without a device nothing is configured
    simp only [CpalOutput.configure, Prod.mk.injEq, reduceCtorEq, and_false] at hok
  next s₁ d support hres =>
    obtain ⟨hout, hcached, hfrom⟩ := resolveDevice_ok hres
    dsimp only at hok
    cases hconf : s₁.output.configure format sampleRate channels
        { device := .ok ((host.name d).getD "", support), build := host.buildOutputStream d } with
    | mk output r =>
      rw [hconf] at hok
      simp only [Prod.mk.injEq] at hok
      obtain ⟨rfl, rfl⟩ := hok
      obtain ⟨hsettled, hvolume, hmuted, hempty⟩ := configure_settled hconf
      have hopen : output.deviceOpen = true := hsettled.isOpen
      refine ⟨d, ⟨hsettled, by rw [hopen]; rfl, support, hcached⟩, hout ▸ hvolume, hout ▸ hmuted,
        hempty, ?_⟩
      rcases hfrom with hhit | hmiss
      · exact .inl ⟨support, hhit⟩
      · exact .inr hmiss

/-- A flush configures what is configured, without a name. -/
theorem flush_ok {format : AudioFormat} {sampleRate : UInt32} {channels : UInt8}
    (hs : Streaming format sampleRate channels s.output)
    (hok : s.flush lower host = (s', .ok ())) :
    ∃ d, Resolved format sampleRate channels none d s' ∧
      s'.output.volume = s.output.volume ∧ s'.output.muted = s.output.muted ∧
      Cpal.inRing s'.output = [] ∧
      ((∃ support, s.cachedDevice = some (none, d, support)) ∨
        (∀ cached, s.cachedDevice = some cached → cached.1 ≠ none) ∧
          host.defaultOutputDevice = some d) := by
  simp only [CpalDeviceOutput.flush, hs.format_eq, hs.sampleRate_eq, hs.channels_eq] at hok
  obtain ⟨s₁, hconf, rfl⟩ : ∃ s₁, CpalDeviceOutput.configure lower host
      { s with output := s.output.stop, streamDevice := none } format sampleRate channels =
        (s₁, .ok ()) ∧ { s₁ with output := s₁.output.play } = s' := by
    simp only [Prod.mk.injEq] at hok
    exact ⟨_, Prod.ext rfl hok.2, hok.1⟩
  obtain ⟨d, hres, hvolume, hmuted, hempty, hfrom⟩ := configureWithDevice_ok hconf
  have hplay : s₁.output.play = { s₁.output with playing := true } :=
    if_pos hres.settled.isOpen
  refine ⟨d, ⟨hres.settled.play, hres.device, hres.cached⟩, ?_, ?_, ?_, hfrom.imp_right ?_⟩
  · rw [hplay]
    exact hvolume
  · rw [hplay]
    exact hmuted
  · rw [hplay]
    exact hempty
  · rintro ⟨hmiss, hfound⟩
    refine ⟨hmiss, ?_⟩
    simp only [CpalDeviceOutput.findDevice, CpalDeviceOutput.defaultDevice] at hfound
    split at hfound
    next d' hdefault =>
      rw [hdefault]
      exact congrArg some (Except.ok.inj hfound)
    next => cases hfound

end

section

variable {Device : Type} {lower : String → String} {dec : Decoders} {format : AudioFormat}
  {sampleRate : UInt32} {channels : UInt8} {requested : Option String}
  {s s' : CpalDeviceOutput Device} {d : Device} {calls : List (CpalCall Device)}

/-- The stream is open in this configuration and on this device. -/
def KeepsStream (format : AudioFormat) (sampleRate : UInt32) (channels : UInt8) (d : Device)
    (s : CpalDeviceOutput Device) : Prop :=
  Streaming format sampleRate channels s.output ∧ s.streamDevice = some d

theorem Resolved.keeps (hs : Resolved format sampleRate channels requested d s) :
    KeepsStream format sampleRate channels d s :=
  ⟨hs.settled.toStreaming, hs.device⟩

variable (lower dec)

/-- The calls other than `flush` keep what was resolved. -/
theorem step_resolved (hs : Resolved format sampleRate channels requested d s)
    {call : CpalCall Device} (hno : ∀ host, call ≠ .flush host) :
    ∃ s', cpalStep lower dec s call = .ok (s', []) ∧
      Resolved format sampleRate channels requested d s' := by
  have hset := hs.settled
  cases call with
  | play => exact ⟨_, rfl, hset.play, hs.device, hs.cached⟩
  | pause =>
    have hpaused : Settled format sampleRate channels s.output.pause :=
      ⟨⟨hset.format_eq, hset.sampleRate_eq, hset.channels_eq, hset.isOpen⟩, hset.correction_eq⟩
    exact ⟨_, rfl, hpaused, hs.device, hs.cached⟩
  | writeAudio data during =>
    obtain ⟨o', pushed, outs, hok, hset'⟩ := hset.writeAudio dec data during
    refine ⟨{ s with output := o' }, ?_, hset', hs.device, hs.cached⟩
    simp only [cpalStep, hok]
  | setVolume level =>
    have hlevel : Settled format sampleRate channels (s.output.setVolume level) :=
      ⟨⟨hset.format_eq, hset.sampleRate_eq, hset.channels_eq, hset.isOpen⟩, hset.correction_eq⟩
    exact ⟨_, rfl, hlevel, hs.device, hs.cached⟩
  | flush host => exact absurd rfl (hno host)
  | callback wanted => exact ⟨_, rfl, hset.callback wanted, hs.device, hs.cached⟩

/-- A flush that succeeds resolves some device without a name. -/
theorem step_flush (hs : Resolved format sampleRate channels requested d s)
    {host : AudioHost Device} (hopens : Opens lower s (.flush host)) :
    ∃ s' d', cpalStep lower dec s (.flush host) = .ok (s', [.ok ()]) ∧
      Resolved format sampleRate channels none d' s' ∧
      (requested = none → d' = d) ∧
      (requested ≠ none → host.defaultOutputDevice = some d') := by
  have hok : s.flush lower host = ((s.flush lower host).1, .ok ()) := Prod.ext rfl hopens
  obtain ⟨d', hres, -, -, -, hfrom⟩ := flush_ok hs.settled.toStreaming hok
  obtain ⟨support, hcached⟩ := hs.cached
  refine ⟨(s.flush lower host).1, d', ?_, hres, ?_, ?_⟩
  · change Except.ok ((s.flush lower host).1, [(s.flush lower host).2]) = _
    rw [hopens]
  · rintro rfl
    rcases hfrom with ⟨support', hhit⟩ | ⟨hmiss, -⟩
    · rw [hcached] at hhit
      cases hhit
      rfl
    · exact absurd rfl (hmiss _ hcached)
  · intro hnamed
    rcases hfrom with ⟨support', hhit⟩ | ⟨-, hdefault⟩
    · rw [hcached] at hhit
      cases hhit
      exact absurd rfl hnamed
    · exact hdefault

variable {lower dec}

/-- Every run of these calls returns. -/
theorem cpal_run_ok (hs : Resolved format sampleRate channels requested d s)
    (hopens : Along (cpalStep lower dec) (Opens lower) s calls) :
    ∃ t log, run (cpalStep lower dec) s calls = .ok (t, log) := by
  induction calls generalizing s requested d with
  | nil => exact ⟨s, [], rfl⟩
  | cons call calls ih =>
    by_cases hflush : ∃ host, call = .flush host
    case pos =>
      obtain ⟨host, rfl⟩ := hflush
      obtain ⟨s', d', hstep, hs', -⟩ := step_flush lower dec hs hopens.1
      obtain ⟨t, log, hrun⟩ := ih hs' (hopens.2 s' _ hstep)
      exact ⟨t, _, run_cons_ok hstep hrun⟩
    case neg =>
      obtain ⟨s', hstep, hs'⟩ :=
        step_resolved lower dec hs fun host h => hflush ⟨host, h⟩
      obtain ⟨t, log, hrun⟩ := ih hs' (hopens.2 s' _ hstep)
      exact ⟨t, _, run_cons_ok hstep hrun⟩

/-- A device that was resolved without a name is found again in the cache. -/
theorem cached_keeps (hs : Resolved format sampleRate channels none d s)
    (hopens : Along (cpalStep lower dec) (Opens lower) s calls) :
    Throughout (cpalStep lower dec) (fun t _ => KeepsStream format sampleRate channels d t) s
      calls := by
  induction calls generalizing s with
  | nil => exact throughout_nil.mpr hs.keeps
  | cons call calls ih =>
    by_cases hflush : ∃ host, call = .flush host
    case pos =>
      obtain ⟨host, rfl⟩ := hflush
      obtain ⟨s', d', hstep, hs', hsame, -⟩ := step_flush lower dec hs hopens.1
      obtain rfl : d' = d := hsame rfl
      exact (throughout_cons calls hstep).mpr ⟨hs.keeps, ih hs' (hopens.2 s' _ hstep)⟩
    case neg =>
      obtain ⟨s', hstep, hs'⟩ :=
        step_resolved lower dec hs fun host h => hflush ⟨host, h⟩
      exact (throughout_cons calls hstep).mpr ⟨hs.keeps, ih hs' (hopens.2 s' _ hstep)⟩

/-- A device that was resolved by its name is kept if the first flush finds it as
the default. -/
theorem named_keeps_iff {name : String}
    (hs : Resolved format sampleRate channels (some name) d s)
    (hopens : Along (cpalStep lower dec) (Opens lower) s calls) :
    Throughout (cpalStep lower dec) (fun t _ => KeepsStream format sampleRate channels d t) s
        calls ↔
      ∀ host, firstFlush calls = some host → host.defaultOutputDevice = some d := by
  induction calls generalizing s with
  | nil => exact iff_of_true (throughout_nil.mpr hs.keeps) nofun
  | cons call calls ih =>
    by_cases hflush : ∃ host, call = .flush host
    case pos =>
      obtain ⟨host, rfl⟩ := hflush
      obtain ⟨s', d', hstep, hs', -, hdefault⟩ := step_flush lower dec hs hopens.1
      have hfound : host.defaultOutputDevice = some d' := hdefault nofun
      have hfirst : firstFlush (.flush host :: calls) = some host := rfl
      rw [throughout_cons calls hstep, hfirst]
      constructor
      · rintro ⟨-, hkeeps⟩ host' hhost
        cases hhost
        -- the stream is on the default device now
        have hnow : KeepsStream format sampleRate channels d s' := hkeeps [] calls s' [] rfl rfl
        rw [hfound, ← hs'.device, hnow.2]
      · intro hcond
        obtain rfl : d' = d := Option.some.inj (hfound.symm.trans (hcond host rfl))
        exact ⟨hs.keeps, cached_keeps hs' (hopens.2 s' _ hstep)⟩
    case neg =>
      obtain ⟨s', hstep, hs'⟩ :=
        step_resolved lower dec hs fun host h => hflush ⟨host, h⟩
      have hfirst : firstFlush (call :: calls) = firstFlush calls := by
        cases call with
        | flush host => exact absurd ⟨host, rfl⟩ hflush
        | _ => rfl
      rw [throughout_cons calls hstep, hfirst, ← ih hs' (hopens.2 s' _ hstep)]
      exact and_iff_right hs.keeps

end

/-! ## ALSA -/

/-- Between two configurations there are the host's steps and these calls. -/
def SeekAction : AlsaAction → Prop
  | .call (.configure _) | .call .stop | .call .release | .call (.setMute _) => False
  | _ => True

section

variable {conv : Conversions} {s s' : Alsa} {log : List AlsaEvent} {cfg : Config}

/-- A writer for the device of `cfg`. -/
def Serves (cfg : Config) (t : WriterThread) : Prop :=
  (AlsaDirectOutput.new.configured cfg).2 = .ok t.slot.params

theorem writer_params {t t' : WriterThread} {sh sh' : Shared} {now : Nat} {answer : Answer}
    {took : List UInt8} (hstep : t.step sh now answer = .ok (t', sh', took)) :
    t'.slot.params = t.slot.params := by
  cases Alsa.step_inv hstep with
  | begins | takes | recovers => exact congrArg _ (Alsa.writeLoop_frame _ _ _).1
  | _ => rfl

theorem follows_serves (cfg : Config) : Alsa.Follows cfg (Serves cfg) (Serves cfg) where
  spawned _ _ hparams := hparams
  opens _ _ _ _ _ _ _ hs hstep := hs.trans (congrArg _ (writer_params hstep).symm)
  reported _ hs _ := hs
  runs _ _ _ _ _ _ _ hs hstep := hs.trans (congrArg _ (writer_params hstep).symm)

/-- `cfg` is configured, or will be when the call in progress has succeeded. -/
def Toward (cfg : Config) (s : Alsa) : Prop := Alsa.Toward cfg (Serves cfg) (Serves cfg) s

/-- A call that leaves the configuration and the writer alone. -/
theorem toward_same (hcaller : s.caller = .idle) (hs : Toward cfg s)
    (hcaller' : s'.caller = .idle) (hsaved : s'.flushConfig = s.flushConfig)
    (hwriter : s'.output.writer = s.output.writer)
    (hserves : ∀ id, Alsa.Holds (Serves cfg) s id → Alsa.Holds (Serves cfg) s' id) :
    Toward cfg s' ∧ s'.flushConfig = cfg := by
  rw [Toward, Alsa.Toward, hcaller] at hs
  obtain ⟨hcfg, id, hid, hserved⟩ := hs
  rw [Toward, Alsa.Toward, hcaller', hsaved, hwriter]
  exact ⟨⟨hcfg, id, hid, hserves id hserved⟩, hcfg⟩

/-- **The step rule.** -/
theorem toward_step {a : AlsaAction} (hs : Toward cfg s) (hsaved : s.flushConfig = cfg)
    (ha : SeekAction a) (hstep : s.step conv a = .ok (s', log)) (hok : Alsa.Succeeds log) :
    Toward cfg s' ∧ s'.flushConfig = cfg := by
  cases a with
  | resume | giveUp | thread =>
    obtain ⟨htoward, hkept⟩ := Alsa.toward_host (follows_serves cfg) hs rfl hstep hok
    exact ⟨htoward, hkept hsaved⟩
  | call c =>
    unfold Alsa.step at hstep
    dsimp only at hstep
    split at hstep
    next hcaller =>
      cases c with
      | configure _ | stop | release | setMute _ => cases ha
      | play | pause | setVolume _ =>
        cases hstep
        exact toward_same hcaller hs hcaller rfl rfl fun _ h => h
      | flush =>
        have hshut : s.shutdown true (.configure s.flushConfig true) = (s', log) :=
          Except.ok.inj hstep
        rw [hsaved] at hshut
        obtain ⟨htoward, hkept⟩ := Alsa.toward_shutdown (follows_serves cfg) hshut hok
        exact ⟨htoward, hkept hsaved⟩
      | writeAudio data =>
        obtain ⟨flacStream, rfl | ⟨id, t, -, ht, rfl⟩⟩ := Alsa.writeAudio_inv hstep
        · exact toward_same hcaller hs hcaller rfl rfl fun _ h => h
        · have hsent : Serves cfg t →
              Serves cfg (t.send (s.output.deviceBytes conv data).2.1) := fun hserves => hserves
          exact toward_same hcaller hs hcaller rfl rfl fun _ h => h.set ht hsent rfl
    next => cases hstep

/-- Once configured, the ALSA output keeps its configuration. -/
theorem alsa_keeps {acts : List AlsaAction} (hidle : Toward cfg s) (hsaved : s.flushConfig = cfg)
    (hacts : ∀ a ∈ acts, SeekAction a) :
    Throughout (Alsa.step conv)
      (fun t log => Alsa.Succeeds log → Toward cfg t ∧ t.flushConfig = cfg) s acts := by
  refine throughout_of_step_in ?_ (fun _ => ⟨hidle, hsaved⟩) hacts
  intro t log a t' o ha ht hstep hok
  obtain ⟨htoward, hkept⟩ := ht hok.left
  exact toward_step htoward hkept ha hstep hok.right

end

/-! ## The levels -/

section

variable {conv : Conversions} {s s' : Alsa} {log : List AlsaEvent}

/-- Volume and mute. -/
def levels (s : Alsa) : Nat × Bool := (s.output.volume, s.output.muted)

theorem levels_configureReturns (s : Alsa) (r : Except String Unit) (play : Bool) :
    levels (s.configureReturns r play).1 = levels s := by
  cases play <;> rfl

theorem levels_configure (s : Alsa) (cfg : Config) (play : Bool) :
    levels (s.configure cfg play).1 = levels s := by
  obtain ⟨-, -, -, -, hvolume, hmuted, -⟩ := Alsa.configured_saves s.output cfg
  unfold Alsa.configure
  split
  next output e hout =>
    rw [hout] at hvolume hmuted
    rw [levels_configureReturns]
    exact Prod.ext hvolume hmuted
  next output params hout =>
    rw [hout] at hvolume hmuted
    exact Prod.ext hvolume hmuted

theorem levels_shutdownReturns (s : Alsa) (after : After) :
    levels (s.shutdownReturns after).1 = levels s := by
  cases after with
  | leave => rfl
  | configure cfg play => exact levels_configure _ cfg play

theorem levels_shutdown (s : Alsa) (discard : Bool) (after : After) :
    levels (s.shutdown discard after).1 = levels s := by
  unfold Alsa.shutdown
  dsimp only
  split
  next => exact levels_shutdownReturns _ after
  next => rfl

theorem levels_host (hstep : HostStep s s') : levels s' = levels s := by
  cases hstep with
  | thread => rfl
  | stopped id after => exact levels_shutdownReturns s after
  | opened id play => exact levels_configureReturns _ _ play

/-- A flush leaves the levels alone. -/
theorem levels_flush {host : List AlsaAction}
    (hcall : s.callWith conv .flush host = .ok (s', log)) : levels s' = levels s := by
  refine (callWith_keeps (Q := fun r => levels r = levels s) ?_ ?_ hcall).1
  · intro r r' hr hstep
    exact (levels_host hstep).trans hr
  · intro s₁ log₁ hstart
    obtain rfl : (s.shutdown true (.configure s.flushConfig true)).1 = s₁ :=
      congrArg Prod.fst (Except.ok.inj hstart)
    exact levels_shutdown s true _

end

/-! ## Both outputs -/

/-- The ALSA output is configured so; between the calls a writer has this device. -/
structure Configured (cfg : Config) (s : Alsa) : Prop where
  flushConfig_eq : s.flushConfig = cfg
  serves : s.caller = .idle → ∃ id, s.output.writer = some id ∧ Alsa.Holds (Serves cfg) s id

theorem Toward.configured {cfg : Config} {s : Alsa} (hs : Toward cfg s)
    (hsaved : s.flushConfig = cfg) : Configured cfg s := by
  refine ⟨hsaved, fun hidle => ?_⟩
  rw [Toward, Alsa.Toward, hidle] at hs
  exact hs.2

/-- **A seek.** Take an output that was configured with any format, rate, channels and
requested device, and any calls after it. On cpal every run of these calls returns,
and its stream stays in this configuration and on the device that the request was
resolved to, if and only if no name was requested, or no flush comes, or the first
flush finds this device as the default one. The ALSA output keeps its configuration
in every run. A flush leaves the volume and mute of both alone. -/
theorem seek_keeps_iff {Device : Type} {lower : String → String} {dec : Decoders}
    {conv : Conversions} {cfg : Config} {cpalHost : AudioHost Device} {requested : Option String}
    {o₀ o : CpalDeviceOutput Device} {calls : List (CpalCall Device)} {a₀ a : Alsa}
    {alsaHost acts : List AlsaAction} {log : List AlsaEvent}
    (hcpal : o₀.configureWithDevice lower cpalHost cfg.format cfg.sampleRate cfg.channels
      requested = (o, .ok ()))
    (hopens : Along (cpalStep lower dec) (Opens lower) o calls)
    (halsa : a₀.callWith conv (.configure cfg) alsaHost = .ok (a, log)) (hok : Alsa.Succeeds log)
    (hacts : ∀ x ∈ acts, SeekAction x) :
    (∃ d support, o.cachedDevice = some (requested, d, support) ∧
      (∃ t results, run (cpalStep lower dec) o calls = .ok (t, results)) ∧
      (Throughout (cpalStep lower dec)
          (fun t _ => KeepsStream cfg.format cfg.sampleRate cfg.channels d t) o calls ↔
        requested = none ∨ ∀ host, firstFlush calls = some host →
          host.defaultOutputDevice = some d)) ∧
    Throughout (Alsa.step conv) (fun t more => Alsa.Succeeds more → Configured cfg t) a acts ∧
    (∀ (t t' : CpalDeviceOutput Device) (host : AudioHost Device),
      Streaming cfg.format cfg.sampleRate cfg.channels t.output →
      t.flush lower host = (t', .ok ()) →
      t'.output.volume = t.output.volume ∧ t'.output.muted = t.output.muted ∧
        Cpal.inRing t'.output = []) ∧
    (∀ (t t' : Alsa) (host : List AlsaAction) (more : List AlsaEvent),
      t.callWith conv .flush host = .ok (t', more) → levels t' = levels t) := by
  refine ⟨?_, ?_, ?_, ?_⟩
  · obtain ⟨d, hres, -⟩ := configureWithDevice_ok hcpal
    obtain ⟨support, hcached⟩ := hres.cached
    refine ⟨d, support, hcached, cpal_run_ok hres hopens, ?_⟩
    cases requested with
    | none => exact iff_of_true (cached_keeps hres hopens) (.inl rfl)
    | some name =>
      rw [named_keeps_iff hres hopens]
      exact (or_iff_right nofun).symm
  · obtain ⟨hidle, htoward⟩ := Alsa.toward_callWith (follows_serves cfg) rfl halsa hok
    have hsaved : a.flushConfig = cfg := by
      have hidle' := htoward
      rw [Alsa.Toward, hidle] at hidle'
      exact hidle'.1
    intro pre post t more hsplit hrun hsucc
    obtain ⟨htoward', hkept⟩ := alsa_keeps htoward hsaved hacts pre post t more hsplit hrun hsucc
    exact htoward'.configured hkept
  · intro t t' host hs hflush
    obtain ⟨-, -, hvolume, hmuted, hempty, -⟩ := flush_ok hs hflush
    exact ⟨hvolume, hmuted, hempty⟩
  · intro t t' host more hcall
    exact levels_flush hcall

/-- A display and a DAC; the display is the default device. -/
def twoDevices : AudioHost Bool :=
  { outputDevices := .ok [false, true]
    defaultOutputDevice := some false
    name := fun dac => some (if dac then "dac" else "hdmi")
    support := fun _ => { f32 := true, i16 := true, i32 := true }
    buildOutputStream := fun _ => .ok () }

/-- 16-bit stereo on the DAC. -/
def dacConfig : Config :=
  { format := .pcmS16le, sampleRate := 48000, channels := 2, device := some ['d', 'a', 'c'] }

/-- The writer of a configuration opens its device. -/
def opening (id : Nat) : List AlsaAction :=
  [.thread id 0 (.opener (.ok ())), .thread id 0 .go, .resume]

/-- The first flush finds the DAC as the default device. -/
theorem seek_keeps_iff_dacDefault :
    ∃ o a log, CpalDeviceOutput.new.configureWithDevice id twoDevices .pcmS16le 48000 2
        (some "dac") = (o, .ok ()) ∧ o.streamDevice = some true ∧
      Endpoint.Alsa.new.callWith Alsa.plainConversions (.configure dacConfig) (opening 0) =
        .ok (a, log) ∧
      Throughout (cpalStep id Cpal.pcmOnly) (fun t _ => KeepsStream .pcmS16le 48000 2 true t) o
        [.play, .flush { twoDevices with defaultOutputDevice := some true }, .flush twoDevices] ∧
      Throughout (Alsa.step Alsa.plainConversions)
        (fun t more => Alsa.Succeeds more → Configured dacConfig t) a
        [.call .play, .call .flush] := by
  have hcpal : CpalDeviceOutput.new.configureWithDevice id twoDevices dacConfig.format
      dacConfig.sampleRate dacConfig.channels (some "dac") = (_, .ok ()) := rfl
  have halsa : Endpoint.Alsa.new.callWith Alsa.plainConversions (.configure dacConfig)
      (opening 0) = .ok (_, _) := rfl
  have hopens : Along (cpalStep id Cpal.pcmOnly) (Opens id)
      (CpalDeviceOutput.new.configureWithDevice id twoDevices .pcmS16le 48000 2 (some "dac")).1
        [.play, .flush { twoDevices with defaultOutputDevice := some true },
          .flush twoDevices] := by
    refine ⟨trivial, fun s' o hstep => ?_⟩
    cases hstep
    refine ⟨rfl, fun s' o hstep => ?_⟩
    cases hstep
    exact ⟨rfl, fun _ _ _ => trivial⟩
  obtain ⟨⟨d, support, hcached, -, hiff⟩, hkeeps, -⟩ :=
    seek_keeps_iff hcpal hopens halsa (by simp [Alsa.Succeeds])
      (by simp [SeekAction] : ∀ x ∈ [AlsaAction.call .play, .call .flush], SeekAction x)
  have hd : d = true := by
    have hfound : some ((some "dac" : Option String), true, twoDevices.support true) =
        some (some "dac", d, support) := hcached
    cases hfound
    rfl
  subst hd
  refine ⟨_, _, _, hcpal, rfl, halsa, hiff.mpr (.inr ?_), hkeeps⟩
  intro host hhost
  cases hhost
  rfl

/-- The output was configured for the DAC by its name; a flush leaves it on the
display. -/
theorem flush_leaves_device :
    ∃ o o', CpalDeviceOutput.new.configureWithDevice id twoDevices .pcmS16le 48000 2
        (some "dac") = (o, .ok ()) ∧
      cpalStep id Cpal.pcmOnly o (.flush twoDevices) = .ok (o', [.ok ()]) ∧
      o.streamDevice = some true ∧ o'.streamDevice = some false ∧
      ¬ KeepsStream .pcmS16le 48000 2 true o' :=
  ⟨_, _, rfl, rfl, rfl, rfl, fun h => Bool.noConfusion (Option.some.inj h.2)⟩

end Oaat.Cli
