/-
Oaat.Cli.Released — a released output stays released.

Release gives the device up to another program. What keeps it given up is
`released`, which the handlers of packets and of the next track's format check,
and that nothing is armed, started or scheduled. Seek does not check: `flush`
opens the device again. The other way to a device is a writer thread of ALSA
that some call has left behind: `neverOpens` are the ones that stay away from
it.
-/
import Oaat.Alsa.OpenFlag
import Oaat.Cli.Playback

namespace Oaat.Cli

open Oaat.Core Oaat.Endpoint Oaat.Lib

/-! ## Writer threads that stay away from the device -/

/-- The thread does not come to its opener any more: it has returned or is about
to, or its sender is gone and no payload is left that it would open the device
for. -/
def neverOpens (t : WriterThread) : Bool :=
  match t.pc with
  | .opening | .reopening _ => false
  | .reporting (.error _) | .leaving | .closing _ | .returned => true
  | .received _ => t.hungUp && (t.stop || t.slot.dev && t.queue.isEmpty)
  | .reporting (.ok ()) | .starting | .receiving | .ready _ | .writing _ | .recovering _
  | .failing | .idleClosing => t.hungUp && (t.stop || t.queue.isEmpty)

section

variable {t t' : WriterThread} {sh sh' : Shared} {now : Nat} {answer : Answer} {took : List UInt8}

theorem neverOpens_writeLoop (hstay : (t.hungUp && (t.stop || t.queue.isEmpty)) = true)
    (w : Write) : neverOpens (t.writeLoop w now) = true := by
  unfold WriterThread.writeLoop
  split <;> exact hstay

/-- **A thread stays away from its opener.** -/
theorem step_neverOpens (ht : neverOpens t = true)
    (hstep : t.step sh now answer = .ok (t', sh', took)) : neverOpens t' = true := by
  cases Alsa.step_inv hstep with
  | opens hpc | opensNot e hpc | reopens data hpc | reopensNot data e hpc =>
    simp [neverOpens, hpc] at ht
  | reportsNot e hpc | hangsUp hpc | stops data hpc | leaves hpc | leavesClosed hpc
  | closes drain hpc => rfl
  | reports hpc | starts hpc | breaks w e hpc | halts w e n hpc | recoversNot w e hpc
  | takesNone w hpc | fails hpc | idleCloses hpc =>
    simpa [neverOpens, hpc, WriterThread.written] using ht
  | receives data queue hpc hq =>
    -- there is a payload, so they are dropped
    simp only [neverOpens, hpc, hq, List.isEmpty_cons, Bool.or_false] at ht
    simp_all [neverOpens]
  | idles hpc _ hup | waits hpc _ hup => simp [neverOpens, hpc, hup] at ht
  | readies data hpc hstop hdev => simpa [neverOpens, hpc, hstop, hdev] using ht
  | drops data hpc hstop hdev | retries data hpc hstop hdev =>
    simp [neverOpens, hpc, hstop, hdev] at ht
  | begins data active hpc =>
    refine neverOpens_writeLoop ?_ _
    simpa [neverOpens, hpc] using ht
  | takes w k hpc | recovers w hpc =>
    refine neverOpens_writeLoop ?_ _
    simpa [neverOpens, hpc] using ht

theorem completesOpen_of_neverOpens (ht : neverOpens t = true) (answer : Answer) :
    t.completesOpen answer = false := by
  unfold WriterThread.completesOpen
  split
  · cases hpc : t.pc <;> simp_all [neverOpens, Pc.isOpening]
  · rfl

end

/-! ## An ALSA output that is given up -/

/-- No call is in progress, there is no writer, and no thread opens the device. -/
structure GivenUp (s : Alsa) : Prop where
  idle : s.isIdle = true
  writer : s.output.writer = none
  threads : ∀ t ∈ s.threads, neverOpens t = true

/-- `release` and `stop` give the writer up and do nothing after it. -/
def Leaving (s : Alsa) : Prop :=
  s.output.writer = none ∧ (s.caller = .idle ∨ ∃ id, s.caller = .stopping id .leave)

section

variable {s s' : Alsa} {conv : Conversions} {log : List AlsaEvent}

theorem leaving_shutdown {discard : Bool} (hshut : s.shutdown discard .leave = (s', log)) :
    Leaving s' := by
  unfold Alsa.shutdown at hshut
  dsimp only at hshut
  split at hshut
  next hnone =>
    cases hshut
    exact ⟨hnone, .inl rfl⟩
  next id _ =>
    cases hshut
    exact ⟨rfl, .inr ⟨id, rfl⟩⟩

theorem leaving_step (hs : Leaving s) (hstep : HostStep s s') : Leaving s' := by
  obtain ⟨hwriter, hcaller⟩ := hs
  cases hstep with
  | thread threads shared => exact ⟨hwriter, hcaller⟩
  | stopped id after hc =>
    rcases hcaller with hidle | ⟨id', hleave⟩
    · rw [hc] at hidle
      cases hidle
    · rw [hc] at hleave
      cases hleave
      exact ⟨hwriter, .inl rfl⟩
  | opened id play writer threads hc =>
    rcases hcaller with hidle | ⟨id', hleave⟩
    · rw [hc] at hidle
      cases hidle
    · rw [hc] at hleave
      cases hleave

/-- `release` leaves the output given up, unless a thread can still come to its
opener. -/
theorem release_givenUp {host : List AlsaAction}
    (hok : s.callWith conv .release host = .ok (s', log))
    (hthreads : ∀ t ∈ s'.threads, neverOpens t = true) : GivenUp s' := by
  have hstart : ∀ s₁ log₁, s.start conv .release = .ok (s₁, log₁) → Leaving s₁ :=
    fun s₁ log₁ hstart => leaving_shutdown (Except.ok.inj hstart)
  obtain ⟨hleaving, hidle⟩ := callWith_keeps (fun _ _ => leaving_step) hstart hok
  exact ⟨by rw [Alsa.isIdle, hidle], hleaving.1, hthreads⟩

/-- The host does not open a device that is given up. -/
theorem givenUp_run (hs : GivenUp s) {host : List AlsaAction}
    (hhost : host.all Alsa.isHost = true) (hrun : run (Alsa.step conv) s host = .ok (s', log)) :
    GivenUp s' ∧ log.any Alsa.isOpened = false := by
  have hstep : ∀ r a r' o, GivenUp r → Alsa.isHost a = true → Alsa.step conv r a = .ok (r', o) →
      GivenUp r' ∧ ∀ x ∈ o, Alsa.isOpened x = false := by
    intro r a r' o hr ha hstep
    obtain ⟨hidle, hout, id, now, answer, rfl⟩ := idle_step hr.idle ha hstep
    obtain ⟨t, t', sh', took, hget, ht, rfl, rfl⟩ := Alsa.threadStep_inv hstep
    have hnever := hr.threads t (List.mem_of_getElem? hget)
    refine ⟨⟨hidle, hr.writer, ?_⟩, ?_⟩
    · intro u hu
      rcases List.mem_or_eq_of_mem_set hu with hu | rfl
      · exact hr.threads u hu
      · exact step_neverOpens hnever ht
    · simp [completesOpen_of_neverOpens hnever answer]
  obtain ⟨hs', hquiet⟩ := run_keeps hstep hs (along_host hhost s) hrun
  exact ⟨hs', List.any_eq_false.mpr fun x hx => by simp [hquiet x hx]⟩

/-- Without a writer, `stop` and `release` have nothing to wait for. -/
theorem givenUp_shutdown (hs : GivenUp s) {discard : Bool}
    (hshut : s.shutdown discard .leave = (s', log)) : GivenUp s' ∧ log = [] := by
  unfold Alsa.shutdown at hshut
  dsimp only at hshut
  rw [hs.writer] at hshut
  cases hshut
  exact ⟨⟨rfl, rfl, hs.threads⟩, rfl⟩

theorem givenUp_call (hs : GivenUp s) {c : Call} {discard : Bool} {host : List AlsaAction}
    {opened : Bool} (hc : s.start conv c = .ok (s.shutdown discard .leave))
    (hok : s.perform conv c host = .ok (s', opened)) : GivenUp s' ∧ opened = false := by
  obtain ⟨log, hcall, rfl⟩ := perform_inv hok
  obtain ⟨s₁, log₁, log₂, -, hstart, hhost, hrest, -, rfl⟩ := Alsa.callWith_inv hcall
  rw [hc, Except.ok.injEq] at hstart
  obtain ⟨hs₁, rfl⟩ := givenUp_shutdown hs hstart
  exact givenUp_run hs₁ hhost hrest

end

/-! ## Either output -/

/-- No thread left behind can still open the device. cpal has none. -/
def NoneOpens : (output : Output) → output.backend.State → Prop
  | .cpal _, _ => True
  | .alsa _, s => ∀ t ∈ Alsa.threads s, neverOpens t = true

/-- The output has no device, and does not open one by itself. -/
def Closed : (output : Output) → output.backend.State → Prop
  | .cpal _, o => CpalOutput.stream o = none
  | .alsa _, s => GivenUp s

/-- The host has a device for cpal, and a stream can be built on it. -/
def opensStream (opening : Opening) : Bool :=
  match opening.device, opening.build with
  | .ok _, .ok _ => true
  | _, _ => false

/-- `flush` makes the output play: for ALSA whatever the device answers. -/
def flushPlays : (output : Output) → output.backend.Host → Bool
  | .cpal _, h => opensStream (CpalHost.opening h)
  | .alsa _, _ => true

/-- What keeps an output closed. -/
structure KeepsClosed (B : Backend) (S : B.State → Prop) : Prop where
  stop : ∀ s h s' opened, S s → B.stop s h = .ok (s', opened) → S s' ∧ opened = false
  release : ∀ s h s' opened, S s → B.release s h = .ok (s', opened) → S s' ∧ opened = false
  host : ∀ s h s' opened, S s → B.host s h = .ok (s', opened) → S s' ∧ opened = false
  pause : ∀ s, S s → S (B.pause s)
  setVolume : ∀ s level, S s → S (B.setVolume s level)
  setMute : ∀ s muted, S s → S (B.setMute s muted)
  setCorrection : ∀ s frames, S s → S (B.setCorrection s frames)

theorem keepsClosed : ∀ output : Output, KeepsClosed output.backend (Closed output)
  | .cpal dec =>
    { stop := by
        intro s h s' opened _ hok
        cases hok
        exact ⟨rfl, rfl⟩
      release := by
        intro s h s' opened _ hok
        cases hok
        exact ⟨rfl, rfl⟩
      host := by
        intro s h s' opened hs hok
        cases hok
        have hsame := (callbacks_same s h.callbacks).isSome_stream
        rw [show CpalOutput.stream s = none from hs, Option.isSome_none,
          Option.isSome_eq_false_iff, Option.isNone_iff_eq_none] at hsame
        exact ⟨hsame, rfl⟩
      pause := fun _ hs => hs
      setVolume := fun _ _ hs => hs
      setMute := fun _ _ hs => hs
      setCorrection := fun _ _ hs => hs }
  | .alsa conv =>
    { stop := fun _ _ _ _ hs hok => givenUp_call hs rfl hok
      release := fun _ _ _ _ hs hok => givenUp_call hs rfl hok
      host := by
        intro s h s' opened hs hok
        obtain ⟨log, -, hhost, hrun, rfl⟩ := host_inv hok
        exact givenUp_run hs hhost hrun
      pause := fun _ hs => ⟨hs.idle, hs.writer, hs.threads⟩
      setVolume := fun _ _ hs => ⟨hs.idle, hs.writer, hs.threads⟩
      setMute := fun _ _ hs => ⟨hs.idle, hs.writer, hs.threads⟩
      setCorrection := fun _ _ hs => hs }

/-- `release` closes the output. -/
theorem release_closed (output : Output) {s s' : output.backend.State} {h : output.backend.Host}
    {opened : Bool} (hok : output.backend.release s h = .ok (s', opened))
    (hnone : NoneOpens output s') : Closed output s' := by
  cases output with
  | cpal dec =>
    cases hok
    rfl
  | alsa conv =>
    obtain ⟨log, hcall, -⟩ := perform_inv hok
    exact release_givenUp hcall hnone

theorem configure_stream (o : CpalOutput) (format : AudioFormat) (sampleRate : UInt32)
    (channels : UInt8) (opening : Opening) :
    (o.configure format sampleRate channels opening).1.stream.isSome = opensStream opening := by
  obtain ⟨device, build⟩ := opening
  cases device with
  | error e => rfl
  | ok dev => cases build <;> rfl

/-- `flush` plays on the device that it opens. -/
theorem flush_eq (o : CpalOutput) (opening : Opening) :
    (o.flush opening).stream.isSome = opensStream opening ∧
      (o.flush opening).playing = opensStream opening := by
  have hstream := configure_stream o.stop o.format o.sampleRate o.channels opening
  have hsilent := (configure_silent o.stop o.format o.sampleRate o.channels opening).1
  unfold CpalOutput.flush CpalOutput.play
  split
  next hsome => exact ⟨hstream, hsome.symm.trans hstream⟩
  next hnone =>
    rw [Bool.not_eq_true] at hnone
    exact ⟨hstream, hsilent.trans (hnone.symm.trans hstream)⟩

/-- After `flush` the output plays exactly as `flushPlays` says; if it does not,
it is closed. -/
theorem flush_playing (output : Output) {s s' : output.backend.State} {h : output.backend.Host}
    {opened : Bool} (hok : output.backend.flush s h = .ok (s', opened)) :
    output.backend.isPlaying s' = flushPlays output h ∧
      (flushPlays output h = false → opened = false ∧ Closed output s') := by
  cases output with
  | cpal dec =>
    cases hok
    obtain ⟨hstream, hplaying⟩ := flush_eq s h.opening
    refine ⟨hplaying, ?_⟩
    intro hno
    have hnone := hstream.trans hno
    have hclosed : (CpalOutput.flush s h.opening).stream = none := by simpa using hnone
    exact ⟨hnone, hclosed⟩
  | alsa conv =>
    obtain ⟨log, hcall, -⟩ := perform_inv hok
    refine ⟨?_, nofun⟩
    refine callWith_playing ?_ hcall
    intro s₁ log₁ hstart
    exact ends_shutdown (Except.ok.inj hstart)

/-! ## The loop after a release -/

/-- The events that take the output back. -/
def endsRelease {B : Backend} : Action B → Bool
  | .event (.control (.formatProposed _)) _ _ => true
  | .event (.control (.playback (.play _))) _ _ => true
  | .event .disconnected _ _ => true
  | _ => false

/-- A Seek that makes the output play. -/
def seekPlays (output : Output) : Action output.backend → Bool
  | .event (.control (.playback (.seek _ _))) _ h => flushPlays output h
  | _ => false

/-- The output is released and closed, and nothing is armed, started or
scheduled. -/
structure Released (output : Output) (s : Endpoint output.backend) : Prop where
  released : s.released = true
  notPlaying : NotPlaying s
  closed : Closed output s.audio

theorem NotPlaying.unscheduled {B : Backend} {s : Endpoint B} (hs : NotPlaying s) :
    Unscheduled s := by
  refine ⟨hs.2.2, ?_⟩
  intro hyes
  rw [hs.1] at hyes
  cases hyes

section

variable {output : Output} {build : Build} {s s' : Endpoint output.backend}
  {a : Action output.backend} {effects : List Effect}

theorem Released.of_audio (hs : Released output s) {audio : output.backend.State}
    (hclosed : Closed output audio) : Released output { s with audio } :=
  ⟨hs.released, hs.notPlaying, hclosed⟩

theorem Regulated.closed {audio : output.backend.State} (hreg : Regulated s audio)
    (hs : Closed output s.audio) : Closed output audio := by
  cases hreg with
  | kept => exact hs
  | volume level => exact (keepsClosed output).setVolume _ level hs
  | mute muted => exact (keepsClosed output).setMute _ muted hs

/-- All but Seek, and what takes the output back, leave it released. -/
theorem step_keepsReleased (hs : Released output s) (hends : endsRelease a = false)
    (hresumes : resumes a = false) (hstep : s.step build a = .ok (s', effects)) :
    Released output s' ∧ .opened ∉ effects := by
  have hkeeps := keepsClosed output
  obtain ⟨hrel, hnot, hclosed⟩ := hs
  have hs : Released output s := ⟨hrel, hnot, hclosed⟩
  cases step_inv hstep with
  | starts w startAt hd =>
    rw [hnot.2.2] at hd
    cases hd
  | ticks w inUse idle audio tracker drift stats hserved _ hstats =>
    have hclosed' : Closed output audio := by
      rcases hserved.audio_eq with rfl | ⟨-, -, c, rfl⟩
      · exact hclosed
      · exact hkeeps.setCorrection _ c hclosed
    refine ⟨⟨hrel, hnot, hclosed'⟩, ?_⟩
    rcases hstats with rfl | ⟨-, ss, rfl⟩ <;> split <;> simp
  | proposes | plays | disconnects => cases hends
  | packet header payload w h audio wrote hw =>
    cases hw with
    | ignored => exact ⟨⟨hrel, hnot, hclosed⟩, by simp⟩
    | written _ opened _ hno =>
      rw [hrel] at hno
      cases hno
  | packetStarts header payload w h audio wrote head hw hyes =>
    rw [hnot.1] at hyes
    cases hyes
  | pauses =>
    exact ⟨⟨hrel, hnot, hkeeps.setCorrection _ _ (hkeeps.pause _ hclosed)⟩, by simp⟩
  | stops streamId w h audio opened hstop =>
    obtain ⟨hclosed', rfl⟩ := hkeeps.stop _ _ _ _ hclosed hstop
    refine ⟨⟨hrel, ⟨rfl, rfl, rfl⟩, hclosed'⟩, ?_⟩
    cases s.outputInUse <;> simp [Endpoint.openedIf]
  | seeks => cases hresumes
  | reformats streamId format sampleRate w h audio opened r hno =>
    rw [hrel] at hno
    cases hno
  | volumes cmd w h audio hreg => exact ⟨hs.of_audio (hreg.closed hclosed), by simp⟩
  | releases h audio opened told hok htold =>
    obtain ⟨hclosed', rfl⟩ := hkeeps.release _ _ _ _ hclosed hok
    refine ⟨⟨rfl, ⟨rfl, rfl, rfl⟩, hclosed'⟩, ?_⟩
    rcases htold with rfl | ⟨-, er, rfl⟩ <;> cases s.outputInUse <;> simp [Endpoint.openedIf]
  | hosts h audio opened hh =>
    obtain ⟨hclosed', rfl⟩ := hkeeps.host _ _ _ _ hclosed hh
    exact ⟨hs.of_audio hclosed', by simp [Endpoint.openedIf]⟩
  | connects | reformatIgnored | reports | errs | switches =>
    exact ⟨⟨hrel, hnot, hclosed⟩, by simp⟩

/-- Silent, and no device opened so far. -/
def Untouched (output : Output) (s : Endpoint output.backend) (log : List Effect) : Prop :=
  output.backend.isPlaying s.audio = false ∧ .opened ∉ log

theorem resumes_cases (hresumes : resumes a = true) (hends : endsRelease a = false) :
    ∃ streamId positionMs w h,
      a = .event (.control (.playback (.seek streamId positionMs))) w h := by
  unfold resumes at hresumes
  split at hresumes
  next => cases hends
  next streamId positionMs w h => exact ⟨streamId, positionMs, w, h, rfl⟩
  next => cases hresumes

theorem seekPlays_of_not_resumes (hresumes : resumes a = false) : seekPlays output a = false := by
  unfold seekPlays
  split
  next => cases hresumes
  next => rfl

/-- A pass leaves a released output alone exactly when it is not a Seek that
plays. -/
theorem step_untouched {log : List Effect} (hs : Released output s) (hends : endsRelease a = false)
    (hlog : Untouched output s log) (hstep : s.step build a = .ok (s', effects)) :
    (Untouched output s' (log ++ effects) ↔ seekPlays output a = false) ∧
      (seekPlays output a = false → Released output s') := by
  by_cases hresumes : resumes a = true
  · obtain ⟨streamId, positionMs, w, h, rfl⟩ := resumes_cases hresumes hends
    cases step_inv hstep with
    | seeks _ _ _ _ audio opened hflush =>
      obtain ⟨hplaying, hno⟩ := flush_playing output hflush
      have hplaying' := ((playsOnly output).setCorrection audio 0).trans hplaying
      refine ⟨⟨?_, ?_⟩, ?_⟩
      · intro huntouched
        exact hplaying'.symm.trans huntouched.1
      · intro hseek
        obtain ⟨rfl, -⟩ := hno hseek
        refine ⟨hplaying'.trans hseek, ?_⟩
        simpa [Endpoint.openedIf] using hlog.2
      · intro hseek
        exact ⟨hs.released, hs.notPlaying, (keepsClosed output).setCorrection _ _ (hno hseek).2⟩
    | reports _ _ _ he => cases he
  · rw [Bool.not_eq_true] at hresumes
    have hseek := seekPlays_of_not_resumes hresumes
    obtain ⟨hs', hopened⟩ := step_keepsReleased hs hends hresumes hstep
    have hquiet : Quiet s := ⟨hlog.1, hs.notPlaying.unscheduled⟩
    have hsilent := (step_quiet (playsOnly output) hquiet hresumes hstep).1
    refine ⟨⟨fun _ => hseek, fun _ => ⟨hsilent, ?_⟩⟩, fun _ => hs'⟩
    simp [hlog.2, hopened]

end

/-- **A released output stays released**, exactly until a Seek makes it play, if
the release leaves no thread behind that can still open the device: then, and
only then, no device is opened and the output is silent, whatever comes before
the next FormatProposed, Play or Disconnected. -/
theorem released_until_play (output : Output) {build : Build} {s s₁ t : Endpoint output.backend}
    {h : output.backend.Host} {out more : List Effect} {mid : List (Action output.backend)}
    (hrel : s.step build (.release h) = .ok (s₁, out)) (hnone : NoneOpens output s₁.audio)
    (hmid : ∀ a ∈ mid, endsRelease a = false)
    (hruns : run (Endpoint.step build) s₁ mid = .ok (t, more)) :
    Throughout (Endpoint.step build) (Untouched output) s₁ mid ↔
      ∀ a ∈ mid, seekPlays output a = false := by
  have hstart : Released output s₁ ∧ Untouched output s₁ [] := by
    cases step_inv hrel with
    | releases _ audio opened told hok =>
      refine ⟨⟨rfl, ⟨rfl, rfl, rfl⟩, release_closed output hok hnone⟩, ?_, by simp⟩
      exact (playsOnly output).release _ _ _ _ hok
  rw [← along_iff_forall hruns]
  refine throughout_iff_along_of mid (Untouched output) s₁ t more ?_ hstart.1 hmid hstart.2 hruns
  intro r log a r' o hr ha hlog hstep
  exact step_untouched hr ha hlog hstep

/-! ### Runs on both outputs -/

/-- What comes after a release, without a Seek. -/
def afterwards (B : Backend) (h : B.Host) : List (Action B) :=
  [.event (.audioPacket someHeader (List.replicate 16 0)) (localWorld 0 0) h,
   .event (.control (.nextTrackReformat "s" .pcmS16le 44100)) (localWorld 0 0) h,
   .event (.control (.volume (.set 50))) (localWorld 0 0) h,
   .event (.control (.playback (.pause "s"))) (localWorld 0 0) h,
   .servoTick (localWorld 0 0),
   .event (.control (.playback (.stop "s"))) (localWorld 0 0) h]

theorem afterwards_seekless (output : Output) (h : output.backend.Host) :
    ∀ a ∈ afterwards output.backend h, endsRelease a = false ∧ seekPlays output a = false := by
  simp [afterwards, endsRelease, seekPlays]

/-- Seek opens the device and plays while the output is released. -/
theorem seek_reopens :
    (run (Endpoint.step .release) cpalEndpoint (playing ++ [.release willing])).bind (fun r =>
      (run (Endpoint.step .release) r.1
        [cpalEvent (.control (.playback (.seek "s" 1000)))]).map (fun q =>
          (q.1.released, q.1.audio.playing, decide (.opened ∈ q.2)))) =
      .ok (true, true, true) := by
  decide +kernel

/-- An event of the controller on an ALSA output. -/
def alsaEvent (e : Event) (host : List AlsaAction) :
    Action (alsaBackend Alsa.plainConversions) :=
  .event e (localWorld 0 0) host

def alsaEndpoint : Endpoint (alsaBackend Alsa.plainConversions) := .new _ false none

/-- The same controller; the writer opens the device. -/
def alsaPlaying : List (Action (alsaBackend Alsa.plainConversions)) :=
  [alsaEvent (.connected "c" "controller") [],
   alsaEvent (.control (.formatProposed (stereoProposal "s" 48000)))
     [.thread 0 0 (.opener (.ok ())), .thread 0 0 .go, .resume],
   alsaEvent (.control (.playback (.play "s"))) []]

/-- The writer closes the device and returns. -/
def returning : List AlsaAction :=
  [.thread 0 0 .go, .thread 0 0 .go, .thread 0 0 .go, .thread 0 0 .go, .resume]

theorem afterwards_untouched :
    ((run (Endpoint.step .release) cpalEndpoint
        (playing ++ [.release willing] ++ afterwards _ willing)).map (fun r => r.1.released) =
      .ok true ∧
    ∀ s s₁ t log out more, run (Endpoint.step .release) cpalEndpoint playing = .ok (s, log) →
      s.step .release (.release willing) = .ok (s₁, out) →
      run (Endpoint.step .release) s₁ (afterwards _ willing) = .ok (t, more) →
      Throughout (Endpoint.step .release) (Untouched (.cpal Cpal.pcmOnly)) s₁
        (afterwards _ willing)) ∧
    ((run (Endpoint.step .release) alsaEndpoint
        (alsaPlaying ++ [.release returning] ++ afterwards _ [])).map (fun r => r.1.released) =
      .ok true ∧
    ∀ s s₁ t log out more, run (Endpoint.step .release) alsaEndpoint alsaPlaying = .ok (s, log) →
      s.step .release (.release returning) = .ok (s₁, out) →
      run (Endpoint.step .release) s₁ (afterwards _ []) = .ok (t, more) →
      Throughout (Endpoint.step .release) (Untouched (.alsa Alsa.plainConversions)) s₁
        (afterwards _ [])) := by
  refine ⟨⟨by decide +kernel, ?_⟩, ⟨by decide +kernel, ?_⟩⟩
  · intro s s₁ t log out more hrun hrel hruns
    have hseekless := afterwards_seekless (.cpal Cpal.pcmOnly) willing
    exact (released_until_play (.cpal Cpal.pcmOnly) hrel trivial (fun a ha => (hseekless a ha).1)
      hruns).mpr (fun a ha => (hseekless a ha).2)
  · intro s s₁ t log out more hrun hrel hruns
    have hthreads : (run (Endpoint.step .release) alsaEndpoint
        (alsaPlaying ++ [.release returning])).map (fun r => r.1.audio.threads.all neverOpens) =
        .ok true := by decide +kernel
    rw [run_append_ok hrun (run_single hrel)] at hthreads
    simp only [Except.map, Except.ok.injEq, List.all_eq_true] at hthreads
    have hseekless := afterwards_seekless (.alsa Alsa.plainConversions) []
    exact (released_until_play (.alsa Alsa.plainConversions) hrel hthreads
      (fun a ha => (hseekless a ha).1) hruns).mpr (fun a ha => (hseekless a ha).2)

end Oaat.Cli
