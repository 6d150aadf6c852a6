/-
Oaat.Cli.Outputs — what the application can rely on in either output.

Only `play` and `flush` make an output play. For ALSA this takes an argument: a
call goes on after the threads have taken steps, and whether it plays at its end
is settled when it starts (`Ends`).
-/
import Oaat.Alsa.Configure
import Oaat.Cli.Steps
import Oaat.Cpal.Integrity

namespace Oaat.Cli

open Oaat.Core Oaat.Endpoint Oaat.Lib

/-! ## cpal -/

/-- What the callbacks and the writes leave alone. -/
structure SameStream (o o' : CpalOutput) : Prop where
  playing : o'.playing = o.playing
  sampleRate : o'.sampleRate = o.sampleRate
  isSome_stream : o'.stream.isSome = o.stream.isSome

theorem SameStream.refl (o : CpalOutput) : SameStream o o := ⟨rfl, rfl, rfl⟩

theorem SameStream.trans {o o₁ o₂ : CpalOutput} (h₁ : SameStream o o₁) (h₂ : SameStream o₁ o₂) :
    SameStream o o₂ :=
  ⟨h₂.playing.trans h₁.playing, h₂.sampleRate.trans h₁.sampleRate,
    h₂.isSome_stream.trans h₁.isSome_stream⟩

theorem callback_same (o : CpalOutput) (wanted : Nat) : SameStream o (o.callback wanted).1 := by
  unfold CpalOutput.callback
  split
  next => exact .refl o
  next st hst =>
    split
    next => exact .refl o
    next => exact ⟨rfl, rfl, by rw [hst]; rfl⟩

theorem callbacks_same (o : CpalOutput) (during : List Nat) :
    SameStream o (o.callbacks during).1 := by
  induction during generalizing o with
  | nil => exact .refl o
  | cons wanted rest ih => exact (callback_same o wanted).trans (ih _)

theorem push_same (o : CpalOutput) (st : Stream) (bytes : List UInt8) (during : List Nat) :
    SameStream o (o.push st bytes during).1 := by
  have hsame := callbacks_same o during
  refine ⟨hsame.playing, hsame.sampleRate, ?_⟩
  rw [← hsame.isSome_stream]
  exact Option.isSome_map

theorem writeAudio_same {dec : Decoders} {o o' : CpalOutput} {data : List UInt8}
    {during : List Nat} {pushed : Nat} {outs : List (List OutSample)}
    (hok : o.writeAudio dec data during = .ok (o', pushed, outs)) : SameStream o o' := by
  unfold CpalOutput.writeAudio at hok
  split at hok
  next =>
    cases hok
    exact .refl o
  next st hst =>
    have hring : SameStream o (o.ringBytes dec data).1 := by
      obtain ⟨flac, hstate⟩ := Cpal.ringBytes_state dec o data
      rw [hstate]
      exact ⟨rfl, rfl, rfl⟩
    have hcorrect : ∀ o₂ rest, (o.ringBytes dec data).1.correct (o.ringBytes dec data).2 =
        .ok (o₂, rest) → SameStream o o₂ := by
      intro o₂ rest hc
      rw [(Cpal.correct_spec hc).state]
      exact hring.trans ⟨rfl, rfl, rfl⟩
    dsimp only at hok
    split at hok
    next => cases hok
    next o₂ hc =>
      cases hok
      exact hcorrect _ none hc
    next o₂ bytes hc =>
      rw [Except.ok.injEq] at hok
      have hpush := push_same o₂ st bytes during
      rw [hok] at hpush
      exact (hcorrect o₂ _ hc).trans hpush

/-- `configure` leaves the output silent, at the rate asked for. -/
theorem configure_silent (o : CpalOutput) (format : AudioFormat) (sampleRate : UInt32)
    (channels : UInt8) (opening : Opening) :
    (o.configure format sampleRate channels opening).1.playing = false ∧
      (o.configure format sampleRate channels opening).1.sampleRate = sampleRate := by
  unfold CpalOutput.configure
  dsimp only
  split
  next => exact ⟨rfl, rfl⟩
  next =>
    split
    next => exact ⟨rfl, rfl⟩
    next => exact ⟨rfl, rfl⟩

/-! ## The ALSA calls -/

/-- Whether a call plays when what follows `shutdown` is done. -/
def playsAfter : After → Bool
  | .leave => false
  | .configure _ play => play

/-- Whether the output plays, now or at the end of the call in progress. -/
def Ends (plays : Bool) (s : Alsa) : Prop :=
  match s.caller with
  | .idle => s.output.playing = plays
  | .stopping _ after => s.output.playing = false ∧ playsAfter after = plays
  | .opening _ play => s.output.playing = false ∧ play = plays

section

variable {s s' : Alsa} {conv : Conversions} {log : List AlsaEvent} {plays : Bool}

theorem ends_configureReturns (hs : s.output.playing = false) (r : Except String Unit)
    (play : Bool) : Ends play (s.configureReturns r play).1 := by
  change (if play then { s.output with playing := true } else s.output).playing = play
  cases play with
  | true => rfl
  | false => exact hs

theorem configured_playing (o : AlsaDirectOutput) (cfg : Config) (hs : o.playing = false) :
    (o.configured cfg).1.playing = false := by
  unfold AlsaDirectOutput.configured
  dsimp only
  split
  · exact hs
  · rfl

theorem ends_configure (hs : s.output.playing = false) (cfg : Config) (play : Bool) :
    Ends play (s.configure cfg play).1 := by
  have hkeep := configured_playing s.output cfg hs
  unfold Alsa.configure
  split
  next output e hout =>
    rw [hout] at hkeep
    exact ends_configureReturns hkeep (.error e) play
  next output params hout =>
    rw [hout] at hkeep
    exact ⟨hkeep, rfl⟩

theorem ends_shutdownReturns (hs : s.output.playing = false) (after : After) :
    Ends (playsAfter after) (s.shutdownReturns after).1 := by
  cases after with
  | leave => exact hs
  | configure cfg play => exact ends_configure hs cfg play

theorem ends_shutdown {discard : Bool} {after : After}
    (hshut : s.shutdown discard after = (s', log)) : Ends (playsAfter after) s' := by
  unfold Alsa.shutdown at hshut
  dsimp only at hshut
  split at hshut
  next =>
    have hreturns :=
      ends_shutdownReturns (s := { s with output.playing := false }) rfl after
    rwa [hshut] at hreturns
  next =>
    cases hshut
    exact ⟨rfl, rfl⟩

/-- A step of the host: a thread goes on, or the call in progress comes back from
what it waits for. -/
inductive HostStep (s : Alsa) : Alsa → Prop where
  | thread (threads : List WriterThread) (shared : Shared) : HostStep s { s with threads, shared }
  | stopped (id : Nat) (after : After) : s.caller = .stopping id after →
      HostStep s (s.shutdownReturns after).1
  | opened (id : Nat) (play : Bool) (writer : Option Nat) (threads : List WriterThread) :
      s.caller = .opening id play →
      HostStep s ({ s with output.writer := writer, threads }.configureReturns (.ok ()) play).1

theorem resume_inv (hstep : s.resume = .ok (s', log)) : HostStep s s' := by
  unfold Alsa.resume at hstep
  split at hstep
  next => cases hstep
  next id after hc =>
    split at hstep
    next => cases hstep
    next =>
      split at hstep
      next =>
        obtain rfl : (s.shutdownReturns after).1 = s' :=
          congrArg Prod.fst (Except.ok.inj hstep)
        exact .stopped id after hc
      next => cases hstep
  next id play hc =>
    split at hstep
    next => cases hstep
    next =>
      cases hstep
      exact .opened id play (some id) s.threads hc
    next =>
      cases hstep
      exact .opened id play s.output.writer s.threads hc

theorem giveUp_inv (hstep : s.giveUp = .ok (s', log)) : HostStep s s' := by
  unfold Alsa.giveUp at hstep
  split at hstep
  next => cases hstep
  next id after hc =>
    split at hstep
    next => cases hstep
    next =>
      split at hstep
      next => cases hstep
      next =>
        obtain rfl : (s.shutdownReturns after).1 = s' :=
          congrArg Prod.fst (Except.ok.inj hstep)
        exact .stopped id after hc
  next id play hc =>
    split at hstep
    next => cases hstep
    next =>
      split at hstep
      next => cases hstep
      next =>
        cases hstep
        exact .opened id play s.output.writer _ hc

theorem host_step_inv {a : AlsaAction} (hhost : Alsa.isHost a = true)
    (hstep : s.step conv a = .ok (s', log)) : HostStep s s' := by
  cases a with
  | call c => cases hhost
  | thread id now answer =>
    obtain ⟨t, t', sh', took, -, -, rfl, -⟩ := Alsa.threadStep_inv hstep
    exact .thread _ _
  | resume => exact resume_inv hstep
  | giveUp => exact giveUp_inv hstep

/-- The host's steps do not change how the call ends. -/
theorem ends_step (hs : Ends plays s) (hstep : HostStep s s') : Ends plays s' := by
  cases hstep with
  | thread threads shared => exact hs
  | stopped id after hc =>
    rw [Ends, hc] at hs
    obtain ⟨hplaying, rfl⟩ := hs
    exact ends_shutdownReturns hplaying after
  | opened id play writer threads hc =>
    rw [Ends, hc] at hs
    obtain ⟨hplaying, rfl⟩ := hs
    exact ends_configureReturns (s := { s with output.writer := writer, threads }) hplaying _ play

/-- What the host does between the calls. -/
theorem host_inv {host : List AlsaAction} {opened : Bool}
    (hok : (alsaBackend conv).host s host = .ok (s', opened)) :
    ∃ log, s.isIdle = true ∧ host.all Alsa.isHost = true ∧
      run (Alsa.step conv) s host = .ok (s', log) ∧ opened = log.any Alsa.isOpened := by
  simp only [alsaBackend] at hok
  split at hok
  next hcond =>
    rw [Bool.and_eq_true] at hcond
    cases hidle : s.runIdle conv host with
    | error e => simp [hidle, Except.map] at hok
    | ok r =>
      obtain ⟨s₁, log⟩ := r
      simp only [hidle, Except.map, Except.ok.injEq, Prod.mk.injEq] at hok
      obtain ⟨rfl, rfl⟩ := hok
      exact ⟨log, hcond.1, hcond.2, (Alsa.runIdle_inv hidle).1, rfl⟩
  next => cases hok

theorem perform_inv {c : Call} {host : List AlsaAction} {opened : Bool}
    (hok : s.perform conv c host = .ok (s', opened)) :
    ∃ log, s.callWith conv c host = .ok (s', log) ∧ opened = log.any Alsa.isOpened := by
  unfold Alsa.perform at hok
  cases hcall : s.callWith conv c host with
  | error e => simp [hcall, Except.map] at hok
  | ok r =>
    obtain ⟨s₁, log⟩ := r
    simp only [hcall, Except.map, Except.ok.injEq, Prod.mk.injEq] at hok
    obtain ⟨rfl, rfl⟩ := hok
    exact ⟨log, rfl, rfl⟩

/-- The host does nothing else than its steps. -/
theorem along_host {acts : List AlsaAction} (hhost : acts.all Alsa.isHost = true) (s : Alsa) :
    Along (Alsa.step conv) (fun _ a => Alsa.isHost a = true) s acts :=
  along_of_forall fun a ha _ => List.all_eq_true.mp hhost a ha

/-- What holds when a call has started and what the host keeps, holds at its end. -/
theorem callWith_keeps {Q : Alsa → Prop} {c : Call} {host : List AlsaAction}
    (hkeep : ∀ r r', Q r → HostStep r r' → Q r')
    (hstart : ∀ s₁ log₁, s.start conv c = .ok (s₁, log₁) → Q s₁)
    (hok : s.callWith conv c host = .ok (s', log)) : Q s' ∧ s'.caller = .idle := by
  obtain ⟨s₁, log₁, log₂, -, hfirst, hhost, hrest, hidle, -⟩ := Alsa.callWith_inv hok
  have hstep : ∀ r a r' o, Q r → Alsa.isHost a = true → Alsa.step conv r a = .ok (r', o) →
      Q r' ∧ ∀ x ∈ o, True :=
    fun r a r' o hr ha hstep => ⟨hkeep r r' hr (host_step_inv ha hstep), fun _ _ => trivial⟩
  have hend := run_keeps hstep (hstart s₁ log₁ hfirst) (along_host hhost s₁) hrest
  exact ⟨hend.1, Alsa.caller_of_idle hidle⟩

/-- A call ends as it starts. -/
theorem callWith_playing {c : Call} {host : List AlsaAction}
    (hstart : ∀ s₁ log₁, s.start conv c = .ok (s₁, log₁) → Ends plays s₁)
    (hok : s.callWith conv c host = .ok (s', log)) : s'.output.playing = plays := by
  obtain ⟨hends, hidle⟩ := callWith_keeps (fun _ _ => ends_step) hstart hok
  rwa [Ends, hidle] at hends

/-- Between the calls only the threads go on. -/
theorem idle_step (hidle : s.isIdle = true) {a : AlsaAction} (hhost : Alsa.isHost a = true)
    (hstep : s.step conv a = .ok (s', log)) :
    s'.isIdle = true ∧ s'.output = s.output ∧ ∃ id now answer, a = .thread id now answer := by
  have hc := Alsa.caller_of_idle hidle
  cases a with
  | call c => cases hhost
  | resume => simp [Alsa.step, Alsa.resume, hc] at hstep
  | giveUp => simp [Alsa.step, Alsa.giveUp, hc] at hstep
  | thread id now answer =>
    obtain ⟨t, t', sh', took, -, -, rfl, -⟩ := Alsa.threadStep_inv hstep
    exact ⟨hidle, rfl, id, now, answer, rfl⟩

/-- Between the calls the output stays as it is. -/
theorem idle_run (hidle : s.isIdle = true) {acts : List AlsaAction}
    (hhost : acts.all Alsa.isHost = true) (hrun : run (Alsa.step conv) s acts = .ok (s', log)) :
    s'.output = s.output := by
  have hstep : ∀ r a r' o, r.isIdle = true ∧ r.output = s.output → Alsa.isHost a = true →
      Alsa.step conv r a = .ok (r', o) →
      (r'.isIdle = true ∧ r'.output = s.output) ∧ ∀ x ∈ o, True := by
    intro r a r' o hr ha hstep
    obtain ⟨hidle', hout, -⟩ := idle_step hr.1 ha hstep
    exact ⟨⟨hidle', hout.trans hr.2⟩, fun _ _ => trivial⟩
  have hkeeps := run_keeps hstep ⟨hidle, rfl⟩ (along_host hhost s) hrun
  exact hkeeps.1.2

/-- `write_audio` changes the FLAC decoder of the output and nothing else of it. -/
theorem writeAudio_frame {data : List UInt8}
    (hok : s.writeAudio conv data = .ok (s', log)) :
    s'.caller = s.caller ∧ ∃ flacStream, s'.output = { s.output with flacStream } := by
  obtain ⟨flacStream, rfl | ⟨id, t, -, -, rfl⟩⟩ := Alsa.writeAudio_inv hok
  · exact ⟨rfl, flacStream, rfl⟩
  · exact ⟨rfl, flacStream, rfl⟩

/-- The whole call, until it returns. -/
theorem perform_writeAudio {data : List UInt8} {host : List AlsaAction} {opened : Bool}
    (hok : s.perform conv (.writeAudio data) host = .ok (s', opened)) :
    ∃ flacStream, s'.output = { s.output with flacStream } := by
  obtain ⟨log, hcall, -⟩ := perform_inv hok
  obtain ⟨s₁, log₁, log₂, hidle, hstart, hhost, hrun, -, -⟩ := Alsa.callWith_inv hcall
  obtain ⟨hcaller, hout⟩ := writeAudio_frame hstart
  rw [← idle_run (by rw [Alsa.isIdle, hcaller, hidle]) hhost hrun] at hout
  exact hout

end

/-! ## What makes an output play -/

/-- Only `play` and `flush` make the output play. -/
structure PlaysOnly (B : Backend) : Prop where
  configure : ∀ s cfg h s' opened r, B.configure s cfg h = .ok (s', opened, r) →
    B.isPlaying s' = false
  stop : ∀ s h s' opened, B.stop s h = .ok (s', opened) → B.isPlaying s' = false
  release : ∀ s h s' opened, B.release s h = .ok (s', opened) → B.isPlaying s' = false
  pause : ∀ s, B.isPlaying (B.pause s) = false
  writeAudio : ∀ s data h s' opened, B.writeAudio s data h = .ok (s', opened) →
    B.isPlaying s' = B.isPlaying s
  host : ∀ s h s' opened, B.host s h = .ok (s', opened) → B.isPlaying s' = B.isPlaying s
  setVolume : ∀ s level, B.isPlaying (B.setVolume s level) = B.isPlaying s
  setMute : ∀ s muted, B.isPlaying (B.setMute s muted) = B.isPlaying s
  setCorrection : ∀ s frames, B.isPlaying (B.setCorrection s frames) = B.isPlaying s

theorem cpal_playsOnly (dec : Decoders) : PlaysOnly (cpalBackend dec) where
  configure s cfg h s' opened r hok := by
    cases hok
    exact (configure_silent s cfg.format cfg.sampleRate cfg.channels h.opening).1
  stop s h s' opened hok := by
    cases hok
    rfl
  release s h s' opened hok := by
    cases hok
    rfl
  pause _ := rfl
  writeAudio s data h s' opened hok := by
    simp only [cpalBackend] at hok
    split at hok
    next => cases hok
    next o pushed outs hwrite =>
      cases hok
      exact (writeAudio_same hwrite).playing
  host s h s' opened hok := by
    cases hok
    exact (callbacks_same s h.callbacks).playing
  setVolume _ _ := rfl
  setMute _ _ := rfl
  setCorrection _ _ := rfl

theorem alsa_playsOnly (conv : Conversions) : PlaysOnly (alsaBackend conv) where
  configure s cfg h s' opened r hok := by
    simp only [alsaBackend] at hok
    split at hok
    next => cases hok
    next s₁ log hcall =>
      split at hok
      next => cases hok
      next =>
        cases hok
        refine callWith_playing ?_ hcall
        intro s₁ log₁ hstart
        exact ends_shutdown (Except.ok.inj hstart)
  stop s h s' opened hok := by
    obtain ⟨log, hcall, -⟩ := perform_inv hok
    refine callWith_playing ?_ hcall
    intro s₁ log₁ hstart
    exact ends_shutdown (Except.ok.inj hstart)
  release s h s' opened hok := by
    obtain ⟨log, hcall, -⟩ := perform_inv hok
    refine callWith_playing ?_ hcall
    intro s₁ log₁ hstart
    exact ends_shutdown (Except.ok.inj hstart)
  pause _ := rfl
  writeAudio s data h s' opened hok := by
    obtain ⟨flacStream, hout⟩ := perform_writeAudio hok
    have hplaying := congrArg AlsaDirectOutput.playing hout
    exact hplaying
  host s h s' opened hok := by
    obtain ⟨log, hidle, hhost, hrun, -⟩ := host_inv hok
    exact congrArg AlsaDirectOutput.playing (idle_run hidle hhost hrun)
  setVolume _ _ := rfl
  setMute _ _ := rfl
  setCorrection _ _ := rfl

theorem playsOnly : ∀ output : Output, PlaysOnly output.backend
  | .cpal dec => cpal_playsOnly dec
  | .alsa conv => alsa_playsOnly conv

end Oaat.Cli
