/-
Oaat.Cli.Formats — the packets that are written, and the format of the output.

`write_audio` takes the bytes of a payload to be in the format that the output is
configured with. The control channel decides that format: it is the one that was
proposed or announced last (`formatAfter`). The packets come on a channel of their
own, and the loop does not look at the format in their headers. `Formatted` keeps
the format that the control events ask for beside the loop; the main theorem says
that the output has it, and that the payloads are in it exactly when the packets
come in the right order.
-/
import Oaat.Cli.Outputs
import Oaat.Cli.Playback

namespace Oaat.Cli

open Oaat.Core Oaat.Endpoint Oaat.Lib

/-- The format that the output is configured with. -/
def formatOf : (output : Output) → output.backend.State → AudioFormat
  | .cpal _, o => CpalOutput.format o
  | .alsa _, s => AlsaDirectOutput.format (Alsa.output s)

/-- A payload that is written: the format of its packet, and that of the output. -/
structure Payload where
  packet : AudioFormat
  output : AudioFormat
  deriving Repr, DecidableEq

/-- The format that the output should have after a pass, by the control events. -/
def formatAfter {B : Backend} (s : Endpoint B) (format : AudioFormat) : Action B → AudioFormat
  | .event (.control (.formatProposed fp)) _ _ => fp.format
  | .event (.control (.nextTrackReformat _ announced _)) _ _ =>
    if s.released then format else announced
  -- Play after a release takes up the last proposal
  | .event (.control (.playback (.play _))) _ _ =>
    if s.released then (s.lastFormat.map fun fp => fp.format).getD format else format
  | _ => format

structure Formatted (output : Output) where
  endpoint : Endpoint output.backend
  format : AudioFormat

namespace Formatted

def new (output : Output) (mixer : Bool) (device : Option (List Char)) : Formatted output :=
  { endpoint := .new _ mixer device, format := .pcmS16le }

def payloads {output : Output} (s : Formatted output) (effects : List Effect) : List Payload :=
  effects.filterMap fun
    | .write header _ =>
      some { packet := header.format, output := formatOf output s.endpoint.audio }
    | _ => none

def step (build : Build) {output : Output} (s : Formatted output) (a : Action output.backend) :
    Except Halt (Formatted output × List Payload) :=
  match s.endpoint.step build a with
  | .error e => .error e
  | .ok (endpoint, effects) =>
    .ok ({ endpoint, format := formatAfter s.endpoint s.format a }, s.payloads effects)

end Formatted

/-- Every payload is in the format of the output. -/
def Match (log : List Payload) : Prop := ∀ p ∈ log, p.packet = p.output

/-- A packet with a payload, while the output is not released, is in the format
that was asked for last. -/
def InOrder {output : Output} (s : Formatted output) : Action output.backend → Prop
  | .event (.audioPacket header payload) _ _ =>
    payload ≠ [] → s.endpoint.released = false → header.format = s.format
  | _ => True

/-! ## cpal -/

theorem callbacks_format (o : CpalOutput) (during : List Nat) :
    (o.callbacks during).1.format = o.format := by
  induction during generalizing o with
  | nil => rfl
  | cons wanted rest ih =>
    have hfirst : (o.callback wanted).1.format = o.format := by
      unfold CpalOutput.callback
      split
      next => rfl
      next => split <;> rfl
    exact (ih _).trans hfirst

theorem writeAudio_format {dec : Decoders} {o o' : CpalOutput} {data : List UInt8}
    {during : List Nat} {pushed : Nat} {outs : List (List OutSample)}
    (hok : o.writeAudio dec data during = .ok (o', pushed, outs)) : o'.format = o.format := by
  unfold CpalOutput.writeAudio at hok
  split at hok
  next =>
    cases hok
    rfl
  next st hst =>
    have hcorrect : ∀ o₂ rest, (o.ringBytes dec data).1.correct (o.ringBytes dec data).2 =
        .ok (o₂, rest) → o₂.format = o.format := by
      intro o₂ rest hc
      obtain ⟨flac, hstate⟩ := Cpal.ringBytes_state dec o data
      rw [(Cpal.correct_spec hc).state, hstate]
    dsimp only at hok
    split at hok
    next => cases hok
    next o₂ hc =>
      cases hok
      exact hcorrect _ none hc
    next o₂ bytes hc =>
      cases hok
      exact (callbacks_format o₂ during).trans (hcorrect o₂ _ hc)

theorem configure_format (o : CpalOutput) (format : AudioFormat) (sampleRate : UInt32)
    (channels : UInt8) (opening : Opening) :
    (o.configure format sampleRate channels opening).1.format = format := by
  unfold CpalOutput.configure
  dsimp only
  split
  next => rfl
  next => split <;> rfl

theorem play_format (o : CpalOutput) : o.play.format = o.format := by
  unfold CpalOutput.play
  split <;> rfl

/-! ## ALSA -/

/-- The format at the end of the call in progress, or now if there is none. -/
def EndsIn (format : AudioFormat) (s : Alsa) : Prop :=
  match s.caller with
  | .stopping _ (.configure cfg _) => cfg.format = format
  | _ => s.output.format = format

/-- The format when what follows `shutdown` is done. -/
def formatThen (s : Alsa) : After → AudioFormat
  | .leave => s.output.format
  | .configure cfg _ => cfg.format

section

variable {s s' : Alsa} {conv : Conversions} {log : List AlsaEvent} {format : AudioFormat}

theorem configured_format (o : AlsaDirectOutput) (cfg : Config) :
    (o.configured cfg).1.format = cfg.format := by
  unfold AlsaDirectOutput.configured
  dsimp only
  split <;> rfl

theorem endsIn_configureReturns (hs : s.output.format = format) (r : Except String Unit)
    (play : Bool) : EndsIn format (s.configureReturns r play).1 := by
  change (if play then { s.output with playing := true } else s.output).format = format
  cases play with
  | true => exact hs
  | false => exact hs

theorem endsIn_configure (s : Alsa) (cfg : Config) (play : Bool) :
    EndsIn cfg.format (s.configure cfg play).1 := by
  have hformat := configured_format s.output cfg
  unfold Alsa.configure
  split
  next output e hout =>
    rw [hout] at hformat
    exact endsIn_configureReturns hformat (.error e) play
  next output params hout =>
    rw [hout] at hformat
    exact hformat

theorem endsIn_shutdownReturns (s : Alsa) (after : After) :
    EndsIn (formatThen s after) (s.shutdownReturns after).1 := by
  cases after with
  | leave => rfl
  | configure cfg play => exact endsIn_configure _ cfg play

theorem endsIn_shutdown {discard : Bool} {after : After}
    (hshut : s.shutdown discard after = (s', log)) : EndsIn (formatThen s after) s' := by
  unfold Alsa.shutdown at hshut
  dsimp only at hshut
  split at hshut
  next =>
    have hreturns := endsIn_shutdownReturns { s with output.playing := false } after
    rw [hshut] at hreturns
    cases after with
    | leave => exact hreturns
    | configure cfg play => exact hreturns
  next =>
    cases hshut
    cases after with
    | leave => rfl
    | configure cfg play => rfl

theorem endsIn_step (hs : EndsIn format s) (hstep : HostStep s s') : EndsIn format s' := by
  cases hstep with
  | thread threads shared => exact hs
  | stopped id after hc =>
    obtain rfl : formatThen s after = format := by
      rw [EndsIn, hc] at hs
      cases after with
      | leave => exact hs
      | configure cfg play => exact hs
    exact endsIn_shutdownReturns s after
  | opened id play writer threads hc =>
    rw [EndsIn, hc] at hs
    exact endsIn_configureReturns (s := { s with output.writer := writer, threads }) hs _ play

theorem callWith_format {c : Call} {host : List AlsaAction}
    (hstart : ∀ s₁ log₁, s.start conv c = .ok (s₁, log₁) → EndsIn format s₁)
    (hok : s.callWith conv c host = .ok (s', log)) : s'.output.format = format := by
  obtain ⟨hends, hidle⟩ := callWith_keeps (fun _ _ => endsIn_step) hstart hok
  rwa [EndsIn, hidle] at hends

end

/-! ## Either output -/

/-- Only `configure` changes the format of the output. -/
structure KeepsFormat (B : Backend) (format : B.State → AudioFormat) : Prop where
  configure : ∀ s cfg h s' opened r, B.configure s cfg h = .ok (s', opened, r) →
    format s' = cfg.format
  stop : ∀ s h s' opened, B.stop s h = .ok (s', opened) → format s' = format s
  release : ∀ s h s' opened, B.release s h = .ok (s', opened) → format s' = format s
  flush : ∀ s h s' opened, B.flush s h = .ok (s', opened) → format s' = format s
  writeAudio : ∀ s data h s' opened, B.writeAudio s data h = .ok (s', opened) →
    format s' = format s
  host : ∀ s h s' opened, B.host s h = .ok (s', opened) → format s' = format s
  play : ∀ s, format (B.play s) = format s
  pause : ∀ s, format (B.pause s) = format s
  setVolume : ∀ s level, format (B.setVolume s level) = format s
  setMute : ∀ s muted, format (B.setMute s muted) = format s
  setCorrection : ∀ s frames, format (B.setCorrection s frames) = format s

theorem cpal_keepsFormat (dec : Decoders) :
    KeepsFormat (cpalBackend dec) (formatOf (.cpal dec)) where
  configure s cfg h s' opened r hok := by
    cases hok
    exact configure_format s cfg.format cfg.sampleRate cfg.channels h.opening
  stop s h s' opened hok := by
    cases hok
    rfl
  release s h s' opened hok := by
    cases hok
    rfl
  flush s h s' opened hok := by
    cases hok
    exact (play_format _).trans (configure_format _ _ _ _ _)
  writeAudio s data h s' opened hok := by
    simp only [cpalBackend] at hok
    split at hok
    next => cases hok
    next o pushed outs hwrite =>
      cases hok
      exact writeAudio_format hwrite
  host s h s' opened hok := by
    cases hok
    exact callbacks_format s h.callbacks
  play s := play_format s
  pause _ := rfl
  setVolume _ _ := rfl
  setMute _ _ := rfl
  setCorrection _ _ := rfl

theorem alsa_keepsFormat (conv : Conversions) :
    KeepsFormat (alsaBackend conv) (formatOf (.alsa conv)) where
  configure s cfg h s' opened r hok := by
    simp only [alsaBackend] at hok
    split at hok
    next => cases hok
    next s₁ log hcall =>
      split at hok
      next => cases hok
      next =>
        cases hok
        refine callWith_format ?_ hcall
        intro s₁ log₁ hstart
        exact endsIn_shutdown (Except.ok.inj hstart)
  stop s h s' opened hok := by
    obtain ⟨log, hcall, -⟩ := perform_inv hok
    refine callWith_format ?_ hcall
    intro s₁ log₁ hstart
    exact endsIn_shutdown (Except.ok.inj hstart)
  release s h s' opened hok := by
    obtain ⟨log, hcall, -⟩ := perform_inv hok
    refine callWith_format ?_ hcall
    intro s₁ log₁ hstart
    exact endsIn_shutdown (Except.ok.inj hstart)
  flush s h s' opened hok := by
    obtain ⟨log, hcall, -⟩ := perform_inv hok
    refine callWith_format ?_ hcall
    intro s₁ log₁ hstart
    exact endsIn_shutdown (Except.ok.inj hstart)
  writeAudio s data h s' opened hok := by
    obtain ⟨flacStream, hout⟩ := perform_writeAudio hok
    have hformat := congrArg AlsaDirectOutput.format hout
    exact hformat
  host s h s' opened hok := by
    obtain ⟨log, hidle, hhost, hrun, -⟩ := host_inv hok
    exact congrArg AlsaDirectOutput.format (idle_run hidle hhost hrun)
  play _ := rfl
  pause _ := rfl
  setVolume _ _ := rfl
  setMute _ _ := rfl
  setCorrection _ _ := rfl

theorem keepsFormat : ∀ output : Output, KeepsFormat output.backend (formatOf output)
  | .cpal dec => cpal_keepsFormat dec
  | .alsa conv => alsa_keepsFormat conv

/-! ## One pass -/

section

variable {output : Output} {build : Build} {e e' : Endpoint output.backend}
  {h : output.backend.Host} {audio : output.backend.State} {effects : List Effect}

theorem Wrote.format {header : AudioPacketHeader} {payload : List UInt8}
    (hwrote : Wrote e header payload h audio effects) :
    formatOf output audio = formatOf output e.audio := by
  cases hwrote with
  | ignored => rfl
  | written audio opened _ _ hok => exact (keepsFormat output).writeAudio _ _ _ _ _ hok

theorem Served.format {tracker : Option PtsTracker} (hserved : Served e audio tracker) :
    formatOf output audio = formatOf output e.audio := by
  rcases hserved.audio_eq with rfl | ⟨-, -, c, rfl⟩
  · rfl
  · exact (keepsFormat output).setCorrection _ _

theorem Regulated.format (hreg : Regulated e audio) :
    formatOf output audio = formatOf output e.audio := by
  cases hreg with
  | kept => rfl
  | volume level => exact (keepsFormat output).setVolume _ _
  | mute muted => exact (keepsFormat output).setMute _ _

theorem Reopened.format (hre : Reopened e h audio effects) :
    formatOf output audio =
      if e.released then (e.lastFormat.map fun fp => fp.format).getD (formatOf output e.audio)
      else formatOf output e.audio := by
  cases hre with
  | kept hrel => simp [hrel]
  | unknown hrel hnone => simp [hrel, hnone]
  | configured fp audio opened r hrel hfp hok =>
    rw [(keepsFormat output).configure _ _ _ _ _ _ hok]
    simp [hrel, hfp, Endpoint.proposedConfig]

theorem played_format {audio' : output.backend.State}
    (hplayed : audio' = audio ∨ audio' = output.backend.play audio) :
    formatOf output audio' = formatOf output audio := by
  rcases hplayed with rfl | rfl
  · rfl
  · exact (keepsFormat output).play _

/-- The output has the format that the control events ask for. -/
theorem format_step {a : Action output.backend} (hstep : e.step build a = .ok (e', effects)) :
    formatOf output e'.audio = formatAfter e (formatOf output e.audio) a := by
  have hB := keepsFormat output
  cases step_inv hstep with
  | starts w startAt => exact hB.play _
  | ticks w inUse ticks audio tracker lastDrift stats hserved => exact hserved.format
  | connects => rfl
  | proposes fp w h audio opened r verdict hok => exact hB.configure _ _ _ _ _ _ hok
  | packet header payload w h audio wrote hwrote => exact hwrote.format
  | packetStarts header payload w h audio wrote head hwrote =>
    exact (played_format (deferredStart_frame _ w head).2.2.2.2).trans hwrote.format
  | plays streamId w h audio reopened hre =>
    exact (played_format (begin_frame _).2.2.2.2).trans hre.format
  | pauses streamId w h => exact (hB.setCorrection _ _).trans (hB.pause _)
  | stops streamId w h audio opened hok => exact hB.stop _ _ _ _ hok
  | seeks streamId positionMs w h audio opened hok =>
    exact (hB.setCorrection _ _).trans (hB.flush _ _ _ _ hok)
  | reformatIgnored streamId format sampleRate w h hrel => simp [formatAfter, hrel]
  | reformats streamId format sampleRate w h audio opened r hrel hok =>
    rw [formatAfter, hrel]
    exact hB.configure _ _ _ _ _ _ hok
  | volumes cmd w h audio hreg => exact hreg.format
  | reports e w h hreport => cases e <;> first | rfl | cases hreport
  | disconnects w h audio opened hok => exact hB.stop _ _ _ _ hok
  | errs => rfl
  | releases h audio opened told hok => exact hB.release _ _ _ _ hok
  | switches => rfl
  | hosts h audio opened hok => exact hB.host _ _ _ _ hok

end

section

variable {output : Output} {build : Build} {s s' : Formatted output}
  {a : Action output.backend} {log o : List Payload}

theorem formatted_step_inv (hstep : s.step build a = .ok (s', o)) :
    ∃ endpoint effects, s.endpoint.step build a = .ok (endpoint, effects) ∧
      s' = { endpoint, format := formatAfter s.endpoint s.format a } ∧
      o = s.payloads effects := by
  unfold Formatted.step at hstep
  split at hstep
  next => cases hstep
  next endpoint effects hok =>
    cases hstep
    exact ⟨endpoint, effects, hok, rfl, rfl⟩

theorem match_append {more : List Payload} (h : Match log) : Match (log ++ more) ↔ Match more := by
  rw [Match, List.forall_mem_append]
  exact and_iff_right h

theorem payloads_append (s : Formatted output) (l₁ l₂ : List Effect) :
    s.payloads (l₁ ++ l₂) = s.payloads l₁ ++ s.payloads l₂ := List.filterMap_append

theorem payloads_eq_nil {l : List Effect}
    (hnone : ∀ e ∈ l, ∀ header payload, e ≠ .write header payload) : s.payloads l = [] := by
  refine List.filterMap_eq_nil_iff.mpr ?_
  intro e he
  cases e with
  | write header payload => exact absurd rfl (hnone _ he header payload)
  | _ => rfl

theorem payloads_openedIf (s : Formatted output) (opened : Bool) :
    s.payloads (Endpoint.openedIf opened) = [] := by
  refine payloads_eq_nil ?_
  rintro e he header payload rfl
  cases eq_of_mem_openedIf he

theorem payloads_hook (s : Formatted output) (b : Bool) (hook : Hook) :
    s.payloads (if b then [.hook hook] else []) = [] := by
  cases b <;> rfl

theorem payloads_reopened {h : output.backend.Host} {audio : output.backend.State}
    {reopened : List Effect} (hre : Reopened s.endpoint h audio reopened) :
    s.payloads reopened = [] := by
  refine payloads_eq_nil ?_
  rintro e he header payload rfl
  rcases hre.effect he with he | he <;> cases he

/-- A packet that is written is in the format of the output, if it is in the one
asked for. -/
theorem match_wrote_iff (hformat : formatOf output s.endpoint.audio = s.format)
    {header : AudioPacketHeader} {payload : List UInt8} {h : output.backend.Host}
    {audio : output.backend.State} {wrote : List Effect}
    (hwrote : Wrote s.endpoint header payload h audio wrote) :
    Match (s.payloads wrote) ↔
      (payload ≠ [] → s.endpoint.released = false → header.format = s.format) := by
  cases hwrote with
  | ignored hskip =>
    refine iff_of_true (fun p hp => absurd hp List.not_mem_nil) ?_
    intro hpayload hrel
    rcases hskip with hempty | hreleased
    · exact absurd hempty hpayload
    · rw [hrel] at hreleased
      cases hreleased
  | written audio opened hpayload hrel =>
    have hone : s.payloads (.write header payload :: Endpoint.openedIf opened) =
        [{ packet := header.format, output := s.format }] := by
      rw [← hformat, ← List.singleton_append, payloads_append, payloads_openedIf]
      rfl
    rw [hone]
    simp [Match, hpayload, hrel]

/-- **One pass.** -/
theorem match_step_iff (hformat : formatOf output s.endpoint.audio = s.format) (hlog : Match log)
    (hstep : s.step build a = .ok (s', o)) : Match (log ++ o) ↔ InOrder s a := by
  obtain ⟨endpoint, effects, hok, -, rfl⟩ := formatted_step_inv hstep
  rw [match_append hlog]
  have hquiet (horder : InOrder s a) (hnone : s.payloads effects = []) :
      Match (s.payloads effects) ↔ InOrder s a := by
    refine iff_of_true ?_ horder
    rw [hnone]
    exact fun p hp => absurd hp List.not_mem_nil
  cases step_inv hok with
  | packet header payload w h audio wrote hwrote => exact match_wrote_iff hformat hwrote
  | packetStarts header payload w h audio wrote head hwrote =>
    rw [payloads_append]
    refine Iff.trans ?_ (match_wrote_iff hformat hwrote)
    rw [show s.payloads [.tracked] = [] from rfl, List.append_nil]
  | ticks w inUse ticks audio tracker lastDrift stats hserved hinUse hstats =>
    refine hquiet trivial ?_
    rw [payloads_append]
    rcases hstats with rfl | ⟨-, ss, rfl⟩ <;> split <;> rfl
  | proposes fp w h audio opened r verdict =>
    refine hquiet trivial ?_
    rw [payloads_append, ← List.singleton_append, payloads_append, payloads_openedIf]
    rfl
  | plays streamId w h audio reopened hre =>
    refine hquiet trivial ?_
    rw [payloads_append, payloads_reopened hre]
    cases s.endpoint.outputInUse <;> rfl
  | stops streamId w h audio opened =>
    exact hquiet trivial (by rw [payloads_append, payloads_openedIf, payloads_hook]; rfl)
  | disconnects w h audio opened =>
    exact hquiet trivial (by rw [payloads_append, payloads_openedIf, payloads_hook]; rfl)
  | releases h audio opened told hrel htold =>
    refine hquiet trivial ?_
    rw [payloads_append, payloads_append, payloads_openedIf, payloads_hook]
    rcases htold with rfl | ⟨-, er, rfl⟩ <;> rfl
  | seeks streamId positionMs w h audio opened => exact hquiet trivial (payloads_openedIf s opened)
  | reformats streamId format sampleRate w h audio opened =>
    exact hquiet trivial (payloads_openedIf s opened)
  | hosts h audio opened => exact hquiet trivial (payloads_openedIf s opened)
  | reports e w h hreport => exact hquiet trivial rfl
  | _ => exact hquiet trivial rfl

end

/-! ## Every run -/

/-- **Only matching bytes reach the output**, exactly when every packet with a
payload that comes while the output is not released is in the format that the
control events asked for last. The output has that format in every state. -/
theorem payloads_match_iff (output : Output) {build : Build} {mixer : Bool}
    {device : Option (List Char)} {acts : List (Action output.backend)} {s : Formatted output}
    {log : List Payload}
    (hrun : run (Formatted.step build) (.new output mixer device) acts = .ok (s, log)) :
    (Throughout (Formatted.step build) (fun _ log => Match log) (.new output mixer device) acts ↔
      Along (Formatted.step build) InOrder (.new output mixer device) acts) ∧
    Throughout (Formatted.step build) (fun s _ => formatOf output s.endpoint.audio = s.format)
      (.new output mixer device) acts := by
  have hkeep : ∀ (s : Formatted output) a s' o, formatOf output s.endpoint.audio = s.format →
      s.step build a = .ok (s', o) → formatOf output s'.endpoint.audio = s'.format := by
    intro s a s' o hformat hstep
    obtain ⟨endpoint, effects, hok, rfl, -⟩ := formatted_step_inv hstep
    rw [format_step hok, hformat]
  have hnew : formatOf output (Formatted.new output mixer device).endpoint.audio =
      (Formatted.new output mixer device).format := by
    cases output <;> rfl
  have hstep : ∀ (s : Formatted output) log a s' o, formatOf output s.endpoint.audio = s.format →
      True → Match log → s.step build a = .ok (s', o) →
      (Match (log ++ o) ↔ InOrder s a) ∧
        (InOrder s a → formatOf output s'.endpoint.audio = s'.format) :=
    fun s log a s' o hformat _ hlog ha =>
      ⟨match_step_iff hformat hlog ha, fun _ => hkeep s a s' o hformat ha⟩
  refine ⟨throughout_iff_along_of acts (fun _ log => Match log) _ s log hstep hnew
    (fun _ _ => trivial) (fun p hp => absurd hp List.not_mem_nil) hrun, ?_⟩
  exact throughout_of_step (fun s _ a s' o => hkeep s a s' o) hnew acts

/-- A packet of four bytes. -/
def framePacket (format : AudioFormat) : Action (cpalBackend Cpal.pcmOnly) :=
  cpalEvent (.audioPacket { someHeader with format, payloadLen := 4 } [1, 2, 3, 4])

/-- A 16-bit track, the announcement of one in 24 bits, and another packet. -/
def reformatted (last : AudioFormat) : List (Action (Output.cpal Cpal.pcmOnly).backend) :=
  playing ++ [framePacket .pcmS16le,
    cpalEvent (.control (.nextTrackReformat "s" .pcmS24le 48000)), framePacket last]

/-- What a run from the start writes. -/
def writtenBy (acts : List (Action (Output.cpal Cpal.pcmOnly).backend)) : Option (List Payload) :=
  viewRun (Formatted.step .release) (fun _ log => log) (.new (.cpal Cpal.pcmOnly) false none) acts

instance {output : Output} (s : Formatted output) (a : Action output.backend) :
    Decidable (InOrder s a) := by
  unfold InOrder
  split <;> infer_instance

/-- The packets come in step with the formats. -/
theorem payloads_match_inStep :
    writtenBy (reformatted .pcmS24le) =
        some [⟨.pcmS16le, .pcmS16le⟩, ⟨.pcmS24le, .pcmS24le⟩] ∧
      Throughout (Formatted.step .release) (fun _ log => Match log)
        (.new (.cpal Cpal.pcmOnly) false none) (reformatted .pcmS24le) := by
  have hwritten : writtenBy (reformatted .pcmS24le) =
      some [⟨.pcmS16le, .pcmS16le⟩, ⟨.pcmS24le, .pcmS24le⟩] := by
    decide +kernel
  obtain ⟨s, _, hrun, rfl⟩ := run_of_viewRun hwritten
  refine ⟨hwritten, (payloads_match_iff (.cpal Cpal.pcmOnly) hrun).1.mpr ?_⟩
  decide +kernel

/-- The tail of a 16-bit track is written as 24-bit samples. -/
theorem tail_misread :
    writtenBy (reformatted .pcmS16le) =
        some [⟨.pcmS16le, .pcmS16le⟩, ⟨.pcmS16le, .pcmS24le⟩] ∧
      ¬ Throughout (Formatted.step .release) (fun _ log => Match log)
        (.new (.cpal Cpal.pcmOnly) false none) (reformatted .pcmS16le) := by
  have hwritten : writtenBy (reformatted .pcmS16le) =
      some [⟨.pcmS16le, .pcmS16le⟩, ⟨.pcmS16le, .pcmS24le⟩] := by
    decide +kernel
  refine ⟨hwritten, ?_⟩
  intro hall
  obtain ⟨s, _, hrun, rfl⟩ := run_of_viewRun hwritten
  have hmatch : Match _ := hall _ [] s _ (List.append_nil _).symm hrun
  have hsame : AudioFormat.pcmS16le = .pcmS24le :=
    hmatch ⟨.pcmS16le, .pcmS24le⟩ (by simp)
  cases hsame

end Oaat.Cli
