/-
Oaat.Cli.NativeDsd — native DSD is opened at rates that the DAC was probed for.

The maximum that the endpoint announces comes from a probe of one device at
start-up. The device is opened much later, for a proposal that the session
passes on whether it accepts it or not, through the names and rates of the ALSA
output. What ties the two together is that the controller keeps to what was
announced (`Offered`). For streams of 16-bit words the output divides the rate by 16,
and opens an eighth of the rate that was probed.
-/
import Oaat.Cli.Released
import Oaat.Cli.Requested
import Oaat.Cli.Startup
import Oaat.Negotiation.Capabilities

namespace Oaat.Cli

open Oaat.Core Oaat.Endpoint Oaat.Lib

/-! ## Rates -/

/-- The sample rate of native DSD at a multiplier: `DSD_U8` counts bits, the others
count words. -/
def Rated (multiplier : UInt16) (format : AudioFormat) (sampleRate : UInt32) : Prop :=
  multiplier ∈ DSD_MULTIPLIERS ∧
    (format = .dsdU8 ∧ sampleRate = multiplier.toUInt32 * 44100 ∨
      format = .dsdU16le ∧ sampleRate = multiplier.toUInt32 * 44100 / 16 ∨
      format = .dsdU32le ∧ sampleRate = dsdU32Rate multiplier)

/-- The rate that the output opens is the one that was probed, or an eighth of it. -/
theorem Rated.alsa {m : UInt16} {format : AudioFormat} {sampleRate : UInt32}
    (h : Rated m format sampleRate) :
    alsaFormatAndRate format sampleRate = some (.dsdU32Be, dsdU32Rate m) ∨
      format = .dsdU16le ∧
        alsaFormatAndRate format sampleRate = some (.dsdU32Be, dsdU32Rate m / 8) := by
  have hall : DSD_MULTIPLIERS.all
      (fun m => decide (m.toUInt32 * 44100 / 16 / 16 = dsdU32Rate m / 8)) = true := by decide
  have hwords : m.toUInt32 * 44100 / 16 / 16 = dsdU32Rate m / 8 :=
    of_decide_eq_true (List.all_eq_true.mp hall m h.1)
  rcases h.2 with ⟨rfl, rfl⟩ | ⟨rfl, rfl⟩ | ⟨rfl, rfl⟩
  · exact .inl rfl
  · exact .inr ⟨rfl, by rw [alsaFormatAndRate, hwords]⟩
  · exact .inl rfl

/-- A controller that keeps to what was announced. -/
def Offered (caps : EndpointCapabilities) : Message → Prop
  | .formatPropose fp => fp.format.isDsd = true →
    isFormatAccept (negotiateFormat caps fp) = true ∧
      Rated (fp.dsdRate.getD 64) fp.format fp.sampleRate
  | .nextTrackPrepare ntp => ntp.format.isDsd = true →
    ∃ m max, caps.dsdMaxRate = some max ∧ m ≤ max ∧ Rated m ntp.format ntp.sampleRate
  | _ => True

/-- A stream of 16-bit words of DSD. -/
def Words16 : EndpointEvent → Prop
  | .formatProposed fp => fp.format = .dsdU16le
  | .nextTrackReformat _ format _ => format = .dsdU16le
  | _ => False

/-- Native DSD is configured on this device, at a rate that it accepted, or at an
eighth of it where `words16` holds. -/
def Probed (device : Option (List Char)) (probe : DsdProbe) (words16 : Prop) (cfg : Config) :
    Prop :=
  cfg.format.isDsd = true → cfg.device = device ∧
    ∃ m max, announcedDsdMax device probe = some max ∧ m ∈ DSD_MULTIPLIERS ∧ m ≤ max ∧
      (alsaFormatAndRate cfg.format cfg.sampleRate = some (.dsdU32Be, dsdU32Rate m) ∨
        words16 ∧
          alsaFormatAndRate cfg.format cfg.sampleRate = some (.dsdU32Be, dsdU32Rate m / 8))

section

variable {conv : Conversions} {capsConfig : CapabilitiesSection} {enableDsd : Bool}
  {device : Option (List Char)} {probe : DsdProbe}

theorem announced_of_dsdMax {max : UInt16}
    (h : dsdMax (.alsa conv) enableDsd device probe = some max) :
    announcedDsdMax device probe = some max := by
  unfold dsdMax at h
  split at h
  · exact h
  · cases h

/-- The application hears of a proposal from the controller's. -/
theorem eq_formatPropose {cfg : SessionConfig} {s : Session} {now : Nat} {msg : Message}
    {fp : FormatPropose} (he : .formatProposed fp ∈ (controllerMessage cfg s now msg).events) :
    msg = .formatPropose fp := by
  by_cases hproposal : ∃ fp', msg = .formatPropose fp'
  · obtain ⟨fp', rfl⟩ := hproposal
    obtain ⟨verdict, hevents, hverdict⟩ := formatPropose_events cfg s fp' now
    rw [controllerMessage_formatPropose, hevents] at he
    rcases List.mem_append.mp he with he | he
    · exact absurd he (hverdict fp)
    · cases List.mem_singleton.mp he
      rfl
  · have hother := controllerMessage_other cfg s now fun fp' heq => hproposal ⟨fp', heq⟩
    exact absurd he (hother.2.2 fp)

/-- The application hears of another format from the controller's next track. -/
theorem exists_nextTrackPrepare {cfg : SessionConfig} {s : Session} {now : Nat} {msg : Message}
    {streamId : String} {format : AudioFormat} {sampleRate : UInt32}
    (he : .nextTrackReformat streamId format sampleRate ∈
      (controllerMessage cfg s now msg).events) :
    ∃ ntp, msg = .nextTrackPrepare ntp ∧ ntp.format = format ∧ ntp.sampleRate = sampleRate := by
  cases msg with
  | nextTrackPrepare ntp =>
    refine ⟨ntp, rfl, ?_⟩
    rw [controllerMessage_nextTrackPrepare, nextTrackPrepare] at he
    split at he
    · cases List.mem_singleton.mp he
    · cases List.mem_singleton.mp he
      exact ⟨rfl, rfl⟩
  | formatPropose fp =>
    simp only [controllerMessage_formatPropose, formatPropose] at he
    rcases List.mem_append.mp he with he | he
    · split at he <;> simp at he
    · cases List.mem_singleton.mp he
  | _ => first | cases List.mem_singleton.mp he | cases he

/-- What a session passes on of what such a controller sends. -/
theorem brings_of_offered {cfg : SessionConfig} {s : Session} {now : Nat} {msg : Message}
    {e : EndpointEvent} {words16 : Prop} (hwords : Words16 e → words16)
    (hcaps : cfg.capabilities =
      capabilities capsConfig (dsdMax (.alsa conv) enableDsd device probe))
    (hoffered : Offered cfg.capabilities msg) (he : e ∈ (controllerMessage cfg s now msg).events) :
    Brings (Probed device probe words16) device e := by
  have hmax : cfg.capabilities.dsdMaxRate = dsdMax (.alsa conv) enableDsd device probe := by
    rw [hcaps]
    rfl
  cases e with
  | formatProposed fp =>
    obtain rfl := eq_formatPropose he
    intro hdsd
    obtain ⟨haccept, hrated⟩ := hoffered hdsd
    obtain ⟨max, hmaxRate, hle⟩ := (Negotiation.isFormatAccept_iff.mp haccept).2.2 hdsd
    exact ⟨rfl, _, max, announced_of_dsdMax (hmax.symm.trans hmaxRate), hrated.1, hle,
      hrated.alsa.imp_right fun h => ⟨hwords h.1, h.2⟩⟩
  | nextTrackReformat streamId format sampleRate =>
    obtain ⟨ntp, rfl, rfl, rfl⟩ := exists_nextTrackPrepare he
    intro hdsd
    obtain ⟨m, max, hmaxRate, hle, hrated⟩ := hoffered hdsd
    exact ⟨rfl, m, max, announced_of_dsdMax (hmax.symm.trans hmaxRate), hrated.1, hle,
      hrated.alsa.imp_right fun h => ⟨hwords h.1, h.2⟩⟩
  | _ => trivial

end

/-! ## What a writer opens -/

theorem isDsd_of_alsa {format : AudioFormat} {sampleRate rate : UInt32}
    (h : alsaFormatAndRate format sampleRate = some (.dsdU32Be, rate)) : format.isDsd = true := by
  cases format <;> simp_all [alsaFormatAndRate, AudioFormat.isDsd]

/-- A writer of native DSD serves a configuration of native DSD. -/
theorem isDsd_of_serves {cfg : Config} {t : WriterThread} (hserves : Serves cfg t)
    (hformat : t.slot.params.format = .dsdU32Be) :
    cfg.format.isDsd = true ∧
      alsaFormatAndRate cfg.format cfg.sampleRate = some (.dsdU32Be, t.slot.params.rate) ∧
      t.slot.params.device = String.ofList (dsdHwDevice (resolveDeviceName cfg.device)) := by
  unfold Serves AlsaDirectOutput.configured at hserves
  dsimp only at hserves
  split at hserves
  next => cases hserves
  next format rate hrate =>
    rw [Except.ok.injEq] at hserves
    rw [← hserves] at hformat ⊢
    dsimp only at hformat ⊢
    subst hformat
    have halsa : alsaFormatAndRate cfg.format cfg.sampleRate = some (.dsdU32Be, rate) := by
      split at hrate
      next =>
        -- what FLAC is decoded to is PCM
        unfold flacAlsaFormat at hrate
        split at hrate <;> cases hrate
      next => exact hrate
    have hdsd := isDsd_of_alsa halsa
    exact ⟨hdsd, halsa, by rw [if_pos hdsd]⟩

/-- The raw device of a card. -/
def hwName (d : PlaybackDevice) : List Char :=
  if d.cardId.isEmpty then
    "hw:".toList ++ (toString d.card).toList ++ ",".toList ++ (toString d.device).toList
  else "hw:CARD=".toList ++ d.cardId ++ ",DEV=".toList ++ (toString d.device).toList

/-- The name of the DAC that was detected leads to its raw device. -/
theorem dsdHwDevice_plughwName (d : PlaybackDevice) :
    dsdHwDevice (resolveDeviceName (some d.plughwName)) = hwName d := by
  unfold hwName PlaybackDevice.plughwName
  split <;> rfl

/-- **Native DSD is opened as it was probed.** In every run of the loop in which
the device is not switched, and with a controller that keeps to what was
announced, every writer of native DSD is for the device that was probed at
start-up, at a rate that it accepted; where a stream of 16-bit words came, it may be an
eighth of such a rate. If the DAC was detected, the device is a card without HDMI. -/
theorem dsd_opens_as_probed {conv : Conversions} {build : Build}
    {device : Option (List Char)} {capsConfig : CapabilitiesSection} {enableDsd : Bool}
    {probe : DsdProbe} {cfg : SessionConfig} {mixer : Bool}
    {acts : List (Action (alsaBackend conv))} {s : Endpoint (alsaBackend conv)} {log : List Effect}
    (hcaps : cfg.capabilities =
      capabilities capsConfig (dsdMax (.alsa conv) enableDsd device probe))
    (hsame : ∀ name, .switchDevice name ∉ acts)
    (hhears : ∀ e w h, .event (.control e) w h ∈ acts → ∃ session now msg,
      Offered cfg.capabilities msg ∧ e ∈ (controllerMessage cfg session now msg).events)
    (hrun : run (Endpoint.step build) (.new (alsaBackend conv) mixer device) acts =
      .ok (s, log)) :
    ∀ t ∈ Alsa.threads s.audio, t.slot.params.format = .dsdU32Be →
      (∃ accepted m, m ∈ DSD_MULTIPLIERS ∧
        probe (dsdHwDevice (resolveDeviceName device)) (DSD_MULTIPLIERS.map dsdU32Rate) =
          .ok accepted ∧ dsdU32Rate m ∈ accepted ∧
        (t.slot.params.rate = dsdU32Rate m ∨
          (∃ e w h, .event (.control e) w h ∈ acts ∧ Words16 e) ∧
            t.slot.params.rate = dsdU32Rate m / 8)) ∧
      t.slot.params.device = String.ofList (dsdHwDevice (resolveDeviceName device)) ∧
      ∀ toLowercase cards, device = epAudioDevice none none (chooseDac toLowercase cards) →
        ∃ d ∈ cards, d.isHdmi toLowercase = false ∧
          t.slot.params.device = String.ofList (hwName d.toPlaybackDevice) := by
  have hacts : ∀ a ∈ acts, BringsOnly (Probed device probe
      (∃ e w h, .event (.control e) w h ∈ acts ∧ Words16 e)) device a := by
    intro a ha
    cases a with
    | event e w h =>
      cases e with
      | control e =>
        obtain ⟨session, now, msg, hoffered, he⟩ := hhears e w h ha
        exact brings_of_offered (fun hwords => ⟨e, w, h, ha, hwords⟩) hcaps hoffered he
      | _ => trivial
    | switchDevice name => exact hsame name ha
    | _ => trivial
  have hasks := run_asks (asks_new mixer fun hdsd => by cases hdsd) hacts hrun
  intro t ht hformat
  obtain ⟨cfg', hprobed, hserves⟩ := hasks.audio.threads t ht
  obtain ⟨hdsd, halsa, hopened⟩ := isDsd_of_serves hserves hformat
  obtain ⟨hdevice, m, max, hmax, hm, hle, hrate⟩ := hprobed hdsd
  rw [hdevice] at hopened
  rw [halsa] at hrate
  obtain ⟨accepted, hprobe, hmem⟩ := announcedDsdMax_accepted hmax hm hle
  have hopens : ∀ {rate : UInt32}, some (AlsaFormat.dsdU32Be, t.slot.params.rate) =
      some (.dsdU32Be, rate) → t.slot.params.rate = rate := fun h =>
    (Prod.mk.inj (Option.some.inj h)).2
  refine ⟨⟨accepted, m, hm, hprobe, hmem,
    hrate.imp hopens fun h => ⟨h.1, hopens h.2⟩⟩, hopened, ?_⟩
  intro toLowercase cards hdetected
  cases hdac : chooseDac toLowercase cards with
  | none =>
    -- `default` is not probed
    rw [hdetected, hdac] at hmax
    cases hmax
  | some name =>
    obtain ⟨d, hd, hhdmi, rfl, -⟩ := chooseDac_spec hdac
    refine ⟨d, hd, hhdmi, ?_⟩
    rw [hopened, hdetected, hdac]
    exact congrArg _ (dsdHwDevice_plughwName d.toPlaybackDevice)

/-! ### A DAC up to DSD128 -/

def hugo : SoundCard :=
  { card := 1, cardId := "Hugo2".toList, cardName := "Chord Hugo2".toList, device := 0
    pcmId := "USB Audio".toList, pcmName := "USB Audio".toList, driver := "USB-Audio".toList }

def upToDsd128 : DsdProbe := fun _ rates => .ok (rates.filter (· ≤ 176400))

def hugoDevice : Option (List Char) := epAudioDevice none none (chooseDac id [hugo])

def hugoSession : SessionConfig :=
  { capabilities :=
      capabilities .default (dsdMax (.alsa Alsa.plainConversions) true hugoDevice upToDsd128)
    deferFormatAccept := true
    hello :=
      { protocolVersion := PROTOCOL_VERSION, controllerId := "c", controllerName := "controller"
        clockPort := 9742, features := [] } }

def dsd128 : FormatPropose :=
  { streamId := "s", format := .dsdU8, sampleRate := 5644800, channels := 2
    channelLayout := .stereo, bitsPerSample := 1, dsdRate := some 128 }

/-- The stream is proposed, and the writer reports the device open. -/
def dsd128Run : List (Action (alsaBackend Alsa.plainConversions)) :=
  [alsaEvent (.control (.formatProposed dsd128))
    [.thread 0 0 (.opener (.ok ())), .thread 0 0 .go, .resume]]

/-- A stream at the rate that the DAC takes. -/
theorem dsd_opens_as_probed_dsd128 :
    (run (Endpoint.step .release) (.new _ false hugoDevice) dsd128Run).map
        (fun r => (Alsa.threads r.1.audio).map fun t => t.slot.params) =
      .ok [{ device := "hw:CARD=Hugo2,DEV=0", format := .dsdU32Be, rate := 176400,
             channels := 2 }] ∧
    ∀ s log, run (Endpoint.step .release) (.new _ false hugoDevice) dsd128Run = .ok (s, log) →
      ∀ t ∈ Alsa.threads s.audio, t.slot.params.format = .dsdU32Be →
        t.slot.params.rate ∈ [88200, 176400] := by
  refine ⟨by decide +kernel, ?_⟩
  intro s log hrun t ht hformat
  have hhears : ∀ e w h, Action.event (.control e) w h ∈ dsd128Run → ∃ session now msg,
      Offered hugoSession.capabilities msg ∧
        e ∈ (controllerMessage hugoSession session now msg).events := by
    intro e w h hin
    cases List.mem_singleton.mp hin
    refine ⟨.new, 0, .formatPropose dsd128, ?_, by decide +kernel⟩
    intro _
    exact ⟨by decide +kernel, by decide, .inl ⟨rfl, by decide⟩⟩
  have hopens := dsd_opens_as_probed rfl (fun name hin => by cases List.mem_singleton.mp hin)
    hhears hrun t ht hformat
  obtain ⟨accepted, m, -, hprobe, hmem, hrate | ⟨⟨e, w, h, hin, hwords⟩, -⟩⟩ := hopens.1
  · cases hprobe
    rw [hrate]
    exact hmem
  · cases List.mem_singleton.mp hin
    cases hwords

/-- DSD64 in 16-bit words opens the DAC at an eighth of its rate. -/
example : Rated 64 .dsdU16le 176400 ∧
    alsaFormatAndRate .dsdU16le 176400 = some (.dsdU32Be, dsdU32Rate 64 / 8) :=
  ⟨⟨by decide, .inr (.inl ⟨rfl, by decide⟩)⟩, rfl⟩

end Oaat.Cli
