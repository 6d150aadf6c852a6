/-
Oaat.Endpoint.Output — the audio output as the application uses it.

The application is compiled with one of two outputs, by platform. `Backend` is
what both offer, `cpalBackend` and `alsaBackend` are the two. A call that can
be held up takes along what the host does meanwhile, and says whether a device
was opened: for cpal, what it answers to `configure` and the callbacks inside
`write_audio`; for ALSA, the steps of the writer threads and the passing of the
caller's deadlines. `host` is what happens between the calls.
-/
import Oaat.Endpoint.AlsaOutput
import Oaat.Endpoint.AudioOutput

namespace Oaat.Endpoint

open Oaat.Core Oaat.Lib

/-- Why a step does not complete: it panics, or what it waits for does not come. -/
inductive Halt where
  | panicked (p : Panic)
  | blocked
  deriving Repr, DecidableEq

structure Backend where
  State : Type
  Host : Type
  new : State
  configure : State → Config → Host → Except Halt (State × Bool × Except String Unit)
  stop : State → Host → Except Halt (State × Bool)
  release : State → Host → Except Halt (State × Bool)
  flush : State → Host → Except Halt (State × Bool)
  writeAudio : State → List UInt8 → Host → Except Halt (State × Bool)
  host : State → Host → Except Halt (State × Bool)
  play : State → State
  pause : State → State
  setVolume : State → UInt8 → State
  setMute : State → Bool → State
  setCorrection : State → Int → State
  isPlaying : State → Bool
  deviceOpen : State → Bool
  bufferLevel : State → Nat
  framesPlayed : State → Option Nat
  contentPosition : State → Option Nat
  bitPerfectPath : State → Bool
  underrunCount : State → Nat

/-! ## cpal -/

/-- The host's answer to `configure`, and its callbacks. -/
structure CpalHost where
  opening : Opening
  callbacks : List Nat

/-- `CpalOutput` -/
def cpalBackend (dec : Decoders) : Backend where
  State := CpalOutput
  Host := CpalHost
  new := .new
  configure o cfg h :=
    let (o, r) := o.configure cfg.format cfg.sampleRate cfg.channels h.opening
    .ok (o, o.deviceOpen, r)
  stop o _ := .ok (o.stop, false)
  release o _ := .ok (o.release, false)
  flush o h :=
    let o := o.flush h.opening
    .ok (o, o.deviceOpen)
  writeAudio o data h :=
    match o.writeAudio dec data h.callbacks with
    | .error e => .error (.panicked e)
    | .ok (o, _, _) => .ok (o, false)
  host o h := .ok ((o.callbacks h.callbacks).1, false)
  play := CpalOutput.play
  pause := CpalOutput.pause
  setVolume := CpalOutput.setVolume
  setMute := CpalOutput.setMute
  setCorrection := CpalOutput.setCorrection
  isPlaying := CpalOutput.isPlaying
  deviceOpen := CpalOutput.deviceOpen
  bufferLevel := CpalOutput.bufferLevel
  framesPlayed := CpalOutput.framesPlayed
  contentPosition := CpalOutput.contentPosition
  bitPerfectPath o := o.bitPerfect
  underrunCount o := o.underruns

/-! ## ALSA -/

namespace Alsa

/-- The action is the host's, not a call. -/
def isHost : AlsaAction → Bool
  | .call _ => false
  | _ => true

def isOpened : AlsaEvent → Bool
  | .opened => true
  | _ => false

/-- Actions in a row, from one moment without a call to another. -/
def runIdle (conv : Conversions) (s : Alsa) (acts : List AlsaAction) :
    Except Halt (Alsa × List AlsaEvent) :=
  match run (Alsa.step conv) s acts with
  | .error _ => .error .blocked
  | .ok (s', log) => if s'.isIdle then .ok (s', log) else .error .blocked

/-- A call, and what the host does until it returns. -/
def callWith (conv : Conversions) (s : Alsa) (c : Call) (host : List AlsaAction) :
    Except Halt (Alsa × List AlsaEvent) :=
  if host.all isHost then s.runIdle conv (.call c :: host) else .error .blocked

/-- The same for a call whose result is not used. -/
def perform (conv : Conversions) (s : Alsa) (c : Call) (host : List AlsaAction) :
    Except Halt (Alsa × Bool) :=
  (s.callWith conv c host).map fun (s, log) => (s, log.any isOpened)

/-- What `configure` returned. -/
def configureResult (log : List AlsaEvent) : Option (Except String Unit) :=
  log.findSome? fun
    | .configured r => some r
    | _ => none

end Alsa

/-- `AlsaDirectOutput` -/
def alsaBackend (conv : Conversions) : Backend where
  State := Alsa
  Host := List AlsaAction
  new := .new
  configure s cfg h :=
    match s.callWith conv (.configure cfg) h with
    | .error e => .error e
    | .ok (s, log) =>
      match Alsa.configureResult log with
      | none => .error .blocked
      | some r => .ok (s, log.any Alsa.isOpened, r)
  stop s h := s.perform conv .stop h
  release s h := s.perform conv .release h
  flush s h := s.perform conv .flush h
  writeAudio s data h := s.perform conv (.writeAudio data) h
  host s h :=
    if s.isIdle && h.all Alsa.isHost then
      (s.runIdle conv h).map fun (s, log) => (s, log.any Alsa.isOpened)
    else .error .blocked
  play s := { s with output := { s.output with playing := true } }
  pause s :=
    { s with
      output := { s.output with playing := false }
      shared := { s.shared with pauseGen := s.shared.pauseGen + 1 } }
  setVolume s level :=
    { s with output := { s.output with volume := min (level.toNat * 1000 / 100) 1000 } }
  setMute s muted := { s with output := { s.output with muted } }
  setCorrection s _ := s
  isPlaying s := s.output.playing
  deviceOpen := Alsa.deviceOpen
  bufferLevel _ := 0
  framesPlayed _ := none
  contentPosition _ := none
  bitPerfectPath _ := true
  underrunCount s := s.shared.underruns

/-- The outputs that the application is compiled with. -/
inductive Output where
  | cpal (dec : Decoders)
  | alsa (conv : Conversions)

def Output.backend : Output → Backend
  | .cpal dec => cpalBackend dec
  | .alsa conv => alsaBackend conv

end Oaat.Endpoint
