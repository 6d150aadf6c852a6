/-
Oaat.Negotiation.Gapless — what a `NextTrackReady` promises.

The session records a format when it finds a proposal acceptable, before the
verdict is written, and again when it answers a `NextTrackPrepare` with
`NextTrackReformat`, without any negotiation. It answers `NextTrackReady` when
the format and the rate that are announced are the recorded ones. The format in
force is that of the last proposal whose accept was written, unless the
application has rejected it since. `Playlist` follows both; no arm of the session
reads what it keeps. The main theorem says when the answers are truthful.
-/
import Oaat.Negotiation.Capabilities
import Oaat.Negotiation.System

namespace Oaat.Negotiation

open Oaat.Core Oaat.Endpoint Oaat.Lib

/-- A `NextTrackReady`: what was announced, and the format in force. -/
structure Promise where
  announced : NextTrackPrepare
  inForce : Option FormatPropose
  deriving Repr, DecidableEq

/-- A session with the numbers of the proposal in force and of the proposal that
the recorded format is from; a reformat is from none. -/
structure Playlist where
  net : Net
  inForce : Option Nat
  recordedBy : Option Nat

/-- What a written message does to the proposal in force. -/
def inForceAfter (inForce : Option Nat) (w : Written) : Option Nat :=
  match w.message with
  | .formatAccept _ => w.answers
  | .formatReject _ => if inForce = w.answers then none else inForce
  | _ => inForce

/-- `same_format` -/
def sameFormat (s : Session) (ntp : NextTrackPrepare) : Bool :=
  s.currentFormat = some ntp.format && s.currentSampleRate = some ntp.sampleRate

namespace Playlist

def start (now : Nat) : Playlist := { net := .start now, inForce := none, recordedBy := none }

def proposal (p : Playlist) (number : Option Nat) : Option FormatPropose :=
  number.bind fun k => p.net.proposals[k]?.map fun received => received.1

def recordedAfter (cfg : SessionConfig) (p : Playlist) : Input → Option Nat
  | .receive (.formatPropose fp) _ =>
    if isFormatAccept (negotiateFormat cfg.capabilities fp) then some p.net.proposals.length
    else p.recordedBy
  | .receive (.nextTrackPrepare ntp) _ =>
    if sameFormat p.net.session ntp then p.recordedBy else none
  | _ => p.recordedBy

/-- The promises among the messages that an input has written. -/
def promises (p : Playlist) (i : Input) (out : List Written) : List Promise :=
  match i with
  | .receive (.nextTrackPrepare announced) _ =>
    out.filterMap fun w =>
      match w.message with
      | .nextTrackReady _ => some { announced, inForce := p.proposal p.inForce }
      | _ => none
  | _ => []

def step (cfg : SessionConfig) (p : Playlist) (i : Input) :
    Except Unit (Playlist × List Promise) :=
  match Negotiation.step cfg p.net i with
  | .error e => .error e
  | .ok (net, out) =>
    .ok
      ({ net, inForce := out.foldl inForceAfter p.inForce, recordedBy := p.recordedAfter cfg i },
        p.promises i out)

end Playlist

/-! ## What is claimed of them -/

/-- Every promise is for the format in force. -/
def Truthful (log : List Promise) : Prop :=
  ∀ p ∈ log, ∃ fp, p.inForce = some fp ∧ fp.format = p.announced.format ∧
    fp.sampleRate = p.announced.sampleRate ∧ fp.channels = p.announced.channels ∧
    fp.bitsPerSample = p.announced.bitsPerSample

/-- The recorded format is one that `negotiate_format` would accept. -/
def Negotiable (cfg : SessionConfig) (s : Session) : Prop :=
  ∀ format rate, s.currentFormat = some format → s.currentSampleRate = some rate →
    ∃ fp : FormatPropose, fp.format = format ∧ fp.sampleRate = rate ∧
      isFormatAccept (negotiateFormat cfg.capabilities fp) = true

def Kept (cfg : SessionConfig) (p : Playlist) (log : List Promise) : Prop :=
  Truthful log ∧ Negotiable cfg p.net.session

/-- Some proposal of the format and the rate would be accepted. -/
def isNegotiable (caps : EndpointCapabilities) (format : AudioFormat) (rate : UInt32) : Bool :=
  format ∈ caps.formats && (!format.isPcm || rate ≤ caps.pcmMaxRate) &&
    (!format.isDsd || caps.dsdMaxRate.isSome)

/-- The recorded format is the proposal's. -/
def Records (s : Session) (fp : FormatPropose) : Prop :=
  s.currentFormat = some fp.format ∧ s.currentSampleRate = some fp.sampleRate

/-- A track of the recorded format and rate finds them in force, with its number
of channels and its bits per sample; any other track can be negotiated. -/
def Announces (cfg : SessionConfig) (p : Playlist) : Input → Prop
  | .receive (.nextTrackPrepare ntp) _ =>
    if sameFormat p.net.session ntp then
      ∃ fp ∈ p.proposal p.inForce, Records p.net.session fp ∧ fp.channels = ntp.channels ∧
        fp.bitsPerSample = ntp.bitsPerSample
    else isNegotiable cfg.capabilities ntp.format ntp.sampleRate = true
  | _ => True

/-- The recorded format is the accepted proposal's: it is not withheld, not
rejected by the application and not from a reformat. -/
def AnnouncesSettled (cfg : SessionConfig) (p : Playlist) : Input → Prop
  | .receive (.nextTrackPrepare ntp) _ =>
    if sameFormat p.net.session ntp then
      p.recordedBy = p.inForce ∧ ∃ fp ∈ p.proposal p.recordedBy, fp.channels = ntp.channels ∧
        fp.bitsPerSample = ntp.bitsPerSample
    else isNegotiable cfg.capabilities ntp.format ntp.sampleRate = true
  | _ => True

/-! ## Negotiation -/

theorem exists_accept_iff (caps : EndpointCapabilities) (format : AudioFormat) (rate : UInt32) :
    (∃ fp : FormatPropose, fp.format = format ∧ fp.sampleRate = rate ∧
      isFormatAccept (negotiateFormat caps fp) = true) ↔ isNegotiable caps format rate = true := by
  have hnegotiable : isNegotiable caps format rate = true ↔ format ∈ caps.formats ∧
      (format.isPcm = true → rate ≤ caps.pcmMaxRate) ∧
        (format.isDsd = true → caps.dsdMaxRate.isSome = true) := by
    simp only [isNegotiable, Bool.and_eq_true, decide_eq_true_eq, Bool.or_eq_true,
      Bool.not_eq_true', and_assoc]
    cases format.isPcm <;> cases format.isDsd <;> simp
  rw [hnegotiable]
  constructor
  · rintro ⟨fp, rfl, rfl, haccept⟩
    obtain ⟨hlisted, hpcm, hdsd⟩ := isFormatAccept_iff.mp haccept
    refine ⟨hlisted, fun h => (hpcm h).1, fun h => ?_⟩
    obtain ⟨max, hmax, -⟩ := hdsd h
    rw [hmax]
    rfl
  · rintro ⟨hlisted, hpcm, hdsd⟩
    -- no bits, and the lowest DSD rate
    refine ⟨{ streamId := "", format, sampleRate := rate, channels := 0,
              channelLayout := .stereo, bitsPerSample := 0, dsdRate := some 0 }, rfl, rfl, ?_⟩
    refine isFormatAccept_iff.mpr ⟨hlisted, fun h => ⟨hpcm h, ?_⟩, fun h => ?_⟩
    · exact UInt8.le_iff_toNat_le.mpr (Nat.zero_le _)
    · obtain ⟨max, hmax⟩ := Option.isSome_iff_exists.mp (hdsd h)
      exact ⟨max, hmax, UInt16.le_iff_toNat_le.mpr (Nat.zero_le _)⟩

theorem negotiable_iff {cfg : SessionConfig} {s : Session} {format : AudioFormat} {rate : UInt32}
    (hformat : s.currentFormat = some format) (hrate : s.currentSampleRate = some rate) :
    Negotiable cfg s ↔ isNegotiable cfg.capabilities format rate = true := by
  rw [← exists_accept_iff]
  constructor
  · intro h
    exact h format rate hformat hrate
  · rintro h format' rate' hformat' hrate'
    rw [hformat] at hformat'
    rw [hrate] at hrate'
    cases hformat'
    cases hrate'
    exact h

/-! ## One step -/

section

variable {cfg : SessionConfig} {p p' : Playlist} {i : Input} {log o : List Promise}

/-- What an input does to the recorded format. -/
inductive Recorded (cfg : SessionConfig) (s s' : Session) : Input → Prop where
  | proposes (fp : FormatPropose) (waited : Nat) :
      isFormatAccept (negotiateFormat cfg.capabilities fp) = true → Records s' fp →
      Recorded cfg s s' (.receive (.formatPropose fp) waited)
  | reformats (ntp : NextTrackPrepare) (waited : Nat) : sameFormat s ntp = false →
      s'.currentFormat = some ntp.format → s'.currentSampleRate = some ntp.sampleRate →
      Recorded cfg s s' (.receive (.nextTrackPrepare ntp) waited)
  | keeps (i : Input) :
      (∀ fp waited, i = .receive (.formatPropose fp) waited →
        isFormatAccept (negotiateFormat cfg.capabilities fp) = false) →
      (∀ ntp waited, i = .receive (.nextTrackPrepare ntp) waited → sameFormat s ntp = true) →
      s'.currentFormat = s.currentFormat → s'.currentSampleRate = s.currentSampleRate →
      Recorded cfg s s' i

theorem formatPropose_records {s : Session} {fp : FormatPropose} {now : Nat}
    (h : isFormatAccept (negotiateFormat cfg.capabilities fp) = true) :
    Records (formatPropose cfg s fp now).session fp := by
  have hverdict := eq_formatAccept h (verdictFor_negotiateFormat cfg.capabilities fp)
  unfold formatPropose
  rw [hverdict]
  dsimp only
  split <;> exact ⟨rfl, rfl⟩

theorem formatPropose_keeps (s : Session) {fp : FormatPropose} (now : Nat)
    (h : isFormatAccept (negotiateFormat cfg.capabilities fp) = false) :
    (formatPropose cfg s fp now).session = s := by
  have hdeferred : deferred cfg fp = false := by simp [deferred, h]
  unfold formatPropose
  simp only [hdeferred, Bool.false_eq_true, if_false]
  split
  next hverdict => simp [hverdict, isFormatAccept] at h
  next => rfl

theorem controlMessage_keeps (cfg : SessionConfig) (s : Session) (msg : Message) :
    (controlMessage cfg s msg).session.currentFormat = s.currentFormat ∧
      (controlMessage cfg s msg).session.currentSampleRate = s.currentSampleRate := by
  unfold controlMessage
  split
  next => exact ⟨rfl, rfl⟩
  next =>
    split
    next => exact ⟨rfl, rfl⟩
    next => split <;> exact ⟨rfl, rfl⟩

theorem recorded_receive (cfg : SessionConfig) (s : Session) (msg : Message) (now waited : Nat) :
    Recorded cfg s (controllerMessage cfg s now msg).session (.receive msg waited) := by
  cases msg with
  | formatPropose fp =>
    rw [controllerMessage_formatPropose]
    cases haccept : isFormatAccept (negotiateFormat cfg.capabilities fp) with
    | true =>
      exact .proposes fp waited haccept (formatPropose_records haccept)
    | false =>
      rw [formatPropose_keeps s now haccept]
      refine .keeps _ ?_ (by simp) rfl rfl
      rintro fp waited ⟨⟩
      exact haccept
  | nextTrackPrepare ntp =>
    rw [controllerMessage_nextTrackPrepare, nextTrackPrepare]
    split
    next hsame =>
      refine .keeps _ (by simp) ?_ rfl rfl
      rintro ntp waited ⟨⟩
      exact hsame
    next hsame => exact .reformats ntp waited (by simpa [sameFormat] using hsame) rfl rfl
  | _ => exact .keeps _ (by simp) (by simp) rfl rfl

theorem recorded_step {s s' : Net} {out : List Written} (hs : step cfg s i = .ok (s', out)) :
    Recorded cfg s.session s'.session i := by
  cases i with
  | receive msg waited =>
    simp only [step, Except.ok.injEq, Prod.mk.injEq] at hs
    obtain ⟨rfl, -⟩ := hs
    exact recorded_receive cfg s.session msg (s.now + waited) waited
  | timer =>
    obtain ⟨pending, -, -, rfl, -⟩ := step_timer hs
    exact .keeps _ (by simp) (by simp) rfl rfl
  | control =>
    obtain ⟨msg, tag, rest, -, rfl, -⟩ := step_control hs
    obtain ⟨hformat, hrate⟩ := controlMessage_keeps cfg s.session msg
    exact .keeps _ (by simp) (by simp) hformat hrate
  | application configured =>
    obtain ⟨-, ⟨fp, k, rest, -, rfl⟩ | ⟨event, rest, -, -, rfl⟩⟩ := step_application hs
    · exact .keeps _ (by simp) (by simp) rfl rfl
    · exact .keeps _ (by simp) (by simp) rfl rfl
  | send msg =>
    obtain ⟨-, rfl, -⟩ := step_send hs
    exact .keeps _ (by simp) (by simp) rfl rfl
  | tick ns =>
    cases hs
    exact .keeps _ (by simp) (by simp) rfl rfl

theorem playlist_step_inv (hstep : p.step cfg i = .ok (p', o)) :
    ∃ out, step cfg p.net i = .ok (p'.net, out) ∧
      p'.inForce = out.foldl inForceAfter p.inForce ∧ p'.recordedBy = p.recordedAfter cfg i ∧
      o = p.promises i out := by
  unfold Playlist.step at hstep
  split at hstep
  next => cases hstep
  next net out hnet =>
    cases hstep
    exact ⟨out, hnet, rfl, rfl, rfl⟩

/-- A promise is made for a track of the recorded format, and for no other. -/
theorem promises_prepare {ntp : NextTrackPrepare} {waited : Nat} {s' : Net} {out : List Written}
    (hs : step cfg p.net (.receive (.nextTrackPrepare ntp) waited) = .ok (s', out)) :
    p.promises (.receive (.nextTrackPrepare ntp) waited) out =
      if sameFormat p.net.session ntp then
        [{ announced := ntp, inForce := p.proposal p.inForce }]
      else [] := by
  simp only [step, Except.ok.injEq, Prod.mk.injEq] at hs
  obtain ⟨-, rfl⟩ := hs
  cases hsame : sameFormat p.net.session ntp with
  | true =>
    unfold sameFormat at hsame
    simp only [controllerMessage_nextTrackPrepare, nextTrackPrepare, hsame, if_true]
    rfl
  | false =>
    unfold sameFormat at hsame
    simp only [controllerMessage_nextTrackPrepare, nextTrackPrepare, hsame, Bool.false_eq_true,
      if_false]
    rfl

theorem truthful_append {more : List Promise} (h : Truthful log) :
    Truthful (log ++ more) ↔ Truthful more := by
  rw [Truthful, List.forall_mem_append]
  exact and_iff_right h

theorem truthful_nil : Truthful [] := fun _ hp => absurd hp List.not_mem_nil

theorem truthful_singleton_iff {ntp : NextTrackPrepare}
    (hsame : sameFormat p.net.session ntp = true) :
    Truthful [{ announced := ntp, inForce := p.proposal p.inForce }] ↔
      ∃ fp ∈ p.proposal p.inForce, Records p.net.session fp ∧ fp.channels = ntp.channels ∧
        fp.bitsPerSample = ntp.bitsPerSample := by
  simp only [sameFormat, Bool.and_eq_true, decide_eq_true_eq] at hsame
  simp [Truthful, Records, hsame, Option.mem_def, and_assoc, eq_comm]

/-- **One step.** -/
theorem kept_step_iff (hkept : Kept cfg p log) (hstep : p.step cfg i = .ok (p', o)) :
    Kept cfg p' (log ++ o) ↔ Announces cfg p i := by
  obtain ⟨out, hnet, -, -, rfl⟩ := playlist_step_inv hstep
  rw [Kept, truthful_append hkept.1]
  cases recorded_step hnet with
  | proposes fp waited haccept hrecords =>
    refine iff_of_true ⟨truthful_nil, ?_⟩ trivial
    rw [negotiable_iff hrecords.1 hrecords.2, ← exists_accept_iff]
    exact ⟨fp, rfl, rfl, haccept⟩
  | reformats ntp waited hsame hformat hrate =>
    rw [promises_prepare hnet, hsame, negotiable_iff hformat hrate]
    simp [Announces, hsame, truthful_nil]
  | keeps i hpropose hprepare hformat hrate =>
    have hneg : Negotiable cfg p'.net.session := by
      intro format rate hf hr
      exact hkept.2 format rate (hformat ▸ hf) (hrate ▸ hr)
    rw [and_iff_left hneg]
    cases i with
    | receive msg waited =>
      cases msg with
      | nextTrackPrepare ntp =>
        have hsame := hprepare ntp waited rfl
        rw [promises_prepare hnet, hsame, if_pos rfl, truthful_singleton_iff hsame]
        simp [Announces, hsame]
      | _ => exact iff_of_true truthful_nil trivial
    | _ => exact iff_of_true truthful_nil trivial

/-! ## Where the recorded format is from -/

/-- The recorded format is that of the proposal it is from. -/
def Traced (p : Playlist) : Prop :=
  ∀ k, p.recordedBy = some k → ∃ fp, p.proposal (some k) = some fp ∧ Records p.net.session fp

theorem proposal_mono {number : Option Nat} {fp : FormatPropose} {more : List (FormatPropose × Nat)}
    (hprop : p'.net.proposals = p.net.proposals ++ more) (h : p.proposal number = some fp) :
    p'.proposal number = some fp := by
  obtain ⟨k, hk, hmap⟩ := Option.bind_eq_some_iff.mp h
  obtain ⟨received, hreceived, rfl⟩ := Option.map_eq_some_iff.mp hmap
  rw [Playlist.proposal, hk, Option.bind_some, hprop, lookup_append hreceived more]
  rfl

theorem traced_step (htraced : Traced p) (hstep : p.step cfg i = .ok (p', o)) : Traced p' := by
  obtain ⟨out, hnet, -, hby, -⟩ := playlist_step_inv hstep
  have hproposals := step_proposals hnet
  intro k hk
  rw [hby] at hk
  cases recorded_step hnet with
  | proposes fp waited haccept hrecords =>
    obtain rfl : p.net.proposals.length = k := by
      simpa [Playlist.recordedAfter, haccept] using hk
    refine ⟨fp, ?_, hrecords⟩
    simp [Playlist.proposal, hproposals, Input.proposal, proposalOf]
  | reformats ntp waited hsame hformat hrate =>
    simp [Playlist.recordedAfter, hsame] at hk
  | keeps i hpropose hprepare hformat hrate =>
    have hsame : p.recordedAfter cfg i = p.recordedBy := by
      unfold Playlist.recordedAfter
      split
      next fp waited => rw [hpropose fp waited rfl]; rfl
      next ntp waited => rw [hprepare ntp waited rfl]; rfl
      next => rfl
    obtain ⟨fp, hfp, hrecords⟩ := htraced k (hsame ▸ hk)
    refine ⟨fp, proposal_mono hproposals hfp, ?_, ?_⟩
    · rw [hformat, hrecords.1]
    · rw [hrate, hrecords.2]

/-- A settled format is in force. -/
theorem announces_of_settled (htraced : Traced p) (hsettled : AnnouncesSettled cfg p i) :
    Announces cfg p i := by
  cases i with
  | receive msg waited =>
    cases msg with
    | nextTrackPrepare ntp =>
      simp only [AnnouncesSettled, Announces] at hsettled ⊢
      split at hsettled
      next hsame =>
        rw [if_pos hsame]
        obtain ⟨hby, fp, hfp, hchannels, hbits⟩ := hsettled
        obtain ⟨k, hk, -⟩ := Option.bind_eq_some_iff.mp hfp
        obtain ⟨fp', hfp', hrecords⟩ := htraced k hk
        rw [hk] at hfp
        obtain rfl : fp = fp' := Option.some.inj (hfp.symm.trans hfp')
        exact ⟨fp, by rw [← hby, hk]; exact hfp', hrecords, hchannels, hbits⟩
      next hsame =>
        rw [if_neg hsame]
        exact hsettled
    | _ => trivial
  | _ => trivial

end

/-! ## Every run -/

/-- **`NextTrackReady` is truthful and the recorded format negotiable**, exactly
when every track of the recorded format and rate finds them in force, with its
channels and bits, and every other track can be negotiated. So it is in every run
in which the recorded format is always that of the accepted proposal when such a
track is announced. -/
theorem gapless_truthful_iff {cfg : SessionConfig} {now : Nat} {inputs : List Input}
    {p : Playlist} {log : List Promise}
    (hrun : run (Playlist.step cfg) (.start now) inputs = .ok (p, log)) :
    (Throughout (Playlist.step cfg) (Kept cfg) (.start now) inputs ↔
      Along (Playlist.step cfg) (Announces cfg) (.start now) inputs) ∧
    (Along (Playlist.step cfg) (AnnouncesSettled cfg) (.start now) inputs →
      Throughout (Playlist.step cfg) (Kept cfg) (.start now) inputs) := by
  have hstep : ∀ (p : Playlist) log i p' o, Kept cfg p log → p.step cfg i = .ok (p', o) →
      (Kept cfg p' (log ++ o) ↔ Announces cfg p i) :=
    fun p log i p' o hkept hi => kept_step_iff hkept hi
  have hstart : Kept cfg (.start now) [] := by
    refine ⟨truthful_nil, ?_⟩
    intro format rate hformat
    cases hformat
  have hiff := throughout_iff_along inputs (Kept cfg) (.start now) p log hstep hstart hrun
  have hgives : ∀ (p : Playlist) i, Traced p → AnnouncesSettled cfg p i → Announces cfg p i :=
    fun p i htraced hsettled => announces_of_settled htraced hsettled
  have hkeep : ∀ (p : Playlist) i p' o, Traced p → AnnouncesSettled cfg p i →
      p.step cfg i = .ok (p', o) → Traced p' :=
    fun p i p' o htraced _ hi => traced_step htraced hi
  have htraced : Traced (.start now) := by
    intro k hk
    cases hk
  exact ⟨hiff, fun hsettled => hiff.mpr (along_of_along hgives hkeep htraced hsettled)⟩

/-- The next track, in the format of a proposal. -/
def nextAs (fp : FormatPropose) : NextTrackPrepare :=
  { streamId := "b", format := fp.format, sampleRate := fp.sampleRate, channels := fp.channels,
    channelLayout := fp.channelLayout, bitsPerSample := fp.bitsPerSample }

def preparing (ntp : NextTrackPrepare) : Input := .receive (.nextTrackPrepare ntp) 0

/-- What a run promises. -/
def promised (inputs : List Input) : Option (List Promise) :=
  viewRun (Playlist.step modest) (fun _ log => log) (.start 0) inputs

instance (s : Session) (fp : FormatPropose) : Decidable (Records s fp) :=
  inferInstanceAs (Decidable (_ ∧ _))

instance (cfg : SessionConfig) (p : Playlist) (i : Input) : Decidable (Announces cfg p i) := by
  unfold Announces
  split <;> infer_instance

/-- The next track has the format that was confirmed. -/
theorem gapless_truthful_confirmed :
    promised (confirmedInTime ++ [preparing (nextAs (stereo "a" 44100))]) =
        some [{ announced := nextAs (stereo "a" 44100), inForce := some (stereo "a" 44100) }] ∧
      Throughout (Playlist.step modest) (Kept modest) (.start 0)
        (confirmedInTime ++ [preparing (nextAs (stereo "a" 44100))]) := by
  have hpromised : promised (confirmedInTime ++ [preparing (nextAs (stereo "a" 44100))]) =
      some [{ announced := nextAs (stereo "a" 44100), inForce := some (stereo "a" 44100) }] := by
    decide +kernel
  obtain ⟨p, _, hrun, rfl⟩ := run_of_viewRun hpromised
  refine ⟨hpromised, (gapless_truthful_iff hrun).1.mpr ?_⟩
  decide +kernel

/-- The next track in six channels. -/
def surround : NextTrackPrepare :=
  { nextAs (stereo "a" 44100) with channels := 6, channelLayout := .fivePointOne }

/-- The device cannot be opened. -/
def rejectedByApplication : List Input :=
  [.receive (.formatPropose (stereo "a" 44100)) 0, .application (.ok ()),
    .application (.error "busy"), .control]

/-- Six channels are promised on a stereo output, a track is promised in a format
that the application has rejected, and DSD is recorded by an endpoint for PCM. -/
theorem ready_without_format :
    promised (confirmedInTime ++ [preparing surround]) =
        some [{ announced := surround, inForce := some (stereo "a" 44100) }] ∧
      promised (rejectedByApplication ++ [preparing (nextAs (stereo "a" 44100))]) =
        some [{ announced := nextAs (stereo "a" 44100), inForce := none }] ∧
      (∀ p log, run (Playlist.step modest) (.start 0)
        [preparing { surround with format := .dsdU8 }] = .ok (p, log) →
          p.net.session.currentFormat = some .dsdU8 ∧ ¬ Negotiable modest p.net.session) ∧
      ¬ Throughout (Playlist.step modest) (Kept modest) (.start 0)
        (confirmedInTime ++ [preparing surround]) := by
  have hsix : promised (confirmedInTime ++ [preparing surround]) =
      some [{ announced := surround, inForce := some (stereo "a" 44100) }] := by
    decide +kernel
  refine ⟨hsix, by decide +kernel, ?_, ?_⟩
  · rintro p log ⟨⟩
    refine ⟨rfl, ?_⟩
    intro hneg
    have hdsd := (negotiable_iff rfl rfl).mp hneg
    revert hdsd
    decide
  · intro hall
    obtain ⟨p, _, hrun, rfl⟩ := run_of_viewRun hsix
    obtain ⟨htruthful, -⟩ := hall _ [] p _ (List.append_nil _).symm hrun
    obtain ⟨fp, hfp, -, -, hchannels, -⟩ := htruthful _ (List.mem_singleton_self _)
    obtain rfl : stereo "a" 44100 = fp := Option.some.inj hfp
    revert hchannels
    decide

end Oaat.Negotiation
