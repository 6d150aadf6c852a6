/-
Oaat.Alsa.Packetization — the ALSA output and the sizes of the payloads.

A payload is whole wire frames. It is converted block by block, where a block is
what fills a device frame, and the writer cuts the result to whole device frames;
both leave a rest out. PCM formats and `DSD_U32LE` have a wire frame in a block, so
there is no rest. `DSD_U8` has four and `DSD_U16LE` two: a payload that ends
inside a block loses it.
-/
import Oaat.Alsa.Configure
import Oaat.Alsa.Delivery
import Oaat.Alsa.NativeDsd
import Oaat.Lib.Cutting

namespace Oaat.Alsa

open Oaat.Core Oaat.Endpoint Oaat.Lib

/-! ## The conversion -/

/-- The conversion at unity volume. -/
def converted (format : AudioFormat) (channels : UInt8) (data : List UInt8) : List UInt8 :=
  match format with
  | .dsdU8 => packDsdU8ToU32Be data channels
  | .dsdU32le => dsdU32leToBe data
  | .pcmS24le => padS24ToS32 data
  | _ => data

theorem deviceBytes_unity (conv : Conversions) {o : AlsaDirectOutput} (hunity : o.unity = true)
    (hflac : o.format ≠ .flac) (data : List UInt8) :
    o.deviceBytes conv data =
      (o, converted o.format o.channels data,
        data.length / bytesPerFrame o.format o.channels) := by
  simp only [AlsaDirectOutput.deviceBytes, hflac, if_false, hunity, if_true]
  rfl

/-- Wire bytes that fill a device frame. -/
def blockBytes (format : AudioFormat) (ch : Nat) : Nat :=
  match format with
  | .pcmS16le => 2 * ch
  | .pcmS24le => 3 * ch
  | _ => 4 * ch

def deviceFrameBytes (format : AudioFormat) (ch : Nat) : Nat :=
  if format = .pcmS16le then 2 * ch else 4 * ch

/-- The PCM and DSD formats. -/
def IsRaw (format : AudioFormat) : Prop := (alsaFormatAndRate format 0).isSome = true

section

variable {format : AudioFormat} {channels : UInt8} {data : List UInt8}

theorem IsRaw.ne_flac (h : IsRaw format) : format ≠ .flac := by
  rintro rfl
  cases h

/-- The device frame of the writer. -/
theorem frameBytes_configured {cfg : Config} {params : DeviceParams} (hraw : IsRaw cfg.format)
    (hch : 1 ≤ cfg.channels.toNat)
    (hparams : (AlsaDirectOutput.new.configured cfg).2 = .ok params) :
    params.frameBytes = deviceFrameBytes cfg.format cfg.channels.toNat := by
  obtain ⟨format, sampleRate, channels, device⟩ := cfg
  cases format with
  | pcmS16le | pcmS24le | pcmS24le4 | pcmS32le | pcmF32le | dsdU8 | dsdU16le | dsdU32le =>
    cases hparams
    simp [DeviceParams.frameBytes, deviceFrameBytes, Nat.max_eq_left hch]
  | _ => cases hraw

theorem wholeFrames_eq {n : Nat} (hn : 0 < n) (data : List UInt8) :
    wholeFrames n data = blockwise n (fun block => block) data := by
  have hlen : data.length - data.length % n = data.length / n * n := by
    have := Nat.div_add_mod' data.length n
    omega
  rw [wholeFrames, blockwise, List.flatMap_id', flatten_frames_eq_take hn, hlen]

theorem wholeFrames_of_dvd {n : Nat} (h : n ∣ data.length) : wholeFrames n data = data := by
  rw [wholeFrames, Nat.mod_eq_zero_of_dvd h, Nat.sub_zero, List.take_length]

theorem padS24ToS32_append {a : List UInt8} (b : List UInt8) (ha : 3 ∣ a.length) :
    padS24ToS32 (a ++ b) = padS24ToS32 a ++ padS24ToS32 b := by
  rw [padS24ToS32, frames_append (by decide) b ha, List.flatMap_append]
  rfl

theorem dsdU32leToBe_append {a : List UInt8} (b : List UInt8) (ha : 4 ∣ a.length) :
    dsdU32leToBe (a ++ b) = dsdU32leToBe a ++ dsdU32leToBe b := by
  rw [dsdU32leToBe, frames_append (by decide) b ha, List.flatMap_append]
  rfl

/-- A block of `DSD_U8` makes one word for each channel. -/
theorem packDsdU8ToU32Be_block (hch : 1 ≤ channels.toNat) {block : List UInt8}
    (hblock : block.length = 4 * channels.toNat) :
    packDsdU8ToU32Be block channels =
      (List.range channels.toNat).flatMap (packedWord channels.toNat block) := by
  have hone : frames (4 * channels.toNat) block = [block] := by
    have hcons := frames_cons_append (by omega) hblock []
    rwa [List.append_nil, frames_of_lt (l := []) (by rw [List.length_nil]; omega)] at hcons
  rw [packDsdU8ToU32Be_eq hch, hone, List.flatMap_singleton]

theorem packDsdU8ToU32Be_blockwise (hch : 1 ≤ channels.toNat) (data : List UInt8) :
    packDsdU8ToU32Be data channels =
      blockwise (4 * channels.toNat) (fun block => packDsdU8ToU32Be block channels) data := by
  rw [packDsdU8ToU32Be_eq hch, blockwise]
  refine List.flatMap_congr fun block hblock => ?_
  exact (packDsdU8ToU32Be_block hch (length_of_mem_frames hblock)).symm

/-- A block fills a device frame. -/
theorem length_converted (hraw : IsRaw format) (hch : 1 ≤ channels.toNat) {block : List UInt8}
    (hblock : block.length = blockBytes format channels.toNat) :
    (converted format channels block).length = deviceFrameBytes format channels.toNat := by
  cases format with
  | pcmS16le | pcmS24le4 | pcmS32le | pcmF32le | dsdU16le => exact hblock
  | pcmS24le =>
    have hsample : ∀ chunk ∈ frames 3 block, (0 :: chunk).length = 4 := fun chunk hchunk => by
      rw [List.length_cons, length_of_mem_frames hchunk]
    have hlen : block.length = 3 * channels.toNat := hblock
    change (padS24ToS32 block).length = 4 * channels.toNat
    rw [padS24ToS32, length_flatMap_const hsample, length_frames, hlen]
    omega
  | dsdU8 =>
    have hword : ∀ c ∈ List.range channels.toNat, (packedWord channels.toNat block c).length = 4 :=
      fun _ _ => rfl
    change (packDsdU8ToU32Be block channels).length = 4 * channels.toNat
    rw [packDsdU8ToU32Be_block hch hblock, length_flatMap_const hword, List.length_range,
      Nat.mul_comm]
  | dsdU32le =>
    have hword : ∀ word ∈ frames 4 block, word.reverse.length = 4 := fun word hword => by
      rw [List.length_reverse, length_of_mem_frames hword]
    have hlen : block.length = 4 * channels.toNat := hblock
    change (dsdU32leToBe block).length = 4 * channels.toNat
    rw [dsdU32leToBe, length_flatMap_const hword, length_frames, hlen]
    omega
  | _ => cases hraw

/-- **What the device gets of a payload** is its whole blocks, converted. -/
theorem wholeFrames_converted (hraw : IsRaw format) (hch : 1 ≤ channels.toNat)
    (hdata : bytesPerFrame format channels ∣ data.length) :
    wholeFrames (deviceFrameBytes format channels.toNat) (converted format channels data) =
      blockwise (blockBytes format channels.toNat) (converted format channels) data := by
  have hlen := dvd_length_blockwise
    (fun block => length_converted hraw hch) data
  have hmax : max channels.toNat 1 = channels.toNat := Nat.max_eq_left hch
  have hwhole : blockwise (blockBytes format channels.toNat) (converted format channels) data =
        converted format channels data →
      wholeFrames (deviceFrameBytes format channels.toNat) (converted format channels data) =
        blockwise (blockBytes format channels.toNat) (converted format channels) data :=
    fun heq => (wholeFrames_of_dvd (heq ▸ hlen)).trans heq.symm
  cases format with
  | pcmS16le | pcmS24le4 | pcmS32le | pcmF32le | dsdU16le =>
    exact wholeFrames_eq (by simp [deviceFrameBytes]; omega) data
  | pcmS24le =>
    have hdvd : 3 * channels.toNat ∣ data.length := by simpa [bytesPerFrame, hmax] using hdata
    exact hwhole (blockwise_of_additive (g := padS24ToS32) (by omega) rfl
      (fun block rest hblock => padS24ToS32_append rest (hblock ▸ Nat.dvd_mul_right 3 _)) hdvd)
  | dsdU8 => exact hwhole (packDsdU8ToU32Be_blockwise hch data).symm
  | dsdU32le =>
    have hdvd : 4 * channels.toNat ∣ data.length := by simpa [bytesPerFrame, hmax] using hdata
    exact hwhole (blockwise_of_additive (g := dsdU32leToBe) (by omega) rfl
      (fun block rest hblock => dsdU32leToBe_append rest (hblock ▸ Nat.dvd_mul_right 4 _)) hdvd)
  | _ => cases hraw

/-! ## Cuts -/

theorem reverseBits_eq_zero (b : UInt8) : reverseBits b = 0 ↔ b = 0 := by
  have hall : ∀ n : Fin 256, reverseBits (UInt8.ofFin n) = 0 ↔ UInt8.ofFin n = 0 := by
    decide +kernel
  exact hall b.toFin

/-- The words of a block are silent if and only if its bytes are. -/
theorem packDsdU8ToU32Be_silent (hch : 1 ≤ channels.toNat) {block : List UInt8}
    (hblock : block.length = 4 * channels.toNat) :
    (∀ y ∈ packDsdU8ToU32Be block channels, y = 0) ↔ ∀ a ∈ block, a = 0 := by
  have hmem : ∀ y, y ∈ packDsdU8ToU32Be block channels ↔ ∃ c < channels.toNat,
      ∃ i ∈ [c, c + channels.toNat, c + 2 * channels.toNat, c + 3 * channels.toNat],
        reverseBits (block.getD i 0) = y := by
    intro y
    rw [packDsdU8ToU32Be_block hch hblock]
    simp only [List.mem_flatMap, List.mem_range, packedWord, List.mem_map]
  have hget : ∀ {i : Nat} (hi : i < block.length), block.getD i 0 = block[i] := fun hi => by
    rw [List.getD_eq_getElem?_getD, List.getElem?_eq_getElem hi, Option.getD_some]
  constructor
  · intro hy a ha
    obtain ⟨i, hi, rfl⟩ := List.mem_iff_getElem.mp ha
    rw [hblock] at hi
    have hc := Nat.mod_lt i hch
    have hq : i / channels.toNat < 4 := (Nat.div_lt_iff_lt_mul hch).mpr hi
    have hsplit := Nat.mod_add_div' i channels.toNat
    have hword : i ∈ [i % channels.toNat, i % channels.toNat + channels.toNat,
        i % channels.toNat + 2 * channels.toNat, i % channels.toNat + 3 * channels.toNat] := by
      simp only [List.mem_cons, List.not_mem_nil, or_false]
      generalize i / channels.toNat = q at hq hsplit
      obtain rfl | rfl | rfl | rfl : q = 0 ∨ q = 1 ∨ q = 2 ∨ q = 3 := by omega
      all_goals omega
    have hzero := hy _ ((hmem _).mpr ⟨i % channels.toNat, hc, i, hword, rfl⟩)
    rwa [reverseBits_eq_zero, hget (by omega)] at hzero
  · intro ha y hy
    obtain ⟨c, hc, i, hi, rfl⟩ := (hmem y).mp hy
    have hlt : i < block.length := by
      simp only [List.mem_cons, List.not_mem_nil, or_false] at hi
      omega
    rw [reverseBits_eq_zero, hget hlt]
    exact ha _ (List.getElem_mem hlt)

/-- What the device receives in the end. -/
def received (format : AudioFormat) (channels : UInt8) (payloads : List (List UInt8)) :
    List UInt8 :=
  payloads.flatMap fun payload =>
    wholeFrames (deviceFrameBytes format channels.toNat) (converted format channels payload)

/-- What the device receives of whole wire frames. -/
theorem received_eq (hraw : IsRaw format) (hch : 1 ≤ channels.toNat)
    {payloads : List (List UInt8)}
    (hpayloads : ∀ payload ∈ payloads, bytesPerFrame format channels ∣ payload.length) :
    received format channels payloads = payloads.flatMap
      (blockwise (blockBytes format channels.toNat) (converted format channels)) :=
  List.flatMap_congr fun payload hmem => wholeFrames_converted hraw hch (hpayloads payload hmem)

theorem blockBytes_pos (hch : 1 ≤ channels.toNat) (format : AudioFormat) :
    0 < blockBytes format channels.toNat := by
  unfold blockBytes
  split <;> omega

/-- Any cut of these formats lies between two blocks. -/
theorem blockBytes_eq (hraw : IsRaw format) (hch : 1 ≤ channels.toNat)
    (h : format ≠ .dsdU8 ∧ format ≠ .dsdU16le) :
    blockBytes format channels.toNat = bytesPerFrame format channels := by
  have hmax : max channels.toNat 1 = channels.toNat := Nat.max_eq_left hch
  cases format with
  | pcmS16le | pcmS24le | pcmS24le4 | pcmS32le | pcmF32le | dsdU32le =>
    simp [blockBytes, bytesPerFrame, hmax]
  | dsdU8 => exact absurd rfl h.1
  | dsdU16le => exact absurd rfl h.2
  | _ => cases hraw

/-- The other two tell silence from sound. -/
theorem converted_silent (hch : 1 ≤ channels.toNat) (h : format = .dsdU8 ∨ format = .dsdU16le)
    {block : List UInt8} (hblock : block.length = blockBytes format channels.toNat) :
    (∀ y ∈ converted format channels block, y = 0) ↔ ∀ a ∈ block, a = 0 := by
  rcases h with rfl | rfl
  · exact packDsdU8ToU32Be_silent hch hblock
  · rfl

/-- **The harmless cuts.** Of a way to cut, and every stream cut that way. -/
theorem received_iff (hraw : IsRaw format) (hch : 1 ≤ channels.toNat) {sizes : List Nat}
    (hsizes : ∀ n ∈ sizes, bytesPerFrame format channels ∣ n) :
    (∀ payloads : List (List UInt8), payloads.map List.length = sizes →
      received format channels payloads =
        wholeFrames (deviceFrameBytes format channels.toNat)
          (converted format channels payloads.flatten)) ↔
      (format ≠ .dsdU8 ∧ format ≠ .dsdU16le) ∨ Aligned (4 * channels.toNat) sizes := by
  have hB := blockBytes_pos hch format
  have hboth : ∀ payloads : List (List UInt8), payloads.map List.length = sizes →
      (received format channels payloads = wholeFrames (deviceFrameBytes format channels.toNat)
          (converted format channels payloads.flatten) ↔
        payloads.flatMap (blockwise (blockBytes format channels.toNat)
            (converted format channels)) =
          blockwise (blockBytes format channels.toNat) (converted format channels)
            payloads.flatten) := by
    intro payloads hlens
    have hpayloads : ∀ payload ∈ payloads, bytesPerFrame format channels ∣ payload.length :=
      fun payload hmem => hsizes _ (hlens ▸ List.mem_map_of_mem hmem)
    have hstream : bytesPerFrame format channels ∣ payloads.flatten.length := by
      rw [List.length_flatten, hlens]
      exact List.dvd_sum hsizes
    rw [received_eq hraw hch hpayloads, wholeFrames_converted hraw hch hstream]
  by_cases hformat : format ≠ .dsdU8 ∧ format ≠ .dsdU16le
  case pos =>
    refine iff_of_true (fun payloads hlens => (hboth payloads hlens).mpr ?_) (.inl hformat)
    refine flatMap_blockwise hB (aligned_of_forall_dvd fun n hn => ?_)
    rw [blockBytes_eq hraw hch hformat]
    exact hsizes n (hlens ▸ hn)
  case neg =>
    have hdsd : format = .dsdU8 ∨ format = .dsdU16le := by
      rwa [not_and_or, not_not, not_not] at hformat
    have hblock : blockBytes format channels.toNat = 4 * channels.toNat := by
      rcases hdsd with rfl | rfl <;> rfl
    rw [or_iff_right hformat, ← hblock]
    constructor
    · intro h
      exact aligned_of_flatMap_blockwise (z := 0) (x := 1) (b := 0) hB (by decide)
        (fun block => converted_silent hch hdsd)
        fun payloads hlens => (hboth payloads hlens).mp (h payloads hlens)
    · intro hal payloads hlens
      exact (hboth payloads hlens).mpr (flatMap_blockwise hB (hlens ▸ hal))

end

/-! ## Playback -/

/-- The bytes that the device of writer `id` takes in a step. -/
def taken (id : Nat) (s : Endpoint.Alsa) : AlsaAction → List UInt8
  | .thread i now answer =>
    if i = id then
      match s.threads[i]? with
      | none => []
      | some t =>
        match t.step s.shared now answer with
        | .error _ => []
        | .ok (_, _, took) => took
    else []
  | _ => []

/-- A step of the output, with what the device of writer `id` takes. -/
def playStep (conv : Conversions) (id : Nat) (s : Endpoint.Alsa) (a : AlsaAction) :
    Except Blocked (Endpoint.Alsa × List UInt8) :=
  match s.step conv a with
  | .error e => .error e
  | .ok (s', _) => .ok (s', taken id s a)

/-- The output is written to, and every thread goes on. -/
def PlayAction : AlsaAction → Prop
  | .call (.writeAudio _) | .thread _ _ _ => True
  | _ => False

/-- The device of writer `id` accepts everything. -/
def Accepts (id : Nat) (s : Endpoint.Alsa) : AlsaAction → Prop
  | .thread i now answer =>
    i = id → ∀ t, s.threads[i]? = some t → Scripted (t, s.shared) (.step now answer)
  | _ => True

/-- The payloads written by a list of actions. -/
def written (acts : List AlsaAction) : List (List UInt8) :=
  acts.flatMap fun
    | .call (.writeAudio data) => [data]
    | _ => []

/-- The writer waits for a payload. -/
def Waits (id : Nat) (s : Endpoint.Alsa) : Prop :=
  ∃ t, s.threads[id]? = some t ∧ t.pc = .receiving ∧ t.queue = []

/-- The output plays through writer `id`, which was given the payloads. -/
structure Plays (format : AudioFormat) (channels : UInt8) (params : DeviceParams) (id : Nat)
    (payloads : List (List UInt8)) (took : List UInt8) (s : Endpoint.Alsa) : Prop where
  idle : s.caller = .idle
  playing : s.output.playing = true
  muted : s.output.muted = false
  unity : s.output.unity = true
  format_eq : s.output.format = format
  channels_eq : s.output.channels = channels
  writer : s.output.writer = some id
  thread : ∃ t, s.threads[id]? = some t ∧ t.hungUp = false ∧
    Delivered params t (payloads.map (converted format channels)) took

section

variable {conv : Conversions} {format : AudioFormat} {channels : UInt8} {params : DeviceParams}
  {id : Nat} {payloads : List (List UInt8)} {took more : List UInt8} {s s' : Endpoint.Alsa}
  {a : AlsaAction} {data : List UInt8} {log : List AlsaEvent}

theorem written_cons (a : AlsaAction) (acts : List AlsaAction) :
    written (a :: acts) = written [a] ++ written acts := by
  simp [written]

/-- A write, while the queue has room. -/
theorem writeAudio_ok (h : Plays format channels params id payloads took s)
    (hflac : format ≠ .flac) {t : WriterThread} (ht : s.threads[id]? = some t)
    (hlive : t.isReturned = false) (data : List UInt8) :
    s.writeAudio conv data =
      if (converted format channels data).isEmpty then .ok (s, [.enqueued 0])
      else if WRITE_QUEUE_PAYLOADS ≤ t.queue.length then .error .blocked
      else
        .ok ({ s with threads := s.threads.set id (t.send (converted format channels data)) },
          [.enqueued (data.length / bytesPerFrame format channels)]) := by
  have hbytes := deviceBytes_unity conv h.unity (h.format_eq ▸ hflac) data
  rw [h.format_eq, h.channels_eq] at hbytes
  simp only [Endpoint.Alsa.writeAudio, h.playing, h.muted, h.writer, hbytes,
    Endpoint.Alsa.sendBytes, Option.bind_some, ht, Option.map_some, hlive]
  rfl

theorem plays_write (h : Plays format channels params id payloads took s)
    (hflac : format ≠ .flac) (hok : s.writeAudio conv data = .ok (s', log)) :
    Plays format channels params id (payloads ++ [data]) took s' := by
  obtain ⟨t, ht, hup, hdel⟩ := h.thread
  have hlive := hdel.isReturned_eq hup
  rw [writeAudio_ok h hflac ht hlive] at hok
  split at hok
  next hempty =>
    cases hok
    refine { h with thread := ⟨t, ht, hup, ?_⟩ }
    rw [List.map_append, List.map_singleton, List.isEmpty_iff.mp hempty]
    exact hdel.skip
  next =>
    split at hok
    next => cases hok
    next hroom =>
      cases hok
      have hsend : act (t, s.shared) (.send (converted format channels data)) =
          .ok ((t.send (converted format channels data), s.shared), []) := by
        simp only [act, hup, hlive, Bool.or_self, Bool.false_or, decide_eq_true_eq]
        rw [if_neg hroom]
      have hscript : Scripted (t, s.shared) (.send (converted format channels data)) := trivial
      have hdel' := act_delivered hdel hscript hsend
      rw [List.append_nil] at hdel'
      have hlt := (List.getElem?_eq_some_iff.mp ht).1
      refine { h with thread := ⟨_, List.getElem?_set_self hlt, hup, ?_⟩ }
      rw [List.map_append, List.map_singleton]
      exact hdel'

theorem plays_thread (h : Plays format channels params id payloads took s) {i now : Nat}
    {answer : Answer} (haccepts : Accepts id s (.thread i now answer))
    (hok : s.threadStep i now answer = .ok (s', log)) :
    Plays format channels params id payloads (took ++ taken id s (.thread i now answer)) s' := by
  obtain ⟨t, ht, hup, hdel⟩ := h.thread
  obtain ⟨u, u', sh', took', hu, hstep, rfl, -⟩ := threadStep_inv hok
  by_cases hi : i = id
  case pos =>
    subst hi
    obtain rfl : t = u := Option.some.inj (ht.symm.trans hu)
    have htaken : taken i s (.thread i now answer) = took' := by
      simp only [taken, if_true, hu, hstep]
    have hlt := (List.getElem?_eq_some_iff.mp ht).1
    rw [htaken]
    exact { h with
      thread := ⟨u', List.getElem?_set_self hlt, (step_hungUp hstep).trans hup,
        step_delivered hdel (haccepts rfl t ht) hstep⟩ }
  case neg =>
    have htaken : taken id s (.thread i now answer) = [] := by
      simp only [taken, if_neg hi]
    rw [htaken, List.append_nil]
    exact { h with thread := ⟨t, (List.getElem?_set_ne hi).trans ht, hup, hdel⟩ }

/-- **The step rule.** -/
theorem plays_step (h : Plays format channels params id payloads took s) (hflac : format ≠ .flac)
    (ha : PlayAction a) (haccepts : Accepts id s a) (hok : playStep conv id s a = .ok (s', more)) :
    Plays format channels params id (payloads ++ written [a]) (took ++ more) s' := by
  unfold playStep at hok
  cases hstep : s.step conv a with
  | error e => simp [hstep] at hok
  | ok r =>
    obtain ⟨s₁, log⟩ := r
    simp only [hstep, Except.ok.injEq, Prod.mk.injEq] at hok
    obtain ⟨rfl, rfl⟩ := hok
    cases a with
    | call c =>
      cases c with
      | writeAudio data =>
        simp only [Endpoint.Alsa.step, h.idle, Endpoint.Alsa.start] at hstep
        have hnext := plays_write h hflac hstep
        rwa [← List.append_nil took] at hnext
      | _ => cases ha
    | thread i now answer =>
      have hnext := plays_thread h haccepts hstep
      rwa [← List.append_nil payloads] at hnext
    | _ => cases ha

/-- **The run rule.** -/
theorem plays_run {acts : List AlsaAction} (h : Plays format channels params id payloads took s)
    (hflac : format ≠ .flac) (hacts : ∀ a ∈ acts, PlayAction a)
    (haccepts : Along (playStep conv id) (Accepts id) s acts)
    (hrun : run (playStep conv id) s acts = .ok (s', more)) :
    Plays format channels params id (payloads ++ written acts) (took ++ more) s' := by
  induction acts generalizing s payloads took more with
  | nil =>
    cases hrun
    simpa [written] using h
  | cons a acts ih =>
    obtain ⟨s₁, more₁, more₂, hstep, hrest, rfl⟩ := run_cons_inv hrun
    have h₁ := plays_step h hflac (hacts a List.mem_cons_self) haccepts.1 hstep
    have hall := ih h₁ (fun b hb => hacts b (List.mem_cons_of_mem a hb))
      (haccepts.2 s₁ more₁ hstep) hrest
    rwa [List.append_assoc, List.append_assoc, ← written_cons] at hall

/-- When the writer waits, the device has what it receives. -/
theorem Plays.took_eq (h : Plays format channels params id payloads took s) (hwaits : Waits id s)
    (hframe : params.frameBytes = deviceFrameBytes format channels.toNat) :
    took = received format channels payloads := by
  obtain ⟨t, ht, -, hdel⟩ := h.thread
  obtain ⟨u, hu, hpc, hqueue⟩ := hwaits
  obtain rfl : t = u := Option.some.inj (ht.symm.trans hu)
  have hacc := hdel.account
  rw [hqueue, List.flatMap_nil, List.append_nil, inHand, hpc, List.append_nil, hframe,
    List.flatMap_map] at hacc
  exact hacc

/-! ## Every packetization is played -/

/-- The payloads can be written, and played to their end. -/
def PlaysOut (conv : Conversions) (id : Nat) (s : Endpoint.Alsa) (later : List (List UInt8)) :
    Prop :=
  ∃ acts t more, (∀ a ∈ acts, PlayAction a) ∧ written acts = later ∧
    Along (playStep conv id) (Accepts id) s acts ∧
    run (playStep conv id) s acts = .ok (t, more) ∧ Waits id t

theorem PlaysOut.cons {later : List (List UInt8)} (ha : PlayAction a) (haccepts : Accepts id s a)
    (hstep : playStep conv id s a = .ok (s', more)) (h : PlaysOut conv id s' later) :
    PlaysOut conv id s (written [a] ++ later) := by
  obtain ⟨acts, t, more', hacts, rfl, halong, hrun, ht⟩ := h
  refine ⟨a :: acts, t, more ++ more', ?_, written_cons a acts,
    (along_cons_iff acts hstep).mpr ⟨haccepts, halong⟩, run_cons_ok hstep hrun, ht⟩
  intro b hb
  rcases List.mem_cons.mp hb with rfl | hb
  · exact ha
  · exact hacts b hb

/-- The writer drains its queue, and then there is more to do. -/
theorem playsOut_of_waits {later : List (List UInt8)} (hflac : format ≠ .flac)
    (hwaits : ∀ s' took', Plays format channels params id payloads took' s' → Waits id s' →
      PlaysOut conv id s' later) (h : Plays format channels params id payloads took s) :
    PlaysOut conv id s later := by
  obtain ⟨t, ht, hup, hdel⟩ := h.thread
  -- on the work that is left
  induction hn : work t using Nat.strong_induction_on generalizing s t took with
  | _ n ih =>
    by_cases hdone : t.pc = .receiving ∧ t.queue = []
    case pos => exact hwaits s took h ⟨t, ht, hdone⟩
    case neg =>
      have hbusy : Busy t := fun hpc hqueue => absurd ⟨hpc, hqueue⟩ hdone
      have hend : t.pc ≠ .returned := by
        intro hpc
        have hlive := hdel.isReturned_eq hup
        rw [WriterThread.isReturned, hpc] at hlive
        cases hlive
      obtain ⟨answer, hscript, ⟨t', sh', took'⟩, hstep⟩ := step_enabled hdel hbusy hend s.shared 0
      have haccepts : Accepts id s (.thread id 0 answer) := by
        intro _ u hu
        rwa [Option.some.inj (hu.symm.trans ht)]
      have hact : playStep conv id s (.thread id 0 answer) =
          .ok ({ s with threads := s.threads.set id t', shared := sh' }, took') := by
        simp only [playStep, Endpoint.Alsa.step, Endpoint.Alsa.threadStep, taken, ht, hstep,
          if_true]
      have ha : PlayAction (.thread id 0 answer) := trivial
      have h' := plays_step h hflac ha haccepts hact
      rw [show written [AlsaAction.thread id 0 answer] = [] from rfl, List.append_nil] at h'
      have ht' : (s.threads.set id t')[id]? = some t' :=
        List.getElem?_set_self (List.getElem?_eq_some_iff.mp ht).1
      exact .cons ha haccepts hact (ih (work t') (hn ▸ step_work hdel hbusy hscript hstep) h' t'
        ht' ((step_hungUp hstep).trans hup) (step_delivered hdel hscript hstep) rfl)

/-- A write to a writer that waits. -/
theorem exists_write (conv : Conversions) (h : Plays format channels params id payloads took s)
    (hflac : format ≠ .flac) (hwaits : Waits id s) (data : List UInt8) :
    ∃ s', playStep conv id s (.call (.writeAudio data)) = .ok (s', []) := by
  obtain ⟨t, ht, hup, hdel⟩ := h.thread
  obtain ⟨u, hu, -, hqueue⟩ := hwaits
  obtain rfl : t = u := Option.some.inj (ht.symm.trans hu)
  have hroom : ¬ WRITE_QUEUE_PAYLOADS ≤ t.queue.length := by
    rw [hqueue]
    decide
  by_cases hempty : (converted format channels data).isEmpty = true
  · refine ⟨s, ?_⟩
    simp only [playStep, Endpoint.Alsa.step, h.idle, Endpoint.Alsa.start,
      writeAudio_ok h hflac ht (hdel.isReturned_eq hup), if_pos hempty]
    rfl
  · refine ⟨{ s with threads := s.threads.set id (t.send (converted format channels data)) }, ?_⟩
    simp only [playStep, Endpoint.Alsa.step, h.idle, Endpoint.Alsa.start,
      writeAudio_ok h hflac ht (hdel.isReturned_eq hup), if_neg hempty, if_neg hroom]
    rfl

/-- **Any payloads can be played.** -/
theorem playsOut (conv : Conversions) (h : Plays format channels params id payloads took s)
    (hflac : format ≠ .flac) (later : List (List UInt8)) : PlaysOut conv id s later := by
  induction later generalizing s payloads took with
  | nil =>
    exact playsOut_of_waits hflac
      (fun s' _ _ hwaits => ⟨[], s', [], nofun, rfl, trivial, rfl, hwaits⟩) h
  | cons data later ih =>
    refine playsOut_of_waits hflac (fun s₁ took₁ h₁ hwaits => ?_) h
    obtain ⟨s₂, hwrite⟩ := exists_write conv h₁ hflac hwaits data
    have ha : PlayAction (.call (.writeAudio data)) := trivial
    have haccepts : Accepts id s₁ (.call (.writeAudio data)) := trivial
    exact .cons ha haccepts hwrite (ih (plays_step h₁ hflac ha haccepts hwrite))

end

/-! ## From the configuration on -/

/-- A writer that was given nothing yet. -/
structure Fresh (cfg : Config) (t : WriterThread) : Prop where
  params : (AlsaDirectOutput.new.configured cfg).2 = .ok t.slot.params
  stop_eq : t.stop = false
  hungUp_eq : t.hungUp = false
  queue_eq : t.queue = []
  retryAt_eq : t.slot.retryAt = none
  report_eq : match t.pc with
    | .opening | .reporting _ => t.report = none
    | .starting | .receiving | .idleClosing => t.report = some (.ok ())
    | .returned => ∃ e, t.report = some (.error e)
    | _ => False

theorem Fresh.step {cfg : Config} {t t' : WriterThread} {sh sh' : Shared} {now : Nat}
    {answer : Answer} {took : List UInt8} (h : Fresh cfg t)
    (hstep : t.step sh now answer = .ok (t', sh', took)) : Fresh cfg t' := by
  have hreport := h.report_eq
  cases step_inv hstep with
  | opens hpc => exact ⟨h.params, h.stop_eq, h.hungUp_eq, h.queue_eq, rfl, by rwa [hpc] at hreport⟩
  | opensNot e hpc =>
    exact ⟨h.params, h.stop_eq, h.hungUp_eq, h.queue_eq, h.retryAt_eq, by rwa [hpc] at hreport⟩
  | reports hpc => exact ⟨h.params, h.stop_eq, h.hungUp_eq, h.queue_eq, h.retryAt_eq, rfl⟩
  | reportsNot e hpc => exact ⟨h.params, h.stop_eq, h.hungUp_eq, h.queue_eq, h.retryAt_eq, e, rfl⟩
  | starts hpc | idles hpc | idleCloses hpc =>
    exact ⟨h.params, h.stop_eq, h.hungUp_eq, h.queue_eq, h.retryAt_eq, by rwa [hpc] at hreport⟩
  | waits => exact h
  | receives data queue hpc hq => simp [h.queue_eq] at hq
  | hangsUp hpc hq hup => simp [h.hungUp_eq] at hup
  | stops _ hpc | readies _ hpc | drops _ hpc | retries _ hpc | reopens _ hpc
  | reopensNot _ _ hpc | begins _ _ hpc | takesNone _ hpc | takes _ _ hpc | breaks _ _ hpc
  | halts _ _ _ hpc | recovers _ hpc | recoversNot _ _ hpc | fails hpc | leaves hpc
  | leavesClosed hpc | closes _ hpc =>
    rw [hpc] at hreport
    exact hreport.elim

/-- A fresh writer that has reported its device open. -/
def Ready (cfg : Config) (t : WriterThread) : Prop := Fresh cfg t ∧ t.report = some (.ok ())

theorem Ready.step {cfg : Config} {t t' : WriterThread} {sh sh' : Shared} {now : Nat}
    {answer : Answer} {took : List UInt8} (h : Ready cfg t)
    (hstep : t.step sh now answer = .ok (t', sh', took)) : Ready cfg t' := by
  obtain ⟨hfresh, hready⟩ := h
  refine ⟨hfresh.step hstep, ?_⟩
  have hreport := hfresh.report_eq
  cases step_inv hstep with
  | reports => rfl
  | begins | takes | recovers => exact (writeLoop_frame _ _ _).2.2.2.2.trans hready
  | opens hpc | opensNot _ hpc | reportsNot _ hpc =>
    rw [hpc] at hreport
    simp [hready] at hreport
  | _ => exact hready

theorem Ready.delivered {cfg : Config} {t : WriterThread} (h : Ready cfg t) :
    Delivered t.slot.params t [] [] := by
  obtain ⟨hfresh, hready⟩ := h
  have hreport := hfresh.report_eq
  have hat : AtPc t.slot.params t ∧ inHand t = [] := by
    unfold AtPc inHand
    cases hpc : t.pc with
    | opening | reporting _ =>
      rw [hpc] at hreport
      simp [hready] at hreport
    | starting | receiving | idleClosing => exact ⟨trivial, rfl⟩
    | returned =>
      rw [hpc] at hreport
      simp [hready] at hreport
    | _ =>
      rw [hpc] at hreport
      exact hreport.elim
  refine ⟨rfl, hfresh.stop_eq, hfresh.retryAt_eq, hat.1, ?_⟩
  rw [hat.2, hfresh.queue_eq]
  rfl

theorem follows_fresh (cfg : Config) : Follows cfg (Fresh cfg) (Ready cfg) where
  spawned _ _ hparams := ⟨hparams, rfl, rfl, rfl, rfl, rfl⟩
  opens _ _ _ _ _ _ _ hs hstep := hs.step hstep
  reported _ hs hreport := ⟨hs, hreport⟩
  runs _ _ _ _ _ _ _ hs hstep := hs.step hstep

/-- `play` -/
def play (s : Endpoint.Alsa) : Endpoint.Alsa :=
  { s with output := { s.output with playing := true } }

/-- A configured output that is told to play. -/
theorem plays_configured {conv : Conversions} {cfg : Config} {s₀ s : Endpoint.Alsa}
    {host : List AlsaAction} {log : List AlsaEvent}
    (hconf : s₀.callWith conv (.configure cfg) host = .ok (s, log)) (hok : Succeeds log)
    (hunity : s.output.unity = true) (hmuted : s.output.muted = false) :
    ∃ id params, (AlsaDirectOutput.new.configured cfg).2 = .ok params ∧
      Plays cfg.format cfg.channels params id [] [] (play s) := by
  obtain ⟨hidle, htoward⟩ := toward_callWith (follows_fresh cfg) rfl hconf hok
  rw [Toward, hidle] at htoward
  obtain ⟨hsaved, id, hwriter, t, ht, hready⟩ := htoward
  subst hsaved
  exact ⟨id, t.slot.params, hready.1.params, hidle, rfl, hmuted, hunity, rfl, rfl, hwriter, t, ht,
    hready.1.hungUp_eq, hready.delivered⟩

/-- **Packetization.** Configure the output for a PCM or DSD format, at unity volume and
unmuted, and let it play to a device that accepts everything. Take a way to cut a
stream into payloads of whole wire frames. That the device receives the conversion of
the whole stream, cut to whole device frames, for every stream cut so and every run
in which the writer has come to wait, holds if and only if the format is neither
`DSD_U8` nor `DSD_U16LE` or the cuts inside the whole device frames lie between two of
them. And every stream cut so has such a run. -/
theorem packetization_iff {conv : Conversions} {cfg : Config} {s₀ s : Endpoint.Alsa}
    {host : List AlsaAction} {log : List AlsaEvent} {sizes : List Nat} (hraw : IsRaw cfg.format)
    (hch : 1 ≤ cfg.channels.toNat)
    (hconf : s₀.callWith conv (.configure cfg) host = .ok (s, log)) (hok : Succeeds log)
    (hunity : s.output.unity = true) (hmuted : s.output.muted = false)
    (hsizes : ∀ n ∈ sizes, bytesPerFrame cfg.format cfg.channels ∣ n) :
    ∃ id, s.output.writer = some id ∧
      ((∀ acts t took, (∀ a ∈ acts, PlayAction a) → (written acts).map List.length = sizes →
          Along (playStep conv id) (Accepts id) (play s) acts →
          run (playStep conv id) (play s) acts = .ok (t, took) → Waits id t →
          took = wholeFrames (deviceFrameBytes cfg.format cfg.channels.toNat)
            (converted cfg.format cfg.channels (written acts).flatten)) ↔
        (cfg.format ≠ .dsdU8 ∧ cfg.format ≠ .dsdU16le) ∨
          Aligned (4 * cfg.channels.toNat) sizes) ∧
      ∀ payloads : List (List UInt8), PlaysOut conv id (play s) payloads := by
  obtain ⟨id, params, hparams, hplays⟩ := plays_configured hconf hok hunity hmuted
  have hframe := frameBytes_configured hraw hch hparams
  have hreceived : ∀ acts t took, (∀ a ∈ acts, PlayAction a) →
      Along (playStep conv id) (Accepts id) (play s) acts →
      run (playStep conv id) (play s) acts = .ok (t, took) → Waits id t →
      took = received cfg.format cfg.channels (written acts) :=
    fun acts t took hacts haccepts hrun hwaits =>
      (plays_run hplays hraw.ne_flac hacts haccepts hrun).took_eq hwaits hframe
  refine ⟨id, hplays.writer, ?_, playsOut conv hplays hraw.ne_flac⟩
  rw [← received_iff hraw hch hsizes]
  constructor
  · intro h payloads hlens
    obtain ⟨acts, t, took, hacts, rfl, haccepts, hrun, hwaits⟩ :=
      playsOut conv hplays hraw.ne_flac payloads
    rw [← hreceived acts t took hacts haccepts hrun hwaits]
    exact h acts t took hacts hlens haccepts hrun hwaits
  · intro h acts t took hacts hlens haccepts hrun hwaits
    rw [hreceived acts t took hacts haccepts hrun hwaits]
    exact h (written acts) hlens

/-- A format on the default card. -/
def onCard (format : AudioFormat) (sampleRate : UInt32) (channels : UInt8) : Config :=
  { format, sampleRate, channels, device := none }

/-- The first writer opens its device. -/
def opensDevice : List AlsaAction :=
  [.thread 0 0 (.opener (.ok ())), .thread 0 0 .go, .resume, .thread 0 0 .go]

/-- 24-bit stereo, one frame and then two. -/
theorem packetization_iff_s24 :
    ∃ s log id, Endpoint.Alsa.new.callWith plainConversions
        (.configure (onCard .pcmS24le 96000 2)) opensDevice = .ok (s, log) ∧
      s.output.writer = some id ∧
      (∀ acts t took, (∀ a ∈ acts, PlayAction a) → (written acts).map List.length = [6, 12] →
        Along (playStep plainConversions id) (Accepts id) (play s) acts →
        run (playStep plainConversions id) (play s) acts = .ok (t, took) → Waits id t →
        took = wholeFrames 8 (padS24ToS32 (written acts).flatten)) ∧
      PlaysOut plainConversions id (play s) [[1, 2, 3, 4, 5, 6]] := by
  have hconf : Endpoint.Alsa.new.callWith plainConversions
      (.configure (onCard .pcmS24le 96000 2)) opensDevice = .ok (_, _) := rfl
  have hraw : IsRaw (onCard .pcmS24le 96000 2).format := rfl
  have hsizes : ∀ n ∈ [6, 12], bytesPerFrame .pcmS24le 2 ∣ n := by decide
  obtain ⟨id, hid, hiff, hplays⟩ :=
    packetization_iff hraw (by decide) hconf (by simp [Succeeds]) rfl rfl hsizes
  exact ⟨_, _, id, hconf, hid, hiff.mpr (.inl ⟨nofun, nofun⟩), hplays _⟩

/-- DSD bytes of one channel, in payloads of two: nothing reaches the device. -/
theorem halfBlocks_lost :
    ∃ s log t, Endpoint.Alsa.new.callWith plainConversions
        (.configure (onCard .dsdU8 2822400 1)) opensDevice = .ok (s, log) ∧
      Along (playStep plainConversions 0) (Accepts 0) (play s)
        [.call (.writeAudio [1, 2]), .call (.writeAudio [3, 4])] ∧
      run (playStep plainConversions 0) (play s)
        [.call (.writeAudio [1, 2]), .call (.writeAudio [3, 4])] = .ok (t, []) ∧
      Waits 0 t ∧
      wholeFrames (deviceFrameBytes .dsdU8 1) (converted .dsdU8 1 [1, 2, 3, 4]) =
        [128, 64, 192, 32] :=
  ⟨_, _, _, rfl, ⟨trivial, fun _ _ _ => ⟨trivial, fun _ _ _ => trivial⟩⟩, rfl,
    ⟨_, rfl, rfl, rfl⟩, by decide⟩

end Oaat.Alsa
