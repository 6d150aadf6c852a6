/-
Oaat.Cli.WavFile — a controller that plays a WAV file
(`oaat-cli/src/main.rs`: `run_controller_file`;
`oaat-controller/src/transport.rs`: `ConnectedEndpoint::send_audio`).

The file is read whole. Channels, rate and bits are read at fixed offsets, the
`data` chunk is searched for, and its bytes are sent in packets of 360 frames
that each carry the time and the position of their first frame. The arithmetic
on floating point numbers is a parameter (`Floats`), and so is what the socket
refuses to send (`UdpSocket`).

`findData_data` says what the search finds: the first `data` chunk, whatever
chunks come before it, as far as the file goes.
-/
import Oaat.Controller.ZoneAudio
import Oaat.Core.Message
import Oaat.Lib.Chunks
import Oaat.Lib.Loop
import Oaat.Lib.MachineInt

namespace Oaat.Cli

open Oaat.Core Oaat.Controller Oaat.Lib

/-! ## The header -/

/-- Why the command ends before it connects. -/
inductive WavRefusal where
  | notWav
  | noData
  /-- `data_len / bytes_per_sample` panics. -/
  | dividesByZero
  | unsupported (bitsPerSample : UInt8)
  deriving Repr, DecidableEq

/-- What is read of a file. -/
structure Wav where
  format : AudioFormat
  channels : UInt8
  sampleRate : UInt32
  bitsPerSample : UInt8
  data : List UInt8
  deriving Repr, DecidableEq

/-- `bits_per_sample as usize / 8 * channels as usize` -/
def bytesPerSample (bitsPerSample channels : UInt8) : Nat :=
  bitsPerSample.toNat / 8 * channels.toNat

def Wav.bytesPerSample (w : Wav) : Nat := Oaat.Cli.bytesPerSample w.bitsPerSample w.channels

/-- A byte string literal. -/
def bytes (s : String) : List UInt8 := s.toList.map fun c => UInt8.ofNat c.toNat

def isWav (file : List UInt8) : Bool :=
  file.length > 44 && slice file 0 4 = bytes "RIFF" && slice file 8 12 = bytes "WAVE"

/-- One pass of the search for the data chunk, at `data_offset`. The result is
where its bytes are, and how many there are. -/
def findPass (file : List UInt8) (dataOffset : Nat) : Pass Nat (Nat × Nat) :=
  if dataOffset + 8 < file.length then
    let chunkId := slice file dataOffset (dataOffset + 4)
    let chunkSize := ofLe (slice file (dataOffset + 4) (dataOffset + 8))
    if chunkId = bytes "data" then
      let dataOffset := dataOffset + 8
      .stop (dataOffset, min chunkSize (file.length - dataOffset))
    else
      let dataOffset := dataOffset + (8 + chunkSize)
      .again (if chunkSize % 2 = 0 then dataOffset else dataOffset + 1)
  else .stop (dataOffset, 0)

def findData (file : List UInt8) : Except OutOfFuel (Nat × Nat) :=
  loop (findPass file) (file.length + 1) 12

def wavFormat (bitsPerSample : UInt8) : Option AudioFormat :=
  if bitsPerSample = 16 then some .pcmS16le
  else if bitsPerSample = 24 then some .pcmS24le
  else if bitsPerSample = 32 then some .pcmS32le
  else none

/-- The file, up to the point where it is known to be playable. -/
def readWav (file : List UInt8) : Except OutOfFuel (Except WavRefusal Wav) :=
  if !isWav file then .ok (.error .notWav)
  else do
    let channels := UInt8.ofNat (ofLe (slice file 22 24))
    let sampleRate := UInt32.ofNat (ofLe (slice file 24 28))
    let bitsPerSample := UInt8.ofNat (ofLe (slice file 34 36))
    let (dataOffset, dataLen) ← findData file
    if dataLen = 0 then return .error .noData
    let data := slice file dataOffset (dataOffset + dataLen)
    if bytesPerSample bitsPerSample channels = 0 then return .error .dividesByZero
    match wavFormat bitsPerSample with
    | none => return .error (.unsupported bitsPerSample)
    | some format => return .ok { format, channels, sampleRate, bitsPerSample, data }

/-! ## The stream -/

/-- The two expressions over `f64`, cast to `u64`. -/
structure Floats where
  /-- `sample_offset as f64 / sample_rate as f64 * 1e9` -/
  elapsedNs : UInt64 → UInt32 → UInt64
  /-- `total_samples as f64 / sample_rate as f64 * 1000.0` -/
  durationMs : Nat → UInt32 → UInt64

def SAMPLES_PER_PACKET : Nat := 360

/-! ## The sender -/

/-- The field of `ConnectedEndpoint` that the audio path uses. -/
structure AudioSender where
  sequence : UInt16
  deriving Repr, DecidableEq

/-- The operating system's side of the audio socket: the error of `send_to`, for a
datagram that it refuses. -/
structure UdpSocket where
  refuses : List UInt8 → Option String

/-- The most bytes of a UDP datagram over IPv4. -/
def MAX_UDP_DATAGRAM : Nat := 65507

/-- The socket takes what fits a datagram. -/
def UdpSocket.Works (socket : UdpSocket) : Prop :=
  ∀ bytes, bytes.length ≤ MAX_UDP_DATAGRAM → socket.refuses bytes = none

namespace AudioSender

/-- The packet that `send_audio` builds. -/
def packet (e : AudioSender) (a : AudioArgs) : FecPacket :=
  ({ version := AudioPacketHeader.CURRENT_VERSION
     flags := a.flags
     format := a.format
     sequence := e.sequence
     streamId := a.streamId
     ptsNs := a.ptsNs
     sampleOffset := a.sampleOffset
     payloadLen := UInt16.ofNat a.payload.length
     fecGroupSize := 0
     fecIndex := 0
     fecLenXor := 0 }, a.payload)

/-- The number is used up, whether or not the datagram is sent. The result is the
packet sent. -/
def sendAudio (socket : UdpSocket) (e : AudioSender) (a : AudioArgs) :
    AudioSender × Except OaatError FecPacket :=
  ({ sequence := e.sequence + 1 },
    match socket.refuses (datagram (e.packet a)) with
    | some text => .error (.io text)
    | none => .ok (e.packet a))

theorem sendAudio_ok {socket : UdpSocket} (hsocket : socket.Works) (e : AudioSender)
    {a : AudioArgs} (hfits : AUDIO_HEADER_SIZE + a.payload.length ≤ MAX_UDP_DATAGRAM) :
    e.sendAudio socket a = ({ sequence := e.sequence + 1 }, .ok (e.packet a)) := by
  have hlen : (datagram (e.packet a)).length = AUDIO_HEADER_SIZE + a.payload.length := by
    rw [datagram, List.length_append, AudioPacketHeader.length_encode]
    rfl
  rw [sendAudio, hsocket _ (by rwa [hlen])]

end AudioSender

/-! ## The streaming loop -/

/-- The loop's variables, the connection, and the packets sent. -/
structure FileStream where
  offset : Nat
  sampleOffset : UInt64
  endpoint : AudioSender
  sent : List FecPacket
  deriving Repr, DecidableEq

/-- `start_ns + (sample_offset as f64 / sample_rate as f64 * 1e9) as u64` -/
def ptsNs (build : Build) (fl : Floats) (startNs : UInt64) (w : Wav) (sampleOffset : UInt64) :
    Except Panic UInt64 :=
  (build.u64 (startNs.toNat + (fl.elapsedNs sampleOffset w.sampleRate).toNat)).map UInt64.ofNat

/-- One pass of the streaming loop. The result of `send_audio` is unwrapped. -/
def filePass (build : Build) (fl : Floats) (socket : UdpSocket) (startNs : UInt64) (w : Wav)
    (s : FileStream) : Pass FileStream (Except Panic FileStream) :=
  if s.offset < w.data.length then
    let packetBytes := SAMPLES_PER_PACKET * w.bytesPerSample
    let chunkBytes := min packetBytes (w.data.length - s.offset)
    let chunkSamples := chunkBytes / w.bytesPerSample
    let payload := slice w.data s.offset (s.offset + chunkBytes)
    match ptsNs build fl startNs w s.sampleOffset with
    | .error e => .stop (.error e)
    | .ok ptsNs =>
      let flags := if s.offset = 0 then PacketFlags.firstPacket else PacketFlags.empty
      match s.endpoint.sendAudio socket
        { streamId := 1, format := w.format, ptsNs, sampleOffset := s.sampleOffset, payload, flags }
      with
      | (_, .error _) => .stop (.error .expectFailed)
      | (endpoint, .ok packet) =>
        -- the seconds shown are `sample_offset / sample_rate as u64`
        if w.sampleRate = 0 then .stop (.error .divisionByZero)
        else .again
          { offset := s.offset + chunkBytes
            sampleOffset := s.sampleOffset + .ofNat chunkSamples
            endpoint
            sent := s.sent ++ [packet] }
  else .stop (.ok s)

/-- The packet after the last one. -/
def sendLast (build : Build) (fl : Floats) (socket : UdpSocket) (startNs : UInt64) (w : Wav)
    (s : FileStream) : Except Panic FecPacket := do
  let ptsNs ← ptsNs build fl startNs w s.sampleOffset
  match s.endpoint.sendAudio socket
    { streamId := 1, format := w.format, ptsNs, sampleOffset := s.sampleOffset, payload := []
      flags := PacketFlags.lastPacket } with
  | (_, .error _) => throw .expectFailed
  | (_, .ok packet) => return packet

/-- The packets of the file, in order. -/
def streamFile (build : Build) (fl : Floats) (socket : UdpSocket) (startNs : UInt64)
    (e : AudioSender) (w : Wav) : Except OutOfFuel (Except Panic (List FecPacket)) := do
  let streamed ← loop (filePass build fl socket startNs w) (w.data.length + 1)
    { offset := 0, sampleOffset := 0, endpoint := e, sent := [] }
  return streamed.bind fun s =>
    (sendLast build fl socket startNs w s).map fun last => s.sent ++ [last]

/-! ## The command -/

/-- What the command sends, when no control message fails: the control messages before
the stream, the packets, and the control message after it. -/
structure FileRun where
  before : List Message
  packets : List FecPacket
  after : Message
  deriving Repr, DecidableEq

def fileProposal (w : Wav) : FormatPropose :=
  { streamId := "file-stream", format := w.format, sampleRate := w.sampleRate
    channels := w.channels, channelLayout := .stereo, bitsPerSample := w.bitsPerSample
    dsdRate := none }

def fileMetadata (fl : Floats) (filename : String) (w : Wav) : TrackMetadata :=
  { title := filename, artist := "OAAT File Player", album := ""
    durationMs := fl.durationMs (w.data.length / w.bytesPerSample) w.sampleRate
    artworkUrl := none
    format := some ("PCM " ++ toString w.bitsPerSample ++ "/" ++ toString (w.sampleRate / 1000)) }

/-- The run that sends these packets. -/
def fileRun (fl : Floats) (filename : String) (w : Wav) (packets : List FecPacket) : FileRun :=
  { before := [.formatPropose (fileProposal w), .metadata (fileMetadata fl filename w),
      .play "file-stream"]
    packets
    after := .stop "file-stream" }

/-- `run_controller_file` on a connection, from the time `startNs` on. -/
def runControllerFile (build : Build) (fl : Floats) (socket : UdpSocket) (filename : String)
    (startNs : UInt64) (e : AudioSender) (w : Wav) : Except OutOfFuel (Except Panic FileRun) := do
  let packets ← streamFile build fl socket startNs e w
  return packets.map (fileRun fl filename w)

/-! ## The search -/

theorem slice_add (file : List UInt8) (off k : Nat) :
    slice file off (off + k) = (file.drop off).take k := by
  rw [slice, Nat.add_sub_cancel_left]

theorem slice_of_append {file a rest : List UInt8} {off k : Nat} (h : file.drop off = a ++ rest)
    (hk : a.length = k) : slice file off (off + k) = a := by
  rw [slice_add, take_drop_of_append h hk]

@[simp] theorem length_bytes_data : (bytes "data").length = 4 := rfl

section

variable {file rest : List UInt8} {off n : Nat}

/-- A pass, by the head that it finds. -/
theorem findPass_eq (hin : off + 8 < file.length) :
    findPass file off =
      if (file.drop off).take 4 = bytes "data" then
        .stop (off + 8, min (ofLe ((file.drop (off + 4)).take 4)) (file.length - (off + 8)))
      else .again (off + (8 + ofLe ((file.drop (off + 4)).take 4) +
        ofLe ((file.drop (off + 4)).take 4) % 2)) := by
  have hsize : slice file (off + 4) (off + 8) = (file.drop (off + 4)).take 4 :=
    slice_add file (off + 4) 4
  unfold findPass
  dsimp only
  rw [if_pos hin, slice_add, hsize]
  generalize ofLe ((file.drop (off + 4)).take 4) = n
  rcases Nat.mod_two_eq_zero_or_one n with hn | hn
  · rw [if_pos hn, hn]
    rfl
  · rw [if_neg (show ¬ n % 2 = 0 by omega), hn]
    rfl

/-- The search passes over another chunk. -/
theorem findPass_skip {c : Chunk} (h : file.drop off = c.encode ++ rest) (hne : rest ≠ [])
    (hid : c.id ≠ bytes "data") : findPass file off = .again (off + c.size) := by
  obtain ⟨hname, hsize, -⟩ := chunk_of_drop h
  have hlen := length_of_drop h (by simp [hne])
  rw [List.length_append, c.length_encode] at hlen
  have height := c.eight_le_size
  have hpos : 0 < rest.length := List.length_pos_iff.mpr hne
  rw [findPass_eq (by omega), hname, if_neg hid, hsize, Chunk.size]

/-- It stops at the data chunk, however long that says it is. -/
theorem findPass_data (h : file.drop off = bytes "data" ++ toLe 4 n ++ rest) (hn : n < 2 ^ 32)
    (hne : rest ≠ []) : findPass file off = .stop (off + 8, min n rest.length) := by
  obtain ⟨hname, hsize, -⟩ := head_of_drop length_bytes_data hn h
  have hlen := length_of_drop h (by simp [hne])
  simp only [List.length_append, length_bytes_data, length_toLe] at hlen
  have hpos : 0 < rest.length := List.length_pos_iff.mpr hne
  have hleft : file.length - (off + 8) = rest.length := by omega
  rw [findPass_eq (by omega), hname, if_pos rfl, hsize, hleft]

/-- The search goes over any number of other chunks. -/
theorem find_skips {chunks : List Chunk} (fuel : Nat)
    (h : file.drop off = chunks.flatMap Chunk.encode ++ rest) (hne : rest ≠ [])
    (hid : ∀ c ∈ chunks, c.id ≠ bytes "data") :
    ∃ off', loop (findPass file) (chunks.length + fuel) off = loop (findPass file) fuel off' ∧
      file.drop off' = rest := by
  induction chunks generalizing off with
  | nil => exact ⟨off, by simp, by simpa using h⟩
  | cons c chunks ih =>
    rw [List.flatMap_cons, List.append_assoc] at h
    obtain ⟨-, -, hnext⟩ := chunk_of_drop h
    have hpass := findPass_skip h (by simp [hne]) (hid c (by simp))
    obtain ⟨off', hloop, hdrop⟩ := ih hnext fun d hd => hid d (List.mem_cons_of_mem _ hd)
    refine ⟨off', ?_, hdrop⟩
    rw [List.length_cons, Nat.add_right_comm, loop_again _ hpass, hloop]

end

/-! ## The files that are played -/

/-- A RIFF file whose first chunk is `fmt `, with its data chunk and whatever comes
behind the head of that. -/
structure RiffFile where
  riffSize : List UInt8
  tag : List UInt8
  channels : UInt16
  sampleRate : UInt32
  /-- The byte rate and the block alignment. -/
  rates : List UInt8
  bits : UInt16
  extra : List UInt8
  chunks : List Chunk
  declared : UInt32
  rest : List UInt8
  length_riffSize : riffSize.length = 4
  length_tag : tag.length = 2
  length_rates : rates.length = 6
  length_extra : extra.length + 16 < 2 ^ 32
  noData : ∀ c ∈ chunks, c.id ≠ bytes "data"

namespace RiffFile

def fmt (f : RiffFile) : Chunk where
  id := bytes "fmt "
  body := f.tag ++ toLe 2 f.channels.toNat ++ toLe 4 f.sampleRate.toNat ++ f.rates ++
    toLe 2 f.bits.toNat ++ f.extra
  length_id := rfl
  length_body := by
    have hextra := f.length_extra
    simp only [List.length_append, f.length_tag, length_toLe, f.length_rates]
    omega

def encode (f : RiffFile) : List UInt8 :=
  bytes "RIFF" ++ (f.riffSize ++ (bytes "WAVE" ++ (f.fmt.encode ++
    (f.chunks.flatMap Chunk.encode ++ (bytes "data" ++ toLe 4 f.declared.toNat ++ f.rest)))))

/-- The audio: as much as the data chunk says, as far as the file goes. -/
def data (f : RiffFile) : List UInt8 := f.rest.take f.declared.toNat

/-- A `u16` of the header `as u8`. -/
def low (n : UInt16) : UInt8 := UInt8.ofNat n.toNat

theorem rest_ne_nil {f : RiffFile} (h : f.data ≠ []) : f.rest ≠ [] := by
  intro hnil
  simp [data, hnil] at h

theorem drop_twelve (f : RiffFile) :
    f.encode.drop 12 = f.fmt.encode ++
      (f.chunks.flatMap Chunk.encode ++ (bytes "data" ++ toLe 4 f.declared.toNat ++ f.rest)) := by
  have h0 : f.encode.drop 0 = bytes "RIFF" ++ (f.riffSize ++ (bytes "WAVE" ++ (f.fmt.encode ++
      (f.chunks.flatMap Chunk.encode ++
        (bytes "data" ++ toLe 4 f.declared.toNat ++ f.rest))))) := rfl
  have h4 : f.encode.drop (0 + 4) = _ := drop_of_append h0 rfl
  have h8 : f.encode.drop (0 + 4 + 4) = _ := drop_of_append h4 f.length_riffSize
  exact drop_of_append h8 rfl

theorem length_le_flatMap_encode (chunks : List Chunk) :
    chunks.length ≤ (chunks.flatMap Chunk.encode).length := by
  induction chunks with
  | nil => exact Nat.le_refl _
  | cons c chunks ih =>
    have height := c.eight_le_size
    rw [List.flatMap_cons, List.length_append, c.length_encode, List.length_cons]
    omega

/-- **The search finds the data chunk of every such file**, and what it finds are
the bytes of it that the file has. -/
theorem findData_encode {f : RiffFile} (h : f.data ≠ []) :
    ∃ dataOffset, findData f.encode = .ok (dataOffset, f.data.length) ∧
      slice f.encode dataOffset (dataOffset + f.data.length) = f.data := by
  have hdrop : f.encode.drop 12 = (f.fmt :: f.chunks).flatMap Chunk.encode ++
      (bytes "data" ++ toLe 4 f.declared.toNat ++ f.rest) := by
    rw [List.flatMap_cons, List.append_assoc]
    exact f.drop_twelve
  have hne : bytes "data" ++ toLe 4 f.declared.toNat ++ f.rest ≠ [] := by
    simp [rest_ne_nil h]
  have hid : ∀ c ∈ f.fmt :: f.chunks, c.id ≠ bytes "data" := by
    intro c hc
    rcases List.mem_cons.mp hc with rfl | hc
    · change bytes "fmt " ≠ bytes "data"
      decide
    · exact f.noData c hc
  obtain ⟨fuel, hfuel⟩ : ∃ fuel, f.encode.length + 1 = (f.fmt :: f.chunks).length + (fuel + 1) := by
    have hlen := length_of_drop hdrop (by simp [rest_ne_nil h])
    have hle := length_le_flatMap_encode (f.fmt :: f.chunks)
    rw [List.length_append] at hlen
    exact ⟨f.encode.length - (f.fmt :: f.chunks).length, by omega⟩
  obtain ⟨off, hloop, hoff⟩ := find_skips (fuel + 1) hdrop hne hid
  have hstop := findPass_data hoff f.declared.toNat_lt (rest_ne_nil h)
  have hlen : f.data.length = min f.declared.toNat f.rest.length := List.length_take
  obtain ⟨-, -, hbody⟩ := head_of_drop length_bytes_data f.declared.toNat_lt hoff
  refine ⟨off + 8, ?_, ?_⟩
  · rw [findData, hfuel, hloop, loop_stop fuel hstop, hlen]
  · rw [slice_add, hbody, hlen, data, ← List.take_eq_take_min]

/-! ### The fields of the header -/

theorem drop_twenty (f : RiffFile) : ∃ rest, f.encode.drop 20 =
    f.tag ++ (toLe 2 f.channels.toNat ++ (toLe 4 f.sampleRate.toNat ++ (f.rates ++
      (toLe 2 f.bits.toNat ++ rest)))) := by
  obtain ⟨tail, hfmt⟩ : ∃ tail, f.encode.drop 12 =
      f.fmt.id ++ (toLe 4 f.fmt.body.length ++ (f.fmt.body ++ tail)) := by
    refine ⟨List.replicate (f.fmt.body.length % 2) 0 ++ (f.chunks.flatMap Chunk.encode ++
      (bytes "data" ++ toLe 4 f.declared.toNat ++ f.rest)), f.drop_twelve.trans ?_⟩
    rw [Chunk.encode]
    simp only [List.append_assoc]
  have h16 : f.encode.drop (12 + 4) = _ := drop_of_append hfmt rfl
  have h20 : f.encode.drop (12 + 4 + 4) = _ := drop_of_append h16 (length_toLe 4 _)
  refine ⟨f.extra ++ tail, h20.trans ?_⟩
  simp only [fmt, List.append_assoc]

theorem header_encode (f : RiffFile) :
    ofLe (slice f.encode 22 24) = f.channels.toNat ∧
      ofLe (slice f.encode 24 28) = f.sampleRate.toNat ∧
      ofLe (slice f.encode 34 36) = f.bits.toNat := by
  obtain ⟨rest, h20⟩ := f.drop_twenty
  have h22 : f.encode.drop (20 + 2) = _ := drop_of_append h20 f.length_tag
  have h24 : f.encode.drop (20 + 2 + 2) = _ := drop_of_append h22 (length_toLe 2 _)
  have h28 : f.encode.drop (20 + 2 + 2 + 4) = _ := drop_of_append h24 (length_toLe 4 _)
  have h34 : f.encode.drop (20 + 2 + 2 + 4 + 6) = _ := drop_of_append h28 f.length_rates
  refine ⟨?_, ?_, ?_⟩
  · exact (congrArg ofLe (slice_of_append h22 (length_toLe 2 _))).trans
      (ofLe_toLe f.channels.toNat_lt)
  · exact (congrArg ofLe (slice_of_append h24 (length_toLe 4 _))).trans
      (ofLe_toLe f.sampleRate.toNat_lt)
  · exact (congrArg ofLe (slice_of_append h34 (length_toLe 2 _))).trans
      (ofLe_toLe f.bits.toNat_lt)

theorem isWav_encode {f : RiffFile} (h : f.data ≠ []) : isWav f.encode = true := by
  have h0 : f.encode.drop 0 = bytes "RIFF" ++ (f.riffSize ++ (bytes "WAVE" ++ (f.fmt.encode ++
      (f.chunks.flatMap Chunk.encode ++
        (bytes "data" ++ toLe 4 f.declared.toNat ++ f.rest))))) := rfl
  have h4 : f.encode.drop (0 + 4) = _ := drop_of_append h0 rfl
  have h8 : f.encode.drop (0 + 4 + 4) = _ := drop_of_append h4 f.length_riffSize
  have hriff : slice f.encode 0 4 = bytes "RIFF" := slice_of_append h0 rfl
  have hwave : slice f.encode 8 12 = bytes "WAVE" := slice_of_append h8 rfl
  have hlen := length_of_drop f.drop_twelve (by simp [rest_ne_nil h])
  have hrest : 0 < f.rest.length := List.length_pos_iff.mpr (rest_ne_nil h)
  have hfmt : 24 ≤ f.fmt.size := by
    simp only [Chunk.size, fmt, List.length_append, f.length_tag, length_toLe, f.length_rates]
    omega
  simp only [List.length_append, Chunk.length_encode, length_bytes_data, length_toLe] at hlen
  simp only [isWav, hriff, hwave, Bool.and_eq_true, decide_eq_true_eq, and_true]
  omega

/-- What a file with so many channels and bits holds. -/
def wav (f : RiffFile) (format : AudioFormat) : Wav :=
  { format, channels := low f.channels, sampleRate := f.sampleRate, bitsPerSample := low f.bits
    data := f.data }

/-- **A file is read as what was written**: the header's fields, cut to the types of
the program, and the audio. -/
theorem readWav_encode {f : RiffFile} {format : AudioFormat} (h : f.data ≠ [])
    (hsize : bytesPerSample (low f.bits) (low f.channels) ≠ 0)
    (hformat : wavFormat (low f.bits) = some format) :
    readWav f.encode = .ok (.ok (f.wav format)) := by
  obtain ⟨hchannels, hrate, hbits⟩ := f.header_encode
  obtain ⟨dataOffset, hfind, hslice⟩ := findData_encode h
  have hlen : f.data.length ≠ 0 := fun h0 => h (List.eq_nil_of_length_eq_zero h0)
  unfold readWav
  simp only [isWav_encode h, Bool.not_true, Bool.false_eq_true, if_false, hchannels, hrate, hbits,
    hfind, bind, Except.bind, if_neg hlen, hslice]
  rw [low] at hsize hformat
  simp only [low] at hsize
  rw [if_neg hsize, hformat]
  simp only [wav, low, UInt32.ofNat_toNat]
  rfl

end RiffFile

end Oaat.Cli
