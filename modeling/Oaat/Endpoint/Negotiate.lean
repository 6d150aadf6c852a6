/-
Oaat.Endpoint.Negotiate — the endpoint's verdict on a proposed format
(`oaat-endpoint/src/transport.rs`: `negotiate_format`, `best_rate_in_family`).

A verdict is one of `FormatAccept`, `FormatCounter` and `FormatReject`.
`negotiateFormat` always gives one, and always for the stream id that was
proposed.
-/
import Oaat.Core.Message

namespace Oaat.Endpoint

open Oaat.Core

/-- The highest sample rate in the same family that does not exceed `maxRate`. -/
def bestRateInFamily (proposedRate maxRate : UInt32) : UInt32 :=
  match SampleRateFamily.of proposedRate with
  | some family => (family.rates.reverse.find? fun r => r ≤ maxRate).getD (family.rates.headD 0)
  -- unknown family: clamp to the maximum
  | none => maxRate

def negotiateFormat (caps : EndpointCapabilities) (fp : FormatPropose) : Message :=
  if fp.format ∉ caps.formats then
    .formatReject
      { streamId := fp.streamId, reason := s!"unsupported format: {fp.format.display}" }
  else if fp.format.isPcm then
    let rateOk : Bool := fp.sampleRate ≤ caps.pcmMaxRate
    let bitsOk : Bool := fp.bitsPerSample ≤ caps.pcmMaxBits
    if rateOk && bitsOk then .formatAccept fp.streamId
    else
      .formatCounter
        { streamId := fp.streamId
          format := fp.format
          sampleRate :=
            if rateOk then fp.sampleRate else bestRateInFamily fp.sampleRate caps.pcmMaxRate
          channels := fp.channels
          channelLayout := fp.channelLayout
          bitsPerSample := if bitsOk then fp.bitsPerSample else caps.pcmMaxBits
          dsdRate := fp.dsdRate }
  else if fp.format.isDsd then
    match caps.dsdMaxRate with
    | none =>
      .formatReject { streamId := fp.streamId, reason := "DSD not supported (no dsd_max_rate)" }
    | some maxRate =>
      let requestedRate := fp.dsdRate.getD 64
      if requestedRate > maxRate then
        .formatReject
          { streamId := fp.streamId
            reason := s!"DSD rate {requestedRate}x exceeds max {maxRate}x" }
      else .formatAccept fp.streamId
  -- compressed formats in the supported list
  else .formatAccept fp.streamId

/-- The stream id that a verdict is about; `none` for any other message. -/
def verdictFor : Message → Option String
  | .formatAccept streamId => some streamId
  | .formatCounter fc => some fc.streamId
  | .formatReject fr => some fr.streamId
  | _ => none

def isFormatAccept : Message → Bool
  | .formatAccept _ => true
  | _ => false

@[simp] theorem verdictFor_negotiateFormat (caps : EndpointCapabilities) (fp : FormatPropose) :
    verdictFor (negotiateFormat caps fp) = some fp.streamId := by
  simp only [negotiateFormat]
  repeat' split
  all_goals rfl

theorem eq_formatAccept {msg : Message} {streamId : String} (h : isFormatAccept msg = true)
    (hv : verdictFor msg = some streamId) : msg = .formatAccept streamId := by
  cases msg <;> simp_all [isFormatAccept, verdictFor]

end Oaat.Endpoint
