/-
Oaat.Endpoint.WebUi — the control requests of the endpoint's web UI
(`oaat-endpoint/src/web_ui.rs`: `ControlPolicy`, `same_token`,
`handle_request`).

Header values, the token and the texts they are compared with are bytes, as on
the wire. Three things are arguments: what `HeaderValue::to_str` reads
(`HeaderStr`), what `serde_json` makes of the device request (`DeviceJson`), and
the rendered pages (`Pages`). A request's header names are in lower case, as
the header map keeps them. What a request puts on the two channels is a list,
empty when it puts nothing there.
-/
import Oaat.Lib.Text

namespace Oaat.WebUi

open Oaat.Lib.Text (trimBy stripPrefix)

abbrev Text : Type := List UInt8

def ascii (s : String) : Text := s.toList.map fun c => UInt8.ofNat c.toNat

/-! ## Addresses -/

def decimal (n : Nat) : Text := (Nat.toDigits 10 n).map fun c => UInt8.ofNat c.toNat

def lowerHex (n : Nat) : Text := (Nat.toDigits 16 n).map fun c => UInt8.ofNat c.toNat

structure Ipv4Addr where
  a : UInt8
  b : UInt8
  c : UInt8
  d : UInt8
  deriving Repr, DecidableEq

def Ipv4Addr.display (ip : Ipv4Addr) : Text :=
  decimal ip.a.toNat ++ ascii "." ++ decimal ip.b.toNat ++ ascii "." ++ decimal ip.c.toNat ++
    ascii "." ++ decimal ip.d.toNat

structure Ipv6Addr where
  segments : Vector UInt16 8
  deriving Repr, DecidableEq

namespace Ipv6Addr

/-- A run of segments: its start and its length. -/
structure Span where
  start : Nat
  len : Nat

/-- The longest run of zeros, the first of these. -/
def zeroes (segments : List UInt16) : Span :=
  (segments.zipIdx.foldl
    (fun spans segment =>
      if segment.1 = 0 then
        let current : Span :=
          { start := if spans.2.len = 0 then segment.2 else spans.2.start
            len := spans.2.len + 1 }
        (if current.len > spans.1.len then current else spans.1, current)
      else (spans.1, { start := 0, len := 0 }))
    (({ start := 0, len := 0 } : Span), ({ start := 0, len := 0 } : Span))).1

def displaySubslice (chunk : List UInt16) : Text :=
  (ascii ":").intercalate (chunk.map fun segment => lowerHex segment.toNat)

/-- `Display` of `std::net::Ipv6Addr`. -/
def display (ip : Ipv6Addr) : Text :=
  match ip.segments.toList with
  | [0, 0, 0, 0, 0, 0xffff, ab, cd] =>
    ascii "::ffff:" ++
      Ipv4Addr.display
        { a := (ab >>> 8).toUInt8, b := ab.toUInt8, c := (cd >>> 8).toUInt8, d := cd.toUInt8 }
  | segments =>
    let span := zeroes segments
    if span.len > 1 then
      displaySubslice (segments.take span.start) ++ ascii "::" ++
        displaySubslice (segments.drop (span.start + span.len))
    else displaySubslice segments

end Ipv6Addr

inductive SocketAddr where
  | v4 (ip : Ipv4Addr) (port : UInt16)
  | v6 (ip : Ipv6Addr) (port : UInt16) (scopeId : UInt32)
  deriving Repr, DecidableEq

namespace SocketAddr

def port : SocketAddr → UInt16
  | v4 _ port => port
  | v6 _ port _ => port

/-- The address in front of the port. -/
def hostText : SocketAddr → Text
  | v4 ip _ => ip.display
  | v6 ip _ scopeId =>
    ascii "[" ++ ip.display ++ (if scopeId = 0 then [] else ascii "%" ++ decimal scopeId.toNat) ++
      ascii "]"

def portText (addr : SocketAddr) : Text := ascii ":" ++ decimal addr.port.toNat

/-- `to_string` -/
def display (addr : SocketAddr) : Text := addr.hostText ++ addr.portText

/-- `ip().is_loopback()` -/
def isLoopback : SocketAddr → Bool
  | v4 ip _ => ip.a = 127
  | v6 ip _ _ => ip.segments.toList = [0, 0, 0, 0, 0, 0, 0, 1]

end SocketAddr

/-! ## Texts -/

/-- The ASCII characters that `trim` removes. -/
def isWhitespace (b : UInt8) : Bool := 9 ≤ b && b ≤ 13 || b = 32

def trim (t : Text) : Text := trimBy isWhitespace t

def toAsciiLowercase (b : UInt8) : UInt8 := if 65 ≤ b && b ≤ 90 then b + 32 else b

def eqIgnoreAsciiCase (s t : Text) : Bool := s.map toAsciiLowercase = t.map toAsciiLowercase

/-- `split(';').next()` -/
def beforeSemicolon (t : Text) : Text := t.takeWhile fun b => b ≠ 59

/-- The suffix is removed as often as it is there. -/
def trimEndMatches (tail t : Text) : Text := go t.length t
where
  go : Nat → Text → Text
    | 0, t => t
    | n + 1, t => if tail.isSuffixOf t then go n (t.take (t.length - tail.length)) else t

/-- Every byte is compared, whichever differs first. -/
def sameToken (expected supplied : Text) : Bool :=
  if expected.length ≠ supplied.length then false
  else (expected.zip supplied).foldl (fun diff p => diff ||| (p.1 ^^^ p.2)) 0 = 0

/-! ## Requests -/

/-- `HeaderValue::to_str`: the text of a header value, if it has one. -/
structure HeaderStr where
  toStr : Text → Option Text
  same : ∀ v t, toStr v = some t → t = v

inductive Method where
  | get
  | post
  | other (name : String)
  deriving Repr, DecidableEq

structure Request where
  method : Method
  path : String
  headers : List (String × Text)
  /-- `none` when it cannot be read to its end. -/
  body : Option Text
  deriving Repr, DecidableEq

/-- The values of a header, in order. -/
def Request.getAll (req : Request) (name : String) : List Text :=
  (req.headers.filter fun h => h.1 = name).map fun h => h.2

abbrev StatusCode : Type := Nat

namespace StatusCode

def UNAUTHORIZED : StatusCode := 401
def FORBIDDEN : StatusCode := 403
def NOT_FOUND : StatusCode := 404
def UNSUPPORTED_MEDIA_TYPE : StatusCode := 415

end StatusCode

structure ControlPolicy where
  listener : SocketAddr
  peer : SocketAddr
  token : Option Text
  deriving Repr, DecidableEq

section

variable (str : HeaderStr)

/-- `Ok(None)`: header absent; `Err`: repeated or without a text. -/
def header (req : Request) (name : String) : Except StatusCode (Option Text) :=
  match req.getAll name with
  | [] => .ok none
  | [first] =>
    match str.toStr first with
    | some t => .ok (some t)
    | none => .error .FORBIDDEN
  | _ => .error .FORBIDDEN

def oneHeader (req : Request) (name : String) : Option Text :=
  match header str req name with
  | .ok v => v
  | .error _ => none

namespace ControlPolicy

def checkSameOrigin (policy : ControlPolicy) (origin host : Text) : Except StatusCode Unit :=
  let authority := policy.listener.display
  let localhost := ascii "localhost:" ++ decimal policy.listener.port.toNat
  let numericHost :=
    if policy.listener.port = 80 then trimEndMatches (ascii ":80") authority else authority
  -- the host alone is not trusted: a name can be made to point at loopback
  if host ≠ authority ∧ host ≠ numericHost ∧
      ¬ (policy.listener.isLoopback = true ∧
        (host = localhost ∨ policy.listener.port = 80 ∧ host = ascii "localhost")) then
    .error .FORBIDDEN
  else
    let originHost := if policy.listener.port = 80 then trimEndMatches (ascii ":80") host else host
    if origin ≠ ascii "http://" ++ originHost ∧ origin ≠ ascii "http://" ++ host then
      .error .FORBIDDEN
    else .ok ()

/-- The origin, if there is one, is the page itself, on this listener. -/
def checkOrigin (policy : ControlPolicy) (req : Request) : Except StatusCode Unit := do
  match ← header str req "origin" with
  | none => return ()
  | some origin =>
    match ← header str req "host" with
    | none => throw .FORBIDDEN
    | some host => policy.checkSameOrigin origin host

def isJson (req : Request) : Bool :=
  ((oneHeader str req "content-type").map beforeSemicolon).any fun v =>
    eqIgnoreAsciiCase (trim v) (ascii "application/json")

def checkToken (policy : ControlPolicy) (req : Request) : Except StatusCode Unit :=
  match policy.token with
  | some expected =>
    match (oneHeader str req "authorization").bind (stripPrefix (ascii "Bearer ")) with
    | none => .error .UNAUTHORIZED
    | some supplied =>
      if expected = [] ∨ sameToken expected supplied = false then .error .UNAUTHORIZED
      else .ok ()
  | none => if policy.peer.isLoopback = false then .error .FORBIDDEN else .ok ()

def authorize (policy : ControlPolicy) (req : Request) : Except StatusCode Unit := do
  policy.checkOrigin str req
  if isJson str req = false then throw .UNSUPPORTED_MEDIA_TYPE
  policy.checkToken str req

end ControlPolicy

/-! ## Replies -/

/-- The rendered status, as a page and as JSON. -/
structure Pages where
  html : String
  statusJson : String

/-- `serde_json` on the device request: the string under `"device"`, and the reply
that repeats it. -/
structure DeviceJson where
  device : Text → Option String
  reply : String → String

/-- Whether the receivers of the two channels are there; there may be no release
channel. -/
structure Channels where
  device : Bool
  release : Option Bool

/-- What is put on a channel. -/
inductive Sent where
  | device (name : String)
  | release
  deriving Repr, DecidableEq

structure Response where
  status : StatusCode
  contentType : Option String
  body : String
  deriving Repr, DecidableEq

def Response.json (status : StatusCode) (body : String) : Response :=
  { status, contentType := some "application/json", body }

def isControlPath (path : String) : Bool := path = "/api/device" || path = "/api/release"

/-- What a request that is let through does. -/
def dispatch (json : DeviceJson) (pages : Pages) (channels : Channels) (req : Request) :
    Response × List Sent :=
  if req.method = .post ∧ req.path = "/api/release" ∧ channels.release.isSome then
    if channels.release = some true then (.json 200 "\x7b\"ok\":true\x7d", [.release])
    else (.json 503 "\x7b\"ok\":false,\"error\":\"endpoint not running\"\x7d", [])
  else if req.method = .get ∧ (req.path = "/" ∨ req.path = "/index.html") then
    ({ status := 200, contentType := some "text/html; charset=utf-8", body := pages.html }, [])
  else if req.method = .get ∧ req.path = "/api/status" then (.json 200 pages.statusJson, [])
  else if req.method = .post ∧ req.path = "/api/device" then
    match json.device (req.body.getD []) with
    | some name =>
      if name ≠ "" then
        (.json 200 (json.reply name), if channels.device then [.device name] else [])
      else (.json 400 "\x7b\"ok\":false,\"error\":\"missing device name\"\x7d", [])
    | none => (.json 400 "\x7b\"ok\":false,\"error\":\"missing device name\"\x7d", [])
  else ({ status := .NOT_FOUND, contentType := none, body := "Not Found" }, [])

def handleRequest (json : DeviceJson) (pages : Pages) (channels : Channels)
    (policy : ControlPolicy) (req : Request) : Response × List Sent :=
  let control : Bool := req.method = .post && isControlPath req.path
  match control, policy.authorize str req with
  | true, .error code =>
    (.json code "\x7b\"ok\":false,\"error\":\"control request rejected\"\x7d", [])
  | _, _ => dispatch json pages channels req

end

end Oaat.WebUi
