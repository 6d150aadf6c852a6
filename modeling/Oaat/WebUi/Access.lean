/-
Oaat.WebUi.Access — who may control the endpoint through its web UI.

A control request needs an origin that is the page itself (or none), a JSON
content type, and the token (or, without one, a loopback peer): `Permitted`
says so of the bytes of the headers, without the code's texts and status codes.
Nothing is put on the channels without `authorize`. The main theorem says when
`authorize` is exactly `Permitted`: it also refuses a permitted request whose
content type or authorization `HeaderValue::to_str` does not read, which it
takes for "not valid UTF-8".
-/
import Oaat.Endpoint.WebUi
import Mathlib.Tactic.Tauto

namespace Oaat.WebUi

open Oaat.Lib.Text (stripPrefix_eq_some)

/-! ## What is permitted -/

/-- The value has a text. -/
def HeaderStr.Reads (str : HeaderStr) (v : Text) : Prop := (str.toStr v).isSome = true

/-- The host is this listener: its socket address, or localhost with its port on
loopback; port 80 may be left out. -/
def NamesListener (listener : SocketAddr) (host : Text) : Prop :=
  host = listener.display ∨ listener.port = 80 ∧ host = listener.hostText ∨
    listener.isLoopback = true ∧
      (host = ascii "localhost:" ++ decimal listener.port.toNat ∨
        listener.port = 80 ∧ host = ascii "localhost")

/-- The origin is the page on that host; port 80 may be stripped. -/
def IsPageOf (listener : SocketAddr) (origin host : Text) : Prop :=
  origin = ascii "http://" ++ host ∨
    listener.port = 80 ∧ ∃ name, host = name ++ ascii ":80" ∧ origin = ascii "http://" ++ name

def OriginPermitted (str : HeaderStr) (policy : ControlPolicy) (req : Request) : Prop :=
  req.getAll "origin" = [] ∨
    ∃ origin host, req.getAll "origin" = [origin] ∧ req.getAll "host" = [host] ∧
      str.Reads origin ∧ str.Reads host ∧
      NamesListener policy.listener host ∧ IsPageOf policy.listener origin host

def JsonContent (req : Request) : Prop :=
  ∃ v, req.getAll "content-type" = [v] ∧
    eqIgnoreAsciiCase (trim (beforeSemicolon v)) (ascii "application/json") = true

/-- The configured token, or a peer on this host. -/
def Trusted (policy : ControlPolicy) (req : Request) : Prop :=
  match policy.token with
  | some token => token ≠ [] ∧ req.getAll "authorization" = [ascii "Bearer " ++ token]
  | none => policy.peer.isLoopback = true

def Permitted (str : HeaderStr) (policy : ControlPolicy) (req : Request) : Prop :=
  OriginPermitted str policy req ∧ JsonContent req ∧ Trusted policy req

/-! ## Texts -/

section

variable {tail s t : Text}

theorem trimEndMatches_go (h : ¬ tail <:+ t) (n : Nat) : trimEndMatches.go tail n t = t := by
  cases n with
  | zero => rfl
  | succ n => rw [trimEndMatches.go, if_neg (mt List.isSuffixOf_iff_suffix.mp h)]

/-- Nothing to trim. -/
theorem trimEndMatches_of_not (h : ¬ tail <:+ t) : trimEndMatches tail t = t :=
  trimEndMatches_go h t.length

/-- One suffix to trim. -/
theorem trimEndMatches_append (h : ¬ tail <:+ t) (htail : tail ≠ []) :
    trimEndMatches tail (t ++ tail) = t := by
  have hsuffix : tail.isSuffixOf (t ++ tail) = true :=
    List.isSuffixOf_iff_suffix.mpr (List.suffix_append t tail)
  have hpos : 0 < tail.length := List.length_pos_iff.mpr htail
  obtain ⟨n, hn⟩ : ∃ n, (t ++ tail).length = n + 1 := by
    refine ⟨t.length + tail.length - 1, ?_⟩
    rw [List.length_append]
    omega
  have hcut : (t ++ tail).take ((t ++ tail).length - tail.length) = t := by
    rw [List.length_append, Nat.add_sub_cancel, List.take_left]
  rw [trimEndMatches, hn, trimEndMatches.go, if_pos hsuffix, hcut]
  exact trimEndMatches_go h n

/-- The fold keeps every difference that it has met. -/
theorem fold_or_eq_zero (pairs : List (UInt8 × UInt8)) (diff : UInt8) :
    pairs.foldl (fun diff p => diff ||| (p.1 ^^^ p.2)) diff = 0 ↔
      diff = 0 ∧ ∀ p ∈ pairs, p.1 = p.2 := by
  induction pairs generalizing diff with
  | nil => simp
  | cons p pairs ih =>
    rw [List.foldl_cons, ih, List.forall_mem_cons, UInt8.or_eq_zero_iff, UInt8.xor_eq_zero_iff,
      and_assoc]

theorem sameToken_iff : sameToken s t = true ↔ s = t := by
  unfold sameToken
  split
  next hlen =>
    refine iff_of_false Bool.false_ne_true ?_
    rintro rfl
    exact hlen rfl
  next hlen =>
    rw [decide_eq_true_eq, fold_or_eq_zero, and_iff_right rfl]
    constructor
    · intro hall
      refine List.ext_getElem (not_not.mp hlen) ?_
      intro i hi hi'
      have hlt : i < (s.zip t).length := by
        rw [List.length_zip]
        omega
      have hpair := hall _ (List.getElem_mem hlt)
      rwa [List.getElem_zip] at hpair
    · rintro rfl p hp
      obtain ⟨i, hi, rfl⟩ := List.mem_iff_getElem.mp hp
      simp

end

/-! ## The listener's texts -/

/-- A port in front of the end. -/
theorem colon_mem_of_suffix {t : Text} (h : ascii ":80" <:+ t) : (58 : UInt8) ∈ t :=
  h.subset (by decide)

theorem not_colon_mem_decimal (n : Nat) : (58 : UInt8) ∉ decimal n := by
  intro hmem
  obtain ⟨c, hc, hcolon⟩ := List.mem_map.mp hmem
  have hdigit := Nat.isDigit_of_mem_toDigits (by omega) (by omega) hc
  have hrange : 48 ≤ c.toNat ∧ c.toNat ≤ 57 := by
    simpa [Char.isDigit, UInt32.le_iff_toNat_le] using hdigit
  have hval := congrArg UInt8.toNat hcolon
  have h58 : c.toNat % 256 = 58 := by simpa using hval
  omega

theorem not_colon_mem_v4 (ip : Ipv4Addr) : (58 : UInt8) ∉ ip.display := by
  have hdot : (58 : UInt8) ∉ ascii "." := by decide
  simp only [Ipv4Addr.display, List.mem_append, not_or]
  exact ⟨⟨⟨⟨⟨⟨not_colon_mem_decimal _, hdot⟩, not_colon_mem_decimal _⟩, hdot⟩,
    not_colon_mem_decimal _⟩, hdot⟩, not_colon_mem_decimal _⟩

/-- The port is not part of the address: an IPv4 address has no colon, and an IPv6
address ends in its bracket. -/
theorem not_suffix_hostText (listener : SocketAddr) : ¬ ascii ":80" <:+ listener.hostText := by
  cases listener with
  | v4 ip port => exact fun h => not_colon_mem_v4 ip (colon_mem_of_suffix h)
  | v6 ip port scopeId =>
    rintro ⟨front, hfront⟩
    have hlast := congrArg List.getLast? hfront
    have hbracket : (ascii "[" ++ ip.display ++
        (if scopeId = 0 then [] else ascii "%" ++ decimal scopeId.toNat) ++
        ascii "]").getLast? = some 93 := by
      rw [List.getLast?_append]
      rfl
    have hzero : (front ++ ascii ":80").getLast? = some 48 := by
      rw [List.getLast?_append]
      rfl
    rw [hzero] at hlast
    exact absurd (hlast.trans hbracket) (by decide)

theorem portText_eighty {listener : SocketAddr} (h : listener.port = 80) :
    listener.portText = ascii ":80" := by
  rw [SocketAddr.portText, h]
  decide +kernel

theorem trimEndMatches_display {listener : SocketAddr} (h : listener.port = 80) :
    trimEndMatches (ascii ":80") listener.display = listener.hostText := by
  rw [SocketAddr.display, portText_eighty h]
  exact trimEndMatches_append (not_suffix_hostText listener) (by decide)

/-- What the two names of the listener without the port are trimmed to. -/
theorem trimEndMatches_host {listener : SocketAddr} {host : Text} (h : listener.port = 80)
    (hhost : NamesListener listener host) :
    trimEndMatches (ascii ":80") host = host ∧ ¬ ascii ":80" <:+ host ∨
      host = trimEndMatches (ascii ":80") host ++ ascii ":80" := by
  have hlocal : ¬ ascii ":80" <:+ ascii "localhost" := by decide +kernel
  have hport : ascii "localhost:" ++ decimal listener.port.toNat =
      ascii "localhost" ++ ascii ":80" := by
    rw [h]
    decide +kernel
  rcases hhost with rfl | ⟨-, rfl⟩ | ⟨-, rfl | ⟨-, rfl⟩⟩
  · refine .inr ?_
    rw [trimEndMatches_display h, ← portText_eighty h]
    rfl
  · have hnot := not_suffix_hostText listener
    exact .inl ⟨trimEndMatches_of_not hnot, hnot⟩
  · refine .inr ?_
    rw [hport, trimEndMatches_append hlocal (by decide)]
  · exact .inl ⟨trimEndMatches_of_not hlocal, hlocal⟩

theorem namesListener_iff (listener : SocketAddr) (host : Text) :
    NamesListener listener host ↔
      ¬ (host ≠ listener.display ∧
        host ≠ (if listener.port = 80 then trimEndMatches (ascii ":80") listener.display
          else listener.display) ∧
        ¬ (listener.isLoopback = true ∧
          (host = ascii "localhost:" ++ decimal listener.port.toNat ∨
            listener.port = 80 ∧ host = ascii "localhost"))) := by
  unfold NamesListener
  by_cases hport : listener.port = 80
  · rw [if_pos hport, trimEndMatches_display hport]
    tauto
  · rw [if_neg hport]
    tauto

theorem isPageOf_iff {listener : SocketAddr} {host : Text} (hhost : NamesListener listener host)
    (origin : Text) :
    IsPageOf listener origin host ↔
      ¬ (origin ≠ ascii "http://" ++
          (if listener.port = 80 then trimEndMatches (ascii ":80") host else host) ∧
        origin ≠ ascii "http://" ++ host) := by
  unfold IsPageOf
  by_cases hport : listener.port = 80
  · rw [if_pos hport]
    rcases trimEndMatches_host hport hhost with ⟨hsame, hnot⟩ | hsplit
    · have hnone : ¬ ∃ name, host = name ++ ascii ":80" ∧ origin = ascii "http://" ++ name := by
        rintro ⟨name, rfl, -⟩
        exact hnot (List.suffix_append name (ascii ":80"))
      rw [hsame]
      tauto
    · have hone : (∃ name, host = name ++ ascii ":80" ∧ origin = ascii "http://" ++ name) ↔
          origin = ascii "http://" ++ trimEndMatches (ascii ":80") host := by
        constructor
        · rintro ⟨name, hname, rfl⟩
          rw [List.append_cancel_right (hsplit.symm.trans hname)]
        · intro horigin
          exact ⟨_, hsplit, horigin⟩
      rw [hone]
      tauto
  · rw [if_neg hport]
    tauto

theorem ite_error_iff {c : Prop} [Decidable c] {code : StatusCode} :
    (if c then (.error code : Except StatusCode Unit) else .ok ()) = .ok () ↔ ¬ c := by
  split
  next hc => exact iff_of_false (fun h => by cases h) (not_not.mpr hc)
  next hc => exact iff_of_true rfl hc

theorem checkSameOrigin_iff (policy : ControlPolicy) (origin host : Text) :
    policy.checkSameOrigin origin host = .ok () ↔
      NamesListener policy.listener host ∧ IsPageOf policy.listener origin host := by
  unfold ControlPolicy.checkSameOrigin
  dsimp only
  by_cases hhost : NamesListener policy.listener host
  · rw [if_neg ((namesListener_iff policy.listener host).mp hhost), ite_error_iff,
      ← isPageOf_iff hhost, and_iff_right hhost]
  · rw [if_pos (not_not.mp (mt (namesListener_iff policy.listener host).mpr hhost))]
    exact iff_of_false (fun h => by cases h) fun h => hhost h.1

/-! ## Headers -/

section

variable {str : HeaderStr} {policy : ControlPolicy} {req : Request} {name : String} {v : Text}

theorem toStr_eq_some {t : Text} : str.toStr v = some t ↔ t = v ∧ str.Reads v := by
  constructor
  · intro h
    exact ⟨str.same v t h, by rw [HeaderStr.Reads, h]; rfl⟩
  · rintro ⟨rfl, hreads⟩
    obtain ⟨t', ht'⟩ := Option.isSome_iff_exists.mp hreads
    rw [ht', str.same t t' ht']

theorem header_eq_none : header str req name = .ok none ↔ req.getAll name = [] := by
  unfold header
  split
  next h => exact iff_of_true rfl h
  next first h =>
    refine iff_of_false ?_ (by rw [h]; exact List.cons_ne_nil _ _)
    split
    next => exact fun hsome => by cases hsome
    next => exact fun herror => by cases herror
  next hnil _ => exact iff_of_false (fun herror => by cases herror) hnil

theorem header_eq_some {t : Text} :
    header str req name = .ok (some t) ↔ req.getAll name = [t] ∧ str.Reads t := by
  unfold header
  split
  next h =>
    rw [h]
    exact iff_of_false (fun hnone => by cases hnone) fun hone => by cases hone.1
  next first h =>
    rw [h]
    split
    next t' ht' =>
      obtain ⟨rfl, hreads⟩ := toStr_eq_some.mp ht'
      constructor
      · intro hsome
        cases hsome
        exact ⟨rfl, hreads⟩
      · rintro ⟨hone, -⟩
        cases hone
        rfl
    next hnone =>
      refine iff_of_false (fun herror => by cases herror) ?_
      rintro ⟨hone, hreads⟩
      cases hone
      rw [HeaderStr.Reads, hnone] at hreads
      cases hreads
  next hnil hone =>
    refine iff_of_false (fun herror => by cases herror) ?_
    rintro ⟨hall, -⟩
    exact hone t hall

theorem oneHeader_eq_some {t : Text} :
    oneHeader str req name = some t ↔ req.getAll name = [t] ∧ str.Reads t := by
  rw [← header_eq_some, oneHeader]
  cases header str req name with
  | ok found => simp
  | error code => simp

/-! ## The three checks -/

theorem checkOrigin_iff :
    policy.checkOrigin str req = .ok () ↔ OriginPermitted str policy req := by
  unfold ControlPolicy.checkOrigin OriginPermitted
  cases horigin : header str req "origin" with
  | error code =>
    refine iff_of_false (fun h => by cases h) ?_
    rintro (hnone | ⟨origin, host, hone, -, hreads, -⟩)
    · rw [header_eq_none.mpr hnone] at horigin
      cases horigin
    · rw [header_eq_some.mpr ⟨hone, hreads⟩] at horigin
      cases horigin
  | ok found =>
    cases found with
    | none => exact iff_of_true rfl (.inl (header_eq_none.mp horigin))
    | some origin =>
      obtain ⟨hone, hreads⟩ := header_eq_some.mp horigin
      have hpermitted : (req.getAll "origin" = [] ∨
          ∃ origin host, req.getAll "origin" = [origin] ∧ req.getAll "host" = [host] ∧
            str.Reads origin ∧ str.Reads host ∧
            NamesListener policy.listener host ∧ IsPageOf policy.listener origin host) ↔
          ∃ host, (req.getAll "host" = [host] ∧ str.Reads host) ∧
            NamesListener policy.listener host ∧ IsPageOf policy.listener origin host := by
        rw [hone]
        constructor
        · rintro (hnil | ⟨origin', host, hsame, hhost, -, hhostReads, hrest⟩)
          · cases hnil
          · cases hsame
            exact ⟨host, ⟨hhost, hhostReads⟩, hrest⟩
        · rintro ⟨host, ⟨hhost, hhostReads⟩, hrest⟩
          exact .inr ⟨origin, host, rfl, hhost, hreads, hhostReads, hrest⟩
      rw [hpermitted]
      cases hhost : header str req "host" with
      | error code =>
        refine iff_of_false (fun h => by cases h) ?_
        rintro ⟨host, hthere, -⟩
        rw [header_eq_some.mpr hthere] at hhost
        cases hhost
      | ok found =>
        cases found with
        | none =>
          refine iff_of_false (fun h => by cases h) ?_
          rintro ⟨host, hthere, -⟩
          rw [header_eq_some.mpr hthere] at hhost
          cases hhost
        | some host =>
          have hthere := header_eq_some.mp hhost
          show policy.checkSameOrigin origin host = .ok () ↔ _
          rw [checkSameOrigin_iff]
          constructor
          · intro hrest
            exact ⟨host, hthere, hrest⟩
          · rintro ⟨host', hthere', hrest⟩
            rw [hthere.1] at hthere'
            cases hthere'.1
            exact hrest

theorem isJson_iff :
    ControlPolicy.isJson str req = true ↔
      JsonContent req ∧ ∀ v ∈ req.getAll "content-type", str.Reads v := by
  unfold ControlPolicy.isJson JsonContent
  rw [Option.any_map, Option.any_eq_true]
  constructor
  · rintro ⟨v, hone, hjson⟩
    obtain ⟨hall, hreads⟩ := oneHeader_eq_some.mp hone
    refine ⟨⟨v, hall, hjson⟩, ?_⟩
    rw [hall]
    exact List.forall_mem_singleton.mpr hreads
  · rintro ⟨⟨v, hall, hjson⟩, hreads⟩
    rw [hall] at hreads
    exact ⟨v, oneHeader_eq_some.mpr ⟨hall, List.forall_mem_singleton.mp hreads⟩, hjson⟩

theorem checkToken_iff :
    policy.checkToken str req = .ok () ↔
      Trusted policy req ∧
        (policy.token.isSome = true → ∀ v ∈ req.getAll "authorization", str.Reads v) := by
  unfold ControlPolicy.checkToken Trusted
  cases policy.token with
  | none =>
    cases policy.peer.isLoopback with
    | true => simp
    | false => simp
  | some token =>
    dsimp only
    split
    next hnone =>
      refine iff_of_false (fun h => by cases h) ?_
      rintro ⟨⟨-, hall⟩, hreads⟩
      have hone : oneHeader str req "authorization" = some (ascii "Bearer " ++ token) := by
        refine oneHeader_eq_some.mpr ⟨hall, hreads rfl _ ?_⟩
        rw [hall]
        exact List.mem_singleton_self _
      rw [hone, Option.bind_some, stripPrefix_eq_some.mpr rfl] at hnone
      cases hnone
    next supplied hsupplied =>
      obtain ⟨v, hone, hstrip⟩ := Option.bind_eq_some_iff.mp hsupplied
      obtain ⟨hall, hreads⟩ := oneHeader_eq_some.mp hone
      obtain rfl := stripPrefix_eq_some.mp hstrip
      rw [ite_error_iff, not_or, Bool.not_eq_false, sameToken_iff, hall, List.cons.injEq,
        and_iff_left rfl, List.append_cancel_left_eq, List.forall_mem_singleton]
      constructor
      · rintro ⟨hne, rfl⟩
        exact ⟨⟨hne, rfl⟩, fun _ => hreads⟩
      · rintro ⟨⟨hne, rfl⟩, -⟩
        exact ⟨hne, rfl⟩

/-! ## Requests -/

/-- What `to_str` has to read. -/
def Readable (str : HeaderStr) (policy : ControlPolicy) (req : Request) : Prop :=
  (∀ v ∈ req.getAll "content-type", str.Reads v) ∧
    (policy.token.isSome = true → ∀ v ∈ req.getAll "authorization", str.Reads v)

theorem authorize_iff :
    policy.authorize str req = .ok () ↔ Permitted str policy req ∧ Readable str policy req := by
  have hparts : policy.authorize str req = .ok () ↔
      policy.checkOrigin str req = .ok () ∧ ControlPolicy.isJson str req = true ∧
        policy.checkToken str req = .ok () := by
    unfold ControlPolicy.authorize
    cases policy.checkOrigin str req with
    | error code => exact iff_of_false (fun h => by cases h) fun h => by cases h.1
    | ok u =>
      cases ControlPolicy.isJson str req with
      | false => exact iff_of_false (fun h => by cases h) fun h => by cases h.2.1
      | true => exact ⟨fun h => ⟨rfl, rfl, h⟩, fun h => h.2.2⟩
  rw [hparts, checkOrigin_iff, isJson_iff, checkToken_iff, Permitted, Readable]
  tauto

/-- The path of the request that puts it there. -/
def Sent.path : Sent → String
  | .device _ => "/api/device"
  | .release => "/api/release"

/-- Nothing is put on a channel but by its own request. -/
theorem mem_dispatch {json : DeviceJson} {pages : Pages} {channels : Channels} {m : Sent}
    (hm : m ∈ (dispatch json pages channels req).2) :
    req.method = .post ∧ req.path = m.path := by
  unfold dispatch at hm
  split at hm
  next hrelease =>
    split at hm
    next =>
      cases List.mem_singleton.mp hm
      exact ⟨hrelease.1, hrelease.2.1⟩
    next => cases hm
  next =>
    split at hm
    next => cases hm
    next =>
      split at hm
      next => cases hm
      next =>
        split at hm
        next hdevice =>
          split at hm
          next name _ =>
            split at hm
            next =>
              dsimp only at hm
              split at hm
              next =>
                cases List.mem_singleton.mp hm
                exact hdevice
              next => cases hm
            next => cases hm
          next => cases hm
        next => cases hm

theorem mem_handleRequest {json : DeviceJson} {pages : Pages} {channels : Channels} {m : Sent}
    (hm : m ∈ (handleRequest str json pages channels policy req).2) :
    req.method = .post ∧ req.path = m.path ∧ policy.authorize str req = .ok () := by
  unfold handleRequest at hm
  dsimp only at hm
  split at hm
  next => cases hm
  next hlet =>
    obtain ⟨hpost, hpath⟩ := mem_dispatch hm
    have hcontrol : (decide (req.method = .post) && isControlPath req.path) = true := by
      rw [hpost, hpath]
      cases m with
      | device name => rfl
      | release => rfl
    refine ⟨hpost, hpath, ?_⟩
    cases hauthorize : policy.authorize str req with
    | ok u => rfl
    | error code => exact absurd hauthorize (hlet code hcontrol)

end

/-- Nothing is put on the channels without authorization, and authorization is
exactly what is permitted. -/
def ControlExact (str : HeaderStr) (json : DeviceJson) (pages : Pages) (channels : Channels)
    (policy : ControlPolicy) (req : Request) : Prop :=
  (∀ m ∈ (handleRequest str json pages channels policy req).2,
    req.method = .post ∧ req.path = m.path ∧ policy.authorize str req = .ok ()) ∧
    (policy.authorize str req = .ok () ↔ Permitted str policy req)

/-- **Control of the endpoint is exact**, but for the permitted requests whose
content type or authorization has no text to `to_str`; these are refused. -/
theorem control_exact_iff (str : HeaderStr) (json : DeviceJson) (pages : Pages)
    (channels : Channels) (policy : ControlPolicy) (req : Request) :
    ControlExact str json pages channels policy req ↔
      (Permitted str policy req → Readable str policy req) := by
  have hsafe : ∀ m ∈ (handleRequest str json pages channels policy req).2,
      req.method = .post ∧ req.path = m.path ∧ policy.authorize str req = .ok () :=
    fun m hm => mem_handleRequest hm
  rw [ControlExact, and_iff_right hsafe, authorize_iff]
  tauto

/-- `to_str` as it is documented: visible ASCII characters and tabs. -/
def visibleAscii : HeaderStr where
  toStr v := if v.all (fun b => 32 ≤ b && b < 127 || b = 9) then some v else none
  same v t h := by
    split at h
    next => exact (Option.some.inj h).symm
    next => cases h

/-- A listener with the token "clé" (in UTF-8). -/
def guarded : ControlPolicy :=
  { listener := .v4 { a := 192, b := 168, c := 1, d := 20 } 9741
    peer := .v4 { a := 192, b := 168, c := 1, d := 4 } 43210
    token := some (ascii "cl" ++ [0xC3, 0xA9]) }

/-- A release request that carries it. -/
def releaseWithToken : Request :=
  { method := .post, path := "/api/release", body := some []
    headers :=
      [("host", ascii "192.168.1.20:9741"), ("content-type", ascii "application/json"),
       ("authorization", ascii "Bearer cl" ++ [0xC3, 0xA9])] }

/-- The token is refused. -/
theorem token_refused :
    Permitted visibleAscii guarded releaseWithToken ∧
      guarded.authorize visibleAscii releaseWithToken = .error 401 ∧
      ¬ ControlExact visibleAscii { device := fun _ => none, reply := id }
        { html := "", statusJson := "" } { device := true, release := some true } guarded
        releaseWithToken := by
  have hpermitted : Permitted visibleAscii guarded releaseWithToken := by
    refine ⟨.inl (by decide +kernel), ⟨ascii "application/json", ?_, ?_⟩, ?_, ?_⟩
    · decide +kernel
    · decide +kernel
    · decide +kernel
    · decide +kernel
  have hrefused : guarded.authorize visibleAscii releaseWithToken = .error 401 := by
    decide +kernel
  refine ⟨hpermitted, hrefused, ?_⟩
  intro hexact
  have hok := hexact.2.mpr hpermitted
  rw [hrefused] at hok
  cases hok

end Oaat.WebUi
