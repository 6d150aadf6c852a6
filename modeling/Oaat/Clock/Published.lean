/-
Oaat.Clock.Published — the offset as the audio path reads it.

`SharedClock` publishes the filtered offset rounded to whole nanoseconds and
cut to an `i64`. In every state of the exchange a clock that says it is
bootstrapped publishes an offset within half the largest RTT, and half a
nanosecond, of the true one (`Reachable.offset_near`). Both conversions keep
that distance as long as no operation on them saturates.
-/
import Oaat.Clock.Accuracy

namespace Oaat.Clock

open Oaat.Core Oaat.Endpoint Oaat.Lib

/-! ## Rounding -/

theorem abs_roundNs_sub (q : ℚ) : |(roundNs q : ℚ) - q| ≤ 1 / 2 := by
  unfold roundNs
  split
  next =>
    have hlo := Int.lt_floor_add_one (q + 1 / 2)
    have hhi := Int.floor_le (q + 1 / 2)
    rw [abs_le]
    constructor <;> linarith
  next =>
    have hlo := Int.ceil_lt_add_one (q - 1 / 2)
    have hhi := Int.le_ceil (q - 1 / 2)
    rw [abs_le]
    constructor <;> linarith

/-! ## What is published -/

section

variable {o : ℤ} {s : Net o}

theorem Reachable.published (h : Reachable s) : Published s.clock := by
  obtain ⟨now, hrun⟩ := h
  induction hrun with
  | refl => exact published_new
  | tail _ hstep ih =>
    cases hstep with
    | tick | request | arrive | answer => exact ih
    | receive d => exact ih.receive d _ _
    | other d => exact ih.receive d _ _

/-- A clock that is bootstrapped has accepted an exchange. -/
theorem Reachable.accepted (h : Reachable s) (hboot : s.clock.bootstrapped = true) :
    s.accepted ≠ [] := by
  intro hnil
  have hpub := h.published
  rw [hpub.bootstrapped, ClockState.isBootstrapped, h.sound.fresh hnil, hpub.count] at hboot
  cases hboot

/-- How far the published offset may be off: half the largest RTT, and the rounding. -/
def Net.error (s : Net o) : ℚ := largest s.accepted / 2 + 1 / 2

theorem Reachable.offset_near (h : Reachable s) (hboot : s.clock.bootstrapped = true) :
    |(roundNs s.clock.state.offsetNs : ℚ) - o| ≤ s.error := by
  have hround := abs_roundNs_sub s.clock.state.offsetNs
  have hbound := h.sound.bound (h.accepted hboot)
  calc |(roundNs s.clock.state.offsetNs : ℚ) - o|
      ≤ |(roundNs s.clock.state.offsetNs : ℚ) - s.clock.state.offsetNs|
        + |s.clock.state.offsetNs - o| := abs_sub_le _ _ _
    _ ≤ s.error := by rw [Net.error]; linarith

end

/-! ## The conversions -/

section

variable {c : SharedClock} {ns : UInt64}

/-- A timestamp below 2^63, that is until the year 2262, keeps its value. -/
theorem asI64_of_lt (h : ns.toNat < 2 ^ 63) : asI64 ns = ns.toNat := by
  obtain ⟨k, hk, hlo, hhi⟩ := wrap64 ns.toNat
  unfold asI64
  generalize (ns.toNat : Int).bmod (2 ^ 64) = v at *
  omega

/-- A conversion to a value in range is that value. -/
theorem toNat_asU64 {v : Int} (hlo : 0 ≤ v) (hhi : v < 2 ^ 63) :
    ((asU64 (max (SharedClock.saturate v) 0)).toNat : ℤ) = v := by
  rw [asU64, UInt64.toNat_ofNat', SharedClock.saturate, Nat.mod_eq_of_lt (by omega)]
  omega

/-- What a conversion shows, away from zero and the end of the range, is exact. -/
theorem toNat_asU64_inv {v : Int} (hlo : 0 < (asU64 (max (SharedClock.saturate v) 0)).toNat)
    (hhi : (asU64 (max (SharedClock.saturate v) 0)).toNat < 2 ^ 63 - 1) :
    ((asU64 (max (SharedClock.saturate v) 0)).toNat : ℤ) = v := by
  rw [asU64, UInt64.toNat_ofNat', SharedClock.saturate] at *
  rw [Nat.mod_eq_of_lt (by omega)] at *
  omega

/-- A controller time that is converted in range is converted with the exact
published offset. -/
theorem controllerToLocal_eq (hpub : Published c) (hns : ns.toNat < 2 ^ 63)
    (hlo : 0 < (c.controllerToLocal ns).toNat) (hhi : (c.controllerToLocal ns).toNat < 2 ^ 63 - 1) :
    ((c.controllerToLocal ns).toNat : ℤ) = ns.toNat - roundNs c.state.offsetNs := by
  have hexact := toNat_asU64_inv hlo hhi
  have hclamp : SharedClock.saturate (roundNs c.state.offsetNs) =
      max (-2 ^ 63) (min (roundNs c.state.offsetNs) (2 ^ 63 - 1)) := rfl
  rw [asI64_of_lt hns, hpub.offset, hclamp] at hexact
  rw [SharedClock.controllerToLocal, asI64_of_lt hns, hpub.offset, hclamp] at hlo hhi ⊢
  omega

/-- So is a local time whose controller time is in range. -/
theorem localToController_eq (hpub : Published c) (hns : ns.toNat < 2 ^ 63)
    (hlo : 0 ≤ ns.toNat + roundNs c.state.offsetNs)
    (hhi : ns.toNat + roundNs c.state.offsetNs < 2 ^ 63) :
    ((c.localToController ns).toNat : ℤ) = ns.toNat + roundNs c.state.offsetNs := by
  have hclamp : SharedClock.saturate (roundNs c.state.offsetNs) = roundNs c.state.offsetNs := by
    unfold SharedClock.saturate
    omega
  rw [SharedClock.localToController, asI64_of_lt hns, hpub.offset, hclamp]
  exact toNat_asU64 hlo hhi

end

/-! ## One instant, read through the exchange -/

section

variable {o : ℤ} {s : Net o}

/-- The published offset is never off by more than half a second. -/
theorem Reachable.error_le (h : Reachable s) : s.error ≤ 500_000_000 + 1 / 2 := by
  have hmax : largest s.accepted ≤ 1_000_000_000 := largest_le (by norm_num) h.sound.recent
  rw [Net.error]
  linarith

/-- The endpoint reads the controller's time off its own clock. -/
theorem Reachable.localToController_near (h : Reachable s) (hboot : s.clock.bootstrapped = true)
    (hlocal : s.now.localNs.toNat < 2 ^ 63) (hlo : 1_000_000_000 ≤ s.now.controllerNs.toNat)
    (hhi : s.now.controllerNs.toNat + 1_000_000_000 < 2 ^ 63) :
    (s.clock.localToController s.now.localNs).toNat < 2 ^ 63 ∧
      |((s.clock.localToController s.now.localNs).toNat : ℚ) - s.now.controllerNs.toNat| ≤
        s.error := by
  have hoffset := s.now.offset
  have hnear := h.offset_near hboot
  have hle : |(roundNs s.clock.state.offsetNs : ℚ) - o| ≤ 600_000_000 := by
    linarith [h.error_le]
  -- the same over the integers
  obtain ⟨hdown, hup⟩ : -600_000_000 ≤ roundNs s.clock.state.offsetNs - o ∧
      roundNs s.clock.state.offsetNs - o ≤ 600_000_000 := by
    exact_mod_cast abs_le.mp hle
  have hexact := localToController_eq h.published hlocal (by omega) (by omega)
  refine ⟨by omega, ?_⟩
  have hdiff : ((s.clock.localToController s.now.localNs).toNat : ℤ) - s.now.controllerNs.toNat =
      roundNs s.clock.state.offsetNs - o := by omega
  have hcast := congrArg (fun z : ℤ => (z : ℚ)) hdiff
  simp only [Int.cast_sub, Int.cast_natCast] at hcast
  rw [hcast]
  exact hnear

end

/-! ## Whole exchanges -/

section

variable {o : ℤ} {s : Net o} {t2 t3 t4 : Instant o}

/-- A request that is answered and comes back, with nothing in between. -/
def Net.exchange (s : Net o) (t2 t3 t4 : Instant o) : Net o :=
  let request := clockRequest s.sequence s.now.localNs
  let response := respond request t2.controllerNs t3.controllerNs
  let asked := { s.request with now := t2 }.arrive request.encode
  let answered := { asked with now := t3 }.answer request.encode t2.controllerNs
  { answered with now := t4 }.receive response.encode

theorem Reachable.exchange (h : Reachable s) (hfree : s.inService = none)
    (h2 : s.now.localNs ≤ t2.localNs) (h3 : t2.localNs ≤ t3.localNs)
    (h4 : t3.localNs ≤ t4.localNs) : Reachable (s.exchange t2 t3 t4) := by
  obtain ⟨now, hrun⟩ := h
  refine ⟨now, .tail (.tail (.tail (.tail (.tail (.tail (.tail hrun .request) (.tick t2 h2))
    (.arrive _ ?_ hfree)) (.tick t3 h3)) (.answer _ _ rfl)) (.tick t4 h4)) (.receive _ ?_)⟩
  · simp [Net.request]
  · have hanswers : ∀ a b, responderReceive (clockRequest s.sequence s.now.localNs).encode a b =
        some (respond (clockRequest s.sequence s.now.localNs) a b) := by
      intro a b
      rw [responderReceive, @clockPacket_encode (clockRequest s.sequence s.now.localNs) rfl]
      rfl
    simp [Net.answer, Net.arrive, hanswers]

@[simp] theorem Net.exchange_inService (s : Net o) (t2 t3 t4 : Instant o) :
    (s.exchange t2 t3 t4).inService = none := rfl

@[simp] theorem Net.exchange_now (s : Net o) (t2 t3 t4 : Instant o) :
    (s.exchange t2 t3 t4).now = t4 := rfl

end

end Oaat.Clock
