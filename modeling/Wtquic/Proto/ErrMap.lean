-- SUMMARY: HTTP/3 error codes and the application error mapping.
import Wtquic.Proto.Varint

namespace Wtquic

/-! # Error codes

The constants of `h3_err.h` and the mapping of `errmap.c`. -/

namespace H3Err

def noError : Nat := 0x0100
def internalError : Nat := 0x0102
def streamCreationError : Nat := 0x0103
def closedCriticalStream : Nat := 0x0104
def frameUnexpected : Nat := 0x0105
def frameError : Nat := 0x0106
def excessiveLoad : Nat := 0x0107
def idError : Nat := 0x0108
def settingsError : Nat := 0x0109
def missingSettings : Nat := 0x010a
def requestRejected : Nat := 0x010b
def requestIncomplete : Nat := 0x010d
def messageError : Nat := 0x010e
def datagramError : Nat := 0x33
def qpackDecompressionFailed : Nat := 0x0200
def qpackEncoderStreamError : Nat := 0x0201
def qpackDecoderStreamError : Nat := 0x0202

/-- `WTQ_WT_BUFFERED_STREAM_REJECTED`. -/
def wtBufferedStreamRejected : Nat := 0x3994bd84

/-- `WTQ_WT_SESSION_GONE`. -/
def wtSessionGone : Nat := 0x170d7b68

end H3Err

namespace ErrMap

/-- `WTQ_H3_APP_ERROR_FIRST`. -/
def appErrorFirst : Nat := 0x52e4a40fa8db

/-- `WTQ_H3_APP_ERROR_LAST`. -/
def appErrorLast : Nat := appErrorFirst + 0xffffffff + 0xffffffff / 0x1e

/-- `wtq_app_error_to_h3`. -/
def appErrorToH3 (app : UInt32) : Nat :=
  appErrorFirst + app.toNat + app.toNat / 0x1e

/-- `wtq_h3_error_to_app`; `none` for NOT_FOUND. -/
def h3ErrorToApp (h3 : Nat) : Option UInt32 :=
  if h3 < appErrorFirst ∨ h3 > appErrorLast then none
  else
    let shifted := h3 - appErrorFirst
    let n := shifted - shifted / 0x1f
    if n > 0xffffffff ∨ appErrorToH3 (UInt32.ofNat n) ≠ h3 then none
    else some (UInt32.ofNat n)

/-! ## The mapping and its inverse -/

/-- Every thirty application codes one wire code is left out. -/
theorem appErrorToH3_lt {a b : UInt32} : a < b ↔ appErrorToH3 a < appErrorToH3 b := by
  rw [UInt32.lt_iff_toNat_lt]
  unfold appErrorToH3
  omega

theorem appErrorToH3_range (a : UInt32) :
    appErrorFirst ≤ appErrorToH3 a ∧ appErrorToH3 a ≤ appErrorLast := by
  have ha := a.toNat_lt
  unfold appErrorToH3 appErrorLast
  omega

/-- The codes that are left out are the reserved ones. -/
theorem appErrorToH3_ne_grease (a : UInt32) (n : Nat) : appErrorToH3 a ≠ 0x1f * n + 0x21 := by
  unfold appErrorToH3 appErrorFirst
  omega

theorem h3ErrorToApp_appErrorToH3 (a : UInt32) : h3ErrorToApp (appErrorToH3 a) = some a := by
  have ha := a.toNat_lt
  have hrange := appErrorToH3_range a
  have hshift : appErrorToH3 a - appErrorFirst - (appErrorToH3 a - appErrorFirst) / 0x1f
      = a.toNat := by
    unfold appErrorToH3
    omega
  unfold h3ErrorToApp
  rw [if_neg (by omega)]
  dsimp only
  rw [hshift, UInt32.ofNat_toNat, if_neg]
  simp only [ne_eq, not_true_eq_false, or_false]
  omega

/-- A code has an inverse only if it is an image. -/
theorem appErrorToH3_of_h3ErrorToApp {h3 : Nat} {a : UInt32} (h : h3ErrorToApp h3 = some a) :
    appErrorToH3 a = h3 := by
  unfold h3ErrorToApp at h
  split at h
  · cases h
  dsimp only at h
  split at h
  · cases h
  · next hback =>
    cases h
    simpa using (not_or.mp hback).2

/-- The application codes map strictly upwards into their range, past the reserved codes, and
the inverse is defined on the image only. -/
theorem app_error_codes :
    (∀ a : UInt32, appErrorFirst ≤ appErrorToH3 a ∧ appErrorToH3 a ≤ appErrorLast ∧
      appErrorToH3 a < 2 ^ 64 ∧ (∀ n, appErrorToH3 a ≠ 0x1f * n + 0x21) ∧
      h3ErrorToApp (appErrorToH3 a) = some a) ∧
    (∀ a b : UInt32, a < b ↔ appErrorToH3 a < appErrorToH3 b) ∧
    ∀ h3 : UInt64, (h3ErrorToApp h3.toNat).isSome ↔ ∃ a, appErrorToH3 a = h3.toNat := by
  refine ⟨fun a => ?_, fun a b => appErrorToH3_lt, fun h3 => ?_⟩
  · obtain ⟨hfirst, hlast⟩ := appErrorToH3_range a
    have hfits : appErrorToH3 a < 2 ^ 64 := Nat.lt_of_le_of_lt hlast (by decide)
    exact ⟨hfirst, hlast, hfits, appErrorToH3_ne_grease a, h3ErrorToApp_appErrorToH3 a⟩
  · constructor
    · intro h
      obtain ⟨a, ha⟩ := Option.isSome_iff_exists.mp h
      exact ⟨a, appErrorToH3_of_h3ErrorToApp ha⟩
    · rintro ⟨a, ha⟩
      rw [← ha, h3ErrorToApp_appErrorToH3]
      rfl

end ErrMap
end Wtquic
