import Mathlib
import GeoPartition.Settings.Basic

/-!
# Settings field by field

Settings that are put together field by field are the settings that the fields were taken from.
Every notation reads its documents in this way, and checks what it has read.
-/

namespace GeoPartition.Settings

/-- Puts one setting of `s` into `t`. -/
def putField (s : Settings) : Field → Settings → Settings
  | .precision, t => { t with precision := s.precision }
  | .maxFeatures, t => { t with maxFeatures := s.maxFeatures }
  | .parallel, t => { t with parallel := s.parallel }
  | .skipInvalid, t => { t with skipInvalid := s.skipInvalid }

theorem foldl_putField (s t : Settings) : Field.all.foldl (fun t f => s.putField f t) t = s := rfl

theorem Field.nodup_all : Field.all.Nodup := by
  decide

/-! ## Checking what was read -/

section

variable {ε : Type} {f : Error → ε} {s : Settings}

theorem checked_eq_ok_iff {t : Settings} :
    (s.check.mapError f >>= fun _ => pure s) = .ok t ↔ s.check = .ok () ∧ t = s := by
  cases s.check <;> simp [Except.mapError, bind, Except.bind, pure, Except.pure, eq_comm]

theorem checked_eq_error_iff (hf : Function.Injective f) {e : Error} :
    (s.check.mapError f >>= fun _ => pure s) = .error (f e) ↔ s.check = .error e := by
  cases s.check <;> simp [Except.mapError, bind, Except.bind, pure, Except.pure, hf.eq_iff]

end

end GeoPartition.Settings
