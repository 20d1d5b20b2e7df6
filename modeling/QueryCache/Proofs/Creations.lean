import QueryCache.Engine.Update
import QueryCache.Proofs.Actions

/-!
# How a creation may go

A creation hands an entity back, whether it succeeds or fails. It is no action therefore, and the
rules for actions stop short of it. What it can do is said here once: `creates_iff`.
-/

namespace QueryCache.Backend

open QueryCache.Action

variable {σ ι ε : Type} {backend : Backend σ ι ε} {ctx : Context} {entity : ε} {s : σ}

/-- The ways in which a creation may go, and how it ends. -/
inductive Creates (backend : Backend σ ι ε) (ctx : Context) (entity : ε) (s : σ) :
    (Except Error Unit × ε) × σ → Prop where
  | stopped {e checked} (check : backend.check ctx s = (.error e, checked)) :
      Creates backend ctx entity s ((.error e, entity), checked)
  | unoffered {checked} (check : backend.check ctx s = (.ok (), checked))
      (nothing : backend.source.create = none) :
      Creates backend ctx entity s ((.error (.capabilityMissing .create), entity), checked)
  | refused {checked create e stored done} (check : backend.check ctx s = (.ok (), checked))
      (offered : backend.source.create = some create)
      (created : create ctx entity checked = ((.error e, stored), done)) :
      Creates backend ctx entity s ((.error e, stored), done)
  | made {checked create stored made outcome done}
      (check : backend.check ctx s = (.ok (), checked))
      (offered : backend.source.create = some create)
      (created : create ctx entity checked = ((.ok (), stored), made))
      (copied : backend.copyNew ctx stored made = (outcome, done)) :
      Creates backend ctx entity s ((outcome, stored), done)

theorem creates_create (backend : Backend σ ι ε) (ctx : Context) (entity : ε) (s : σ) :
    backend.Creates ctx entity s (backend.create ctx entity s) := by
  unfold create
  rcases check : backend.check ctx s with ⟨e | ⟨⟩, checked⟩
  · simp only [bind_of_error check]
    exact .stopped check
  cases offer : backend.source.create with
  | none =>
      simp only [bind_of_ok check, liftM_apply, require]
      exact .unoffered check offer
  | some create =>
      simp only [bind_of_ok check, liftM_apply, require]
      rcases created : create ctx entity checked with ⟨⟨e | ⟨⟩, stored⟩, done⟩
      · exact .refused check offer created
      · exact .made check offer created rfl

theorem creates_iff {ended : (Except Error Unit × ε) × σ} :
    backend.Creates ctx entity s ended ↔ backend.create ctx entity s = ended := by
  constructor
  · intro creates
    unfold create
    cases creates with
    | stopped check => simp only [bind_of_error check]
    | unoffered check nothing => simp only [bind_of_ok check, liftM_apply, require, nothing]
    | refused check offered created =>
        simp only [bind_of_ok check, liftM_apply, require, offered, created]
    | made check offered created copied =>
        simp only [bind_of_ok check, liftM_apply, require, offered, created, copied]
  · rintro rfl
    exact creates_create backend ctx entity s

end QueryCache.Backend
