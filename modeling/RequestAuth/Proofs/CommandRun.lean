import RequestAuth.Command.Run
import RequestAuth.Proofs.Attempt
import RequestAuth.Proofs.NonceDraw
import RequestAuth.Proofs.Resolution

namespace RequestAuth

theorem Credential.outcome_built_log (c : Credential) (method : Http.Method) (body : Bytes)
    (host : Host) (log : List Event) :
    ((c.attempt method body).built { host with log }).outcome =
      ((c.attempt method body).built host).outcome := by
  by_cases hc : c.isSigning
  · simp only [Attempt.built, attempt, outcome_build hc, Host.draw_none]
    rfl
  · simp only [Attempt.built, attempt, outcome_build_of_not_isSigning hc]

namespace Command

open RequestAuth.Configuration

def authenticated (options : Options) (host : Host) (c : Credential) :
    Except Trouble HeaderSet := do
  let method ← methodOf options.method
  ((c.attempt method (Bytes.ofText options.body)).built host).outcome.mapError .authenticating

def Outcome.ofHeaders : Except Trouble HeaderSet → Outcome
  | .ok set => printed set
  | .error trouble => failed trouble

def concluded (options : Options) (host : Host) (resolved : Except Failure Credential) : Outcome :=
  .ofHeaders (resolved.mapError .building >>= authenticated options host)

section Stages

variable {options : Options} {files : Files} {file : Configuration} {trouble : Trouble}

theorem headers_of_load_error (h : load files options.config = .error trouble) (host : Host) :
    (headers options files host).1 = .error trouble := by
  rw [headers, h]

/-- The stages come one after the other, and what is logged on the way has no bearing on them. -/
theorem headers_of_load (h : load files options.config = .ok file) (host : Host) :
    (headers options files host).1 =
      (Client.resolve (merge options file)).mapError .building >>= authenticated options host := by
  have hlog (replaced : Bool) :
      ∃ log, (if replaced then host.record replacementEvent else host) = { host with log } := by
    cases replaced <;> exact ⟨_, rfl⟩
  rw [headers, h]
  dsimp only
  obtain ⟨log, hl⟩ := hlog (file.hasKey &&
    (options.xpriv.isSome || options.xpub.isSome || options.accessKey.isSome))
  rw [hl, Client.ofConfiguration_some]
  cases Client.resolve (merge options file) with
  | error failure => rfl
  | ok c =>
    change _ = authenticated options host c
    rw [authenticated]
    cases methodOf options.method with
    | error trouble => rfl
    | ok method =>
      let attempt := c.attempt method (Bytes.ofText options.body)
      have hb : (attempt.built { host with log := log ++ [Client.resolvedEvent c] }).outcome =
          (attempt.built host).outcome := c.outcome_built_log method _ host _
      change _ = (attempt.built host).outcome.mapError Trouble.authenticating
      rw [← hb]
      dsimp only [Functor.map, Except.map, Client.opened]
      split
      · next ho => exact (congrArg (Except.mapError _) ho).symm
      · next ho => exact (congrArg (Except.mapError _) ho).symm

theorem fst_run {arguments : List String} {environment : Environment}
    (hp : Options.parse? arguments environment = some options) (files : Files) (host : Host) :
    (run arguments environment files host).1 = .ofHeaders (headers options files host).1 := by
  rw [run, hp]
  dsimp only
  split
  · next hh => rw [hh, Outcome.ofHeaders]
  · next hh => rw [hh, Outcome.ofHeaders]

theorem fst_run_of_load {arguments : List String} {environment : Environment}
    (hp : Options.parse? arguments environment = some options)
    (hl : load files options.config = .ok file) (host : Host) :
    (run arguments environment files host).1 =
      concluded options host (Client.resolve (merge options file)) := by
  rw [fst_run hp, headers_of_load hl, concluded]

end Stages

end Command

end RequestAuth
