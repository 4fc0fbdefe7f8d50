import PersonalTrade.Execution.UpstoxAuth
import PersonalTrade.Library.Interleaving

/-!
# Logins under way

The command `pt auth upstox-login` of `cli.py` in steps. Any number of commands may be under way at
once: they share the row of the token, which each of them writes in its last step. Callbacks may
come from anybody. `live_token_iff` says which token a live `pt run` starts with.
-/

namespace PersonalTrade

/-- The login that a command makes: its secrets, its time-out and the state that it draws. -/
structure LoginAttempt where
  secrets : Secrets
  timeoutSeconds : ℚ
  state : String

/-- Where a `pt auth upstox-login` command stands. -/
inductive LoginPhase where
  | idle
  | waiting (attempt : LoginAttempt) (credentials : Credentials)
  | exchanging (attempt : LoginAttempt) (request : TokenRequest)
  | obtained (attempt : LoginAttempt) (token : String)
  | ended

/-- What happens to the command: it starts, its listener closes, the token endpoint answers what
was posted, the token is saved, or the command dies. -/
inductive LoginStep where
  | started (attempt : LoginAttempt)
  | called (callback : Callback)
  | answered (request : TokenRequest) (answer : TokenAnswer)
  | saved (now : ℤ) (iv : ℕ)
  | killed

/-- The checks of the command before it logs in. -/
def Secrets.credentials (secrets : Secrets) : Except CliExit Credentials :=
  match secrets.upstoxApiKey, secrets.upstoxApiSecret with
  | some apiKey, some apiSecret =>
      if secrets.ptTokenEncryptionKey.isSome then
        .ok { apiKey, apiSecret, redirectUri := secrets.upstoxRedirectUri }
      else .error .encryptionKeyNotSet
  | _, _ => .error .apiKeysNotSet

section Logins

variable {Key Cipher : Type} (fernet : Fernet Key Cipher)

/-- One step of the command. A redirect URI of another host is refused before any listener opens,
and a key that is none of Fernet's kills the command when it would save. -/
def LoginPhase.step : LoginPhase → LoginStep → Option LoginPhase
  | .idle, .started attempt => some <|
      match attempt.secrets.credentials with
      | .error _ => .ended
      | .ok credentials =>
          if credentials.redirectUri.isLocalhost then .waiting attempt credentials else .ended
  | .waiting attempt credentials, .called callback => some <|
      match authorize credentials attempt.timeoutSeconds attempt.state callback with
      | .error _ => .ended
      | .ok request => .exchanging attempt request
  | .exchanging attempt request, .answered posted answer =>
      if posted = request then some <|
        match exchangeCodeForToken answer with
        | .error _ => .ended
        | .ok token => .obtained attempt token
      else none
  | .obtained attempt token, .saved _ iv =>
      (encryptToken fernet attempt.secrets iv token).toOption.map fun _ => .ended
  | .waiting _ _, .killed | .exchanging _ _, .killed | .obtained _ _, .killed => some .ended
  | _, _ => none

/-- The row that a step writes. -/
def LoginPhase.saves : LoginPhase → LoginStep → Option (Option (UpstoxToken Cipher))
  | .obtained attempt token, .saved now iv =>
      (encryptToken fernet attempt.secrets iv token).toOption.map fun encrypted =>
        some (savedToken encrypted now)
  | _, _ => none

def LoginStep.Saves : LoginStep → Prop
  | saved _ _ => True
  | _ => False

/-- The login commands, over the row that they share. -/
def loginProcess : Process LoginPhase LoginStep (Option (UpstoxToken Cipher)) where
  step := LoginPhase.step fernet
  Writes := LoginStep.Saves
  written := LoginPhase.saves fernet
  isSome_written {state next label} taken := by
    cases state <;> cases label <;>
      simp_all [LoginPhase.step, LoginPhase.saves, LoginStep.Saves, Option.isSome_iff_exists]

/-- No command has started, and no token is stored. -/
def noLogins (Cipher : Type) : Interleaved ℕ LoginPhase (Option (UpstoxToken Cipher)) where
  states := fun _ => .idle
  cell := none

/-- The own steps of a command that has obtained a token: its one callback carried its state and a
code, and the token endpoint answered the code with the token. -/
structure Obtains (own : List LoginStep) (attempt : LoginAttempt) (credentials : Credentials)
    (query : List (String × String)) (code token : String) : Prop where
  steps : own = [.started attempt, .called (.get query),
    .answered (credentials.tokenRequest code) (.ok (.object (some token)))]
  checked : attempt.secrets.credentials = .ok credentials
  isLocalhost : credentials.redirectUri.isLocalhost = true
  accepted : queryField "error" query = none
  state : queryField "state" query = some attempt.state
  code : queryField "code" query = some code

/-- What the own steps of a command say about where it stands. -/
inductive LoginPhase.Explained : List LoginStep → LoginPhase → Prop where
  | idle : Explained [] .idle
  | waiting {attempt : LoginAttempt} {credentials : Credentials}
      (checked : attempt.secrets.credentials = .ok credentials)
      (isLocal : credentials.redirectUri.isLocalhost = true) :
      Explained [.started attempt] (.waiting attempt credentials)
  | exchanging {attempt : LoginAttempt} {credentials : Credentials} {callback : Callback}
      {request : TokenRequest} (checked : attempt.secrets.credentials = .ok credentials)
      (authorized : authorize credentials attempt.timeoutSeconds attempt.state callback =
        .ok request) :
      Explained [.started attempt, .called callback] (.exchanging attempt request)
  | obtained {own : List LoginStep} {attempt : LoginAttempt} {credentials : Credentials}
      {query : List (String × String)} {code token : String}
      (obtains : Obtains own attempt credentials query code token) :
      Explained own (.obtained attempt token)
  | ended {own : List LoginStep} : Explained own .ended

variable {fernet}

namespace LoginPhase

variable {own : List LoginStep} {phase next : LoginPhase} {label : LoginStep}

theorem Explained.step (explained : Explained own phase)
    (taken : phase.step fernet label = some next) : Explained (own ++ [label]) next := by
  cases explained with
  | idle =>
      cases label with
      | started attempt =>
          rw [← Option.some.inj taken]
          cases checked : attempt.secrets.credentials with
          | error _ => exact .ended
          | ok credentials =>
              simp only
              split_ifs with isLocal
              · exact .waiting checked isLocal
              · exact .ended
      | _ => cases taken
  | @waiting attempt credentials checked isLocal =>
      cases label with
      | called callback =>
          rw [← Option.some.inj taken]
          cases authorized : authorize credentials attempt.timeoutSeconds attempt.state callback with
          | error _ => exact .ended
          | ok request => exact .exchanging checked authorized
      | killed =>
          rw [← Option.some.inj taken]
          exact .ended
      | _ => cases taken
  | @exchanging attempt credentials callback request checked authorized =>
      cases label with
      | answered posted answer =>
          simp only [LoginPhase.step] at taken
          split_ifs at taken with same
          rw [← Option.some.inj taken]
          cases exchanged : exchangeCodeForToken answer with
          | error _ => exact .ended
          | ok token =>
              rcases authorize_eq_ok.mp authorized with
                ⟨isLocal, query, code, rfl, accepted, state, given, rfl⟩
              refine .obtained ⟨?_, checked, isLocal, accepted, state, given⟩
              rw [same, exchangeCodeForToken_eq_ok.mp exchanged]
              rfl
      | killed =>
          rw [← Option.some.inj taken]
          exact .ended
      | _ => cases taken
  | obtained obtains =>
      cases label with
      | saved now iv =>
          rcases Option.map_eq_some_iff.mp taken with ⟨_, _, rfl⟩
          exact .ended
      | killed =>
          rw [← Option.some.inj taken]
          exact .ended
      | _ => cases taken
  | ended => cases label <;> cases taken

theorem explained_of_alone (ran : (loginProcess fernet).alone .idle own = some phase) :
    Explained own phase := by
  induction own using List.reverseRecOn generalizing phase with
  | nil =>
      rw [← Option.some.inj ran]
      exact .idle
  | append_singleton own label ih =>
      rw [Process.alone, List.foldlM_append] at ran
      rcases Option.bind_eq_some_iff.mp ran with ⟨earlier, before, last⟩
      exact (ih before).step ((bind_pure _).symm.trans last)

end LoginPhase

theorem obtained_iff {own : List LoginStep} {attempt : LoginAttempt} {token : String} :
    (loginProcess fernet).alone .idle own = some (.obtained attempt token) ↔
      ∃ credentials query code, Obtains own attempt credentials query code token := by
  constructor
  · intro ran
    cases LoginPhase.explained_of_alone ran with
    | obtained obtains => exact ⟨_, _, _, obtains⟩
  · rintro ⟨credentials, query, code, obtains⟩
    have authorized : authorize credentials attempt.timeoutSeconds attempt.state (.get query) =
        .ok (credentials.tokenRequest code) :=
      authorize_eq_ok.mpr ⟨obtains.isLocalhost, query, code, rfl, obtains.accepted, obtains.state,
        obtains.code, rfl⟩
    rw [obtains.steps]
    simp [loginProcess, LoginPhase.step, obtains.checked, obtains.isLocalhost, authorized,
      exchangeCodeForToken]

/-- The last login of a run that saved its token. -/
structure LastLogin (labels : List (ℕ × LoginStep)) where
  id : ℕ
  before : List (ℕ × LoginStep)
  savedAt : ℤ
  iv : ℕ
  after : List (ℕ × LoginStep)
  attempt : LoginAttempt
  credentials : Credentials
  query : List (String × String)
  code : String
  token : String
  split : labels = before ++ (id, .saved savedAt iv) :: after
  quiet : ∀ later ∈ after, ¬ later.2.Saves
  obtains : Obtains (ownLabels id before) attempt credentials query code token

/-- The row after a run is that of the last login that saved its token. -/
theorem row_iff {labels : List (ℕ × LoginStep)}
    {desk : Interleaved ℕ LoginPhase (Option (UpstoxToken Cipher))}
    (ran : (loginProcess fernet).run (noLogins Cipher) labels = some desk)
    {stored : UpstoxToken Cipher} : desk.cell = some stored ↔
      ∃ (last : LastLogin labels) (key : Key), last.attempt.secrets.fernetKey fernet = .ok key ∧
        stored = savedToken (fernet.encrypt key last.iv last.token) last.savedAt := by
  constructor
  · intro held
    rcases Process.cell_of_run ran with
      ⟨id, own, label, ⟨phase, stands, wrote⟩, before, after, split, rfl, quiet⟩ | ⟨kept, _⟩
    · cases phase with
      | obtained attempt token =>
          cases label with
          | saved savedAt iv =>
              rcases Option.map_eq_some_iff.mp wrote with ⟨encrypted, encrypts, written⟩
              rcases obtained_iff.mp stands with ⟨credentials, query, code, obtains⟩
              have sealed : encryptToken fernet attempt.secrets iv token = .ok encrypted := by
                cases shown : encryptToken fernet attempt.secrets iv token with
                | error _ => simp [shown, Except.toOption] at encrypts
                | ok _ => simpa [shown, Except.toOption] using encrypts
              rcases encryptToken_eq_ok.mp sealed with ⟨key, opens, rfl⟩
              refine ⟨⟨id, before, savedAt, iv, after, attempt, credentials, query, code, token,
                split, quiet, obtains⟩, key, opens, ?_⟩
              exact Option.some.inj (held.symm.trans written.symm)
          | _ => cases wrote
      | _ => cases label <;> cases wrote
    · rw [kept] at held
      cases held
  · rintro ⟨last, key, opens, rfl⟩
    have encrypts : encryptToken fernet last.attempt.secrets last.iv last.token =
        .ok (fernet.encrypt key last.iv last.token) := encryptToken_eq_ok.mpr ⟨key, opens, rfl⟩
    have wrote : (loginProcess fernet).LastWrite (noLogins Cipher) labels
        (some (savedToken (fernet.encrypt key last.iv last.token) last.savedAt)) last.id
        (ownLabels last.id last.before) (.saved last.savedAt last.iv) := by
      refine ⟨⟨_, obtained_iff.mpr ⟨_, _, _, last.obtains⟩, ?_⟩, ?_⟩
      · simp [loginProcess, LoginPhase.saves, encrypts, Except.toOption]
      · exact ⟨last.before, last.after, last.split, rfl, last.quiet⟩
    exact wrote.cell_eq ran

/-- However logins overlap, a live run starts with a token exactly when the last login that saved
one obtained it, by the code of a callback that carried its own state; the key that it was sealed
with is still configured, and no expiry has come since. -/
theorem live_token_iff {labels : List (ℕ × LoginStep)}
    {desk : Interleaved ℕ LoginPhase (Option (UpstoxToken Cipher))}
    (ran : (loginProcess fernet).run (noLogins Cipher) labels = some desk) {mode : String}
    {secrets : Secrets} {now : ℤ} {token : String} :
    runAccessToken fernet mode .live secrets desk.cell now = .ok token ↔
      mode = "live" ∧ ∃ last : LastLogin labels, last.token = token ∧
        (∃ key, last.attempt.secrets.fernetKey fernet = .ok key ∧
          secrets.fernetKey fernet = .ok key) ∧
        ∀ time, last.savedAt < time → istClock time = upstoxTokenExpiryTime → now < time := by
  rw [runAccessToken_eq_ok]
  apply and_congr_right
  intro _
  constructor
  · rintro ⟨stored, key, held, fresh, opens, decrypted⟩
    rcases (row_iff ran).mp held with ⟨last, sealing, sealed, rfl⟩
    have same : sealing = key := by
      by_contra differs
      rw [savedToken, fernet.decrypt_other last.iv last.token differs] at decrypted
      cases decrypted
    subst same
    rw [savedToken, fernet.decrypt_encrypt] at decrypted
    refine ⟨last, Option.some.inj decrypted, ⟨sealing, sealed, opens⟩, fun time later clock => ?_⟩
    exact fresh.trans_le ((isLeast_upstoxTokenExpiryUtc last.savedAt).2 ⟨later, clock⟩)
  · rintro ⟨last, rfl, ⟨key, sealed, opens⟩, fresh⟩
    have expiry := (isLeast_upstoxTokenExpiryUtc last.savedAt).1
    refine ⟨_, key, (row_iff ran).mpr ⟨last, key, sealed, rfl⟩, ?_, opens, ?_⟩
    · exact fresh _ expiry.1 expiry.2
    · exact fernet.decrypt_encrypt key last.iv last.token

/-- An encryption that shows its key. -/
def labelledFernet : Fernet String (String × ℕ × String) where
  key text := if text.length = 44 then some text else none
  encrypt key iv text := (key, iv, text)
  decrypt key cipher := if cipher.1 = key then some cipher.2.2 else none
  decrypt_encrypt _ _ _ := if_pos rfl
  decrypt_other _ _ differs := if_neg differs

/-- Secrets with a key of Fernet's length. -/
def loginSecrets : Secrets where
  upstoxApiKey := some "key"
  upstoxApiSecret := some "secret"
  ptTokenEncryptionKey := some "abcdefghijklmnopqrstuvwxyzabcdefghijklmnopq="

/-- Two logins overlap: the callback of the first carries a state that is not its own, the second
is answered. -/
def overlappingLogins : List (ℕ × LoginStep) :=
  [(0, .started ⟨loginSecrets, 180, "first"⟩), (1, .started ⟨loginSecrets, 180, "second"⟩),
    (0, .called (.get [("code", "forged"), ("state", "guess")])),
    (1, .called (.get [("code", "granted"), ("state", "second")])),
    (1, .answered
      { code := "granted", clientId := "key", clientSecret := "secret",
        redirectUri := "http://localhost:8700/auth/callback" }
      (.ok (.object (some "token")))),
    (1, .saved 0 7)]

/-- The run starts with the token of the second login. -/
theorem live_token_iff_sample : ∃ desk,
    (loginProcess labelledFernet).run (noLogins (String × ℕ × String)) overlappingLogins =
      some desk ∧
    runAccessToken labelledFernet "live" .live loginSecrets desk.cell hourUs = .ok "token" := by
  have completes : ((loginProcess labelledFernet).run (noLogins (String × ℕ × String))
      overlappingLogins).isSome = true := by
    decide +kernel
  rcases Option.isSome_iff_exists.mp completes with ⟨desk, ran⟩
  let last : LastLogin overlappingLogins :=
    { id := 1, before := overlappingLogins.dropLast, savedAt := 0, iv := 7, after := []
      attempt := ⟨loginSecrets, 180, "second"⟩
      credentials := ⟨"key", "secret", loginSecrets.upstoxRedirectUri⟩
      query := [("code", "granted"), ("state", "second")], code := "granted", token := "token"
      split := rfl
      quiet := by simp
      obtains := ⟨rfl, rfl, by decide, by decide, by decide, by decide⟩ }
  have opens : loginSecrets.fernetKey labelledFernet =
      .ok "abcdefghijklmnopqrstuvwxyzabcdefghijklmnopq=" := by decide +kernel
  refine ⟨desk, ran, (live_token_iff ran).mpr ⟨rfl, last, rfl, ⟨_, opens, opens⟩, ?_⟩⟩
  intro time later clock
  have afterStart : 0 < time := later
  unfold istClock istOffsetUs upstoxTokenExpiryTime dayUs hourUs minuteUs at clock
  unfold hourUs
  omega

end Logins

end PersonalTrade
