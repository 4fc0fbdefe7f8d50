import PersonalTrade.Core.MarketHours
import PersonalTrade.Execution.UpstoxHttp
import PersonalTrade.Library.Except

/-!
# Logging into Upstox

The login flow of `execution/upstox/auth.py`, the encryption of `execution/upstox/crypto.py`, the
row that `UpstoxTokenRepository` keeps, and what `pt run` makes of the row before it trades.
Fernet is a parameter. The callback listener serves one request, whose query is given by its
decoded fields; the token endpoint is whatever answers.
-/

namespace PersonalTrade

/-! ## The OAuth flow -/

/-- A redirect URI with the host name that `urlparse` finds in it. -/
structure RedirectUri where
  text : String
  hostname : Option String
deriving DecidableEq, Repr

def RedirectUri.isLocalhost (uri : RedirectUri) : Bool :=
  uri.hostname = some "localhost" || uri.hostname = some "127.0.0.1"

/-- `Secrets`, the fields that concern Upstox. -/
structure Secrets where
  upstoxApiKey : Option String := none
  upstoxApiSecret : Option String := none
  upstoxRedirectUri : RedirectUri :=
    { text := "http://localhost:8700/auth/callback", hostname := some "localhost" }
  upstoxAccessToken : Option String := none
  ptTokenEncryptionKey : Option String := none
deriving DecidableEq, Repr

/-- What a 2xx answer of the token endpoint holds: an object, with the text of its access token if
it has one, or any other JSON value. -/
inductive TokenPayload where
  | object (accessToken : Option String)
  | other
deriving DecidableEq, Repr

/-- `UpstoxAuthError`. -/
inductive UpstoxAuthError where
  | notLocalhost (redirectUri : String)
  | noCallback (timeoutSeconds : ℚ)
  | denied (error : String)
  | stateMismatch
  | noCode
  | exchangeRejected (code : ℕ) (text : String)
  | exchangeFailed (message : String)
  | malformedResponse (payload : TokenPayload)
deriving DecidableEq, Repr

/-- What the listener gets until it closes: nothing, one request of another method, or one GET
request. -/
inductive Callback where
  | timedOut
  | otherMethod
  | get (query : List (String × String))
deriving DecidableEq, Repr

/-- `CallbackResult`. -/
structure CallbackResult where
  code : Option String
  state : Option String
  error : Option String
deriving DecidableEq, Repr

/-- `first(name)` of the handler: `parse_qs` leaves out blank values. -/
def queryField (name : String) (query : List (String × String)) : Option String :=
  (query.find? fun field => decide (field.1 = name ∧ field.2 ≠ "")).map Prod.snd

/-- `wait_for_callback`. -/
def waitForCallback (redirectUri : RedirectUri) (timeoutSeconds : ℚ) (callback : Callback) :
    Except UpstoxAuthError CallbackResult :=
  if redirectUri.isLocalhost then
    match callback with
    | .timedOut | .otherMethod => .error (.noCallback timeoutSeconds)
    | .get query => .ok
        { code := queryField "code" query
          state := queryField "state" query
          error := queryField "error" query }
  else .error (.notLocalhost redirectUri.text)

/-- The form that is posted to the token endpoint. -/
structure TokenRequest where
  code : String
  clientId : String
  clientSecret : String
  redirectUri : String
  grantType : String := "authorization_code"
deriving DecidableEq, Repr

/-- What comes back from the token endpoint. -/
inductive TokenAnswer where
  | ok (payload : TokenPayload)
  | invalidJson (message : String)
  | status (code : ℕ) (text : String)
  | transportError (message : String)
deriving DecidableEq, Repr

/-- `exchange_code_for_token`, from the answer on. -/
def exchangeCodeForToken : TokenAnswer → Except UpstoxAuthError String
  | .ok (.object (some accessToken)) => .ok accessToken
  | .ok payload => .error (.malformedResponse payload)
  | .status code text => .error (.exchangeRejected code (prefixOf 300 text))
  | .invalidJson message | .transportError message => .error (.exchangeFailed message)

/-- The secrets that a login cannot do without. -/
structure Credentials where
  apiKey : String
  apiSecret : String
  redirectUri : RedirectUri
deriving DecidableEq, Repr

/-- The parameters of `build_authorization_url`. -/
def Credentials.authorizationQuery (credentials : Credentials) (state : String) :
    List (String × String) :=
  [("response_type", "code"), ("client_id", credentials.apiKey),
    ("redirect_uri", credentials.redirectUri.text), ("state", state)]

def Credentials.tokenRequest (credentials : Credentials) (code : String) : TokenRequest :=
  { code, clientId := credentials.apiKey, clientSecret := credentials.apiSecret,
    redirectUri := credentials.redirectUri.text }

/-- `login` up to the request that it posts. -/
def authorize (credentials : Credentials) (timeoutSeconds : ℚ) (state : String)
    (callback : Callback) : Except UpstoxAuthError TokenRequest := do
  let result ← waitForCallback credentials.redirectUri timeoutSeconds callback
  match result.error.filter (· ≠ "") with
  | some error => .error (.denied error)
  | none =>
      if result.state ≠ some state then .error .stateMismatch
      else
        match result.code.filter (· ≠ "") with
        | none => .error .noCode
        | some code => .ok (credentials.tokenRequest code)

/-- `login`, over a token endpoint. -/
def login (credentials : Credentials) (timeoutSeconds : ℚ) (state : String) (callback : Callback)
    (endpoint : TokenRequest → TokenAnswer) : Except UpstoxAuthError String := do
  let request ← authorize credentials timeoutSeconds state callback
  exchangeCodeForToken (endpoint request)

/-- A blank value is not in the query. -/
@[simp]
theorem queryField_filter (name : String) (query : List (String × String)) :
    (queryField name query).filter (· ≠ "") = queryField name query := by
  cases found : queryField name query with
  | none => rfl
  | some value =>
      rcases Option.map_eq_some_iff.mp found with ⟨field, first, rfl⟩
      have present := of_decide_eq_true (List.find?_some first :)
      simp [present.2]

/-- A request is posted only for the code of a callback that carries the state of its login. -/
theorem authorize_eq_ok {credentials : Credentials} {timeoutSeconds : ℚ} {state : String}
    {callback : Callback} {request : TokenRequest} :
    authorize credentials timeoutSeconds state callback = .ok request ↔
      credentials.redirectUri.isLocalhost = true ∧ ∃ query code, callback = .get query ∧
        queryField "error" query = none ∧ queryField "state" query = some state ∧
        queryField "code" query = some code ∧ request = credentials.tokenRequest code := by
  rw [authorize, except_bind_eq_ok]
  constructor
  · rintro ⟨result, waited, checked⟩
    unfold waitForCallback at waited
    split_ifs at waited with isLocal
    cases callback with
    | get query =>
        cases waited
        simp only [queryField_filter] at checked
        refine ⟨isLocal, query, ?_⟩
        cases denied : queryField "error" query with
        | some error => simp [denied] at checked
        | none =>
            cases given : queryField "code" query with
            | none =>
                simp only [denied, given] at checked
                split_ifs at checked
            | some code =>
                simp only [denied, given] at checked
                split_ifs at checked with mismatch
                exact ⟨code, rfl, rfl, not_ne_iff.mp mismatch, rfl, (Except.ok.inj checked).symm⟩
    | _ => cases waited
  · rintro ⟨isLocal, query, code, rfl, denied, matched, given, rfl⟩
    refine ⟨⟨queryField "code" query, queryField "state" query, queryField "error" query⟩, ?_, ?_⟩
    · simp [waitForCallback, isLocal]
    · simp only [queryField_filter]
      simp [denied, matched, given]

theorem exchangeCodeForToken_eq_ok {answer : TokenAnswer} {token : String} :
    exchangeCodeForToken answer = .ok token ↔ answer = .ok (.object (some token)) := by
  constructor
  · intro exchanged
    match answer with
    | .ok (.object (some accessToken)) => rw [Except.ok.inj exchanged]
    | .ok (.object none) | .ok .other => cases exchanged
    | .invalidJson _ | .status _ _ | .transportError _ => cases exchanged
  · rintro rfl
    rfl

/-! ## The token at rest -/

/-- The values of the enumeration. -/
def Mode.value : Mode → String
  | .paper => "paper"
  | .live => "live"
  | .backtest => "backtest"

/-- Fernet: authenticated encryption, which opens with the key that it was sealed with and with no
other. The number is the initialization vector and the time. -/
structure Fernet (Key Cipher : Type) where
  key : String → Option Key
  encrypt : Key → ℕ → String → Cipher
  decrypt : Key → Cipher → Option String
  decrypt_encrypt (key : Key) (iv : ℕ) (text : String) : decrypt key (encrypt key iv text) = some text
  decrypt_other {key other : Key} (iv : ℕ) (text : String) :
    key ≠ other → decrypt other (encrypt key iv text) = none

/-- What the functions of `crypto.py` raise: no key is set, the key is none of Fernet's, or it does
not open the stored text. -/
inductive TokenError where
  | configError
  | valueError
  | tokenDecryptionFailed
deriving DecidableEq, Repr

/-- `UpstoxToken`; times count microseconds. -/
structure UpstoxToken (Cipher : Type) where
  encryptedAccessToken : Cipher
  obtainedAt : ℤ
  expiresAt : ℤ
deriving DecidableEq, Repr

/-- How a command ends that refuses to go on. -/
inductive CliExit where
  | modeMismatch
  | apiKeysNotSet
  | encryptionKeyNotSet
  | accessTokenNotSet
  | noTokenStored
  | tokenExpired (expiresAt : ℤ)
  | raised (error : TokenError)
deriving DecidableEq, Repr

section Token

variable {Key Cipher : Type} (fernet : Fernet Key Cipher)

/-- `_fernet`. -/
def Secrets.fernetKey (secrets : Secrets) : Except TokenError Key :=
  match secrets.ptTokenEncryptionKey with
  | none => .error .configError
  | some text => (fernet.key text).elim (.error .valueError) .ok

/-- `encrypt_token`. -/
def encryptToken (secrets : Secrets) (iv : ℕ) (accessToken : String) : Except TokenError Cipher :=
  (secrets.fernetKey fernet).map fun key => fernet.encrypt key iv accessToken

/-- `decrypt_token`. -/
def decryptToken (secrets : Secrets) (encrypted : Cipher) : Except TokenError String := do
  let key ← secrets.fernetKey fernet
  (fernet.decrypt key encrypted).elim (.error .tokenDecryptionFailed) .ok

/-- The row that `UpstoxTokenRepository.save` leaves: it overwrites every column but the id. -/
def savedToken (encrypted : Cipher) (obtainedAt : ℤ) : UpstoxToken Cipher where
  encryptedAccessToken := encrypted
  obtainedAt := obtainedAt
  expiresAt := upstoxTokenExpiryUtc obtainedAt

/-- `pt auth upstox-status`, and the checks that `pt run --mode live` makes of the row. -/
def validToken (row : Option (UpstoxToken Cipher)) (now : ℤ) : Except CliExit (UpstoxToken Cipher) :=
  match row with
  | none => .error .noTokenStored
  | some stored =>
      if stored.expiresAt ≤ now then .error (.tokenExpired stored.expiresAt) else .ok stored

/-- `pt run` up to its access token. The configured mode is paper or live. -/
def runAccessToken (mode : String) (configured : Mode) (secrets : Secrets)
    (row : Option (UpstoxToken Cipher)) (now : ℤ) : Except CliExit String :=
  if mode ≠ configured.value then .error .modeMismatch
  else if configured = .live then
    match secrets.ptTokenEncryptionKey with
    | none => .error .encryptionKeyNotSet
    | some _ => do
        let stored ← validToken row now
        (decryptToken fernet secrets stored.encryptedAccessToken).mapError .raised
  else secrets.upstoxAccessToken.elim (.error .accessTokenNotSet) .ok

variable {fernet}

theorem encryptToken_eq_ok {secrets : Secrets} {iv : ℕ} {token : String} {encrypted : Cipher} :
    encryptToken fernet secrets iv token = .ok encrypted ↔
      ∃ key, secrets.fernetKey fernet = .ok key ∧ fernet.encrypt key iv token = encrypted := by
  rw [encryptToken]
  cases secrets.fernetKey fernet <;> simp [Except.map]

theorem decryptToken_eq_ok {secrets : Secrets} {encrypted : Cipher} {token : String} :
    decryptToken fernet secrets encrypted = .ok token ↔
      ∃ key, secrets.fernetKey fernet = .ok key ∧ fernet.decrypt key encrypted = some token := by
  rw [decryptToken, except_bind_eq_ok]
  apply exists_congr
  intro key
  cases fernet.decrypt key encrypted <;> simp

theorem validToken_eq_ok {row : Option (UpstoxToken Cipher)} {now : ℤ}
    {stored : UpstoxToken Cipher} :
    validToken row now = .ok stored ↔ row = some stored ∧ now < stored.expiresAt := by
  cases row with
  | none => simp [validToken]
  | some found =>
      simp only [validToken, Option.some.injEq]
      split_ifs with expired
      · simp only [false_iff, not_and, not_lt]
        rintro rfl
        exact expired
      · rw [Except.ok.injEq]
        constructor
        · rintro rfl
          exact ⟨rfl, not_le.mp expired⟩
        · exact And.left

theorem runAccessToken_eq_ok {mode : String} {secrets : Secrets}
    {row : Option (UpstoxToken Cipher)} {now : ℤ} {token : String} :
    runAccessToken fernet mode .live secrets row now = .ok token ↔
      mode = "live" ∧ ∃ stored key, row = some stored ∧ now < stored.expiresAt ∧
        secrets.fernetKey fernet = .ok key ∧
        fernet.decrypt key stored.encryptedAccessToken = some token := by
  unfold runAccessToken
  rw [if_pos rfl]
  split_ifs with mismatch
  · simp only [false_iff, not_and]
    exact fun same => absurd same mismatch
  · rw [not_ne_iff.mp mismatch]
    cases given : secrets.ptTokenEncryptionKey with
    | none => simp [Secrets.fernetKey, given]
    | some text =>
        simp only [except_bind_eq_ok, validToken_eq_ok, except_mapError_eq_ok,
          decryptToken_eq_ok]
        constructor
        · rintro ⟨stored, ⟨held, fresh⟩, key, opens, decrypted⟩
          exact ⟨rfl, stored, key, held, fresh, opens, decrypted⟩
        · rintro ⟨-, stored, key, held, fresh, opens, decrypted⟩
          exact ⟨stored, ⟨held, fresh⟩, key, opens, decrypted⟩

end Token

end PersonalTrade
