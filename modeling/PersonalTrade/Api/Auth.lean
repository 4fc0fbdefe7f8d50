import PersonalTrade.Core.Enums

/-!
# Dashboard authentication

`api/auth.py`, and the session cookies of Starlette's `SessionMiddleware` that it keeps its state
in: the server remembers nothing of a login, the signed cookie carries it.
-/

namespace PersonalTrade

/-- `request.session`, with the two keys that are ever set. -/
structure WebSession where
  authenticated : Bool := false
  csrfToken : Option String := none
deriving DecidableEq, Repr

/-- `str.isascii`. -/
def isAscii (text : String) : Bool := text.toList.all fun character => character.toNat < 128

/-- What `token_urlsafe` draws. -/
structure UrlToken where
  text : String
  nonempty : text ≠ ""
  ascii : isAscii text = true

/-- A time in microseconds, in the whole seconds of `itsdangerous`. -/
def seconds (time : ℤ) : ℤ := time / 1000000

/-- The cookies of `SessionMiddleware`: a session signed under a secret at a time reads back until
it is too old. -/
structure SessionCookies (κ : Type) where
  sign : (secret : String) → WebSession → (signedAt : ℤ) → κ
  unsign : (secret : String) → κ → (now : ℤ) → Option WebSession
  maxAge : ℤ
  unsign_sign : ∀ secret session signedAt now, unsign secret (sign secret session signedAt) now =
    if 0 ≤ now - signedAt ∧ now - signedAt ≤ maxAge then some session else none

/-- What a response says of the session cookie. -/
inductive SetCookie (κ : Type) where
  | keep
  | set (cookie : κ)
  | clear

/-- The tokens in it. -/
def SetCookie.issued {κ : Type} : SetCookie κ → List κ
  | .keep | .clear => []
  | .set cookie => [cookie]

/-- How a route fails: with an `HTTPException`, in the validation of its form, or by raising. -/
inductive RouteError where
  | http (status : ℕ) (detail : String)
  | missing (fields : List String)
  | raised (error : PyError)
deriving DecidableEq

namespace Auth

/-- `is_authenticated`. -/
def isAuthenticated (session : WebSession) : Bool := session.authenticated

/-- `log_in`, with the token that is drawn. -/
def logIn (fresh : UrlToken) : WebSession := ⟨true, some fresh.text⟩

/-- `log_out`. -/
def logOut : WebSession := {}

/-- `csrf_token`: the token of the session, minted if there is none. -/
def csrfToken (fresh : UrlToken) (session : WebSession) : String × WebSession :=
  match session.csrfToken with
  | some token => if token = "" then (fresh.text, { session with csrfToken := some fresh.text })
      else (token, session)
  | none => (fresh.text, { session with csrfToken := some fresh.text })

/-- `secrets.compare_digest` of two strings. -/
def compareDigest (expected submitted : String) : Except PyError Bool :=
  if isAscii expected && isAscii submitted then .ok (expected = submitted)
  else .error (.typeError "comparing strings with non-ASCII characters is not supported")

/-- `verify_csrf`. -/
def verifyCsrf (session : WebSession) (submitted : String) : Except PyError Bool :=
  match session.csrfToken with
  | none => .ok false
  | some expected => if expected = "" then .ok false else compareDigest expected submitted

/-- `require_login`. -/
def requireLogin (session : WebSession) : Except RouteError Unit :=
  if isAuthenticated session then .ok () else .error (.http 401 "not authenticated")

/-- `require_csrf`. -/
def requireCsrf (session : WebSession) (submitted : String) : Except RouteError Unit :=
  match verifyCsrf session submitted with
  | .ok true => .ok ()
  | .ok false => .error (.http 403 "invalid CSRF token")
  | .error error => .error (.raised error)

theorem requireLogin_eq_ok {session : WebSession} :
    requireLogin session = .ok () ↔ session.authenticated = true := by
  rw [requireLogin, isAuthenticated]
  split_ifs with authenticated
  · simp [authenticated]
  · simp [authenticated]

/-- The check passes for the token of the session alone. -/
theorem requireCsrf_eq_ok {session : WebSession} {submitted : String} :
    requireCsrf session submitted = .ok () ↔
      session.csrfToken = some submitted ∧ submitted ≠ "" ∧ isAscii submitted = true := by
  rcases session with ⟨authenticated, _ | expected⟩
  · simp [requireCsrf, verifyCsrf]
  · by_cases empty : expected = ""
    · subst expected
      simp only [requireCsrf, verifyCsrf, if_true, reduceCtorEq, Option.some.injEq, false_iff,
        not_and]
      rintro rfl nonempty
      exact absurd rfl nonempty
    · by_cases ascii : isAscii expected = true ∧ isAscii submitted = true
      · by_cases same : expected = submitted
        · subst expected
          simp [requireCsrf, verifyCsrf, empty, compareDigest, ascii]
        · simp [requireCsrf, verifyCsrf, empty, compareDigest, ascii, same]
      · simp only [requireCsrf, verifyCsrf, if_neg empty, compareDigest, Bool.and_eq_true,
          if_neg ascii, reduceCtorEq, Option.some.injEq, false_iff, not_and]
        rintro rfl _ own
        exact ascii ⟨own, own⟩

end Auth

end PersonalTrade
