import PersonalTrade.Analytics.Valuation
import PersonalTrade.Api.Auth
import PersonalTrade.Core.MarketHours
import PersonalTrade.Intelligence.Recommendation
import PersonalTrade.Library.Tokens
import PersonalTrade.Risk.KillSwitch

/-!
# Dashboard

`api/`: the pages, the JSON routes and the websocket over one state store, with the unit of work of
`get_db` around each request. The rendering of templates and JSON texts is not modelled: a response
carries the data that they show.
-/

namespace PersonalTrade

/-! ## Views -/

/-- `PositionRow` of `api/viewmodels.py`: a position with the symbol of its instrument. -/
structure AccountSnapshot.PositionRow where
  symbol : String
  qty : ℤ
  avgPrice : ℚ
deriving DecidableEq

structure AccountSnapshot where
  funds : Funds
  positions : List AccountSnapshot.PositionRow
  killSwitch : KillSwitchState
deriving DecidableEq

structure RecommendationRow where
  rank : ℕ
  symbol : String
  action : RecommendationAction
  rationale : Rationale
  createdAt : ℤ

/-- The symbol of an instrument, or a text with its key. -/
def DB.symbolOrKey (db : DB) (instrumentId : ℕ) : String :=
  match db.instrument instrumentId with
  | some instrument => instrument.symbol
  | none => "instrument#" ++ toString instrumentId

/-- `account_snapshot`: the broker opens its account, and the kill switch its row. -/
def accountSnapshot (initialCash : ℚ) (quote : Instrument → Option ℚ) (db : DB) :
    Except PyError (AccountSnapshot × DB) := do
  let opened := db.openAccount initialCash
  let funds ← opened.fundsAt quote
  let positions := (opened.listOpenPositions .paper).map fun entry =>
    (⟨opened.symbolOrKey entry.1, entry.2.qty, entry.2.avgPrice⟩ : AccountSnapshot.PositionRow)
  pure (⟨funds, positions, opened.killSwitch⟩, KillSwitch.touch opened)

/-- `RecommendationRepository.list_latest_cycle`. -/
def listLatestCycle (rows : List Recommendation) : List Recommendation :=
  match (rows.map Recommendation.createdAt).max? with
  | none => []
  | some latest => (rows.filter fun row => row.createdAt = latest).mergeSort
      fun first second => decide (first.rank ≤ second.rank)

/-- `latest_recommendations`. -/
def latestRecommendations (db : DB) (rows : List Recommendation) : List RecommendationRow :=
  (listLatestCycle rows).map fun row =>
    ⟨row.rank, db.symbolOrKey row.instrumentId, row.action, row.rationale, row.createdAt⟩

/-! ## Requests and responses -/

/-- What a request reads besides the state store: the candle store, the contexts of the signals, the
names of the strategy runs and the recommendations. -/
structure Readings where
  sources : DB.ReportSources
  recommendations : List Recommendation

/-- The routes with the fields of their forms; a field may be missing. -/
inductive Route where
  | loginForm
  | login (password : Option String)
  | logout
  | overview
  | recommendationsPage
  | journalPage
  | reportsPage (period : Option String)
  | account
  | recommendations
  | journal
  | reportDaily
  | reportWeekly
  | killSwitchTrip (reason csrfToken : Option String)
  | killSwitchReset (reason password csrfToken : Option String)
deriving DecidableEq

/-- A request, with the clock of the server, what it would draw and what it reads. -/
structure WebRequest (κ : Type) where
  cookie : Option κ
  route : Route
  now : ℤ
  fresh : UrlToken
  readings : Readings

/-- What a response shows. -/
inductive Content (σ : Type) where
  | redirect (location : String)
  | loginPage (error : Option String)
  | overview (snapshot : AccountSnapshot) (csrfToken : String)
  | account (snapshot : AccountSnapshot)
  | recommendations (rows : List RecommendationRow)
  | journal (entries : List JournalEntry)
  | report (report : PerformanceReport σ)
  | killSwitch (tripped : Bool) (reason : Option String)
  | detail (text : String)
  | missing (fields : List String)
  | serverError

structure Response (κ σ : Type) where
  status : ℕ
  content : Content σ
  setCookie : SetCookie κ

/-- What a route that returns leaves. -/
structure Answer (σ : Type) where
  status : ℕ := 200
  content : Content σ
  session : WebSession
  db : DB

/-! ## The application -/

structure DashboardSecrets where
  passwordHash : Option String
  sessionSecret : Option String

structure ConfigError where
  message : String

/-- The state of the application, with the libraries that it runs on. -/
structure App (κ σ : Type) where
  secrets : DashboardSecrets
  initialCash : ℚ
  cookies : SessionCookies κ
  /-- Whether a session that no route has written to is sent again. -/
  resends : Bool
  /-- The check of argon2. -/
  verify : (passwordHash password : String) → Bool
  statistics : List (ℤ × ℚ) → σ
  configured : secrets.passwordHash.isSome ∧ secrets.sessionSecret.isSome

variable {κ σ : Type}

/-- `create_app`. -/
def createApp (secrets : DashboardSecrets) (initialCash : ℚ) (cookies : SessionCookies κ)
    (resends : Bool) (verify : String → String → Bool) (statistics : List (ℤ × ℚ) → σ) :
    Except ConfigError (App κ σ) :=
  if configured : secrets.passwordHash.isSome ∧ secrets.sessionSecret.isSome then
    .ok ⟨secrets, initialCash, cookies, resends, verify, statistics, configured⟩
  else .error ⟨"dashboard requires PT_DASHBOARD_PASSWORD_HASH and PT_DASHBOARD_SESSION_SECRET " ++
    "in .env — generate both with `pt auth set-password`"⟩

namespace App

variable (app : App κ σ)

def sessionSecret : String := app.secrets.sessionSecret.get app.configured.2

/-- The check of a password that the routes make. -/
def verifyPassword (password : String) : Bool :=
  match app.secrets.passwordHash with
  | none => false
  | some passwordHash => app.verify passwordHash password

/-- The session that `SessionMiddleware` gives a request: an empty one without a good cookie. -/
def sessionOf (cookie : Option κ) (now : ℤ) : WebSession :=
  (cookie.bind fun cookie => app.cookies.unsign app.sessionSecret cookie (seconds now)).getD {}

/-- What it sends back for a session that was `initial` before the route. -/
def setCookie (now : ℤ) (initial final : WebSession) : SetCookie κ :=
  if final = {} then if initial = {} then .keep else .clear
  else if initial ≠ final ∨ app.resends then
    .set (app.cookies.sign app.sessionSecret final (seconds now))
  else .keep

/-! ### Pages -/

/-- `_redirect_to_login`. -/
def redirectToLogin (session : WebSession) (db : DB) : Answer σ :=
  ⟨303, .redirect "/login", session, db⟩

/-- A page for those who are logged in. -/
def page (session : WebSession) (db : DB) (body : Except RouteError (Answer σ)) :
    Except RouteError (Answer σ) :=
  if Auth.isAuthenticated session then body else pure (redirectToLogin session db)

/-- The fields that have to be in a form; an empty one counts as missing. -/
def required (fields : List (String × Option String)) : Except RouteError Unit :=
  let absent := (fields.filter fun field => field.2.getD "" = "").map Prod.fst
  if absent = [] then .ok () else .error (.missing absent)

/-- `login_submit`. -/
def loginSubmit (password : Option String) (fresh : UrlToken) (session : WebSession) (db : DB) :
    Except RouteError (Answer σ) := do
  required [("password", password)]
  if app.verifyPassword (password.getD "") then pure ⟨303, .redirect "/", Auth.logIn fresh, db⟩
  else pure ⟨401, .loginPage (some "wrong password"), session, db⟩

/-- What a view raises becomes an internal error. -/
def raising {α : Type} : Except PyError α → Except RouteError α
  | .ok value => .ok value
  | .error error => .error (.raised error)

/-- What is `none` where the source raises. -/
def present {α : Type} : Option α → Except RouteError α
  | some value => .ok value
  | none => .error (.raised (.attributeError "NoneType"))

/-- The snapshot that three surfaces share. -/
def snapshot (readings : Readings) (db : DB) : Except RouteError (AccountSnapshot × DB) :=
  raising (accountSnapshot app.initialCash readings.sources.mark db)

/-- `overview`, past the check. -/
def overview (request : WebRequest κ) (session : WebSession) (db : DB) :
    Except RouteError (Answer σ) := do
  let seen ← app.snapshot request.readings db
  let token := Auth.csrfToken request.fresh session
  pure { content := .overview seen.1 token.1, session := token.2, db := seen.2 }

/-- The journal of the paper account. -/
def journal (readings : Readings) (session : WebSession) (db : DB) :
    Except RouteError (Answer σ) := do
  let entries ← present (db.buildJournal readings.sources.contexts .paper none)
  pure { content := .journal entries, session, db }

def recommendations (readings : Readings) (session : WebSession) (db : DB) : Answer σ :=
  { content := .recommendations (latestRecommendations db readings.recommendations), session, db }

/-- The report since a time. -/
def report (readings : Readings) (since : ℤ) (session : WebSession) (db : DB) :
    Except RouteError (Answer σ) := do
  let report ← present
    (db.generateReport readings.sources app.statistics .paper app.initialCash since)
  pure { content := .report report, session, db }

/-- The start of the current day and of the current week, in the milliseconds of the store. -/
def dayStart (now : ℤ) : ℤ := istMidnightUtc (now / 1000)
def weekStart (now : ℤ) : ℤ := istWeekStartUtc now / 1000

/-- `reports_page`; the period is validated with the form fields, whoever asks. -/
def reportsPage (request : WebRequest κ) (period : Option String) (session : WebSession)
    (db : DB) : Except RouteError (Answer σ) :=
  match period.getD "daily" with
  | "daily" => page session db (app.report request.readings (dayStart request.now) session db)
  | "weekly" => page session db (app.report request.readings (weekStart request.now) session db)
  | _ => .error (.missing ["period"])

/-! ### JSON routes -/

/-- A route of the API router, whose first dependency is `require_login`. -/
def api (session : WebSession) (body : Except RouteError (Answer σ)) :
    Except RouteError (Answer σ) := do
  Auth.requireLogin session
  body

/-- `post_kill_switch_trip`. -/
def killSwitchTrip (request : WebRequest κ) (reason csrfToken : Option String)
    (session : WebSession) (db : DB) : Except RouteError (Answer σ) := do
  required [("reason", reason), ("csrf_token", csrfToken)]
  Auth.requireCsrf session (csrfToken.getD "")
  let tripped := KillSwitch.trip (reason.getD "") .none (request.now / 1000) db
  pure
    { content := .killSwitch tripped.killSwitch.tripped tripped.killSwitch.reason
      session, db := tripped }

/-- `post_kill_switch_reset`. -/
def killSwitchReset (reason password csrfToken : Option String) (session : WebSession) (db : DB) :
    Except RouteError (Answer σ) := do
  required [("reason", reason), ("password", password), ("csrf_token", csrfToken)]
  Auth.requireCsrf session (csrfToken.getD "")
  if app.verifyPassword (password.getD "") then
    match KillSwitch.reset (reason.getD "") db with
    | .ok after =>
        pure
          { content := .killSwitch after.killSwitch.tripped after.killSwitch.reason
            session, db := after }
    | .error _ => .error (.http 409 "kill switch is not tripped — nothing to reset")
  else .error (.http 403 "wrong password")

/-- The route of a request. -/
def route (request : WebRequest κ) (session : WebSession) (db : DB) :
    Except RouteError (Answer σ) :=
  match request.route with
  | .loginForm =>
      if Auth.isAuthenticated session then pure ⟨303, .redirect "/", session, db⟩
      else pure { content := .loginPage none, session, db }
  | .login password => app.loginSubmit password request.fresh session db
  | .logout => pure (redirectToLogin Auth.logOut db)
  | .overview => page session db (app.overview request session db)
  | .recommendationsPage => page session db (pure (recommendations request.readings session db))
  | .journalPage => page session db (journal request.readings session db)
  | .reportsPage period => app.reportsPage request period session db
  | .account => api session do
      let seen ← app.snapshot request.readings db
      pure { content := .account seen.1, session, db := seen.2 }
  | .recommendations => api session (pure (recommendations request.readings session db))
  | .journal => api session (journal request.readings session db)
  | .reportDaily =>
      api session (app.report request.readings (dayStart request.now) session db)
  | .reportWeekly =>
      api session (app.report request.readings (weekStart request.now) session db)
  | .killSwitchTrip reason csrfToken =>
      api session (killSwitchTrip request reason csrfToken session db)
  | .killSwitchReset reason password csrfToken =>
      api session (app.killSwitchReset reason password csrfToken session db)

/-- A request: `get_db` commits what a route leaves that returns and rolls back one that does not.
An internal error is answered outside of `SessionMiddleware`. -/
def serve (request : WebRequest κ) (db : DB) : Response κ σ × DB :=
  let session := app.sessionOf request.cookie request.now
  match app.route request session db with
  | .ok answer =>
      (⟨answer.status, answer.content, app.setCookie request.now session answer.session⟩, answer.db)
  | .error (.http status detail) =>
      (⟨status, .detail detail, app.setCookie request.now session session⟩, db)
  | .error (.missing fields) =>
      (⟨422, .missing fields, app.setCookie request.now session session⟩, db)
  | .error (.raised _) => (⟨500, .serverError, .keep⟩, db)

end App

/-! ## The websocket -/

/-- The store, and the sessions of the tabs that `/ws/live` is pushing to. -/
structure DashboardState where
  db : DB
  sockets : List WebSession := []

/-- What can happen to the dashboard: a request, a tab that connects, the next poll of a connected
one, or its end. Tabs are given by their place among the connected ones. -/
inductive DashboardEvent (κ : Type) where
  | request (request : WebRequest κ)
  | connect (cookie : Option κ) (now : ℤ)
  | poll (tab : ℕ) (readings : Readings)
  | disconnect (tab : ℕ)

/-- What it answers. -/
inductive DashboardOutput (κ σ : Type) where
  | response (response : Response κ σ)
  | accepted
  | closed (code : ℕ)
  | pushed (snapshot : AccountSnapshot)

namespace App

variable (app : App κ σ)

/-- One event. The loop of `ws_live` ends with what its snapshot raises. -/
def handle (state : DashboardState) :
    DashboardEvent κ → List (DashboardOutput κ σ) × DashboardState
  | .request request =>
      let served := app.serve request state.db
      ([.response served.1], { state with db := served.2 })
  | .connect cookie now =>
      if Auth.isAuthenticated (app.sessionOf cookie now) then
        ([.accepted], { state with sockets := state.sockets ++ [app.sessionOf cookie now] })
      else ([.closed 4401], state)
  | .poll tab readings =>
      if state.sockets.length ≤ tab then ([], state)
      else
        match app.snapshot readings state.db with
        | .ok seen => ([.pushed seen.1], { state with db := seen.2 })
        | .error _ => ([], { state with sockets := state.sockets.eraseIdx tab })
  | .disconnect tab => ([], { state with sockets := state.sockets.eraseIdx tab })

def step (state : DashboardState) (event : DashboardEvent κ) : DashboardState :=
  (app.handle state event).2

/-- The cookies that an event hands out. -/
def issues (state : DashboardState) (event : DashboardEvent κ) : List κ :=
  (app.handle state event).1.flatMap fun output =>
    match output with
    | .response response => response.setCookie.issued
    | _ => []

/-- The cookie that an event shows, if it is good. -/
def presents (event : DashboardEvent κ) : Option κ :=
  let good (cookie : Option κ) (now : ℤ) := cookie.filter fun cookie =>
    (app.cookies.unsign app.sessionSecret cookie (seconds now)).isSome
  match event with
  | .request request => good request.cookie request.now
  | .connect cookie now => good cookie now
  | .poll .. | .disconnect _ => none

/-- The session that an event is made in: the one of its cookie or of its tab. -/
def sessionIn (state : DashboardState) : DashboardEvent κ → WebSession
  | .request request => app.sessionOf request.cookie request.now
  | .connect cookie now => app.sessionOf cookie now
  | .poll tab _ | .disconnect tab => state.sockets[tab]?.getD {}

end App

end PersonalTrade
