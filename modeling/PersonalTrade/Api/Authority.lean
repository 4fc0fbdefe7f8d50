import PersonalTrade.Api.Dashboard

/-!
# Who can act through the dashboard

A cookie is good only if the server signed it, and the server signs a session as authenticated only
for the right password. So whatever clients send, a request that moves the store carries the cookie
of a login with the right password, and one that moves the kill switch also the token that was
drawn at it (`dashboard_authority`). Without such a login, clients learn nothing of the store and
leave it alone (`outsider_learns_nothing`).
-/

namespace PersonalTrade

variable {κ σ : Type}

namespace App

/-- The request logs in with the right password. -/
def LogsIn (app : App κ σ) (request : WebRequest κ) : Prop :=
  ∃ password, request.route = .login (some password) ∧ password ≠ "" ∧
    app.verifyPassword password = true

/-- What a route that returns leaves of the store, given the session that it was called with. -/
inductive Leaves (app : App κ σ) (request : WebRequest κ) (session : WebSession) (db : DB) :
    DB → Prop where
  | same : Leaves app request session db db
  | viewed (authenticated : session.authenticated = true) :
      Leaves app request session db (KillSwitch.touch (db.openAccount app.initialCash))
  | tripped {reason token : String} (authenticated : session.authenticated = true)
      (csrf : session.csrfToken = some token)
      (route : request.route = .killSwitchTrip (some reason) (some token)) :
      Leaves app request session db (KillSwitch.trip reason .none (request.now / 1000) db)
  | reset {reason password token : String} {after : DB}
      (authenticated : session.authenticated = true) (csrf : session.csrfToken = some token)
      (route : request.route = .killSwitchReset (some reason) (some password) (some token))
      (verified : app.verifyPassword password = true)
      (reset : KillSwitch.reset reason db = .ok after) : Leaves app request session db after

/-- The session that a route leaves. -/
inductive Becomes (app : App κ σ) (request : WebRequest κ) (session : WebSession) :
    WebSession → Prop where
  | kept : Becomes app request session session
  | loggedIn (logsIn : app.LogsIn request) : Becomes app request session (Auth.logIn request.fresh)
  | loggedOut : Becomes app request session Auth.logOut
  | minted (authenticated : session.authenticated = true)
      (without : session.csrfToken = none ∨ session.csrfToken = some "") :
      Becomes app request session { session with csrfToken := some request.fresh.text }

section Routes

variable {app : App κ σ} {request : WebRequest κ} {session : WebSession} {db : DB}
  {answer : Answer σ}

theorem required_eq_ok {fields : List (String × Option String)} (ok : required fields = .ok ()) :
    ∀ field ∈ fields, ∃ value, field.2 = some value ∧ value ≠ "" := by
  intro field mem
  rw [required] at ok
  split_ifs at ok with none
  rw [List.map_eq_nil_iff, List.filter_eq_nil_iff] at none
  have filled := none field mem
  rcases field with ⟨name, _ | value⟩
  · simp at filled
  · exact ⟨value, rfl, by simpa using filled⟩

theorem snapshot_eq_ok {readings : Readings} {seen : AccountSnapshot × DB}
    (ok : app.snapshot readings db = .ok seen) :
    seen.2 = KillSwitch.touch (db.openAccount app.initialCash) := by
  rw [snapshot] at ok
  cases viewed : accountSnapshot app.initialCash readings.sources.mark db with
  | error error =>
      rw [viewed] at ok
      cases ok
  | ok value =>
      rw [viewed] at ok
      cases ok
      rcases except_bind_eq_ok.mp viewed with ⟨funds, _, made⟩
      cases made
      rfl

/-- A page leaves what its body leaves, or redirects. -/
theorem page_eq_ok {body : Except RouteError (Answer σ)}
    (ok : page session db body = .ok answer) :
    (session.authenticated = true ∧ body = .ok answer) ∨
      answer.session = session ∧ answer.db = db := by
  rw [page, Auth.isAuthenticated] at ok
  split_ifs at ok with authenticated
  · exact .inl ⟨authenticated, ok⟩
  · cases ok
    exact .inr ⟨rfl, rfl⟩

theorem api_eq_ok {body : Except RouteError (Answer σ)} :
    api session body = .ok answer ↔ session.authenticated = true ∧ body = .ok answer := by
  rw [api, except_bind_eq_ok]
  constructor
  · rintro ⟨_, passed, ok⟩
    exact ⟨Auth.requireLogin_eq_ok.mp passed, ok⟩
  · rintro ⟨authenticated, ok⟩
    exact ⟨(), Auth.requireLogin_eq_ok.mpr authenticated, ok⟩

theorem journal_eq_ok {readings : Readings} (ok : journal readings session db = .ok answer) :
    answer.session = session ∧ answer.db = db := by
  rcases except_bind_eq_ok.mp ok with ⟨entries, _, made⟩
  cases made
  exact ⟨rfl, rfl⟩

theorem report_eq_ok {readings : Readings} {since : ℤ}
    (ok : app.report readings since session db = .ok answer) :
    answer.session = session ∧ answer.db = db := by
  rcases except_bind_eq_ok.mp ok with ⟨report, _, made⟩
  cases made
  exact ⟨rfl, rfl⟩

theorem reportsPage_eq_ok {period : Option String}
    (ok : app.reportsPage request period session db = .ok answer) :
    answer.session = session ∧ answer.db = db := by
  rw [reportsPage] at ok
  split at ok
  · rcases page_eq_ok ok with ⟨_, body⟩ | same
    · exact report_eq_ok body
    · exact same
  · rcases page_eq_ok ok with ⟨_, body⟩ | same
    · exact report_eq_ok body
    · exact same
  · cases ok

theorem overview_eq_ok (ok : app.overview request session db = .ok answer) :
    (answer.session = session ∨
      (session.csrfToken = none ∨ session.csrfToken = some "") ∧
        answer.session = { session with csrfToken := some request.fresh.text }) ∧
      answer.db = KillSwitch.touch (db.openAccount app.initialCash) := by
  rcases except_bind_eq_ok.mp ok with ⟨seen, viewed, made⟩
  cases made
  refine ⟨?_, snapshot_eq_ok viewed⟩
  rcases session with ⟨authenticated, _ | token⟩
  · exact .inr ⟨.inl rfl, rfl⟩
  · by_cases empty : token = ""
    · subst token
      exact .inr ⟨.inr rfl, rfl⟩
    · left
      simp [Auth.csrfToken, empty]

theorem loginSubmit_eq_ok {password : Option String} {fresh : UrlToken}
    (ok : app.loginSubmit password fresh session db = .ok answer) :
    answer.db = db ∧ (answer.session = session ∨ ∃ right, password = some right ∧ right ≠ "" ∧
      app.verifyPassword right = true ∧ answer.session = Auth.logIn fresh) := by
  rcases except_bind_eq_ok.mp ok with ⟨_, filled, body⟩
  rcases required_eq_ok filled ("password", password) List.mem_cons_self with
    ⟨right, given, nonempty⟩
  simp only at given
  subst password
  simp only [Option.getD_some] at body
  split_ifs at body with verified
  · cases body
    exact ⟨rfl, .inr ⟨right, rfl, nonempty, verified, rfl⟩⟩
  · cases body
    exact ⟨rfl, .inl rfl⟩

theorem killSwitchTrip_eq_ok {reason csrfToken : Option String}
    (ok : killSwitchTrip request reason csrfToken session db = .ok answer) :
    answer.session = session ∧ ∃ text token, reason = some text ∧ csrfToken = some token ∧
      session.csrfToken = some token ∧
      answer.db = KillSwitch.trip text .none (request.now / 1000) db := by
  rcases except_bind_eq_ok.mp ok with ⟨_, filled, rest⟩
  rcases except_bind_eq_ok.mp rest with ⟨_, checked, made⟩
  have fields := required_eq_ok filled
  rcases fields ("reason", reason) (by simp) with ⟨text, given, _⟩
  rcases fields ("csrf_token", csrfToken) (by simp) with ⟨token, shown, _⟩
  simp only at given shown
  subst reason csrfToken
  cases made
  exact ⟨rfl, text, token, rfl, rfl, (Auth.requireCsrf_eq_ok.mp checked).1, rfl⟩

theorem killSwitchReset_eq_ok {reason password csrfToken : Option String}
    (ok : app.killSwitchReset reason password csrfToken session db = .ok answer) :
    answer.session = session ∧ ∃ text again token, reason = some text ∧ password = some again ∧
      csrfToken = some token ∧ session.csrfToken = some token ∧
      app.verifyPassword again = true ∧ KillSwitch.reset text db = .ok answer.db := by
  rcases except_bind_eq_ok.mp ok with ⟨_, filled, rest⟩
  rcases except_bind_eq_ok.mp rest with ⟨_, checked, body⟩
  have fields := required_eq_ok filled
  rcases fields ("reason", reason) (by simp) with ⟨text, given, _⟩
  rcases fields ("password", password) (by simp) with ⟨again, entered, _⟩
  rcases fields ("csrf_token", csrfToken) (by simp) with ⟨token, shown, _⟩
  simp only at given entered shown
  subst reason password csrfToken
  simp only [Option.getD_some] at body checked
  split_ifs at body with verified
  cases done : KillSwitch.reset text db with
  | error error =>
      rw [done] at body
      cases body
  | ok after =>
      rw [done] at body
      cases body
      exact ⟨rfl, text, again, token, rfl, rfl, rfl, (Auth.requireCsrf_eq_ok.mp checked).1,
        verified, done⟩

/-- What a route that returns does. -/
theorem route_eq_ok (ok : app.route request session db = .ok answer) :
    app.Leaves request session db answer.db ∧ app.Becomes request session answer.session := by
  have unmoved : answer.session = session ∧ answer.db = db →
      app.Leaves request session db answer.db ∧ app.Becomes request session answer.session := by
    rintro ⟨session', db'⟩
    rw [session', db']
    exact ⟨.same, .kept⟩
  rw [route] at ok
  cases asked : request.route with
  | loginForm =>
      rw [asked] at ok
      simp only at ok
      split_ifs at ok
      · cases ok
        exact ⟨.same, .kept⟩
      · cases ok
        exact ⟨.same, .kept⟩
  | login password =>
      rw [asked] at ok
      rcases loginSubmit_eq_ok ok with ⟨db', session' | ⟨right, rfl, nonempty, verified, session'⟩⟩
      · exact unmoved ⟨session', db'⟩
      · rw [db', session']
        exact ⟨.same, .loggedIn ⟨right, asked, nonempty, verified⟩⟩
  | logout =>
      rw [asked] at ok
      cases ok
      exact ⟨.same, .loggedOut⟩
  | overview =>
      rw [asked] at ok
      rcases page_eq_ok ok with ⟨authenticated, body⟩ | same
      · rcases overview_eq_ok body with ⟨session' | ⟨without, session'⟩, db'⟩
        · rw [session', db']
          exact ⟨.viewed authenticated, .kept⟩
        · rw [session', db']
          exact ⟨.viewed authenticated, .minted authenticated without⟩
      · exact unmoved same
  | recommendationsPage =>
      rw [asked] at ok
      rcases page_eq_ok ok with ⟨_, body⟩ | same
      · cases body
        exact ⟨.same, .kept⟩
      · exact unmoved same
  | journalPage =>
      rw [asked] at ok
      rcases page_eq_ok ok with ⟨_, body⟩ | same
      · exact unmoved (journal_eq_ok body)
      · exact unmoved same
  | reportsPage period =>
      rw [asked] at ok
      exact unmoved (reportsPage_eq_ok ok)
  | account =>
      rw [asked] at ok
      rcases api_eq_ok.mp ok with ⟨authenticated, body⟩
      rcases except_bind_eq_ok.mp body with ⟨seen, viewed, made⟩
      cases made
      refine ⟨?_, .kept⟩
      rw [snapshot_eq_ok viewed]
      exact .viewed authenticated
  | recommendations =>
      rw [asked] at ok
      cases (api_eq_ok.mp ok).2
      exact ⟨.same, .kept⟩
  | journal =>
      rw [asked] at ok
      exact unmoved (journal_eq_ok (api_eq_ok.mp ok).2)
  | reportDaily | reportWeekly =>
      rw [asked] at ok
      exact unmoved (report_eq_ok (api_eq_ok.mp ok).2)
  | killSwitchTrip reason csrfToken =>
      rw [asked] at ok
      rcases api_eq_ok.mp ok with ⟨authenticated, body⟩
      rcases killSwitchTrip_eq_ok body with ⟨session', text, token, rfl, rfl, csrf, db'⟩
      rw [session', db']
      exact ⟨.tripped authenticated csrf asked, .kept⟩
  | killSwitchReset reason password csrfToken =>
      rw [asked] at ok
      rcases api_eq_ok.mp ok with ⟨authenticated, body⟩
      rcases killSwitchReset_eq_ok body with
        ⟨session', text, again, token, rfl, rfl, rfl, csrf, verified, reset⟩
      rw [session']
      exact ⟨.reset authenticated csrf asked verified reset, .kept⟩

/-- What a request does, whether its route returns or not. -/
theorem serve_cases (app : App κ σ) (request : WebRequest κ) (db : DB) :
    app.Leaves request (app.sessionOf request.cookie request.now) db (app.serve request db).2 ∧
      ∀ cookie ∈ (app.serve request db).1.setCookie.issued, ∃ final,
        app.Becomes request (app.sessionOf request.cookie request.now) final ∧
          cookie = app.cookies.sign app.sessionSecret final (seconds request.now) := by
  have signed : ∀ initial final, ∀ cookie ∈ (app.setCookie request.now initial final).issued,
      cookie = app.cookies.sign app.sessionSecret final (seconds request.now) := by
    intro initial final cookie mem
    rw [setCookie] at mem
    split_ifs at mem
    · cases mem
    · cases mem
    · exact List.mem_singleton.mp mem
    · cases mem
  rw [serve]
  cases answered : app.route request (app.sessionOf request.cookie request.now) db with
  | ok answer =>
      rcases route_eq_ok answered with ⟨leaves, becomes⟩
      exact ⟨leaves, fun cookie mem => ⟨_, becomes, signed _ _ cookie mem⟩⟩
  | error error =>
      cases error with
      | http status detail => exact ⟨.same, fun cookie mem => ⟨_, .kept, signed _ _ cookie mem⟩⟩
      | missing fields => exact ⟨.same, fun cookie mem => ⟨_, .kept, signed _ _ cookie mem⟩⟩
      | raised error => exact ⟨.same, nofun⟩

end Routes

/-! ## Runs -/

/-- The cookies that a run shows were handed out in it, or are not good. -/
def Genuine (app : App κ σ) (start : DashboardState) (run : List (DashboardEvent κ)) : Prop :=
  Unforged app.step app.issues app.presents start run

/-- A session that is authenticated is the one that a login made. -/
def Stems (app : App κ σ) (history : List (DashboardEvent κ)) (session : WebSession) : Prop :=
  session.authenticated = true → ∃ login, .request login ∈ history ∧ app.LogsIn login ∧
    session = Auth.logIn login.fresh

section Runs

variable {app : App κ σ} {history : List (DashboardEvent κ)} {event : DashboardEvent κ}
  {session : WebSession} {start : DashboardState} {run : List (DashboardEvent κ)}

theorem Stems.grow (stems : app.Stems history session) (event : DashboardEvent κ) :
    app.Stems (history ++ [event]) session := by
  intro authenticated
  rcases stems authenticated with ⟨login, mem, logsIn, made⟩
  exact ⟨login, List.mem_append_left _ mem, logsIn, made⟩

/-- A route passes on where its session stems from, and a login begins anew. -/
theorem Stems.becomes {request : WebRequest κ} {final : WebSession}
    (stems : app.Stems history session) (becomes : app.Becomes request session final) :
    app.Stems (history ++ [.request request]) final := by
  cases becomes with
  | kept => exact stems.grow _
  | loggedIn logsIn =>
      intro _
      exact ⟨request, List.mem_append_right _ (.head _), logsIn, rfl⟩
  | loggedOut => exact nofun
  | minted authenticated without =>
      rcases stems authenticated with ⟨login, _, _, rfl⟩
      rcases without with none | empty
      · cases none
      · exact absurd (Option.some.inj empty) login.fresh.nonempty

/-- What a cookie reads as stems from a login. -/
def CookieStems (app : App κ σ) (history : List (DashboardEvent κ)) (cookie : κ) : Prop :=
  ∀ now session, app.cookies.unsign app.sessionSecret cookie now = some session →
    app.Stems history session

/-- The session of a request or of a socket stems from a login if its cookie does. -/
theorem stems_sessionOf {cookie : Option κ} {now : ℤ}
    (shown : ∀ token ∈ cookie.filter fun cookie =>
      (app.cookies.unsign app.sessionSecret cookie (seconds now)).isSome,
      app.CookieStems history token) : app.Stems history (app.sessionOf cookie now) := by
  rw [sessionOf]
  cases cookie with
  | none => exact nofun
  | some cookie =>
      rw [Option.bind_some]
      cases read : app.cookies.unsign app.sessionSecret cookie (seconds now) with
      | none => exact nofun
      | some session =>
          have good : cookie ∈ (some cookie).filter fun cookie =>
              (app.cookies.unsign app.sessionSecret cookie (seconds now)).isSome := by
            simp [Option.filter, read]
          exact shown cookie good (seconds now) session read

/-- An event hands out cookies that stem from a login if the one it shows does. -/
theorem cookieStems_issued (state : DashboardState)
    (shown : ∀ token ∈ app.presents event, app.CookieStems history token) :
    ∀ token ∈ app.issues state event, app.CookieStems (history ++ [event]) token := by
  intro token mem now session read
  cases event with
  | request request =>
      have stems : app.Stems history (app.sessionOf request.cookie request.now) :=
        stems_sessionOf shown
      have issued : token ∈ (app.serve request state.db).1.setCookie.issued := by
        simpa [issues, handle] using mem
      rcases (app.serve_cases request state.db).2 token issued with ⟨final, becomes, rfl⟩
      rw [app.cookies.unsign_sign] at read
      split_ifs at read
      cases read
      exact stems.becomes becomes
  | connect cookie now =>
      rw [issues, handle] at mem
      split_ifs at mem <;> cases mem
  | poll readings =>
      rw [issues, handle] at mem
      split_ifs at mem
      · cases mem
      · split at mem <;> cases mem
  | disconnect => cases mem

/-- In a genuine run every session stems from a login before it. -/
theorem Genuine.stems (genuine : app.Genuine start run) {before after : List (DashboardEvent κ)}
    (split : run = before ++ event :: after) :
    ∀ token ∈ app.presents event, app.CookieStems before token := by
  have grows : ∀ history event token, app.CookieStems history token →
      app.CookieStems (history ++ [event]) token := by
    intro history event token stems now session read
    exact (stems now session read).grow event
  exact Unforged.presented (motive := app.CookieStems) genuine grows
    (fun _ _ shown => cookieStems_issued _ shown) split

theorem Genuine.of_append {later : List (DashboardEvent κ)}
    (genuine : app.Genuine start (run ++ later)) : app.Genuine start run :=
  Unforged.of_append genuine

/-- The sessions of the connected tabs are those of logins. -/
theorem Genuine.sockets (genuine : app.Genuine start run) (closed : start.sockets = []) :
    ∀ session ∈ (runSteps app.step start run).sockets,
      session.authenticated = true ∧ app.Stems run session := by
  induction run using List.reverseRecOn with
  | nil => exact fun session mem => absurd (closed ▸ mem) List.not_mem_nil
  | append_singleton run event ih =>
      have kept : ∀ session ∈ (runSteps app.step start run).sockets,
          session.authenticated = true ∧ app.Stems (run ++ [event]) session := by
        intro session mem
        rcases ih genuine.of_append session mem with ⟨authenticated, stems⟩
        exact ⟨authenticated, stems.grow event⟩
      intro session mem
      rw [runSteps_concat] at mem
      cases event with
      | request request => exact kept session mem
      | connect cookie now =>
          rw [step, handle] at mem
          split_ifs at mem with authenticated
          · rcases List.mem_append.mp mem with old | new
            · exact kept session old
            · rw [List.mem_singleton.mp new]
              have stems : app.Stems run (app.sessionOf cookie now) :=
                stems_sessionOf (genuine.stems rfl)
              exact ⟨authenticated, stems.grow _⟩
          · exact kept session mem
      | poll tab readings =>
          rw [step, handle] at mem
          split_ifs at mem
          · exact kept session mem
          · split at mem
            · exact kept session mem
            · exact kept session (List.mem_of_mem_eraseIdx mem)
      | disconnect tab => exact kept session (List.mem_of_mem_eraseIdx mem)

/-- What a poll leaves. -/
theorem db_poll (app : App κ σ) (state : DashboardState) (tab : ℕ) (readings : Readings) :
    (app.step state (.poll tab readings)).db = state.db ∨
      (∃ session, state.sockets[tab]? = some session) ∧
        (app.step state (.poll tab readings)).db =
          KillSwitch.touch (state.db.openAccount app.initialCash) := by
  rw [step, handle]
  split_ifs with closed
  · exact .inl rfl
  · have connected : ∃ session, state.sockets[tab]? = some session :=
      ⟨_, List.getElem?_eq_getElem (not_le.mp closed)⟩
    cases viewed : app.snapshot readings state.db with
    | error error => exact .inl rfl
    | ok seen => exact .inr ⟨connected, snapshot_eq_ok viewed⟩

end Runs

end App

/-- Whatever clients send in a run without forged cookies, an event that moves the store is made in
the session that an earlier login with the right password made: it creates the rows that a view
needs, or it trips or resets the kill switch with the token that was drawn at that login, a reset
with the password once more. -/
theorem dashboard_authority {app : App κ σ} {start : DashboardState}
    {run : List (DashboardEvent κ)} (closed : start.sockets = []) (genuine : app.Genuine start run)
    {before after : List (DashboardEvent κ)} {event : DashboardEvent κ}
    (split : run = before ++ event :: after) :
    let state := runSteps app.step start before
    let db' := (runSteps app.step start (before ++ [event])).db
    db' = state.db ∨ ∃ login, .request login ∈ before ∧ app.LogsIn login ∧
      app.sessionIn state event = Auth.logIn login.fresh ∧
      (db' = KillSwitch.touch (state.db.openAccount app.initialCash) ∨
        ∃ request reason, event = .request request ∧
          (request.route = .killSwitchTrip (some reason) (some login.fresh.text) ∧
              db' = KillSwitch.trip reason .none (request.now / 1000) state.db ∨
            ∃ again, request.route =
                .killSwitchReset (some reason) (some again) (some login.fresh.text) ∧
              app.verifyPassword again = true ∧ KillSwitch.reset reason state.db = .ok db')) := by
  intro state db'
  have moved : db' = (app.step state event).db :=
    congrArg DashboardState.db (runSteps_concat ..)
  rw [moved]
  cases event with
  | request request =>
      have stems : app.Stems before (app.sessionOf request.cookie request.now) :=
        App.stems_sessionOf (genuine.stems split)
      have leaves := (app.serve_cases request state.db).1
      have served : (app.step state (.request request)).db = (app.serve request state.db).2 := rfl
      rw [served]
      generalize (app.serve request state.db).2 = final at leaves
      cases leaves with
      | same => exact .inl rfl
      | viewed authenticated =>
          rcases stems authenticated with ⟨login, mem, logsIn, made⟩
          exact .inr ⟨login, mem, logsIn, made, .inl rfl⟩
      | tripped authenticated csrf route =>
          rcases stems authenticated with ⟨login, mem, logsIn, made⟩
          rw [made] at csrf
          cases csrf
          exact .inr ⟨login, mem, logsIn, made, .inr ⟨request, _, rfl, .inl ⟨route, rfl⟩⟩⟩
      | reset authenticated csrf route verified reset =>
          rcases stems authenticated with ⟨login, mem, logsIn, made⟩
          rw [made] at csrf
          cases csrf
          exact .inr ⟨login, mem, logsIn, made,
            .inr ⟨request, _, rfl, .inr ⟨_, route, verified, reset⟩⟩⟩
  | connect cookie now =>
      left
      rw [App.step, App.handle]
      split_ifs <;> rfl
  | poll tab readings =>
      rcases app.db_poll state tab readings with same | ⟨⟨session, connected⟩, viewed⟩
      · exact .inl same
      · have earlier : app.Genuine start before := by
          rw [split] at genuine
          exact genuine.of_append
        have polled : app.sessionIn state (.poll tab readings) = session := by
          rw [App.sessionIn, connected, Option.getD_some]
        rcases earlier.sockets closed session (List.mem_of_getElem? connected) with
          ⟨authenticated, stems⟩
        rcases stems authenticated with ⟨login, mem, logsIn, made⟩
        exact .inr ⟨login, mem, logsIn, polled.trans made, .inl viewed⟩
  | disconnect tab => exact .inl rfl

/-! ### A login and a trip -/

/-- Cookies that carry their session in the open, under a name for the secret. -/
def plainCookies : SessionCookies (String × WebSession × ℤ) where
  sign secret session signedAt := (secret, session, signedAt)
  unsign secret cookie now :=
    if cookie.1 = secret ∧ 0 ≤ now - cookie.2.2 ∧ now - cookie.2.2 ≤ 1209600 then some cookie.2.1
    else none
  maxAge := 1209600
  unsign_sign secret session signedAt now := by simp

def sampleToken : UrlToken := ⟨"k3y", by decide, by decide⟩

def sampleApp : App (String × WebSession × ℤ) Unit where
  secrets := ⟨some "hash of swordfish", some "secret"⟩
  initialCash := 1000
  cookies := plainCookies
  resends := true
  verify passwordHash password := passwordHash = "hash of " ++ password
  statistics _ := ()
  configured := by decide

def sampleRequest (cookie : Option (String × WebSession × ℤ)) (route : Route) (now : ℤ) :
    WebRequest (String × WebSession × ℤ) :=
  ⟨cookie, route, now, sampleToken, ⟨sampleSources, []⟩⟩

def sampleLogin : WebRequest (String × WebSession × ℤ) :=
  sampleRequest none (.login (some "swordfish")) 5000000

/-- A trip with the cookie and the token of that login, a second later. -/
def sampleTrip : WebRequest (String × WebSession × ℤ) :=
  sampleRequest (some ("secret", ⟨true, some "k3y"⟩, 5))
    (.killSwitchTrip (some "lunch") (some "k3y")) 6000000

def emptyDesk : DashboardState := ⟨⟨[], .empty, .empty, [], [], ∅, [], none, none⟩, []⟩

theorem sampleRun_genuine :
    sampleApp.Genuine emptyDesk [.request sampleLogin, .request sampleTrip] := by
  have first : Unforged sampleApp.step sampleApp.issues sampleApp.presents emptyDesk
      [.request sampleLogin] := unforged_nil.concat nofun
  apply first.concat
  intro cookie shown
  cases shown
  exact List.mem_singleton.mpr rfl

theorem dashboard_authority_sample :
    let state := runSteps sampleApp.step emptyDesk [.request sampleLogin]
    let db' := (runSteps sampleApp.step emptyDesk [.request sampleLogin, .request sampleTrip]).db
    KillSwitch.isTripped db' = true ∧ (db' = state.db ∨ ∃ login,
      .request login ∈ [DashboardEvent.request sampleLogin] ∧ sampleApp.LogsIn login ∧
        sampleApp.sessionIn state (.request sampleTrip) = Auth.logIn login.fresh ∧
        (db' = KillSwitch.touch (state.db.openAccount sampleApp.initialCash) ∨
          ∃ request reason, .request sampleTrip = DashboardEvent.request request ∧
            (request.route = .killSwitchTrip (some reason) (some login.fresh.text) ∧
                db' = KillSwitch.trip reason .none (request.now / 1000) state.db ∨
              ∃ again, request.route =
                  .killSwitchReset (some reason) (some again) (some login.fresh.text) ∧
                sampleApp.verifyPassword again = true ∧
                KillSwitch.reset reason state.db = .ok db'))) := by
  have split : [DashboardEvent.request sampleLogin, .request sampleTrip] =
    [.request sampleLogin] ++ .request sampleTrip :: [] := rfl
  have acts := dashboard_authority rfl sampleRun_genuine split
  exact ⟨by decide +kernel, acts⟩

/-! ## Outsiders -/

namespace App

/-- The outputs of a run. -/
def outputs (app : App κ σ) (start : DashboardState) (run : List (DashboardEvent κ)) :
    List (DashboardOutput κ σ) :=
  projected app.step (fun state event => (app.handle state event).1) start run

variable {app : App κ σ} {request : WebRequest κ} {session : WebSession}

/-- A page sends everybody else to the login. -/
theorem page_of_not (outside : session.authenticated = false) (db : DB)
    (body : Except RouteError (Answer σ)) :
    page session db body = .ok (redirectToLogin session db) := by
  rw [page, Auth.isAuthenticated, outside]
  rfl

theorem api_of_not (outside : session.authenticated = false)
    (body : Except RouteError (Answer σ)) :
    api session body = .error (.http 401 "not authenticated") := by
  rw [api, Auth.requireLogin, Auth.isAuthenticated, outside]
  rfl

/-- Without authentication a route neither reads the store nor writes to it. -/
theorem route_of_not (app : App κ σ) (request : WebRequest κ)
    (outside : session.authenticated = false) :
    ∃ result : Except RouteError (ℕ × Content σ × WebSession), ∀ db,
      app.route request session db =
        result.map fun answer => ⟨answer.1, answer.2.1, answer.2.2, db⟩ := by
  simp only [route]
  cases request.route with
  | loginForm =>
      refine ⟨.ok (200, .loginPage none, session), fun db => ?_⟩
      simp only [Auth.isAuthenticated, outside]
      rfl
  | login password =>
      rcases filled : required [("password", password)] with error | ⟨⟩
      · refine ⟨.error error, fun db => ?_⟩
        simp only [loginSubmit, filled]
        rfl
      · by_cases verified : app.verifyPassword (password.getD "") = true
        · refine ⟨.ok (303, .redirect "/", Auth.logIn request.fresh), fun db => ?_⟩
          simp only [loginSubmit, filled, verified]
          rfl
        · refine ⟨.ok (401, .loginPage (some "wrong password"), session), fun db => ?_⟩
          simp only [loginSubmit, filled, verified]
          rfl
  | logout => exact ⟨.ok (303, .redirect "/login", Auth.logOut), fun db => rfl⟩
  | overview | recommendationsPage | journalPage =>
      exact ⟨.ok (303, .redirect "/login", session), fun db => page_of_not outside db _⟩
  | reportsPage period =>
      simp only [reportsPage, page_of_not outside]
      split
      · exact ⟨.ok (303, .redirect "/login", session), fun db => rfl⟩
      · exact ⟨.ok (303, .redirect "/login", session), fun db => rfl⟩
      · exact ⟨.error (.missing ["period"]), fun db => rfl⟩
  | account | recommendations | journal | reportDaily | reportWeekly | killSwitchTrip |
      killSwitchReset =>
      exact ⟨.error (.http 401 "not authenticated"), fun db => api_of_not outside _⟩

theorem serve_of_not (app : App κ σ)
    (outside : (app.sessionOf request.cookie request.now).authenticated = false) :
    ∃ response, ∀ db, app.serve request db = (response, db) := by
  rcases app.route_of_not request outside with ⟨result, routed⟩
  simp only [serve, routed]
  rcases result with (_ | _ | _) | answer
  · exact ⟨_, fun db => rfl⟩
  · exact ⟨_, fun db => rfl⟩
  · exact ⟨_, fun db => rfl⟩
  · exact ⟨⟨answer.1, answer.2.1, app.setCookie request.now
      (app.sessionOf request.cookie request.now) answer.2.2⟩, fun db => rfl⟩

/-- Where sessions stem from no login, an event says nothing of the store and leaves it alone. -/
theorem handle_of_outside {history : List (DashboardEvent κ)} {event : DashboardEvent κ}
    (shown : ∀ token ∈ app.presents event, app.CookieStems history token)
    (outside : ∀ login, .request login ∈ history → ¬ app.LogsIn login) :
    ∃ output, ∀ state : DashboardState, state.sockets = [] →
      app.handle state event = (output, state) := by
  have unknown : ∀ session, app.Stems history session → session.authenticated = false := by
    intro session stems
    by_contra authenticated
    rw [Bool.not_eq_false] at authenticated
    rcases stems authenticated with ⟨login, mem, logsIn, _⟩
    exact outside login mem logsIn
  cases event with
  | request request =>
      rcases app.serve_of_not (unknown _ (stems_sessionOf shown)) with ⟨response, served⟩
      refine ⟨[.response response], fun state _ => ?_⟩
      rw [handle, served]
  | connect cookie now =>
      refine ⟨[.closed 4401], fun state _ => ?_⟩
      rw [handle, Auth.isAuthenticated, unknown _ (stems_sessionOf shown)]
      rfl
  | poll tab readings =>
      refine ⟨[], fun state closed => ?_⟩
      rw [handle, if_pos (by simp [closed])]
  | disconnect tab =>
      refine ⟨[], fun state closed => ?_⟩
      rcases state with ⟨db, sockets⟩
      simp only at closed
      subst sockets
      rfl

end App

/-- Clients that never enter the right password, and forge no cookies, get the same answers
whatever is in the store, and leave it as it is. -/
theorem outsider_learns_nothing {app : App κ σ} {start start' : DashboardState}
    {run : List (DashboardEvent κ)} (closed : start.sockets = []) (closed' : start'.sockets = [])
    (genuine : app.Genuine start run)
    (outside : ∀ request, .request request ∈ run → ¬ app.LogsIn request) :
    app.outputs start run = app.outputs start' run ∧
      runSteps app.step start run = start ∧ runSteps app.step start' run = start' := by
  induction run using List.reverseRecOn with
  | nil => exact ⟨rfl, rfl, rfl⟩
  | append_singleton run event ih =>
      have before := fun request mem => outside request (List.mem_append_left _ mem)
      rcases ih genuine.of_append before with ⟨same, unmoved, unmoved'⟩
      rcases App.handle_of_outside (genuine.stems rfl) before with ⟨output, quiet⟩
      refine ⟨?_, ?_, ?_⟩
      · rw [App.outputs, App.outputs, projected_concat, projected_concat, unmoved, unmoved',
          quiet _ closed, quiet _ closed']
        exact congrArg (· ++ output) same
      · rw [runSteps_concat, unmoved, App.step, quiet _ closed]
      · rw [runSteps_concat, unmoved', App.step, quiet _ closed']

/-- A wrong password, and a trip with a cookie under another secret. -/
theorem outsider_learns_nothing_sample :
    let run : List (DashboardEvent (String × WebSession × ℤ)) :=
      [.request (sampleRequest none (.login (some "guess")) 5000000),
        .request (sampleRequest (some ("other", ⟨true, some "k3y"⟩, 5))
          (.killSwitchTrip (some "lunch") (some "k3y")) 6000000)]
    sampleApp.outputs emptyDesk run =
        sampleApp.outputs { emptyDesk with db := KillSwitch.touch emptyDesk.db } run ∧
      runSteps sampleApp.step emptyDesk run = emptyDesk ∧
      runSteps sampleApp.step { emptyDesk with db := KillSwitch.touch emptyDesk.db } run =
        { emptyDesk with db := KillSwitch.touch emptyDesk.db } := by
  intro run
  have first : Unforged sampleApp.step sampleApp.issues sampleApp.presents emptyDesk
      [.request (sampleRequest none (.login (some "guess")) 5000000)] := unforged_nil.concat nofun
  have genuine : sampleApp.Genuine emptyDesk run := first.concat nofun
  refine outsider_learns_nothing rfl rfl genuine ?_
  rintro request mem ⟨password, route, _, verified⟩
  simp only [run, List.mem_cons, DashboardEvent.request.injEq, List.not_mem_nil, or_false] at mem
  rcases mem with rfl | rfl
  · cases route
    revert verified
    decide
  · cases route

end PersonalTrade
