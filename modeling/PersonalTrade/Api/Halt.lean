import PersonalTrade.Api.Authority
import PersonalTrade.Orchestrator.Delivery

/-!
# Halting from the dashboard

The dashboard and the trading session are two processes over one state store, whose transactions
interleave in any order. Whoever has logged in can halt the trading: the trip is answered whatever
has happened since the login, and after it no order is created until somebody resets the kill
switch, from the dashboard only with the password (`operator_halts`).
-/

namespace PersonalTrade

variable {ω κ τ : Type}

/-- The two processes. -/
structure Desk (ω κ τ : Type) where
  orchestrator : Orchestrator ω
  app : App κ τ

/-- The session, whose store the dashboard shares, and the tabs of the dashboard. -/
structure DeskState (ω : Type) where
  session : SessionState ω
  sockets : List WebSession := []

inductive DeskEvent (ω κ : Type) where
  | trading (event : SessionEvent ω)
  | dashboard (event : DashboardEvent κ)

/-- The dashboard's side of a state. -/
def DeskState.dashboard (state : DeskState ω) : DashboardState := ⟨state.session.db, state.sockets⟩

namespace Desk

/-- One transaction of either process. -/
def step (desk : Desk ω κ τ) (state : DeskState ω) : DeskEvent ω κ → DeskState ω
  | .trading event => { state with session := desk.orchestrator.step state.session event }
  | .dashboard event =>
      let after := desk.app.step state.dashboard event
      ⟨{ state.session with db := after.db }, after.sockets⟩

/-- The event may reset the kill switch: from outside, or from the dashboard with the password. -/
def Resets (desk : Desk ω κ τ) : DeskEvent ω κ → Prop
  | .trading (.reset _) => True
  | .dashboard (.request request) => ∃ reason password token,
      request.route = .killSwitchReset reason (some password) token ∧
        desk.app.verifyPassword password = true
  | _ => False

end Desk

namespace App

variable {app : App κ τ}

/-- The session of a login, as long as its cookie is young enough. -/
theorem sessionOf_login {login : WebRequest κ} (logsIn : app.LogsIn login) {db : DB} {cookie : κ}
    (issued : (app.serve login db).1.setCookie = .set cookie) {now : ℤ}
    (young : 0 ≤ seconds now - seconds login.now ∧
      seconds now - seconds login.now ≤ app.cookies.maxAge) :
    app.sessionOf (some cookie) now = Auth.logIn login.fresh := by
  rcases logsIn with ⟨password, route, nonempty, verified⟩
  have signed : cookie =
      app.cookies.sign app.sessionSecret (Auth.logIn login.fresh) (seconds login.now) := by
    have filled : required [("password", some password)] = .ok () := by simp [required, nonempty]
    have answered : app.route login (app.sessionOf login.cookie login.now) db =
        .ok ⟨303, .redirect "/", Auth.logIn login.fresh, db⟩ := by
      simp only [App.route, route, loginSubmit, filled, Option.getD_some, verified]
      rfl
    rw [serve, answered] at issued
    simp only [setCookie] at issued
    split_ifs at issued
    exact (SetCookie.set.inj issued).symm
  rw [sessionOf, Option.bind_some, signed, app.cookies.unsign_sign, if_pos young]
  rfl

/-- A trip in the session of a login is answered. -/
theorem serve_trip {trip : WebRequest κ} {fresh : UrlToken} {reason : String}
    (session : app.sessionOf trip.cookie trip.now = Auth.logIn fresh)
    (route : trip.route = .killSwitchTrip (some reason) (some fresh.text)) (stated : reason ≠ "")
    (db : DB) :
    let after := KillSwitch.trip reason .none (trip.now / 1000) db
    (app.serve trip db).1.status = 200 ∧
      (app.serve trip db).1.content = .killSwitch true after.killSwitch.reason ∧
      (app.serve trip db).2 = after := by
  intro after
  have passed : Auth.requireLogin (Auth.logIn fresh) = .ok () :=
    Auth.requireLogin_eq_ok.mpr rfl
  have checked : Auth.requireCsrf (Auth.logIn fresh) fresh.text = .ok () :=
    Auth.requireCsrf_eq_ok.mpr ⟨rfl, fresh.nonempty, fresh.ascii⟩
  have filled : required [("reason", some reason), ("csrf_token", some fresh.text)] = .ok () := by
    simp [required, stated, fresh.nonempty]
  have answered : app.route trip (Auth.logIn fresh) db = .ok
      { content := .killSwitch after.killSwitch.tripped after.killSwitch.reason
        session := Auth.logIn fresh, db := after } := by
    simp only [App.route, route, api, passed, killSwitchTrip, filled, Option.getD_some, checked]
    rfl
  have tripped : after.killSwitch.tripped = true := KillSwitch.isTripped_trip ..
  rw [serve, session, answered]
  exact ⟨rfl, by rw [tripped], rfl⟩

end App

namespace Desk

variable {desk : Desk ω κ τ} {start : DB}

/-- What the dashboard does not reset stays halted. -/
theorem halted_dashboard {state : DeskState ω} {event : DashboardEvent κ}
    (halted : Orchestrator.Halted start state.session)
    (kept : ¬ desk.Resets (.dashboard event)) :
    Orchestrator.Halted start (desk.step state (.dashboard event)).session := by
  have seen : Orchestrator.Halted start { state.session with
      db := KillSwitch.touch (state.session.db.openAccount desk.app.initialCash) } :=
    ⟨halted.tripped, halted.orders⟩
  have moved : (desk.step state (.dashboard event)).session =
    { state.session with db := (desk.app.step state.dashboard event).db } := rfl
  rw [moved]
  cases event with
  | request request =>
      have leaves := (desk.app.serve_cases request state.session.db).1
      have served : (desk.app.step state.dashboard (.request request)).db =
        (desk.app.serve request state.session.db).2 := rfl
      rw [served]
      generalize (desk.app.serve request state.session.db).2 = final at leaves
      cases leaves with
      | same => exact halted
      | viewed authenticated => exact seen
      | tripped authenticated csrf route =>
          refine ⟨KillSwitch.isTripped_trip .., ?_⟩
          exact (congrArg RowTable.nextId (KillSwitch.trip_frame ..).1).trans halted.orders
      | reset authenticated csrf route verified reset =>
          exact absurd ⟨_, _, _, route, verified⟩ kept
  | connect cookie now =>
      rw [App.step, App.handle]
      split_ifs
      · exact halted
      · exact halted
  | poll tab readings =>
      rcases desk.app.db_poll state.dashboard tab readings with same | ⟨_, viewed⟩
      · rw [same]
        exact halted
      · rw [viewed]
        exact seen
  | disconnect tab => exact halted

/-- What nobody resets stays halted. -/
theorem halted_run (trades : desk.orchestrator.mode ≠ .backtest) {state : DeskState ω}
    (halted : Orchestrator.Halted start state.session) {run : List (DeskEvent ω κ)}
    (kept : ∀ event ∈ run, ¬ desk.Resets event) :
    Orchestrator.Halted start (runSteps desk.step state run).session := by
  induction run generalizing state with
  | nil => exact halted
  | cons event run ih =>
      rcases List.forall_mem_cons.mp kept with ⟨first, rest⟩
      refine ih ?_ rest
      cases event with
      | dashboard event => exact halted_dashboard halted first
      | trading event =>
          refine halted.step trades fun reason same => first ?_
          rw [same]
          trivial

/-- However the dashboard and the trading session interleave, a trip with a reason and with the
cookie and the token of a login is answered while the cookie is young, and after it no order is
created and the kill switch stays tripped until somebody resets it. -/
theorem operator_halts (trades : desk.orchestrator.mode ≠ .backtest) (start : DeskState ω)
    (before between after : List (DeskEvent ω κ)) {login trip : WebRequest κ} {cookie : κ}
    {reason : String} (logsIn : desk.app.LogsIn login)
    (issued : (desk.app.serve login (runSteps desk.step start before).session.db).1.setCookie =
      .set cookie)
    (shown : trip.cookie = some cookie)
    (route : trip.route = .killSwitchTrip (some reason) (some login.fresh.text))
    (stated : reason ≠ "")
    (young : 0 ≤ seconds trip.now - seconds login.now ∧
      seconds trip.now - seconds login.now ≤ desk.app.cookies.maxAge)
    (kept : ∀ event ∈ after, ¬ desk.Resets event) :
    let earlier := before ++ .dashboard (.request login) :: between
    let atTrip := (runSteps desk.step start earlier).session.db
    let final := (runSteps desk.step start
      (earlier ++ .dashboard (.request trip) :: after)).session.db
    (desk.app.serve trip atTrip).1.status = 200 ∧
      (∃ reason, (desk.app.serve trip atTrip).1.content = .killSwitch true reason) ∧
      KillSwitch.isTripped final = true ∧ final.orders.nextId = atTrip.orders.nextId := by
  intro earlier atTrip final
  have session : desk.app.sessionOf trip.cookie trip.now = Auth.logIn login.fresh := by
    rw [shown]
    exact App.sessionOf_login logsIn issued young
  rcases App.serve_trip session route stated atTrip with ⟨status, content, served⟩
  have halts : Orchestrator.Halted atTrip (desk.step (runSteps desk.step start earlier)
      (.dashboard (.request trip))).session := by
    have db : (desk.step (runSteps desk.step start earlier)
        (.dashboard (.request trip))).session.db = (desk.app.serve trip atTrip).2 := rfl
    refine ⟨?_, ?_⟩
    · rw [db, served]
      exact KillSwitch.isTripped_trip ..
    · rw [db, served]
      exact congrArg RowTable.nextId (KillSwitch.trip_frame ..).1
  have halted : Orchestrator.Halted atTrip (runSteps desk.step start
      (earlier ++ .dashboard (.request trip) :: after)).session := by
    rw [runSteps_append]
    exact halted_run trades halts kept
  exact ⟨status, ⟨_, content⟩, halted.tripped, halted.orders⟩

/-- A candle between the login and the trip opens a position; one after it opens none. -/
theorem operator_halts_sample :
    let desk : Desk (List String) (String × WebSession × ℤ) Unit :=
      ⟨Orchestrator.sampleSession .paper, sampleApp⟩
    let earlier := [.dashboard (.request sampleLogin),
      .trading (Orchestrator.signalCandle "NSE_EQ|INFY" 100 .long "a")]
    let atTrip := (runSteps desk.step ⟨Orchestrator.sampleStart, []⟩ earlier).session.db
    let final := (runSteps desk.step ⟨Orchestrator.sampleStart, []⟩ (earlier ++
      [.dashboard (.request sampleTrip),
        .trading (Orchestrator.signalCandle "NSE_EQ|TCS" 10 .long "b")])).session.db
    atTrip.orders.nextId = 1 ∧ (desk.app.serve sampleTrip atTrip).1.status = 200 ∧
      KillSwitch.isTripped final = true ∧ final.orders.nextId = atTrip.orders.nextId := by
  intro desk earlier atTrip final
  have logsIn : desk.app.LogsIn sampleLogin := ⟨"swordfish", rfl, by decide, by decide⟩
  have kept : ∀ event ∈ [DeskEvent.trading (Orchestrator.signalCandle "NSE_EQ|TCS" 10 .long "b")],
      ¬ desk.Resets event := by
    intro event mem resets
    rw [List.mem_singleton.mp mem] at resets
    exact resets
  have issued : (desk.app.serve sampleLogin
      (runSteps desk.step ⟨Orchestrator.sampleStart, []⟩ []).session.db).1.setCookie =
    .set ("secret", ⟨true, some "k3y"⟩, 5) := rfl
  have shown : sampleTrip.cookie = some ("secret", ⟨true, some "k3y"⟩, 5) := rfl
  have halts := operator_halts (by decide : desk.orchestrator.mode ≠ .backtest)
    ⟨Orchestrator.sampleStart, []⟩ []
    [.trading (Orchestrator.signalCandle "NSE_EQ|INFY" 100 .long "a")] _ logsIn issued shown rfl
    (by decide) (by decide) kept
  exact ⟨by decide +kernel, halts.1, halts.2.2⟩

end Desk

end PersonalTrade
