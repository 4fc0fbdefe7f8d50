import PersonalTrade.Core.Config
import PersonalTrade.Data.Reconnect
import PersonalTrade.Execution.Broker
import PersonalTrade.Library.Retry

/-!
# Upstox over HTTP

The requests of `execution/upstox/broker.py`, the answers they can get, and
`_request` with its retries. The Upstox servers are a parameter, a `Transport`: any
function that answers a request and changes an outside world. Answers carry their
JSON body already sorted by shape; reading a body for a shape that it does not have
raises what the field accesses of the source raise.
-/

namespace PersonalTrade

open Transaction

/-- The body of a place-order request. -/
structure OrderBody where
  quantity : ℕ
  product : String
  validity : String
  price : ℚ
  tag : String
  instrumentToken : String
  orderType : String
  transactionType : String
  disclosedQuantity : ℕ
  triggerPrice : ℚ
  isAmo : Bool
  marketProtection : ℤ
deriving DecidableEq, Repr

/-- The REST calls the broker makes. -/
inductive HttpRequest where
  | getFunds
  | getPositions
  | getOrderDetails (orderId : String)
  | placeOrder (body : OrderBody)
  | cancelOrder (orderId : String)
deriving DecidableEq, Repr

/-- The HTTP method of a call. -/
def HttpRequest.method : HttpRequest → String
  | getFunds | getPositions | getOrderDetails _ => "GET"
  | placeOrder _ => "POST"
  | cancelOrder _ => "DELETE"

/-- The URL of a call. -/
def HttpRequest.url : HttpRequest → String
  | getFunds => "https://api.upstox.com/v2/user/get-funds-and-margin"
  | getPositions => "https://api.upstox.com/v2/portfolio/short-term-positions"
  | getOrderDetails _ => "https://api.upstox.com/v2/order/details"
  | placeOrder _ => "https://api-hft.upstox.com/v2/order/place"
  | cancelOrder _ => "https://api-hft.upstox.com/v2/order/cancel"

/-- The fields of an order-details body that are read; any may be missing. -/
structure OrderReport where
  quantity : Option ℤ := none
  filledQuantity : Option ℤ := none
  status : Option String := none
  averagePrice : Option ℚ := none
deriving DecidableEq, Repr

/-- The fields of a row of the positions body that are read. -/
structure PositionRow where
  instrumentToken : Option String := none
  quantity : Option ℤ := none
  averagePrice : Option ℚ := none
  lastPrice : Option ℚ := none
deriving DecidableEq, Repr

/-- A JSON body by shape; `malformed` carries what reading it raises. -/
inductive Payload where
  | funds (availableMargin : Option ℚ)
  | positions (rows : List PositionRow)
  | orderDetails (report : OrderReport)
  | orderPlaced (orderId : String)
  | malformed (raised : PyError)
deriving DecidableEq, Repr

namespace Payload

/-- `payload["data"]["order_id"]`. -/
def orderId : Payload → Except PyError String
  | orderPlaced orderId => .ok orderId
  | malformed raised => .error raised
  | positions _ => .error (.typeError "list indices must be integers or slices, not str")
  | funds _ | orderDetails _ => .error (.keyError "order_id")

/-- `payload.get("data", {})`, read as an order report. -/
def report : Payload → Except PyError OrderReport
  | orderDetails report => .ok report
  | malformed raised => .error raised
  | positions _ => .error (.attributeError "'list' object has no attribute 'get'")
  | funds _ | orderPlaced _ => .ok {}

/-- `payload.get("data") or []`, read as position rows. -/
def rows : Payload → Except PyError (List PositionRow)
  | positions rows => .ok rows
  | malformed raised => .error raised
  | funds _ | orderDetails _ | orderPlaced _ =>
      .error (.attributeError "'str' object has no attribute 'get'")

/-- The available margin, zero when it is missing. -/
def availableMargin : Payload → Except PyError ℚ
  | funds availableMargin => .ok (availableMargin.getD 0)
  | malformed raised => .error raised
  | positions _ => .error (.attributeError "'list' object has no attribute 'get'")
  | orderDetails _ | orderPlaced _ => .ok 0

end Payload

/-- What can come back from a call: a 2xx answer with a JSON body or without one,
any other status, or no answer at all. -/
inductive HttpAnswer where
  | ok (payload : Payload)
  | invalidJson (message : String)
  | status (code : ℕ) (text : String)
  | transportError (message : String)
deriving DecidableEq, Repr

/-- The outside that answers calls. -/
abbrev Transport (ω : Type) := HttpRequest → ω → HttpAnswer × ω

/-- The first characters of a string, `text[:n]`. -/
def prefixOf (n : ℕ) (text : String) : String := String.ofList (text.toList.take n)

/-- The policy of the Upstox broker. -/
def retryPolicy : ReconnectPolicy where
  baseDelay := 1 / 2
  maxDelay := 8
  factor := 2
  baseDelay_pos := by norm_num
  baseDelay_le := by norm_num
  one_lt_factor := one_lt_defaultFactor

/-- The status codes that are retried. -/
def retryable (code : ℕ) : Bool := code = 429 || decide (500 ≤ code)

/-- What one attempt of `_request` makes of an answer. -/
def HttpAnswer.verdict (request : HttpRequest) : HttpAnswer → Retry.Verdict PyError Payload
  | ok payload => .done payload
  | invalidJson message =>
      .fail (.upstoxBrokerError (request.method ++ " " ++ request.url ++ " failed: " ++ message))
  | status code text =>
      let raised := PyError.upstoxBrokerError (request.method ++ " " ++ request.url ++
        " failed: HTTP " ++ toString code ++ ": " ++ prefixOf 300 text)
      if retryable code then .again raised else .fail raised
  | transportError message =>
      .fail (.upstoxBrokerError (request.method ++ " " ++ request.url ++ " failed: " ++ message))

/-- One attempt of `_request`. -/
def attemptRequest {ω : Type} (transport : Transport ω) (request : HttpRequest) (world : ω) :
    Retry.Verdict PyError Payload × ω :=
  ((transport request world).1.verdict request, (transport request world).2)

/-- The pause before a retry: computing it may overflow, sleeping changes nothing. -/
def pauseBefore (attempt : ℕ) : Except PyError Unit :=
  (retryPolicy.delayFor attempt).map fun _ => ()

/-- `_request`. -/
def sendRequest {ω : Type} (transport : Transport ω) (maxRetries : ℕ) (request : HttpRequest)
    (world : ω) : Except PyError Payload × ω :=
  Retry.retry (attemptRequest transport request) pauseBefore 0 maxRetries world

theorem pauseBefore_eq_ok {attempt : ℕ} : pauseBefore attempt = .ok () ↔ attempt < 1024 := by
  have powLe : (2 : ℚ) ^ 1024 ≤ 2 ^ attempt ↔ 1024 ≤ attempt :=
    pow_le_pow_iff_right₀ (by norm_num)
  simp only [pauseBefore, ReconnectPolicy.delayFor, retryPolicy, powLe]
  split_ifs with overflow
  · simp [Except.map]
    omega
  · simp [Except.map]
    omega

theorem verdict_isAgain {request : HttpRequest} {answer : HttpAnswer} :
    (answer.verdict request).IsAgain ↔ ∃ code text, answer = .status code text ∧
      retryable code = true := by
  cases answer with
  | ok payload => simp [HttpAnswer.verdict, Retry.Verdict.IsAgain]
  | invalidJson message => simp [HttpAnswer.verdict, Retry.Verdict.IsAgain]
  | transportError message => simp [HttpAnswer.verdict, Retry.Verdict.IsAgain]
  | status code text =>
      simp only [HttpAnswer.verdict, HttpAnswer.status.injEq]
      split_ifs with again
      · simp [Retry.Verdict.IsAgain, again]
      · simp [Retry.Verdict.IsAgain, again]

theorem verdict_eq_done {request : HttpRequest} {answer : HttpAnswer} {payload : Payload} :
    answer.verdict request = .done payload ↔ answer = .ok payload := by
  cases answer with
  | status code text =>
      simp only [HttpAnswer.verdict]
      split_ifs <;> simp
  | _ => simp [HttpAnswer.verdict]

section Requests

variable {ω : Type} {transport : Transport ω} {maxRetries : ℕ} {call : HttpRequest}
  {world world' : ω}

/-- The body that a request returns is the last answer it got. -/
theorem sendRequest_answered {payload : Payload}
    (sent : sendRequest transport maxRetries call world = (.ok payload, world')) :
    ∃ middle, transport call middle = (.ok payload, world') := by
  rcases Retry.retry_last (attemptRequest transport call) pauseBefore maxRetries world with
    ⟨n, _, worldEq, ends⟩
  rw [← sendRequest, sent] at worldEq ends
  have done := (ends.eq_ok_iff payload).mp rfl
  rw [Retry.worldAfter_succ] at worldEq
  exact ⟨_, Prod.ext (verdict_eq_done.mp done) worldEq.symm⟩

/-- A request moves the world along every preorder along which the answers move it. -/
theorem sendRequest_moves {rel : ω → ω → Prop} [IsPreorder ω rel]
    (moved : ∀ world, rel world (transport call world).2) (maxRetries : ℕ) (world : ω) :
    rel world (sendRequest transport maxRetries call world).2 :=
  Retry.retry_moves moved _ _ _

end Requests

end PersonalTrade
