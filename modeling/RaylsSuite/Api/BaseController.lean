import RaylsSuite.Common.Retry

/-! # The backend behind the controllers

A controller sends requests to a backend that submits transactions and waits
for them. A request that the backend executes need not be answered: the client
may have given up on the reply by then.
-/

namespace RaylsSuite.Api

open Common Entities

/-- The fields of an answer's body that a caller reads. -/
structure Body where
  tx_hash : Option String
  code : Option String
  errorCode : Option String
  message : Option String
  error : Option String
deriving DecidableEq, Repr

structure Answer where
  status : Nat
  body : Body
deriving DecidableEq, Repr

/-- The statuses that the client's default `validateStatus` accepts. -/
def Answer.isSuccess (answer : Answer) : Bool := decide (200 ≤ answer.status ∧ answer.status < 300)

structure BackendError where
  message : String
  status : Nat
  code : Option String
deriving DecidableEq, Repr

/-- What a caller of a controller may catch. -/
inductive Failure where
  | undefined
  | error (message : String)
  | backend (err : BackendError)
deriving DecidableEq, Repr

instance : Inhabited Failure := ⟨.undefined⟩

/-- What becomes of one request. A refused request was not executed: it did not reach the
backend, or it was answered with an error. The reply of a lost one never arrived. -/
inductive Exchange where
  | refused (answer : Option Answer) (errMessage : Option String)
      (refusal : ∀ given ∈ answer, given.isSuccess = false)
  | lost (errMessage : Option String)
  | answered (answer : Answer)

namespace Exchange

/-- The backend executed the request. -/
def executed : Exchange → Bool
  | .refused _ _ _ => false
  | .lost _ => true
  | .answered _ => true

def answer? : Exchange → Option Answer
  | .refused answer _ _ => answer
  | .lost _ => none
  | .answered answer => some answer

/-- `err.message` of the client's own error, which only an exchange without an answer needs. -/
def errMessage : Exchange → Option String
  | .refused _ message _ => message
  | .lost message => message
  | .answered _ => none

end Exchange

/-- The interceptor's error: without a response its status is 0. -/
def BackendError.ofExchange (exchange : Exchange) : BackendError :=
  let data := exchange.answer?.map Answer.body
  { message := (((data.bind Body.message).or (data.bind Body.error)).or exchange.errMessage).getD
      "Request failed"
    status := (exchange.answer?.map Answer.status).getD 0
    code := (data.bind Body.code).or (data.bind Body.errorCode) }

/-- How `post` settles. -/
def Exchange.post (exchange : Exchange) : Except Failure Body :=
  match exchange.answer? with
  | some answer =>
      if answer.isSuccess then .ok answer.body
      else .error (.backend (BackendError.ofExchange exchange))
  | none => .error (.backend (BackendError.ofExchange exchange))

/-- A client that has sent some requests. -/
structure ClientSession where
  requests : Nat
  clock : Nat
  logger : Logger

instance : Host ClientSession where
  delay ms session := { session with clock := session.clock + ms }
  logger := ClientSession.logger
  setLogger logger session := { session with logger := logger }

def ClientSession.start : ClientSession := ⟨0, 0, Logger.new⟩

/-- A request to a backend whose `n`-th exchange is known. -/
def post (backend : Nat → Exchange) : Async ClientSession Failure Body := fun session =>
  ((backend session.requests).post, { session with requests := session.requests + 1 })

/-- A POST that resolves was executed. -/
theorem Exchange.executed_of_post {exchange : Exchange} {body : Body}
    (hpost : exchange.post = .ok body) : exchange.executed = true := by
  cases exchange with
  | lost message => rfl
  | answered answer => rfl
  | refused answer message refusal =>
      cases answer with
      | none => cases hpost
      | some answer =>
          have hrefused : answer.isSuccess = false := refusal answer rfl
          simp [Exchange.post, Exchange.answer?, hrefused] at hpost

end RaylsSuite.Api
