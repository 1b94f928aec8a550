import RaylsSuite.Common.JsVal
import RaylsSuite.Foundation.Percent

/-! # Fault injection

A relayer keeps the faults that the tests arm in sessions, one for each test.
A session's client names it and its fault points in the URLs of its requests.
-/

namespace RaylsSuite.Common

open Foundation

inductive FaultAction where
  | crash
  | sleep
  | panic
  | error
deriving DecidableEq, Repr

structure FaultRule where
  point : String
  action : FaultAction
  duration_ms : Option Nat := none
  message : Option String := none
  error_code : Option String := none
  one_shot : Option Bool := none
  max_count : Option Nat := none
  triggered : Option Nat := none
deriving DecidableEq, Repr

structure TriggerEvent where
  point : String
  action : FaultAction
  code : Option String := none
  message : Option String := none
  timestamp : String
deriving DecidableEq, Repr

/-! ## The services -/

inductive FaultRole where
  | relayer
  | pubrelayer
  | kos
deriving DecidableEq, Repr

def FaultRole.text : FaultRole → String
  | .relayer => "relayer"
  | .pubrelayer => "pubrelayer"
  | .kos => "kos"

/-- `role.toUpperCase()`. -/
def FaultRole.upper : FaultRole → String
  | .relayer => "RELAYER"
  | .pubrelayer => "PUBRELAYER"
  | .kos => "KOS"

structure FaultService where
  hostname : String
  defaultPort : Nat
deriving DecidableEq, Repr

def RELAYER_SERVICES : List (String × FaultService) :=
  [("A", ⟨"relayer-a", 6660⟩), ("B", ⟨"relayer-b", 6661⟩), ("C", ⟨"relayer-c", 6662⟩),
    ("D", ⟨"relayer-d", 6663⟩), ("E", ⟨"relayer-e", 6664⟩), ("F", ⟨"relayer-f", 6665⟩)]

def FI_SERVICES : FaultRole → List (String × FaultService)
  | .relayer => RELAYER_SERVICES
  | .pubrelayer =>
      [("A", ⟨"pubrelayer-a", 6700⟩), ("B", ⟨"pubrelayer-b", 6701⟩), ("C", ⟨"pubrelayer-c", 6702⟩),
        ("D", ⟨"pubrelayer-d", 6703⟩), ("E", ⟨"pubrelayer-e", 6704⟩), ("F", ⟨"pubrelayer-f", 6705⟩)]
  | .kos =>
      [("A", ⟨"cts-a", 6800⟩), ("B", ⟨"cts-b", 6801⟩), ("C", ⟨"cts-c", 6802⟩),
        ("D", ⟨"cts-d", 6803⟩), ("E", ⟨"cts-e", 6804⟩), ("F", ⟨"cts-f", 6805⟩)]

/-- `.replace(/\/$/, '')`. -/
def withoutSlash (url : String) : String :=
  if Text.endsWith url "/" then Text.dropRight url 1 else url

structure FaultInjector where
  baseUrl : String
deriving DecidableEq, Repr

def FaultInjector.new (baseUrl : String) : FaultInjector := ⟨withoutSlash baseUrl⟩

/-- `parseInt(text, 10)` in a template. -/
def portText (text : String) : String :=
  match Text.parseInt text with
  | some port => toString port
  | none => "NaN"

/-- The port of a service: an override for its role, the legacy override of a relayer, or its own.
An empty override is none. -/
def servicePort (env : String → Option String) (role : FaultRole) (letter : String)
    (svc : FaultService) : String :=
  let roleScoped := Text.orElse (env s!"FAULT_INJECTION_PORT_{role.upper}_{letter}") ""
  let legacy := if role = .relayer then Text.orElse (env s!"FAULT_INJECTION_PORT_{letter}") ""
    else ""
  if roleScoped ≠ "" then portText roleScoped
  else if legacy ≠ "" then portText legacy
  else toString svc.defaultPort

/-- `text.toUpperCase()` on the letters that name a participant. -/
def toUpperCase (text : String) : String := String.ofList (text.toList.map Char.toUpper)

def FaultInjector.forService (env : String → Option String) (role : FaultRole)
    (participant : String) (hostOverride : Option String) : Except JsError FaultInjector :=
  let letter := toUpperCase participant
  match (FI_SERVICES role).lookup letter with
  | none => .error (.new (s!"Unknown {role.text} participant '{participant}'. Valid: " ++
      String.intercalate ", " ((FI_SERVICES role).map Prod.fst)))
  | some svc =>
      .ok (.new s!"http://{hostOverride.getD svc.hostname}:{servicePort env role letter svc}")

def FaultInjector.forRelayer (env : String → Option String) (participant : String)
    (hostOverride : Option String) : Except JsError FaultInjector :=
  forService env .relayer participant hostOverride

/-! ## The control plane -/

inductive HttpMethod where
  | post
  | get
  | delete
deriving DecidableEq, Repr

structure HttpRequest where
  method : HttpMethod
  url : String
  data : Option FaultRule := none
  timeout : Nat
deriving DecidableEq, Repr

/-- The body of a reply, as far as the client reads it, and its texts. -/
structure HttpData where
  id : Option String := none
  log : Option (List TriggerEvent) := none
  json : String
  text : String
deriving DecidableEq, Repr

structure AxiosResponse where
  status : Nat
  data : HttpData
deriving DecidableEq, Repr

/-- The client's error: there is a response to it unless the reply did not arrive. -/
structure HttpError where
  response : Option AxiosResponse
  message : String
deriving DecidableEq, Repr

/-- `err.response?.status ?? 'N/A'`. -/
def HttpError.status (err : HttpError) : String :=
  match err.response with
  | some response => toString response.status
  | none => "N/A"

/-- `${err.response?.data ?? err.message}`. -/
def HttpError.text (err : HttpError) : String :=
  match err.response with
  | some response => response.data.text
  | none => err.message

/-- `JSON.stringify(err.response?.data ?? err.message)`. -/
def HttpError.json (err : HttpError) : String :=
  match err.response with
  | some response => response.data.json
  | none => JsVal.jsonString err.message

def CONTROL_PLANE_TIMEOUT_MS : Nat := 5000

structure FaultSession where
  base : String
  id : String
deriving DecidableEq, Repr

def FaultSession.new (relayerBaseUrl sessionId : String) : FaultSession :=
  ⟨withoutSlash relayerBaseUrl, sessionId⟩

/-- A request that a session's client makes. -/
inductive SessionCommand where
  | arm (rule : FaultRule)
  | clearPoint (point : String)
  | clearAllRules
  | clear
  | clearLog
  | status
deriving DecidableEq, Repr

namespace FaultSession

variable (session : FaultSession)

def sessionUrl : String := s!"{session.base}/sessions/{Percent.encode session.id}"

def request : SessionCommand → HttpRequest
  | .arm rule => ⟨.post, s!"{session.sessionUrl}/faults", some rule, CONTROL_PLANE_TIMEOUT_MS⟩
  | .clearPoint point => ⟨.delete, s!"{session.sessionUrl}/faults/{Percent.encode point}", none,
      CONTROL_PLANE_TIMEOUT_MS⟩
  | .clearAllRules => ⟨.delete, s!"{session.sessionUrl}/faults", none, CONTROL_PLANE_TIMEOUT_MS⟩
  | .clear => ⟨.delete, session.sessionUrl, none, CONTROL_PLANE_TIMEOUT_MS⟩
  | .clearLog => ⟨.delete, s!"{session.sessionUrl}/log", none, CONTROL_PLANE_TIMEOUT_MS⟩
  | .status => ⟨.get, session.sessionUrl, none, CONTROL_PLANE_TIMEOUT_MS⟩

end FaultSession

/-- Requests and their replies; a status outside 2xx is an error. -/
abbrev Axios (σ : Type) := HttpRequest → Async σ HttpError AxiosResponse

section Client

variable {σ : Type} (axios : Axios σ)

namespace FaultSession

variable (session : FaultSession)

/-- A request whose error is thrown under the name of its method, with the reply if it is to be
shown. -/
def call (command : SessionCommand) (name : String) (shown : Bool) :
    Async σ JsError AxiosResponse := fun world =>
  match axios (session.request command) world with
  | (.ok response, world) => (.ok response, world)
  | (.error err, world) =>
      let failed := s!"FaultSession[{session.id}].{name} failed ({err.status})"
      (.error (.new (if shown then s!"{failed}: {err.json}" else failed)), world)

/-- A request whose reply is not read. -/
def send (command : SessionCommand) (name : String) (shown : Bool) : Async σ JsError Unit :=
  fun world =>
    match session.call axios command name shown world with
    | (.ok _, world) => (.ok (), world)
    | (.error err, world) => (.error err, world)

def arm (rule : FaultRule) : Async σ JsError Unit := session.send axios (.arm rule) "arm" true

def clearPoint (point : String) : Async σ JsError Unit :=
  session.send axios (.clearPoint point) s!"clearPoint({point})" true

def clearAllRules : Async σ JsError Unit :=
  session.send axios .clearAllRules "clearAllRules" false

/-- A session that is gone already is cleared. -/
def clear : Async σ JsError Unit := fun world =>
  match axios (session.request .clear) world with
  | (.ok _, world) => (.ok (), world)
  | (.error err, world) =>
      if err.response.map AxiosResponse.status = some 404 then (.ok (), world)
      else (.error (.new s!"FaultSession[{session.id}].clear failed ({err.status})"), world)

def clearLog : Async σ JsError Unit := session.send axios .clearLog "clearLog" false

def status : Async σ JsError AxiosResponse := session.call axios .status "status" false

/-- `(s.log || []).filter((ev) => ev.point === point)`. -/
def triggers (response : AxiosResponse) (point : String) : List TriggerEvent :=
  (response.data.log.getD []).filter fun event => event.point = point

def wasTriggered (point : String) : Async σ JsError Bool := fun world =>
  match session.status axios world with
  | (.ok response, world) =>
      (.ok ((response.data.log.getD []).any fun event => event.point = point), world)
  | (.error err, world) => (.error err, world)

def triggerCount (point : String) : Async σ JsError Nat := fun world =>
  match session.status axios world with
  | (.ok response, world) => (.ok (triggers response point).length, world)
  | (.error err, world) => (.error err, world)

end FaultSession

namespace FaultInjector

variable (injector : FaultInjector)

def newSession : Async σ JsError FaultSession := fun world =>
  let failed (err : HttpError) :=
    JsError.new s!"FaultInjector.newSession failed ({err.status}): {err.text}"
  match axios ⟨.post, s!"{injector.baseUrl}/sessions", none, CONTROL_PLANE_TIMEOUT_MS⟩ world with
  | (.error err, world) => (.error (failed err), world)
  | (.ok response, world) =>
      match response.data.id with
      | some id =>
          if id = "" then
            (.error (failed ⟨none, s!"unexpected response shape: {response.data.json}"⟩), world)
          else (.ok (.new injector.baseUrl id), world)
      | none =>
          (.error (failed ⟨none, s!"unexpected response shape: {response.data.json}"⟩), world)

def listSessions : Async σ JsError AxiosResponse := fun world =>
  match axios ⟨.get, s!"{injector.baseUrl}/sessions", none, CONTROL_PLANE_TIMEOUT_MS⟩ world with
  | (.ok response, world) => (.ok response, world)
  | (.error err, world) =>
      (.error (.new s!"FaultInjector.listSessions failed ({err.status})"), world)

/-- `isAlive` of a base URL, which `assertLiveAfter` asks too; it does not throw. -/
def probe (base : String) (world : σ) : Bool × σ :=
  match axios ⟨.get, s!"{base}/sessions", none, 2000⟩ world with
  | (.ok response, world) => (response.status = 200, world)
  | (.error _, world) => (false, world)

def isAlive : σ → Bool × σ := probe axios injector.baseUrl

end FaultInjector

end Client

end RaylsSuite.Common
