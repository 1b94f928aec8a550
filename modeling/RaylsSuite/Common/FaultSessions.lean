import Mathlib.Logic.Function.Basic
import RaylsSuite.Common.FaultInjector

/-! # Sessions on one relayer

Tests that run in parallel share a relayer. A request names its session and its
fault point in its URL, whose path has to hold the very texts that the client
meant; on a relayer that serves each session from itself, a session then only sees
its own requests and what the relayer does by itself.
-/

namespace RaylsSuite.Common

open Foundation

/-- A relayer's fault-injection server, which is no part of the suite. -/
structure Relayer (World View : Type) where
  serve : HttpRequest → World → Except HttpError AxiosResponse × World
  /-- The identifier is given to a new session. -/
  opens : String → World → World
  /-- What there is of a session: its rules, its log and its metadata. -/
  view : String → World → View

namespace Relayer

variable {World View : Type}

/-- What becomes of a session depends on the session only. -/
def Local (relayer : Relayer World View) (act : World → World) : Prop :=
  ∀ id first second, relayer.view id first = relayer.view id second →
    relayer.view id (act first) = relayer.view id (act second)

/-- The sessions of the server are isolated: it serves a request below a session's path from
that session, and leaves the rules, the log and the metadata of the others untouched. -/
structure Isolates (relayer : Relayer World View) : Prop where
  serve_own : ∀ request id rest first second,
    Percent.segments request.url = some ("sessions" :: id :: rest) →
    relayer.view id first = relayer.view id second →
    (relayer.serve request first).1 = (relayer.serve request second).1 ∧
      relayer.view id (relayer.serve request first).2 =
        relayer.view id (relayer.serve request second).2
  serve_other : ∀ request id rest other world,
    Percent.segments request.url = some ("sessions" :: id :: rest) → other ≠ id →
    relayer.view other (relayer.serve request world).2 = relayer.view other world
  opens_own : ∀ id first second,
    relayer.view id (relayer.opens id first) = relayer.view id (relayer.opens id second)
  opens_other : ∀ id other world, other ≠ id →
    relayer.view other (relayer.opens id world) = relayer.view other world

end Relayer

/-- A command of a session's client, with the reply. -/
structure Served where
  id : String
  command : SessionCommand
  reply : Except HttpError AxiosResponse

/-- The relayer, and the commands that it served. -/
structure Shared (World : Type) where
  world : World
  served : List Served

inductive SharedEvent (World : Type) where
  /-- The relayer gave the identifier to a new session. -/
  | opens (id : String)
  | request (session : FaultSession) (command : SessionCommand)
  /-- The relayer fires rules, sweeps sessions or restarts. -/
  | relayer (act : World → World)

variable {World View : Type}

namespace Relayer

variable (relayer : Relayer World View)

def step (state : Shared World) : SharedEvent World → Shared World
  | .opens id => { state with world := relayer.opens id state.world }
  | .request session command =>
      let (reply, world) := relayer.serve (session.request command) state.world
      ⟨world, state.served ++ [⟨session.id, command, reply⟩]⟩
  | .relayer act => { state with world := act state.world }

def run (state : Shared World) (events : List (SharedEvent World)) : Shared World :=
  events.foldl relayer.step state

end Relayer

/-- The replies to a session's client. -/
def Shared.servedTo (state : Shared World) (id : String) : List Served :=
  state.served.filter fun served => served.id = id

/-- What a session may see of an event. -/
def SharedEvent.concerns (id : String) : SharedEvent World → Bool
  | .opens other => other = id
  | .request session _ => session.id = id
  | .relayer _ => true

/-- A command whose fault point may stand in a URL. -/
def SessionCommand.Plain : SessionCommand → Prop
  | .clearPoint point => Percent.Plain point
  | _ => True

/-- A request is one of a session of the injector, whose texts may stand in a URL, and what the
relayer does by itself to a session depends on that session. -/
def SharedEvent.Proper (injector : FaultInjector) (relayer : Relayer World View) :
    SharedEvent World → Prop
  | .opens _ => True
  | .request session command => session = .new injector.baseUrl session.id ∧
      Percent.Plain session.id ∧ command.Plain
  | .relayer act => relayer.Local act

/-- The texts that the path of a command names. -/
def SessionCommand.path (id : String) : SessionCommand → List String
  | .arm _ | .clearAllRules => ["sessions", id, "faults"]
  | .clearPoint point => ["sessions", id, "faults", point]
  | .clear | .status => ["sessions", id]
  | .clearLog => ["sessions", id, "log"]

section Requests

variable {session : FaultSession} {authority : List Char} {command : SessionCommand}

/-- A request's URL locates the path of its command. -/
theorem request_url (session : FaultSession) (command : SessionCommand) :
    (session.request command).url = Percent.locate session.base (command.path session.id) := by
  have hsessions : (Percent.encode "sessions").toList = "sessions".toList := by decide
  have hfaults : (Percent.encode "faults").toList = "faults".toList := by decide
  have hlog : (Percent.encode "log").toList = "log".toList := by decide
  apply String.toList_inj.mp
  cases command <;>
    simp [FaultSession.request, FaultSession.sessionUrl, SessionCommand.path, Percent.locate,
      hsessions, hfaults, hlog, toString]

theorem plain_words : Percent.Plain "sessions" ∧ Percent.Plain "faults" ∧ Percent.Plain "log" := by
  unfold Percent.Plain
  decide

theorem path_ne_nil (id : String) (command : SessionCommand) : command.path id ≠ [] := by
  cases command <;> exact List.cons_ne_nil _ _

theorem plain_path (id : String) (command : SessionCommand) :
    (∀ text ∈ command.path id, Percent.Plain text) ↔ Percent.Plain id ∧ command.Plain := by
  obtain ⟨hsessions, hfaults, hlog⟩ := plain_words
  cases command <;>
    simp [SessionCommand.path, SessionCommand.Plain, hsessions, hfaults, hlog]

/-- The path of a request holds the texts that its client meant exactly when these may stand in
a URL. -/
theorem segments_request_iff (horigin : Percent.IsOrigin session.base authority) :
    Percent.segments (session.request command).url = some (command.path session.id) ↔
      Percent.Plain session.id ∧ command.Plain := by
  rw [← plain_path, request_url]
  constructor
  · intro hsegments text htext
    exact Percent.plain_of_segments horigin (path_ne_nil _ _) hsegments htext
  · intro hplain
    exact Percent.segments_locate horigin hplain (path_ne_nil _ _)

theorem path_below (id : String) (command : SessionCommand) :
    ∃ rest, command.path id = "sessions" :: id :: rest := by
  cases command <;> exact ⟨_, rfl⟩

/-- No two commands, of one session or of two, have the same method, path and data. -/
theorem request_injective {other : FaultSession} {otherCommand : SessionCommand}
    (hmethod : (session.request command).method = (other.request otherCommand).method)
    (hpath : command.path session.id = otherCommand.path other.id)
    (hdata : (session.request command).data = (other.request otherCommand).data) :
    session.id = other.id ∧ command = otherCommand := by
  cases command <;> cases otherCommand <;>
    simp_all [FaultSession.request, SessionCommand.path]

end Requests

/-! ## The addresses of the services -/

section Services

/-- A host that ends nothing else of a URL. -/
def PlainHost (host : List Char) : Prop := ∀ char ∈ host, char ≠ '/' ∧ char ≠ '?' ∧ char ≠ '#'

instance (host : List Char) : Decidable (PlainHost host) := List.decidableBAll _ host

theorem plainHost_repr (n : Nat) : PlainHost n.repr.toList := by
  intro char hchar
  have hdigit := Text.isDigit_of_mem_repr hchar
  refine ⟨?_, ?_, ?_⟩ <;>
    · rintro rfl
      cases hdigit

theorem plainHost_portText (text : String) : PlainHost (portText text).toList := by
  unfold portText
  split
  next port _ =>
    cases port with
    | ofNat n => exact plainHost_repr n
    | negSucc n =>
        change PlainHost ("-" ++ (n + 1).repr).toList
        rw [String.toList_append]
        have hminus : PlainHost "-".toList := by decide
        exact List.forall_mem_append.mpr ⟨hminus, plainHost_repr (n + 1)⟩
  next => exact (by decide : PlainHost "NaN".toList)

variable {env : String → Option String} {role : FaultRole} {participant : String}
  {hostOverride : Option String} {injector : FaultInjector}

/-- No override of a port ends the host of a URL. -/
theorem plainHost_servicePort (env : String → Option String) (role : FaultRole) (letter : String)
    (svc : FaultService) : PlainHost (servicePort env role letter svc).toList := by
  unfold servicePort
  extract_lets roleScoped legacy
  split
  next => exact plainHost_portText roleScoped
  next =>
    split
    next => exact plainHost_portText legacy
    next => exact plainHost_repr svc.defaultPort

theorem plainHost_hostname {letter : String} {svc : FaultService}
    (hsvc : (FI_SERVICES role).lookup letter = some svc) : PlainHost svc.hostname.toList := by
  have hnames : ∀ entry ∈ FI_SERVICES role, PlainHost entry.2.hostname.toList := by
    cases role <;> decide +kernel
  obtain ⟨before, after, hmem, _⟩ := List.lookup_eq_some_iff.mp hsvc
  exact hnames (letter, svc) (by simp [hmem])

/-- An address that does not end with its scheme keeps its last character. -/
theorem withoutSlash_origin {origin : String} {authority : List Char}
    (horigin : Percent.IsOrigin origin authority) (hauthority : authority ≠ []) :
    withoutSlash origin = origin := by
  have hchars : origin.toList = "http://".toList ++ authority := by
    rw [horigin.eq, String.toList_ofList]
  have hends : Text.endsWith origin "/" = false := by
    rw [Text.endsWith, decide_eq_false_iff_not, hchars]
    intro hsuffix
    obtain ⟨before, hbefore⟩ := hsuffix
    have hlast := congrArg List.getLast? hbefore
    rw [List.getLast?_append_of_ne_nil _ hauthority] at hlast
    have hslash : '/' ∈ authority := by
      apply List.mem_of_getLast?
      rw [← hlast]
      exact List.getLast?_concat
    exact (horigin.host '/' hslash).1 rfl
  rw [withoutSlash, hends, if_neg Bool.false_ne_true]

/-- The base of a service's injector is the origin of a server, which its sessions keep. -/
theorem forService_origin
    (hinjector : FaultInjector.forService env role participant hostOverride = .ok injector)
    (hhost : ∀ host, hostOverride = some host → PlainHost host.toList) :
    ∃ authority, Percent.IsOrigin injector.baseUrl authority ∧
      withoutSlash injector.baseUrl = injector.baseUrl := by
  unfold FaultInjector.forService at hinjector
  dsimp only at hinjector
  split at hinjector
  next => cases hinjector
  next svc hsvc =>
    obtain rfl := Except.ok.inj hinjector
    have hname : PlainHost (hostOverride.getD svc.hostname).toList := by
      cases hostOverride with
      | none => exact plainHost_hostname hsvc
      | some host => exact hhost host rfl
    have horigin : Percent.IsOrigin
        s!"http://{hostOverride.getD svc.hostname}:{servicePort env role (toUpperCase participant)
          svc}" ((hostOverride.getD svc.hostname).toList ++
            ':' :: (servicePort env role (toUpperCase participant) svc).toList) := by
      constructor
      · apply String.toList_inj.mp
        simp [toString]
      · refine List.forall_mem_append.mpr ⟨hname, List.forall_mem_cons.mpr ⟨by decide, ?_⟩⟩
        exact plainHost_servicePort env role _ svc
    have hkept := withoutSlash_origin horigin (by simp)
    rw [FaultInjector.new, hkept]
    exact ⟨_, horigin, hkept⟩

end Services

/-! ## What one session sees -/

/-- An injector whose base is the origin of a server. -/
def IsService (injector : FaultInjector) : Prop :=
  ∃ authority, Percent.IsOrigin injector.baseUrl authority ∧
    withoutSlash injector.baseUrl = injector.baseUrl

/-- Two states agree in what a session sees of them. -/
structure Agree (relayer : Relayer World View) (id : String) (state other : Shared World) :
    Prop where
  view : relayer.view id state.world = relayer.view id other.world
  served : state.servedTo id = other.servedTo id

section Isolation

variable {relayer : Relayer World View} {injector : FaultInjector} {id : String}
  {authority : List Char} {event : SharedEvent World} {state other : Shared World}

/-- A proper request stands below its session's path. -/
theorem segments_of_proper {session : FaultSession} {command : SessionCommand}
    (hinjector : IsService injector)
    (hproper : (SharedEvent.request session command).Proper injector relayer) :
    ∃ rest, Percent.segments (session.request command).url =
      some ("sessions" :: session.id :: rest) := by
  obtain ⟨hsession, hid, hcommand⟩ := hproper
  obtain ⟨authority, horigin, hkept⟩ := hinjector
  have hbase : session.base = injector.baseUrl := by rw [hsession]; exact hkept
  rw [← hbase] at horigin
  obtain ⟨rest, hrest⟩ := path_below session.id command
  exact ⟨rest, hrest ▸ (segments_request_iff horigin).mpr ⟨hid, hcommand⟩⟩

variable (state) in
/-- An event of another session changes nothing for this one. -/
theorem agree_step_of_not_concerns (hisolates : relayer.Isolates) (hinjector : IsService injector)
    (hproper : event.Proper injector relayer) (hother : event.concerns id = false) :
    Agree relayer id (relayer.step state event) state := by
  cases event with
  | opens opened =>
      have hne : id ≠ opened := fun heq => by simp [SharedEvent.concerns, heq] at hother
      exact ⟨hisolates.opens_other opened id state.world hne, rfl⟩
  | request session command =>
      have hne : session.id ≠ id := fun heq => by simp [SharedEvent.concerns, heq] at hother
      obtain ⟨rest, hsegments⟩ := segments_of_proper hinjector hproper
      refine ⟨hisolates.serve_other _ session.id rest id state.world hsegments hne.symm, ?_⟩
      simp [Relayer.step, Shared.servedTo, hne]
  | relayer act => cases hother

/-- An event that concerns a session has the same consequences for it. -/
theorem Agree.step (hagree : Agree relayer id state other) (hisolates : relayer.Isolates)
    (hinjector : IsService injector) (hproper : event.Proper injector relayer)
    (hown : event.concerns id = true) :
    Agree relayer id (relayer.step state event) (relayer.step other event) := by
  cases event with
  | opens opened =>
      obtain rfl : opened = id := of_decide_eq_true hown
      exact ⟨hisolates.opens_own opened state.world other.world, hagree.served⟩
  | request session command =>
      obtain rfl : session.id = id := of_decide_eq_true hown
      obtain ⟨rest, hsegments⟩ := segments_of_proper hinjector hproper
      obtain ⟨hreply, hview⟩ := hisolates.serve_own _ session.id rest state.world other.world
        hsegments hagree.view
      refine ⟨hview, ?_⟩
      have hserved := hagree.served
      simp only [Shared.servedTo] at hserved
      simp [Relayer.step, Shared.servedTo, hserved, hreply]
  | relayer act => exact ⟨hproper id state.world other.world hagree.view, hagree.served⟩

/-- Leaving out the events of the other sessions makes no difference to what a session sees. -/
theorem Agree.run (events : List (SharedEvent World)) (hisolates : relayer.Isolates)
    (hinjector : IsService injector) (hproper : ∀ event ∈ events, event.Proper injector relayer)
    (hagree : Agree relayer id state other) :
    Agree relayer id (relayer.run state events)
      (relayer.run other (events.filter (SharedEvent.concerns id))) := by
  induction events generalizing state other with
  | nil => exact hagree
  | cons event rest ih =>
      obtain ⟨hevent, hrest⟩ := List.forall_mem_cons.mp hproper
      cases hconcerns : event.concerns id with
      | true =>
          rw [List.filter_cons_of_pos hconcerns]
          exact ih hrest (hagree.step hisolates hinjector hevent hconcerns)
      | false =>
          rw [List.filter_cons_of_neg (by simp [hconcerns])]
          have hskipped := agree_step_of_not_concerns state hisolates hinjector hevent hconcerns
          exact ih hrest ⟨hskipped.view.trans hagree.view,
            hskipped.served.trans hagree.served⟩

end Isolation

/-- What becomes of a session's rules. -/
def rulesAfter (method : HttpMethod) (below : List String) (data : Option FaultRule)
    (rules : List FaultRule) : Option (List FaultRule) :=
  match method, below, data with
  | .post, ["faults"], some rule => some (rule :: rules.filter (·.point ≠ rule.point))
  | .delete, ["faults"], none => some []
  | .delete, ["faults", point], none => some (rules.filter (·.point ≠ point))
  | .delete, [], none => none
  | _, _, _ => some rules

/-- A relayer whose sessions have rules and nothing else. -/
def rulesRelayer : Relayer (String → Option (List FaultRule)) (Option (List FaultRule)) where
  serve request table :=
    match Percent.segments request.url with
    | some ("sessions" :: id :: below) =>
        match table id with
        | none => (.error ⟨some ⟨404, ⟨none, none, "", "no session"⟩⟩, ""⟩, table)
        | some rules => (.ok ⟨200, ⟨none, some [], "", ""⟩⟩, Function.update table id
            (rulesAfter request.method below request.data rules))
    | _ => (.error ⟨some ⟨404, ⟨none, none, "", "no page"⟩⟩, ""⟩, table)
  opens id table := Function.update table id (some [])
  view id table := table id

theorem rulesRelayer_isolates : rulesRelayer.Isolates where
  serve_own request id rest first second hsegments hview := by
    simp only [rulesRelayer] at hview
    simp only [rulesRelayer, hsegments, hview]
    cases second id with
    | none => exact ⟨rfl, hview⟩
    | some rules => simp
  serve_other request id rest other world hsegments hne := by
    simp only [rulesRelayer, hsegments]
    cases world id with
    | none => rfl
    | some rules => simp [hne]
  opens_own id first second := by simp [rulesRelayer]
  opens_other id other world hne := by simp [rulesRelayer, hne]

def localRelayer : FaultInjector := ⟨"http://127.0.0.1:6660"⟩

/-- Two tests take turns; the identifier of the first one has to be escaped. -/
def twoTests : List (SharedEvent (String → Option (List FaultRule))) :=
  [.opens "a/b", .opens "b", .request (.new localRelayer.baseUrl "a/b") (.clearPoint "p?q"),
    .request (.new localRelayer.baseUrl "b") .clear,
    .request (.new localRelayer.baseUrl "a/b") .status]

end RaylsSuite.Common
