import DspEmbedded.Lib.Calls
import DspEmbedded.Model.Server

/-!
# `dsp_protocol.c`: start and stop, call by call

`protocol_init` in its task and `dsp_protocol_stop` in another, as programs over the
calls they make. Requests are answered in between. Delays are left out, and so is a
second start before an init has ended.
-/
namespace DspEmbedded.Model.ProtocolTask

open Lib.CString Lib.Calls Model.Esp Model.Http Model.Neg Model.Xfer Model.RtcState Model.Board
  Model.Protocol Model.Server

variable {negMax xferMax : Nat}

/-! ## Calls -/

/-- The modules with a flag that their registration functions look at. -/
inductive Module where
  | catalog
  | neg
  | xfer
  deriving DecidableEq

inductive Call where
  | dspIdentityInit
  /-- `dsp_identity_get_cert` and `dsp_identity_get_key`. -/
  | dspIdentityGet
  | dspTlsServerInit
  | dspCatalogInit
  | dspNegInit
  | dspXferInit
  | dspHttpStart
  /-- `s_initialized` of a module. -/
  | loadInitialized (module : Module)
  | dspHttpRegisterHandler (route : Route Handler)
  /-- `core0_ready`. -/
  | storeReady (ready : Bool)
  /-- `s_running`. -/
  | storeRunning (running : Bool)
  | dspHttpStop
  | dspXferDeinit
  | dspNegDeinit
  | dspCatalogDeinit
  | dspTlsServerDeinit
  | dspIdentityDeinit
  | vTaskDelete
  deriving DecidableEq

structure Answer where
  err : EspErr
  found : Bool

abbrev Protocol (α : Type) := Prog Call Answer α

/-! ## Registrations -/

/-- One call after the other, up to the first that fails. -/
def registerCalls : List (Route Handler) → Protocol EspErr
  | [] => .done .ok
  | r :: rest =>
    .call (.dspHttpRegisterHandler r) fun a =>
    if a.err ≠ .ok then .done a.err else registerCalls rest

def registerModuleCalls (module : Module) (rs : List (Route Handler)) : Protocol EspErr :=
  .call (.loadInitialized module) fun a =>
  if !a.found then .done .invalidState else registerCalls rs

/-- What `protocol_init` registers, function by function. -/
def registrations (cfg : Config) : List (Module × List (Route Handler)) :=
  [(.catalog, [catalogRoute])] ++
    (if cfg.enableCatalogRequest then [(.catalog, [catalogRequestRoute])] else []) ++
    [(.neg, negRoutes cfg), (.xfer, xferRoutes)]

/-- A failed registration is only logged. -/
def registerAll : List (Module × List (Route Handler)) → Protocol Unit
  | [] => .done ()
  | (module, rs) :: rest => (registerModuleCalls module rs).bind fun _ => registerAll rest

/-! ## `dsp_protocol.c` -/

/-- `protocol_init` from the HTTP server on. -/
def openServer (cfg : Config) : Protocol EspErr :=
  .call .dspHttpStart fun _ =>
  (registerAll (registrations cfg)).bind fun _ =>
  .call (.storeReady true) fun _ =>
  .call (.storeRunning true) fun _ => .done .ok

def initModules (cfg : Config) : Protocol EspErr :=
  .call .dspCatalogInit fun a =>
  if a.err ≠ .ok then .done a.err
  else
    .call .dspNegInit fun a =>
    if a.err ≠ .ok then .done a.err
    else
      .call .dspXferInit fun a =>
      if a.err ≠ .ok then .done a.err else openServer cfg

/-- `protocol_init`. -/
def protocolInitCalls (cfg : Config) : Protocol EspErr :=
  .call .dspIdentityInit fun a =>
  if a.err ≠ .ok then .done a.err
  else
    .call .dspIdentityGet fun a =>
    if !a.found then .done .invalidState
    else .call .dspTlsServerInit fun _ => initModules cfg

/-- `dsp_protocol_stop`. -/
def dspProtocolStopCalls : Protocol Unit :=
  .call (.storeRunning false) fun _ =>
  .call .dspHttpStop fun _ =>
  .call .dspXferDeinit fun _ =>
  .call .dspNegDeinit fun _ =>
  .call .dspCatalogDeinit fun _ =>
  .call .dspTlsServerDeinit fun _ =>
  .call .dspIdentityDeinit fun _ =>
  .call (.storeReady false) fun _ =>
  .call .vTaskDelete fun _ => .done ()

/-! ## What the calls do -/

variable (uriMatch : CStr → CStr → Bool)

/-- What the platform decides about a call. -/
structure Outcome where
  err : EspErr
  found : Bool

def initialized (n : Node negMax xferMax) : Module → Bool
  | .catalog => n.catalogInitialized
  | .neg => n.device.neg.initialized
  | .xfer => n.device.xfer.initialized

/-- Identity and TLS keep their state to themselves. -/
def answer (n : Node negMax xferMax) (c : Call) (o : Outcome) : Answer × Node negMax xferMax :=
  match c with
  | .dspIdentityInit | .dspTlsServerInit => (⟨o.err, false⟩, n)
  | .dspIdentityGet => (⟨.ok, o.found⟩, n)
  | .dspCatalogInit => (⟨.ok, false⟩, { n with catalogInitialized := true })
  | .dspNegInit =>
    let (err, neg) := dspNegInit n.device.neg
    (⟨err, false⟩, { n with device := { n.device with neg } })
  | .dspXferInit =>
    let (err, xfer) := dspXferInit n.device.xfer
    (⟨err, false⟩, { n with device := { n.device with xfer } })
  | .dspHttpStart =>
    let (err, http) := dspHttpStart uriMatch o.err n.http
    (⟨err, false⟩, { n with http })
  | .loadInitialized module => (⟨.ok, initialized n module⟩, n)
  | .dspHttpRegisterHandler r =>
    let (err, http) :=
      dspHttpRegisterHandler uriMatch n.http (some r.uri) r.method (some r.handler)
    (⟨err, false⟩, { n with http })
  | .storeReady core0Ready => (⟨.ok, false⟩, { n with core0Ready })
  | .storeRunning running => (⟨.ok, false⟩, { n with running })
  | .dspHttpStop => (⟨.ok, false⟩, { n with http := dspHttpStop n.http })
  | .dspXferDeinit =>
    (⟨.ok, false⟩, { n with device := { n.device with xfer := dspXferDeinit n.device.xfer } })
  | .dspNegDeinit =>
    (⟨.ok, false⟩, { n with device := { n.device with neg := dspNegDeinit n.device.neg } })
  | .dspCatalogDeinit => (⟨.ok, false⟩, { n with catalogInitialized := false })
  | .dspTlsServerDeinit | .dspIdentityDeinit | .vTaskDelete => (⟨.ok, false⟩, n)

def platformEnv : Env Call Answer (Node negMax xferMax) Outcome :=
  ⟨answer uriMatch, fun _ _ => True⟩

/-! ## Tasks and requests -/

/-- What is left of an init and of a stop. A task whose init has ended only waits. -/
structure System (negMax xferMax : Nat) where
  node : Node negMax xferMax
  task : Option (Protocol EspErr)
  main : Protocol Unit

def System.boot (store : RtcStore negMax xferMax) : System negMax xferMax :=
  ⟨.boot store, none, .done ()⟩

/-- No stop is under way. -/
def System.Idle (S : System negMax xferMax) : Prop := S.main.next? = none

instance (S : System negMax xferMax) : Decidable S.Idle := inferInstanceAs (Decidable (_ = _))

/-- The call that the task makes next. -/
def System.due (S : System negMax xferMax) : Option Call := S.task.bind Prog.next?

inductive Event where
  | request (r : HttpRequest)
  /-- `dsp_protocol_start`; `created` if the task could be created. -/
  | start (created : Bool)
  | stop
  /-- The next call of the stop. -/
  | main (o : Outcome)
  /-- The next call of the init. -/
  | task (o : Outcome)

def Call.registers : Call → Bool
  | .loadInitialized _ | .dspHttpRegisterHandler _ => true
  | _ => false

/-- The init is at its registrations. -/
def System.registering (S : System negMax xferMax) : Bool := S.due.any Call.registers

/-- The call that is made, or the reply that is given, perhaps among registrations. -/
inductive Output where
  | none
  | call (c : Call)
  | reply (reply : Reply) (registering : Bool)
  deriving DecidableEq

def step (cfg : Config) (S : System negMax xferMax) : Event → Output × System negMax xferMax
  | .request r =>
    let (reply, node) := receive uriMatch S.node r
    (.reply reply S.registering, { S with node })
  | .start created =>
    if S.due = none ∧ S.Idle ∧ created then
      (.none, { S with task := some (protocolInitCalls cfg) })
    else (.none, S)
  | .stop => (.none, if S.Idle then { S with main := dspProtocolStopCalls } else S)
  | .main o =>
    match S.main.next? with
    | none => (.none, S)
    | some c =>
      let (main, node) := (platformEnv uriMatch).advance S.main S.node o
      (.call c, ⟨node, if c = .vTaskDelete then none else S.task, main⟩)
  | .task o =>
    match S.task with
    | none => (.none, S)
    | some p =>
      match p.next? with
      | none => (.none, S)
      | some c =>
        let (p, node) := (platformEnv uriMatch).advance p S.node o
        (.call c, ⟨node, some p, S.main⟩)

/-! ## All at once -/

/-- The answers of a platform that nobody comes in between with. -/
def atOnce (platform : Platform) (n : Node negMax xferMax) (c : Call) :
    Answer × Node negMax xferMax :=
  answer uriMatch n c <|
    match c with
    | .dspIdentityInit => ⟨platform.identity, false⟩
    | .dspIdentityGet => ⟨.ok, platform.credentials⟩
    | .dspHttpStart => ⟨platform.httpd, false⟩
    | _ => ⟨.ok, false⟩

variable (platform : Platform) (n : Node negMax xferMax)

theorem run_register (rs : List (Route Handler)) :
    ((registerCalls rs).run (atOnce uriMatch platform) n).2 =
      { n with http := (registerInOrder uriMatch n.http rs).2 } := by
  induction rs generalizing n with
  | nil => rfl
  | cons r rest ih =>
    rw [registerCalls, Prog.run, registerInOrder_cons]
    by_cases hok :
        (dspHttpRegisterHandler uriMatch n.http (some r.uri) r.method (some r.handler)).1 = .ok
    · simp only [atOnce, answer, hok, ne_eq, not_true_eq_false, if_false, if_true]
      exact ih _
    · simp [atOnce, answer, hok, Prog.run]

theorem run_registerModule (module : Module) (rs : List (Route Handler)) :
    ((registerModuleCalls module rs).run (atOnce uriMatch platform) n).2 =
      (registerModule uriMatch (initialized n module) rs n).2 := by
  rw [registerModuleCalls, Prog.run, registerModule]
  cases hinit : initialized n module with
  | false => simp [atOnce, answer, hinit, Prog.run]
  | true =>
    simp only [atOnce, answer, hinit, Bool.not_true, Bool.false_eq_true, if_false]
    exact run_register uriMatch platform n rs

/-- Call by call an init comes to what it comes to as one step. -/
theorem run_protocolInit (cfg : Config) :
    ((protocolInitCalls cfg).run (atOnce uriMatch platform) n).2 =
      (protocolInit uriMatch cfg platform n).2 := by
  obtain ⟨neg, hneg, hnegInit⟩ := negInit_ok n.device.neg
  obtain ⟨xfer, hxfer, hxferInit⟩ := xferInit_ok n.device.xfer
  by_cases hidentity : platform.identity = .ok
  · cases hcredentials : platform.credentials with
    | false =>
      simp [protocolInitCalls, protocolInit, Prog.run, atOnce, answer, hidentity, hcredentials]
    | true =>
      cases hcat : cfg.enableCatalogRequest <;>
        simp [protocolInitCalls, initModules, openServer, registrations, registerAll, protocolInit,
          Prog.run, Prog.run_bind, run_registerModule, atOnce, answer, initialized, hidentity,
          hcredentials, hneg, hxfer, hnegInit, hxferInit, hcat, registerModule_init,
          dspCatalogRegisterHandler, dspCatalogRegisterRequestHandler, dspNegRegisterHandlers,
          dspXferRegisterHandlers]
  · simp [protocolInitCalls, protocolInit, Prog.run, atOnce, answer, hidentity]

theorem run_protocolStop :
    (dspProtocolStopCalls.run (atOnce uriMatch platform) n).2 = dspProtocolStop n := rfl

end DspEmbedded.Model.ProtocolTask
