import DspEmbedded.Model.Board
import DspEmbedded.Model.Http

/-!
# `dsp_protocol.c` and the route registrations of the modules

`protocol_init` as it runs on the device. What it needs of the hardware and of
the identity store is in `Platform`; the results of the TLS set-up and of the
registration functions are only logged.
-/
namespace DspEmbedded.Model.Protocol

open Lib.CString Lib.SlotTable Model.Esp Model.Http Model.Neg Model.Xfer Model.RtcState Model.Board

variable {negMax xferMax : Nat}

/-- The build options that decide which routes exist. -/
structure Config where
  enableCatalogRequest : Bool
  enableNegotiateTerminate : Bool
  deriving DecidableEq, Repr

/-- The handler functions that are registered. -/
inductive Handler where
  | catalogGet
  | catalogRequestPost
  | offersPost
  | agreePost
  | terminatePost
  | negGet
  | xferStartPost
  | xferCompletePost
  | xferGet
  deriving DecidableEq, Repr

/-- What `dsp_identity_init` and `httpd_start` return, and whether the store holds
a certificate and a key. -/
structure Platform where
  identity : EspErr
  credentials : Bool
  httpd : EspErr

/-- Nothing stands in the way of the server. -/
def Platform.Works (platform : Platform) : Prop :=
  platform.identity = .ok ∧ platform.credentials = true ∧ platform.httpd = .ok

/-- The static state of the modules on Core 0. -/
structure Node (negMax xferMax : Nat) where
  device : Device negMax xferMax
  catalogInitialized : Bool
  http : HttpModule Handler
  core0Ready : Bool
  running : Bool

/-- Static memory at power-on; RTC memory holds whatever it holds. -/
def Node.boot (store : RtcStore negMax xferMax) : Node negMax xferMax where
  device := ⟨.boot negMax, .boot xferMax, store⟩
  catalogInitialized := false
  http := .boot
  core0Ready := false
  running := false

/-! ## Registrations -/

def catalogRoute : Route Handler := ⟨CStr.lit "/catalog", .get, .catalogGet⟩

def catalogRequestRoute : Route Handler :=
  ⟨CStr.lit "/catalog/request", .post, .catalogRequestPost⟩

def offersRoute : Route Handler := ⟨CStr.lit "/negotiations/offers", .post, .offersPost⟩

def agreeRoute : Route Handler := ⟨CStr.lit "/negotiations/*", .post, .agreePost⟩

def terminateRoute : Route Handler := ⟨CStr.lit "/negotiations/terminate", .post, .terminatePost⟩

def negGetRoute : Route Handler := ⟨CStr.lit "/negotiations/*", .get, .negGet⟩

def xferStartRoute : Route Handler := ⟨CStr.lit "/transfers/start", .post, .xferStartPost⟩

def xferCompleteRoute : Route Handler := ⟨CStr.lit "/transfers/*", .post, .xferCompletePost⟩

def xferGetRoute : Route Handler := ⟨CStr.lit "/transfers/*", .get, .xferGet⟩

/-- The calls of `dsp_neg_register_handlers`, in their order. -/
def negRoutes (cfg : Config) : List (Route Handler) :=
  [offersRoute, agreeRoute] ++ (if cfg.enableNegotiateTerminate then [terminateRoute] else []) ++
    [negGetRoute]

/-- The calls of `dsp_xfer_register_handlers`. -/
def xferRoutes : List (Route Handler) := [xferStartRoute, xferCompleteRoute, xferGetRoute]

variable (uriMatch : CStr → CStr → Bool)

/-- The registrations of one module, refused until it is initialized. -/
def registerModule (initialized : Bool) (rs : List (Route Handler)) (n : Node negMax xferMax) :
    EspErr × Node negMax xferMax :=
  if !initialized then (.invalidState, n)
  else
    let (err, http) := registerInOrder uriMatch n.http rs
    (err, { n with http })

def dspCatalogRegisterHandler (n : Node negMax xferMax) : EspErr × Node negMax xferMax :=
  registerModule uriMatch n.catalogInitialized [catalogRoute] n

def dspCatalogRegisterRequestHandler (cfg : Config) (n : Node negMax xferMax) :
    EspErr × Node negMax xferMax :=
  if !n.catalogInitialized then (.invalidState, n)
  else if cfg.enableCatalogRequest then
    registerModule uriMatch n.catalogInitialized [catalogRequestRoute] n
  else (.notSupported, n)

def dspNegRegisterHandlers (cfg : Config) (n : Node negMax xferMax) :
    EspErr × Node negMax xferMax :=
  registerModule uriMatch n.device.neg.initialized (negRoutes cfg) n

def dspXferRegisterHandlers (n : Node negMax xferMax) : EspErr × Node negMax xferMax :=
  registerModule uriMatch n.device.xfer.initialized xferRoutes n

/-- `protocol_init`. -/
def protocolInit (cfg : Config) (platform : Platform) (n : Node negMax xferMax) :
    EspErr × Node negMax xferMax :=
  if platform.identity ≠ .ok then (platform.identity, n)
  else if !platform.credentials then (.invalidState, n)
  else
    -- dsp_catalog_init only sets its flag
    let n := { n with catalogInitialized := true }
    let (err, neg) := dspNegInit n.device.neg
    let n := { n with device := { n.device with neg } }
    if err ≠ .ok then (err, n)
    else
      let (err, xfer) := dspXferInit n.device.xfer
      let n := { n with device := { n.device with xfer } }
      if err ≠ .ok then (err, n)
      else
        let n := { n with http := (dspHttpStart uriMatch platform.httpd n.http).2 }
        let n := (dspCatalogRegisterHandler uriMatch n).2
        let n :=
          if cfg.enableCatalogRequest then (dspCatalogRegisterRequestHandler uriMatch cfg n).2
          else n
        let n := (dspNegRegisterHandlers uriMatch cfg n).2
        let n := (dspXferRegisterHandlers uriMatch n).2
        (.ok, { n with core0Ready := true, running := true })

/-- `dsp_protocol_stop`. -/
def dspProtocolStop (n : Node negMax xferMax) : Node negMax xferMax :=
  { n with
    device := { n.device with
      neg := dspNegDeinit n.device.neg
      xfer := dspXferDeinit n.device.xfer }
    catalogInitialized := false
    http := dspHttpStop n.http
    core0Ready := false
    running := false }

/-! ## The HTTP module after a first start -/

/-- The calls of the two catalog functions. -/
def catalogRoutes (cfg : Config) : List (Route Handler) :=
  [catalogRoute] ++ (if cfg.enableCatalogRequest then [catalogRequestRoute] else [])

/-- Everything that `protocol_init` asks to register, in order. -/
def routesOf (cfg : Config) : List (Route Handler) :=
  catalogRoutes cfg ++ negRoutes cfg ++ xferRoutes

/-- A catalog route that cannot be registered does not keep the others back. -/
def registerCatalog (cfg : Config) (h : HttpModule Handler) : HttpModule Handler :=
  let h := (registerInOrder uriMatch h [catalogRoute]).2
  if cfg.enableCatalogRequest then (registerInOrder uriMatch h [catalogRequestRoute]).2 else h

theorem registerModule_init (rs : List (Route Handler)) (n : Node negMax xferMax) :
    (registerModule uriMatch true rs n).2 =
      { n with http := (registerInOrder uriMatch n.http rs).2 } := rfl

theorem negInit_ok (m : NegModule negMax) :
    ∃ m', dspNegInit m = (.ok, m') ∧ m'.initialized = true := by
  unfold dspNegInit
  split_ifs with h
  · exact ⟨m, rfl, h⟩
  · exact ⟨_, rfl, rfl⟩

theorem xferInit_ok (m : XferModule xferMax) :
    ∃ m', dspXferInit m = (.ok, m') ∧ m'.initialized = true := by
  unfold dspXferInit
  split_ifs with h
  · exact ⟨m, rfl, h⟩
  · exact ⟨_, rfl, rfl⟩

/-- The registrations follow the attempt to start the server, whatever it returns. -/
theorem protocolInit_registers (cfg : Config) {platform : Platform}
    (hidentity : platform.identity = .ok) (hcredentials : platform.credentials = true)
    (n : Node negMax xferMax) :
    (protocolInit uriMatch cfg platform n).2.http =
      (registerInOrder uriMatch
        (registerInOrder uriMatch
          (registerCatalog uriMatch cfg (dspHttpStart uriMatch platform.httpd n.http).2)
          (negRoutes cfg)).2
        xferRoutes).2 := by
  obtain ⟨neg, hneg, hnegInit⟩ := negInit_ok n.device.neg
  obtain ⟨xfer, hxfer, hxferInit⟩ := xferInit_ok n.device.xfer
  cases hcat : cfg.enableCatalogRequest <;>
    simp only [protocolInit, hidentity, hcredentials, hcat, hneg, hxfer, hnegInit, hxferInit,
      dspCatalogRegisterHandler, dspCatalogRegisterRequestHandler, dspNegRegisterHandlers,
      dspXferRegisterHandlers, registerCatalog, registerModule_init, ne_eq, not_true_eq_false,
      if_false, if_true, Bool.not_true, Bool.false_eq_true]

theorem protocolInit_http (cfg : Config) {platform : Platform} (hp : platform.Works)
    (store : RtcStore negMax xferMax) :
    (protocolInit uriMatch cfg platform (Node.boot store)).2.http =
      (registerInOrder uriMatch
        (registerInOrder uriMatch
          (registerCatalog uriMatch cfg (dspHttpStart uriMatch .ok .boot).2) (negRoutes cfg)).2
        xferRoutes).2 := by
  obtain ⟨hidentity, hcredentials, hhttpd⟩ := hp
  rw [protocolInit_registers uriMatch cfg hidentity hcredentials, hhttpd]
  rfl

end DspEmbedded.Model.Protocol
