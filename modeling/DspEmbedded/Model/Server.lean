import DspEmbedded.Model.Catalog
import DspEmbedded.Model.Power

/-!
# A request on its way to a handler

The server looks for a handler by method and path, without the query; the handler
is given the whole URI. Where there is none the server answers on its own.
-/
namespace DspEmbedded.Model.Server

open Lib.CString Model.Esp Model.Http Model.Neg Model.Board Model.Protocol Model.Power
open Model.Xfer (dspXferInit)

variable {negMax xferMax : Nat}

structure HttpRequest where
  method : HttpMethod
  path : CStr
  /-- Empty, or from the `?` on. -/
  query : CStr
  delivery : List (List UInt8)

/-- What a handler is given. -/
def HttpRequest.req (r : HttpRequest) : HttpdReq := ⟨r.path ++ r.query, r.delivery⟩

inductive Reply where
  /-- Nobody listens. -/
  | closed
  /-- 404 or 405, by the server itself. -/
  | unhandled
  | answered (resp : Response)
  deriving DecidableEq

/-- The endpoint of a handler that uses the tables. -/
def handlerEndpoint : Handler → Option Endpoint
  | .catalogGet | .catalogRequestPost => none
  | .offersPost => some .offers
  | .agreePost => some .agree
  | .terminatePost => some .terminate
  | .negGet => some .negGet
  | .xferStartPost => some .xferStart
  | .xferCompletePost => some .xferComplete
  | .xferGet => some .xferGet

/-- The two catalog handlers; the others do not come here. -/
def catalogAnswer (handler : Handler) (req : HttpdReq) : Response :=
  match handler with
  | .catalogRequestPost => Catalog.catalogRequestPostHandler req
  | _ => Catalog.catalogGetHandler

def handle (handler : Handler) (n : Node negMax xferMax) (req : HttpdReq) :
    Response × Node negMax xferMax :=
  match handlerEndpoint handler with
  | none => (catalogAnswer handler req, n)
  | some endpoint =>
    let (resp, device) := serve n.device endpoint req
    (resp, { n with device })

variable (uriMatch : CStr → CStr → Bool)

def receive (n : Node negMax xferMax) (r : HttpRequest) : Reply × Node negMax xferMax :=
  match n.http.server with
  | none => (.closed, n)
  | some _ =>
    match dispatch uriMatch n.http r.method r.path with
    | none => (.unhandled, n)
    | some handler =>
      let (resp, n) := handle handler n r.req
      (.answered resp, n)

/-- What `app_main` calls before the first request. -/
inductive BootCall where
  /-- `dsp_neg_init` and `dsp_xfer_init`. -/
  | setUp
  /-- `protocol_init` in its task. -/
  | start (platform : Platform)
  /-- `dsp_power_handle_wakeup`. -/
  | wakeUp (cause : WakeupCause) (httpd : EspErr)

def bootCall (cfg : Config) (n : Node negMax xferMax) : BootCall → Node negMax xferMax
  | .setUp =>
    { n with device := { n.device with
        neg := (dspNegInit n.device.neg).2
        xfer := (dspXferInit n.device.xfer).2 } }
  | .start platform => (protocolInit uriMatch cfg platform n).2
  | .wakeUp cause httpd => (dspPowerHandleWakeup uriMatch cause httpd n).2

/-- `dsp_power_enter_deep_sleep`, static memory as at power-on, and the calls of the
next boot. No code makes the second and the third of them together, so their order and
number are left open. -/
def powerCycle (cfg : Config) (calls : List BootCall) (n : Node negMax xferMax) :
    Node negMax xferMax :=
  calls.foldl (bootCall uriMatch cfg) (Node.boot (dspPowerEnterDeepSleep n).device.store)

end DspEmbedded.Model.Server
