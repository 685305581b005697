import DspEmbedded.Lib.CString

/-!
# What the code uses of ESP-IDF

Error codes, and a request as the handlers see it: the URI string and the chunks
of body bytes that successive `httpd_req_recv` calls deliver. A handler's answer
is its status line, content type and body together with the value it returns.
-/
namespace DspEmbedded.Model.Esp

open Lib.CString

inductive EspErr where
  | ok
  | fail
  | noMem
  | invalidArg
  | invalidState
  | notFound
  | notSupported
  | invalidCrc
  | timeout
  | httpdHandlersFull
  | httpdHandlerExists
  deriving DecidableEq, Repr

/-! ## Requests -/

/-- `httpd_req_t`: `delivery` lists what the peer's bytes arrive as. -/
structure HttpdReq where
  uri : CStr
  delivery : List (List UInt8)

/-- The first `httpd_req_recv` call into a buffer of `len` bytes. No byte stands
for a return value of 0 or below: no body, or a failed connection. -/
def httpdReqRecv (req : HttpdReq) (len : Nat) : List UInt8 :=
  match req.delivery with
  | [] => []
  | chunk :: _ => chunk.take len

/-- The idiom at the head of every POST handler: one receive call into
`char body[cap]`, a test of the length, a NUL behind the bytes. -/
def recvBody (req : HttpdReq) (cap : Nat) : Option CStr :=
  let received := httpdReqRecv req (cap - 1)
  if received.length = 0 then none else some (CStr.ofBytes received)

/-! ## Responses -/

/-- The status lines in use, `httpd_err_code_t` included. -/
inductive HttpStatus where
  | ok
  | created
  | badRequest
  | notFound
  | internalServerError
  deriving DecidableEq, Repr

def HttpStatus.code : HttpStatus → Nat
  | .ok => 200
  | .created => 201
  | .badRequest => 400
  | .notFound => 404
  | .internalServerError => 500

structure Response where
  ret : EspErr
  status : HttpStatus
  contentType : CStr
  body : CStr
  deriving DecidableEq

/-- A 2xx answer. -/
def Response.success (r : Response) : Bool :=
  match r.status with
  | .ok | .created => true
  | _ => false

theorem success_iff (r : Response) : r.success = true ↔ r.status.code / 100 = 2 := by
  rcases r with ⟨ret, status, contentType, body⟩
  cases status <;> simp [Response.success, HttpStatus.code]

/-- `httpd_resp_send_err` followed by `return ESP_FAIL`. -/
def httpdRespSendErr (status : HttpStatus) (message : String) : Response where
  ret := .fail
  status := status
  contentType := CStr.lit "text/html"
  body := CStr.lit message

/-- `httpd_resp_set_type` and `httpd_resp_sendstr` followed by `return ESP_OK`. -/
def httpdRespSendstr (status : HttpStatus) (resp : CStr) : Response where
  ret := .ok
  status := status
  contentType := CStr.lit "application/json"
  body := resp

@[simp] theorem body_sendstr (status : HttpStatus) (resp : CStr) :
    (httpdRespSendstr status resp).body = resp := rfl

/-- A request whose whole body arrives in one piece. -/
def request (uri : String) (body : List UInt8) : HttpdReq where
  uri := CStr.lit uri
  delivery := [body]

end DspEmbedded.Model.Esp
