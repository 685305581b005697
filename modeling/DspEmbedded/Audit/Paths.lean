import DspEmbedded.Model.Board

/-!
# Which paths act on a slot

Everything below `/negotiations/` and `/transfers/` that is posted and has no
route of its own goes to one handler each. Both read the first segment and
nothing behind it, so the documented suffix is not what makes a request act: any
path whose first segment names a slot in the right state does.
-/
namespace DspEmbedded.Audit.Paths

open Lib.CString Lib.SlotTable Model Model.Esp Model.PathId Model.Neg Model.Xfer Model.RtcState
  Model.Board

variable {negMax xferMax : Nat}

/-- The two POST routes with a wildcard. -/
inductive Wildcard where
  | negotiations
  | transfers
  deriving DecidableEq, Repr

def Wildcard.endpoint : Wildcard → Endpoint
  | .negotiations => .agree
  | .transfers => .xferComplete

def Wildcard.pathPrefix : Wildcard → CStr
  | .negotiations => negPrefix
  | .transfers => xferPrefix

def Wildcard.suffix : Wildcard → CStr
  | .negotiations => CStr.lit "/agree"
  | .transfers => CStr.lit "/complete"

/-- The one documented path: `/negotiations/{id}/agree`, `/transfers/{id}/complete`. -/
def Documented (w : Wildcard) (uri : CStr) : Prop :=
  ∃ id : CStr, id.bytes ≠ [] ∧ slash ∉ id.bytes ∧ uri = resourcePath w.pathPrefix id w.suffix

/-- Any other path is answered with an error and changes nothing. -/
def OnlyDocumented (d : Device negMax xferMax) (w : Wildcard) (req : HttpdReq) : Prop :=
  Documented w req.uri ∨
    ((serve d w.endpoint req).1.success = false ∧ (serve d w.endpoint req).2 = d)

/-- The first segment names a slot in a state that the handler accepts. -/
def NamesSlot (d : Device negMax xferMax) (req : HttpdReq) : Wildcard → Prop
  | .negotiations => agrees (dspNegGetState d.neg (agreeSlot d.neg req))
  | .transfers => dspXferGetState d.xfer (completeSlot d.xfer req) = .transferring

/-- Whether a path acts depends on the slot only. -/
theorem wildcard_success_iff {d : Device negMax xferMax} (hr : Reachable d) (w : Wildcard)
    (req : HttpdReq) : (serve d w.endpoint req).1.success = true ↔ NamesSlot d req w := by
  cases w with
  | negotiations =>
    have hid : ∀ e ∈ Neg.ledger d.neg, e.cpid.bytes ≠ [] := fun e he => (hr.served.neg e he).2
    exact agree_success_iff hr.wellFormed.neg hid req
  | transfers =>
    have hid : ∀ e ∈ Xfer.ledger d.xfer, e.pid.bytes ≠ [] := fun e he => (hr.served.xfer e he).2
    exact complete_success_iff hr.wellFormed.xfer hid req

/-- **Paths that act.** A posted path is harmless or documented exactly when it is
documented or its first segment names no slot that the handler accepts. -/
theorem onlyDocumented_iff {d : Device negMax xferMax} (hr : Reachable d) (w : Wildcard)
    (req : HttpdReq) :
    OnlyDocumented d w req ↔ Documented w req.uri ∨ ¬ NamesSlot d req w := by
  apply or_congr_right
  rw [← wildcard_success_iff hr w req, Bool.not_eq_true]
  exact ⟨fun h => h.1, fun h => ⟨h, serve_failed hr.wellFormed h⟩⟩

def suspensionRequest : HttpdReq :=
  request "/transfers/p/suspension"
    "\x7b\"@type\":\"dspace:TransferSuspensionMessage\"\x7d".toByteArray.data.toList

theorem suspension_undocumented : ¬ Documented .transfers suspensionRequest.uri := by
  intro hex
  obtain ⟨id, -, -, huri⟩ := hex
  have hsuffix : Wildcard.transfers.suffix.bytes <:+ suspensionRequest.uri.bytes := by
    rw [huri]
    exact ((List.suffix_append _ _).trans (List.suffix_append _ _))
  exact absurd hsuffix (by decide +kernel)

theorem idle_agreed : ¬ NamesSlot agreedDevice suspensionRequest .transfers := by
  have hstate : dspXferGetState agreedDevice.xfer
      (completeSlot agreedDevice.xfer suspensionRequest) ≠ .transferring := by decide +kernel
  exact hstate

/-- A suspension is refused while no transfer of the id is under way. -/
theorem onlyDocumented_agreed : OnlyDocumented agreedDevice .transfers suspensionRequest :=
  (onlyDocumented_iff agreedDevice_reachable .transfers suspensionRequest).mpr
    (.inr idle_agreed)

/-- Suspending a started transfer completes it. -/
theorem suspension_counterexample :
    Reachable startedDevice ∧ ¬ OnlyDocumented startedDevice .transfers suspensionRequest := by
  refine ⟨startedDevice_reachable, ?_⟩
  rintro (hdoc | ⟨hfail, -⟩)
  · exact suspension_undocumented hdoc
  · have hok : (serve startedDevice Wildcard.transfers.endpoint suspensionRequest).1.success =
        true := by decide +kernel
    rw [hfail] at hok
    cases hok

end DspEmbedded.Audit.Paths
