import DspEmbedded.Model.Board

/-!
# When agree is honest about its precondition

`agree_post_handler` looks at the state after AGREE, not before. AGREE is absorbed
by a negotiation that is agreed already, so the handler cannot tell it from an
offered one: a repeated request is the one that is answered with success although
nothing was offered.
-/
namespace DspEmbedded.Audit.Agree

open Lib.CString Lib.SlotTable Model Model.Esp Model.PathId Model.Neg Model.RtcState Model.Board

variable {negMax xferMax : Nat}

/-- Success exactly on an offered slot, which is agreed afterwards. -/
def AgreeHonest (m : NegModule negMax) (req : HttpdReq) : Prop :=
  ((agreePostHandler m req).1.success = true ↔
      dspNegGetState m (agreeSlot m req) = .offered) ∧
    ((agreePostHandler m req).1.success = true →
      dspNegGetState (agreePostHandler m req).2 (agreeSlot m req) = .agreed)

/-- On any table whose ids are not empty, agree is honest about every slot but the
requested and the agreed ones. -/
theorem agreeHonest_wellFormed {m : NegModule negMax} (hw : Neg.WellFormed m)
    (hid : ∀ e ∈ ledger m, e.cpid.bytes ≠ []) (req : HttpdReq) :
    AgreeHonest m req ↔ dspNegGetState m (agreeSlot m req) ≠ .agreed ∧
      dspNegGetState m (agreeSlot m req) ≠ .requested := by
  rw [AgreeHonest, agree_success_iff hw hid,
    and_iff_left fun h => agree_success_agreed hw hid ((agree_success_iff hw hid req).mpr h)]
  cases dspNegGetState m (agreeSlot m req) <;> simp [agrees]

/-- Requests meet no slot that is only requested. -/
theorem getState_opened {d : Device negMax xferMax} (hr : Reachable d) (req : HttpdReq) :
    dspNegGetState d.neg (agreeSlot d.neg req) ≠ .requested := by
  have hid : ∀ e ∈ ledger d.neg, e.cpid.bytes ≠ [] := fun e he => (hr.served.neg e he).2
  rcases agreeSlot_cases hr.wellFormed.neg hid req with ⟨-, hslot⟩ |
    ⟨p, i, e, -, hslot, -, hget, -⟩
  · rw [hslot, getState_absent]
    decide
  · rw [hslot, getState_of_ledger hget]
    have hopened := (hr.served.neg e (List.mem_of_getElem? hget)).1
    rcases hopened with h | h | h | h | h <;> simp [h]

/-- **Agree on a reachable table.** It is honest about every request except those
for a negotiation that is agreed already. -/
theorem agreeHonest_iff {d : Device negMax xferMax} (hr : Reachable d) (req : HttpdReq) :
    AgreeHonest d.neg req ↔ dspNegGetState d.neg (agreeSlot d.neg req) ≠ .agreed := by
  have hid : ∀ e ∈ ledger d.neg, e.cpid.bytes ≠ [] := fun e he => (hr.served.neg e he).2
  rw [agreeHonest_wellFormed hr.wellFormed.neg hid req]
  exact and_iff_left (getState_opened hr req)

/-- The first request to agree on an offer is honest. -/
theorem agreeHonest_offered : AgreeHonest offeredDevice.neg agreeRequest :=
  (agreeHonest_iff offeredDevice_reachable agreeRequest).mpr (by decide +kernel)

/-- The second one is answered with success as well, on an agreed negotiation. -/
theorem agree_twice_counterexample :
    Reachable agreedDevice ∧ ¬ AgreeHonest agreedDevice.neg agreeRequest := by
  refine ⟨agreedDevice_reachable, ?_⟩
  intro hboth
  obtain ⟨hiff, -⟩ := hboth
  have hoffered := hiff.mp (by decide +kernel)
  exact absurd hoffered (by decide +kernel)

end DspEmbedded.Audit.Agree
