import DspEmbedded.Model.Board

/-!
# Requests by the process id they carry

What the handlers extract from a body or a path, in terms of the received bytes
alone. For an id that fits the tables the two agree.
-/
namespace DspEmbedded.Audit.Requests

open Lib.CString CJson Model Model.Esp Model.Json Model.Msg Model.PathId Model.Neg Model.Board
open Model.Xfer (startProcessId)

/-- A process id that fits the tables. -/
def ValidPid (p : CStr) : Prop := 1 ≤ p.length ∧ p.length ≤ 63

/-- The received body parses and its `dspace:processId` is the string `p`. -/
def Carries (req : HttpdReq) (p : CStr) : Prop :=
  ∃ body msg, recvBody req 1024 = some body ∧ dspJsonParse (some body) = some msg ∧
    stringItem (getObjectItemCaseSensitive msg Jsonld.fieldProcessId) = some p

/-- The received body is an accepted transfer request for `p`. -/
def RequestsTransfer (req : HttpdReq) (p : CStr) : Prop :=
  Carries req p ∧ ∃ body, recvBody req 1024 = some body ∧
    dspMsgValidateTransferRequest (some body) = .ok

/-- The received body carries `p` and is no catalog request. -/
def RequestsOffer (req : HttpdReq) (p : CStr) : Prop :=
  Carries req p ∧ ∃ body, recvBody req 1024 = some body ∧
    dspMsgValidateCatalogRequest (some body) ≠ .ok

/-- A string member of the message in a response. -/
def field (resp : Response) (key : CStr) : Option CStr :=
  (cJSONParse resp.body).bind fun msg => stringItem (getObjectItemCaseSensitive msg key)

theorem ValidPid.bytes_ne_nil {p : CStr} (hp : ValidPid p) : p.bytes ≠ [] := by
  intro h
  have hlen := hp.1
  rw [CStr.length, h] at hlen
  exact absurd hlen (by decide)

theorem ValidPid.lt {p : CStr} (hp : ValidPid p) : p.length < dspNegPidLen :=
  Nat.lt_succ_of_le hp.2

theorem validPid_of {p : CStr} (h : p.bytes ≠ [] ∧ p.length < dspNegPidLen) : ValidPid p :=
  ⟨List.length_pos_iff.mpr h.1, Nat.le_of_lt_succ h.2⟩

/-- For an id that fits, what the handlers extract is what the message carries. -/
theorem processIdOf_iff {msg : Json} {p : CStr} (hp : ValidPid p) :
    processIdOf msg = some p ↔
      stringItem (getObjectItemCaseSensitive msg Jsonld.fieldProcessId) = some p := by
  have hget := getString_snd msg Jsonld.fieldProcessId (show 0 < dspNegPidLen by decide)
  have hne := hp.bytes_ne_nil
  have hlt := hp.lt
  constructor
  · intro h
    obtain ⟨heq, -⟩ := processIdOf_eq_some h
    rw [heq] at hget
    split at hget
    · exact absurd (congrArg CStr.bytes hget) hne
    · next s hs =>
      split at hget
      · rw [hs, hget]
      · exact absurd (congrArg CStr.bytes hget) hne
  · intro h
    rw [h] at hget
    simp only [if_pos hlt] at hget
    simp only [processIdOf, hget, if_neg hne]

theorem offersProcessId_iff {req : HttpdReq} {p : CStr} (hp : ValidPid p) :
    offersProcessId req = some p ↔ RequestsOffer req p := by
  constructor
  · intro h
    obtain ⟨body, hbody, hrest⟩ := Option.bind_eq_some_iff.mp h
    split_ifs at hrest with hcat
    obtain ⟨msg, hmsg, hid⟩ := Option.bind_eq_some_iff.mp hrest
    exact ⟨⟨body, msg, hbody, hmsg, (processIdOf_iff hp).mp hid⟩, body, hbody, hcat⟩
  · intro hex
    obtain ⟨⟨body, msg, hbody, hmsg, hid⟩, body', hbody', hcat⟩ := hex
    obtain rfl := Option.some.inj (hbody.symm.trans hbody')
    refine Option.bind_eq_some_iff.mpr ⟨body, hbody, ?_⟩
    rw [if_neg hcat]
    exact Option.bind_eq_some_iff.mpr ⟨msg, hmsg, (processIdOf_iff hp).mpr hid⟩

theorem terminateProcessId_iff {req : HttpdReq} {p : CStr} (hp : ValidPid p) :
    terminateProcessId req = some p ↔ Carries req p := by
  constructor
  · intro h
    obtain ⟨body, hbody, hrest⟩ := Option.bind_eq_some_iff.mp h
    obtain ⟨msg, hmsg, hid⟩ := Option.bind_eq_some_iff.mp hrest
    exact ⟨body, msg, hbody, hmsg, (processIdOf_iff hp).mp hid⟩
  · intro hex
    obtain ⟨body, msg, hbody, hmsg, hid⟩ := hex
    exact Option.bind_eq_some_iff.mpr ⟨body, hbody,
      Option.bind_eq_some_iff.mpr ⟨msg, hmsg, (processIdOf_iff hp).mpr hid⟩⟩

theorem startProcessId_iff {req : HttpdReq} {p : CStr} (hp : ValidPid p) :
    startProcessId req = some p ↔ RequestsTransfer req p := by
  constructor
  · intro h
    obtain ⟨body, hbody, hrest⟩ := Option.bind_eq_some_iff.mp h
    split_ifs at hrest with hval
    obtain ⟨msg, hmsg, hid⟩ := Option.bind_eq_some_iff.mp hrest
    exact ⟨⟨body, msg, hbody, hmsg, (processIdOf_iff hp).mp hid⟩, body, hbody, not_not.mp hval⟩
  · intro hex
    obtain ⟨⟨body, msg, hbody, hmsg, hid⟩, body', hbody', hval⟩ := hex
    obtain rfl := Option.some.inj (hbody.symm.trans hbody')
    refine Option.bind_eq_some_iff.mpr ⟨body, hbody, ?_⟩
    rw [if_neg (not_not.mpr hval)]
    exact Option.bind_eq_some_iff.mpr ⟨msg, hmsg, (processIdOf_iff hp).mpr hid⟩

theorem pathNegId_iff {uri p : CStr} (hp : ValidPid p) :
    pathNegId uri = some p ↔ extractNegId (some uri) dspNegPidLen = p := by
  have hne := hp.bytes_ne_nil
  simp only [pathNegId]
  constructor
  · intro h
    split_ifs at h
    exact Option.some.inj h
  · intro he
    subst he
    rw [if_neg hne]

theorem transferRequest_requests : RequestsTransfer transferRequest (CStr.lit "p") :=
  (startProcessId_iff ⟨by decide, by decide⟩).mp (by decide +kernel)

end DspEmbedded.Audit.Requests
