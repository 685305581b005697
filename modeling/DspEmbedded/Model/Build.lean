import DspEmbedded.Model.Json

/-!
# `dsp_build.c`

The message builders. The second component is the string that the output buffer
holds afterwards, `none` where the function returns without writing to it.
-/
namespace DspEmbedded.Model.Build

open Lib.CString CJson Model.Json

inductive DspBuildErr where
  | ok
  | errNullArg
  | errBufTooSmall
  | errAlloc
  deriving DecidableEq, Repr

/-- Adds string members one after another, as long as that succeeds. -/
def addStrings (obj : Option Json) : List (CStr × CStr) → Bool × Option Json
  | [] => (true, obj)
  | (key, val) :: rest =>
    match dspJsonAddString .succeeds obj (some key) (some val) with
    | (true, obj) => addStrings obj rest
    | (false, obj) => (false, obj)

def stampCommon (obj : Option Json) (type : CStr) : Bool × Option Json :=
  addStrings obj [(Jsonld.fieldContext, Jsonld.contextUrl), (Jsonld.fieldType, type)]

def finalise (obj : Option Json) (cap : Nat) : DspBuildErr × Option CStr :=
  let printed := dspJsonPrint obj cap
  (if printed.1 then .ok else .errBufTooSmall, some printed.2)

def dspBuildCatalog (cap : Nat) (datasetId title : Option CStr) : DspBuildErr × Option CStr :=
  match datasetId, title with
  | some datasetId, some title =>
    match addStrings (some dspJsonNewObject)
        [(Jsonld.fieldType, Jsonld.typeDataset), (Jsonld.fieldId, datasetId)] with
    | (false, _) => (.errAlloc, none)
    | (true, ds) =>
      match stampCommon (some dspJsonNewObject) Jsonld.typeCatalog with
      | (false, _) => (.errAlloc, none)
      | (true, obj) =>
        match addStrings obj [(Jsonld.fieldTitle, title)], ds with
        | (true, some obj), some ds =>
          let arr := addItemToArray (.array []) ds
          finalise (some (addItemToObject obj Jsonld.fieldCatalogDataset arr)) cap
        | _, _ => (.errAlloc, none)
  | _, _ => (.errNullArg, none)

def dspBuildAgreementMsg (cap : Nat) (processId agreementId : Option CStr) :
    DspBuildErr × Option CStr :=
  match processId, agreementId with
  | some processId, some agreementId =>
    match addStrings (some dspJsonNewObject)
        [(Jsonld.fieldType, Jsonld.typeAgreement), (Jsonld.fieldId, agreementId)] with
    | (false, _) => (.errAlloc, none)
    | (true, agreement) =>
      match stampCommon (some dspJsonNewObject) Jsonld.typeContractAgreement with
      | (false, _) => (.errAlloc, none)
      | (true, obj) =>
        match addStrings obj [(Jsonld.fieldProcessId, processId)], agreement with
        | (true, some obj), some agreement =>
          finalise (some (addItemToObject obj Jsonld.fieldAgreement agreement)) cap
        | _, _ => (.errAlloc, none)
  | _, _ => (.errNullArg, none)

def dspBuildNegotiationEvent (cap : Nat) (processId state : Option CStr) :
    DspBuildErr × Option CStr :=
  match processId, state with
  | some processId, some state =>
    match stampCommon (some dspJsonNewObject) Jsonld.typeNegotiationEvent with
    | (false, _) => (.errAlloc, none)
    | (true, obj) =>
      match addStrings obj [(Jsonld.fieldProcessId, processId), (Jsonld.fieldEventType, state)] with
      | (false, _) => (.errAlloc, none)
      | (true, obj) => finalise obj cap
  | _, _ => (.errNullArg, none)

def dspBuildTransferStart (cap : Nat) (processId endpointUrl : Option CStr) :
    DspBuildErr × Option CStr :=
  match processId, endpointUrl with
  | some processId, some endpointUrl =>
    match addStrings (some dspJsonNewObject) [(Jsonld.fieldEndpointUrl, endpointUrl)] with
    | (false, _) => (.errAlloc, none)
    | (true, addr) =>
      match stampCommon (some dspJsonNewObject) Jsonld.typeTransferStart with
      | (false, _) => (.errAlloc, none)
      | (true, obj) =>
        match addStrings obj [(Jsonld.fieldProcessId, processId)], addr with
        | (true, some obj), some addr =>
          finalise (some (addItemToObject obj Jsonld.fieldDataAddress addr)) cap
        | _, _ => (.errAlloc, none)
  | _, _ => (.errNullArg, none)

def dspBuildTransferCompletion (cap : Nat) (processId : Option CStr) :
    DspBuildErr × Option CStr :=
  match processId with
  | some processId =>
    match stampCommon (some dspJsonNewObject) Jsonld.typeTransferCompletion with
    | (false, _) => (.errAlloc, none)
    | (true, obj) =>
      match addStrings obj [(Jsonld.fieldProcessId, processId)] with
      | (false, _) => (.errAlloc, none)
      | (true, obj) => finalise obj cap
  | none => (.errNullArg, none)

def dspBuildError (cap : Nat) (code reason : Option CStr) : DspBuildErr × Option CStr :=
  match code, reason with
  | some code, some reason =>
    match stampCommon (some dspJsonNewObject) Jsonld.typeError with
    | (false, _) => (.errAlloc, none)
    | (true, obj) =>
      match addStrings obj [(Jsonld.fieldCode, code), (Jsonld.fieldReason, reason)] with
      | (false, _) => (.errAlloc, none)
      | (true, obj) => finalise obj cap
  | _, _ => (.errNullArg, none)

/-! ## The messages

Each builder writes one fixed tree around its arguments. -/

theorem addStrings_fresh (child : List (CStr × Json)) (l : List (CStr × CStr))
    (h : (child.map Prod.fst ++ l.map Prod.fst).Nodup) :
    addStrings (some (.object child)) l =
      (true, some (.object (child ++ l.map fun m => (m.1, .string m.2)))) := by
  induction l generalizing child with
  | nil => simp [addStrings]
  | cons m rest ih =>
    obtain ⟨key, val⟩ := m
    have hfresh : ∀ m ∈ child, m.1 ≠ key := by
      intro m hm he
      obtain ⟨-, -, hdisj⟩ := List.nodup_append.mp h
      exact hdisj m.1 (List.mem_map_of_mem hm) key (by simp) he
    rw [addStrings, addString_fresh val hfresh]
    have hnext := ih (child ++ [(key, .string val)]) (by simpa using h)
    simpa using hnext

def catalog (datasetId title : CStr) : Json :=
  .object [(Jsonld.fieldContext, .string Jsonld.contextUrl),
    (Jsonld.fieldType, .string Jsonld.typeCatalog), (Jsonld.fieldTitle, .string title),
    (Jsonld.fieldCatalogDataset, .array [.object
      [(Jsonld.fieldType, .string Jsonld.typeDataset), (Jsonld.fieldId, .string datasetId)]])]

def agreementMsg (processId agreementId : CStr) : Json :=
  .object [(Jsonld.fieldContext, .string Jsonld.contextUrl),
    (Jsonld.fieldType, .string Jsonld.typeContractAgreement),
    (Jsonld.fieldProcessId, .string processId),
    (Jsonld.fieldAgreement, .object
      [(Jsonld.fieldType, .string Jsonld.typeAgreement), (Jsonld.fieldId, .string agreementId)])]

def negotiationEvent (processId state : CStr) : Json :=
  .object [(Jsonld.fieldContext, .string Jsonld.contextUrl),
    (Jsonld.fieldType, .string Jsonld.typeNegotiationEvent),
    (Jsonld.fieldProcessId, .string processId), (Jsonld.fieldEventType, .string state)]

def transferStart (processId endpointUrl : CStr) : Json :=
  .object [(Jsonld.fieldContext, .string Jsonld.contextUrl),
    (Jsonld.fieldType, .string Jsonld.typeTransferStart),
    (Jsonld.fieldProcessId, .string processId),
    (Jsonld.fieldDataAddress, .object [(Jsonld.fieldEndpointUrl, .string endpointUrl)])]

def transferCompletion (processId : CStr) : Json :=
  .object [(Jsonld.fieldContext, .string Jsonld.contextUrl),
    (Jsonld.fieldType, .string Jsonld.typeTransferCompletion),
    (Jsonld.fieldProcessId, .string processId)]

def errorMessage (code reason : CStr) : Json :=
  .object [(Jsonld.fieldContext, .string Jsonld.contextUrl),
    (Jsonld.fieldType, .string Jsonld.typeError),
    (Jsonld.fieldCode, .string code), (Jsonld.fieldReason, .string reason)]

theorem stampCommon_eq (type : CStr) :
    stampCommon (some dspJsonNewObject) type =
      (true, some (.object [(Jsonld.fieldContext, .string Jsonld.contextUrl),
        (Jsonld.fieldType, .string type)])) :=
  addStrings_fresh [] _ (show [Jsonld.fieldContext, Jsonld.fieldType].Nodup by decide)

theorem dspBuildCatalog_eq (cap : Nat) (datasetId title : CStr) :
    dspBuildCatalog cap (some datasetId) (some title) =
      finalise (some (catalog datasetId title)) cap := by
  have hkeys : [Jsonld.fieldContext, Jsonld.fieldType, Jsonld.fieldTitle].Nodup := by decide
  have hdataset := addStrings_fresh []
    [(Jsonld.fieldType, Jsonld.typeDataset), (Jsonld.fieldId, datasetId)]
    (show [Jsonld.fieldType, Jsonld.fieldId].Nodup by decide)
  simp only [dspBuildCatalog, stampCommon_eq]
  rw [addStrings_fresh _ _ (by exact hkeys), dspJsonNewObject, hdataset]
  rfl

theorem dspBuildAgreementMsg_eq (cap : Nat) (processId agreementId : CStr) :
    dspBuildAgreementMsg cap (some processId) (some agreementId) =
      finalise (some (agreementMsg processId agreementId)) cap := by
  have hkeys : [Jsonld.fieldContext, Jsonld.fieldType, Jsonld.fieldProcessId].Nodup := by decide
  have hagreement := addStrings_fresh []
    [(Jsonld.fieldType, Jsonld.typeAgreement), (Jsonld.fieldId, agreementId)]
    (show [Jsonld.fieldType, Jsonld.fieldId].Nodup by decide)
  simp only [dspBuildAgreementMsg, stampCommon_eq]
  rw [addStrings_fresh _ _ (by exact hkeys), dspJsonNewObject, hagreement]
  rfl

theorem dspBuildNegotiationEvent_eq (cap : Nat) (processId state : CStr) :
    dspBuildNegotiationEvent cap (some processId) (some state) =
      finalise (some (negotiationEvent processId state)) cap := by
  have hkeys : [Jsonld.fieldContext, Jsonld.fieldType, Jsonld.fieldProcessId,
      Jsonld.fieldEventType].Nodup := by decide
  simp only [dspBuildNegotiationEvent, stampCommon_eq]
  rw [addStrings_fresh _ _ (by exact hkeys)]
  rfl

theorem dspBuildTransferStart_eq (cap : Nat) (processId endpointUrl : CStr) :
    dspBuildTransferStart cap (some processId) (some endpointUrl) =
      finalise (some (transferStart processId endpointUrl)) cap := by
  have hkeys : [Jsonld.fieldContext, Jsonld.fieldType, Jsonld.fieldProcessId].Nodup := by decide
  have haddr := addStrings_fresh [] [(Jsonld.fieldEndpointUrl, endpointUrl)] (by simp)
  simp only [dspBuildTransferStart, stampCommon_eq]
  rw [addStrings_fresh _ _ (by exact hkeys), dspJsonNewObject, haddr]
  rfl

theorem dspBuildTransferCompletion_eq (cap : Nat) (processId : CStr) :
    dspBuildTransferCompletion cap (some processId) =
      finalise (some (transferCompletion processId)) cap := by
  have hkeys : [Jsonld.fieldContext, Jsonld.fieldType, Jsonld.fieldProcessId].Nodup := by decide
  simp only [dspBuildTransferCompletion, stampCommon_eq]
  rw [addStrings_fresh _ _ (by exact hkeys)]
  rfl

theorem dspBuildError_eq (cap : Nat) (code reason : CStr) :
    dspBuildError cap (some code) (some reason) =
      finalise (some (errorMessage code reason)) cap := by
  have hkeys : [Jsonld.fieldContext, Jsonld.fieldType, Jsonld.fieldCode,
      Jsonld.fieldReason].Nodup := by decide
  simp only [dspBuildError, stampCommon_eq]
  rw [addStrings_fresh _ _ (by exact hkeys)]
  rfl

/-- A message is written whole or not at all. -/
theorem finalise_cases {t : Json} {text : List UInt8}
    (hp : cJSONPrintUnformatted t = some text) {cap : Nat} (hcap : 0 < cap) :
    (text.length < cap ∧ finalise (some t) cap = (.ok, some ⟨text, printValue_noNul t hp⟩)) ∨
      (cap ≤ text.length ∧ finalise (some t) cap = (.errBufTooSmall, some CStr.empty)) := by
  by_cases hlen : text.length < cap
  · refine .inl ⟨hlen, ?_⟩
    rw [finalise, print_ok hp (printValue_noNul t hp) hlen]
    rfl
  · refine .inr ⟨Nat.le_of_not_lt hlen, ?_⟩
    rw [finalise, print_tooSmall hp (printValue_noNul t hp) hcap (Nat.le_of_not_lt hlen)]
    rfl

/-- A message that fits is sent as a text that parses back to it. -/
theorem finalise_fits {t : Json} {text : List UInt8} {cap : Nat}
    (hp : cJSONPrintUnformatted t = some text) (hn : nesting t ≤ nestingLimit)
    (hlen : text.length < cap) :
    ∃ s, finalise (some t) cap = (.ok, some s) ∧ cJSONParse s = some t := by
  rcases finalise_cases hp (Nat.zero_lt_of_lt hlen) with ⟨-, heq⟩ | ⟨hge, -⟩
  · exact ⟨_, heq, cJSONParse_print hp hn _ rfl⟩
  · omega

/-! ## The 1024 byte response buffer -/

theorem print_negotiationEvent (processId state : CStr) :
    cJSONPrintUnformatted (negotiationEvent processId state) =
      some ([[123], printString Jsonld.fieldContext, [58], printString Jsonld.contextUrl,
        [44], printString Jsonld.fieldType, [58], printString Jsonld.typeNegotiationEvent,
        [44], printString Jsonld.fieldProcessId, [58], printString processId,
        [44], printString Jsonld.fieldEventType, [58], printString state, [125]].flatten) := by
  simp [cJSONPrintUnformatted, negotiationEvent, printValue, printMembers, separator]

theorem print_transferStart (processId endpointUrl : CStr) :
    cJSONPrintUnformatted (transferStart processId endpointUrl) =
      some ([[123], printString Jsonld.fieldContext, [58], printString Jsonld.contextUrl,
        [44], printString Jsonld.fieldType, [58], printString Jsonld.typeTransferStart,
        [44], printString Jsonld.fieldProcessId, [58], printString processId,
        [44], printString Jsonld.fieldDataAddress, [58],
        [123], printString Jsonld.fieldEndpointUrl, [58], printString endpointUrl, [125],
        [125]].flatten) := by
  simp [cJSONPrintUnformatted, transferStart, printValue, printMembers, separator]

theorem print_transferCompletion (processId : CStr) :
    cJSONPrintUnformatted (transferCompletion processId) =
      some ([[123], printString Jsonld.fieldContext, [58], printString Jsonld.contextUrl,
        [44], printString Jsonld.fieldType, [58], printString Jsonld.typeTransferCompletion,
        [44], printString Jsonld.fieldProcessId, [58], printString processId, [125]].flatten) := by
  simp [cJSONPrintUnformatted, transferCompletion, printValue, printMembers, separator]

theorem print_errorMessage (code reason : CStr) :
    cJSONPrintUnformatted (errorMessage code reason) =
      some ([[123], printString Jsonld.fieldContext, [58], printString Jsonld.contextUrl,
        [44], printString Jsonld.fieldType, [58], printString Jsonld.typeError,
        [44], printString Jsonld.fieldCode, [58], printString code,
        [44], printString Jsonld.fieldReason, [58], printString reason, [125]].flatten) := by
  simp [cJSONPrintUnformatted, errorMessage, printValue, printMembers, separator]

/-- The printed lengths of the fixed parts. -/
theorem printed_lengths :
    (printString Jsonld.fieldContext).length = 10 ∧
    (printString Jsonld.contextUrl).length = 45 ∧
    (printString Jsonld.fieldType).length = 7 ∧
    (printString Jsonld.fieldProcessId).length = 18 ∧
    (printString Jsonld.fieldEventType).length = 18 ∧
    (printString Jsonld.fieldDataAddress).length = 20 ∧
    (printString Jsonld.fieldEndpointUrl).length = 20 ∧
    (printString Jsonld.typeNegotiationEvent).length = 40 ∧
    (printString Jsonld.typeTransferStart).length = 29 ∧
    (printString Jsonld.typeTransferCompletion).length = 34 ∧
    (printString Jsonld.configProviderId).length = 34 := by
  decide

/-- A process id takes at most 63 bytes and prints to at most 380. -/
theorem negotiationEvent_fits {processId state : CStr} (hpid : processId.length < 64)
    (hstate : state.length ≤ 17) :
    ∃ s, dspBuildNegotiationEvent 1024 (some processId) (some state) = (.ok, some s) ∧
      cJSONParse s = some (negotiationEvent processId state) := by
  rw [dspBuildNegotiationEvent_eq]
  apply finalise_fits (print_negotiationEvent processId state) (Nat.le_of_ble_eq_true rfl)
  obtain ⟨h1, h2, h3, h4, h5, -, -, h6, -⟩ := printed_lengths
  have hp := printString_length_le processId
  have hs := printString_length_le state
  simp only [List.length_flatten, List.map_cons, List.map_nil, List.sum_cons, List.sum_nil,
    List.length_cons, List.length_nil, h1, h2, h3, h4, h5, h6]
  grind

theorem transferStart_fits {processId : CStr} (hpid : processId.length < 64) :
    ∃ s, dspBuildTransferStart 1024 (some processId) (some Jsonld.configProviderId) =
        (.ok, some s) ∧
      cJSONParse s = some (transferStart processId Jsonld.configProviderId) := by
  rw [dspBuildTransferStart_eq]
  apply finalise_fits (print_transferStart processId _) (Nat.le_of_ble_eq_true rfl)
  obtain ⟨h1, h2, h3, h4, -, h5, h6, -, h7, -, h8⟩ := printed_lengths
  have hp := printString_length_le processId
  simp only [List.length_flatten, List.map_cons, List.map_nil, List.sum_cons, List.sum_nil,
    List.length_cons, List.length_nil, h1, h2, h3, h4, h5, h6, h7, h8]
  grind

theorem transferCompletion_fits {processId : CStr} (hpid : processId.length < 64) :
    ∃ s, dspBuildTransferCompletion 1024 (some processId) = (.ok, some s) ∧
      cJSONParse s = some (transferCompletion processId) := by
  rw [dspBuildTransferCompletion_eq]
  apply finalise_fits (print_transferCompletion processId) (Nat.le_of_ble_eq_true rfl)
  obtain ⟨h1, h2, h3, h4, -, -, -, -, -, h5, -⟩ := printed_lengths
  have hp := printString_length_le processId
  simp only [List.length_flatten, List.map_cons, List.map_nil, List.sum_cons, List.sum_nil,
    List.length_cons, List.length_nil, h1, h2, h3, h4, h5]
  grind

theorem error_fits {code reason : CStr} (hcode : code.length ≤ 17) (hreason : reason.length ≤ 17) :
    ∃ s, dspBuildError 1024 (some code) (some reason) = (.ok, some s) ∧
      cJSONParse s = some (errorMessage code reason) := by
  rw [dspBuildError_eq]
  apply finalise_fits (print_errorMessage code reason) (Nat.le_of_ble_eq_true rfl)
  obtain ⟨h1, h2, h3, -⟩ := printed_lengths
  have h4 : (printString Jsonld.typeError).length = 14 := by decide
  have h5 : (printString Jsonld.fieldCode).length = 13 := by decide
  have h6 : (printString Jsonld.fieldReason).length = 15 := by decide
  have hc := printString_length_le code
  have hr := printString_length_le reason
  simp only [List.length_flatten, List.map_cons, List.map_nil, List.sum_cons, List.sum_nil,
    List.length_cons, List.length_nil, h1, h2, h3, h4, h5, h6]
  grind

end DspEmbedded.Model.Build
