import DspEmbedded.Audit.Schema
import DspEmbedded.Model.Build

/-!
# Messages read back as they were built

Every builder writes one fixed tree around its arguments and prints it. What comes
out is the whole text, or nothing at all; the text parses back to the tree, so each
argument is found under its key, whatever bytes it holds. The agreement message is
what the agreement validator asks for, and no other.
-/
namespace DspEmbedded.Audit.Builders

open Lib.CString CJson Model Model.Json Model.Build Model.Msg Audit.Schema

/-! ## Reading a tree -/

inductive Step where
  | member (key : CStr)
  | element (index : Nat)

/-- The node that a path leads to, by the first member of each name. -/
def nodeAt (tree : Json) : List Step → Option Json
  | [] => some tree
  | .member key :: path => (getObjectItemCaseSensitive tree key).bind (nodeAt · path)
  | .element index :: path =>
    match tree with
    | .array child => child[index]?.bind (nodeAt · path)
    | _ => none

def stringAt (tree : Json) (path : List Step) : Option CStr := stringItem (nodeAt tree path)

/-! ## The builders -/

/-- A call of one of the six builders with its arguments. -/
inductive Message where
  | catalog (datasetId title : CStr)
  | agreement (processId agreementId : CStr)
  | negotiationEvent (processId state : CStr)
  | transferStart (processId endpointUrl : CStr)
  | transferCompletion (processId : CStr)
  | error (code reason : CStr)

def Message.build (cap : Nat) : Message → DspBuildErr × Option CStr
  | .catalog datasetId title => dspBuildCatalog cap (some datasetId) (some title)
  | .agreement processId agreementId =>
    dspBuildAgreementMsg cap (some processId) (some agreementId)
  | .negotiationEvent processId state =>
    dspBuildNegotiationEvent cap (some processId) (some state)
  | .transferStart processId endpointUrl =>
    dspBuildTransferStart cap (some processId) (some endpointUrl)
  | .transferCompletion processId => dspBuildTransferCompletion cap (some processId)
  | .error code reason => dspBuildError cap (some code) (some reason)

/-- The object that is serialised. -/
def Message.tree : Message → Json
  | .catalog datasetId title => Build.catalog datasetId title
  | .agreement processId agreementId => agreementMsg processId agreementId
  | .negotiationEvent processId state => Build.negotiationEvent processId state
  | .transferStart processId endpointUrl => Build.transferStart processId endpointUrl
  | .transferCompletion processId => Build.transferCompletion processId
  | .error code reason => errorMessage code reason

def Message.type : Message → CStr
  | .catalog .. => Jsonld.typeCatalog
  | .agreement .. => Jsonld.typeContractAgreement
  | .negotiationEvent .. => Jsonld.typeNegotiationEvent
  | .transferStart .. => Jsonld.typeTransferStart
  | .transferCompletion .. => Jsonld.typeTransferCompletion
  | .error .. => Jsonld.typeError

/-- Where the documentation places each argument. -/
def Message.arguments : Message → List (List Step × CStr)
  | .catalog datasetId title =>
    [([.member Jsonld.fieldTitle], title),
      ([.member Jsonld.fieldCatalogDataset, .element 0, .member Jsonld.fieldId], datasetId)]
  | .agreement processId agreementId =>
    [([.member Jsonld.fieldProcessId], processId),
      ([.member Jsonld.fieldAgreement, .member Jsonld.fieldId], agreementId)]
  | .negotiationEvent processId state =>
    [([.member Jsonld.fieldProcessId], processId), ([.member Jsonld.fieldEventType], state)]
  | .transferStart processId endpointUrl =>
    [([.member Jsonld.fieldProcessId], processId),
      ([.member Jsonld.fieldDataAddress, .member Jsonld.fieldEndpointUrl], endpointUrl)]
  | .transferCompletion processId => [([.member Jsonld.fieldProcessId], processId)]
  | .error code reason =>
    [([.member Jsonld.fieldCode], code), ([.member Jsonld.fieldReason], reason)]

/-- A tree with context, type and every argument where it belongs. -/
structure Carries (m : Message) (tree : Json) : Prop where
  context : stringAt tree [.member Jsonld.fieldContext] = some Jsonld.contextUrl
  type : stringAt tree [.member Jsonld.fieldType] = some m.type
  arguments : ∀ a ∈ m.arguments, stringAt tree a.1 = some a.2

theorem build_eq (m : Message) (cap : Nat) : m.build cap = finalise (some m.tree) cap := by
  cases m with
  | catalog datasetId title => exact dspBuildCatalog_eq cap datasetId title
  | agreement processId agreementId => exact dspBuildAgreementMsg_eq cap processId agreementId
  | negotiationEvent processId state => exact dspBuildNegotiationEvent_eq cap processId state
  | transferStart processId endpointUrl =>
    exact dspBuildTransferStart_eq cap processId endpointUrl
  | transferCompletion processId => exact dspBuildTransferCompletion_eq cap processId
  | error code reason => exact dspBuildError_eq cap code reason

/-- No tree holds a number, so every one has a text. -/
theorem tree_prints (m : Message) : ∃ text, cJSONPrintUnformatted m.tree = some text := by
  cases m <;>
    simp [cJSONPrintUnformatted, Message.tree, Build.catalog, agreementMsg,
      Build.negotiationEvent, Build.transferStart, Build.transferCompletion, errorMessage,
      printValue, printMembers, printElements]

theorem tree_nesting (m : Message) : nesting m.tree ≤ nestingLimit := by
  cases m <;> exact Nat.le_of_ble_eq_true rfl

theorem tree_carries (m : Message) : Carries m m.tree := by
  cases m <;> refine ⟨rfl, rfl, ?_⟩ <;> intro a ha
  case transferCompletion =>
    simp only [Message.arguments, List.mem_singleton] at ha
    subst ha
    rfl
  all_goals
    simp only [Message.arguments, List.mem_cons, List.not_mem_nil, or_false] at ha
    rcases ha with rfl | rfl <;> rfl

/-! ## The agreement message and the validators -/

theorem agreement_hasContext (processId agreementId : CStr) :
    HasContext (agreementMsg processId agreementId) :=
  ⟨Jsonld.contextUrl, stringItem_iff.mp rfl, by decide⟩

theorem agreement_hasType (processId agreementId : CStr) :
    HasType (agreementMsg processId agreementId) Jsonld.typeContractAgreement :=
  stringItem_iff.mp rfl

theorem agreement_accepted {processId agreementId out : CStr} (hne : processId ≠ CStr.empty)
    (hparse : dspJsonParse (some out) = some (agreementMsg processId agreementId)) :
    dspMsgValidateAgreement (some out) = .ok := by
  have hrun := run_verdict .agreement out
  rw [hparse] at hrun
  refine hrun.unique
    (.ok (agreement_hasContext processId agreementId) (agreement_hasType _ _) ?_)
  intro f hf
  simp only [Validator.schema, List.mem_cons, List.not_mem_nil, or_false] at hf
  rcases hf with rfl | rfl
  · exact ⟨processId, stringItem_iff.mp rfl, hne⟩
  · exact ⟨_, firstMember_iff.mp rfl⟩

theorem agreement_wrongType {processId agreementId out : CStr}
    (hparse : dspJsonParse (some out) = some (agreementMsg processId agreementId))
    {v : Validator} (hv : v ≠ .agreement) : v.run (some out) = .errWrongType := by
  have hrun := run_verdict v out
  rw [hparse] at hrun
  refine hrun.unique (.wrongType (agreement_hasContext processId agreementId) ?_)
  intro htype
  exact hv (schema_type_injective (htype.unique (agreement_hasType _ _)))

/-! ## The round trip -/

/-- The call succeeds where the text fits; then it carries what was passed in, and
otherwise the buffer holds the empty string. -/
structure RoundTrips (m : Message) (cap : Nat) (text : List UInt8) : Prop where
  ok_iff : (m.build cap).1 = .ok ↔ text.length < cap
  parsed : (m.build cap).1 = .ok → ∃ out tree, (m.build cap).2 = some out ∧ out.bytes = text ∧
    dspJsonParse (some out) = some tree ∧ Carries m tree
  refused : (m.build cap).1 ≠ .ok → m.build cap = (.errBufTooSmall, some CStr.empty)

/-- What the validators say to an agreement message. -/
structure AgreementJudged (processId out : CStr) : Prop where
  agreement : processId ≠ CStr.empty → dspMsgValidateAgreement (some out) = .ok
  catalogRequest : dspMsgValidateCatalogRequest (some out) = .errWrongType
  offer : dspMsgValidateOffer (some out) = .errWrongType
  transferRequest : dspMsgValidateTransferRequest (some out) = .errWrongType

/-- What a successful call leaves in the buffer parses to the tree. -/
theorem build_parsed {m : Message} {cap : Nat} (hcap : 0 < cap) {text : List UInt8}
    (hp : cJSONPrintUnformatted m.tree = some text) {out : CStr}
    (h : m.build cap = (.ok, some out)) :
    out.bytes = text ∧ dspJsonParse (some out) = some m.tree := by
  rw [build_eq] at h
  rcases finalise_cases hp hcap with ⟨-, heq⟩ | ⟨-, heq⟩
  · rw [heq] at h
    obtain rfl := Option.some.inj (Prod.mk.inj h).2
    exact ⟨rfl, cJSONParse_print hp (tree_nesting m) _ rfl⟩
  · rw [heq] at h
    cases (Prod.mk.inj h).1

theorem build_roundTrips {m : Message} {cap : Nat} (hcap : 0 < cap) {text : List UInt8}
    (hp : cJSONPrintUnformatted m.tree = some text) : RoundTrips m cap text := by
  rcases finalise_cases hp hcap with ⟨hlen, heq⟩ | ⟨hlen, heq⟩
  · rw [← build_eq] at heq
    obtain ⟨hbytes, hparse⟩ := build_parsed hcap hp heq
    exact ⟨by rw [heq]; exact ⟨fun _ => hlen, fun _ => rfl⟩,
      fun _ => ⟨_, m.tree, by rw [heq], hbytes, hparse, tree_carries m⟩,
      fun hne => absurd (by rw [heq]) hne⟩
  · rw [← build_eq] at heq
    have hne : (m.build cap).1 ≠ .ok := by
      rw [heq]
      exact DspBuildErr.noConfusion
    exact ⟨⟨fun h => absurd h hne, fun h => absurd h (Nat.not_lt.mpr hlen)⟩,
      fun h => absurd h hne, fun _ => heq⟩

/-- **Builders round-trip.** For all arguments and every capacity from 1 on. -/
theorem builders_roundTrip (m : Message) (cap : Nat) (hcap : 1 ≤ cap) :
    (∃ text, cJSONPrintUnformatted m.tree = some text ∧ RoundTrips m cap text) ∧
    ∀ processId agreementId out : CStr,
      dspBuildAgreementMsg cap (some processId) (some agreementId) = (.ok, some out) →
        AgreementJudged processId out := by
  constructor
  · obtain ⟨text, hp⟩ := tree_prints m
    exact ⟨text, hp, build_roundTrips hcap hp⟩
  · intro processId agreementId out hbuild
    obtain ⟨text, hp⟩ := tree_prints (.agreement processId agreementId)
    obtain ⟨-, hparse⟩ :=
      @build_parsed (.agreement processId agreementId) cap hcap text hp out hbuild
    exact
      { agreement := fun hne => agreement_accepted hne hparse
        catalogRequest := @agreement_wrongType _ _ _ hparse .catalogRequest (by decide)
        offer := @agreement_wrongType _ _ _ hparse .offer (by decide)
        transferRequest := @agreement_wrongType _ _ _ hparse .transferRequest (by decide) }

/-- A process id of a quote and a control character, in a buffer that the message fits. -/
theorem builders_roundTrip_quote :
    ((Message.transferCompletion ⟨[34, 1], by decide⟩).build 256).1 = .ok ∧
    ∃ text, cJSONPrintUnformatted (Message.transferCompletion ⟨[34, 1], by decide⟩).tree =
      some text ∧ RoundTrips (.transferCompletion ⟨[34, 1], by decide⟩) 256 text :=
  ⟨by decide +kernel,
    (builders_roundTrip (.transferCompletion ⟨[34, 1], by decide⟩) 256 (by decide)).1⟩

end DspEmbedded.Audit.Builders
