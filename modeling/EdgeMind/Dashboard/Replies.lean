import EdgeMind.Dashboard.Http
import EdgeMind.Dashboard.JsonText
import EdgeMind.Framework.JsonDocument

/-!
# What the replies say

Every reply with a body is a JSON document, and what it says can be read back from it: what the server
holds, what it has been told of the models, or how the request has gone.
-/

namespace EdgeMind

open Framework Framework.Json

namespace Dashboard

variable {L : Type}

theorem jsonCharacter_canonical (c : UInt8) : (jsonCharacter c).canonical = jsonCharacter c := by
  unfold jsonCharacter
  split_ifs <;> rfl

/-- The way in which the dashboard writes strings. -/
def jsonEncoding : Encoding where
  encode := jsonCharacters
  decodes := decode_jsonCharacters
  canonical := by
    intro s
    rw [jsonCharacters, List.map_map]
    exact List.map_congr_left fun c _ => jsonCharacter_canonical c

@[simp]
theorem string_text (s : Bytes) : (Document.string s).text jsonEncoding = jsonString s :=
  quoted_jsonCharacters s

theorem object_text (ms : List (Bytes × Document)) : (Document.object ms).text jsonEncoding =
    123 :: joined (ms.map fun m => jsonString m.1 ++ 58 :: m.2.text jsonEncoding) ++ [125] := by
  rw [Document.text, memberTexts_eq]
  congr 3
  refine List.map_congr_left fun m _ => ?_
  rw [writtenMember]
  exact congrArg (· ++ _) (quoted_jsonCharacters m.1)

/-- What a reply says. -/
inductive View
  | health (held : Bool)
  | version
  | system (info : SystemMemoryInfo)
  | models (rows : List ModelRow)
  | runtime (ready : Bool) (lastStatus : Api.Status) (info : Option InferenceEngine.ModelInfo)
  | report (shown : Bytes)
  | loaded (status : Api.Status)
  | done
  | failed (message : Bytes)

def ModelRow.document (row : ModelRow) : Document := .object [
  (text "model_id", .string row.modelId),
  (text "name", .string row.name),
  (text "architecture", .string row.architecture),
  (text "quantization", .string row.quantization),
  (text "verification", .string row.verification)]

def infoDocument (info : InferenceEngine.ModelInfo) : Document := .object [
  (text "description", .string info.description),
  (text "n_params", .number (.ofInt info.nParams.toNat)),
  (text "model_size_bytes", .number (.ofInt info.modelSizeBytes.toNat)),
  (text "n_ctx_train", .number (.ofInt info.nCtxTrain.toInt)),
  (text "n_ctx", .number (.ofInt info.nCtx.toInt)),
  (text "threads", .number (.ofInt info.nThreads.toInt))]

def mbNumber (bytes : UInt64) : Number := ⟨streamedMb bytes, isNumber_streamedMb bytes⟩

namespace View

def document : View → Document
  | health held =>
      .object [(text "status", .string (text "ok")), (text "loaded", .boolean held)]
  | version => .object [(text "release", .string (text "v0.9.0-alpha")),
      (text "abi_version", .number (.ofInt 2))]
  | system info => .object [
      (text "available", .boolean info.available),
      (text "total_bytes", .number (.ofInt info.totalBytes.toNat)),
      (text "available_bytes", .number (.ofInt info.availableBytes.toNat)),
      (text "total_mb", .number (mbNumber info.totalBytes)),
      (text "available_mb", .number (mbNumber info.availableBytes))]
  | models rows => .object [(text "models", .array (rows.map ModelRow.document))]
  | runtime ready lastStatus info => .object (
      [(text "loaded", .boolean ready),
        (text "last_status", .string (Api.statusMessage lastStatus))] ++
      info.toList.map fun info => (text "model", infoDocument info))
  | report shown => .object [(text "report", .string shown)]
  | loaded status => .object [(text "ok", .boolean true),
      (text "status", .string (Api.statusMessage status))]
  | done => .object [(text "ok", .boolean true)]
  | failed message => .object [(text "error", .string message)]

def text (view : View) : Bytes := view.document.text jsonEncoding

end View

@[simp]
theorem boolean_text (b : Bool) : (Document.boolean b).text jsonEncoding = jsonBool b := by
  cases b <;> rfl

@[simp]
theorem number_text (n : Number) : (Document.number n).text jsonEncoding = n.literal := by
  rw [Document.text]

@[simp]
theorem ofInt_literal (z : Int) : (Number.ofInt z).literal = intDecimal z := rfl

@[simp]
theorem intDecimal_natCast (n : Nat) : intDecimal n = decimal n := by
  simp [intDecimal]

theorem brace_text : text "\x7d" = [125] := by decide

theorem errorObject_text (message : Bytes) : errorObject message = (View.failed message).text := by
  have hopen : text "\x7b\"error\":" = 123 :: (jsonString (text "error") ++ [58]) := by decide
  rw [View.text, View.document, object_text, errorObject, hopen, brace_text]
  simp

theorem okObject_text : okObject = View.done.text := by
  rw [View.text, View.document, object_text]
  decide

theorem healthJson_text {H : Type} (s : DashboardServer H) :
    s.healthJson = (View.health s.healthLoaded).text := by
  have hopen : text "\x7b\"status\":\"ok\",\"loaded\":" =
      123 :: (jsonString (text "status") ++ 58 :: (jsonString (text "ok") ++
        44 :: (jsonString (text "loaded") ++ [58]))) := by decide
  rw [View.text, View.document, object_text, DashboardServer.healthJson, hopen, brace_text]
  simp

theorem reportJson_text (report : Bytes) :
    DashboardServer.reportJson report = (View.report report).text := by
  have hopen : text "\x7b\"report\":" = 123 :: (jsonString (text "report") ++ [58]) := by decide
  rw [View.text, View.document, object_text, DashboardServer.reportJson, hopen, brace_text]
  simp

theorem loadedObject_text (status : Api.Status) : text "\x7b\"ok\":true,\"status\":\"" ++
    jsonEscape (Api.statusMessage status) ++ text "\"\x7d" = (View.loaded status).text := by
  have hopen : text "\x7b\"ok\":true,\"status\":\"" =
      123 :: (jsonString (text "ok") ++ 58 :: (jsonBool true ++
        44 :: (jsonString (text "status") ++ [58, 34]))) := by decide
  have hclose : text "\"\x7d" = [34, 125] := by decide
  have hquote : text "\"" = [34] := by decide
  rw [View.text, View.document, object_text, hopen, hclose]
  simp only [List.map_cons, List.map_nil, joined_cons_cons, joined_singleton, string_text, boolean_text,
    jsonString, hquote, List.append_assoc, List.cons_append, List.nil_append]

theorem versionJson_text : versionJson = View.version.text := by
  have hopen : text "\x7b\"release\":" = 123 :: (jsonString (text "release") ++ [58]) := by decide
  have hmiddle : text ",\"abi_version\":" = 44 :: (jsonString (text "abi_version") ++ [58]) := by decide
  have htwo : intDecimal 2 = decimal 2 := by decide
  rw [View.text, View.document, object_text, versionJson, hopen, hmiddle, brace_text]
  simp [htwo]

theorem systemJson_text (info : SystemMemoryInfo) : systemJson info = (View.system info).text := by
  have hopen : text "\x7b\"available\":" = 123 :: (jsonString (text "available") ++ [58]) := by decide
  have h₁ : text ",\"total_bytes\":" = 44 :: (jsonString (text "total_bytes") ++ [58]) := by decide
  have h₂ : text ",\"available_bytes\":" = 44 :: (jsonString (text "available_bytes") ++ [58]) := by decide
  have h₃ : text ",\"total_mb\":" = 44 :: (jsonString (text "total_mb") ++ [58]) := by decide
  have h₄ : text ",\"available_mb\":" = 44 :: (jsonString (text "available_mb") ++ [58]) := by decide
  rw [View.text, View.document, object_text, systemJson, hopen, h₁, h₂, h₃, h₄, brace_text]
  simp [mbNumber]

theorem modelObject_text (row : ModelRow) : modelObject row = row.document.text jsonEncoding := by
  have hopen : text "\x7b\"model_id\":" = 123 :: (jsonString (text "model_id") ++ [58]) := by decide
  have h₁ : text ",\"name\":" = 44 :: (jsonString (text "name") ++ [58]) := by decide
  have h₂ : text ",\"architecture\":" = 44 :: (jsonString (text "architecture") ++ [58]) := by decide
  have h₃ : text ",\"quantization\":" = 44 :: (jsonString (text "quantization") ++ [58]) := by decide
  have h₄ : text ",\"verification\":" = 44 :: (jsonString (text "verification") ++ [58]) := by decide
  rw [ModelRow.document, object_text, modelObject, hopen, h₁, h₂, h₃, h₄, brace_text]
  simp

theorem modelObjects_joined (rows : List ModelRow) :
    modelObjects rows = joined (rows.map modelObject) := by
  induction rows with
  | nil => rfl
  | cons row rows ih =>
      cases rows with
      | nil => simp [modelObjects]
      | cons row' rows =>
          have hcomma : text "," = [44] := by decide
          rw [modelObjects, ih, hcomma]
          · simp
          · exact List.cons_ne_nil _ _

theorem modelsJson_text (report : Bytes) : DashboardServer.modelsJson report =
    (View.models ((lines report).filterMap modelRow)).text := by
  have hopen : text "\x7b\"models\":" = 123 :: (jsonString (text "models") ++ [58]) := by decide
  have hleft : text "[" = [91] := by decide
  have hright : text "]" = [93] := by decide
  have hobjects : modelObject = fun row => row.document.text jsonEncoding := funext modelObject_text
  rw [View.text, View.document, object_text, DashboardServer.modelsJson, modelsAsJson, modelArray, modelObjects_joined,
    hobjects, hopen, hleft, hright, brace_text]
  simp [Document.text, elementTexts_eq, Function.comp_def]

theorem modelInfoObject_text (info : InferenceEngine.ModelInfo) :
    DashboardServer.modelInfoObject info =
      44 :: (jsonString (text "model") ++ 58 :: (infoDocument info).text jsonEncoding) := by
  have hopen : text ",\"model\":\x7b\"description\":" = 44 :: (jsonString (text "model") ++
      58 :: 123 :: (jsonString (text "description") ++ [58])) := by decide
  have h₁ : text ",\"n_params\":" = 44 :: (jsonString (text "n_params") ++ [58]) := by decide
  have h₂ : text ",\"model_size_bytes\":" = 44 :: (jsonString (text "model_size_bytes") ++ [58]) := by
    decide
  have h₃ : text ",\"n_ctx_train\":" = 44 :: (jsonString (text "n_ctx_train") ++ [58]) := by decide
  have h₄ : text ",\"n_ctx\":" = 44 :: (jsonString (text "n_ctx") ++ [58]) := by decide
  have h₅ : text ",\"threads\":" = 44 :: (jsonString (text "threads") ++ [58]) := by decide
  rw [infoDocument, object_text, DashboardServer.modelInfoObject, hopen, h₁, h₂, h₃, h₄, h₅, brace_text]
  simp

theorem runtimeJson_text {H : Type} (s : DashboardServer H)
    (info : Option InferenceEngine.ModelInfo) :
    s.runtimeJson info = (View.runtime s.runtimeLoaded s.lastStatus
      (if s.runtimeLoaded then info else none)).text := by
  have hopen : text "\x7b\"loaded\":" = 123 :: (jsonString (text "loaded") ++ [58]) := by decide
  have h₁ : text ",\"last_status\":" = 44 :: (jsonString (text "last_status") ++ [58]) := by decide
  rw [View.text, View.document, object_text, DashboardServer.runtimeJson, hopen, h₁, brace_text]
  cases hloaded : s.runtimeLoaded with
  | false => simp
  | true =>
      cases info with
      | none => simp
      | some info => simp [modelInfoObject_text]

theorem ofInt_injective : Function.Injective Number.ofInt := by
  intro y z h
  have hliteral : intDecimal y ++ [] = intDecimal z ++ [] :=
    congrArg (· ++ []) (congrArg Number.literal h)
  exact (intDecimal_append_inj (by simp) (by simp) hliteral).1

theorem ModelRow.document_injective : Function.Injective ModelRow.document := by
  rintro ⟨⟩ ⟨⟩ h
  simpa [ModelRow.document] using h

theorem infoDocument_injective : Function.Injective infoDocument := by
  rintro ⟨⟩ ⟨⟩ h
  simp only [infoDocument, Document.object.injEq, List.cons.injEq, Prod.mk.injEq,
    Document.string.injEq, Document.number.injEq, ofInt_injective.eq_iff, Int.natCast_inj,
    UInt64.toNat_inj, Int32.toInt_inj, true_and, and_true] at h
  simpa using h

theorem statusMessage_injective : Function.Injective Api.statusMessage := by
  intro status status' h
  revert h
  cases status <;> cases status' <;> decide

namespace View

def key : View → Bytes
  | health _ => Framework.text "status"
  | version => Framework.text "release"
  | system _ => Framework.text "available"
  | models _ => Framework.text "models"
  | runtime .. => Framework.text "loaded"
  | report _ => Framework.text "report"
  | loaded _ | done => Framework.text "ok"
  | failed _ => Framework.text "error"

theorem document_key (view : View) : ∃ d ms, view.document = .object ((view.key, d) :: ms) := by
  cases view <;> exact ⟨_, _, rfl⟩

theorem document_injective : Function.Injective document := by
  intro view view' h
  have hkey : view.key = view'.key := by
    obtain ⟨d, ms, hview⟩ := view.document_key
    obtain ⟨d', ms', hview'⟩ := view'.document_key
    rw [hview, hview'] at h
    simp only [Document.object.injEq, List.cons.injEq, Prod.mk.injEq] at h
    exact h.1.1
  cases view <;> cases view' <;> try simp +decide only [key] at hkey
  case system.system info info' =>
    obtain ⟨available, totalBytes, availableBytes⟩ := info
    simp_all [document, ofInt_injective.eq_iff, UInt64.toNat_inj]
  case models.models rows rows' =>
    simpa [document, List.map_inj_right ModelRow.document_injective] using h
  case runtime.runtime ready lastStatus info ready' lastStatus' info' =>
    cases info <;> cases info' <;>
      simp_all [document, statusMessage_injective.eq_iff, infoDocument_injective.eq_iff]
  case loaded.loaded status status' =>
    simpa [document, statusMessage_injective.eq_iff] using h
  all_goals simp_all [document]

theorem parse_view (view : View) : parse view.text = some view.document :=
  parse_text jsonEncoding view.document

end View

def refusals : List Bytes := [
  text "request body too large",
  text "provide exactly one of model_id or model_path",
  text "no previous model configuration to reload"]

def errorStatus : LifecycleRequest → Nat
  | .load _ => 400
  | .reload | .unload => 409

section Lifecycle

variable {H : Type}

/-- What the reply to a request tells of the server before and behind it. -/
inductive LifecycleTold (s after : DashboardServer H) : LifecycleRequest → Nat → View → Prop
  | unloaded (hafter : after.runtime = none) : LifecycleTold s after .unload 200 .done
  | refused {request : LifecycleRequest} (h : s.requested request = none) (hafter : after = s)
      {message : Bytes} (hmessage : message ∈ refusals) :
      LifecycleTold s after request (errorStatus request) (.failed message)
  | failed {request : LifecycleRequest} (h : s.requested request ≠ none)
      (hafter : after.runtimeLoaded = false) : LifecycleTold s after request (errorStatus request)
        (.failed (Api.statusMessage after.lastStatus))
  | loaded {body : Bytes} (h : s.requested (.load body) ≠ none) (hafter : after.runtimeLoaded = true) :
      LifecycleTold s after (.load body) 200 (.loaded .ok)
  | reloaded (h : s.requested .reload ≠ none) (hafter : after.runtimeLoaded = true) :
      LifecycleTold s after .reload 200 .done

namespace DashboardServer

theorem candidate_error {s : DashboardServer H} {body errorJson : Bytes}
    (h : s.candidate body = .error errorJson) : ∃ message ∈ refusals, errorJson = errorObject message := by
  unfold candidate at h
  split at h
  · cases h
    exact ⟨_, by simp [refusals], rfl⟩
  · dsimp only at h
    split at h
    · cases h
      exact ⟨_, by simp [refusals], rfl⟩
    · cases h

/-- What becomes of a load: it is refused, it fails, or the runtime is loaded. -/
inductive OutcomeCase (s : DashboardServer H) : Option RuntimeConfigState → LoadOutcome H → Prop
  | refused (message : Bytes) (hmessage : message ∈ refusals) :
      OutcomeCase s none { server := s, calls := [], errorJson := some (errorObject message) }
  | failed (candidate : RuntimeConfigState) (outcome : LoadOutcome H)
      (hafter : outcome.server.runtimeLoaded = false)
      (herror : outcome.errorJson =
        some (errorObject (Api.statusMessage outcome.server.lastStatus))) :
      OutcomeCase s (some candidate) outcome
  | loaded (candidate : RuntimeConfigState) (outcome : LoadOutcome H)
      (hafter : outcome.server.runtimeLoaded = true) (herror : outcome.errorJson = none) :
      OutcomeCase s (some candidate) outcome

theorem loadFromRequest_outcome (s : DashboardServer H) (body : Bytes)
    (create : Api.Config → Option H × Api.Status) :
    OutcomeCase s (s.candidate body).toOption (s.loadFromRequest body create) := by
  cases hcandidate : s.candidate body with
  | error errorJson =>
      obtain ⟨message, hmessage, rfl⟩ := candidate_error hcandidate
      rw [loadFromRequest_error hcandidate]
      exact .refused message hmessage
  | ok candidate =>
      rw [loadFromRequest, hcandidate]
      dsimp only
      rcases create candidate.config with ⟨fresh, status⟩
      cases fresh with
      | none => exact .failed candidate _ rfl rfl
      | some handle =>
          by_cases hstatus : status = .ok
          · subst hstatus
            exact .loaded candidate _ rfl rfl
          · exact .failed candidate _ (by simp [runtimeLoaded, hstatus]) (if_pos hstatus)

theorem reloadCurrent_outcome (s : DashboardServer H) (create : Api.Config → Option H × Api.Status) :
    OutcomeCase s (s.requested .reload) (s.reloadCurrent create) := by
  unfold requested reloadCurrent
  by_cases hnone : s.state.modelId = [] ∧ s.state.modelPath = []
  · rw [if_pos hnone, if_pos hnone]
    exact .refused _ (by simp [refusals])
  · rw [if_neg hnone, if_neg hnone]
    exact s.loadFromRequest_outcome s.reloadBody create

theorem lifecycle_told (s : DashboardServer H) (request : LifecycleRequest)
    (create : Api.Config → Option H × Api.Status) : ∃ status view,
      (s.lifecycle request create).reply = .content status view.text ∧
        LifecycleTold s (s.lifecycle request create).server request status view := by
  cases request with
  | load body =>
      have hcase := s.loadFromRequest_outcome body create
      have hasked : s.requested (.load body) = (s.candidate body).toOption := rfl
      unfold lifecycle
      dsimp only
      generalize s.loadFromRequest body create = outcome at hcase ⊢
      generalize (s.candidate body).toOption = asked at hcase hasked
      cases hcase with
      | refused message hmessage =>
          exact ⟨400, .failed message, congrArg _ (errorObject_text message),
            .refused hasked rfl hmessage⟩
      | failed candidate outcome hafter herror =>
          rw [herror]
          exact ⟨400, _, congrArg _ (errorObject_text _), .failed (by simp [hasked]) hafter⟩
      | loaded candidate outcome hafter herror =>
          have hstatus : outcome.server.lastStatus = .ok := by
            simp only [runtimeLoaded, Bool.and_eq_true, decide_eq_true_iff] at hafter
            exact hafter.2
          rw [herror, hstatus]
          exact ⟨200, _, congrArg _ (loadedObject_text .ok), .loaded (by simp [hasked]) hafter⟩
  | reload =>
      have hcase := s.reloadCurrent_outcome create
      unfold lifecycle
      dsimp only
      generalize s.reloadCurrent create = outcome at hcase ⊢
      generalize hasked : s.requested .reload = asked at hcase
      cases hcase with
      | refused message hmessage =>
          exact ⟨409, .failed message, congrArg _ (errorObject_text message),
            .refused hasked rfl hmessage⟩
      | failed candidate outcome hafter herror =>
          rw [herror]
          exact ⟨409, _, congrArg _ (errorObject_text _), .failed (by simp [hasked]) hafter⟩
      | loaded candidate outcome hafter herror =>
          rw [herror]
          exact ⟨200, _, congrArg _ okObject_text, .reloaded (by simp [hasked]) hafter⟩
  | unload => exact ⟨200, _, congrArg _ okObject_text, .unloaded rfl⟩

end DashboardServer

end Lifecycle

theorem DashboardServer.reportFrom_self (report : Bytes) :
    reportFrom report report = Api.cString report := by
  unfold reportFrom Api.copyOut
  split
  · next h =>
      rw [h]
      rfl
  · rw [if_pos (Nat.succ_pos _), Nat.add_sub_cancel, List.take_length]
    exact cString_append_nul report

/-- What the reply of a route tells of the system before and behind the request. -/
inductive Told (s after : System) (input : HttpInput) : Route → Nat → View → Prop
  | health : Told s after input .health 200 (.health s.server.runtime.isSome)
  | version : Told s after input .version 200 .version
  | system : Told s after input .system 200
      (.system (MemoryObserver.observeSystemMemory input.meminfo))
  | models : Told s after input .models 200 (.models
      ((lines (registryReport s.world.registry s.server.state.registryPath)).filterMap modelRow))
  | runtime : Told s after input .runtime 200 (.runtime s.server.runtimeLoaded s.server.lastStatus
      (if s.server.runtimeLoaded then Api.getModelInfo s.server.runtime input.surroundings.info
        else none))
  | memory : Told s after input .memory 200 (.report
      (Api.cString ((s.server.runtime.map Runtime.memoryReport).getD [])))
  | usage (report : Int → Bytes) (hreport : report = fun now =>
      (s.server.runtime.map fun r => r.usageReport s.world.usage now).getD []) :
      Told s after input .usage 200 (.report (DashboardServer.reportFrom
        (report input.surroundings.sizedNow) (report input.surroundings.reportNow)))
  | lifecycle {route : Route} {request : LifecycleRequest}
      (hroute : route.clientRequest input.request.body = some (.lifecycle request))
      {status : Nat} {view : View} (h : LifecycleTold s.server after.server request status view) :
      Told s after input route status view
  | idle (h : s.server.runtime = none) (hafter : after = s) :
      Told s after input .reset 409 (.failed (text "runtime is not loaded"))
  | reset (h : s.server.runtime.isSome) (hafter : after.server.runtime.isSome) :
      Told s after input .reset 200 .done
  | oversized (h : input.request.body.length > kMaxRequestBody) (hafter : after = s) :
      Told s after input .generate 413 (.failed (text "request body too large"))
  | promptless (h : (parseJsonString input.request.body (text "prompt")).getD [] = [])
      (hafter : after = s) : Told s after input .generate 400
        (.failed (text "prompt must be a non-empty JSON string"))

namespace System

theorem step_lifecycle_server (s : System) (request : LifecycleRequest) (e : Surroundings) :
    (s.step (.lifecycle request, e)).1.server =
      (s.server.lifecycle request (DashboardServer.created s.world e.load)).server := by
  have hcase := s.server.lifecycle_case request (DashboardServer.created s.world e.load)
  change ((s.server.lifecycle request _).calls.foldl (perform e)
    { s with server := (s.server.lifecycle request _).server }).server = _
  generalize (s.server.lifecycle request _).server = server at hcase ⊢
  generalize (s.server.lifecycle request _).calls = calls at hcase ⊢
  cases hcase with
  | refused _ => rfl
  | unloaded _ =>
      rw [DashboardServer.unloadCurrent, perform_destroys]
  | created candidate h fresh status hcreate =>
      rw [DashboardServer.unloadCurrent, List.foldl_append, perform_destroys]
      rfl

theorem step_lifecycle_told (s : System) (input : HttpInput) {route : Route}
    {request : LifecycleRequest}
    (hroute : route.clientRequest input.request.body = some (.lifecycle request)) {status : Nat}
    {body : Bytes} (h : (s.step (.lifecycle request, input.surroundings)).2 = .content status body) :
    ∃ view : View, body = view.text ∧
      Told s (s.step (.lifecycle request, input.surroundings)).1 input route status view := by
  obtain ⟨status', view, hreply, htold⟩ :=
    s.server.lifecycle_told request (DashboardServer.created s.world input.surroundings.load)
  cases hreply.symm.trans h
  rw [← step_lifecycle_server] at htold
  exact ⟨view, rfl, .lifecycle hroute htold⟩

theorem step_reset_told (s : System) (input : HttpInput) {status : Nat} {body : Bytes}
    (h : (s.step (.reset, input.surroundings)).2 = .content status body) :
    ∃ view : View, body = view.text ∧
      Told s (s.step (.reset, input.surroundings)).1 input .reset status view := by
  change s.server.reset.reply = _ at h
  have hstate : (s.step (.reset, input.surroundings)).1 = s.server.reset.calls.foldl
    (perform input.surroundings) { s with server := s.server.reset.server } := rfl
  rw [hstate]
  unfold DashboardServer.reset at h ⊢
  cases hruntime : s.server.runtime with
  | none =>
      rw [hruntime] at h
      cases h
      exact ⟨_, errorObject_text _, .idle hruntime rfl⟩
  | some r =>
      rw [hruntime] at h
      cases h
      exact ⟨_, okObject_text, .reset (by rw [hruntime]; rfl) rfl⟩

theorem step_generate_told (s : System) (input : HttpInput) {status : Nat} {body : Bytes}
    (h : (s.step (.generate input.request.body, input.surroundings)).2 = .content status body) :
    ∃ view : View, body = view.text ∧
      Told s (s.step (.generate input.request.body, input.surroundings)).1 input .generate status
        view := by
  change (s.server.generate input.request.body _).reply = _ at h
  have hstate : (s.step (.generate input.request.body, input.surroundings)).1 =
    (s.server.generate input.request.body (s.answer input.surroundings
      input.request.body)).calls.foldl (perform input.surroundings) { s with
        server := (s.server.generate input.request.body (s.answer input.surroundings
          input.request.body)).server } := rfl
  rw [hstate]
  unfold DashboardServer.generate at h ⊢
  split at h
  · next hlarge =>
      cases h
      rw [if_pos hlarge]
      exact ⟨_, errorObject_text _, .oversized hlarge rfl⟩
  · next hsmall =>
      rw [if_neg hsmall]
      split at h
      · next hprompt =>
          cases h
          exact ⟨_, errorObject_text _, .promptless (by rw [hprompt]; rfl) rfl⟩
      · next hprompt =>
          cases h
          exact ⟨_, errorObject_text _, .promptless (by rw [hprompt]; rfl) rfl⟩
      · split at h <;> cases h

theorem step_told (s : System) (input : HttpInput) {route : Route} {request : ClientRequest}
    (hroute : route.clientRequest input.request.body = some request) {status : Nat} {body : Bytes}
    (h : (s.step (request, input.surroundings)).2 = .content status body) :
    ∃ view : View, body = view.text ∧
      Told s (s.step (request, input.surroundings)).1 input route status view := by
  cases route with
  | page | version | system => cases hroute
  | load | unload | reload =>
      cases hroute
      exact s.step_lifecycle_told input rfl h
  | health =>
      cases hroute
      cases h
      exact ⟨_, healthJson_text s.server, .health⟩
  | runtime =>
      cases hroute
      cases h
      exact ⟨_, runtimeJson_text s.server _, .runtime⟩
  | memory =>
      cases hroute
      cases h
      refine ⟨_, ?_, .memory⟩
      rw [← reportJson_text]
      cases s.server.runtime with
      | none => rfl
      | some r => exact congrArg _ (DashboardServer.reportFrom_self _)
  | usage =>
      cases hroute
      cases h
      refine ⟨_, ?_, .usage _ rfl⟩
      rw [← reportJson_text]
      cases s.server.runtime with
      | none => rfl
      | some r => rfl
  | models =>
      cases hroute
      cases h
      exact ⟨_, modelsJson_text _, .models⟩
  | reset =>
      cases hroute
      exact s.step_reset_told input h
  | generate =>
      cases hroute
      exact s.step_generate_told input h

theorem serveRoute_told {dispatch : Dispatch L} (s : System) (input : HttpInput) {status : Nat}
    {body : Bytes} (h : (s.serveRoute dispatch input).2.content? = some (status, body)) :
    ∃ route, dispatch input.request = .inr route ∧ ∃ view : View, body = view.text ∧
      Told s (s.serveRoute dispatch input).1 input route status view := by
  unfold serveRoute at h ⊢
  cases hroute : dispatch input.request with
  | inl reply =>
      rw [hroute] at h
      cases h
  | inr route =>
      rw [hroute] at h
      refine ⟨route, rfl, ?_⟩
      dsimp only at h ⊢
      cases hclient : route.clientRequest input.request.body with
      | some request =>
          rw [hclient] at h
          have hreply : (s.step (request, input.surroundings)).2 = .content status body := by
            dsimp only at h
            generalize (s.step (request, input.surroundings)).2 = reply at h
            cases reply with
            | content status' body' =>
                cases h
                rfl
            | stream _ | closed => cases h
          exact s.step_told input hclient hreply
      | none =>
          rw [hclient] at h
          cases route with
          | version =>
              cases h
              exact ⟨_, versionJson_text, .version⟩
          | system =>
              cases h
              exact ⟨_, systemJson_text _, .system⟩
          | page => cases h
          | _ => cases hclient

end System

/-- What an HTTP reply tells: that a token is needed, or what the route of the request tells. -/
inductive HttpTold (dispatch : Dispatch L) (token : Bytes) (s after : System) (input : HttpInput) :
    Nat → View → Prop
  | unauthorized (h : ¬input.request.passes token = true) :
      HttpTold dispatch token s after input 401 (.failed (text "unauthorized"))
  | routed (hpasses : input.request.passes token = true) {route : Route}
      (hroute : dispatch input.request = .inr route) {status : Nat} {view : View}
      (h : Told s after input route status view) :
      HttpTold dispatch token s after input status view

theorem unauthorized_text :
    text "\x7b\"error\":\"unauthorized\"\x7d" = (View.failed (text "unauthorized")).text := by
  rw [← errorObject_text]
  decide

theorem http_told {dispatch : Dispatch L} (token : Bytes) (s : System) (input : HttpInput)
    {status : Nat} {body : Bytes}
    (h : (System.http dispatch token s input).2.content? = some (status, body)) :
    ∃ view : View, body = view.text ∧
      HttpTold dispatch token s (System.http dispatch token s input).1 input status view := by
  unfold System.http at h ⊢
  by_cases hpasses : input.request.passes token = true
  · rw [if_pos hpasses] at h ⊢
    obtain ⟨route, hroute, view, hbody, htold⟩ := s.serveRoute_told input h
    exact ⟨view, hbody, .routed hpasses hroute htold⟩
  · rw [if_neg hpasses] at h
    cases h
    exact ⟨_, unauthorized_text, .unauthorized hpasses⟩

/-- A reply with a JSON body is a document that says one thing, and that is so: that a token is needed, or
what the route of the request tells of the system. -/
theorem replies_told (dispatch : Dispatch L) (token : Bytes) (s : System) (input : HttpInput)
    {status : Nat} {body : Bytes}
    (h : (System.http dispatch token s input).2.content? = some (status, body)) :
    ∃ view : View, (∀ view' : View, parse body = some view'.document ↔ view' = view) ∧
      HttpTold dispatch token s (System.http dispatch token s input).1 input status view := by
  obtain ⟨view, rfl, htold⟩ := http_told token s input h
  refine ⟨view, fun view' => ?_, htold⟩
  rw [view.parse_view, Option.some.injEq, View.document_injective.eq_iff, eq_comm]

/-- A server that holds nothing is asked for its health. -/
def healthInput : HttpInput where
  request := {
    method := text "GET", path := text "/api/health", authorization := text "Bearer t", body := [] }
  surroundings := System.sampleSurroundings
  meminfo := none

theorem replies_told_health :
    let s := System.start [] Runtime.sampleWorld
    ∃ view : View,
      (∀ view' : View, parse (text "\x7b\"status\":\"ok\",\"loaded\":false\x7d") =
        some view'.document ↔ view' = view) ∧
      HttpTold System.sampleDispatch (text "t") s
        (System.http System.sampleDispatch (text "t") s healthInput).1 healthInput 200 view := by
  intro s
  exact replies_told System.sampleDispatch (text "t") s healthInput (by decide +kernel)

end Dashboard

end EdgeMind
