import EdgeMind.Api.EdgeMindApi
import EdgeMind.Dashboard.Models

/-!
# The dashboard server

The handlers of the runtime routes, each atomic under the operation mutex. The handle of the runtime
is opaque: a handler returns the calls it made to the C interface with it, and takes what these
calls answered.
-/

namespace EdgeMind

open Framework

namespace Dashboard

def kMaxRequestBody : Nat := 16 * 1024

/-- What stands behind the colon that follows the key, without the white space before it. -/
def memberText (body key : Bytes) : Option Bytes := do
  let needle := text "\"" ++ key ++ text "\""
  let keyPos ← find needle body 0
  let p ← find (text ":") body (keyPos + needle.length)
  return (body.drop (p + 1)).dropWhile isSpace

def unescape (e : UInt8) : Option UInt8 :=
  if e = 34 then some 34
  else if e = 92 then some 92
  else if e = 47 then some 47
  else if e = 98 then some 8
  else if e = 102 then some 12
  else if e = 110 then some 10
  else if e = 114 then some 13
  else if e = 116 then some 9
  else none

/-- The loop over the characters of a string behind its opening quote; the length is looked at only
behind an escape. -/
def parseStringBody : Bytes → Bytes → Option Bytes
  | [], _ => none
  | c :: rest, value =>
      if c = 34 then some value
      else if c ≠ 92 then parseStringBody rest (value ++ [c])
      else
        match rest with
        | [] => none
        | e :: rest =>
            match unescape e with
            | none => none
            | some u =>
                if (value ++ [u]).length > kMaxRequestBody then none
                else parseStringBody rest (value ++ [u])

def parseJsonString (body key : Bytes) : Option Bytes :=
  match memberText body key with
  | some (34 :: rest) => parseStringBody rest []
  | _ => none

def parseJsonInt (body key : Bytes) : Option Int := do
  let begin ← memberText body key
  guard (begin ≠ [])
  let conversion := strtoll begin
  guard ¬(conversion.rest = begin ∨ conversion.erange = true)
  guard ¬(conversion.value < 0 ∨ conversion.value > 2 ^ 31 - 1)
  return conversion.value

structure RuntimeConfigState where
  modelPath : Bytes := []
  modelId : Bytes := []
  expectedChecksum : Bytes := []
  registryPath : Bytes := []
  usageStatePath : Bytes := []
  contextSize : Int32 := 1024
  threads : Int32 := 4
  temperature : CFloat := ({} : RuntimeConfig).temperature
  topP : CFloat := ({} : RuntimeConfig).topP
  topK : Int32 := 40
  maxTokens : Int32 := 256
  memoryBudgetMb : Int64 := 3000
  safetyReserveMb : Int64 := 300
  sessionTimeLimitSeconds : Int64 := 0
  dailyMessageLimit : Int64 := 0
  dailyTokenLimit : Int64 := 0
  resetPeriodSeconds : Int64 := 86400
deriving DecidableEq

/-- The configuration that is handed to the C interface. -/
def RuntimeConfigState.config (candidate : RuntimeConfigState) : Api.Config where
  modelId := if candidate.modelId = [] then none else some candidate.modelId
  modelPath := if candidate.modelPath = [] then none else some candidate.modelPath
  contextSize := candidate.contextSize
  threads := candidate.threads
  temperature := candidate.temperature
  topP := candidate.topP
  topK := candidate.topK
  maxTokens := candidate.maxTokens
  memoryBudgetMb := candidate.memoryBudgetMb
  safetyReserveMb := candidate.safetyReserveMb
  sessionTimeLimitSeconds := candidate.sessionTimeLimitSeconds
  dailyMessageLimit := candidate.dailyMessageLimit
  dailyTokenLimit := candidate.dailyTokenLimit
  resetPeriodSeconds := candidate.resetPeriodSeconds
  usageStatePath := some candidate.usageStatePath
  expectedModelChecksumSha256 :=
    if candidate.expectedChecksum = [] then none else some candidate.expectedChecksum
  modelRegistryPath := some candidate.registryPath

/-- `runtime` is the handle that is held, if any. -/
structure DashboardServer (H : Type) where
  state : RuntimeConfigState
  runtime : Option H := none
  lastStatus : Api.Status := .ok

/-- A call of the C interface, with the handle it returns or is made on, if there is one. -/
inductive ApiCall (H : Type)
  | create (config : Api.Config) (handle : Option H) (status : Api.Status)
  | destroy (handle : H)
  | reset (handle : H)
  | generate (handle : H) (prompt : Bytes)
  | getModelInfo (handle : H)
  | getMemoryReport (handle : H)
  | getUsageReport (handle : H)
  | listModels (registryPath : Bytes)

/-- What is sent back: a status with a body, or the events of a stream. -/
inductive Reply
  | content (status : Nat) (body : Bytes)
  | stream (events : List Bytes)
  | closed
deriving DecidableEq

structure HandlerResult (H : Type) where
  server : DashboardServer H
  calls : List (ApiCall H)
  reply : Reply

def jsonBool (b : Bool) : Bytes := if b then text "true" else text "false"

def errorObject (message : Bytes) : Bytes :=
  text "\x7b\"error\":" ++ jsonString message ++ text "\x7d"

def okObject : Bytes := text "\x7b\"ok\":true\x7d"

namespace DashboardServer

variable {H : Type}

/-- A server that starts; the usage state is kept alongside the registry. -/
def start (modelRegistryPath : Bytes) : DashboardServer H :=
  let registryPath :=
    if modelRegistryPath = [] then text ".syj_edgemind_model_registry" else modelRegistryPath
  { state := { registryPath, usageStatePath := registryPath ++ text ".usage_state" } }

def unloadCurrent (s : DashboardServer H) : DashboardServer H × List (ApiCall H) :=
  ({ s with runtime := none, lastStatus := .ok }, s.runtime.toList.map .destroy)

/-- What a load request asks for, or why it is refused. -/
def candidate (s : DashboardServer H) (body : Bytes) : Except Bytes RuntimeConfigState :=
  if body.length > kMaxRequestBody then .error (errorObject (text "request body too large"))
  else
    let modelId := (parseJsonString body (text "model_id")).getD []
    let modelPath := (parseJsonString body (text "model_path")).getD []
    if modelId ≠ [] ↔ modelPath ≠ [] then
      .error (errorObject (text "provide exactly one of model_id or model_path"))
    else
      .ok { s.state with
        modelId
        modelPath
        contextSize := ((parseJsonInt body (text "context_size")).map Int32.ofInt).getD
          s.state.contextSize
        threads := ((parseJsonInt body (text "threads")).map Int32.ofInt).getD s.state.threads }

structure LoadOutcome (H : Type) where
  server : DashboardServer H
  calls : List (ApiCall H)
  errorJson : Option Bytes

/-- The handle that was held is destroyed before the next one is created. -/
def loadFromRequest (s : DashboardServer H) (body : Bytes)
    (create : Api.Config → Option H × Api.Status) : LoadOutcome H :=
  match s.candidate body with
  | .error errorJson => { server := s, calls := [], errorJson := some errorJson }
  | .ok candidate =>
      let config := candidate.config
      let (unloaded, destroyed) := s.unloadCurrent
      let (fresh, status) := create config
      let calls := destroyed ++ [.create config fresh status]
      match fresh with
      | none => {
          server := { unloaded with lastStatus := status }, calls
          errorJson := some (errorObject (Api.statusMessage status)) }
      | some handle => {
          server := { state := candidate, runtime := some handle, lastStatus := status }, calls
          errorJson :=
            if status ≠ .ok then some (errorObject (Api.statusMessage status)) else none }

/-- The body of the load request that a reload makes up. -/
def reloadBody (s : DashboardServer H) : Bytes :=
  text "\x7b\"" ++ (if s.state.modelId = [] then text "model_path" else text "model_id") ++
    text "\":" ++ jsonString (if s.state.modelId = [] then s.state.modelPath else s.state.modelId) ++
    text "\x7d"

def reloadCurrent (s : DashboardServer H) (create : Api.Config → Option H × Api.Status) :
    LoadOutcome H :=
  if s.state.modelId = [] ∧ s.state.modelPath = [] then {
    server := s, calls := []
    errorJson := some (errorObject (text "no previous model configuration to reload")) }
  else s.loadFromRequest s.reloadBody create

def healthLoaded (s : DashboardServer H) : Bool := s.runtime.isSome

def healthJson (s : DashboardServer H) : Bytes :=
  text "\x7b\"status\":\"ok\",\"loaded\":" ++ jsonBool s.healthLoaded ++ text "\x7d"

def runtimeLoaded (s : DashboardServer H) : Bool := s.runtime.isSome && s.lastStatus = .ok

def modelInfoObject (info : InferenceEngine.ModelInfo) : Bytes :=
  text ",\"model\":\x7b\"description\":" ++ jsonString info.description ++
    text ",\"n_params\":" ++ decimal info.nParams.toNat ++
    text ",\"model_size_bytes\":" ++ decimal info.modelSizeBytes.toNat ++
    text ",\"n_ctx_train\":" ++ intDecimal info.nCtxTrain.toInt ++
    text ",\"n_ctx\":" ++ intDecimal info.nCtx.toInt ++
    text ",\"threads\":" ++ intDecimal info.nThreads.toInt ++ text "\x7d"

/-- `info` is what the C interface tells of the model, unless it refuses. -/
def runtimeJson (s : DashboardServer H) (info : Option InferenceEngine.ModelInfo) : Bytes :=
  text "\x7b\"loaded\":" ++ jsonBool s.runtimeLoaded ++ text ",\"last_status\":" ++
    jsonString (Api.statusMessage s.lastStatus) ++
    (if s.runtimeLoaded then (info.map modelInfoObject).getD [] else []) ++ text "\x7d"

/-- A report as it is asked for twice, for its size and for its text. -/
def reportFrom (sized report : Bytes) : Bytes :=
  if sized = [] then [] else Api.cString (Api.copyOut report (sized.length + 1))

def reportCalls (sized : Bytes) : Nat := if sized = [] then 1 else 2

def reportJson (report : Bytes) : Bytes :=
  text "\x7b\"report\":" ++ jsonString report ++ text "\x7d"

/-- The listing of the registry as it is asked for twice: its size, and what is then written. -/
def listingFrom (n : Nat) (written : Bytes) : Bytes := if n = 0 then [] else Api.cString written

def listingCalls (n : Nat) : Nat := if n = 0 then 1 else 2

def modelsJson (report : Bytes) : Bytes :=
  text "\x7b\"models\":" ++ modelsAsJson report ++ text "\x7d"

/-- A call of the token callback: whether the sink is writable before and behind the event. -/
structure TokenCall where
  piece : Bytes
  writableBefore : Bool
  writableAfter : Bool

def tokenEvent (piece : Bytes) : Bytes :=
  text "data: \x7b\"token\":" ++ jsonString (Api.cString piece) ++ text "\x7d\n\n"

def doneEvent (status : Bytes) : Bytes :=
  text "data: \x7b\"done\":true,\"status\":" ++ jsonString status ++ text "\x7d\n\n"

/-- The events of the callback and its `writable` flag; it is not called again once it answers 0. -/
def tokenEvents : List TokenCall → List Bytes × Bool
  | [] => ([], true)
  | call :: calls =>
      if ¬call.writableBefore then ([], false)
      else if call.writableAfter then
        (tokenEvent call.piece :: (tokenEvents calls).1, (tokenEvents calls).2)
      else ([tokenEvent call.piece], true)

structure GenerateAnswer where
  calls : List TokenCall
  status : Api.Status
  writableAtEnd : Bool

def generateEvents (answer : GenerateAnswer) : List Bytes :=
  let (events, writable) := tokenEvents answer.calls
  if writable && answer.writableAtEnd then
    events ++ [doneEvent (Api.statusMessage answer.status)]
  else events

def generate (s : DashboardServer H) (body : Bytes) (answer : GenerateAnswer) : HandlerResult H :=
  if body.length > kMaxRequestBody then
    { server := s, calls := []
      reply := .content 413 (errorObject (text "request body too large")) }
  else
    match parseJsonString body (text "prompt") with
    | none | some [] => {
        server := s, calls := []
        reply := .content 400 (errorObject (text "prompt must be a non-empty JSON string")) }
    | some prompt =>
        match s.runtime with
        | none => {
            server := s, calls := []
            reply := .stream [doneEvent (text "Runtime is not loaded")] }
        | some handle => {
            server := s, calls := [.generate handle prompt]
            reply := .stream (generateEvents answer) }

end DashboardServer

/-- The requests that change which runtime is held. -/
inductive LifecycleRequest
  | load (body : Bytes)
  | reload
  | unload

/-- A request with what the C interface answers, or the end of the server. The routes for the version and for
the memory of the system ask neither the server nor a runtime. -/
inductive Request (H : Type)
  | lifecycle (request : LifecycleRequest) (create : Api.Config → Option H × Api.Status)
  | reset
  | generate (body : Bytes) (answer : DashboardServer.GenerateAnswer)
  | health
  | runtime (info : Option InferenceEngine.ModelInfo)
  | memory (sized report : Bytes)
  | usage (sized report : Bytes)
  | models (n : Nat) (written : Bytes)
  | stop

namespace DashboardServer

variable {H : Type}

def lifecycle (s : DashboardServer H) (request : LifecycleRequest)
    (create : Api.Config → Option H × Api.Status) : HandlerResult H :=
  match request with
  | .load body =>
      let outcome := s.loadFromRequest body create
      { server := outcome.server, calls := outcome.calls
        reply := match outcome.errorJson with
          | some error => .content 400 error
          | none => .content 200 (text "\x7b\"ok\":true,\"status\":\"" ++
              jsonEscape (Api.statusMessage outcome.server.lastStatus) ++ text "\"\x7d") }
  | .reload =>
      let outcome := s.reloadCurrent create
      { server := outcome.server, calls := outcome.calls
        reply := match outcome.errorJson with
          | some error => .content 409 error
          | none => .content 200 okObject }
  | .unload =>
      { server := s.unloadCurrent.1, calls := s.unloadCurrent.2, reply := .content 200 okObject }

def reset (s : DashboardServer H) : HandlerResult H :=
  match s.runtime with
  | none => {
      server := s, calls := []
      reply := .content 409 (errorObject (text "runtime is not loaded")) }
  | some handle => { server := s, calls := [.reset handle], reply := .content 200 okObject }

def handle (s : DashboardServer H) : Request H → HandlerResult H
  | .lifecycle request create => s.lifecycle request create
  | .reset => s.reset
  | .generate body answer => s.generate body answer
  | .health => { server := s, calls := [], reply := .content 200 s.healthJson }
  | .runtime info =>
      { server := s
        calls := if s.runtimeLoaded then s.runtime.toList.map .getModelInfo else []
        reply := .content 200 (s.runtimeJson info) }
  | .memory sized report =>
      { server := s
        calls := s.runtime.toList.flatMap fun handle =>
          List.replicate (reportCalls sized) (.getMemoryReport handle)
        reply := .content 200 (reportJson (if s.runtime.isSome then reportFrom sized report else [])) }
  | .usage sized report =>
      { server := s
        calls := s.runtime.toList.flatMap fun handle =>
          List.replicate (reportCalls sized) (.getUsageReport handle)
        reply := .content 200 (reportJson (if s.runtime.isSome then reportFrom sized report else [])) }
  | .models n written =>
      { server := s
        calls := List.replicate (listingCalls n) (.listModels s.state.registryPath)
        reply := .content 200 (modelsJson (listingFrom n written)) }
  | .stop => { server := s.unloadCurrent.1, calls := s.unloadCurrent.2, reply := .closed }

/-- The configuration that a request asks a runtime for, unless it is refused. -/
def requested (s : DashboardServer H) : LifecycleRequest → Option RuntimeConfigState
  | .load body => (s.candidate body).toOption
  | .reload =>
      if s.state.modelId = [] ∧ s.state.modelPath = [] then none
      else (s.candidate s.reloadBody).toOption
  | .unload => none

inductive LifecycleCase (s : DashboardServer H) (request : LifecycleRequest)
    (create : Api.Config → Option H × Api.Status) : DashboardServer H → List (ApiCall H) → Prop
  | refused (h : s.requested request = none) : LifecycleCase s request create s []
  | unloaded (h : request = .unload) :
      LifecycleCase s request create s.unloadCurrent.1 s.unloadCurrent.2
  | created (candidate : RuntimeConfigState) (h : s.requested request = some candidate)
      (fresh : Option H) (status : Api.Status)
      (hcreate : create candidate.config = (fresh, status)) :
      LifecycleCase s request create
        { state := if fresh.isSome then candidate else s.state, runtime := fresh, lastStatus := status }
        (s.unloadCurrent.2 ++ [.create candidate.config fresh status])

theorem loadFromRequest_error {s : DashboardServer H} {body errorJson : Bytes}
    (h : s.candidate body = .error errorJson) (create : Api.Config → Option H × Api.Status) :
    s.loadFromRequest body create = { server := s, calls := [], errorJson := some errorJson } := by
  rw [loadFromRequest, h]

theorem loadFromRequest_ok {s : DashboardServer H} {body : Bytes} {candidate : RuntimeConfigState}
    (h : s.candidate body = .ok candidate) {create : Api.Config → Option H × Api.Status}
    {fresh : Option H} {status : Api.Status} (hcreate : create candidate.config = (fresh, status)) :
    (s.loadFromRequest body create).server = {
        state := if fresh.isSome then candidate else s.state
        runtime := fresh
        lastStatus := status } ∧
      (s.loadFromRequest body create).calls =
        s.unloadCurrent.2 ++ [.create candidate.config fresh status] := by
  rw [loadFromRequest, h]
  dsimp only
  rw [hcreate]
  cases fresh with
  | none => exact ⟨rfl, rfl⟩
  | some handle => exact ⟨rfl, rfl⟩

theorem lifecycle_case (s : DashboardServer H) (request : LifecycleRequest)
    (create : Api.Config → Option H × Api.Status) :
    LifecycleCase s request create (s.lifecycle request create).server
      (s.lifecycle request create).calls := by
  have hload (body : Bytes) (hrequested : s.requested request = (s.candidate body).toOption) :
      LifecycleCase s request create (s.loadFromRequest body create).server
        (s.loadFromRequest body create).calls := by
    cases hcandidate : s.candidate body with
    | error errorJson =>
        rw [hcandidate] at hrequested
        rw [loadFromRequest_error hcandidate]
        exact .refused hrequested
    | ok candidate =>
        rw [hcandidate] at hrequested
        obtain ⟨hserver, hcalls⟩ :=
          loadFromRequest_ok hcandidate (Prod.eta (create candidate.config)).symm
        rw [hserver, hcalls]
        exact .created candidate hrequested _ _ (Prod.eta _).symm
  cases request with
  | load body => exact hload body rfl
  | reload =>
      change LifecycleCase s .reload create (s.reloadCurrent create).server
        (s.reloadCurrent create).calls
      rw [reloadCurrent]
      by_cases hnone : s.state.modelId = [] ∧ s.state.modelPath = []
      · rw [if_pos hnone]
        exact .refused (if_pos hnone)
      · rw [if_neg hnone]
        exact hload s.reloadBody (if_neg hnone)
  | unload => exact .unloaded rfl

theorem lifecycle_created {s : DashboardServer H} {request : LifecycleRequest}
    {candidate : RuntimeConfigState} (h : s.requested request = some candidate)
    (create : Api.Config → Option H × Api.Status) :
    (s.lifecycle request create).server = {
      state := if (create candidate.config).1.isSome then candidate else s.state
      runtime := (create candidate.config).1
      lastStatus := (create candidate.config).2 } := by
  have hcase := s.lifecycle_case request create
  generalize (s.lifecycle request create).server = server at hcase ⊢
  generalize (s.lifecycle request create).calls = calls at hcase
  cases hcase with
  | refused hnone => cases h.symm.trans hnone
  | unloaded hunload =>
      subst hunload
      cases h
  | created candidate' h' fresh status hcreate =>
      obtain rfl := Option.some.inj (h.symm.trans h')
      rw [hcreate]

theorem lifecycle_idle {s : DashboardServer H} {request : LifecycleRequest}
    (h : s.requested request = none) (create : Api.Config → Option H × Api.Status) :
    (s.lifecycle request create).server = s ∨
      (s.lifecycle request create).server = s.unloadCurrent.1 := by
  have hcase := s.lifecycle_case request create
  generalize (s.lifecycle request create).server = server at hcase ⊢
  generalize (s.lifecycle request create).calls = calls at hcase
  cases hcase with
  | refused _ => exact .inl rfl
  | unloaded _ => exact .inr rfl
  | created candidate h' fresh status hcreate => cases h.symm.trans h'

end DashboardServer

end Dashboard

end EdgeMind
