import EdgeMind.Dashboard.Accounting
import EdgeMind.Dashboard.SystemReport

/-!
# The routes of the dashboard

A request reaches a route only with the bearer token of the server, except for the static page. A request
without it changes nothing and is told nothing.
-/

namespace EdgeMind

open Framework

namespace Dashboard

/-- `generate_dashboard_token`: the digits of what is read from the entropy source, unless that falls
short. -/
def generateDashboardToken (entropy : Bytes) : Option Bytes :=
  if entropy.length = 32 then some (entropy.flatMap (hexByte (text "0123456789abcdef"))) else none

/-- The header is compared with the expected one in full, wherever they differ first. -/
def authenticate (token authorization : Bytes) : Bool :=
  let expected := text "Bearer " ++ token
  if token = [] ∨ authorization.length ≠ expected.length then false
  else
    let diff := (authorization.zip expected).foldl (fun diff pair => diff ||| (pair.1 ^^^ pair.2)) 0
    diff = 0

inductive Method
  | get
  | post
deriving DecidableEq

inductive Route
  | page
  | health
  | version
  | system
  | models
  | runtime
  | memory
  | usage
  | load
  | unload
  | reload
  | reset
  | generate
deriving DecidableEq

/-- The routes in the order of their installation. -/
def routes : List (Method × Bytes × Route) := [
  (.get, text "/", .page),
  (.get, text "/index.html", .page),
  (.get, text "/api/health", .health),
  (.get, text "/api/version", .version),
  (.get, text "/api/system", .system),
  (.get, text "/api/models", .models),
  (.get, text "/api/runtime", .runtime),
  (.get, text "/api/memory", .memory),
  (.get, text "/api/usage", .usage),
  (.post, text "/api/runtime/load", .load),
  (.post, text "/api/runtime/unload", .unload),
  (.post, text "/api/runtime/reload", .reload),
  (.post, text "/api/runtime/reset", .reset),
  (.post, text "/api/generate", .generate)]

structure HttpRequest where
  method : Bytes
  path : Bytes
  /-- The value of the header, empty without one. -/
  authorization : Bytes
  body : Bytes

/-- What the HTTP library does with a request that the handler before all routes has let pass: it answers
by itself, as it does for a path without a route or a body above its limit, or it calls the handler of a
route. -/
abbrev Dispatch (L : Type) := HttpRequest → L ⊕ Route

variable {L : Type}

/-- On the path of an installed route no handler is called but one that is installed there. -/
def OwnRoutes (dispatch : Dispatch L) : Prop :=
  ∀ request route, dispatch request = .inr route →
    request.path ∈ routes.map (fun installed => installed.2.1) →
      ∃ method, (method, request.path, route) ∈ routes

/-- What is sent back; the answers of the library itself are its own. -/
inductive HttpReply (L : Type)
  | unauthorized
  | page
  | json (body : Bytes)
  | handled (reply : Reply)
  | library (reply : L)
deriving DecidableEq

/-- The status and the body of a reply with a JSON document. -/
def HttpReply.content? : HttpReply L → Option (Nat × Bytes)
  | .unauthorized => some (401, text "\x7b\"error\":\"unauthorized\"\x7d")
  | .json body => some (200, body)
  | .handled (.content status body) => some (status, body)
  | .handled (.stream _) | .handled .closed | .page | .library _ => none

def versionJson : Bytes :=
  text "\x7b\"release\":" ++ jsonString (text "v0.9.0-alpha") ++ text ",\"abi_version\":" ++
    decimal 2 ++ text "\x7d"

/-- The request that a route hands to the server; the other routes do not ask it. -/
def Route.clientRequest (body : Bytes) : Route → Option ClientRequest
  | .health => some .health
  | .runtime => some .runtime
  | .memory => some .memory
  | .usage => some .usage
  | .models => some .models
  | .load => some (.lifecycle (.load body))
  | .unload => some (.lifecycle .unload)
  | .reload => some (.lifecycle .reload)
  | .reset => some .reset
  | .generate => some (.generate body)
  | .page | .version | .system => none

/-- A request with its surroundings, and the report of the kernel on its memory, if it can be read. -/
structure HttpInput where
  request : HttpRequest
  surroundings : Surroundings
  meminfo : Option Bytes

namespace HttpRequest

/-- The static page needs no token. -/
def isPage (request : HttpRequest) : Bool :=
  request.path = text "/" || request.path = text "/index.html"

/-- The handler before all routes lets the request pass. -/
def passes (token : Bytes) (request : HttpRequest) : Bool :=
  request.isPage || authenticate token request.authorization

end HttpRequest

namespace System

/-- A request that has passed the handler before all routes. -/
def serveRoute (dispatch : Dispatch L) (s : System) (input : HttpInput) : System × HttpReply L :=
  match dispatch input.request with
  | .inl reply => (s, .library reply)
  | .inr route =>
      match route.clientRequest input.request.body with
      | some request =>
          let (after, reply) := s.step (request, input.surroundings)
          (after, .handled reply)
      | none =>
          (s, match route with
            | .version => .json versionJson
            | .system => .json (systemJson (MemoryObserver.observeSystemMemory input.meminfo))
            | _ => .page)

/-- A request as the library hands it to its handlers. -/
def http (dispatch : Dispatch L) (token : Bytes) (s : System) (input : HttpInput) :
    System × HttpReply L :=
  if input.request.passes token then s.serveRoute dispatch input else (s, .unauthorized)

end System

theorem foldl_or_eq_zero_iff (pairs : List (UInt8 × UInt8)) (diff : UInt8) :
    pairs.foldl (fun diff pair => diff ||| (pair.1 ^^^ pair.2)) diff = 0 ↔
      diff = 0 ∧ ∀ pair ∈ pairs, pair.1 = pair.2 := by
  induction pairs generalizing diff with
  | nil => simp
  | cons pair pairs ih =>
      rw [List.foldl_cons, ih, UInt8.or_eq_zero_iff, UInt8.xor_eq_zero_iff, List.forall_mem_cons,
        and_assoc]

theorem authenticate_iff (token authorization : Bytes) :
    authenticate token authorization = true ↔
      token ≠ [] ∧ authorization = text "Bearer " ++ token := by
  unfold authenticate
  dsimp only
  split
  · next hno =>
      constructor
      · intro h
        cases h
      · rintro ⟨hne, rfl⟩
        exact absurd hno (by simp [hne])
  · next hyes =>
      rw [not_or, not_not] at hyes
      rw [decide_eq_true_iff, foldl_or_eq_zero_iff, and_iff_right rfl, and_iff_right hyes.1,
        ← List.forall₂_eq_eq_eq, List.forall₂_iff_zip, and_iff_right hyes.2]
      simp

theorem page_route {dispatch : Dispatch L} (hdispatch : OwnRoutes dispatch) {request : HttpRequest}
    {route : Route} (h : request.isPage = true) (hroute : dispatch request = .inr route) :
    route = .page := by
  unfold HttpRequest.isPage at h
  rw [Bool.or_eq_true, decide_eq_true_iff, decide_eq_true_iff] at h
  have hinstalled : request.path ∈ routes.map (fun installed => installed.2.1) := by
    rcases h with h | h
    · rw [h]
      exact List.mem_cons_self
    · rw [h]
      exact List.mem_cons_of_mem _ List.mem_cons_self
  have hpages : routes.all (fun installed =>
      !(installed.2.1 = text "/" || installed.2.1 = text "/index.html") ||
        installed.2.2 = .page) = true := by decide
  obtain ⟨method, hmem⟩ := hdispatch request route hroute hinstalled
  have hpage := List.all_eq_true.mp hpages _ hmem
  rcases h with h | h <;> simpa [h] using hpage

namespace HttpInput

def Authenticated (token : Bytes) (input : HttpInput) : Prop :=
  token ≠ [] ∧ input.request.authorization = text "Bearer " ++ token

instance (token : Bytes) (input : HttpInput) : Decidable (input.Authenticated token) :=
  inferInstanceAs (Decidable (_ ∧ _))

/-- What anyone is told: the static page, what the library says of itself, or that a token is needed. -/
def publicReply (dispatch : Dispatch L) (input : HttpInput) : HttpReply L :=
  if input.request.isPage then
    match dispatch input.request with
    | .inl reply => .library reply
    | .inr _ => .page
  else .unauthorized

def client (dispatch : Dispatch L) (token : Bytes) (input : HttpInput) :
    Option (ClientRequest × Surroundings) :=
  if input.Authenticated token then
    match dispatch input.request with
    | .inl _ => none
    | .inr route => (route.clientRequest input.request.body).map fun request =>
        (request, input.surroundings)
  else none

end HttpInput

namespace System

variable {dispatch : Dispatch L} {token : Bytes} {input : HttpInput}

theorem serveRoute_page (hdispatch : OwnRoutes dispatch) (h : input.request.isPage = true) (s : System) :
    s.serveRoute dispatch input = (s, input.publicReply dispatch) := by
  unfold serveRoute HttpInput.publicReply
  rw [if_pos h]
  cases hroute : dispatch input.request with
  | inl reply => rfl
  | inr route =>
      obtain rfl := page_route hdispatch h hroute
      rfl

/-- Without the token of the server a request leaves everything as it is, and what it is told is told to
anyone. -/
theorem http_public (hdispatch : OwnRoutes dispatch) (h : ¬input.Authenticated token) (s : System) :
    http dispatch token s input = (s, input.publicReply dispatch) := by
  have hauthenticate : authenticate token input.request.authorization = false :=
    Bool.eq_false_iff.mpr ((authenticate_iff _ _).not.mpr h)
  unfold http HttpRequest.passes
  rw [hauthenticate, Bool.or_false]
  by_cases hpage : input.request.isPage = true
  · rw [if_pos hpage]
    exact serveRoute_page hdispatch hpage s
  · rw [if_neg hpage, HttpInput.publicReply, if_neg hpage]

theorem http_state (hdispatch : OwnRoutes dispatch) (s : System) (token : Bytes) (input : HttpInput) :
    (http dispatch token s input).1 = final step s (input.client dispatch token).toList := by
  by_cases h : input.Authenticated token
  · have hpasses : input.request.passes token = true := by
      unfold HttpRequest.passes
      rw [(authenticate_iff _ _).mpr h, Bool.or_true]
    unfold http HttpInput.client serveRoute
    rw [if_pos hpasses, if_pos h]
    cases dispatch input.request with
    | inl reply => rfl
    | inr route =>
        dsimp only
        cases route.clientRequest input.request.body with
        | none => rfl
        | some request => rfl
  · rw [http_public hdispatch h, HttpInput.client, if_neg h]
    rfl

theorem http_final (hdispatch : OwnRoutes dispatch) (s : System) (token : Bytes)
    (inputs : List HttpInput) :
    final (http dispatch token) s inputs =
      final step s (inputs.filterMap (HttpInput.client dispatch token)) := by
  induction inputs generalizing s with
  | nil => rfl
  | cons input inputs ih =>
      rw [final, ih, http_state hdispatch, ← final_append]
      cases hclient : input.client dispatch token <;> simp [hclient]

/-- Only requests with the token of the server do anything, and their replies are the same without the
others. A request without it is told what anyone is told, whatever the server is doing. -/
theorem http_noninterference (dispatch : Dispatch L) (hdispatch : OwnRoutes dispatch) (token : Bytes)
    (s : System) (inputs : List HttpInput) :
    let authenticated := inputs.filter fun input => input.Authenticated token
    final (http dispatch token) s inputs =
        final step s (authenticated.filterMap (HttpInput.client dispatch token)) ∧
      trace (http dispatch token) s authenticated =
        (trace (http dispatch token) s inputs).filter
          (fun entry => entry.input.Authenticated token) ∧
      ∀ entry ∈ trace (http dispatch token) s inputs, ¬entry.input.Authenticated token →
        entry.output = entry.input.publicReply dispatch := by
  intro authenticated
  have hstep (s : System) (input : HttpInput) (h : decide (input.Authenticated token) = false) :
      (http dispatch token s input).1 = s := by
    rw [http_public hdispatch (decide_eq_false_iff_not.mp h)]
  refine ⟨?_, trace_filter _ hstep s inputs, fun entry hentry h => ?_⟩
  · rw [← http_final hdispatch]
    exact (final_filter _ hstep s inputs).symm
  · rw [output_of_mem_trace entry hentry, http_public hdispatch h]

/-- The route that is installed for the path itself, or the status 404. -/
def sampleDispatch : Dispatch Nat := fun request =>
  match routes.find? fun installed => installed.2.1 = request.path with
  | some installed => .inr installed.2.2
  | none => .inl 404

theorem sampleDispatch_ownRoutes : OwnRoutes sampleDispatch := by
  intro request route h _
  unfold sampleDispatch at h
  split at h
  · next installed hfind =>
      cases h
      have hpath : installed.2.1 = request.path := by simpa using List.find?_some hfind
      rw [← hpath]
      exact ⟨installed.1, List.mem_of_find?_eq_some hfind⟩
  · cases h

/-- The page is asked for, and a model without the token. -/
def publicRequests : List HttpInput := [
  { request := { method := text "GET", path := text "/", authorization := [], body := [] }
    surroundings := sampleSurroundings
    meminfo := none },
  { request := {
      method := text "POST", path := text "/api/runtime/load", authorization := text "Bearer u"
      body := [] }
    surroundings := sampleSurroundings
    meminfo := none }]

theorem http_noninterference_public :
    let s := start [] Runtime.sampleWorld
    final (http sampleDispatch (text "t")) s publicRequests = s ∧
      ∀ entry ∈ trace (http sampleDispatch (text "t")) s publicRequests,
        ¬entry.input.Authenticated (text "t") →
          entry.output = entry.input.publicReply sampleDispatch := by
  intro s
  obtain ⟨hfinal, -, hpublic⟩ := http_noninterference sampleDispatch sampleDispatch_ownRoutes
    (text "t") s publicRequests
  refine ⟨hfinal.trans ?_, hpublic⟩
  have hnone : (publicRequests.filter fun input => input.Authenticated (text "t")).isEmpty = true := by
    decide
  rw [List.isEmpty_iff.mp hnone]
  rfl

end System

end Dashboard

end EdgeMind
