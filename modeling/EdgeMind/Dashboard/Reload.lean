import EdgeMind.Dashboard.Loaded
import EdgeMind.Dashboard.Ownership
import EdgeMind.Dashboard.RequestFields

/-!
# Reloading the remembered model

A reload writes the remembered string into a request body and has it read back. The writer numbers the
control characters that have no letter, and the reader refuses numbered characters, so the string comes
back exactly if it has none of them.
-/

namespace EdgeMind

open Framework Framework.Json

namespace Dashboard

def loadBody (key value : Bytes) : Bytes :=
  text "\x7b\"" ++ key ++ text "\":" ++ jsonString value ++ text "\x7d"

def modelKeys : List Bytes := [text "model_id", text "model_path"]

/-- Every control character of the string has a letter for its escape. -/
def Lettered (value : Bytes) : Prop :=
  ∀ c ∈ value, c < 32 → c = 8 ∨ c = 9 ∨ c = 10 ∨ c = 12 ∨ c = 13

instance (value : Bytes) : Decidable (Lettered value) :=
  inferInstanceAs (Decidable (∀ c ∈ value, _))

theorem lettered_iff (value : Bytes) :
    Lettered value ↔ ∀ c ∈ jsonCharacters value, c.isUnicode = false := by
  have hbyte (c : UInt8) : (c < 32 → c = 8 ∨ c = 9 ∨ c = 10 ∨ c = 12 ∨ c = 13) ↔
      (jsonCharacter c).isUnicode = false := by
    rw [← Bool.not_eq_true, jsonCharacter_unicode]
    tauto
  unfold Lettered jsonCharacters
  rw [List.forall_mem_map]
  exact forall₂_congr fun c _ => hbyte c

def loadObject (key value : Bytes) : Object :=
  .compact [.compact (jsonCharacters key) (.string (jsonCharacters value))]

theorem loadBody_eq {key : Bytes} (hkey : key ∈ modelKeys) (value : Bytes) :
    loadBody key value = (loadObject key value).text := by
  have hopen : text "\x7b\"" ++ key ++ text "\":" = 123 :: jsonString key ++ [58] := by
    revert key
    decide
  have hclose : text "\x7d" = [125] := rfl
  rw [loadBody, loadObject, Object.compact_text, Value.text, quoted_jsonCharacters,
    quoted_jsonCharacters, hopen, hclose]
  simp only [List.append_assoc, List.cons_append, List.nil_append]

theorem find_own {key : Bytes} (hkey : key ∈ modelKeys) (value : Bytes) :
    find (quotedKey key) (loadBody key value) 0 = some 1 := by
  have hfirst : ¬quotedKey key <:+: [123] ++ (quotedKey key).dropLast := by
    revert key
    decide
  have hne : quotedKey key ≠ [] := by
    revert key
    decide
  have hbody : loadBody key value =
      [] ++ ([123] ++ quotedKey key ++ (text ":" ++ jsonString value ++ text "\x7d")) := by
    have hopen : text "\x7b\"" ++ key ++ text "\":" = [123] ++ quotedKey key ++ text ":" := by
      revert key
      decide
    rw [loadBody, hopen]
    simp only [List.append_assoc, List.nil_append]
  rw [hbody]
  exact find_append [] _ hfirst hne

theorem parse_own {key : Bytes} (hkey : key ∈ modelKeys) (value : Bytes) :
    ∃ rest, parseJsonString (loadBody key value) key =
      parseStringBody (textOf (jsonCharacters value) ++ 34 :: rest) [] := by
  have hwritten : textOf (jsonCharacters key) = key := by
    revert key
    decide
  have hfound := find_own hkey value
  rw [loadBody_eq hkey] at hfound ⊢
  obtain ⟨rest, hmember, -⟩ :=
    @memberText_member (loadObject key value) [] [] _ key rfl hwritten hfound
  exact ⟨rest, parseJsonString_string hmember⟩

theorem parse_lettered {key : Bytes} (hkey : key ∈ modelKeys) {value : Bytes}
    (hlength : value.length ≤ kMaxRequestBody) (h : Lettered value) :
    parseJsonString (loadBody key value) key = some value := by
  obtain ⟨rest, hparse⟩ := parse_own hkey value
  rw [hparse, parseStringBody_decode ((lettered_iff value).mp h) (decode_jsonCharacters value) rest
    (by simpa using hlength), List.nil_append]

theorem parse_unlettered {key : Bytes} (hkey : key ∈ modelKeys) {value : Bytes}
    (h : ¬Lettered value) : parseJsonString (loadBody key value) key = none := by
  obtain ⟨rest, hparse⟩ := parse_own hkey value
  rw [lettered_iff] at h
  rw [hparse, parseStringBody_refuse (by simpa using h)]

def loadKeys : List Bytes := modelKeys ++ [text "context_size", text "threads"]

theorem memberText_other {key k : Bytes} (hkey : key ∈ modelKeys) (hk : k ∈ loadKeys) (hne : k ≠ key)
    (value : Bytes) : memberText (loadBody key value) k = none := by
  have hfronts : ∀ key ∈ modelKeys, ∀ k ∈ loadKeys, k ≠ key →
      ¬34 :: k ++ [34] <:+: text "\x7b\"" ++ key ++ text "\":\"" := by decide
  have hlasts : ∀ k ∈ loadKeys, (34 :: k).getLast? ≠ some 92 := by decide
  have hbody : loadBody key value = text "\x7b\"" ++ key ++ text "\":\"" ++
      (textOf (jsonCharacters value) ++ 34 :: text "\x7d") := by
    have hcolon : text "\":\"" = text "\":" ++ [34] := rfl
    have hquote : text "\"" = [34] := rfl
    rw [loadBody, textOf_jsonCharacters, hcolon, jsonString, hquote]
    simp only [List.append_assoc, List.cons_append, List.nil_append]
  cases hfind : find (quotedKey k) (loadBody key value) 0 with
  | none => exact memberText_none hfind
  | some pos =>
      have hquoted : quotedKey k = 34 :: k ++ [34] := rfl
      obtain ⟨before, after, hsplit, hpos, -⟩ := find_eq_some hfind (by rw [hquoted]; simp)
      rw [List.drop_zero] at hsplit
      have hend : after <:+ text "\x7d" :=
        quoted_end (hsplit.symm.trans hbody) (hfronts key hkey k hk hne) (hlasts k hk)
      have hcolon : ¬text ":" <:+: (loadBody key value).drop (pos + (quotedKey k).length) := by
        rw [hsplit, List.drop_left' (by rw [List.length_append]; omega)]
        intro hcontained
        have hmem := (hcontained.trans hend.isInfix).subset (show (58 : UInt8) ∈ text ":" by decide)
        exact absurd hmem (by decide)
      have hfind' : find (text "\"" ++ k ++ text "\"") (loadBody key value) 0 = some pos := hfind
      rw [memberText, hfind']
      exact congrArg (Option.bind · _) (find_eq_none hcolon (by decide))

theorem parseStringBody_length {body value s : Bytes} (h : parseStringBody body value = some s) :
    s.length ≤ value.length + body.length := by
  fun_induction parseStringBody body value with
  | case1 => cases h
  | case2 rest value =>
      cases h
      exact Nat.le_add_right _ _
  | case3 c rest value hquote hplain ih =>
      have hle := ih h
      rw [List.length_append, List.length_singleton] at hle
      rw [List.length_cons]
      omega
  | case4 | case5 | case6 => cases h
  | case7 c value hquote hplain e rest u hunescape hsize ih =>
      have hle := ih h
      rw [List.length_append, List.length_singleton] at hle
      simp only [List.length_cons]
      omega

theorem parseJsonString_length {body k s : Bytes} (h : parseJsonString body k = some s) :
    s.length ≤ body.length := by
  unfold parseJsonString at h
  split at h
  · next rest hmember =>
      have hbody := memberText_length hmember
      have hstring := parseStringBody_length h
      rw [List.length_cons] at hbody
      rw [List.length_nil] at hstring
      omega
  · cases h

/-- A string comes back of a field, and nothing of the other one, exactly if its control characters have
letters. -/
theorem loadBody_parsed_iff {key : Bytes} (hkey : key ∈ modelKeys) {value : Bytes}
    (hlength : value.length ≤ kMaxRequestBody) :
    (parseJsonString (loadBody key value) key = some value ∧
      ∀ other ∈ modelKeys, other ≠ key → parseJsonString (loadBody key value) other = none) ↔
        Lettered value := by
  constructor
  · intro h
    by_contra hlettered
    cases h.1.symm.trans (parse_unlettered hkey hlettered)
  · intro h
    refine ⟨parse_lettered hkey hlength h, fun other hother hne => ?_⟩
    rw [parseJsonString, memberText_other hkey (List.mem_append_left _ hother) hne]

theorem name_length (key value : Bytes) : value.length ≤ (loadBody key value).length := by
  have hplain : value.length ≤ (jsonEscape value).length := by
    induction value with
    | nil => exact Nat.le_refl _
    | cons c value ih =>
        obtain ⟨b, bs, hbyte, -⟩ := jsonEscapeByte_head c []
        rw [List.append_nil] at hbyte
        rw [jsonEscape, List.flatMap_cons, hbyte, List.length_append, List.length_cons,
          List.length_cons]
        change value.length + 1 ≤ bs.length + 1 + (jsonEscape value).length
        omega
  simp only [loadBody, jsonString, List.length_append]
  omega

namespace RuntimeConfigState

def modelKey (state : RuntimeConfigState) : Bytes :=
  if state.modelId = [] then text "model_path" else text "model_id"

def modelName (state : RuntimeConfigState) : Bytes :=
  if state.modelId = [] then state.modelPath else state.modelId

/-- The name of the model comes back of a request that is not too large. -/
def Repeatable (state : RuntimeConfigState) : Prop :=
  Lettered state.modelName ∧ (loadBody state.modelKey state.modelName).length ≤ kMaxRequestBody

instance (state : RuntimeConfigState) : Decidable state.Repeatable :=
  inferInstanceAs (Decidable (_ ∧ _))

def NamedOnce (state : RuntimeConfigState) : Prop := state.modelId = [] ∨ state.modelPath = []

theorem modelKey_mem (state : RuntimeConfigState) : state.modelKey ∈ modelKeys := by
  unfold modelKey
  split <;> decide

end RuntimeConfigState

namespace DashboardServer

variable {H : Type}

theorem candidate_named {s : DashboardServer H} {body : Bytes} {candidate : RuntimeConfigState}
    (h : s.candidate body = .ok candidate) :
    candidate.NamedOnce ∧ ¬(candidate.modelId = [] ∧ candidate.modelPath = []) := by
  unfold DashboardServer.candidate at h
  split at h
  · cases h
  · dsimp only at h
    split at h
    · cases h
    · next hone =>
        cases h
        unfold RuntimeConfigState.NamedOnce
        tauto

theorem reloadBody_eq (s : DashboardServer H) :
    s.reloadBody = loadBody s.state.modelKey s.state.modelName := rfl

theorem reload_names {state : RuntimeConfigState} (hnamed : state.NamedOnce)
    (hrepeatable : state.Repeatable) :
    (parseJsonString (loadBody state.modelKey state.modelName) (text "model_id")).getD [] =
      state.modelId ∧
    (parseJsonString (loadBody state.modelKey state.modelName) (text "model_path")).getD [] =
      state.modelPath := by
  obtain ⟨hlettered, hsize⟩ := hrepeatable
  have hlength := (name_length _ _).trans hsize
  have hkey := state.modelKey_mem
  obtain ⟨hown, hother⟩ := (loadBody_parsed_iff hkey hlength).mpr hlettered
  unfold RuntimeConfigState.modelKey RuntimeConfigState.modelName at hown hother ⊢
  by_cases hid : state.modelId = []
  · simp only [if_pos hid] at hown hother ⊢
    rw [hown, hother (text "model_id") (by decide) (by decide)]
    exact ⟨hid.symm, rfl⟩
  · simp only [if_neg hid] at hown hother ⊢
    rw [hown, hother (text "model_path") (by decide) (by decide)]
    exact ⟨rfl, (hnamed.resolve_left hid).symm⟩

theorem candidate_reload {s : DashboardServer H} (hnamed : s.state.NamedOnce)
    (hsome : ¬(s.state.modelId = [] ∧ s.state.modelPath = [])) (hrepeatable : s.state.Repeatable) :
    s.candidate s.reloadBody = .ok s.state := by
  obtain ⟨hid, hpath⟩ := reload_names hnamed hrepeatable
  have hkey := s.state.modelKey_mem
  have hinteger (k : Bytes) (hk : k ∈ loadKeys) (hne : k ∉ modelKeys) :
      parseJsonInt (loadBody s.state.modelKey s.state.modelName) k = none := by
    rw [parseJsonInt, memberText_other hkey hk fun heq => hne (heq ▸ hkey)]
    rfl
  have hone : ¬(s.state.modelId ≠ [] ↔ s.state.modelPath ≠ []) := by
    unfold RuntimeConfigState.NamedOnce at hnamed
    tauto
  unfold DashboardServer.candidate
  rw [reloadBody_eq, if_neg (Nat.not_lt.mpr hrepeatable.2)]
  dsimp only
  rw [hid, hpath, if_neg hone, hinteger (text "context_size") (by decide) (by decide),
    hinteger (text "threads") (by decide) (by decide)]
  rfl

theorem candidate_reload_error {s : DashboardServer H} (hrepeatable : ¬s.state.Repeatable) :
    ∃ errorJson, s.candidate s.reloadBody = .error errorJson := by
  have hkey := s.state.modelKey_mem
  unfold DashboardServer.candidate
  rw [reloadBody_eq]
  by_cases hsize : (loadBody s.state.modelKey s.state.modelName).length ≤ kMaxRequestBody
  · rw [if_neg (Nat.not_lt.mpr hsize)]
    have hnone : ∀ k ∈ modelKeys,
        parseJsonString (loadBody s.state.modelKey s.state.modelName) k = none := by
      intro k hk
      by_cases heq : k = s.state.modelKey
      · rw [heq]
        exact parse_unlettered hkey fun hlettered => hrepeatable ⟨hlettered, hsize⟩
      · rw [parseJsonString, memberText_other hkey (List.mem_append_left _ hk) heq]
    dsimp only
    rw [hnone (text "model_id") (by decide), hnone (text "model_path") (by decide)]
    exact ⟨_, rfl⟩
  · rw [if_pos (Nat.not_le.mp hsize)]
    exact ⟨_, rfl⟩

def loadOutcome (s : DashboardServer H) (request : LifecycleRequest)
    (create : Api.Config → Option H × Api.Status) : Option (LoadOutcome H) :=
  match request with
  | .load body => some (s.loadFromRequest body create)
  | .reload => some (s.reloadCurrent create)
  | .unload => none

theorem candidate_ok_iff {s : DashboardServer H} {body : Bytes} {candidate : RuntimeConfigState} :
    (s.candidate body).toOption = some candidate ↔ s.candidate body = .ok candidate := by
  cases s.candidate body with
  | error errorJson => simp [Except.toOption]
  | ok c => simp [Except.toOption]

theorem requested_reload_ok {s : DashboardServer H} {candidate : RuntimeConfigState}
    (h : s.requested .reload = some candidate) :
    ¬(s.state.modelId = [] ∧ s.state.modelPath = []) ∧ s.candidate s.reloadBody = .ok candidate := by
  unfold requested at h
  dsimp only at h
  split at h
  · cases h
  · next hsome => exact ⟨hsome, candidate_ok_iff.mp h⟩

theorem requested_ok {s : DashboardServer H} {request : LifecycleRequest}
    {candidate : RuntimeConfigState} (h : s.requested request = some candidate) :
    ∃ body, s.candidate body = .ok candidate ∧
      ∀ create, s.loadOutcome request create = some (s.loadFromRequest body create) := by
  cases request with
  | load body => exact ⟨body, candidate_ok_iff.mp h, fun _ => rfl⟩
  | reload =>
      obtain ⟨hsome, hcandidate⟩ := requested_reload_ok h
      exact ⟨s.reloadBody, hcandidate, fun _ => congrArg some (if_neg hsome)⟩
  | unload => cases h

def requestStep (s : DashboardServer H) (request : Request H) : DashboardServer H × HandlerResult H :=
  (s.handle request |>.server, s.handle request)

theorem requested_reload {s : DashboardServer H} (hnamed : s.state.NamedOnce)
    {candidate : RuntimeConfigState} (h : s.requested .reload = some candidate) :
    candidate = s.state ∧ s.state.Repeatable := by
  obtain ⟨hsome, hcandidate⟩ := requested_reload_ok h
  by_cases hrepeatable : s.state.Repeatable
  · rw [candidate_reload hnamed hsome hrepeatable] at hcandidate
    exact ⟨(Except.ok.inj hcandidate).symm, hrepeatable⟩
  · obtain ⟨errorJson, herror⟩ := candidate_reload_error hrepeatable
    rw [herror] at hcandidate
    cases hcandidate

theorem handle_state {s : DashboardServer H} (hnamed : s.state.NamedOnce) {request : Request H}
    (hload : ∀ body create, request ≠ .lifecycle (.load body) create) :
    (s.handle request).server.state = s.state := by
  have htouching (hlifecycle : ∀ r create, request ≠ .lifecycle r create)
      (hstop : request ≠ .stop) : (s.handle request).server.state = s.state :=
    congrArg DashboardServer.state (s.handle_touching hlifecycle hstop).1
  cases request with
  | lifecycle request create =>
      cases request with
      | load body => exact absurd rfl (hload body create)
      | unload => rfl
      | reload =>
          have hcase := s.lifecycle_case .reload create
          change (s.lifecycle .reload create).server.state = s.state
          generalize (s.lifecycle .reload create).server = server at hcase ⊢
          generalize (s.lifecycle .reload create).calls = calls at hcase
          cases hcase with
          | refused _ => rfl
          | unloaded _ => rfl
          | created candidate hrequested fresh status hcreate =>
              obtain ⟨rfl, -⟩ := requested_reload hnamed hrequested
              exact ite_self _
  | stop => rfl
  | _ => exact htouching nofun nofun

theorem requested_named {s : DashboardServer H} {request : LifecycleRequest}
    {candidate : RuntimeConfigState} (h : s.requested request = some candidate) :
    candidate.NamedOnce ∧ ¬(candidate.modelId = [] ∧ candidate.modelPath = []) := by
  obtain ⟨body, hcandidate, -⟩ := requested_ok h
  exact candidate_named hcandidate

theorem handle_named {s : DashboardServer H} (hnamed : s.state.NamedOnce) (request : Request H) :
    (s.handle request).server.state.NamedOnce := by
  by_cases hload : ∀ body create, request ≠ .lifecycle (.load body) create
  · rw [handle_state hnamed hload]
    exact hnamed
  cases request with
  | lifecycle request create =>
      have hcase := s.lifecycle_case request create
      change (s.lifecycle request create).server.state.NamedOnce
      generalize (s.lifecycle request create).server = server at hcase ⊢
      generalize (s.lifecycle request create).calls = calls at hcase
      cases hcase with
      | refused _ => exact hnamed
      | unloaded _ => exact hnamed
      | created candidate hrequested fresh status hcreate =>
          change (if fresh.isSome then candidate else s.state).NamedOnce
          split
          · exact (requested_named hrequested).1
          · exact hnamed
  | _ => exact absurd nofun hload

theorem run_state {s : DashboardServer H} (hnamed : s.state.NamedOnce) {requests : List (Request H)}
    (hloads : ∀ request ∈ requests, ∀ body create, request ≠ .lifecycle (.load body) create) :
    (final requestStep s requests).state = s.state := by
  refine final_invariant (fun t : DashboardServer H => t.state = s.state)
    (fun request : Request H => ∀ body create, request ≠ .lifecycle (.load body) create) ?_ rfl hloads
  intro t request hload hstate
  have hnamed' : t.state.NamedOnce := by
    rw [hstate]
    exact hnamed
  exact (handle_state hnamed' hload).trans hstate

theorem load_remembers {s : DashboardServer H} {body : Bytes}
    {create : Api.Config → Option H × Api.Status} {config : Api.Config} {handle : H}
    {status : Api.Status}
    (h : .create config (some handle) status ∈ (s.handle (.lifecycle (.load body) create)).calls) :
    ∃ candidate, (s.handle (.lifecycle (.load body) create)).server.state = candidate ∧
      candidate.config = config ∧ candidate.NamedOnce ∧
      ¬(candidate.modelId = [] ∧ candidate.modelPath = []) := by
  have hdestroyed : .create config (some handle) status ∉ s.unloadCurrent.2 := by
    unfold unloadCurrent
    simp
  have hcase := s.lifecycle_case (.load body) create
  change .create config (some handle) status ∈ (s.lifecycle (.load body) create).calls at h
  change ∃ candidate, (s.lifecycle (.load body) create).server.state = candidate ∧ _
  generalize (s.lifecycle (.load body) create).server = server at hcase ⊢
  generalize (s.lifecycle (.load body) create).calls = calls at hcase h
  cases hcase with
  | refused _ => cases h
  | unloaded _ => exact absurd h hdestroyed
  | created candidate hrequested fresh status hcreate =>
      rcases List.mem_append.mp h with h | h
      · exact absurd h hdestroyed
      · cases List.mem_singleton.mp h
        exact ⟨candidate, rfl, rfl, requested_named hrequested⟩

theorem reload_creates_iff {s : DashboardServer H} (hnamed : s.state.NamedOnce)
    (hsome : ¬(s.state.modelId = [] ∧ s.state.modelPath = []))
    (create : Api.Config → Option H × Api.Status) :
    (∃ handle status, .create s.state.config handle status ∈ (s.lifecycle .reload create).calls) ↔
      s.state.Repeatable := by
  have hrequested : s.requested .reload = (s.candidate s.reloadBody).toOption := if_neg hsome
  constructor
  · rintro ⟨handle, status, hcall⟩
    have hcase := s.lifecycle_case .reload create
    generalize (s.lifecycle .reload create).server = server at hcase
    generalize (s.lifecycle .reload create).calls = calls at hcase hcall
    cases hcase with
    | refused _ => cases hcall
    | unloaded hunload => cases hunload
    | created candidate hcandidate fresh status hcreate =>
        exact (requested_reload hnamed hcandidate).2
  · intro hrepeatable
    have hcandidate := candidate_reload hnamed hsome hrepeatable
    have hcalls := (loadFromRequest_ok hcandidate (Prod.eta (create s.state.config)).symm).2
    refine ⟨(create s.state.config).1, (create s.state.config).2, ?_⟩
    have hreload : s.reloadCurrent create = s.loadFromRequest s.reloadBody create := if_neg hsome
    change _ ∈ (s.reloadCurrent create).calls
    rw [hreload, hcalls]
    exact List.mem_append_right _ (List.mem_singleton_self _)

/-- A string that was parsed of a request comes back of the body of a reload exactly if its control
characters have letters; and after a load that got a handle, and any requests that do not load, a
reload asks for the same configuration exactly if the name of its model comes back of a body that is not
too large. -/
theorem reload_repeats_iff (modelRegistryPath : Bytes) (past later : List (Request H)) (body : Bytes)
    (create create' : Api.Config → Option H × Api.Status) (config : Api.Config) (handle : H)
    (status : Api.Status) :
    let before := final requestStep (start modelRegistryPath) past
    let load : Request H := .lifecycle (.load body) create
    let after := final requestStep (start modelRegistryPath) (past ++ load :: later)
    (∀ value, (∃ body k, body.length ≤ kMaxRequestBody ∧ parseJsonString body k = some value) →
      ∀ key ∈ modelKeys, (parseJsonString (loadBody key value) key = some value ∧
        ∀ other ∈ modelKeys, other ≠ key → parseJsonString (loadBody key value) other = none) ↔
          Lettered value) ∧
    (.create config (some handle) status ∈ (before.handle load).calls →
      (∀ request ∈ later, ∀ body create, request ≠ .lifecycle (.load body) create) →
      ((∃ handle status, .create config handle status ∈ (after.lifecycle .reload create').calls) ↔
        after.state.Repeatable)) := by
  intro before load after
  constructor
  · rintro value ⟨body, k, hbody, hparsed⟩ key hkey
    exact loadBody_parsed_iff hkey ((parseJsonString_length hparsed).trans hbody)
  · intro hgot hlater
    obtain ⟨candidate, hcandidate, rfl, hnamed, hsome⟩ := load_remembers hgot
    have hafter : after = final requestStep (before.handle load).server later :=
      final_append requestStep (start modelRegistryPath) past (load :: later)
    have hstate : after.state = candidate := by
      rw [hafter, ← hcandidate]
      exact run_state (hcandidate ▸ hnamed) hlater
    rw [← hstate] at hnamed hsome ⊢
    exact reload_creates_iff hnamed hsome create'

def granted : Api.Config → Option Unit × Api.Status := fun _ => (some (), .ok)

def loadPath (path : Bytes) : Request Unit :=
  .lifecycle (.load (loadBody (text "model_path") path)) granted

def pathConfig (path : Bytes) : Api.Config :=
  { (start (H := Unit) []).state with modelPath := path : RuntimeConfigState }.config

theorem reload_repeats_path :
    ∃ handle status, .create (pathConfig (text "m.gguf")) handle status ∈
      ((final requestStep (start []) [loadPath (text "m.gguf"), .reset]).lifecycle .reload
        granted).calls :=
  ((reload_repeats_iff [] [] [.reset] (loadBody (text "model_path") (text "m.gguf")) granted granted
    (pathConfig (text "m.gguf")) () .ok).2 List.mem_cons_self (by simp)).mpr (by decide +kernel)

/-- A path with a control character that has no letter is loaded, and a reload does not come to the
create call. -/
theorem reload_repeats_control :
    ¬∀ (past later : List (Request Unit)) (body : Bytes) (config : Api.Config) (status : Api.Status),
      .create config (some ()) status ∈
        ((final requestStep (start []) past).handle (.lifecycle (.load body) granted)).calls →
      (∀ request ∈ later, ∀ body create, request ≠ .lifecycle (.load body) create) →
      ∃ handle status, .create config handle status ∈
        ((final requestStep (start []) (past ++ .lifecycle (.load body) granted :: later)).lifecycle
          .reload granted).calls := by
  intro h
  let body := text "\x7b\"model_path\":\"m" ++ 1 :: text "\"\x7d"
  obtain ⟨handle, status, hcall⟩ := h [] [] body (pathConfig (text "m" ++ [1])) .ok
    List.mem_cons_self (by simp)
  have hnone : ((final requestStep (start []) ([] ++ [.lifecycle (.load body) granted])).lifecycle
      .reload granted).calls.length = 0 := by decide +kernel
  rw [List.eq_nil_of_length_eq_zero hnone] at hcall
  cases hcall

end DashboardServer

end Dashboard

end EdgeMind
