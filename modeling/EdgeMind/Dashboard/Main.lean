import EdgeMind.Cli.Arguments
import EdgeMind.Dashboard.Http

/-!
# The dashboard program

The arguments of the program, the token it makes up and the address it serves. It serves exactly for
argument lists that are made of settings, and then on the loopback address with a token of its own.
-/

namespace EdgeMind

open Framework

namespace Dashboard

structure DashboardConfig where
  bindAddress : Bytes := text "127.0.0.1"
  port : Int := 8787
  modelRegistryPath : Bytes := []
  token : Bytes := []
deriving DecidableEq

/-- An integer that is read whole, in the range of the ports. -/
def parsePort (value : Bytes) : Option Int :=
  (Cli.wholeArg strtoll (some value)).filter fun p => ¬(p < 1024 ∨ p > 65535)

/-- The loop of `main` over its arguments: the configuration, or the code that `main` returns. -/
def parseArguments : List Bytes → DashboardConfig → Except Nat DashboardConfig
  | [], config => .ok config
  | arg :: rest, config =>
      if arg = text "-h" ∨ arg = text "--help" then .error 0
      else if arg = text "--port" then
        match rest with
        | [] => .error 2
        | value :: rest =>
            match parsePort value with
            | none => .error 2
            | some port => parseArguments rest { config with port }
      else if arg = text "--registry-path" then
        match rest with
        | [] => .error 2
        | value :: rest => parseArguments rest { config with modelRegistryPath := value }
      else .error 2

/-- `main` up to the loop that serves: `entropy` is what the entropy source gives, `bound` whether the port
can be bound. -/
def main (entropy : Bytes) (bound : DashboardConfig → Bool) (args : List Bytes) :
    Except Nat DashboardConfig :=
  match parseArguments args {} with
  | .error code => .error code
  | .ok config =>
      match generateDashboardToken entropy with
      | none => .error 1
      | some token =>
          if bound { config with token } then .ok { config with token } else .error 1

inductive Setting
  | port (value : Bytes) (port : Int)
  | registryPath (value : Bytes)

namespace Setting

def words : Setting → List Bytes
  | .port value _ => [text "--port", value]
  | .registryPath value => [text "--registry-path", value]

/-- The value of a port denotes it, in the range of the ports. -/
def Valid : Setting → Prop
  | .port value p => Numeral value p ∧ 1024 ≤ p ∧ p ≤ 65535
  | .registryPath _ => True

def apply (config : DashboardConfig) : Setting → DashboardConfig
  | .port _ p => { config with port := p }
  | .registryPath value => { config with modelRegistryPath := value }

end Setting

theorem parsePort_iff (value : Bytes) (port : Int) :
    parsePort value = some port ↔ Numeral value port ∧ 1024 ≤ port ∧ port ≤ 65535 := by
  unfold parsePort
  rw [Option.filter_eq_some_iff]
  constructor
  · rintro ⟨hread, hrange⟩
    by_cases hnumeral : ∃ z, Numeral value z
    · obtain ⟨z, hz⟩ := hnumeral
      rw [Cli.wholeArg_strtoll hz] at hread
      have hclamp := Option.some.inj hread
      simp at hrange
      obtain rfl : z = port := by omega
      exact ⟨hz, hrange⟩
    · rw [Cli.wholeArg_strtoll_none (not_exists.mp hnumeral)] at hread
      cases hread
  · rintro ⟨hnumeral, hlow, hhigh⟩
    rw [Cli.wholeArg_strtoll hnumeral]
    refine ⟨congrArg some (by omega), ?_⟩
    simp
    omega

theorem parseArguments_port {value : Bytes} {p : Int} (h : parsePort value = some p)
    (rest : List Bytes) (config : DashboardConfig) :
    parseArguments (text "--port" :: value :: rest) config =
      parseArguments rest { config with port := p } := by
  rw [parseArguments, if_neg (by decide), if_pos rfl, h]

theorem parseArguments_registryPath (value : Bytes) (rest : List Bytes) (config : DashboardConfig) :
    parseArguments (text "--registry-path" :: value :: rest) config =
      parseArguments rest { config with modelRegistryPath := value } := by
  rw [parseArguments, if_neg (by decide), if_neg (by decide), if_pos rfl]

theorem parseArguments_settings {settings : List Setting} (h : ∀ setting ∈ settings, setting.Valid)
    (config : DashboardConfig) :
    parseArguments (settings.flatMap Setting.words) config =
      .ok (settings.foldl Setting.apply config) := by
  induction settings generalizing config with
  | nil => rfl
  | cons setting settings ih =>
      rw [List.forall_mem_cons] at h
      rw [List.flatMap_cons, List.foldl_cons, ← ih h.2]
      cases setting with
      | port value p => exact parseArguments_port ((parsePort_iff value p).mpr h.1) _ config
      | registryPath value => exact parseArguments_registryPath value _ config

theorem parseArguments_ok {args : List Bytes} {config config' : DashboardConfig}
    (h : parseArguments args config = .ok config') :
    ∃ settings : List Setting, args = settings.flatMap Setting.words ∧
      (∀ setting ∈ settings, setting.Valid) ∧ config' = settings.foldl Setting.apply config := by
  induction args, config using parseArguments.induct with
  | case1 config => exact ⟨[], rfl, fun _ hmem => absurd hmem List.not_mem_nil, (Except.ok.inj h).symm⟩
  | case2 arg rest config hhelp =>
      unfold parseArguments at h
      rw [if_pos hhelp] at h
      cases h
  | case3 config hhelp =>
      rw [parseArguments, if_neg hhelp, if_pos rfl] at h
      cases h
  | case4 config value rest hport hhelp =>
      rw [parseArguments, if_neg hhelp, if_pos rfl, hport] at h
      cases h
  | case5 config value rest p hport hhelp ih =>
      rw [parseArguments_port hport] at h
      obtain ⟨settings, rfl, hvalid, hconfig⟩ := ih h
      exact ⟨.port value p :: settings, rfl,
        List.forall_mem_cons.mpr ⟨(parsePort_iff value p).mp hport, hvalid⟩, hconfig⟩
  | case6 config hhelp hport =>
      rw [parseArguments, if_neg hhelp, if_neg hport, if_pos rfl] at h
      cases h
  | case7 config value rest hhelp hport ih =>
      rw [parseArguments_registryPath] at h
      obtain ⟨settings, rfl, hvalid, hconfig⟩ := ih h
      exact ⟨.registryPath value :: settings, rfl,
        List.forall_mem_cons.mpr ⟨trivial, hvalid⟩, hconfig⟩
  | case8 arg rest config hhelp hport hregistry =>
      unfold parseArguments at h
      rw [if_neg hhelp, if_neg hport, if_neg hregistry] at h
      cases h

theorem generateDashboardToken_digits {entropy token : Bytes}
    (h : generateDashboardToken entropy = some token) :
    token.length = 64 ∧ ∀ c ∈ token, c ∈ text "0123456789abcdef" := by
  unfold generateDashboardToken at h
  split at h
  · next hlength =>
      obtain rfl := Option.some.inj h
      constructor
      · simp [List.length_flatMap, hexByte, hlength]
      · intro c hc
        obtain ⟨b, -, hb⟩ := List.mem_flatMap.mp hc
        exact mem_of_mem_hexByte rfl hb
  · cases h

theorem generateDashboardToken_inj {entropy entropy' token : Bytes}
    (h : generateDashboardToken entropy = some token)
    (h' : generateDashboardToken entropy' = some token) : entropy = entropy' := by
  unfold generateDashboardToken at h h'
  split at h
  · split at h'
    · exact hexBytes_inj rfl (by decide) ((Option.some.inj h).trans (Option.some.inj h').symm)
    · cases h'
  · cases h

/-- What is served: on the loopback address and a port of the range, for a token of 64 digits, which only
this entropy makes. -/
structure Serves (entropy : Bytes) (config : DashboardConfig) : Prop where
  address : config.bindAddress = text "127.0.0.1"
  port : 1024 ≤ config.port ∧ config.port ≤ 65535
  token : config.token.length = 64 ∧ ∀ c ∈ config.token, c ∈ text "0123456789abcdef"
  fresh : ∀ entropy', generateDashboardToken entropy' = some config.token → entropy' = entropy

theorem settings_address {settings : List Setting} (h : ∀ setting ∈ settings, setting.Valid)
    {config : DashboardConfig} (hport : 1024 ≤ config.port ∧ config.port ≤ 65535) :
    let config' := settings.foldl Setting.apply config
    config'.bindAddress = config.bindAddress ∧ 1024 ≤ config'.port ∧ config'.port ≤ 65535 := by
  induction settings generalizing config with
  | nil => exact ⟨rfl, hport⟩
  | cons setting settings ih =>
      rw [List.forall_mem_cons] at h
      rw [List.foldl_cons]
      cases setting with
      | port value p => exact ih h.2 h.1.2
      | registryPath value => exact ih h.2 hport

/-- The program serves exactly if its arguments are those of settings, the entropy source gives enough and
the port can be bound; the configuration is that of the settings, the last of each kind. -/
theorem main_serves_iff (entropy : Bytes) (bound : DashboardConfig → Bool) (args : List Bytes)
    (config : DashboardConfig) :
    (main entropy bound args = .ok config ↔ ∃ settings : List Setting, ∃ token,
      args = settings.flatMap Setting.words ∧ (∀ setting ∈ settings, setting.Valid) ∧
        generateDashboardToken entropy = some token ∧
        config = { settings.foldl Setting.apply {} with token } ∧ bound config = true) ∧
      (main entropy bound args = .ok config → Serves entropy config) := by
  have hserves : main entropy bound args = .ok config ↔ ∃ settings : List Setting, ∃ token,
      args = settings.flatMap Setting.words ∧ (∀ setting ∈ settings, setting.Valid) ∧
        generateDashboardToken entropy = some token ∧
        config = { settings.foldl Setting.apply {} with token } ∧ bound config = true := by
    constructor
    · intro h
      unfold main at h
      cases hargs : parseArguments args {} with
      | error code =>
          rw [hargs] at h
          cases h
      | ok parsed =>
          obtain ⟨settings, hwords, hvalid, rfl⟩ := parseArguments_ok hargs
          rw [hargs] at h
          cases htoken : generateDashboardToken entropy with
          | none =>
              rw [htoken] at h
              cases h
          | some token =>
              rw [htoken] at h
              dsimp only at h
              split at h
              · next hbound =>
                  obtain rfl := Except.ok.inj h
                  exact ⟨settings, token, hwords, hvalid, rfl, rfl, hbound⟩
              · cases h
    · rintro ⟨settings, token, rfl, hvalid, htoken, rfl, hbound⟩
      unfold main
      rw [parseArguments_settings hvalid, htoken]
      exact if_pos hbound
  refine ⟨hserves, fun h => ?_⟩
  obtain ⟨settings, token, -, hvalid, htoken, rfl, -⟩ := hserves.mp h
  obtain ⟨haddress, hport⟩ := @settings_address _ hvalid {} (by decide)
  exact ⟨haddress, hport, generateDashboardToken_digits htoken,
    fun entropy' h' => generateDashboardToken_inj h' htoken⟩

end Dashboard

end EdgeMind
