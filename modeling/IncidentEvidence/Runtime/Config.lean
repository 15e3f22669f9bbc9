import IncidentEvidence.Py.Dict
import IncidentEvidence.Py.Except
import IncidentEvidence.Py.FloatFormat

/-! # The process configuration

    `runtime/config.py`: the environment mapping is read into a validated
    configuration, or a `ConfigError` with a stable message is raised.

    `AppConfig.Accepted` lists what the reader of a configuration has checked, one field
    at a time (`accepted_of_fromEnv`). -/

namespace IncidentEvidence

open Py

/-- `ConfigError`. -/
structure ConfigError where
  message : Str
  deriving DecidableEq

/-- The mapping a configuration is read from. -/
abbrev EnvMapping := Dict Str Str

/-- How CPython reads the text of a value. -/
structure EnvReader (F : Type) where
  /-- `float(text)`; `none` is `ValueError`. -/
  float : Str → Option F
  /-- `int(text)`; `none` is `ValueError`. -/
  int : Str → Option Int
  /-- `text.lower()`. -/
  lower : Str → Str

namespace Config

/-! ### Texts and choices -/

/-- `env.get(key, default).strip()`. -/
def lookup (env : EnvMapping) (key default : Str) : Str := strip ((env.get? key).getD default)

/-- `value or default`. -/
def orDefault (value default : Str) : Str := if value = [] then default else value

/-- `_choice`, over the choices and their names. -/
def choice {α : Type} (env : EnvMapping) (key : Str) (choices : List (Str × α)) (default : Str) :
    Except ConfigError α :=
  orRaise (choices.lookup (lookup env key default))
    ⟨key ++ str " must be one of " ++ (str ", ").intercalate (choices.map Prod.fst)⟩

/-- `_require`. -/
def require (env : EnvMapping) (key : Str) : Except ConfigError Str :=
  let value := lookup env key []
  if value = [] then .error ⟨key ++ str " is required"⟩ else .ok value

/-- `_require(env, key) if condition else None`. -/
def requireIf (condition : Prop) [Decidable condition] (env : EnvMapping) (key : Str) :
    Except ConfigError (Option Str) :=
  if condition then some <$> require env key else .ok none

theorem isSome_of_requireIf {condition : Prop} [Decidable condition] {env : EnvMapping}
    {key : Str} {value : Option Str} (h : requireIf condition env key = .ok value)
    (hcondition : condition) : ∃ text, value = some text := by
  rw [requireIf, if_pos hcondition, map_eq_ok] at h
  obtain ⟨text, -, hvalue⟩ := h
  exact ⟨text, hvalue.symm⟩

/-! ### Bearer tokens -/

/-- One turn of the loop of `_parse_tokens`. -/
def addToken (tokens : Dict Str Str) (pair : Str) : Except ConfigError (Dict Str Str) :=
  let (token, separator, tenant) := partition (.scalar '=') pair
  let token := strip token
  let tenant := strip tenant
  if separator ≠ str "=" ∨ token = [] ∨ tenant = [] then
    .error ⟨str "IEC_TOKENS must be comma-separated token=tenant pairs"⟩
  else .ok (tokens.set token tenant)

/-- `_parse_tokens`. -/
def parseTokens (raw : Str) : Except ConfigError (Dict Str Str) := do
  let tokens ← (raw.splitOn (.scalar ',')).foldlM addToken .empty
  if tokens.entries = [] then .error ⟨str "IEC_TOKENS is required"⟩ else return tokens

/-- Every token and every tenant has a visible character. -/
def VisibleTokens (tokens : Dict Str Str) : Prop :=
  ∀ token tenant, tokens.get? token = some tenant → isBlank token = false ∧ isBlank tenant = false

theorem VisibleTokens.addToken {tokens tokens' : Dict Str Str} (hvisible : VisibleTokens tokens)
    {pair : Str} (h : addToken tokens pair = .ok tokens') : VisibleTokens tokens' := by
  unfold Config.addToken at h
  generalize partition (.scalar '=') pair = parts at h
  obtain ⟨token, separator, tenant⟩ := parts
  by_cases hbad : separator ≠ str "=" ∨ strip token = [] ∨ strip tenant = []
  · exact absurd h (by simp [hbad])
  · have hset : tokens.set (strip token) (strip tenant) = tokens' := by simpa [hbad] using h
    have htoken : strip token ≠ [] := fun heq => hbad (.inr (.inl heq))
    have htenant : strip tenant ≠ [] := fun heq => hbad (.inr (.inr heq))
    intro key value hvalue
    rw [← hset, Dict.get?_set] at hvalue
    by_cases hkey : key = strip token
    · rw [if_pos hkey] at hvalue
      rw [hkey, ← Option.some.inj hvalue]
      exact ⟨isBlank_strip htoken, isBlank_strip htenant⟩
    · rw [if_neg hkey] at hvalue
      exact hvisible key value hvalue

/-- **Accepted tokens and tenants are visible**: no token or tenant of a configuration is
    blank. -/
theorem visible_of_parseTokens {raw : Str} {tokens : Dict Str Str}
    (h : parseTokens raw = .ok tokens) : VisibleTokens tokens := by
  have hloop : ∀ (pairs : List Str) (before after : Dict Str Str), VisibleTokens before →
      pairs.foldlM Config.addToken before = .ok after → VisibleTokens after := by
    intro pairs
    induction pairs with
    | nil =>
      intro before after hbefore hafter
      rw [List.foldlM_nil, pure_eq_ok] at hafter
      rw [hafter]
      exact hbefore
    | cons pair pairs ih =>
      intro before after hbefore hafter
      rw [List.foldlM_cons, bind_eq_ok] at hafter
      obtain ⟨next, hnext, hrest⟩ := hafter
      exact ih next after (hbefore.addToken hnext) hrest
  unfold parseTokens at h
  rw [bind_eq_ok] at h
  obtain ⟨parsed, hparsed, hreturn⟩ := h
  by_cases hempty : parsed.entries = []
  · exact absurd hreturn (by simp [hempty])
  · rw [if_neg hempty, pure_eq_ok] at hreturn
    rw [hreturn]
    exact hloop _ _ _ (by intro token tenant hget; exact absurd hget (by simp)) hparsed

/-! ### Numbers and selectors -/

section numbers
variable {F : Type} (R : EnvReader F)

/-- `_parse_port`. -/
def parsePort (env : EnvMapping) : Except ConfigError Int := do
  let port ← orRaise (R.int (lookup env (str "IEC_BIND_PORT") (str "8000")))
    ⟨str "IEC_BIND_PORT must be an integer"⟩
  if ¬ (1 ≤ port ∧ port ≤ 65535) then .error ⟨str "IEC_BIND_PORT must be in 1..65535"⟩
  else return port

/-- `_parse_bool`. -/
def parseBool (env : EnvMapping) (key : Str) (default : Bool) : Except ConfigError Bool :=
  match env.get? key with
  | none => .ok default
  | some raw =>
    let normalized := R.lower (strip raw)
    if normalized ∈ [str "1", str "true", str "yes", str "on"] then .ok true
    else if normalized ∈ [str "0", str "false", str "no", str "off"] then .ok false
    else .error ⟨key ++ str " must be a boolean (1/0, true/false)"⟩

/-- `_parse_positive_int`. -/
def parsePositiveInt (env : EnvMapping) (key : Str) (default : Int) : Except ConfigError Int := do
  let value ← orRaise (R.int (lookup env key (decimalInt default)))
    ⟨key ++ str " must be an integer"⟩
  if value < 1 then .error ⟨key ++ str " must be strictly positive"⟩ else return value

theorem parsePositiveInt_pos {env : EnvMapping} {key : Str} {default value : Int}
    (h : parsePositiveInt R env key default = .ok value) : 1 ≤ value := by
  unfold parsePositiveInt at h
  rw [bind_eq_ok] at h
  obtain ⟨parsed, -, hparsed⟩ := h
  by_cases hsmall : parsed < 1
  · exact absurd hparsed (by simp [hsmall])
  · rw [if_neg hsmall, pure_eq_ok] at hparsed
    omega

variable [PyFloat F] [FloatFormat F]

/-- `_parse_positive_float`. -/
def parsePositiveFloat (env : EnvMapping) (key : Str) (default : F) : Except ConfigError F := do
  let value ← orRaise (R.float (lookup env key (FloatFormat.repr default)))
    ⟨key ++ str " must be a number"⟩
  -- infinity is positive; only `_parse_optional_nonnegative_float` asks for a finite number
  if PyFloat.lt PyFloat.zero value = false then .error ⟨key ++ str " must be strictly positive"⟩
  else return value

theorem parsePositiveFloat_eq_ok {env : EnvMapping} {key : Str} {default value : F} :
    parsePositiveFloat R env key default = .ok value ↔
      R.float (lookup env key (FloatFormat.repr default)) = some value ∧
        PyFloat.lt PyFloat.zero value = true := by
  unfold parsePositiveFloat
  rw [bind_eq_ok]
  simp only [orRaise_eq_ok]
  constructor
  · intro h
    obtain ⟨parsed, hparsed, hpositive⟩ := h
    by_cases hzero : PyFloat.lt PyFloat.zero parsed = false
    · exact absurd hpositive (by simp [hzero])
    · rw [if_neg hzero, pure_eq_ok] at hpositive
      rw [hpositive]
      exact ⟨hparsed, by simpa using hzero⟩
  · intro h
    exact ⟨value, h.1, by simp [h.2, pure, Except.pure]⟩

/-- `_parse_optional_nonnegative_float`. -/
def parseOptionalNonnegativeFloat (env : EnvMapping) (key : Str) :
    Except ConfigError (Option F) :=
  match env.get? key with
  | none => .ok none
  | some raw => do
    let value ← orRaise (R.float (strip raw)) ⟨key ++ str " must be a number"⟩
    if PyFloat.isFinite value = false ∨ PyFloat.lt value PyFloat.zero = true then
      .error ⟨key ++ str " must be a finite number >= 0.0"⟩
    else return some value

end numbers

/-- `_parse_queries`. -/
def parseQueries (raw : Str) : Except ConfigError (List Str) :=
  let queries := ((raw.splitOn (.scalar ';')).map strip).filter fun part => part ≠ []
  if queries = [] then .error ⟨str "IEC_PROM_QUERIES must contain at least one PromQL selector"⟩
  else .ok queries

/-- The queries of `from_env`, `()` unless the telemetry is live. -/
def queriesIf (live : Prop) [Decidable live] (env : EnvMapping) : Except ConfigError (List Str) :=
  if live then do parseQueries (← require env (str "IEC_PROM_QUERIES")) else .ok []

/-- Accepted selectors have a visible character, and there is one. -/
theorem selectors_of_parseQueries {raw : Str} {queries : List Str}
    (h : parseQueries raw = .ok queries) :
    queries ≠ [] ∧ ∀ query ∈ queries, strip query ≠ [] := by
  simp only [parseQueries] at h
  by_cases hempty : ((raw.splitOn (.scalar ';')).map strip).filter (fun part => part ≠ []) = []
  · rw [if_pos hempty] at h
    exact absurd h (by simp)
  · rw [if_neg hempty, Except.ok.injEq] at h
    rw [← h]
    refine ⟨hempty, ?_⟩
    intro query hquery
    obtain ⟨hmem, hvisible⟩ := List.mem_filter.mp hquery
    obtain ⟨part, -, rfl⟩ := List.mem_map.mp hmem
    have hblank := isBlank_strip (by simpa using hvisible)
    intro hstrip
    rw [isBlank, hstrip] at hblank
    exact absurd hblank (by decide)

theorem selectors_of_queriesIf {live : Prop} [Decidable live] {env : EnvMapping}
    {queries : List Str} (h : queriesIf live env = .ok queries) (hlive : live) :
    queries ≠ [] ∧ ∀ query ∈ queries, strip query ≠ [] := by
  rw [queriesIf, if_pos hlive, bind_eq_ok] at h
  obtain ⟨raw, -, hqueries⟩ := h
  exact selectors_of_parseQueries hqueries

end Config

/-! ### The configuration -/

/-- The values of `IEC_PERSISTENCE`. -/
inductive PersistenceChoice where
  | memory
  | postgres
  deriving DecidableEq

/-- The values of `IEC_LLM_PROVIDER`. -/
inductive LlmChoice where
  | fake
  | developer
  | vertex
  deriving DecidableEq

/-- The values of `IEC_TELEMETRY`. -/
inductive TelemetryChoice where
  | none
  | rcaeval
  | prometheus
  deriving DecidableEq

namespace Config

/-- `_PERSISTENCE_CHOICES`. -/
def persistenceChoices : List (Str × PersistenceChoice) :=
  [(str "memory", .memory), (str "postgres", .postgres)]

/-- `_LLM_CHOICES`. -/
def llmChoices : List (Str × LlmChoice) :=
  [(str "fake", .fake), (str "developer", .developer), (str "vertex", .vertex)]

/-- `_TELEMETRY_CHOICES`. -/
def telemetryChoices : List (Str × TelemetryChoice) :=
  [(str "none", .none), (str "rcaeval", .rcaeval), (str "prometheus", .prometheus)]

/-- `_DEFAULT_MODEL`. -/
def defaultModel : Str := str "gemini-2.5-flash"

/-- `_DEFAULT_LOCATION`. -/
def defaultLocation : Str := str "us-central1"

end Config

/-- `AppConfig`. -/
structure AppConfig (F : Type) where
  tokens : Dict Str Str
  persistence : PersistenceChoice
  databaseUrl : Option Str
  llmProvider : LlmChoice
  geminiApiKey : Option Str
  geminiProject : Option Str
  geminiLocation : Str
  geminiModel : Str
  telemetry : TelemetryChoice
  re2Root : Option Str
  re2Split : Str
  promUrl : Option Str
  promQueries : List Str
  promStepSeconds : Int
  promTimeoutSeconds : F
  promBearerToken : Option Str
  bindHost : Str
  bindPort : Int
  workerEnabled : Bool
  workerIdleSleepSeconds : F
  baselineMinimumScore : Option F

namespace AppConfig

section
variable {F : Type} [PyFloat F] [FloatFormat F] (R : EnvReader F)

open Config in
/-- `from_env`. -/
def fromEnv (env : EnvMapping) : Except ConfigError (AppConfig F) := do
  let tokens ← parseTokens (← require env (str "IEC_TOKENS"))
  let persistence ← choice env (str "IEC_PERSISTENCE") persistenceChoices (str "memory")
  let databaseUrl ← requireIf (persistence = .postgres) env (str "IEC_DATABASE_URL")
  let provider ← choice env (str "IEC_LLM_PROVIDER") llmChoices (str "fake")
  let geminiApiKey ← requireIf (provider = .developer) env (str "GEMINI_API_KEY")
  let geminiProject ← requireIf (provider = .vertex) env (str "IEC_GEMINI_PROJECT")
  let geminiLocation := lookup env (str "IEC_GEMINI_LOCATION") defaultLocation
  let geminiModel := lookup env (str "IEC_GEMINI_MODEL") defaultModel
  let telemetry ← choice env (str "IEC_TELEMETRY") telemetryChoices (str "none")
  let re2Root ← requireIf (telemetry = .rcaeval) env (str "IEC_RE2_ROOT")
  let re2Split := lookup env (str "IEC_RE2_SPLIT") (str "OB")
  let promUrl ← requireIf (telemetry = .prometheus) env (str "IEC_PROM_URL")
  let promQueries ← queriesIf (telemetry = .prometheus) env
  let bearer := lookup env (str "IEC_PROM_BEARER_TOKEN") []
  let promBearerToken := if telemetry = .prometheus ∧ bearer ≠ [] then some bearer else none
  let promStepSeconds ← parsePositiveInt R env (str "IEC_PROM_STEP_SECONDS") 30
  let promTimeoutSeconds ←
    parsePositiveFloat R env (str "IEC_PROM_TIMEOUT_SECONDS") (PyFloat.literal 300 1)
  let bindPort ← parsePort R env
  let workerEnabled ← parseBool R env (str "IEC_WORKER_ENABLED") true
  let workerIdleSleepSeconds ←
    parsePositiveFloat R env (str "IEC_WORKER_IDLE_SLEEP_SECONDS") (PyFloat.literal 10 1)
  let baselineMinimumScore ← parseOptionalNonnegativeFloat R env (str "IEC_BASELINE_MIN_SCORE")
  return {
    tokens, persistence, databaseUrl
    llmProvider := provider
    geminiApiKey, geminiProject
    geminiLocation := orDefault geminiLocation defaultLocation
    geminiModel := orDefault geminiModel defaultModel
    telemetry, re2Root
    re2Split := orDefault re2Split (str "OB")
    promUrl, promQueries, promStepSeconds, promTimeoutSeconds, promBearerToken
    bindHost := orDefault (lookup env (str "IEC_BIND_HOST") (str "127.0.0.1")) (str "127.0.0.1")
    bindPort, workerEnabled, workerIdleSleepSeconds, baselineMinimumScore }

open Config in
/-- What `from_env` has checked of a configuration it returns. -/
structure Accepted (env : EnvMapping) (config : AppConfig F) : Prop where
  tokens : ∃ raw, require env (str "IEC_TOKENS") = .ok raw ∧ parseTokens raw = .ok config.tokens
  persistence : choice env (str "IEC_PERSISTENCE") persistenceChoices (str "memory") =
    .ok config.persistence
  databaseUrl : requireIf (config.persistence = .postgres) env (str "IEC_DATABASE_URL") =
    .ok config.databaseUrl
  llmProvider : choice env (str "IEC_LLM_PROVIDER") llmChoices (str "fake") =
    .ok config.llmProvider
  geminiApiKey : requireIf (config.llmProvider = .developer) env (str "GEMINI_API_KEY") =
    .ok config.geminiApiKey
  geminiProject : requireIf (config.llmProvider = .vertex) env (str "IEC_GEMINI_PROJECT") =
    .ok config.geminiProject
  telemetry : choice env (str "IEC_TELEMETRY") telemetryChoices (str "none") =
    .ok config.telemetry
  re2Root : requireIf (config.telemetry = .rcaeval) env (str "IEC_RE2_ROOT") = .ok config.re2Root
  promUrl : requireIf (config.telemetry = .prometheus) env (str "IEC_PROM_URL") =
    .ok config.promUrl
  promQueries : queriesIf (config.telemetry = .prometheus) env = .ok config.promQueries
  promStepSeconds : parsePositiveInt R env (str "IEC_PROM_STEP_SECONDS") 30 =
    .ok config.promStepSeconds
  promTimeoutSeconds :
    parsePositiveFloat R env (str "IEC_PROM_TIMEOUT_SECONDS") (PyFloat.literal 300 1) =
      .ok config.promTimeoutSeconds
  bindPort : parsePort R env = .ok config.bindPort
  workerEnabled : parseBool R env (str "IEC_WORKER_ENABLED") true = .ok config.workerEnabled
  workerIdleSleepSeconds :
    parsePositiveFloat R env (str "IEC_WORKER_IDLE_SLEEP_SECONDS") (PyFloat.literal 10 1) =
      .ok config.workerIdleSleepSeconds
  baselineMinimumScore :
    parseOptionalNonnegativeFloat R env (str "IEC_BASELINE_MIN_SCORE") =
      .ok config.baselineMinimumScore

/-- **An accepted configuration passed every check.** -/
theorem accepted_of_fromEnv {env : EnvMapping} {config : AppConfig F}
    (h : fromEnv R env = .ok config) : Accepted R env config := by
  unfold fromEnv at h
  simp only [bind_eq_ok, pure_eq_ok] at h
  obtain ⟨raw, hraw, tokens, htokens, persistence, hpersistence, databaseUrl, hdatabaseUrl,
    provider, hprovider, geminiApiKey, hgeminiApiKey, geminiProject, hgeminiProject,
    telemetry, htelemetry, re2Root, hre2Root, promUrl, hpromUrl, promQueries, hpromQueries,
    promStepSeconds, hpromStepSeconds, promTimeoutSeconds, hpromTimeoutSeconds,
    bindPort, hbindPort, workerEnabled, hworkerEnabled, idle, hidle, minimum, hminimum,
    rfl⟩ := h
  exact ⟨⟨raw, hraw, htokens⟩, hpersistence, hdatabaseUrl, hprovider, hgeminiApiKey,
    hgeminiProject, htelemetry, hre2Root, hpromUrl, hpromQueries, hpromStepSeconds,
    hpromTimeoutSeconds, hbindPort, hworkerEnabled, hidle, hminimum⟩

end

end AppConfig

end IncidentEvidence
