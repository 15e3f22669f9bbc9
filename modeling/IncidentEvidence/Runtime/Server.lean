import IncidentEvidence.Py.Timedelta
import IncidentEvidence.Runtime.Config
import IncidentEvidence.Runtime.Prometheus

/-! # Building the telemetry source of a configuration

    `_build_telemetry` of `runtime/server.py` and the constructors it calls in
    `runtime/prometheus.py`. The configuration checks its numbers as floats; the constructor
    checks them again, after the timeout became a duration. The two disagree at both ends
    of the floats (`accepted_config_builds_iff`). -/

namespace IncidentEvidence

open Py

/-! ### Constructors -/

/-- What leaves the construction of a component. -/
inductive BuildError where
  | assertionError
  | valueError (message : Str)
  | overflowError
  deriving DecidableEq

/-- An exception of `timedelta(seconds=x)` on its way up. -/
def fromDuration {α : Type} : Except DurationError α → Except BuildError α
  | .ok a => .ok a
  | .error .value => .error (.valueError (str "cannot convert float NaN to integer"))
  | .error .overflow => .error .overflowError

@[simp] theorem fromDuration_eq_ok {α : Type} {x : Except DurationError α} {a : α} :
    fromDuration x = .ok a ↔ x = .ok a := by
  cases x with
  | ok b => simp [fromDuration]
  | error e => cases e <;> simp [fromDuration]

/-- What construction takes from outside: the transport of a client, by its base URL, its
    bearer token and the deadline of a query, and the constructor of a labelled source, by
    its root and split. -/
structure Startup (S : Type) where
  fetch : Str → Option Str → Timedelta → RangeQuery → Option (Int × List UInt8)
  rcaeval : Str → Str → Except BuildError S

/-- `base_url.rstrip("/")`. -/
def trimSlashes (url : Str) : Str :=
  (url.reverse.dropWhile fun c => c = .scalar '/').reverse

/-- `PrometheusClient.over_http`; the deadline reaches the transport with each query. -/
def PrometheusClient.overHttp {S : Type} (startup : Startup S) (baseUrl : Str)
    (bearerToken : Option Str) (deadline : Timedelta) : PrometheusClient :=
  ⟨startup.fetch (trimSlashes baseUrl) bearerToken deadline, .default⟩

/-- `PrometheusTelemetrySource.__init__`. -/
def PrometheusTelemetrySource.construct (client : Timedelta → PrometheusClient)
    (queries : List Str) (stepSeconds : Int) (deadline : Timedelta) :
    Except BuildError (PrometheusTelemetrySource ExactFloat) :=
  let selectors := (queries.map strip).filter fun query => query ≠ []
  if selectors = [] then .error (.valueError (str "at least one PromQL selector is required"))
  else if stepSeconds < 1 then
    .error (.valueError (str "step_seconds must be strictly positive"))
  else if deadline.micros ≤ 0 then
    .error (.valueError (str "deadline must be strictly positive"))
  else .ok ⟨client deadline, selectors, stepSeconds.toNat, .default⟩

/-- The constructor accepts a duration exactly when it is strictly positive. -/
theorem PrometheusTelemetrySource.isOk_construct {client : Timedelta → PrometheusClient}
    {queries : List Str} {stepSeconds : Int} {deadline : Timedelta}
    (hqueries : queries ≠ [] ∧ ∀ query ∈ queries, strip query ≠ []) (hstep : 1 ≤ stepSeconds) :
    (∃ source, construct client queries stepSeconds deadline = .ok source) ↔
      0 < deadline.micros := by
  have hselectors : (queries.map strip).filter (fun query => query ≠ []) ≠ [] := by
    obtain ⟨query, rest, hcons⟩ := List.exists_cons_of_ne_nil hqueries.1
    have hquery : query ∈ queries := by simp [hcons]
    have hmem : strip query ∈ (queries.map strip).filter fun query => query ≠ [] :=
      List.mem_filter.mpr
        ⟨List.mem_map_of_mem hquery, by simpa using hqueries.2 query hquery⟩
    exact List.ne_nil_of_mem hmem
  simp only [construct]
  rw [if_neg hselectors, if_neg (not_lt.mpr hstep)]
  by_cases hdeadline : deadline.micros ≤ 0
  · simp [hdeadline]
  · simp [hdeadline, not_le.mp hdeadline]

/-- A telemetry source. -/
inductive TelemetrySource (S : Type) where
  | rcaeval (source : S)
  | prometheus (source : PrometheusTelemetrySource ExactFloat)
  /-- `InMemoryTelemetrySource`. -/
  | inMemory

/-- `assert value is not None`. -/
def assertSome {α : Type} (value : Option α) : Except BuildError α :=
  orRaise value .assertionError

/-- `_build_telemetry`. -/
def buildTelemetry {S : Type} (startup : Startup S) (config : AppConfig ExactFloat) :
    Except BuildError (TelemetrySource S) :=
  match config.telemetry with
  | .rcaeval => do
    let root ← assertSome config.re2Root
    return .rcaeval (← startup.rcaeval root config.re2Split)
  | .prometheus => do
    let url ← assertSome config.promUrl
    let deadline ← fromDuration (Timedelta.ofSeconds config.promTimeoutSeconds)
    let source ← PrometheusTelemetrySource.construct
      (PrometheusClient.overHttp startup url config.promBearerToken) config.promQueries
      config.promStepSeconds deadline
    return .prometheus source
  | .none => .ok .inMemory

/-! ### Accepted configurations -/

section
variable {S : Type} (startup : Startup S) {config : AppConfig ExactFloat}

/-- The live source is built exactly when the timeout makes a positive duration. -/
theorem buildTelemetry_iff {R : EnvReader ExactFloat} {env : EnvMapping}
    (haccepted : AppConfig.Accepted R env config) (hlive : config.telemetry = .prometheus) :
    (∃ source, buildTelemetry startup config = .ok (.prometheus source)) ↔
      ∃ deadline, Timedelta.ofSeconds config.promTimeoutSeconds = .ok deadline ∧
        0 < deadline.micros := by
  obtain ⟨url, hurl⟩ := Config.isSome_of_requireIf haccepted.promUrl hlive
  have hqueries := Config.selectors_of_queriesIf haccepted.promQueries hlive
  have hstep := Config.parsePositiveInt_pos R haccepted.promStepSeconds
  simp only [buildTelemetry, hlive, hurl, assertSome, orRaise, bind_eq_ok, pure_eq_ok,
    fromDuration_eq_ok, Except.ok.injEq, TelemetrySource.prometheus.injEq]
  constructor
  · intro h
    obtain ⟨source, _, -, deadline, hdeadline, built, hbuilt, -⟩ := h
    have hpositive := (PrometheusTelemetrySource.isOk_construct hqueries hstep).mp ⟨built, hbuilt⟩
    exact ⟨deadline, hdeadline, hpositive⟩
  · intro h
    obtain ⟨deadline, hdeadline, hpositive⟩ := h
    obtain ⟨source, hsource⟩ :=
      (@PrometheusTelemetrySource.isOk_construct
        (PrometheusClient.overHttp startup url config.promBearerToken)
        _ _ _ hqueries hstep).mpr hpositive
    exact ⟨source, url, rfl, deadline, hdeadline, source, hsource, rfl⟩

end

/-- The text of `IEC_PROM_TIMEOUT_SECONDS`, with its default. -/
def timeoutText (env : EnvMapping) : Str :=
  Config.lookup env (str "IEC_PROM_TIMEOUT_SECONDS") (str "30.0")

theorem promTimeoutSeconds_text {R : EnvReader ExactFloat} {env : EnvMapping}
    {config : AppConfig ExactFloat} (haccepted : AppConfig.Accepted R env config) :
    R.float (timeoutText env) = some config.promTimeoutSeconds := by
  have hdefault : FloatFormat.repr (PyFloat.literal 300 1 : ExactFloat) = str "30.0" := by
    decide +kernel
  have hparsed := (Config.parsePositiveFloat_eq_ok R).mp haccepted.promTimeoutSeconds
  rw [hdefault] at hparsed
  exact hparsed.1

/-- **An accepted configuration builds its telemetry source exactly for a representable
    timeout**: more than half a microsecond, which would round to no time at all, and less
    than the longest `timedelta` and another half. -/
theorem accepted_config_builds_iff {S : Type} (startup : Startup S) {R : EnvReader ExactFloat}
    {env : EnvMapping} {config : AppConfig ExactFloat}
    (haccepted : AppConfig.fromEnv R env = .ok config) (hlive : config.telemetry = .prometheus) :
    (∃ source, buildTelemetry startup config = .ok (.prometheus source)) ↔
      ∃ seconds, R.float (timeoutText env) = some (.fin seconds) ∧
        1 / 2000000 < seconds ∧ seconds < 86400000000000 - 1 / 2000000 := by
  have hchecked := AppConfig.accepted_of_fromEnv R haccepted
  have htext := promTimeoutSeconds_text hchecked
  rw [buildTelemetry_iff startup hchecked hlive, Timedelta.exists_positive_ofSeconds, htext]
  simp only [Option.some.injEq]

/-! ### Runs -/

namespace Startup.Demo

/-- What `float` and `int` make of a few texts. -/
def reader : EnvReader ExactFloat where
  float text :=
    if text = str "30.0" then some (.fin 30)
    else if text = str "1.0" then some (.fin 1)
    else if text = str "1e-9" then some (.fin (1 / 1000000000))
    else if text = str "inf" then some (.inf false)
    else none
  int text :=
    if text = str "30" then some 30
    else if text = str "8000" then some 8000
    else none
  lower text := text

/-- A mapping for live telemetry. -/
def env : EnvMapping :=
  Dict.empty
    |>.set (str "IEC_TOKENS") (str "t=acme")
    |>.set (str "IEC_TELEMETRY") (str "prometheus")
    |>.set (str "IEC_PROM_URL") (str "http://p")
    |>.set (str "IEC_PROM_QUERIES") (str "up")

/-- The mapping with a timeout. -/
def envWithTimeout (text : Str) : EnvMapping :=
  env.set (str "IEC_PROM_TIMEOUT_SECONDS") text

def startup : Startup Unit := ⟨fun _ _ _ _ => none, fun _ _ => .ok ()⟩

/-- What becomes of a mapping: the telemetry it selects, and the exception of building it. -/
def outcome (env : EnvMapping) : Option (TelemetryChoice × Option BuildError) :=
  match AppConfig.fromEnv reader env with
  | .error _ => none
  | .ok config =>
    match buildTelemetry startup config with
    | .ok _ => some (config.telemetry, none)
    | .error e => some (config.telemetry, some e)

theorem exists_of_outcome {env : EnvMapping} {telemetry : TelemetryChoice}
    {raised : Option BuildError} (h : outcome env = some (telemetry, raised)) :
    ∃ config, AppConfig.fromEnv reader env = .ok config ∧ config.telemetry = telemetry ∧
      ((∃ source, buildTelemetry startup config = .ok source) → raised = none) := by
  unfold outcome at h
  cases hread : AppConfig.fromEnv reader env with
  | error e =>
    rw [hread] at h
    exact absurd h (by simp)
  | ok config =>
    rw [hread] at h
    refine ⟨config, rfl, ?_⟩
    cases hbuild : buildTelemetry startup config with
    | ok source =>
      simp only [hbuild, Option.some.injEq, Prod.mk.injEq] at h
      exact ⟨h.1, fun _ => h.2.symm⟩
    | error e =>
      simp only [hbuild, Option.some.injEq, Prod.mk.injEq] at h
      refine ⟨h.1, ?_⟩
      intro hbuilt
      obtain ⟨source, hsource⟩ := hbuilt
      exact absurd hsource (by simp)

end Startup.Demo

open Startup.Demo in
/-- The default timeout of half a minute builds. -/
theorem accepted_config_builds_demo : ∃ config source,
    AppConfig.fromEnv reader env = .ok config ∧
      buildTelemetry startup config = .ok (.prometheus source) := by
  have hrun : outcome env = some (.prometheus, none) := by decide +kernel
  obtain ⟨config, hread, hlive, -⟩ := exists_of_outcome hrun
  have htext : reader.float (timeoutText env) = some (.fin 30) := by decide +kernel
  obtain ⟨source, hsource⟩ :=
    (accepted_config_builds_iff startup hread hlive).mpr
      ⟨30, htext, by norm_num, by norm_num⟩
  exact ⟨config, source, hread, hsource⟩

open Startup.Demo in
/-- An infinite timeout and one of a nanosecond are accepted, and neither builds. -/
theorem accepted_timeout_crashes :
    (∃ config, AppConfig.fromEnv reader (envWithTimeout (str "inf")) = .ok config ∧
      config.telemetry = .prometheus ∧
      ¬ ∃ source, buildTelemetry startup config = .ok source) ∧
    (∃ config, AppConfig.fromEnv reader (envWithTimeout (str "1e-9")) = .ok config ∧
      config.telemetry = .prometheus ∧
      ¬ ∃ source, buildTelemetry startup config = .ok source) := by
  have hinfinite : outcome (envWithTimeout (str "inf")) =
      some (.prometheus, some .overflowError) := by decide +kernel
  have hshort : outcome (envWithTimeout (str "1e-9")) = some (.prometheus,
      some (.valueError (str "deadline must be strictly positive"))) := by decide +kernel
  constructor
  · obtain ⟨config, hread, hlive, hbuilt⟩ := exists_of_outcome hinfinite
    exact ⟨config, hread, hlive, fun h => absurd (hbuilt h) (by simp)⟩
  · obtain ⟨config, hread, hlive, hbuilt⟩ := exists_of_outcome hshort
    exact ⟨config, hread, hlive, fun h => absurd (hbuilt h) (by simp)⟩

end IncidentEvidence
