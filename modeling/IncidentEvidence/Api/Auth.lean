import IncidentEvidence.Exceptions
import IncidentEvidence.Runtime.Config

/-! # Bearer-token authentication

    `api/auth.py` and the `authenticate` dependency of `api/app.py`. A presented token
    is compared with every registered one, and the last match counts. The comparison is
    `hmac.compare_digest`, which does not accept every pair of texts.

    What the scan is for is a lookup (`TokenRegistry.answer`). It is one exactly for
    the tokens that can be compared (`scan_is_lookup_iff`). -/

namespace IncidentEvidence

open Py

/-! ### The comparison -/

/-- `str.isascii`. -/
def isAscii (s : Str) : Bool := s.all fun c => c.ord < 128

/-- `hmac.compare_digest` of two texts. -/
def compareDigest (a b : Str) : Except PyException Bool :=
  if isAscii a = true ∧ isAscii b = true then .ok (a = b) else .error .typeError

theorem compareDigest_eq_ok {a b : Str} (ha : isAscii a = true) (hb : isAscii b = true) :
    compareDigest a b = .ok (decide (a = b)) :=
  if_pos ⟨ha, hb⟩

theorem compareDigest_eq_error {a b : Str} (h : ¬ (isAscii a = true ∧ isAscii b = true)) :
    compareDigest a b = .error .typeError :=
  if_neg h

/-! ### The registry -/

/-- `TokenRegistry`. -/
structure TokenRegistry where
  tokens : Dict Str TenantId
  deriving DecidableEq

/-- One turn of the loop of `tenant_for`, with the match so far. -/
def scanToken (token : Str) (found : Option TenantId) (entry : Str × TenantId) :
    Except PyException (Option TenantId) := do
  if ← compareDigest entry.1 token then return some entry.2 else return found

namespace TokenRegistry

/-- `tenant_for`. -/
def tenantFor (registry : TokenRegistry) (token : Str) : Except PyException (Option TenantId) :=
  registry.tokens.entries.foldlM (scanToken token) none

/-- One turn of the comprehension of `from_mapping`. -/
def addTenant (tokens : Dict Str TenantId) (entry : Str × Str) :
    Except DomainError (Dict Str TenantId) := do
  let tenant ← TextIdentifier.construct entry.2
  return tokens.set entry.1 tenant

/-- `from_mapping`. -/
def fromMapping (mapping : Dict Str Str) : Except DomainError TokenRegistry := do
  let tokens ← mapping.entries.foldlM addTenant .empty
  return ⟨tokens⟩

end TokenRegistry

/-! ### The route dependency -/

/-- What leaves a route instead of a result: an `HTTPException` with its status and code, or
    an exception that has no handler. -/
inductive RouteError where
  | http (status : ℕ) (code : Str)
  | raised (e : PyException)
  deriving DecidableEq

def RouteError.unauthorized : RouteError := .http 401 (str "unauthorized")

/-- `prefix`. -/
def bearer : Str := str "Bearer "

/-- `authenticate`. -/
def authenticate (tokens : TokenRegistry) (authorization : Option Str) :
    Except RouteError TenantId :=
  match authorization with
  | none => .error .unauthorized
  | some authorization =>
    if bearer.isPrefixOf authorization = false then .error .unauthorized
    else
      match tokens.tenantFor (strip (authorization.drop bearer.length)) with
      | .error e => .error (.raised e)
      | .ok none => .error .unauthorized
      | .ok (some tenant) => .ok tenant

/-! ### The lookup it stands for -/

/-- The token a header presents. -/
def credential (authorization : Option Str) : Option Str :=
  (authorization.filter (bearer.isPrefixOf ·)).map fun header => strip (header.drop bearer.length)

namespace TokenRegistry

/-- What a route should answer: the tenant registered for exactly the presented token. -/
def answer (registry : TokenRegistry) (authorization : Option Str) : Except RouteError TenantId :=
  match (credential authorization).bind registry.tokens.get? with
  | some tenant => .ok tenant
  | none => .error .unauthorized

/-- The comparison accepts the token with every registered one. -/
def Comparable (registry : TokenRegistry) (token : Str) : Prop :=
  ∀ entry ∈ registry.tokens.entries, isAscii entry.1 = true ∧ isAscii token = true

/-- A scan of comparable tokens keeps the last match. -/
theorem scan_eq_ok {token : Str} {entries : List (Str × TenantId)}
    (hcomparable : ∀ entry ∈ entries, isAscii entry.1 = true ∧ isAscii token = true)
    (found : Option TenantId) :
    entries.foldlM (scanToken token) found =
      .ok (entries.foldl (fun found entry => if entry.1 = token then some entry.2 else found)
        found) := by
  induction entries generalizing found with
  | nil => rfl
  | cons entry entries ih =>
    obtain ⟨hhead, hrest⟩ := List.forall_mem_cons.mp hcomparable
    have hstep : scanToken token found entry =
        .ok (if entry.1 = token then some entry.2 else found) := by
      unfold scanToken
      rw [compareDigest_eq_ok hhead.1 hhead.2]
      by_cases heq : entry.1 = token
      · simp [heq, bind, Except.bind, pure, Except.pure]
      · simp [heq, bind, Except.bind, pure, Except.pure]
    rw [List.foldlM_cons, hstep, List.foldl_cons]
    exact ih hrest _

/-- One incomparable token ends the scan, wherever it stands. -/
theorem scan_eq_error {token : Str} {entries : List (Str × TenantId)} {entry : Str × TenantId}
    (hentry : entry ∈ entries) (h : ¬ (isAscii entry.1 = true ∧ isAscii token = true))
    (found : Option TenantId) :
    entries.foldlM (scanToken token) found = .error .typeError := by
  induction entries generalizing found with
  | nil => cases hentry
  | cons head entries ih =>
    rw [List.foldlM_cons]
    by_cases hhead : isAscii head.1 = true ∧ isAscii token = true
    · have hne : entry ≠ head := fun heq => h (heq ▸ hhead)
      have hmem : entry ∈ entries := (List.mem_cons.mp hentry).resolve_left hne
      have hstep : ∃ next, scanToken token found head = .ok next := by
        unfold scanToken
        rw [compareDigest_eq_ok hhead.1 hhead.2]
        by_cases heq : head.1 = token
        · exact ⟨some head.2, by simp [heq, bind, Except.bind, pure, Except.pure]⟩
        · exact ⟨found, by simp [heq, bind, Except.bind, pure, Except.pure]⟩
      obtain ⟨next, hnext⟩ := hstep
      rw [hnext]
      exact ih hmem next
    · have hstep : scanToken token found head = .error .typeError := by
        unfold scanToken
        rw [compareDigest_eq_error hhead]
        rfl
      rw [hstep]
      rfl

theorem tenantFor_eq_get? {registry : TokenRegistry} {token : Str}
    (h : registry.Comparable token) : registry.tenantFor token = .ok (registry.tokens.get? token) := by
  -- the keys of a dictionary are distinct, so the last match is the only one
  have hlast := foldl_match_eq_lookup registry.tokens.nodup token none
  rw [Option.or_none] at hlast
  unfold tenantFor
  rw [scan_eq_ok h none, hlast]
  rfl

theorem tenantFor_raises {registry : TokenRegistry} {token : Str}
    (h : ¬ registry.Comparable token) : registry.tenantFor token = .error .typeError := by
  unfold Comparable at h
  push Not at h
  obtain ⟨entry, hentry, hnot⟩ := h
  exact scan_eq_error hentry (fun hboth => hnot hboth.1 hboth.2) none

/-- A header without the prefix, or with a token, in terms of `credential`. -/
theorem authenticate_eq (registry : TokenRegistry) (authorization : Option Str) :
    authenticate registry authorization =
      match credential authorization with
      | none => .error .unauthorized
      | some token =>
        match registry.tenantFor token with
        | .error e => .error (.raised e)
        | .ok none => .error .unauthorized
        | .ok (some tenant) => .ok tenant := by
  cases authorization with
  | none => rfl
  | some header =>
    by_cases h : bearer.isPrefixOf header = true
    · simp [authenticate, credential, Option.filter, h]
    · simp [authenticate, credential, Option.filter, h]

/-- **The scan is the lookup exactly on comparable tokens**, and a route answers like the
    lookup exactly when what is presented to it, if anything, is comparable. -/
theorem scan_is_lookup_iff (registry : TokenRegistry) :
    (∀ token, registry.tenantFor token = .ok (registry.tokens.get? token) ↔
      registry.Comparable token) ∧
    (∀ authorization, authenticate registry authorization = registry.answer authorization ↔
      ∀ token, credential authorization = some token → registry.Comparable token) := by
  constructor
  · intro token
    constructor
    · intro h
      by_contra hnot
      rw [tenantFor_raises hnot] at h
      exact absurd h (by simp)
    · exact tenantFor_eq_get?
  · intro authorization
    rw [authenticate_eq]
    unfold answer
    cases credential authorization with
    | none => simp
    | some token =>
      by_cases h : registry.Comparable token
      · simp only [tenantFor_eq_get? h, Option.bind_some]
        cases registry.tokens.get? token with
        | none => simp [h]
        | some tenant => simp [h]
      · simp only [tenantFor_raises h, Option.bind_some]
        cases registry.tokens.get? token with
        | none => simp [h, RouteError.unauthorized]
        | some tenant => simp [h]

/-! ### Registries of accepted configurations -/

/-- The comprehension succeeds on visible texts. -/
theorem addTenants_eq_ok {entries : List (Str × Str)}
    (hvisible : ∀ entry ∈ entries, isBlank entry.2 = false) (tokens : Dict Str TenantId) :
    entries.foldlM addTenant tokens =
      .ok ((entries.map fun entry => (entry.1, TenantId.mk entry.2)).foldl
        (fun tokens entry => tokens.set entry.1 entry.2) tokens) := by
  induction entries generalizing tokens with
  | nil => rfl
  | cons entry entries ih =>
    obtain ⟨hhead, hrest⟩ := List.forall_mem_cons.mp hvisible
    have hstep : addTenant tokens entry = .ok (tokens.set entry.1 ⟨entry.2⟩) := by
      simp [addTenant, TextIdentifier.construct, hhead, TextIdentifier.make, require, bind,
        Except.bind, pure, Except.pure]
    rw [List.foldlM_cons, hstep, List.map_cons, List.foldl_cons]
    exact ih hrest _

/-- **A configured registry** knows each token of the configuration, with its tenant. -/
theorem fromMapping_of_parseTokens {raw : Str} {mapping : Dict Str Str}
    (h : Config.parseTokens raw = .ok mapping) :
    ∃ registry, fromMapping mapping = .ok registry ∧
      registry.tokens.entries = mapping.entries.map fun entry => (entry.1, ⟨entry.2⟩) := by
  have hvisible : ∀ entry ∈ mapping.entries, isBlank entry.2 = false := by
    intro entry hentry
    exact (Config.visible_of_parseTokens h entry.1 entry.2 (Dict.get?_eq_some.mpr hentry)).2
  refine ⟨_, by rw [fromMapping, addTenants_eq_ok hvisible]; rfl, ?_⟩
  exact Dict.entries_foldl_set_empty (by rw [List.map_map]; exact mapping.nodup)

/-- The header `Bearer é` is answered with an exception, not with 401, by a configuration
    with one ASCII token. -/
theorem foreign_credential_raises :
    ¬ ∀ raw registry, (∃ mapping, Config.parseTokens raw = .ok mapping ∧
        fromMapping mapping = .ok registry) →
      (∀ token, registry.tenantFor token = .ok (registry.tokens.get? token)) ∧
      (∀ authorization, (credential authorization).bind registry.tokens.get? = none →
        authenticate registry authorization = .error .unauthorized) := by
  intro h
  have hparse : Config.parseTokens (str "secret=acme") =
      .ok ⟨[(str "secret", str "acme")], by decide⟩ := by decide +kernel
  have hbuild : fromMapping ⟨[(str "secret", str "acme")], by decide⟩ =
      .ok ⟨⟨[(str "secret", ⟨str "acme"⟩)], by decide⟩⟩ := by decide +kernel
  have hanswer := (h _ _ ⟨_, hparse, hbuild⟩).2 (some (str "Bearer é")) (by decide +kernel)
  have hraised : authenticate ⟨⟨[(str "secret", ⟨str "acme"⟩)], by decide⟩⟩
      (some (str "Bearer é")) = .error (.raised .typeError) := by decide +kernel
  rw [hraised] at hanswer
  exact absurd hanswer (by decide)

end TokenRegistry

end IncidentEvidence
