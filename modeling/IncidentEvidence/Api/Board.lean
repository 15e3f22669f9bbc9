import IncidentEvidence.Api.Control

/-! # What clients see

    The investigations of a store as a board of tickets: whose they are, the key they were
    created under, and how far they have come. Every step of the control plane and its
    workers, over either unit of work, is a step of the board, and a creation answered
    with 202 is a submission answered with the id in the response
    (`control_refines_tickets`).
-/

namespace IncidentEvidence

open Py Py.Action Runs Tickets

/-! ### The board of a store -/

/-- How far an investigation has come. In the tables of a run, one that succeeded has a report
    and none is cancelled. -/
def InvestigationStatus.progress : InvestigationStatus → Option ReportRecord →
    Progress ReportRecord
  | .pending, _ => .pending
  | .running, _ => .running
  | .succeeded, some report => .succeeded report
  | .succeeded, none | .failed, _ | .cancelled, _ => .failed

/-- The tickets of a store. -/
abbrev ClientBoard := Board InvestigationId TenantId Str ReportRecord

def ticketOf (S : Store) (i : InvestigationRecord) : Ticket TenantId Str ReportRecord where
  owner := i.tenant
  key := i.idempotencyKey.map Subtype.val
  progress := i.status.progress (S.reports.get? i.investigationId.value)

def Store.board (S : Store) : ClientBoard :=
  fun id => (S.investigations.get? id.value).map (ticketOf S)

theorem board_eq_some {S : Store} {id : InvestigationId} {t : Ticket TenantId Str ReportRecord} :
    S.board id = some t ↔ ∃ i, S.investigations.get? id.value = some i ∧ ticketOf S i = t := by
  unfold Store.board
  rw [Option.map_eq_some_iff]

/-- Rows that agree are the same ticket. -/
theorem board_congr {S T : Store} {id : InvestigationId}
    (hinvestigation : T.investigations.get? id.value = S.investigations.get? id.value)
    (hreport : ∀ i, S.investigations.get? id.value = some i →
      T.reports.get? i.investigationId.value = S.reports.get? i.investigationId.value) :
    T.board id = S.board id := by
  unfold Store.board
  rw [hinvestigation]
  cases hi : S.investigations.get? id.value with
  | none => rfl
  | some i =>
    rw [Option.map_some, Option.map_some]
    unfold ticketOf
    rw [hreport i hi]

/-! ### Steps of the tables -/

section steps
variable {F : Type} {S T : Tracked F} {drawn ids : List UUID} {call : CreateCall}
  {id : InvestigationId}

/-- **A creation is a submission.** -/
theorem board_created (hlife : Lifecycle S.store drawn)
    (h : CreateInvestigation.Effect call S id T ids) :
    Tickets.Step S.store.board (.submit call.command.tenant call.command.idempotencyKey id)
      T.store.board := by
  cases h with
  | replayed record existing hrecord hkey =>
    obtain ⟨hcommand, hr⟩ := CreateInvestigation.investigationRecord_eq_ok.mp hrecord
    have htenant : record.tenant = call.command.tenant := by rw [hr]
    unfold InvestigationRepository.byKey at hkey
    cases hrecordKey : record.idempotencyKey with
    | none =>
      rw [hrecordKey] at hkey
      cases hkey
    | some key =>
      rw [hrecordKey] at hkey hcommand
      have hfind : (S.store.investigations.values.find? fun r =>
          decide (r.tenant = record.tenant ∧ r.idempotencyKey = some key)) = some existing := hkey
      have hmem := List.mem_of_find?_eq_some hfind
      have hfound : existing.tenant = record.tenant ∧ existing.idempotencyKey = some key :=
        of_decide_eq_true (List.find?_some (p := fun r : InvestigationRecord =>
          decide (r.tenant = record.tenant ∧ r.idempotencyKey = some key)) hfind)
      have hticket : S.store.board existing.investigationId = some (ticketOf S.store existing) :=
        board_eq_some.mpr ⟨existing, hlife.investigationsKeyed.get?_of_mem hmem, rfl⟩
      have howner : call.command.tenant = (ticketOf S.store existing).owner := by
        rw [← htenant]
        exact hfound.1.symm
      have hkeys : call.command.idempotencyKey = (ticketOf S.store existing).key := by
        rw [hcommand]
        show some key.1 = existing.idempotencyKey.map Subtype.val
        rw [hfound.2]
        rfl
      rw [howner, hkeys]
      refine .replayed _ _ _ hticket ?_
      rw [← hkeys, hcommand]
      rfl
  | created record job hrecord hjob hkey hnew hnewJob =>
    obtain ⟨hcommand, hr⟩ := CreateInvestigation.investigationRecord_eq_ok.mp hrecord
    have hid : record.investigationId = call.investigationId := by rw [hr]
    have htenant : record.tenant = call.command.tenant := by rw [hr]
    rw [hid] at hnew
    -- the board has one more ticket
    have hboard : (S.withStore (CreateInvestigation.createdStore S.store record job
        call.event)).store.board = Function.update S.store.board call.investigationId
          (some ⟨call.command.tenant, call.command.idempotencyKey, .pending⟩) := by
      funext id'
      by_cases hid' : id' = call.investigationId
      · rw [hid', Function.update_self]
        apply board_eq_some.mpr
        refine ⟨record, ?_, ?_⟩
        · rw [← hid]
          exact Dict.get?_set_self _ _ _
        · rw [hcommand, ← htenant]
          unfold ticketOf
          rw [show record.status = .pending by rw [hr]]
          rfl
      · rw [Function.update_of_ne hid']
        apply board_congr
        · apply Dict.get?_set_ne
          rw [hid]
          exact fun heq => hid' (InvestigationId.ext heq)
        · intro i hi
          rfl
    rw [hboard]
    refine .opened _ _ _ _ ?_ ?_
    · unfold Store.board
      rw [hnew]
      rfl
    · intro id' t k ht hk howner htkey
      obtain ⟨i, hi, rfl⟩ := board_eq_some.mp ht
      -- the search for the key would have found it
      cases hrecordKey : record.idempotencyKey with
      | none =>
        rw [hrecordKey, hk] at hcommand
        cases hcommand
      | some key =>
        rw [hrecordKey, hk] at hcommand
        rw [hrecordKey] at hkey
        have hnot := List.find?_eq_none.mp hkey i (Dict.mem_values.mpr ⟨_, hi⟩)
        apply hnot
        have hkeyed : i.idempotencyKey.map Subtype.val = some key.1 :=
          htkey.trans hcommand
        have hsame : i.idempotencyKey = some key := by
          cases hikey : i.idempotencyKey with
          | none =>
            rw [hikey] at hkeyed
            cases hkeyed
          | some key' =>
            rw [hikey] at hkeyed
            rw [Subtype.ext (Option.some.inj hkeyed)]
        exact decide_eq_true ⟨howner.trans htenant.symm, hsame⟩

/-- An investigation whose job has been attempted is not pending. -/
theorem Phase.progress_ne_pending {i : InvestigationStatus} {j : JobStatus} {n : ℕ}
    {report : Option ReportRecord} (h : Phase i j (n + 1) report) : i.progress report ≠ .pending := by
  cases h with
  | waiting => simp [InvestigationStatus.progress]
  | succeeded => simp [InvestigationStatus.progress]
  | failed => simp [InvestigationStatus.progress]

/-- An attempt changes one ticket, and in it the progress alone. -/
theorem board_of_advance {j j' : JobRecord} {i i' : InvestigationRecord} {a : AttemptRecord}
    (hlife : Lifecycle S.store drawn) (h : Advance S.store T.store j j' i i' a)
    (hkey : i'.idempotencyKey = i.idempotencyKey) :
    S.store.board j.investigationId = some (ticketOf S.store i) ∧
      T.store.board = Function.update S.store.board j.investigationId
        (some { ticketOf S.store i with
          progress := i'.status.progress (T.store.reports.get? j.investigationId.value) }) := by
  obtain ⟨-, hinvestigations, hreports, -⟩ := h.other
  have hid : j.investigationId = i.investigationId :=
    InvestigationId.ext (hlife.investigationsKeyed _ _ h.investigation)
  refine ⟨board_eq_some.mpr ⟨i, h.investigation, rfl⟩, ?_⟩
  funext id
  by_cases hcase : id = j.investigationId
  · rw [hcase, Function.update_self]
    apply board_eq_some.mpr
    refine ⟨i', by rw [h.investigations, Dict.get?_set_self], ?_⟩
    unfold ticketOf
    rw [h.sameInvestigation.1, h.sameInvestigation.2, hkey, hid]
  · rw [Function.update_of_ne hcase]
    have hne : id.value ≠ j.investigationId.value := fun heq => hcase (InvestigationId.ext heq)
    apply board_congr (hinvestigations _ hne)
    intro x hx
    apply hreports
    have hkeyed : id.value = x.investigationId.value := hlife.investigationsKeyed _ _ hx
    rw [← hkeyed]
    exact hne

/-- **An attempt moves a ticket forward.** -/
theorem board_advanced {j j' : JobRecord} {i i' : InvestigationRecord} {a : AttemptRecord}
    (hlife : Lifecycle S.store drawn) (h : Advance S.store T.store j j' i i' a)
    (hkey : i'.idempotencyKey = i.idempotencyKey) :
    Tickets.Step S.store.board .work T.store.board := by
  obtain ⟨i₀, hi₀, -, hphase⟩ := hlife.phase _ _ h.job
  rw [h.investigation] at hi₀
  obtain rfl := Option.some.inj hi₀
  have hid : j.investigationId = i.investigationId :=
    InvestigationId.ext (hlife.investigationsKeyed _ _ h.investigation)
  obtain ⟨hticket, hboard⟩ := board_of_advance hlife h hkey
  rw [hboard]
  refine .advanced _ _ _ _ hticket ?_
  show i.status.progress (S.store.reports.get? i.investigationId.value) ≤ _
  rw [← hid]
  rw [h.queued] at hphase
  have hnext := h.phase
  rw [h.count] at hnext
  -- the job was queued, so the investigation was pending or running
  generalize S.store.reports.get? j.investigationId.value = report, i.status = status,
    j.attemptCount = count at hphase
  cases hphase with
  | pending => exact Progress.pending_le _
  | waiting => exact Progress.running_le hnext.progress_ne_pending

variable [PyFloat F] [FloatHex F] [Sha256] {w : Worker F} {env : Environment F}

/-- A call of the worker keeps the keys. -/
theorem key_of_effect (hkeyed : S.store.investigations.Keyed fun r => r.investigationId.value)
    {r : Bool} (h : w.Effect env S r T ids) {k : UUID} {i i' : InvestigationRecord}
    (hi : S.store.investigations.get? k = some i) (hi' : T.store.investigations.get? k = some i') :
    i'.idempotencyKey = i.idempotencyKey := by
  -- a call writes one row at most, and its key stays
  have hsame : ∀ {k₀ : UUID} {x y : InvestigationRecord}, S.store.investigations.get? k₀ = some x →
      y.idempotencyKey = x.idempotencyKey →
      T.store.investigations = S.store.investigations.set k₀ y →
      i'.idempotencyKey = i.idempotencyKey := by
    intro k₀ x y hx hkey hset
    rw [hset] at hi'
    by_cases hk : k = k₀
    · rw [hk, Dict.get?_set_self] at hi'
      rw [hk, hx] at hi
      obtain rfl := Option.some.inj hi
      obtain rfl := Option.some.inj hi'
      exact hkey
    · rw [Dict.get?_set_ne _ _ hk, hi] at hi'
      rw [Option.some.inj hi']
  cases h with
  | idle hnone =>
    rw [hi] at hi'
    rw [Option.some.inj hi']
  | orphaned c t hnone =>
    rw [show S.store.investigations.get? k = some i' from hi'] at hi
    rw [Option.some.inj hi]
  | cancelled c investigation t hfind hstatus =>
    rw [show S.store.investigations.get? k = some i' from hi'] at hi
    rw [Option.some.inj hi]
  | succeeded c investigation p rows report t t' hfind =>
    obtain ⟨hget, -⟩ := InvestigationRepository.find?_eq_some.mp hfind
    refine hsame (y := investigation.withStatus .succeeded t) hget rfl ?_
    rw [show c.job.investigationId.value = investigation.investigationId.value from
      hkeyed _ _ hget]
    rfl
  | failed c investigation e n store code t t' hfind hstatus hends =>
    obtain ⟨hget, -⟩ := InvestigationRepository.find?_eq_some.mp hfind
    refine hsame (y := investigation.withStatus .failed t) hget rfl ?_
    rw [← hends.same.1]
    rfl
  | retried c investigation code t t' hfind =>
    obtain ⟨hget, -⟩ := InvestigationRepository.find?_eq_some.mp hfind
    exact hsame (y := investigation.withStatus .running t) hget rfl rfl

/-- **A call of the worker** changes nothing, or it is an attempt of the job it claims and keeps
    the key of the investigation. -/
theorem attempt_of_effect (hlife : Lifecycle S.store drawn) {r : Bool} (h : w.Effect env S r T ids) :
    T = S ∨ ∃ (c : Claim w env S.store) (j' : JobRecord) (i i' : InvestigationRecord)
      (a : AttemptRecord), Advance S.store T.store c.job j' i i' a ∧
      i'.idempotencyKey = i.idempotencyKey := by
  cases r with
  | false => exact Or.inl (eq_of_effect_false h)
  | true =>
    right
    obtain ⟨c, j', i, i', a, hadvance, -⟩ := advance_of_effect hlife h
    refine ⟨c, j', i, i', a, hadvance, ?_⟩
    refine key_of_effect hlife.investigationsKeyed h hadvance.investigation ?_
    rw [hadvance.investigations, Dict.get?_set_self]

/-- A call of the worker is work. -/
theorem board_ran (hlife : Lifecycle S.store drawn) {r : Bool} (h : w.Effect env S r T ids) :
    Tickets.Step S.store.board .work T.store.board := by
  rcases attempt_of_effect hlife h with rfl | ⟨c, j', i, i', a, hadvance, hkey⟩
  · exact .idle _
  · exact board_advanced hlife hadvance hkey

end steps

/-! ### Events -/

section events
variable {F : Type} [PyFloat F] [FloatHex F] [Sha256] [HexInt] {app : ControlPlane}
  {backend : Backend} {s s' : Service F} {event : ControlPlane.Event F}

/-- The board an event is an act of: a creation answered with 202 submits, and nobody sees
    the rest. -/
inductive ControlPlane.Event.Shows (app : ControlPlane) : ControlPlane.Event F →
    Act InvestigationId TenantId Str → Prop where
  | accepted (authorization key : Option Str) (body : Body) (draws : Draws) (env : Surroundings)
      (tenant : TenantId) (id : InvestigationId)
      (htenant : authenticate app.tokens authorization = .ok tenant) :
      Shows app (.http (.create authorization key body) draws env (.ok ⟨202, acceptedBody id⟩))
        (.submit tenant key id)
  | silent (event : ControlPlane.Event F)
      (h : ∀ request draws env response, event = .http request draws env (.ok response) →
        response.status ≠ 202) : Shows app event .work

omit [FloatHex F] [Sha256] [HexInt] [PyFloat F] in
/-- How a creation ends, over either unit of work. -/
theorem execute_cases {S : Tracked F} {call : CreateCall} {env : Surroundings} {drawn : List UUID}
    (hlife : Lifecycle S.store drawn) (hfresh : call.investigationId.value ∉ drawn) :
    Wp (CreateInvestigation.execute backend env call) (Session.start S)
      (fun id s' => CreateInvestigation.Effect call S id s'.shared s'.drawn)
      (fun _ s' => s'.shared = S) := by
  have hnew : S.store.investigations.get? call.investigationId.value = none := by
    cases hget : S.store.investigations.get? call.investigationId.value with
    | none => rfl
    | some r => exact absurd (hlife.investigationsDrawn _ _ hget) hfresh
  have hmemory : Wp (CreateInvestigation.execute .memory env call) (Session.start S)
      (fun id s' => CreateInvestigation.Effect call S id s'.shared s'.drawn)
      (fun _ s' => s'.shared = S) := execute_effect hlife.investigationsKeyed hnew
  cases backend with
  | memory => exact hmemory
  | postgres =>
    rcases execute_refines call S with hsame | ⟨hshared, e, he⟩
    · unfold Wp at hmemory ⊢
      rw [hsame]
      exact hmemory
    · unfold Wp
      rcases hexec : (CreateInvestigation.execute .postgres env call).exec (Session.start S) with
        ⟨v, t⟩
      rw [hexec] at hshared he
      obtain rfl : v = .error e := he
      exact hshared

/-- A creation that passes the checks is answered with its id and has committed, or it has
    raised and committed nothing. -/
theorem created_cases (hlife : Lifecycle s.committed.store s.drawn)
    {authorization key : Option Str} {body : Body} {draws : Draws} {env : Surroundings}
    {answer : Except PyException Response} {command : CreateInvestigationCommand}
    (h : app.step backend s (.http (.create authorization key body) draws env answer) s')
    (hcommand : app.command authorization key body = .ok command) :
    (∃ id ids, answer = .ok ⟨202, acceptedBody id⟩ ∧
      CreateInvestigation.Effect (draws.call command) s.committed id s'.committed ids) ∨
    ∃ e, answer = exceptionHandler (.raised e) ∧ s'.committed = s.committed := by
  obtain ⟨hanswer, hfresh, -, hs'⟩ := h
  have hanswer : answer = ((app.respond backend env draws (.create authorization key body)).exec
      (Session.start s.committed)).1 := hanswer
  have hshared : s'.committed = ((app.respond backend env draws (.create authorization key body)).exec
      (Session.start s.committed)).2.shared := by
    rw [hs']
    rfl
  have hnew : (draws.call command).investigationId.value ∉ s.drawn :=
    hfresh (.create (draws.call command) env)
      (by simp [ControlPlane.Event.call?, ControlPlane.creation, hcommand])
  have hcases : Wp (CreateInvestigation.execute backend env (draws.call command))
      (Session.start s.committed)
      (fun id s'' => CreateInvestigation.Effect (draws.call command) s.committed id s''.shared s''.drawn)
      (fun _ s'' => s''.shared = s.committed) := execute_cases hlife hnew
  unfold Wp at hcases
  rw [respond_created hcommand] at hanswer hshared
  rcases hexec : (CreateInvestigation.execute backend env (draws.call command)).exec
    (Session.start s.committed) with ⟨v, t⟩
  rw [hexec] at hcases hanswer hshared
  cases v with
  | ok id =>
    left
    rw [hshared]
    exact ⟨id, t.drawn, hanswer, hcases⟩
  | error e => exact Or.inr ⟨e, hanswer, hshared.trans hcases⟩

variable [LawfulPyFloat F]

omit [HexInt] in
/-- What a call of the worker commits, over either unit of work. -/
theorem effect_of_serviceStep {worker : Worker F} {env : Environment F}
    (hlife : Lifecycle s.committed.store s.drawn)
    (h : backend.serviceStep s (.runOnce worker env) s') :
    s'.committed = s.committed ∨ ∃ r ids, worker.Effect env s.committed r s'.committed ids := by
  have hmemory : ∀ {s' : Service F}, Service.step s (.runOnce worker env) s' →
      s'.committed = s.committed ∨ ∃ r ids, worker.Effect env s.committed r s'.committed ids := by
    intro s' hstep
    obtain ⟨ids, -, -, hcommits⟩ :=
      commits_of_step hlife.investigationsKeyed hlife.investigationsDrawn hstep
    generalize s'.committed = T at hcommits
    cases hcommits with
    | nothing => exact Or.inl rfl
    | ran worker env r _ ids heffect => exact Or.inr ⟨r, ids, heffect⟩
  cases backend with
  | memory => exact hmemory h
  | postgres =>
    obtain ⟨hfresh, hnodup, rfl⟩ := h
    rcases postgresSession_cases s.committed (.runOnce worker env) with hsame | hshared
    · rw [hsame] at hnodup ⊢
      exact hmemory ⟨hfresh, hnodup, rfl⟩
    · exact Or.inl hshared

omit [HexInt] in
theorem board_serviceStep {worker : Worker F} {env : Environment F}
    (hlife : Lifecycle s.committed.store s.drawn)
    (h : backend.serviceStep s (.runOnce worker env) s') :
    Tickets.Step s.committed.store.board .work s'.committed.store.board := by
  rcases effect_of_serviceStep hlife h with hsame | ⟨r, ids, heffect⟩
  · rw [hsame]
    exact .idle _
  · exact board_ran hlife heffect

/-- **A step of the control plane is a step of the board.** -/
theorem control_shows (hlife : Lifecycle s.committed.store s.drawn)
    (h : app.step backend s event s') :
    ∃ act, event.Shows app act ∧
      Tickets.Step s.committed.store.board act s'.committed.store.board := by
  cases event with
  | runOnce worker env =>
    rcases control_step_cases h with ⟨hnone, -⟩ | ⟨c, hc, hservice⟩
    · cases hnone
    · obtain rfl := Option.some.inj hc
      exact ⟨.work, .silent _ (by rintro _ _ _ _ ⟨⟩), board_serviceStep hlife hservice⟩
  | http request draws env answer =>
    have hanswer : answer =
        ((app.respond backend env draws request).exec (Session.start s.committed)).1 := h.1
    -- a request that does not reach the use case changes nothing
    have hsilent : app.creation draws request = none →
        (∀ response, answer = .ok response → response.status ≠ 202) →
        ∃ act, ControlPlane.Event.Shows (F := F) app (.http request draws env answer) act ∧
          Tickets.Step s.committed.store.board act s'.committed.store.board := by
      intro hnone hstatus
      refine ⟨.work, .silent _ ?_, ?_⟩
      · rintro _ _ _ response heq
        exact hstatus response (ControlPlane.Event.http.inj heq).2.2.2
      · rcases control_step_cases h with ⟨-, rfl⟩ | ⟨c, hc, -⟩
        · exact .idle _
        · rw [show (ControlPlane.Event.http request draws env answer : ControlPlane.Event F).call? app =
            (app.creation draws request).map fun call => .create call env from rfl, hnone] at hc
          cases hc
    cases request with
    | health | status | report =>
      refine hsilent rfl fun response hresponse => ?_
      rw [hanswer] at hresponse
      exact read_ne_accepted (by rintro _ _ _ ⟨⟩) hresponse
    | create authorization key body =>
      cases hcommand : app.command authorization key body with
      | error e =>
        refine hsilent (by simp [ControlPlane.creation, hcommand]) fun response hresponse => ?_
        rw [hanswer, respond_refused hcommand] at hresponse
        exact handled_ne_accepted (command_refused hcommand).ne_accepted hresponse
      | ok command =>
        obtain ⟨htenant, hkey⟩ := command_eq_ok hcommand
        rcases created_cases hlife h hcommand with ⟨id, ids, haccepted, heffect⟩ | ⟨e, hraised, hsame⟩
        · rw [haccepted, ← hkey]
          refine ⟨.submit command.tenant command.idempotencyKey id, ?_, board_created hlife heffect⟩
          exact .accepted authorization command.idempotencyKey body draws env command.tenant id htenant
        · refine ⟨.work, .silent _ ?_, ?_⟩
          · rintro _ _ _ response heq
            have heq := (ControlPlane.Event.http.inj heq).2.2.2
            rw [hraised] at heq
            exact handled_ne_accepted (by rintro _ ⟨⟩) heq
          · rw [hsame]
            exact .idle _

/-- A run of the control plane from tables of a run. -/
theorem control_run_shows {events : List (ControlPlane.Event F)}
    (hreachable : Reachable (app.system backend) s) (hrun : Run (app.system backend) s events s') :
    ∃ acts, List.Forall₂ (ControlPlane.Event.Shows app) events acts ∧
      Run (Tickets.system InvestigationId TenantId Str ReportRecord) s.committed.store.board acts
        s'.committed.store.board := by
  induction hrun with
  | nil => exact ⟨[], .nil, .nil _⟩
  | @cons s t u event events hstep _ ih =>
    obtain ⟨act, hshows, hact⟩ := control_shows (ControlPlane.lifecycle hreachable) hstep
    obtain ⟨acts, hall, hacts⟩ := ih (hreachable.step hstep)
    exact ⟨act :: acts, .cons hshows hall, .cons hact hacts⟩

/-- **The control plane refines the board of tickets.** Whatever requests, calls of workers,
    cancellations and refused statements a run consists of, and over either unit of work:
    event by event it is a run of the board, in which each creation that was answered with
    202 submits for its tenant and key and gets the id in the response. -/
theorem control_refines_tickets {events : List (ControlPlane.Event F)}
    (hrun : Run (app.system backend) ⟨Tracked.empty, []⟩ events s) :
    ∃ acts, List.Forall₂ (ControlPlane.Event.Shows app) events acts ∧
      Run (Tickets.system InvestigationId TenantId Str ReportRecord) (fun _ => none) acts
        s.committed.store.board :=
  control_run_shows ⟨_, [], rfl, .nil _⟩ hrun

end events

open Demo in
theorem control_refines_tickets_demo :
    ∃ acts, List.Forall₂ (ControlPlane.Event.Shows app) [creation, .runOnce worker noTelemetry] acts ∧
      Run (Tickets.system InvestigationId TenantId Str ReportRecord) (fun _ => none) acts
        failedService.committed.store.board :=
  control_refines_tickets control_run

end IncidentEvidence
