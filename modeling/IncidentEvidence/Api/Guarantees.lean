import IncidentEvidence.Api.Clients

/-! # What a client is promised

    1. Requests of others, and the work on their jobs, change nothing of what a tenant reads
       (`strangers_unseen`).
    2. What is accepted is finished: once creations stop and a worker keeps calling
       `run_once`, the status of an accepted investigation is an outcome, and stays
       (`accepted_finishes`).
-/

namespace IncidentEvidence

open Py Py.Action Runs Tickets

/-! ### Strangers -/

/-- An event at tables `S` that is no act of the tenant's: a request that is no creation by the
    tenant, or a call of a worker whose next job is not the tenant's. -/
def ControlPlane.Event.Foreign {F : Type} [PyFloat F] (app : ControlPlane) (tenant : TenantId)
    (S : Store) : ControlPlane.Event F → Prop
  | .http (.create authorization _ _) _ _ _ => authenticate app.tokens authorization ≠ .ok tenant
  | .http _ _ _ _ => True
  | .runOnce _ env => ∀ job rest, JobQueue.eligible S (env.clock 0) = job :: rest → job.tenant ≠ tenant

/-- The control plane while the tenant submits nothing and no job of the tenant's is worked on. -/
def ControlPlane.strangers {F : Type} [PyFloat F] [FloatHex F] [Sha256] [HexInt] (app : ControlPlane)
    (backend : Backend) (tenant : TenantId) : System (Service F) (ControlPlane.Event F) where
  init := Reachable (app.system backend)
  step s event s' := app.step backend s event s' ∧ event.Foreign app tenant s.committed.store

/-- A submission of another owner. -/
theorem progress_of_submission {S T : Store} {tenant other : TenantId} {key : Option Str}
    {id : InvestigationId} (hne : other ≠ tenant)
    (h : Tickets.Step S.board (.submit other key id) T.board) (id' : InvestigationId) :
    T.progress tenant id' = S.progress tenant id' := by
  unfold Store.progress
  rw [Tickets.Step.others h hne]

section strangers
variable {F : Type} [PyFloat F] [FloatHex F] [Sha256] [HexInt] [LawfulPyFloat F]
  {app : ControlPlane} {backend : Backend} {s s' : Service F} {event : ControlPlane.Event F}
  {events : List (ControlPlane.Event F)} {tenant : TenantId}

omit [PyFloat F] [FloatHex F] [Sha256] [HexInt] [LawfulPyFloat F] in
/-- An attempt of a job of another tenant. -/
theorem progress_of_advance {S T : Tracked F} {drawn : List UUID} {j j' : JobRecord}
    {i i' : InvestigationRecord} {a : AttemptRecord} (hlife : Lifecycle S.store drawn)
    (h : Advance S.store T.store j j' i i' a) (hkey : i'.idempotencyKey = i.idempotencyKey)
    (hne : j.tenant ≠ tenant) (id : InvestigationId) :
    T.store.progress tenant id = S.store.progress tenant id := by
  obtain ⟨i₀, hi₀, htenant, -⟩ := hlife.phase _ _ h.job
  rw [h.investigation] at hi₀
  obtain rfl := Option.some.inj hi₀
  have howner : (ticketOf S.store i).owner ≠ tenant := by
    show i.tenant ≠ tenant
    rw [htenant]
    exact hne
  obtain ⟨hticket, hboard⟩ := board_of_advance hlife h hkey
  unfold Store.progress
  rw [hboard]
  by_cases hid : id = j.investigationId
  · -- the ticket that changes is not the tenant's, before or after
    rw [hid, Function.update_self, hticket, Option.filter_some, Option.filter_some,
      if_neg (by simpa using howner),
      if_neg (by simpa using howner)]
  · rw [Function.update_of_ne hid]

/-- **A step that is no act of the tenant's** keeps how far the tenant's investigations are. -/
theorem progress_of_foreign (hlife : Lifecycle s.committed.store s.drawn)
    (h : app.step backend s event s') (hforeign : event.Foreign app tenant s.committed.store)
    (id : InvestigationId) :
    s'.committed.store.progress tenant id = s.committed.store.progress tenant id := by
  cases event with
  | runOnce worker env =>
    rcases control_step_cases h with ⟨hnone, -⟩ | ⟨c, hc, hservice⟩
    · cases hnone
    · obtain rfl := Option.some.inj hc
      rcases effect_of_serviceStep hlife hservice with hsame | ⟨r, ids, heffect⟩
      · rw [hsame]
      · rcases attempt_of_effect hlife heffect with hsame | ⟨c, j', i, i', a, hadvance, hkey⟩
        · rw [hsame]
        · exact progress_of_advance hlife hadvance hkey (hforeign c.job c.rest c.first) id
  | http request draws env answer =>
    -- a request without a creation changes nothing
    have hsilent : app.creation draws request = none → s' = s := by
      intro hnone
      rcases control_step_cases h with ⟨-, hsame⟩ | ⟨c, hc, -⟩
      · exact hsame
      · rw [show (ControlPlane.Event.http request draws env answer : ControlPlane.Event F).call? app =
          (app.creation draws request).map fun call => .create call env from rfl, hnone] at hc
        cases hc
    cases request with
    | health | status | report => rw [hsilent rfl]
    | create authorization key body =>
      cases hcommand : app.command authorization key body with
      | error e => rw [hsilent (by simp [ControlPlane.creation, hcommand])]
      | ok command =>
        rcases created_cases hlife h hcommand with ⟨id', ids, -, heffect⟩ | ⟨e, -, hsame⟩
        · refine progress_of_submission ?_ (board_created hlife heffect) id
          rintro rfl
          exact hforeign (command_eq_ok hcommand).1
        · rw [hsame]

/-- A run of strangers is one of the control plane, and keeps it all along. -/
theorem progress_of_strangers (hreachable : Reachable (app.system backend) s)
    (hrun : Run (app.strangers backend tenant) s events s') :
    Run (app.system backend) s events s' ∧ ∀ id,
      s'.committed.store.progress tenant id = s.committed.store.progress tenant id := by
  induction hrun with
  | nil => exact ⟨.nil _, fun _ => rfl⟩
  | cons hstep _ ih =>
    obtain ⟨hone, hforeign⟩ := hstep
    obtain ⟨hrest, hsame⟩ := ih (hreachable.step hone)
    refine ⟨.cons hone hrest, fun id => ?_⟩
    rw [hsame id]
    exact progress_of_foreign (ControlPlane.lifecycle hreachable) hone hforeign id

/-- **Strangers are not seen.** Whatever requests others make, whatever the workers do for them, and
    whatever the tenant itself reads, over either unit of work: every read of the tenant that
    nothing disturbs is answered as before. -/
theorem strangers_unseen (hreachable : Reachable (app.system backend) s)
    (hrun : Run (app.strangers backend tenant) s events s') {env : Surroundings} (hcalm : env.Calm)
    {authorization : Option Str} (htenant : authenticate app.tokens authorization = .ok tenant)
    (draws : Draws) (raw : Str) :
    app.reply backend env draws s' (.status authorization raw) =
        app.reply backend env draws s (.status authorization raw) ∧
      app.reply backend env draws s' (.report authorization raw) =
        app.reply backend env draws s (.report authorization raw) := by
  obtain ⟨hrunSystem, hprogress⟩ := progress_of_strangers hreachable hrun
  have hlife := ControlPlane.lifecycle hreachable
  have hlife' := ControlPlane.lifecycle (hreachable.run hrunSystem)
  cases hid : UUID.ofText raw with
  | some value =>
    have hsame := hprogress ⟨value⟩
    constructor
    · rw [(replies_of_id hlife hcalm htenant hid).1, (replies_of_id hlife' hcalm htenant hid).1, hsame]
    · rw [(replies_of_id hlife hcalm htenant hid).2, (replies_of_id hlife' hcalm htenant hid).2, hsame]
  | none =>
    -- a text that is no id is refused before the tables are looked at
    have hlookup : app.lookup authorization raw =
        .error (.http 404 (str "investigation_not_found")) := by
      unfold ControlPlane.lookup investigationIdOf
      rw [htenant, hid]
      rfl
    unfold ControlPlane.reply
    rw [respond_status hcalm, respond_status hcalm, respond_report hcalm, respond_report hcalm]
    unfold ControlPlane.statusAnswer ControlPlane.reportAnswer
    rw [hlookup]
    exact ⟨rfl, rfl⟩

end strangers

namespace Demo

/-- The same creation by the other tenant, whose job comes first. -/
def strange : ControlPlane.Event ExactFloat :=
  .http (.create (some (str "Bearer hidden")) (some (str "key")) body)
    ⟨⟨⟨2, UUID.two_lt⟩⟩, ⟨⟨0, UUID.zero_lt⟩⟩, ⟨0, Datetime.zero_lt⟩⟩ calm
    (.ok ⟨202, acceptedBody ⟨⟨2, UUID.two_lt⟩⟩⟩)

/-- The service after it. -/
def sharedService : Service ExactFloat :=
  let other := ControlPlane.Event.session app .memory createdService.committed strange
  ⟨other.shared, createdService.drawn ++ other.drawn⟩

theorem strange_step : app.step .memory createdService strange sharedService := by
  have hcommand : app.command (some (str "Bearer hidden")) (some (str "key")) body =
      .ok { (createCall true).command with tenant := ⟨str "stranger"⟩ } := by decide +kernel
  refine ⟨?_, ?_, by decide +kernel, rfl⟩
  · show _ = ((app.respond .memory calm _ _).exec (Session.start createdService.committed)).1
    rw [respond_created hcommand]
    rfl
  · intro call hcall
    unfold strange ControlPlane.Event.call? at hcall
    simp only [ControlPlane.creation, hcommand, Option.map_some, Option.some.injEq] at hcall
    obtain rfl := hcall
    show _ ∉ createdService.drawn
    decide +kernel

/-- The service after the worker's call on the stranger's job. -/
def workedService : Service ExactFloat :=
  let session := ControlPlane.Event.session app .memory sharedService.committed
    (.runOnce worker noTelemetry)
  ⟨session.shared, sharedService.drawn ++ session.drawn⟩

theorem worked_step : app.step .memory sharedService (.runOnce worker noTelemetry) workedService := by
  refine ⟨trivial, ?_, by decide +kernel, rfl⟩
  intro call hcall
  obtain rfl := Option.some.inj hcall
  trivial

/-- Both are no acts of the first tenant's. -/
theorem strangers_run : Run (app.strangers .memory ⟨str "tenant"⟩) createdService
    [strange, .runOnce worker noTelemetry] workedService := by
  refine .cons ⟨strange_step, ?_⟩ (.single ⟨worked_step, ?_⟩)
  · show authenticate app.tokens (some (str "Bearer hidden")) ≠ _
    decide +kernel
  · intro job rest hfirst
    have hhead : ((JobQueue.eligible sharedService.committed.store (calm.clock 0)).head?.map
        (·.tenant)) = some ⟨str "stranger"⟩ := by decide +kernel
    have hjob : some job.tenant = some ⟨str "stranger"⟩ := by
      rw [← hhead]
      exact (congrArg (fun jobs => jobs.head?.map (·.tenant)) hfirst).symm
    rw [Option.some.inj hjob]
    decide +kernel

end Demo

open Demo in
/-- The first tenant is answered as before, while the stranger's investigation has failed. -/
theorem strangers_unseen_demo :
    app.reply .memory calm draws workedService (.status header (UUID.str ⟨1, by decide⟩)) =
        app.reply .memory calm draws createdService (.status header (UUID.str ⟨1, by decide⟩)) ∧
      (workedService.committed.store.investigations.get? ⟨2, by decide⟩).map (fun i => (i.tenant, i.status)) =
        some (⟨str "stranger"⟩, .failed) :=
  ⟨(strangers_unseen created_reachable strangers_run calm_calm header_tenant draws _).1, by decide +kernel⟩

/-! ### Outcomes -/

section outcomes
variable {F : Type} [PyFloat F] [FloatHex F] [Sha256] [HexInt] [LawfulPyFloat F] [LawfulHexInt]
  {app : ControlPlane} {backend : Backend} {s s₁ s₂ : Service F}
  {events : List (ControlPlane.Event F)} {w : Worker F} {calls : ℕ → Environment F}

omit [PyFloat F] [FloatHex F] [Sha256] [HexInt] [LawfulPyFloat F] [LawfulHexInt] in
/-- When every job has ended, every ticket is final. -/
theorem final_of_ended {S : Store} {drawn : List UUID} (hlife : Lifecycle S drawn)
    (hended : ∀ j ∈ S.jobs.values, j.status = .succeeded ∨ j.status = .failed)
    {id : InvestigationId} {t : Ticket TenantId Str ReportRecord} (h : S.board id = some t) :
    t.progress.Final := by
  obtain ⟨i, hi, rfl⟩ := board_eq_some.mp h
  obtain ⟨k, j, hj, hji⟩ := hlife.job _ _ hi
  obtain ⟨i', hi', -, hphase⟩ := hlife.phase k j hj
  have hid : i.investigationId = id := InvestigationId.ext (hlife.investigationsKeyed _ _ hi).symm
  rw [hji, hid, hi] at hi'
  obtain rfl := Option.some.inj hi'
  rw [hji] at hphase
  show (i.status.progress (S.reports.get? i.investigationId.value)).Final
  have hstatus := hended j (Dict.mem_values.mpr ⟨k, hj⟩)
  generalize S.reports.get? i.investigationId.value = report, i.status = status,
    j.status = jobStatus, j.attemptCount = count at hphase hstatus ⊢
  cases hphase with
  | pending | waiting => simp at hstatus
  | succeeded n report => exact Or.inl ⟨report, rfl⟩
  | failed => exact Or.inr rfl

omit [LawfulHexInt] in
/-- The calls of one worker are steps of the control plane. -/
theorem drained_run (hreachable : Reachable (app.system backend) s)
    (hgranted : ∀ n, (calls n).Granted) (hcalls : w.Calls calls s) (n : ℕ) :
    Run (app.system backend) s ((List.range n).map fun k => .runOnce w (calls k))
      (w.drained calls s n) := by
  induction n with
  | zero => exact .nil s
  | succ n ih =>
    rw [List.range_succ, List.map_append]
    refine ih.append (.single ?_)
    have hlife := ControlPlane.lifecycle (hreachable.run ih)
    have hsession : (ControlPlane.Event.runOnce w (calls n)).session app backend
        (w.drained calls s n).committed =
          (Call.runOnce w (calls n)).session (w.drained calls s n).committed := by
      rw [event_session (c := .runOnce w (calls n)) rfl]
      cases backend with
      | memory => rfl
      | postgres =>
        exact granted_session hlife (show Call.Granted (.runOnce w (calls n)) from hgranted n)
    refine ⟨trivial, ?_, ?_, ?_⟩
    · intro call hcall
      obtain rfl := Option.some.inj hcall
      trivial
    · rw [hsession]
      exact hcalls.fresh (n + 1)
    · rw [hsession]
      rfl

/-- **What is accepted is finished.** Whatever happened since a creation was answered with 202: once
    no statement is refused any more and a worker keeps calling `run_once`, with clocks, ids and
    ports as `Worker.Calls` asks, the status of the investigation is an outcome after as many
    calls as attempts are left, for good. -/
theorem accepted_finishes (hreachable : Reachable (app.system backend) s)
    {authorization key : Option Str} {body : Body} {draws : Draws} {env : Surroundings} {content : Json}
    (haccepted : app.step backend s (.http (.create authorization key body) draws env
      (.ok ⟨202, content⟩)) s₁)
    (hrun : Run (app.system backend) s₁ events s₂) (hgranted : ∀ n, (calls n).Granted)
    (hcalls : w.Calls calls s₂) :
    ∃ tenant id p, ∃ n ≤ w.budget s₂.committed.store,
      authenticate app.tokens authorization = .ok tenant ∧ content = acceptedBody id ∧ p.Final ∧
      ∀ k, n ≤ k → Run (app.system backend) s₂ ((List.range k).map fun i => .runOnce w (calls i))
          (w.drained calls s₂ k) ∧
        app.Polled backend (w.drained calls s₂ k) tenant id p := by
  obtain ⟨tenant, id, htenant, hcontent, hsubmit⟩ :=
    submitted_of_accepted (ControlPlane.lifecycle hreachable) haccepted
  obtain ⟨t, ht, howner, -⟩ := Tickets.Step.submitted hsubmit
  have hreachable₁ := hreachable.step haccepted
  have hreachable₂ := hreachable₁.run hrun
  -- the calls end in the service that is mirrored
  obtain ⟨m, hm, hmirrors⟩ := ControlPlane.mirrored hreachable₂
  have hcallsM := hcalls.mirrored hmirrors
  obtain ⟨n, hn, hidle⟩ := hcallsM.ends hm
  obtain ⟨hended, hafter⟩ := hcallsM.idle hm hidle
  rw [hmirrors.committed] at hn
  have hcommitted : ∀ k, n ≤ k →
      (w.drained calls s₂ k).committed = (w.drained calls s₂ n).committed := by
    intro k hk
    rw [← (hmirrors.drained k).committed, ← (hmirrors.drained n).committed, (hafter k hk).1]
  rw [(hmirrors.drained n).committed] at hended
  -- the ticket when they have
  have hrunN := drained_run hreachable₂ hgranted hcalls n
  obtain ⟨_, -, hacts⟩ := control_run_shows hreachable₁ (hrun.append hrunN)
  obtain ⟨t', ht', howner', -, -⟩ := Tickets.Run.onward hacts id t ht
  have hlifeN := ControlPlane.lifecycle (hreachable₂.run hrunN)
  refine ⟨tenant, id, t'.progress, n, hn, htenant, hcontent, final_of_ended hlifeN hended ht', ?_⟩
  intro k hk
  have hrunK := drained_run hreachable₂ hgranted hcalls k
  refine ⟨hrunK, ?_⟩
  have htK : (w.drained calls s₂ k).committed.store.board id = some t' := by
    rw [hcommitted k hk]
    exact ht'
  have hpolled : app.Polled backend _ _ _ _ :=
    polled_of_ticket (ControlPlane.lifecycle (hreachable₂.run hrunK)) htK
  rw [howner', howner] at hpolled
  exact hpolled

end outcomes

open Demo in
/-- A worker without telemetry finishes the investigation of the demonstration. -/
theorem accepted_finishes_demo : ∃ tenant id p, ∃ n ≤ worker.budget createdService.committed.store,
    p.Final ∧ app.Polled .memory (worker.drained (fun _ => noTelemetry) createdService n) tenant id p := by
  obtain ⟨tenant, id, p, n, hn, -, -, hfinal, hafter⟩ := accepted_finishes empty_reachable creation_step
    (.nil _) (fun _ _ => rfl) noTelemetry_calls
  exact ⟨tenant, id, p, n, hn, hfinal, (hafter n le_rfl).2⟩

end IncidentEvidence
