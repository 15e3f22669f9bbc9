import IncidentEvidence.Persistence.Memory
import Mathlib.Order.Interval.Set.Basic

/-! # Leases of the in-memory queue

    Workers that only enqueue and claim, with clocks of their own. A claim of a
    `CLAIMED` job needs a moment at or after the end of its lease, whatever moments
    came before, and stores a lease that begins at that moment. So the leases of one
    job follow one another (`run_leases_apart`), and its attempt count counts them
    (`run_attemptCount`).
-/

namespace IncidentEvidence

open Py Py.Action

/-! ### Calls and grants -/

/-- A call of `_JobQueue`. -/
inductive QueueCall where
  | enqueue (record : JobRecord)
  | claim (workerId : Str) (lease : Int) (moment : Datetime)

/-- A claim that returned a job: the interval of its lease. -/
structure Grant where
  jobId : UUID
  claimedAt : Datetime
  leaseExpiresAt : Datetime
  deriving DecidableEq

/-- Leases do not end before they begin. -/
def QueueCall.NonNegative : QueueCall → Prop
  | .enqueue _ => True
  | .claim _ lease _ => 0 ≤ lease

/-- The store after a call, and the grant of a claim that returned a job. -/
def QueueCall.perform (call : QueueCall) (s : Store) : Store × Option Grant :=
  match call with
  | .enqueue record => (((JobQueue.enqueue record).exec s).2, none)
  | .claim workerId lease moment =>
    match (JobQueue.claim workerId lease moment).exec s with
    | (.ok (some job), s') => (s', some ⟨job.jobId.value, moment, job.leaseExpiresAt⟩)
    | (_, s') => (s', none)

/-- The store after calls made one after another, and the grants in order. -/
def QueueCall.run : List QueueCall → Store → Store × List Grant
  | [], s => (s, [])
  | call :: calls, s =>
    let next := call.perform s
    let rest := run calls next.1
    (rest.1, next.2.toList ++ rest.2)

/-- The grants of one job. -/
def grantsOf (jobId : UUID) (grants : List Grant) : List Grant :=
  grants.filter fun g => g.jobId = jobId

/-- The table has every job under its own id. -/
def QueueKeyed (s : Store) : Prop := s.jobs.Keyed fun row => row.jobId.value

/-! ### One claim -/

/-- What a claim at a moment picks: the least of the jobs that are queued and due or whose
    lease has ended. -/
structure Picked (s : Store) (moment : Datetime) (job : JobRecord) : Prop where
  stored : s.jobs.get? job.jobId.value = some job
  claimable : JobQueue.claimable job moment = true
  least : ∀ other ∈ s.jobs.values, JobQueue.claimable other moment = true →
    JobQueue.claimKey job ≤ JobQueue.claimKey other

theorem picked_of_eligible {s : Store} (hkeyed : QueueKeyed s) {moment : Datetime}
    {job : JobRecord} {rest : List JobRecord} (h : JobQueue.eligible s moment = job :: rest) :
    Picked s moment job := by
  have hmem : ∀ other, other ∈ JobQueue.eligible s moment ↔
      other ∈ s.jobs.values ∧ JobQueue.claimable other moment = true := by
    intro other
    simp [JobQueue.eligible]
  have hjob := (hmem job).mp (by rw [h]; exact List.mem_cons_self)
  have hsorted := pairwise_sortedOn JobQueue.claimKey
    (s.jobs.values.filter fun job => JobQueue.claimable job moment)
  have hsorted : (JobQueue.eligible s moment).Pairwise fun a b =>
      JobQueue.claimKey a ≤ JobQueue.claimKey b := hsorted
  refine ⟨hkeyed.get?_of_mem hjob.1, hjob.2, ?_⟩
  intro other hother hclaimable
  have hin := (hmem other).mpr ⟨hother, hclaimable⟩
  rw [h] at hsorted hin
  rcases List.mem_cons.mp hin with rfl | hin
  · exact le_refl _
  · exact List.rel_of_pairwise_cons hsorted hin

/-- What a claim answers, and the store it leaves. -/
inductive ClaimAnswer (workerId : Str) (lease : Int) (moment : Datetime) (s : Store) :
    Except PyException (Option ClaimedJob) × Store → Prop where
  /-- The id of the worker is blank. -/
  | refused : isBlank workerId = true →
      ClaimAnswer workerId lease moment s (.error (.persistence .invalidRecord), s)
  /-- There is no job to claim. -/
  | nothing : isBlank workerId = false →
      (∀ job ∈ s.jobs.values, JobQueue.claimable job moment = false) →
      ClaimAnswer workerId lease moment s (.ok none, s)
  /-- The end of the lease is not a `datetime`. -/
  | overflow {job : JobRecord} : isBlank workerId = false → Picked s moment job →
      moment.add lease = none → ClaimAnswer workerId lease moment s (.error .overflowError, s)
  /-- The least job is returned and its row is replaced. -/
  | granted {job : JobRecord} {worker : Text} {leaseExpiry : Datetime} : worker.1 = workerId →
      Picked s moment job → moment.add lease = some leaseExpiry →
      ClaimAnswer workerId lease moment s
        (.ok (some (JobQueue.claimedJob job worker leaseExpiry)), { s with
          jobs := s.jobs.set job.jobId.value
            (JobQueue.claimedRow job worker moment leaseExpiry) })

/-- **One claim** picks the least job there is, and no other row changes. -/
theorem claim_answer {s : Store} (hkeyed : QueueKeyed s) (workerId : Str) (lease : Int)
    (moment : Datetime) :
    ClaimAnswer workerId lease moment s ((JobQueue.claim workerId lease moment).exec s) := by
  by_cases hblank : isBlank workerId = false
  · obtain ⟨worker, rfl⟩ : ∃ worker : Text, worker.1 = workerId := ⟨⟨workerId, hblank⟩, rfl⟩
    rw [JobQueue.claim_exec]
    cases heligible : JobQueue.eligible s moment with
    | nil =>
      apply ClaimAnswer.nothing hblank
      intro job hjob
      by_contra hclaimable
      have hin : job ∈ JobQueue.eligible s moment := by
        simpa [JobQueue.eligible] using ⟨hjob, by simpa using hclaimable⟩
      rw [heligible] at hin
      exact absurd hin List.not_mem_nil
    | cons job rest =>
      have hpicked := picked_of_eligible hkeyed heligible
      cases hend : moment.add lease with
      | none => exact .overflow hblank hpicked hend
      | some leaseExpiry => exact .granted rfl hpicked hend
  · have hblank : isBlank workerId = true := by simpa using hblank
    have hrefused : (JobQueue.claim workerId lease moment).exec s =
        (.error (.persistence .invalidRecord), s) := by
      unfold JobQueue.claim
      rw [exec_bind, exec_lift, checkText_eq_error.mpr ⟨hblank, rfl⟩]
    rw [hrefused]
    exact .refused hblank

/-! ### One call -/

/-- **What a call can do**: nothing, add a row of a new id, or grant a job. -/
theorem perform_cases {s : Store} (hkeyed : QueueKeyed s) (call : QueueCall) :
    ((∀ record, call = .enqueue record → (s.jobs.get? record.jobId.value).isSome = true) ∧
      call.perform s = (s, none)) ∨
    (∃ record, call = .enqueue record ∧ s.jobs.get? record.jobId.value = none ∧
      call.perform s = ({ s with jobs := s.jobs.set record.jobId.value record }, none)) ∨
    (∃ job lease moment leaseExpiry, ∃ worker : Text, call = .claim worker.1 lease moment ∧
      Picked s moment job ∧ moment.add lease = some leaseExpiry ∧
      call.perform s = ({ s with
        jobs := s.jobs.set job.jobId.value (JobQueue.claimedRow job worker moment leaseExpiry) },
        some ⟨job.jobId.value, moment, leaseExpiry⟩)) := by
  cases call with
  | enqueue record =>
    unfold QueueCall.perform
    simp only [JobQueue.enqueue_exec]
    by_cases hstored : (s.jobs.get? record.jobId.value).isSome = true
    · left
      rw [if_pos hstored]
      refine ⟨?_, rfl⟩
      intro other hother
      cases hother
      exact hstored
    · right
      left
      rw [if_neg hstored]
      exact ⟨record, rfl, Option.not_isSome_iff_eq_none.mp hstored, rfl⟩
  | claim workerId lease moment =>
    -- a claim is refused, finds nothing, overflows or takes the first eligible row
    have hanswer := claim_answer hkeyed workerId lease moment
    unfold QueueCall.perform
    simp only
    generalize (JobQueue.claim workerId lease moment).exec s = result at hanswer
    cases hanswer with
    | refused _ => exact Or.inl ⟨by simp, rfl⟩
    | nothing _ _ => exact Or.inl ⟨by simp, rfl⟩
    | overflow _ _ _ => exact Or.inl ⟨by simp, rfl⟩
    | @granted job worker leaseExpiry hworker hpicked hend =>
      subst hworker
      exact Or.inr (Or.inr ⟨job, lease, moment, leaseExpiry, worker, rfl, hpicked, hend, rfl⟩)

theorem perform_keyed {s : Store} (hkeyed : QueueKeyed s) (call : QueueCall) :
    QueueKeyed (call.perform s).1 := by
  rcases perform_cases hkeyed call with ⟨-, h⟩ | ⟨record, -, -, h⟩ | ⟨job, _, _, _, _, -, -, -, h⟩
  · rw [h]
    exact hkeyed
  · rw [h]
    exact hkeyed.set rfl
  · rw [h]
    exact hkeyed.set rfl

theorem run_keyed {s : Store} (hkeyed : QueueKeyed s) (calls : List QueueCall) :
    QueueKeyed (QueueCall.run calls s).1 := by
  induction calls generalizing s with
  | nil => exact hkeyed
  | cons call calls ih => exact ih (perform_keyed hkeyed call)

theorem grantsOf_cons (jobId : UUID) (call : QueueCall) (calls : List QueueCall) (s : Store) :
    grantsOf jobId (QueueCall.run (call :: calls) s).2 =
      grantsOf jobId (call.perform s).2.toList ++
        grantsOf jobId (QueueCall.run calls (call.perform s).1).2 := by
  show List.filter _ (_ ++ _) = _
  rw [List.filter_append]
  rfl

/-! ### Leases follow one another -/

/-- A lease that may be negative ends where it should when it is not. -/
theorem le_of_add {moment leaseExpiry : Datetime} {lease : Int} (hlease : 0 ≤ lease)
    (h : moment.add lease = some leaseExpiry) : moment ≤ leaseExpiry := by
  unfold Datetime.add at h
  split at h
  · cases h
    show moment.micros ≤ ((moment.micros : Int) + lease).toNat
    omega
  · exact absurd h (by simp)

/-- **While a lease runs nobody else gets the job**: every later grant of it begins at or
    after its end. -/
theorem run_grants_after {calls : List QueueCall} (hleases : ∀ call ∈ calls, call.NonNegative)
    {s : Store} (hkeyed : QueueKeyed s) {jobId : UUID} {row : JobRecord} {ending : Datetime}
    (hrow : s.jobs.get? jobId = some row) (hstatus : row.status = .claimed)
    (hending : row.leaseExpiresAt = some ending) :
    ∀ g ∈ grantsOf jobId (QueueCall.run calls s).2, ending ≤ g.claimedAt := by
  induction calls generalizing s row ending with
  | nil =>
    intro g hg
    exact absurd hg List.not_mem_nil
  | cons call calls ih =>
    obtain ⟨hlease, hrest⟩ := List.forall_mem_cons.mp hleases
    have hkeyed' := perform_keyed hkeyed call
    intro g hg
    rw [grantsOf_cons] at hg
    rcases perform_cases hkeyed call with ⟨-, h⟩ | ⟨record, -, hfresh, h⟩ |
      ⟨job, lease, moment, leaseExpiry, worker, rfl, hpicked, hend, h⟩
    · rw [h] at hg hkeyed'
      exact ih hrest hkeyed' hrow hstatus hending g (by simpa [grantsOf] using hg)
    · -- a new row is another row
      rw [h] at hg hkeyed'
      have hne : jobId ≠ record.jobId.value := by
        intro heq
        rw [heq, hfresh] at hrow
        exact absurd hrow (by simp)
      refine ih hrest hkeyed' ?_ hstatus hending g (by simpa [grantsOf] using hg)
      rw [← hrow]
      exact Dict.get?_set_ne _ _ hne
    · rw [h] at hg hkeyed'
      by_cases hsame : job.jobId.value = jobId
      · -- the job itself is claimed again: its lease has ended
        have hjob : job = row := by
          have hstored := hpicked.stored
          rw [hsame, hrow] at hstored
          exact (Option.some.inj hstored).symm
        subst hjob
        have hdue : ending ≤ moment := by
          have hclaimable := hpicked.claimable
          simpa [JobQueue.claimable, hstatus, hending] using hclaimable
        have hlater : moment ≤ leaseExpiry := le_of_add hlease hend
        rcases List.mem_append.mp hg with hg | hg
        · have hg : g = ⟨job.jobId.value, moment, leaseExpiry⟩ := by
            simpa [grantsOf, hsame] using hg
          rw [hg]
          exact hdue
        · have hclaimed : (s.jobs.set job.jobId.value
              (JobQueue.claimedRow job worker moment leaseExpiry)).get? jobId =
                some (JobQueue.claimedRow job worker moment leaseExpiry) := by
            rw [← hsame]
            exact Dict.get?_set_self _ _ _
          have hnext := ih hrest hkeyed' hclaimed rfl rfl g hg
          exact le_trans hdue (le_trans hlater hnext)
      · refine ih hrest hkeyed' ?_ hstatus hending g ?_
        · rw [← hrow]
          exact Dict.get?_set_ne _ _ (Ne.symm hsame)
        · simpa [grantsOf, hsame] using hg

/-- **The leases of one job follow one another.** -/
theorem run_leases_apart {calls : List QueueCall} (hleases : ∀ call ∈ calls, call.NonNegative)
    {s : Store} (hkeyed : QueueKeyed s) (jobId : UUID) :
    (grantsOf jobId (QueueCall.run calls s).2).Pairwise fun g g' =>
      g.leaseExpiresAt ≤ g'.claimedAt := by
  induction calls generalizing s with
  | nil => exact .nil
  | cons call calls ih =>
    obtain ⟨hlease, hrest⟩ := List.forall_mem_cons.mp hleases
    have hkeyed' := perform_keyed hkeyed call
    rw [grantsOf_cons, List.pairwise_append]
    refine ⟨?_, ih hrest hkeyed', ?_⟩
    · cases (call.perform s).2 with
      | none => exact .nil
      | some g => exact (List.pairwise_singleton _ g).sublist List.filter_sublist
    · intro g hg g' hg'
      rcases perform_cases hkeyed call with ⟨-, h⟩ | ⟨record, -, -, h⟩ |
        ⟨job, lease, moment, leaseExpiry, worker, rfl, -, -, h⟩
      · rw [h] at hg
        exact absurd hg List.not_mem_nil
      · rw [h] at hg
        exact absurd hg List.not_mem_nil
      · rw [h] at hg hg' hkeyed'
        obtain ⟨hmem, hjob⟩ := List.mem_filter.mp hg
        obtain rfl := List.mem_singleton.mp hmem
        have hjob : job.jobId.value = jobId := by simpa using hjob
        subst hjob
        exact run_grants_after hrest hkeyed' (Dict.get?_set_self _ _ _) rfl rfl g' hg'

/-- A lease does not end before it begins. -/
theorem run_grants_ordered {calls : List QueueCall} (hleases : ∀ call ∈ calls, call.NonNegative)
    {s : Store} (hkeyed : QueueKeyed s) :
    ∀ g ∈ (QueueCall.run calls s).2, g.claimedAt ≤ g.leaseExpiresAt := by
  induction calls generalizing s with
  | nil =>
    intro g hg
    exact absurd hg List.not_mem_nil
  | cons call calls ih =>
    obtain ⟨hlease, hrest⟩ := List.forall_mem_cons.mp hleases
    intro g hg
    rcases List.mem_append.mp hg with hg | hg
    · rcases perform_cases hkeyed call with ⟨-, h⟩ | ⟨record, -, -, h⟩ |
        ⟨job, lease, moment, leaseExpiry, worker, rfl, -, hend, h⟩
      · rw [h] at hg
        exact absurd hg List.not_mem_nil
      · rw [h] at hg
        exact absurd hg List.not_mem_nil
      · rw [h] at hg
        obtain rfl := List.mem_singleton.mp hg
        exact le_of_add hlease hend
    · exact ih hrest (perform_keyed hkeyed call) g hg

/-! ### Counting claims -/

/-- The records that the calls would enqueue. -/
def QueueCall.record? : QueueCall → Option JobRecord
  | .enqueue record => some record
  | .claim _ _ _ => none

/-- The row a job begins with: the one in the store, else the first one enqueued. -/
def initialRow (calls : List QueueCall) (s : Store) (jobId : UUID) : Option JobRecord :=
  (s.jobs.get? jobId).or
    ((calls.filterMap QueueCall.record?).find? fun record => record.jobId.value = jobId)

/-- **The attempt count counts the claims** of a job, from the count it began with. -/
theorem run_attemptCount {calls : List QueueCall} {s : Store} (hkeyed : QueueKeyed s)
    (jobId : UUID) :
    ((QueueCall.run calls s).1.jobs.get? jobId).map (·.attemptCount) =
      (initialRow calls s jobId).map fun row =>
        row.attemptCount + (grantsOf jobId (QueueCall.run calls s).2).length := by
  induction calls generalizing s with
  | nil =>
    show (s.jobs.get? jobId).map _ = ((s.jobs.get? jobId).or none).map _
    rw [Option.or_none]
    rfl
  | cons call calls ih =>
    have hkeyed' := perform_keyed hkeyed call
    rw [grantsOf_cons]
    show ((QueueCall.run calls (call.perform s).1).1.jobs.get? jobId).map _ = _
    rcases perform_cases hkeyed call with ⟨hstored, h⟩ | ⟨record, rfl, hfresh, h⟩ |
      ⟨job, lease, moment, leaseExpiry, worker, rfl, hpicked, -, h⟩
    · -- nothing happened: a refused record is of a job that is there
      have hinitial : initialRow (call :: calls) s jobId = initialRow calls s jobId := by
        unfold initialRow
        cases call with
        | claim _ _ _ => rfl
        | enqueue record =>
          by_cases hsame : record.jobId.value = jobId
          · obtain ⟨row, hrow⟩ := Option.isSome_iff_exists.mp (hstored record rfl)
            rw [hsame] at hrow
            rw [hrow]
            rfl
          · simp [QueueCall.record?, hsame]
      rw [h, hinitial, ih hkeyed]
      rfl
    · have hinitial : initialRow (.enqueue record :: calls) s jobId = initialRow calls
          { s with jobs := s.jobs.set record.jobId.value record } jobId := by
        unfold initialRow
        by_cases hsame : record.jobId.value = jobId
        · subst hsame
          simp [QueueCall.record?, hfresh]
        · simp [QueueCall.record?, hsame, Dict.get?_set_ne _ _ (Ne.symm hsame)]
      rw [h] at hkeyed' ⊢
      rw [hinitial, ih hkeyed']
      rfl
    · rw [h] at hkeyed' ⊢
      rw [ih hkeyed']
      by_cases hsame : job.jobId.value = jobId
      · -- the row begins the rest of the run with one attempt more
        subst hsame
        have hafter : initialRow calls { s with
            jobs := s.jobs.set job.jobId.value
              (JobQueue.claimedRow job worker moment leaseExpiry) } job.jobId.value =
            some (JobQueue.claimedRow job worker moment leaseExpiry) := by
          simp [initialRow]
        have hbefore : initialRow (.claim worker.1 lease moment :: calls) s job.jobId.value =
            some job := by
          simp [initialRow, hpicked.stored]
        rw [hafter, hbefore]
        simp only [Option.map_some, Option.some.injEq, JobQueue.claimedRow, grantsOf,
          Option.toList_some, List.filter_singleton, decide_true, List.length_append]
        simp
        omega
      · have hsameRow : initialRow calls { s with
            jobs := s.jobs.set job.jobId.value
              (JobQueue.claimedRow job worker moment leaseExpiry) } jobId =
            initialRow (.claim worker.1 lease moment :: calls) s jobId := by
          simp [initialRow, QueueCall.record?, Dict.get?_set_ne _ _ (Ne.symm hsame)]
        rw [hsameRow]
        simp [grantsOf, hsame]

/-! ### Exclusive leases -/

/-- **A lease is exclusive whatever the clocks do.** Along any calls with leases that are
    not negative, from any table of jobs under their own ids: the leases of one job are
    intervals in order that do not meet, its attempt count is the one it began with and
    one more for each of its claims, and each claim picks the least job that is queued
    and due or whose lease has ended, changes its row alone, and answers that there is
    none only when there is none. -/
theorem leases_exclusive {s : Store} (hkeyed : QueueKeyed s) {calls : List QueueCall}
    (hleases : ∀ call ∈ calls, call.NonNegative) :
    (∀ jobId, (grantsOf jobId (QueueCall.run calls s).2).Pairwise fun g g' =>
      g.leaseExpiresAt ≤ g'.claimedAt ∧
      Disjoint (Set.Ico g.claimedAt g.leaseExpiresAt) (Set.Ico g'.claimedAt g'.leaseExpiresAt)) ∧
    (∀ g ∈ (QueueCall.run calls s).2, g.claimedAt ≤ g.leaseExpiresAt) ∧
    (∀ jobId, ((QueueCall.run calls s).1.jobs.get? jobId).map (·.attemptCount) =
      (initialRow calls s jobId).map fun row =>
        row.attemptCount + (grantsOf jobId (QueueCall.run calls s).2).length) ∧
    (∀ before workerId lease moment later, calls = before ++ .claim workerId lease moment :: later →
      ClaimAnswer workerId lease moment (QueueCall.run before s).1
        ((JobQueue.claim workerId lease moment).exec (QueueCall.run before s).1)) := by
  refine ⟨?_, run_grants_ordered hleases hkeyed, fun jobId => run_attemptCount hkeyed jobId, ?_⟩
  · intro jobId
    apply (run_leases_apart hleases hkeyed jobId).imp
    intro g g' hapart
    refine ⟨hapart, ?_⟩
    rw [Set.disjoint_left]
    intro moment hfirst hsecond
    exact absurd (lt_of_lt_of_le hfirst.2 (le_trans hapart hsecond.1)) (lt_irrefl moment)
  · intro before workerId lease moment later _
    exact claim_answer (run_keyed hkeyed before) workerId lease moment

namespace Demo

/-- A queued job. -/
def queuedJob : JobRecord where
  jobId := ⟨⟨7, by decide⟩⟩
  investigationId := ⟨⟨1, UUID.one_lt⟩⟩
  tenant := ⟨str "tenant"⟩
  status := .queued
  availableAt := ⟨5, Datetime.five_lt⟩
  claimedBy := none
  claimedAt := none
  leaseExpiresAt := none
  attemptCount := 0
  maxAttempts := 3
  createdAt := ⟨5, Datetime.five_lt⟩
  updatedAt := ⟨5, Datetime.five_lt⟩

/-- Three workers; the clock of the second one is behind. -/
def unevenCalls : List QueueCall :=
  [.enqueue queuedJob, .claim (str "a") 10 ⟨20, Datetime.twenty_lt⟩, .claim (str "b") 10 ⟨15, Datetime.fifteen_lt⟩,
    .claim (str "c") 10 ⟨30, by decide⟩]

example : (QueueCall.run unevenCalls .empty).2.map (fun g => (g.claimedAt.micros,
    g.leaseExpiresAt.micros)) = [(20, 30), (30, 40)] := by
  decide +kernel

theorem leases_exclusive_demo :
    (grantsOf queuedJob.jobId.value (QueueCall.run unevenCalls .empty).2).Pairwise fun g g' =>
      g.leaseExpiresAt ≤ g'.claimedAt ∧
      Disjoint (Set.Ico g.claimedAt g.leaseExpiresAt) (Set.Ico g'.claimedAt g'.leaseExpiresAt) :=
  (@leases_exclusive .empty (Dict.keyed_empty _) unevenCalls (by
    intro call hcall
    simp only [unevenCalls, List.mem_cons, List.not_mem_nil, or_false] at hcall
    rcases hcall with rfl | rfl | rfl | rfl <;> simp [QueueCall.NonNegative])).1 _

end Demo

end IncidentEvidence
