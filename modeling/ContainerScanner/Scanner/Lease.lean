import ContainerScanner.Foundation.Clocked
import ContainerScanner.Scanner.Atomicity
import Mathlib.Algebra.Order.BigOperators.Group.List

/-!
# Leases and the clock

A claim is good for `lease_seconds`, and the reaper takes every running job whose lease has passed.
Between the claim and the last commit of `run_once` a worker may wait for `trivy --version`, for up
to four requests to the registry and for the scan, each with a timeout of its own. The validator of
the settings compares the lease with the timeout of the scan alone.

`run_once` is run beside a clock that starts at the claim. Everything else takes no time.

## Main definitions

* `Durations` — how long each wait is
* `Timed.runOnce` — `run_once` beside a clock
* `KeepsLease` — no worker outlives its lease

## Main results

* `erases_runOnce` — without the clock it is `run_once`
* `length_resolveDigest` — an exchange has at most four requests
* `within_runOnce` — the waits bound every commit
* `keepsLease_iff` — which settings keep every lease
-/

namespace ContainerScanner

open Foundation

/-! ### The longest exchange -/

namespace Registry

variable {library : Library} {peer : Peer} {now : Timestamp} {log : Log Request Reply}
  {α : Type}

/-- Whatever comes of it, at most `n` more is said. -/
def Says (n : ℕ) (x : Exchange α) : Prop :=
  ∀ log, Ends x log fun _ log' => log'.length ≤ log.length + n

theorem says_pure (a : α) : Says 0 (pure a : Exchange α) := fun _ => Nat.le_refl _

theorem says_throw (e : Raised) : Says 0 (throw e : Exchange α) := fun _ => Nat.le_refl _

theorem Says.mono {m n : ℕ} {x : Exchange α} (h : Says m x) (hmn : m ≤ n) : Says n x :=
  fun log => (h log).mono fun _ _ hlog => hlog.trans (Nat.add_le_add_left hmn _)

theorem Says.bind {β : Type} {m n : ℕ} {x : Exchange α} {f : α → Exchange β} (h : Says m x)
    (hf : ∀ a, Says n (f a)) : Says (m + n) (x >>= f) := by
  intro log
  refine ends_bind.mpr ((h log).mono fun r log' hlog => ?_)
  cases r with
  | ok a => exact (hf a log').mono fun _ log'' hlog' => by omega
  | error e =>
    show log'.length ≤ _
    omega

theorem Says.adaptExcept {n : ℕ} {x : Exchange α} (h : Says n x) (f : Raised → Raised) :
    Says n (x.adaptExcept f : Exchange α) := by
  intro log
  refine ends_adaptExcept.mpr ((h log).mono fun r log' hlog => ?_)
  cases r <;> exact hlog

theorem says_send (request : Request) : Says 1 (send peer request) := by
  have hask : Says 1 (ask peer request : Exchange Reply) := by
    intro log
    refine ends_ask.mpr ?_
    rw [List.length_append]
    exact le_rfl
  refine hask.bind (n := 0) fun reply => ?_
  cases reply with
  | response response => exact says_pure response
  | httpError message => exact says_throw _
  | raised error => exact says_throw _

theorem says_raiseRateLimited (message : String) (response : Response) :
    Says 0 (raiseRateLimited library now message response : Exchange α) := by
  rw [raiseRateLimited]
  split <;> exact says_throw _

theorem says_fetchToken (challenge : Dict String String) :
    Says 1 (fetchToken library peer now challenge) := by
  rw [fetchToken]
  split
  · exact (says_pure Json.null).mono (by omega)
  · refine (says_send _).bind (n := 0) fun response => ?_
    split
    · exact says_raiseRateLimited _ response
    · split
      · exact says_throw _
      · split
        · exact says_throw _
        · exact says_pure _
        · exact says_throw _

theorem says_headManifest (url : String) : Says 3 (headManifest library peer now url) := by
  rw [headManifest]
  refine (says_send _).bind (n := 2) fun response => ?_
  split
  · refine (says_fetchToken _).bind (n := 1) fun token => ?_
    split
    · exact (says_send _).bind (n := 0) fun response => says_pure _
    · exact (says_pure (response, none)).mono (by omega)
  · exact (says_pure (response, none)).mono (by omega)

/-- A `HEAD`, a token, the `HEAD` again, and the `GET`. -/
theorem says_resolveDigest (reference : ImageReference) :
    Says 4 (resolveDigest library peer now reference) := by
  rw [resolveDigest]
  refine Says.adaptExcept ?_ wrapHttpError
  refine (says_headManifest _).bind (n := 1) fun answer => ?_
  obtain ⟨response, token⟩ := answer
  dsimp only
  split
  · exact (says_raiseRateLimited _ response).mono (by omega)
  · split
    · exact (says_throw _).mono (by omega)
    · split
      · exact (says_throw _).mono (by omega)
      · split
        · exact (says_pure _).mono (by omega)
        · refine (says_send _).bind (n := 0) fun response => ?_
          split
          · exact says_pure _
          · exact says_throw _

/-- An exchange has at most four requests. -/
theorem length_resolveDigest (reference : ImageReference) :
    (converse (resolveDigest library peer now reference)).2.length ≤ 4 := by
  have hsays : Ends (resolveDigest library peer now reference) [] fun _ log => log.length ≤ 0 + 4 :=
    says_resolveDigest reference []
  exact ends_iff_converse.mp hsays

end Registry

/-! ### `run_once` on a clock -/

/-- How long each wait is, in microseconds. -/
structure Durations where
  /-- `trivy --version`. -/
  probe : ℕ
  /-- The requests of `resolve_digest`, in turn. -/
  request : ℕ → ℕ
  /-- `trivy image`. -/
  scan : ℕ

namespace Durations

/-- How long an exchange of so many requests is. -/
def exchange (durations : Durations) (n : ℕ) : ℕ := ((List.range n).map durations.request).sum

/-- `timeout=60`. -/
def probeTimeoutSeconds : ℕ := 60

/-- `timeout: float = 30.0`. -/
def requestTimeoutSeconds : ℕ := 30

/-- Nothing takes longer than its timeout. One that is not positive has expired at once. -/
structure Bounded (durations : Durations) (settings : Settings) : Prop where
  probe : (durations.probe : ℤ) ≤ Queue.seconds probeTimeoutSeconds
  request : ∀ k, (durations.request k : ℤ) ≤ Queue.seconds requestTimeoutSeconds
  scan : (durations.scan : ℤ) ≤ Queue.seconds (max settings.trivyTimeoutSeconds 0)

/-- The most that one `run_once` can wait. -/
def longest (durations : Durations) : ℕ :=
  durations.probe + (durations.exchange 4 + durations.scan)

theorem exchange_le_exchange (durations : Durations) {m n : ℕ} (hmn : m ≤ n) :
    durations.exchange m ≤ durations.exchange n := by
  have hrange : (List.range m).Sublist (List.range n) := List.range_sublist.mpr hmn
  exact (hrange.map durations.request).sum_le_sum fun _ _ => Nat.zero_le _

theorem Bounded.longest {durations : Durations} {settings : Settings}
    (h : durations.Bounded settings) :
    (durations.longest : ℤ) ≤ Queue.seconds (max settings.trivyTimeoutSeconds 0 + 180) := by
  have hexchange : durations.exchange 4 = durations.request 0 + durations.request 1 +
      durations.request 2 + durations.request 3 := by
    simp [exchange, List.range_succ, Nat.add_assoc]
  obtain ⟨hprobe, hrequest, hscan⟩ := h
  have hrequests := And.intro (hrequest 0) (And.intro (hrequest 1)
    (And.intro (hrequest 2) (hrequest 3)))
  rw [Durations.longest, hexchange]
  simp only [Queue.seconds, second, probeTimeoutSeconds, requestTimeoutSeconds] at *
  push_cast at *
  omega

end Durations

namespace RunOnce

namespace Timed

/-- A program on the worker's session, beside a clock. -/
abbrev Program (α : Type) : Type := EStateM Raised (Clocked (Session Db Objects Raised)) α

/-- How long `resolve_digest` takes. -/
def resolving (env : Env) (durations : Durations) (reference : Registry.ImageReference) : ℕ :=
  durations.exchange
    (converse (Registry.resolveDigest env.library env.peer env.resolvedAt reference)).2.length

def commitJob (jobId : JobId) : Program Unit := stamping (RunOnce.commitJob jobId)

def execute (env : Env) (durations : Durations) (jobId : JobId) : Program Unit := do
  match ← instantly (statement getImage) with
  | none =>
    instantly (statement (setJob Queue.complete))
    commitJob jobId
  | some (imageId, image) =>
    wait durations.probe
    let (trivyVersion, dbVersion) ← instantly (consult env.probeVersions)
    let probe : Worker.Probe := ⟨trivyVersion, dbVersion, env.flagsHash, env.startedAt⟩
    let previous ← instantly (statement (select fun db => env.lastSuccessfulRun db imageId))
    stamping commit
    let reference := Registry.parseReference image.name image.tag
    wait (resolving env durations reference)
    let digest ← instantly (consult (env.resolveDigest reference))
    if Worker.isUnchanged previous digest trivyVersion dbVersion env.flagsHash then
      instantly (RunOnce.recordSkip jobId imageId (probe.metadata digest env.completedAt))
      instantly (statement (setJob Queue.complete))
      commitJob jobId
    else
      wait durations.scan
      let raw ← instantly (consult (env.runScan (image.name ++ ":" ++ image.tag)))
      let report ← instantly (consult (env.parseReport raw))
      instantly (RunOnce.recordSuccess jobId imageId image report
        (probe.metadata (Worker.scannedDigest report digest) env.completedAt))
      instantly (statement (setJob Queue.complete))
      commitJob jobId

/-- A handler that returns has committed last of all. -/
def handle (env : Env) (settings : Settings) (jobId : JobId) (error : Raised) : Program Unit :=
  stamping (RunOnce.handle env settings jobId error)

def runOnce (env : Env) (settings : Settings) (durations : Durations) (candidate : Candidate) :
    Program Bool := do
  let claimed ← instantly (perform (claim settings candidate))
  stamping commitNow
  if claimed then
    tryCatch (execute env durations candidate.jobId) (handle env settings candidate.jobId)
  return claimed

/-- A session at the time of the claim. -/
def start (candidate : Candidate) (session : Session Db Objects Raised) :
    Clocked (Session Db Objects Raised) :=
  ⟨session, candidate.now, []⟩

end Timed

variable {env : Env} {settings : Settings} {durations : Durations} {candidate : Candidate}
  {jobId : JobId}

/-! ### The same program -/

theorem erases_execute : Erases (Timed.execute env durations jobId) (execute env jobId) := by
  rw [Timed.execute, execute]
  refine (erases_instantly _).bind fun loaded => ?_
  cases loaded with
  | none => exact (erases_instantly _).bind fun _ => erases_stamping _
  | some entry =>
    obtain ⟨imageId, image⟩ := entry
    refine Erases.wait_bind ((erases_instantly _).bind fun versions => ?_)
    refine (erases_instantly _).bind fun previous => ?_
    refine (erases_stamping _).bind fun _ => ?_
    refine Erases.wait_bind ((erases_instantly _).bind fun digest => ?_)
    split
    · refine (erases_instantly _).bind fun _ => ?_
      exact (erases_instantly _).bind fun _ => erases_stamping _
    · refine Erases.wait_bind ((erases_instantly _).bind fun raw => ?_)
      refine (erases_instantly _).bind fun report => ?_
      refine (erases_instantly _).bind fun _ => ?_
      exact (erases_instantly _).bind fun _ => erases_stamping _

/-- **Without the clock it is `run_once`.** -/
theorem erases_runOnce :
    Erases (Timed.runOnce env settings durations candidate) (runOnce env settings candidate) := by
  rw [Timed.runOnce, runOnce]
  refine (erases_instantly _).bind fun claimed => ?_
  refine (erases_stamping _).bind fun _ => ?_
  split
  · refine Erases.bind ?_ fun _ => erases_pure claimed
    exact erases_execute.tryCatch fun error => erases_stamping _
  · exact erases_pure claimed

/-! ### The longest run -/

theorem resolving_le (reference : Registry.ImageReference) :
    Timed.resolving env durations reference ≤ durations.exchange 4 :=
  durations.exchange_le_exchange (Registry.length_resolveDigest reference)

theorem within_complete : Within 0
    (do instantly (statement (setJob Queue.complete)); Timed.commitJob jobId :
      Timed.Program Unit) :=
  (within_instantly _).after fun _ => within_stamping _

theorem within_execute : Within durations.longest (Timed.execute env durations jobId) := by
  rw [Timed.execute, Durations.longest]
  refine (within_instantly _).after fun loaded => ?_
  cases loaded with
  | none => exact within_complete.mono (Nat.zero_le _)
  | some entry =>
    obtain ⟨imageId, image⟩ := entry
    refine (within_wait _).bind fun _ => ?_
    refine (within_instantly _).after fun versions => ?_
    refine (within_instantly _).after fun previous => ?_
    refine (within_stamping _).after fun _ => ?_
    refine ((within_wait _).mono (resolving_le _)).bind fun _ => ?_
    refine (within_instantly _).after fun digest => ?_
    split
    · refine Within.mono ?_ (Nat.zero_le _)
      exact (within_instantly _).after fun _ => within_complete
    · refine ((within_wait durations.scan).bind (n := 0) fun _ => ?_)
      refine (within_instantly _).after fun raw => ?_
      refine (within_instantly _).after fun report => ?_
      exact (within_instantly _).after fun _ => within_complete

/-- The waits bound every commit. -/
theorem within_runOnce :
    Within durations.longest (Timed.runOnce env settings durations candidate) := by
  rw [Timed.runOnce]
  refine (within_instantly _).after fun claimed => ?_
  refine (within_stamping _).after fun _ => ?_
  split
  · refine Within.bind (n := 0) ?_ fun _ => within_pure claimed
    exact within_execute.tryCatch (n := 0) fun error => within_stamping _
  · exact (within_pure claimed).mono (Nat.zero_le _)

/-! ### Leases -/

/-- When the last commit was. -/
def finalCommit {α : Type}
    (result : EStateM.Result Raised (Clocked (Session Db Objects Raised)) α) : Option Timestamp :=
  (endState result).commits.getLast?

/-- The lease that a claim has set. -/
theorem Claims.leaseUntil {db db' : Db} {job : ScanJob}
    (h : Claims settings candidate db job db') :
    job.leaseUntil = some (candidate.now + Queue.seconds settings.leaseSeconds) := by
  obtain ⟨jobs, hclaim, -⟩ := h
  obtain ⟨row, -, -, -, -, rfl⟩ := Queue.claimJob_eq_some hclaim
  rfl

/-- A running job is the reaper's once its lease has passed, and not before. -/
theorem reapable_claimed {db db' : Db} {job : ScanJob} (h : Claims settings candidate db job db')
    (now : Timestamp) :
    Queue.reapable now job = true ↔
      candidate.now + Queue.seconds settings.leaseSeconds < now := by
  rw [Queue.reapable, h.leaseUntil]
  simp [h.status]

/-- Whatever a worker meets, its final commit is no later than its lease, and no reaper that comes
before has found the lease expired. -/
def KeepsLease (settings : Settings) : Prop :=
  ∀ (env : Env) (durations : Durations) (candidate : Candidate) (db db' : Db) (job : ScanJob)
    (objects : Objects) (faults : List (Option (Fault Db Objects Raised))) (t : Timestamp),
    durations.Bounded settings → Claims settings candidate db job db' →
    finalCommit (Timed.runOnce env settings durations candidate
      (Timed.start candidate (idle db objects faults))) = some t →
    (∃ lease, job.leaseUntil = some lease ∧ t ≤ lease) ∧
      ∀ now ≤ t, Queue.reapable now job = false

/-- Every request it can be made to send, and a digest in the end. -/
def reluctant : Registry.Peer := fun _ request =>
  match request with
  | .headManifest _ none =>
    .response ⟨401, none, some "realm=\"https://auth\"", none, .error "JSONDecodeError"⟩
  | .getToken _ _ => .response ⟨200, none, none, none, .ok (.dict [("token", .str "t")])⟩
  | .headManifest _ (some _) => .response ⟨200, none, none, none, .error "JSONDecodeError"⟩
  | .getManifest _ _ =>
    .response ⟨200, none, none, some "sha256:a", .error "JSONDecodeError"⟩

/-- Everything takes as long as it may. -/
def slowest (settings : Settings) : Durations :=
  ⟨60000000, fun _ => 30000000, settings.trivyTimeoutSeconds.toNat * 1000000⟩

theorem bounded_slowest (settings : Settings) : (slowest settings).Bounded settings where
  probe := le_rfl
  request := fun _ => le_rfl
  scan := by
    show ((settings.trivyTimeoutSeconds.toNat * 1000000 : ℕ) : ℤ) ≤ _
    rw [Queue.seconds, second, ← Int.toNat_eq_max]
    push_cast
    exact le_rfl

section Stepping

variable {α : Type} {stored working : Db} {inTransaction : Bool} {objects : Objects}
  {now : Timestamp} {commits : List Timestamp}

theorem Timed.consult_bind (a : α) (f : α → Timed.Program Unit)
    (c : Clocked (Session Db Objects Raised)) :
    (instantly (consult (.ok a)) >>= f) c = f a c := rfl

theorem Timed.select_bind (query : Db → α) (f : α → Timed.Program Unit) :
    (instantly (statement (select query)) >>= f)
        ⟨⟨stored, working, inTransaction, objects, []⟩, now, commits⟩ =
      f (query working) ⟨⟨stored, working, true, objects, []⟩, now, commits⟩ := rfl

theorem Timed.commit_bind (f : Unit → Timed.Program Unit) :
    (stamping commit >>= f) ⟨⟨stored, working, inTransaction, objects, []⟩, now, commits⟩ =
      f () ⟨idle working objects [], now, commits ++ [now]⟩ := rfl

end Stepping

/-- A scan that raises, once it is over. -/
theorem execute_of_scan {db : Db} {job : ScanJob} {image : Image} {versions : String × String}
    {digest : String} {error : Raised} (himage : db.image.get? job.imageId = some image)
    (hversions : env.probeVersions = .ok versions)
    (hdigest : env.resolveDigest (Registry.parseReference image.name image.tag) = .ok digest)
    (hchanged : Worker.isUnchanged (env.lastSuccessfulRun db job.imageId) digest versions.1
      versions.2 env.flagsHash = false)
    (hscan : env.runScan (image.name ++ ":" ++ image.tag) = .error error) (durations : Durations)
    (jobId : JobId) (now : Timestamp) (commits : List Timestamp) :
    Timed.execute env durations jobId ⟨idle db ⟨job, job, none⟩ [], now, commits⟩ =
      .error error ⟨idle db ⟨job, job, some image⟩ [],
        now + durations.probe +
          Timed.resolving env durations (Registry.parseReference image.name image.tag) +
          durations.scan,
        commits ++ [now + durations.probe]⟩ := by
  have hload : statement (ε := Raised) getImage (idle db ⟨job, job, none⟩ []) =
      .ok (some (job.imageId, image)) ⟨db, db, true, ⟨job, job, some image⟩, []⟩ := by
    show perform getImage _ = _
    simp [perform, getImage, idle, himage]
  rw [Timed.execute, bind_of_ok (instantly_of_ok hload)]
  dsimp only
  rw [wait_bind, hversions, Timed.consult_bind, Timed.select_bind, Timed.commit_bind, wait_bind,
    hdigest, Timed.consult_bind]
  rw [if_neg (Bool.not_eq_true _ ▸ hchanged), wait_bind, hscan]
  rfl

theorem timed_runOnce_claimed {db db' : Db} {job : ScanJob} {objects : Objects}
    {faults : List (Option (Fault Db Objects Raised))}
    (hclaim : Claims settings candidate db job db') :
    Timed.runOnce env settings durations candidate
        (Timed.start candidate (idle db objects faults)) =
      (do tryCatch (Timed.execute env durations candidate.jobId)
            (Timed.handle env settings candidate.jobId)
          return true : Timed.Program Bool)
        ⟨idle db' ⟨job, job, none⟩ faults, candidate.now, [candidate.now]⟩ := by
  obtain ⟨jobs, hclaim, rfl⟩ := hclaim
  have hperform : perform (ε := Raised) (claim settings candidate) (idle db objects faults) =
      .ok true ⟨db, { db with scanJob := jobs }, true, ⟨job, job, none⟩, faults⟩ := by
    simp [perform, claim, idle, hclaim]
  rw [Timed.runOnce, bind_of_ok (instantly_of_ok hperform)]
  rfl

/-- A scan that raises is handled when all the waits are over. -/
theorem finalCommit_of_scan {db db' : Db} {job : ScanJob} {objects : Objects} {image : Image}
    {versions : String × String} {digest : String} {error : Raised}
    (hclaim : Claims settings candidate db job db')
    (himage : db'.image.get? job.imageId = some image)
    (hversions : env.probeVersions = .ok versions)
    (hdigest : env.resolveDigest (Registry.parseReference image.name image.tag) = .ok digest)
    (hchanged : Worker.isUnchanged (env.lastSuccessfulRun db' job.imageId) digest versions.1
      versions.2 env.flagsHash = false)
    (hscan : env.runScan (image.name ++ ":" ++ image.tag) = .error error)
    (hhandle : ∃ s, handle env settings candidate.jobId error
      (idle db' ⟨job, job, some image⟩ []) = .ok () s) :
    finalCommit (Timed.runOnce env settings durations candidate
        (Timed.start candidate (idle db objects []))) =
      some (candidate.now + durations.probe +
        Timed.resolving env durations (Registry.parseReference image.name image.tag) +
        durations.scan) := by
  obtain ⟨s, hs⟩ := hhandle
  have hraises := execute_of_scan himage hversions hdigest hchanged hscan durations candidate.jobId
    candidate.now [candidate.now]
  have hstamped : Timed.handle env settings candidate.jobId error
      ⟨idle db' ⟨job, job, some image⟩ [], candidate.now + durations.probe +
        Timed.resolving env durations (Registry.parseReference image.name image.tag) +
        durations.scan, [candidate.now] ++ [candidate.now + durations.probe]⟩ = _ :=
    stamping_of_ok hs
  rw [timed_runOnce_claimed hclaim, tryCatch_bind_of_error hraises, bind_of_ok hstamped]
  exact List.getLast?_concat

/-- A Trivy that never comes to an end. -/
def timedOutScan : Env :=
  { scanning reluctant with runScan := fun _ => .error (.trivyTimeout "trivy timed out") }

/-- The first job, with one attempt left. -/
def lastAttempt (settings : Settings) : ScanJob :=
  { queuedJob with attempts := (settings.maxAttempts - 1).toNat }

def lastQueued (settings : Settings) : Db :=
  { queued with scanJob := Serial.empty.insert (lastAttempt settings) }

/-- The image of the first job. -/
def nginx : Image := Image.registered 0 ("nginx", "1.19")

theorem resolving_reluctant (settings : Settings) :
    Timed.resolving timedOutScan (slowest settings)
      (Registry.parseReference nginx.name nginx.tag) = 120000000 := by
  have hlength : (converse (Registry.resolveDigest Registry.asciiLibrary reluctant second
      (Registry.parseReference nginx.name nginx.tag))).2.length = 4 := by decide +kernel
  have hresolving : Timed.resolving timedOutScan (slowest settings)
      (Registry.parseReference nginx.name nginx.tag) = (slowest settings).exchange 4 :=
    congrArg (slowest settings).exchange hlength
  rw [hresolving]
  simp [Durations.exchange, slowest, List.range_succ]

theorem total_slowest (settings : Settings) :
    ((slowest settings).probe : ℤ) + (120000000 : ℕ) + (slowest settings).scan =
      Queue.seconds (max settings.trivyTimeoutSeconds 0 + 180) := by
  simp only [slowest, Queue.seconds, second]
  omega

/-- Its job, claimed. -/
def lastClaimed (settings : Settings) : ScanJob :=
  Queue.takeLease second settings.leaseSeconds (lastAttempt settings)

theorem claims_lastQueued (settings : Settings) :
    Claims settings firstJob (lastQueued settings) (lastClaimed settings)
      { lastQueued settings with
        scanJob := (lastQueued settings).scanJob.update 1
          (Queue.takeLease second settings.leaseSeconds) } :=
  ⟨_, rfl, rfl⟩

/-- The last attempt needs no date for another. -/
theorem schedulable_lastClaimed (settings : Settings) (error : Raised) :
    Schedulable timedOutScan settings error (lastClaimed settings) := by
  refine Or.inl ?_
  have hattempts : allowance settings error ≤ ((lastClaimed settings).attempts + 1 : ℕ) := by
    show _ ≤ (((settings.maxAttempts - 1).toNat + 1 : ℕ) : ℤ)
    rw [allowance]
    split <;> omega
  rw [failed, Queue.fail, if_pos hattempts]

/-- Some run takes as long as all the timeouts together. -/
theorem finalCommit_slowest (settings : Settings) :
    finalCommit (Timed.runOnce timedOutScan settings (slowest settings) firstJob
      (Timed.start firstJob (idle (lastQueued settings) ⟨queuedJob, queuedJob, none⟩ []))) =
        some (firstJob.now + Queue.seconds (max settings.trivyTimeoutSeconds 0 + 180)) := by
  have hclaim := claims_lastQueued settings
  have himage : (lastQueued settings).image.get? (lastClaimed settings).imageId = some nginx := rfl
  have hdigest : timedOutScan.resolveDigest (Registry.parseReference nginx.name nginx.tag) =
      .ok "sha256:a" := by decide +kernel
  have hclean : Clean (recovery 1) _ (idle _ ⟨lastClaimed settings, lastClaimed settings,
      some nginx⟩ []) := ⟨rfl, rfl, hclaim.get?, rfl, fun _ hsame => hsame ▸ himage⟩
  obtain ⟨-, s, hs, -⟩ := recordFailure_eq (Or.inl hclean) hclaim.get? himage
    (schedulable_lastClaimed settings (.trivyTimeout "trivy timed out"))
  rw [finalCommit_of_scan hclaim himage rfl hdigest rfl rfl ⟨s, hs⟩, resolving_reluctant,
    ← total_slowest, add_assoc, add_assoc, add_assoc]

/-- So a lease must be as long. -/
theorem le_of_keepsLease {settings : Settings} (h : KeepsLease settings) :
    max settings.trivyTimeoutSeconds 0 + 180 ≤ settings.leaseSeconds := by
  have hclaim := claims_lastQueued settings
  have hkept := h timedOutScan (slowest settings) firstJob (lastQueued settings) _ _
    ⟨queuedJob, queuedJob, none⟩ [] _ (bounded_slowest settings) hclaim
    (finalCommit_slowest settings)
  obtain ⟨lease, hlease, hle⟩ := hkept.1
  rw [hclaim.leaseUntil, Option.some.injEq] at hlease
  rw [← hlease] at hle
  exact Queue.seconds_le_seconds.mp (le_of_add_le_add_left hle)

/-- And one that is as long is enough. -/
theorem keepsLease_of_le {settings : Settings}
    (h : max settings.trivyTimeoutSeconds 0 + 180 ≤ settings.leaseSeconds) :
    KeepsLease settings := by
  intro env durations candidate db db' job objects faults t hbounded hclaim hfinal
  have hspent : Spends durations.longest (Timed.start candidate (idle db objects faults))
      (endState (Timed.runOnce env settings durations candidate
        (Timed.start candidate (idle db objects faults)))) := within_runOnce _
  have hbound : t ≤ candidate.now + Queue.seconds settings.leaseSeconds := by
    obtain hold | hnew := hspent.commits t (List.mem_of_getLast? hfinal)
    · cases hold
    · refine hnew.trans (add_le_add_right ?_ candidate.now)
      exact hbounded.longest.trans (Queue.seconds_le_seconds.mpr h)
  refine ⟨⟨_, hclaim.leaseUntil, hbound⟩, fun now hnow => ?_⟩
  rw [Bool.eq_false_iff]
  intro hreapable
  have hlate := (reapable_claimed hclaim now).mp hreapable
  exact absurd (hlate.trans_le hnow) hbound.not_gt

/-- **A worker never outlives its lease exactly when the lease is three minutes longer than the
timeout of the scan**: one for the probe, and two for the registry. A negative timeout shortens
neither. -/
theorem keepsLease_iff (settings : Settings) :
    KeepsLease settings ↔ max settings.trivyTimeoutSeconds 0 + 180 ≤ settings.leaseSeconds :=
  ⟨le_of_keepsLease, keepsLease_of_le⟩

/-- Settings that the validator accepts. -/
def tightSettings : Settings :=
  { trivyTimeoutSeconds := 900, leaseSeconds := 901, leaseOutlivesAScan := by decide }

/-- A lease a second longer than the scan may take is lost. -/
theorem not_keepsLease_tight : ¬ ∀ settings, KeepsLease settings := by
  intro hall
  exact absurd (le_of_keepsLease (hall tightSettings)) (by decide)

end RunOnce

end ContainerScanner
