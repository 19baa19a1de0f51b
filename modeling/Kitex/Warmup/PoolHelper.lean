import Kitex.Container.Slots
import Kitex.Machine.Run

/-! # Warming up a connection pool

Workers take the targets from a channel and ask the pool for connections. A failed attempt goes over
an unbuffered channel to the watcher, which records it in a step of its own. `report` reads the
record as soon as the workers have returned, and this may be before that step. With `FailFast` a
goroutine takes the jobs that are left once `report` has closed the channel of the errors.
-/

namespace Kitex.Warmup

open Kitex.Container Kitex.Machine

inductive ErrorHandling where
  | ignoreError
  | warningLog
  | errorLog
  | failFast
  deriving DecidableEq, Repr

structure Job where
  network : String
  address : String
  deriving DecidableEq, Repr

/-- A job with the error of its attempt. -/
abbrev Bad : Type := Job × String

/-- Where a worker is in `fire`. -/
inductive Phase where
  | selecting
  | getting (job : Job)
  /-- It sends a job on `errs`. -/
  | sending (bad : Bad)
  /-- It puts its connections back. -/
  | returning
  | done
  deriving DecidableEq, Repr

structure Worker where
  phase : Phase := .selecting
  conns : List Nat := []
  deriving DecidableEq, Repr

/-- Where the watcher is in `watch`. -/
inductive Watch where
  | selecting
  /-- It has received a job and not appended it. -/
  | recording (bad : Bad)
  /-- It cancels `control` and starts to discard. -/
  | failing
  | done
  deriving DecidableEq, Repr

/-- Where `WarmUp` is after it has started the goroutines. -/
inductive Progress where
  | waiting
  /-- `cancel` was called. -/
  | canceled
  /-- `report` has closed `errs`. -/
  | closed
  deriving DecidableEq, Repr

structure Manager where
  errorHandling : ErrorHandling
  /-- What `split` has not sent. -/
  jobs : List Job
  workers : List Worker
  bads : List Bad := []
  watch : Watch := .selecting
  /-- A goroutine discards what is sent on `errs`. -/
  discarding : Bool := false
  /-- `control` is done. -/
  stopped : Bool := false
  progress : Progress := .waiting
  /-- All failed attempts. -/
  failed : List Bad := []
  /-- All connections the pool gave. -/
  obtained : List Nat := []
  /-- All connections put back. -/
  put : List Nat := []
  /-- All jobs that the clean-up has taken. -/
  dropped : List Job := []
  deriving DecidableEq, Repr

inductive WorkerEvent where
  /-- From `jobs`, which is closed after the last job. -/
  | receive
  | stop
  | get (conn : Nat)
  | fail (err : String)
  /-- The watcher receives the job. -/
  | send
  | discard
  | put
  deriving DecidableEq, Repr

inductive WarmUpEvent where
  | worker (worker : Nat) (event : WorkerEvent)
  | append
  | failFast
  /-- The watcher sees that `work` is done. -/
  | quit
  /-- The workers are done, and `WarmUp` cancels the context. -/
  | cancel
  | close
  /-- The clean-up, at `discard(m.jobs)`, takes a job. -/
  | drop
  deriving DecidableEq, Repr

/-- The jobs in an iteration of the targets. -/
def split (targets : List (String × List String)) (dup : Int) : List Job :=
  targets.flatMap fun target => target.2.flatMap fun address =>
    List.replicate dup.toNat ⟨target.1, address⟩

namespace Manager

/-- `WarmUp` has started the goroutines. -/
def start (errorHandling : ErrorHandling) (targets : List (String × List String))
    (connNum parallel : Int) : Manager where
  errorHandling
  jobs := split targets connNum
  workers := List.replicate (max 1 parallel).toNat {}

def setWorker (m : Manager) (i : Nat) (w : Worker) : Manager :=
  { m with workers := m.workers.modify i fun _ => w }

/-- The steps of `fire`. -/
def fire (m : Manager) (i : Nat) (w : Worker) : WorkerEvent → Option Manager
  | .receive =>
    match w.phase, m.jobs with
    | .selecting, [] => some (m.setWorker i { w with phase := .returning })
    | .selecting, job :: jobs => some ({ m with jobs }.setWorker i { w with phase := .getting job })
    | _, _ => none
  | .stop =>
    if w.phase = .selecting ∧ m.stopped then some (m.setWorker i { w with phase := .returning })
    else none
  | .get conn =>
    match w.phase with
    | .getting _ => some ({ m with obtained := m.obtained ++ [conn] }.setWorker i
        { w with phase := .selecting, conns := w.conns ++ [conn] })
    | _ => none
  | .fail err =>
    match w.phase with
    | .getting job => some ({ m with failed := m.failed ++ [(job, err)] }.setWorker i
        { w with phase := .sending (job, err) })
    | _ => none
  | .send =>
    match w.phase, m.watch with
    | .sending bad, .selecting =>
      some ({ m with watch := .recording bad }.setWorker i { w with phase := .selecting })
    | _, _ => none
  | .discard =>
    match w.phase, m.discarding with
    | .sending _, true => some (m.setWorker i { w with phase := .selecting })
    | _, _ => none
  | .put =>
    match w.phase, w.conns with
    | .returning, [] => some (m.setWorker i { w with phase := .done })
    | .returning, conn :: conns =>
      some ({ m with put := m.put ++ [conn] }.setWorker i { w with conns })
    | _, _ => none

def step (m : Manager) : WarmUpEvent → Option Manager
  | .worker i event => m.workers[i]?.bind fun w => m.fire i w event
  | .append =>
    match m.watch with
    | .recording bad => some { m with
        bads := m.bads ++ [bad]
        watch := if m.errorHandling = .failFast then .failing else .selecting }
    | _ => none
  | .failFast =>
    if m.watch = .failing then
      some { m with watch := .done, stopped := true, discarding := true }
    else none
  | .quit =>
    if m.watch = .selecting ∧ m.progress ≠ .waiting then some { m with watch := .done } else none
  | .cancel =>
    if m.progress = .waiting ∧ ∀ w ∈ m.workers, w.phase = .done then
      some { m with progress := .canceled, stopped := true }
    else none
  | .close => if m.progress = .canceled then some { m with progress := .closed } else none
  | .drop =>
    match m.jobs, m.discarding, m.progress with
    | job :: jobs, true, .closed => some { m with jobs, dropped := m.dropped ++ [job] }
    | _, _, _ => none

/-- What `WarmUp` returns. -/
def report (m : Manager) : Option String :=
  if m.errorHandling = .ignoreError then none else m.bads.head?.map Prod.snd

/-- The watcher does not hold the first failed job. -/
def Recorded (m : Manager) : Prop := ∀ bad, m.watch = .recording bad → m.bads ≠ []

/-! ## Steps of a worker -/

/-- What a step of `fire` makes of a worker and of the rest. -/
inductive Fires (m : Manager) (w : Worker) : Worker → Manager → Prop
  | stop (hphase : w.phase = .selecting) : Fires m w { w with phase := .returning } m
  | receive {job : Job} {jobs : List Job} (hphase : w.phase = .selecting)
      (hjobs : m.jobs = job :: jobs) :
      Fires m w { w with phase := .getting job } { m with jobs }
  | get {job : Job} {conn : Nat} (hphase : w.phase = .getting job) :
      Fires m w { phase := .selecting, conns := w.conns ++ [conn] }
        { m with obtained := m.obtained ++ [conn] }
  | fail {job : Job} {err : String} (hphase : w.phase = .getting job) :
      Fires m w { w with phase := .sending (job, err) }
        { m with failed := m.failed ++ [(job, err)] }
  | send {bad : Bad} (hphase : w.phase = .sending bad) (hwatch : m.watch = .selecting) :
      Fires m w { w with phase := .selecting } { m with watch := .recording bad }
  | discard {bad : Bad} (hphase : w.phase = .sending bad) (hdiscarding : m.discarding = true) :
      Fires m w { w with phase := .selecting } m
  | put {conn : Nat} {conns : List Nat} (hphase : w.phase = .returning)
      (hconns : w.conns = conn :: conns) :
      Fires m w { w with conns } { m with put := m.put ++ [conn] }
  | finish (hphase : w.phase = .returning) (hconns : w.conns = []) :
      Fires m w { w with phase := .done } m

variable {m next : Manager} {w : Worker} {i : Nat}

theorem fires_of_fire {event : WorkerEvent} (h : m.fire i w event = some next) :
    ∃ w' rest, Fires m w w' rest ∧ next = rest.setWorker i w' := by
  cases event with
  | receive =>
    simp only [fire] at h
    split at h <;> cases h
    · exact ⟨_, _, .stop ‹_›, rfl⟩
    · exact ⟨_, _, .receive ‹_› ‹_›, rfl⟩
  | stop =>
    obtain ⟨⟨hphase, -⟩, heq⟩ := Option.ite_none_right_eq_some.mp h
    cases heq
    exact ⟨_, _, .stop hphase, rfl⟩
  | get conn =>
    simp only [fire] at h
    split at h <;> cases h
    exact ⟨_, _, .get ‹_›, rfl⟩
  | fail err =>
    simp only [fire] at h
    split at h <;> cases h
    exact ⟨_, _, .fail ‹_›, rfl⟩
  | send =>
    simp only [fire] at h
    split at h <;> cases h
    exact ⟨_, _, .send ‹_› ‹_›, rfl⟩
  | discard =>
    simp only [fire] at h
    split at h <;> cases h
    exact ⟨_, _, .discard ‹_› ‹_›, rfl⟩
  | put =>
    simp only [fire] at h
    split at h <;> cases h
    · exact ⟨_, _, .finish ‹_› ‹_›, rfl⟩
    · exact ⟨_, _, .put ‹_› ‹_›, rfl⟩

end Manager

/-! ## Bounds of a run -/

def Phase.isSending : Phase → Bool
  | .sending _ => true
  | _ => false

def Watch.held : Watch → List Bad
  | .recording bad => [bad]
  | _ => []

/-- A bound of the steps a worker takes without another job. -/
def Worker.steps (w : Worker) : Nat :=
  w.conns.length + match w.phase with
    | .selecting => 2
    | .getting _ => 5
    | .sending _ => 4
    | .returning => 1
    | .done => 0

def Watch.steps : Watch → Nat
  | .recording _ => 2
  | .selecting | .failing => 1
  | .done => 0

def Progress.steps : Progress → Nat
  | .waiting => 2
  | .canceled => 1
  | .closed => 0

namespace Manager

variable {m next rest : Manager} {w w' : Worker} {i : Nat}

/-- A bound of the steps left. -/
def steps (m : Manager) : Nat :=
  4 * m.jobs.length + total Worker.steps m.workers + m.watch.steps + m.progress.steps

/-- The failed jobs that are recorded or on their way to the record. -/
def marks (m : Manager) : Nat :=
  m.bads.length + m.watch.held.length + m.workers.countP (·.phase.isSending)

structure Inv (m : Manager) : Prop where
  conns : m.obtained.Perm (m.workers.flatMap Worker.conns ++ m.put)
  emptied : ∀ w ∈ m.workers, w.phase = .done → w.conns = []
  marks_le : m.marks ≤ m.failed.length
  marked : m.failed ≠ [] → m.marks ≠ 0
  discards : m.discarding = true ∨ m.watch = .failing → m.bads ≠ []
  watching : m.watch = .done → m.progress = .waiting → m.discarding = true
  finished : m.progress ≠ .waiting → ∀ w ∈ m.workers, w.phase = .done

section

variable (h : Fires m w w' rest)
include h

/-- What a step of a worker leaves alone. -/
theorem Fires.frame : rest.workers = m.workers ∧
    rest.errorHandling = m.errorHandling ∧ rest.progress = m.progress ∧ rest.bads = m.bads ∧
      rest.discarding = m.discarding := by
  cases h <;> exact ⟨rfl, rfl, rfl, rfl, rfl⟩

theorem Fires.watch : rest.watch = m.watch ∨ ∃ bad, rest.watch = .recording bad := by
  cases h with
  | send => exact .inr ⟨_, rfl⟩
  | _ => exact .inl rfl

theorem Fires.failed_le : m.failed.length ≤ rest.failed.length := by
  cases h <;> simp

theorem Fires.active : w.phase ≠ .done := by
  cases h <;> simp_all

theorem Fires.steps_lt : 4 * rest.jobs.length + rest.watch.steps + w'.steps <
      4 * m.jobs.length + m.watch.steps + w.steps := by
  cases h <;> simp_all [Worker.steps, Watch.steps] <;> omega

theorem Fires.conns : ∃ gained lost,
    rest.obtained = m.obtained ++ gained ∧ rest.put = m.put ++ lost ∧
      (w.conns ++ gained).Perm (w'.conns ++ lost) := by
  cases h with
  | @get _ conn => exact ⟨[conn], [], rfl, by simp, by simp⟩
  | @put conn _ _ hconns =>
    refine ⟨[], [conn], by simp, rfl, ?_⟩
    rw [hconns, List.append_nil]
    exact (List.perm_append_singleton _ _).symm
  | _ => exact ⟨[], [], by simp, by simp, by simp⟩

theorem Fires.emptied (hdone : w'.phase = .done) : w'.conns = [] := by
  cases h <;> simp_all

/-- A failed job is counted until it is discarded. -/
theorem Fires.marks :
    (rest.watch.held.length + if w'.phase.isSending then 1 else 0) + m.failed.length =
        (m.watch.held.length + if w.phase.isSending then 1 else 0) + rest.failed.length ∨
      m.discarding = true ∧ rest.failed = m.failed ∧ rest.watch = m.watch ∧
        w.phase.isSending = true ∧ w'.phase.isSending = false := by
  cases h <;> simp_all [Phase.isSending, Watch.held]
  omega

end

/-- A step of a worker keeps the invariant. -/
theorem Inv.fires (hinv : m.Inv) (hw : m.workers[i]? = some w) (hfires : Fires m w w' rest) :
    (rest.setWorker i w').Inv := by
  obtain ⟨hworkers, -, hprogress, hbads, hdiscarding⟩ := hfires.frame
  have hmem := List.mem_of_getElem? hw
  have hcount := countP_modify hw (·.phase.isSending) fun _ => w'
  have hle := hinv.marks_le
  have hmarked := hinv.marked
  rw [marks] at hle hmarked
  constructor
  case conns =>
    obtain ⟨gained, lost, hobtained, hput, hperm⟩ := hfires.conns
    have hall := perm_flatMap_modify hw Worker.conns (fun _ => w') hperm
    have hconns := hinv.conns
    rw [List.perm_iff_count] at hall hconns ⊢
    intro conn
    specialize hall conn
    specialize hconns conn
    simp only [setWorker, hobtained, hput, hworkers, List.count_append] at hall hconns ⊢
    omega
  case emptied =>
    intro v hv hdone
    simp only [setWorker, hworkers] at hv
    rcases mem_modify_cases hv with hold | ⟨_, -, rfl⟩
    · exact hinv.emptied v hold hdone
    · exact hfires.emptied hdone
  case marks_le =>
    simp only [Manager.marks, setWorker, hworkers, hbads]
    rcases hfires.marks with hmarks | ⟨-, hfailed, hwatch, hsending, hsent⟩
    · omega
    · rw [hsending, hsent, if_pos rfl, if_neg Bool.false_ne_true] at hcount
      rw [hfailed, hwatch]
      omega
  case marked =>
    intro hne
    simp only [Manager.marks, setWorker, hworkers, hbads]
    rw [← List.length_pos_iff] at hne hmarked
    rcases hfires.marks with hmarks | ⟨hdiscards, -⟩
    · have hfailed := hfires.failed_le
      simp only [setWorker] at hne
      omega
    · have hpos := List.length_pos_iff.mpr (hinv.discards (.inl hdiscards))
      omega
  case discards =>
    simp only [setWorker, hbads, hdiscarding]
    refine fun h => hinv.discards (h.imp_right fun hfailing => ?_)
    rcases hfires.watch with hwatch | ⟨bad, hwatch⟩
    · exact hwatch.symm.trans hfailing
    · exact absurd (hwatch.symm.trans hfailing) (by simp)
  case watching =>
    simp only [setWorker, hprogress, hdiscarding]
    intro hdone
    rcases hfires.watch with hwatch | ⟨bad, hwatch⟩
    · exact hinv.watching (hwatch.symm.trans hdone)
    · exact absurd (hwatch.symm.trans hdone) (by simp)
  case finished =>
    intro hne
    exact absurd (hinv.finished (hprogress ▸ hne) w hmem) hfires.active

theorem Inv.step (hinv : m.Inv) {event : WarmUpEvent} (hstep : m.step event = some next) :
    next.Inv ∧ next.steps < m.steps ∧ next.errorHandling = m.errorHandling := by
  cases event with
  | worker i event =>
    obtain ⟨w, hw, hfire⟩ := Option.bind_eq_some_iff.mp hstep
    obtain ⟨w', rest, hfires, rfl⟩ := fires_of_fire hfire
    obtain ⟨hworkers, herrorHandling, hprogress, -⟩ := hfires.frame
    refine ⟨hinv.fires hw hfires, ?_, herrorHandling⟩
    have hlt := hfires.steps_lt
    have hsum := total_modify hw Worker.steps fun _ => w'
    simp only [steps, setWorker, hworkers, hprogress]
    omega
  | append =>
    simp only [Manager.step] at hstep
    split at hstep <;> cases hstep
    case h_1 bad hwatch =>
    have hle := hinv.marks_le
    simp only [marks, hwatch, Watch.held, List.length_singleton] at hle
    refine ⟨⟨hinv.conns, hinv.emptied, ?_, ?_, ?_, ?_, hinv.finished⟩, ?_, rfl⟩
    · simp only [marks]
      split_ifs <;> simp [Watch.held] <;> omega
    · simp [marks]
    · simp
    · intro hdone
      split_ifs at hdone
    · simp only [steps, hwatch]
      split_ifs <;> simp [Watch.steps]
  | failFast =>
    obtain ⟨hwatch, heq⟩ := Option.ite_none_right_eq_some.mp hstep
    cases heq
    have hle := hinv.marks_le
    have hmarked := hinv.marked
    simp only [marks, hwatch, Watch.held] at hle hmarked
    refine ⟨⟨hinv.conns, hinv.emptied, hle, hmarked, fun _ => hinv.discards (.inr hwatch),
      fun _ _ => rfl, hinv.finished⟩, ?_, rfl⟩
    simp [steps, hwatch, Watch.steps]
  | quit =>
    obtain ⟨⟨hwatch, hprogress⟩, heq⟩ := Option.ite_none_right_eq_some.mp hstep
    cases heq
    have hle := hinv.marks_le
    have hmarked := hinv.marked
    simp only [marks, hwatch, Watch.held] at hle hmarked
    refine ⟨⟨hinv.conns, hinv.emptied, hle, hmarked, fun h => hinv.discards (.inl ?_),
      fun _ hwaiting => absurd hwaiting hprogress, hinv.finished⟩, ?_, rfl⟩
    · simpa using h
    · simp [steps, hwatch, Watch.steps]
  | cancel =>
    obtain ⟨⟨hprogress, hdone⟩, heq⟩ := Option.ite_none_right_eq_some.mp hstep
    cases heq
    refine ⟨{ hinv with watching := ?_, finished := fun _ => hdone }, ?_, rfl⟩
    · intro _ hwaiting
      cases hwaiting
    · simp [steps, hprogress, Progress.steps]
  | close =>
    obtain ⟨hprogress, heq⟩ := Option.ite_none_right_eq_some.mp hstep
    cases heq
    refine ⟨{ hinv with
      watching := ?_, finished := fun _ => hinv.finished (by simp [hprogress]) }, ?_, rfl⟩
    · intro _ hwaiting
      cases hwaiting
    · simp [steps, hprogress, Progress.steps]

  | drop =>
    simp only [Manager.step] at hstep
    split at hstep <;> cases hstep
    case h_1 job jobs hjobs hdiscarding hprogress =>
    refine ⟨⟨hinv.conns, hinv.emptied, hinv.marks_le, hinv.marked, hinv.discards, hinv.watching,
      hinv.finished⟩, ?_, rfl⟩
    simp only [steps, hjobs, List.length_cons]
    omega

/-- Before `report` reads the record, some goroutine can go on. -/
theorem Inv.exists_step (hinv : m.Inv) (hopen : m.progress ≠ .closed) :
    ∃ event, (m.step event).isSome = true := by
  cases hprogress : m.progress with
  | closed => exact absurd hprogress hopen
  | canceled => exact ⟨.close, by simp [Manager.step, hprogress]⟩
  | waiting =>
    by_cases hdone : ∀ w ∈ m.workers, w.phase = .done
    · exact ⟨.cancel, by rw [Manager.step, if_pos ⟨hprogress, hdone⟩]; rfl⟩
    push Not at hdone
    obtain ⟨w, hmem, hphase⟩ := hdone
    obtain ⟨i, hi⟩ := List.mem_iff_getElem?.mp hmem
    cases hw : w.phase with
    | done => exact absurd hw hphase
    | selecting =>
      refine ⟨.worker i .receive, ?_⟩
      cases hjobs : m.jobs <;> simp [Manager.step, hi, fire, hw, hjobs]
    | getting job => exact ⟨.worker i (.get 0), by simp [Manager.step, hi, fire, hw]⟩
    | returning =>
      refine ⟨.worker i .put, ?_⟩
      cases hconns : w.conns <;> simp [Manager.step, hi, fire, hw, hconns]
    | sending bad =>
      cases hwatch : m.watch with
      | selecting => exact ⟨.worker i .send, by simp [Manager.step, hi, fire, hw, hwatch]⟩
      | recording bad => exact ⟨.append, by simp [Manager.step, hwatch]⟩
      | failing => exact ⟨.failFast, by simp [Manager.step, hwatch]⟩
      | done =>
        have hdiscarding := hinv.watching hwatch hprogress
        exact ⟨.worker i .discard, by simp [Manager.step, hi, fire, hw, hdiscarding]⟩

variable {eh : ErrorHandling} {targets : List (String × List String)} {connNum parallel : Int}
  {events : List WarmUpEvent}

theorem start_inv : (start eh targets connNum parallel).Inv where
  conns := by simp [start]
  emptied := by simp [start]
  marks_le := by simp [start, marks, Watch.held, Phase.isSending, List.countP_replicate]
  marked := by simp [start]
  discards := by simp [start]
  watching := by simp [start]
  finished := by simp [start]

theorem run_inv (hrun : run step (start eh targets connNum parallel) events = some m) :
    m.Inv ∧ events.length + m.steps ≤ (start eh targets connNum parallel).steps ∧
      m.errorHandling = eh := by
  refine run_invariant (fun past m => m.Inv ∧
    past.length + m.steps ≤ (start eh targets connNum parallel).steps ∧ m.errorHandling = eh)
    ⟨start_inv, by simp, rfl⟩ ?_ hrun
  intro past m event next _ ⟨hinv, hle, heh⟩ hstep
  obtain ⟨hnext, hlt, hsame⟩ := hinv.step hstep
  refine ⟨hnext, ?_, hsame.trans heh⟩
  rw [List.length_append, List.length_singleton]
  omega

/-- `WarmUp` returns after a bounded number of steps. The connections are put back then, the result
is nil if no attempt failed, and it is the error of an attempt if one failed and is recorded. -/
theorem run_report (hrun : run step (start eh targets connNum parallel) events = some m) :
    events.length ≤ (start eh targets connNum parallel).steps ∧
      (m.progress ≠ .closed → ∃ event, (m.step event).isSome = true) ∧
      (m.progress = .closed → m.obtained.Perm m.put ∧ (m.failed = [] → m.report = none) ∧
        (eh ≠ .ignoreError → m.failed ≠ [] → (m.report.isSome = true ↔ m.Recorded))) := by
  obtain ⟨hinv, hsteps, rfl⟩ := run_inv hrun
  refine ⟨by omega, hinv.exists_step, fun hclosed => ?_⟩
  have hdone := hinv.finished (by simp [hclosed])
  have hempty : m.workers.flatMap Worker.conns = [] :=
    List.flatMap_eq_nil_iff.mpr fun w hw => hinv.emptied w hw (hdone w hw)
  have hsending : m.workers.countP (·.phase.isSending) = 0 :=
    List.countP_eq_zero.mpr fun w hw => by simp [hdone w hw, Phase.isSending]
  have hle := hinv.marks_le
  have hmarked := hinv.marked
  rw [marks, hsending] at hle hmarked
  refine ⟨by simpa [hempty] using hinv.conns, fun hnone => ?_, fun heh hsome => ?_⟩
  · rw [hnone, List.length_nil] at hle
    have hbads : m.bads = [] := List.length_eq_zero_iff.mp (by omega)
    simp [report, hbads]
  · have hreport : m.report.isSome = true ↔ m.bads ≠ [] := by
      cases hbads : m.bads <;> simp [report, heh, hbads]
    rw [hreport, Recorded]
    refine ⟨fun hbads _ _ => hbads, fun hrecorded hbads => hmarked hsome ?_⟩
    cases hwatch : m.watch with
    | recording bad => exact absurd hbads (hrecorded bad hwatch)
    | _ => simp [hbads, Watch.held]

/-- The worker hands its only failure over and returns. -/
def handOver (appended : List WarmUpEvent) : List WarmUpEvent :=
  [.worker 0 .receive, .worker 0 (.fail "refused"), .worker 0 .send] ++ appended ++
    [.worker 0 .receive, .worker 0 .put, .cancel, .close]

theorem run_report_appended :
    ∃ m, run step (start .errorLog [("tcp", ["a"])] 1 1) (handOver [.append]) = some m ∧
      m.report.isSome = true := by
  obtain ⟨m, hrun, hclosed, hwatch, hfailed⟩ : ∃ m, run step
      (start .errorLog [("tcp", ["a"])] 1 1) (handOver [.append]) = some m ∧
        m.progress = .closed ∧ m.watch = .selecting ∧ m.failed ≠ [] :=
    ⟨_, rfl, rfl, rfl, by decide⟩
  obtain ⟨-, -, hiff⟩ := (run_report hrun).2.2 hclosed
  refine ⟨m, hrun, (hiff (by decide) hfailed).mpr fun bad hrecording => ?_⟩
  cases hwatch.symm.trans hrecording

/-- `report` reads the record before the watcher has appended the failure. -/
theorem failure_lost :
    ∃ m, run step (start .failFast [("tcp", ["a"])] 1 1) (handOver []) = some m ∧
      m.failed = [(⟨"tcp", "a"⟩, "refused")] ∧ m.progress = .closed ∧ m.report = none :=
  ⟨_, rfl, rfl, rfl, rfl⟩

/-! ## Attempts -/

end Manager

end Kitex.Warmup
