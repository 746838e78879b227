import UnityThumbnailer.EventSystem

/-! The extractor process and the pipe to it. vs-thumb writes the image into the pipe, which is
read without blocking whenever the event loop finds data there; one text is both the outcome of
the extraction and what stops the reading. -/
namespace UnityThumbnailer

open EventSystem

/-- `QProcess::ProcessState` -/
inductive ProcessState
  | notRunning | starting | running
  deriving DecidableEq

/-- `QProcess::ProcessError` -/
inductive ProcessError
  | failedToStart | crashed | timedout | readError | writeError | unknownError
  deriving DecidableEq

/-- `QProcess::ExitStatus`, with the exit code of a normal exit. -/
inductive ExitStatus
  | normalExit (exitCode : ℕ)
  | crashExit
  deriving DecidableEq

/-- What one call of `::read()` gives: bytes, `EAGAIN`, 0, `EINTR`, or another `errno` with its text. -/
inductive ReadResult
  | bytes (n : ℕ)
  | again
  | endOfFile
  | interrupted
  | failed (what : String)
  deriving DecidableEq

/-- The members of the extractor, the process and the pipe: `exited` is how the process ended
before `QProcess` notices, `written` all that it wrote, `finished` the number of signals. -/
structure ImageExtractor where
  filename : String
  timeoutMs : ℕ
  exePath : String
  error : String
  pipeWriteFd : Bool
  imageData : List UInt8
  timerRunning : Bool
  state : ProcessState
  processId : ℕ
  exited : Option ExitStatus
  pipe : List UInt8
  written : List UInt8
  finished : ℕ
  deriving DecidableEq

namespace ImageExtractor

def new (filename : String) (timeoutMs : ℕ) : ImageExtractor where
  filename := filename
  timeoutMs := timeoutMs
  exePath := ""
  error := ""
  pipeWriteFd := true
  imageData := []
  timerRunning := false
  state := .notRunning
  processId := 0
  exited := none
  pipe := []
  written := []
  finished := 0

/-- `QProcess::pid()` -/
def pid (s : ImageExtractor) : ℕ := if s.state = .notRunning then 0 else s.processId

def emitFinished (s : ImageExtractor) : ImageExtractor := { s with finished := s.finished+1 }

/-- The slot `error()`. -/
def processError (s : ImageExtractor) : ProcessError → ImageExtractor
  | .failedToStart =>
    { s with timerRunning := false, error := "failed to start " ++ s.exePath }.emitFinished
  | _ => s

/-- `utilDir` is the environment variable. A failed fork is reported before `start()` returns. -/
def extract (s : ImageExtractor) (utilDir : Option String) (sharePrivAbs : String)
    (processId : ℕ) (forked : Bool) : ImageExtractor :=
  let s := { s with exePath := utilDir.getD sharePrivAbs ++ "/vs-thumb" }
  let s :=
    if forked then { s with state := .starting, processId := processId }
    else s.processError .failedToStart
  { s with timerRunning := true }

/-- The data is moved out; callers read once. -/
def read (s : ImageExtractor) : Except String (List UInt8) :=
  if s.error ≠ "" then .error ("ImageExtractor::read(): " ++ s.error) else .ok s.imageData

def started (s : ImageExtractor) : ImageExtractor := { s with pipeWriteFd := false }

/-- The buffer on the stack. -/
def bufSize : ℕ := 16*1024

/-- The calls of `::read()` until one ends the loop. Bytes that arrive between two calls may
as well be in the pipe from the start: a call need not take all there are. -/
def readLoop : List ReadResult → ImageExtractor → Option ImageExtractor
  | [], _ => none
  | .bytes n::results, s =>
    if 0 < n ∧ n ≤ bufSize ∧ n ≤ s.pipe.length then
      readLoop results { s with
        imageData := s.imageData ++ s.pipe.take n, pipe := s.pipe.drop n }
    else none
  | .interrupted::results, s => readLoop results s
  | .again::results, s => if results = [] ∧ s.pipe = [] then some s else none
  | .endOfFile::results, s =>
    if results = [] ∧ s.pipe = [] ∧ s.pipeWriteFd = false then some s else none
  | .failed what::results, s =>
    if results = [] then
      some { s with error := "cannot read remaining bytes from pipe: " ++ what }
    else none

def readFromPipe (s : ImageExtractor) (results : List ReadResult) : Option ImageExtractor :=
  if s.error ≠ "" then some s else readLoop results s

def timeout (s : ImageExtractor) : ImageExtractor :=
  -- a killed process still has to end, and may have ended already
  { s with
    timerRunning := false
    error := s.exePath ++ " (pid " ++ toString s.pid ++ ") did not return after " ++
      toString s.timeoutMs ++ " milliseconds" }

def pipeError (s : ImageExtractor) : ImageExtractor := { s with error := "broken pipe" }

/-- The `switch` over the exit status. -/
def outcome (s : ImageExtractor) (results : List ReadResult) :
    ExitStatus → Option ImageExtractor
  | .normalExit 0 => (s.readFromPipe results).map fun s => { s with error := "" }
  | .normalExit 1 => some { s with error := "no artwork for " ++ s.filename }
  | .normalExit 2 => some { s with error := "extractor pipeline failed for " ++ s.filename }
  | .normalExit exitCode => some { s with
      error := "unknown exit status " ++ toString exitCode ++ " from " ++ s.exePath ++ " for " ++
        s.filename }
  | .crashExit =>
    -- the text of a timeout is kept
    some (if s.error = "" then { s with error := s.exePath ++ " crashed" } else s)

def processFinished (s : ImageExtractor) (status : ExitStatus) (results : List ReadResult) :
    Option ImageExtractor :=
  ({ s with timerRunning := false }.outcome results status).map emitFinished

/-- The process writes and ends by itself; the others are slots that the event loop calls. -/
inductive Event
  | write (bytes : List UInt8)
  | exit (status : ExitStatus)
  | started
  | readFromPipe (results : List ReadResult)
  | timeout
  | pipeError
  | error (e : ProcessError)
  | processFinished (results : List ReadResult)

/-- `QProcess` reports the end of a process after its start, and is in the state it reports. -/
def machine : Machine ImageExtractor Event where
  step s
    | .write bytes =>
      if s.state ≠ .notRunning ∧ s.exited = none then
        some { s with pipe := s.pipe ++ bytes, written := s.written ++ bytes }
      else none
    | .exit status =>
      if s.state ≠ .notRunning ∧ s.exited = none then some { s with exited := some status } else none
    | .started => if s.state = .starting then some { s with state := .running }.started else none
    | .readFromPipe results => s.readFromPipe results
    | .timeout => if s.timerRunning = true then some s.timeout else none
    | .pipeError => some s.pipeError
    | .error .failedToStart =>
      if s.state = .starting then some ({ s with state := .notRunning }.processError .failedToStart)
      else none
    | .error e => some (s.processError e)
    | .processFinished results =>
      if s.state = .running then
        s.exited.bind fun status => { s with state := .notRunning }.processFinished status results
      else none

/-- `finished()` has been emitted once if the process has been reported to be over, and not before. -/
def EmitsOnce (s : ImageExtractor) : Prop := s.finished = if s.state = .notRunning then 1 else 0

/-- What `read()` returns after `finished()` is all that the process wrote. -/
def Delivers (s : ImageExtractor) : Prop :=
  s.finished = 1 → ∀ bytes, s.read = .ok bytes → bytes = s.written

/-- How many bytes the calls take out of the pipe. -/
def size : List ReadResult → ℕ
  | [] => 0
  | .bytes n::results => n+size results
  | _::results => size results

/-- A success is reported when nothing is left in the pipe, or when no error keeps the last
read from taking all of it. -/
def ReadsAll (s : ImageExtractor) : Event → Prop
  | .processFinished results =>
    s.exited = some (.normalExit 0) →
      s.pipe = [] ∨ (s.error = "" ∧ s.pipe.length ≤ size results)
  | _ => True

instance (s : ImageExtractor) : DecidablePred (ReadsAll s)
  | .processFinished results => inferInstanceAs (Decidable (s.exited = some (.normalExit 0) →
      s.pipe = [] ∨ (s.error = "" ∧ s.pipe.length ≤ size results)))
  | .write .. | .exit .. | .started | .readFromPipe .. | .timeout | .pipeError | .error .. =>
    .isTrue trivial

/-- The extractor after `n` more bytes, with another text. -/
def taking (s : ImageExtractor) (n : ℕ) (error : String) : ImageExtractor :=
  { s with imageData := s.imageData ++ s.pipe.take n, pipe := s.pipe.drop n, error := error }

/-- What one call of `readFromPipe()` takes. -/
def taken (s : ImageExtractor) (results : List ReadResult) : ℕ :=
  if s.error = "" then size results else 0

/-- No byte gets lost or out of order between the process and the extractor. -/
structure Counts (s : ImageExtractor) : Prop where
  bytes : s.imageData ++ s.pipe = s.written
  emitted : s.EmitsOnce

/-- A success is not reported with bytes left in the pipe. -/
def Complete (s : ImageExtractor) : Prop := s.state = .notRunning → s.error = "" → s.pipe = []

section Reading

variable {s t : ImageExtractor} {results : List ReadResult}

theorem taking_taking (s : ImageExtractor) (n m : ℕ) (error error' : String) :
    (s.taking n error).taking m error' = s.taking (n+m) error' := by
  simp [taking,List.take_add,List.drop_drop]

theorem taking_zero (s : ImageExtractor) (error : String) :
    s.taking 0 error = { s with error := error } := by
  simp [taking]

theorem readLoop_eq (h : readLoop results s = some t) :
    ∃ error, t = s.taking (size results) error := by
  induction results generalizing s with
  | nil => cases h
  | cons result results ih =>
    cases result with
    | bytes n =>
      obtain ⟨-,hrest⟩ := Option.ite_none_right_eq_some.mp h
      obtain ⟨error,rfl⟩ := ih hrest
      exact ⟨error,taking_taking s n (size results) s.error error⟩
    | interrupted => exact ih h
    | again =>
      obtain ⟨⟨rfl,-⟩,hs⟩ := Option.ite_none_right_eq_some.mp h
      obtain rfl := Option.some.inj hs
      exact ⟨s.error,(taking_zero s s.error).symm⟩
    | endOfFile =>
      obtain ⟨⟨rfl,-⟩,hs⟩ := Option.ite_none_right_eq_some.mp h
      obtain rfl := Option.some.inj hs
      exact ⟨s.error,(taking_zero s s.error).symm⟩
    | failed what =>
      obtain ⟨rfl,hs⟩ := Option.ite_none_right_eq_some.mp h
      obtain rfl := Option.some.inj hs
      exact ⟨_,(taking_zero s _).symm⟩

theorem readFromPipe_eq (h : s.readFromPipe results = some t) :
    ∃ error, t = s.taking (s.taken results) error ∧ (s.error ≠ "" → error = s.error) := by
  unfold readFromPipe at h
  by_cases hs : s.error = ""
  · rw [if_neg (not_not_intro hs)] at h
    obtain ⟨error,rfl⟩ := readLoop_eq h
    exact ⟨error,by rw [taken,if_pos hs],fun hne => (hne hs).elim⟩
  · rw [if_pos hs] at h
    obtain rfl := Option.some.inj h
    exact ⟨s.error,by rw [taken,if_neg hs,taking_zero],fun _ => rfl⟩

theorem append_ne_empty {x y : String} (hx : x ≠ "") : x ++ y ≠ "" := by
  simp [String.append_eq_empty_iff,hx]

theorem timeout_error_ne_empty (s : ImageExtractor) : s.timeout.error ≠ "" := by
  simp [timeout,String.append_eq_empty_iff]

/-- Only an exit with 0 clears the text, and only it reads. -/
theorem outcome_eq {status : ExitStatus} (h : s.outcome results status = some t) :
    (status = .normalExit 0 ∧ t = s.taking (s.taken results) "") ∨
      (status ≠ .normalExit 0 ∧ ∃ error, error ≠ "" ∧ t = s.taking 0 error) := by
  unfold outcome at h
  split at h
  · obtain ⟨u,hu,rfl⟩ := Option.map_eq_some_iff.mp h
    obtain ⟨error,rfl,-⟩ := readFromPipe_eq hu
    exact .inl ⟨rfl,rfl⟩
  · obtain rfl := Option.some.inj h
    exact .inr ⟨by simp,_,append_ne_empty (by decide),(taking_zero s _).symm⟩
  · obtain rfl := Option.some.inj h
    exact .inr ⟨by simp,_,append_ne_empty (by decide),(taking_zero s _).symm⟩
  · rename_i exitCode hzero _ _
    obtain rfl := Option.some.inj h
    refine .inr ⟨fun heq => ?_,_,?_,(taking_zero s _).symm⟩
    · exact hzero (ExitStatus.normalExit.inj heq)
    · simp [String.append_assoc]
  · obtain rfl := Option.some.inj h
    refine .inr ⟨by simp,?_⟩
    split_ifs with herror
    · exact ⟨_,by simp,(taking_zero s _).symm⟩
    · exact ⟨s.error,herror,(taking_zero s _).symm⟩

/-- The last read empties the pipe. -/
theorem drop_taken_iff : s.pipe.drop (s.taken results) = [] ↔
    s.pipe = [] ∨ (s.error = "" ∧ s.pipe.length ≤ size results) := by
  unfold taken
  split_ifs with herror
  · rw [List.drop_eq_nil_iff]
    constructor
    · exact fun hle => .inr ⟨herror,hle⟩
    · rintro (hnil | ⟨-,hle⟩)
      · simp [hnil]
      · exact hle
  · simp [herror]

end Reading

/-- The extractor once the process has been reported to be over. -/
def ending (s : ImageExtractor) (n : ℕ) (error : String) : ImageExtractor :=
  { s.taking n error with
    state := .notRunning, timerRunning := false, finished := s.finished+1 }

/-- What a step does: the process goes on, the slots note bytes or an error, or the end of the
process is reported. -/
inductive Moves (s : ImageExtractor) (e : Event) (t : ImageExtractor) : Prop
  | alive (bytes : List UInt8) (hs : s.state ≠ .notRunning) (ht : t.state ≠ .notRunning)
      (hdata : t.imageData = s.imageData) (hpipe : t.pipe = s.pipe ++ bytes)
      (hwritten : t.written = s.written ++ bytes) (hfinished : t.finished = s.finished)
  | slot (n : ℕ) (error : String) (timer : Bool) (herror : error = "" → s.error = "")
      (ht : t = { s.taking n error with timerRunning := timer })
  | ends (n : ℕ) (error : String) (hs : s.state ≠ .notRunning) (ht : t = s.ending n error)
      (hsuccess : error = "" → ∃ results, e = .processFinished results ∧
        s.exited = some (.normalExit 0) ∧ n = s.taken results)

section Steps

variable {s t : ImageExtractor} {e : Event} {results : List ReadResult}

theorem step_processFinished (h : machine.step s (.processFinished results) = some t) :
    s.state = .running ∧ ∃ status n error, s.exited = some status ∧ t = s.ending n error ∧
      (status = .normalExit 0 ∧ n = s.taken results ∧ error = "" ∨
        status ≠ .normalExit 0 ∧ error ≠ "") := by
  obtain ⟨hstate,h⟩ := Option.ite_none_right_eq_some.mp h
  obtain ⟨status,hstatus,h⟩ := Option.bind_eq_some_iff.mp h
  obtain ⟨u,hu,rfl⟩ := Option.map_eq_some_iff.mp h
  refine ⟨hstate,status,?_⟩
  rcases outcome_eq hu with ⟨hzero,rfl⟩ | ⟨hne,error,herror,rfl⟩
  · exact ⟨_,"",hstatus,rfl,.inl ⟨hzero,rfl,rfl⟩⟩
  · exact ⟨0,error,hstatus,rfl,.inr ⟨hne,herror⟩⟩

theorem step_moves (h : machine.step s e = some t) : Moves s e t := by
  cases e with
  | write bytes =>
    obtain ⟨⟨hs,-⟩,h⟩ := Option.ite_none_right_eq_some.mp h
    obtain rfl := Option.some.inj h
    exact .alive bytes hs hs rfl rfl rfl rfl
  | exit status =>
    obtain ⟨⟨hs,-⟩,h⟩ := Option.ite_none_right_eq_some.mp h
    obtain rfl := Option.some.inj h
    exact .alive [] hs hs rfl (by simp) (by simp) rfl
  | started =>
    obtain ⟨hs,h⟩ := Option.ite_none_right_eq_some.mp h
    obtain rfl := Option.some.inj h
    exact .alive [] (by simp [hs]) (by simp [ImageExtractor.started]) rfl
      (by simp [ImageExtractor.started]) (by simp [ImageExtractor.started]) rfl
  | readFromPipe results =>
    obtain ⟨error,rfl,herror⟩ := readFromPipe_eq h
    refine .slot (s.taken results) error s.timerRunning (fun hnil => ?_) rfl
    by_contra hne
    exact hne ((herror hne).symm.trans hnil)
  | timeout =>
    obtain ⟨-,h⟩ := Option.ite_none_right_eq_some.mp h
    obtain rfl := Option.some.inj h
    refine .slot 0 s.timeout.error false (fun hnil => ?_) (by rw [taking_zero]; rfl)
    exact (s.timeout_error_ne_empty hnil).elim
  | pipeError =>
    obtain rfl := Option.some.inj h
    refine .slot 0 "broken pipe" s.timerRunning (fun hnil => ?_) (by rw [taking_zero]; rfl)
    simp at hnil
  | error e =>
    cases e with
    | failedToStart =>
      obtain ⟨hs,h⟩ := Option.ite_none_right_eq_some.mp h
      obtain rfl := Option.some.inj h
      refine .ends 0 ("failed to start " ++ s.exePath) (by simp [hs]) ?_ fun hnil => ?_
      · rw [ending,taking_zero]
        rfl
      · exact (append_ne_empty (by decide) hnil).elim
    | crashed | timedout | readError | writeError | unknownError =>
      obtain rfl := Option.some.inj h
      exact .slot 0 s.error s.timerRunning id (taking_zero s s.error).symm
  | processFinished results =>
    obtain ⟨hstate,status,n,error,hstatus,rfl,hcases⟩ := step_processFinished h
    refine .ends n error (by simp [hstate]) rfl fun hnil => ?_
    rcases hcases with ⟨rfl,hn,-⟩ | ⟨-,herror⟩
    · exact ⟨results,rfl,hstatus,hn⟩
    · exact (herror hnil).elim

theorem Counts.step (h : Counts s) (hstep : machine.step s e = some t) : Counts t := by
  cases step_moves hstep with
  | alive bytes hs ht hdata hpipe hwritten hfinished =>
    refine ⟨?_,?_⟩
    · rw [hdata,hpipe,hwritten,← h.bytes,List.append_assoc]
    · have hemitted := h.emitted
      rw [EmitsOnce,if_neg hs] at hemitted
      rw [EmitsOnce,if_neg ht,hfinished,hemitted]
  | slot n error timer herror ht =>
    subst ht
    refine ⟨?_,h.emitted⟩
    simp [taking,List.append_assoc,h.bytes]
  | ends n error hs ht hsuccess =>
    subst ht
    refine ⟨?_,?_⟩
    · simp [ending,taking,List.append_assoc,h.bytes]
    · have hemitted := h.emitted
      rw [EmitsOnce,if_neg hs] at hemitted
      simp [EmitsOnce,ending,hemitted]

theorem Complete.step (h : Complete s) (hreads : ReadsAll s e)
    (hstep : machine.step s e = some t) : Complete t := by
  cases step_moves hstep with
  | alive bytes hs ht hdata hpipe hwritten hfinished => exact fun hstate => (ht hstate).elim
  | slot n error timer herror ht =>
    subst ht
    intro hstate hnil
    have hpipe := h hstate (herror hnil)
    simp [taking,hpipe]
  | ends n error hs ht hsuccess =>
    subst ht
    intro _ hnil
    obtain ⟨results,rfl,hexited,rfl⟩ := hsuccess hnil
    exact drop_taken_iff.mpr (hreads hexited)

/-- A success that is reported too early stays in the state. -/
theorem incomplete_step (hreads : ¬ ReadsAll s e) (hstep : machine.step s e = some t) :
    ¬ Complete t := by
  cases e with
  | processFinished results =>
    obtain ⟨hexited,hleft⟩ := Classical.not_imp.mp hreads
    obtain ⟨-,status,n,error,hstatus,rfl,hcases⟩ := step_processFinished hstep
    obtain rfl := Option.some.inj (hexited.symm.trans hstatus)
    obtain ⟨-,rfl,rfl⟩ | ⟨hne,-⟩ := hcases
    · exact fun hcomplete => hleft (drop_taken_iff.mp (hcomplete rfl rfl))
    · exact (hne rfl).elim
  | write | exit | started | readFromPipe | timeout | pipeError | error =>
    exact (hreads trivial).elim

theorem Counts.delivers_complete_iff (h : Counts s) : Delivers s ↔ Complete s := by
  have hone : s.finished = 1 ↔ s.state = .notRunning := by
    rw [h.emitted]
    split_ifs with hstate <;> simp [hstate]
  have hread : ∀ bytes, s.read = .ok bytes ↔ s.error = "" ∧ s.imageData = bytes := by
    intro bytes
    unfold read
    split_ifs with herror
    · simp [herror]
    · simp [not_not.mp herror]
  have hall : s.imageData = s.written ↔ s.pipe = [] := by
    rw [← h.bytes]
    simp
  constructor
  · intro hdelivers hstate hnil
    exact hall.mp (hdelivers (hone.mpr hstate) s.imageData ((hread _).mpr ⟨hnil,rfl⟩))
  · intro hcomplete hfinished bytes hok
    obtain ⟨hnil,rfl⟩ := (hread bytes).mp hok
    exact hall.mpr (hcomplete (hone.mp hfinished) hnil)

end Steps

section Runs

variable (filename : String) (timeoutMs : ℕ) (utilDir : Option String) (sharePrivAbs : String)
  (processId : ℕ) (forked : Bool)

theorem extract_counts :
    Counts ((new filename timeoutMs).extract utilDir sharePrivAbs processId forked) := by
  cases forked <;> exact ⟨rfl,rfl⟩

theorem extract_complete :
    Complete ((new filename timeoutMs).extract utilDir sharePrivAbs processId forked) := by
  cases forked <;> exact fun _ _ => rfl

end Runs

/-- After `extract()`, in whatever order the process writes and ends and the slots are called:
`finished()` is emitted once when the end of the process is reported, and what is read then
without an error is all that was written, if and only if every success is reported with nothing
left in the pipe or with no error to keep the last read from taking it. -/
theorem delivers_iff (filename : String) (timeoutMs : ℕ) (utilDir : Option String)
    (sharePrivAbs : String) (processId : ℕ) (forked : Bool) (es : List Event)
    (t : ImageExtractor) (hrun : machine.run
      ((new filename timeoutMs).extract utilDir sharePrivAbs processId forked) es = some t) :
    machine.Always EmitsOnce
      ((new filename timeoutMs).extract utilDir sharePrivAbs processId forked) es ∧
    (machine.Always Delivers
      ((new filename timeoutMs).extract utilDir sharePrivAbs processId forked) es ↔
    machine.AllSteps ReadsAll
      ((new filename timeoutMs).extract utilDir sharePrivAbs processId forked) es) := by
  have hcounts := extract_counts filename timeoutMs utilDir sharePrivAbs processId forked
  have hcomplete := extract_complete filename timeoutMs utilDir sharePrivAbs processId forked
  refine ⟨?_,?_⟩
  · exact Machine.always_of_invariant (fun _ _ _ h => h.step) (fun _ h => h.emitted) es hcounts
  · refine @Machine.always_iff_allSteps _ _ _ _ (fun s => Counts s ∧ Complete s) _
      (fun _ _ _ h hreads hstep => ⟨h.1.step hstep,h.2.step hreads hstep⟩)
      (fun _ h => h.1.delivers_complete_iff.mpr h.2) ?_ _ _ _ ⟨hcounts,hcomplete⟩ hrun
    intro s e t h hreads hstep hdelivers
    exact incomplete_step hreads hstep ((h.1.step hstep).delivers_complete_iff.mp hdelivers)

/-- An extractor with the default timeout, waiting for vs-thumb to start. -/
def extracting : ImageExtractor :=
  (new "film.mp4" 10000).extract none "/usr/lib/thumbnailer" 4242 true

/-- The notifier and the last read share the bytes between them. -/
theorem delivers_twoReads : ∃ t, machine.run extracting
    [.started,.write [255,216],.readFromPipe [.bytes 2,.again],.write [255,217],
      .exit (.normalExit 0),.processFinished [.interrupted,.bytes 2,.endOfFile]] = some t ∧
    machine.Always Delivers extracting
      [.started,.write [255,216],.readFromPipe [.bytes 2,.again],.write [255,217],
        .exit (.normalExit 0),.processFinished [.interrupted,.bytes 2,.endOfFile]] ∧
    t.finished = 1 ∧ t.read = .ok [255,216,255,217] := by
  obtain ⟨t,ht,hfinished,hread⟩ : ∃ t, machine.run extracting
      [.started,.write [255,216],.readFromPipe [.bytes 2,.again],.write [255,217],
        .exit (.normalExit 0),.processFinished [.interrupted,.bytes 2,.endOfFile]] = some t ∧
      t.finished = 1 ∧ t.read = .ok [255,216,255,217] := ⟨_,rfl,rfl,rfl⟩
  have h := delivers_iff "film.mp4" 10000 none "/usr/lib/thumbnailer" 4242 true _ t ht
  exact ⟨t,ht,h.2.mpr (by decide),hfinished,hread⟩

/-- vs-thumb writes four bytes and exits with 0; the timer expires before the end of the process
is noticed, so the last read is left out and the text of the timeout is cleared. -/
theorem timeout_loses : ∃ t, machine.run extracting
    [.started,.write [255,216],.readFromPipe [.bytes 2,.again],.write [255,217],
      .exit (.normalExit 0),.timeout,.processFinished []] = some t ∧
    t.finished = 1 ∧ t.read = .ok [255,216] ∧ t.written = [255,216,255,217] ∧ ¬ Delivers t := by
  obtain ⟨t,ht,hfinished,hread,hwritten⟩ : ∃ t, machine.run extracting
      [.started,.write [255,216],.readFromPipe [.bytes 2,.again],.write [255,217],
        .exit (.normalExit 0),.timeout,.processFinished []] = some t ∧
      t.finished = 1 ∧ t.read = .ok [255,216] ∧ t.written = [255,216,255,217] :=
    ⟨_,rfl,rfl,rfl,rfl⟩
  refine ⟨t,ht,hfinished,hread,hwritten,fun hdelivers => ?_⟩
  have hall := hdelivers hfinished _ hread
  rw [hwritten] at hall
  simp at hall

end ImageExtractor
end UnityThumbnailer
