import Mathlib.Logic.Function.Basic
import UnityThumbnailer.EventSystem
import UnityThumbnailer.Image
import UnityThumbnailer.RateLimiter

/-! The client library: requests to the service behind one limiter. The application
creates, cancels, waits for and destroys requests; the event loop delivers replies and
posted calls, in any order. -/
namespace UnityThumbnailer
namespace Client

abbrev RequestId := ℕ

/-- `watcher_`: not there, waiting for the reply, or having emitted `finished`. -/
inductive Watcher
  | none | pending | replied
  deriving DecidableEq

/-- The D-Bus reply: image data, which may fail to decode, or an error. -/
inductive Reply
  | data (bytes : Option ImageFile)
  | error (message : String)

structure RequestImpl where
  details : String
  requestedSize : QSize
  watcher : Watcher
  cancelFunc : Option CancelFunc
  errorMessage : String
  finished : Bool
  isValid : Bool
  cancelled : Bool
  cancelledWhileWaiting : Bool
  image : Option ImageFile
  /-- Created and not yet destroyed. -/
  live : Bool
  /-- A slot of the application for `finished` is running. -/
  emitting : Bool
  /-- How often `send_request_` ran, `done()` was called for the request, and `finished`
  was emitted; no branch reads these. -/
  sent : ℕ
  accounted : ℕ
  emitted : ℕ

/-- Calls that are posted to the event loop; `pumpLimiter` belongs to a destroyed request. -/
inductive Posted
  | dbusCallFinished (r : RequestId)
  | pumpLimiter (r : RequestId)
  | finished (r : RequestId)
  deriving DecidableEq

/-- The assertions of the code, and the accesses that nothing checks. -/
inductive Assertion
  | runningPositive | notFinished | watcherThere | watcherGone | requestAlive | cancelFuncSet
  deriving DecidableEq

end Client

structure Client where
  limiter : RateLimiter Client.RequestId
  requests : Client.RequestId → Client.RequestImpl
  next : Client.RequestId
  posted : List Client.Posted
  failures : List Client.Assertion

namespace Client

/-- An identity that is not in use yet. -/
def blank : RequestImpl :=
  ⟨"",.invalid,.none,none,"",false,false,false,false,none,false,false,0,0,0⟩

def new (maxBacklog : ℤ) (h : 0 < maxBacklog) : Client :=
  ⟨.new maxBacklog h,fun _ => blank,0,[],[]⟩

def modify (c : Client) (r : RequestId) (f : RequestImpl → RequestImpl) : Client :=
  { c with requests := Function.update c.requests r (f (c.requests r)) }

def check (c : Client) (p : Prop) [Decidable p] (a : Assertion) : Client :=
  if p then c else { c with failures := a :: c.failures }

/-- Post a call to the event loop. -/
def post (c : Client) (p : Posted) : Client := { c with posted := p :: c.posted }

/-- `send_request_`. -/
def send (c : Client) (r : RequestId) : Client :=
  (c.check ((c.requests r).live = true) .requestAlive).modify r fun q =>
    { q with watcher := .pending, sent := q.sent+1 }

/-- Call the job that the limiter returned, if there is one. -/
def call (c : Client) : Option RequestId → Client
  | some r => c.send r
  | none => c

/-- `limiter().done()` on behalf of a request. -/
def done (c : Client) (r : RequestId) : Client :=
  let c := (c.check (0 < c.limiter.running) .runningPositive).modify r fun q =>
    { q with accounted := q.accounted+1 }
  let d := c.limiter.done
  { c with limiter := d.1 }.call d.2

def emitFinished (c : Client) (r : RequestId) : Client :=
  c.modify r fun q => { q with emitting := true, emitted := q.emitted+1 }

def finishWithError (c : Client) (r : RequestId) (errorMessage : String) : Client :=
  (c.modify r fun q => { q with
    errorMessage := errorMessage, finished := true, isValid := false, image := none,
    watcher := .none }).emitFinished r

/-- The slot for the reply, and with no reply the fake call that `cancel()` posts. -/
def dbusCallFinished (c : Client) (r : RequestId) (reply : Option Reply) : Client :=
  let q := c.requests r
  let c := c.check (q.finished = false) .notFinished
  let c := if !q.cancelled || !q.cancelledWhileWaiting then c.done r else c
  if q.cancelled then
    let c := c.finishWithError r "Request cancelled"
    c.check ((c.requests r).watcher = .none) .watcherGone
  else
    let c := c.check ((c.requests r).watcher ≠ .none) .watcherThere
    match reply with
    | some (.data bytes) =>
      (c.modify r fun q => { q with
        image := bytes, finished := true, isValid := true, errorMessage := "" }).emitFinished r
    | some (.error message) =>
      c.finishWithError r
        ("Thumbnailer: RequestImpl::dbusCallFinished(): D-Bus error: " ++ message)
    | none => c

/-- The constructor, with the `finished` that `createRequest()` posts for an invalid size. -/
def create (c : Client) (details : String) (requestedSize : QSize) : Client :=
  let r := c.next
  let q := { blank with details := details, requestedSize := requestedSize, live := true }
  let c := { c with next := r+1 }
  if !requestedSize.isValid then
    (c.modify r fun _ =>
      { q with errorMessage := details ++ ": " ++ "invalid QSize", finished := true }).post
        (.finished r)
  else
    let c := c.modify r fun _ => q
    let s := c.limiter.schedule r
    ({ c with limiter := s.1 }.call s.2.2).modify r fun q => { q with cancelFunc := some s.2.1 }

/-- Call `cancel_func_`. -/
def callCancelFunc (c : Client) (r : RequestId) : Client × Bool :=
  match (c.requests r).cancelFunc with
  | some f =>
    let x := c.limiter.cancel f
    ({ c with limiter := x.1 },x.2)
  | none => (c.check False .cancelFuncSet,false)

def cancel (c : Client) (r : RequestId) : Client :=
  let q := c.requests r
  if q.finished || q.cancelled then c
  else
    let x := (c.modify r fun q => { q with cancelled := true }).callCancelFunc r
    let c := x.1.modify r fun q => { q with cancelledWhileWaiting := x.2 }
    if x.2 then c.post (.dbusCallFinished r) else c

/-- The watcher delivers the reply. -/
def deliver (c : Client) (r : RequestId) (reply : Reply) : Client :=
  (c.modify r fun q => { q with watcher := .replied }).dbusCallFinished r (some reply)

def waitForFinished (c : Client) (r : RequestId) (reply : Reply) : Client :=
  let q := c.requests r
  if q.finished || q.cancelled then c
  else
    let x := c.callCancelFunc r
    let c :=
      if x.2 then
        let c := x.1.check ((x.1.requests r).watcher = .none) .watcherGone
        let s := c.limiter.scheduleNow r
        { c with limiter := s.1 }.call s.2.2
      else x.1
    (c.check ((c.requests r).watcher ≠ .none) .watcherThere).deliver r reply

/-- The destructor; what is posted to the request is no longer delivered. -/
def destroy (c : Client) (r : RequestId) : Client :=
  let x := if (c.requests r).cancelFunc.isSome then c.callCancelFunc r else (c,true)
  let alreadySent := !x.2
  let pump := if (x.1.requests r).watcher ≠ .none ∧ alreadySent then [Posted.pumpLimiter r] else []
  let c := x.1.modify r fun q => { q with live := false, watcher := .none }
  { c with posted := pump ++
      c.posted.filter fun p => p ≠ .dbusCallFinished r ∧ p ≠ .finished r }

/-- What the application and the event loop can do. A request is not destroyed from
inside its own `finished` handler. -/
inductive Event
  | create (details : String) (requestedSize : QSize)
  | cancel (r : RequestId)
  | waitForFinished (r : RequestId) (reply : Reply)
  | destroy (r : RequestId)
  | reply (r : RequestId) (reply : Reply)
  | posted (p : Posted)
  | handlerReturned (r : RequestId)

def deliverPosted (c : Client) : Posted → Client
  | .dbusCallFinished r => c.dbusCallFinished r none
  | .pumpLimiter r => c.done r
  | .finished r => c.emitFinished r

def library : EventSystem.Machine Client Event where
  step c
    | .create details requestedSize => some (c.create details requestedSize)
    | .cancel r => if (c.requests r).live then some (c.cancel r) else none
    | .waitForFinished r reply =>
      if (c.requests r).live then some (c.waitForFinished r reply) else none
    | .destroy r =>
      if (c.requests r).live ∧ ¬ (c.requests r).emitting then some (c.destroy r) else none
    | .reply r reply =>
      if (c.requests r).live ∧ (c.requests r).watcher = .pending then some (c.deliver r reply)
      else none
    | .posted p =>
      if p ∈ c.posted then some ({ c with posted := c.posted.erase p }.deliverPosted p) else none
    | .handlerReturned r =>
      -- back in `dbusCallFinished()`, which resets `watcher_`
      if (c.requests r).emitting then
        some (c.modify r fun q => { q with emitting := false, watcher := .none })
      else none

end Client
end UnityThumbnailer
