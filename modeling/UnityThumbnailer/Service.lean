import Mathlib.Data.Finset.Basic
import UnityThumbnailer.CredentialsCache
import UnityThumbnailer.EventSystem
import UnityThumbnailer.RateLimiter
import UnityThumbnailer.ThumbnailRequest

/-! The service: one handler for each request, chained to the handlers of the same key.
Handlers are numbered as they arrive. The event loop runs one slot at a time; the calls that
a slot still has to make or to return from are kept on an explicit stack, since a handler may
finish deep inside of another one's slot. Pool threads and evictions come in between at any
time. -/
namespace UnityThumbnailer
namespace Service

inductive LimiterId
  | download | extraction
  deriving DecidableEq

/-- The methods that queue a request; a file name comes with what `canonical()` and
`stat()` find, or with the text of the exception if there is no regular file. -/
inductive Method
  | getAlbumArt (artist album : String)
  | getArtistArt (artist album : String)
  | getThumbnail (filename : String) (file : Except String (String × Stat))

namespace Method

def details (m : Method) (size : QSize) : String :=
  let sizeText := " (" ++ toString size.width ++ "," ++ toString size.height ++ ")"
  match m with
  | .getAlbumArt artist album => "album: " ++ artist ++ "/" ++ album ++ sizeText
  | .getArtistArt artist album => "artist: " ++ artist ++ "/" ++ album ++ sizeText
  | .getThumbnail filename _ => "thumbnail: " ++ filename ++ sizeText

/-- The constructor of `LocalThumbnailRequest` -/
def localFile (filename : String) (file : Except String (String × Stat)) :
    Except String (String × Stat) :=
  if filename.toList.head? ≠ some '/' then
    .error ("LocalThumbnailRequest(): " ++ filename ++ ": file name must be an absolute path")
  else file

/-- What the request is for, or why the thumbnailer refuses to create it. -/
def media : Method → Except String Media
  | .getAlbumArt artist album =>
    if album = "" then
      .error (exceptionText "unity::InvalidArgumentException"
        "Thumbnailer::get_album_art(): album is empty" none)
    else .ok (.album artist album)
  | .getArtistArt artist album =>
    if artist = "" then
      .error (exceptionText "unity::InvalidArgumentException"
        "Thumbnailer::get_artist_art(): artist is empty" none)
    else .ok (.artist artist album)
  | .getThumbnail filename file =>
    if filename = "" then
      .error (exceptionText "unity::InvalidArgumentException"
        "Thumbnailer::get_thumbnail(): filename is empty" none)
    else
      match localFile filename file with
      | .ok (canonical,st) => .ok (.localFile canonical st)
      | .error what =>
        .error (exceptionText "unity::ResourceException" "Thumbnailer::get_thumbnail()" (some what))

/-- The text of the error reply for a request that was not created. -/
def refusal (m : Method) (what : String) : String :=
  match m with
  | .getAlbumArt _ _ => what
  | .getArtistArt artist album =>
    "DBusInterface::GetArtistArt(): " ++ artist ++ "/" ++ album ++ ": " ++ what
  | .getThumbnail filename _ => "DBusInterface::GetThumbnail(): " ++ filename ++ ": " ++ what

def limiter : Method → LimiterId
  | .getAlbumArt _ _ | .getArtistArt _ _ => .download
  | .getThumbnail _ _ => .extraction

end Method

/-- The user the service runs as, and its query to AppArmor. -/
structure Config where
  euid : ℕ
  apparmorCanRead : Label → String → Except String Bool

structure ByteArrayOrError where
  ba : Option ImageFile
  error : Option String

/-- A future watcher: without a future, waiting for the pool thread, about to emit
`finished`, or done. -/
inductive Watcher
  | idle | running
  | finished (result : ByteArrayOrError)
  | delivered

structure Handler where
  peer : Peer
  limiter : LimiterId
  request : Request
  details : String
  cancelFunc : Option CancelFunc
  cancelled : Bool
  checkWatcher : Watcher
  createWatcher : Watcher

/-- A vector in `request_keys_`; `ref` is its address. -/
structure KeyEntry where
  ref : ℕ
  handlers : List ℕ

/-- Calls that are still to be made, and the rests of calls that wait for another one:
`pushBack` belongs to `queueRequest()`, `erasePending` to `received_credentials()`,
`scheduled` to `checkFinished()`, `startCreate` to `downloadFinished()`, and `job` is the
function given to `schedule()`. -/
inductive Call
  | begin (h : ℕ)
  | pushBack (h : ℕ) (ref : ℕ)
  | gotCredentials (h : ℕ) (credentials : Credentials)
  | erasePending (peer : Peer)
  | scheduled (h : ℕ) (cancelFunc : CancelFunc)
  | job (h : ℕ)
  | downloadFinished (h : ℕ)
  | startCreate (h : ℕ)

/-- What can be observed of the service. -/
inductive Effect
  | arrived (h : ℕ) (peer : Peer) (media : Media)
  | refused (peer : Peer) (error : String)
  | reported (peer : Peer) (reply : BusReply)
  | began (h : ℕ)
  | ranThumbnail (h : ℕ) (status : FetchStatus)
  | calledDownload (h : ℕ)
  | threwDownload (h : ℕ) (what : String)
  | released (h : ℕ)
  | sentThumbnail (h : ℕ) (ba : Option ImageFile)
  | sentError (h : ℕ) (error : String)
  | finished (h : ℕ)

end Service

open Service in
structure Service where
  handlers : ℕ → Handler
  next : ℕ
  requests : Finset ℕ
  requestKeys : String → Option KeyEntry
  nextRef : ℕ
  /-- Connections of a handler's `finished` with another one's `begin`. -/
  connections : List (ℕ × ℕ)
  /-- Handlers that are deleted when the event loop is reached. -/
  deletions : List ℕ
  credentials : CredentialsCache ℕ
  limiters : LimiterId → RateLimiter ℕ
  thumbnailer : Thumbnailer
  /-- Handlers whose extractor or art reply has yet to emit `finished`. -/
  downloads : List ℕ
  calls : List Call
  terminated : Bool
  /-- A map entry was used after it had been erased. -/
  staleAccess : Bool
  /-- Everything observed so far, newest first. -/
  log : List Effect

namespace Service

def statusText : FetchStatus → String
  | .cacheHit => "HIT"
  | .scaledFromFullsize => "FULL-SIZE HIT"
  | .cachedFailure => "FAILED PREVIOUSLY"
  | .needsDownload => "NEEDS DOWNLOAD"
  | .downloaded => "MISS"
  | .notFound => "NO ARTWORK"
  | .networkDown => "NETWORK DOWN"
  | .hardError => "ERROR"
  | .temporaryError => "TEMPORARY ERROR"
  | .timeout => "TIMEOUT"

namespace Handler

def key (x : Handler) : String := x.request.key

def statusAsString (x : Handler) : String := statusText x.request.status

def new (peer : Peer) (limiter : LimiterId) (media : Media) (size : QSize) (details : String) :
    Handler :=
  ⟨peer,limiter,.new media size,details,none,false,.idle,.idle⟩

/-- Only local files are checked against the credentials of the peer. -/
def checkClientCredentials (cfg : Config) (x : Handler) (user : ℕ) (label : Label) :
    Except String Unit :=
  match x.request.media with
  | .localFile filename _ =>
    if user ≠ cfg.euid then
      .error "LocalThumbnailRequest::fetch(): Request comes from a different user ID"
    else
      match cfg.apparmorCanRead label filename with
      | .error what => .error what
      | .ok true => .ok ()
      | .ok false =>
        .error ("LocalThumbnailRequest::fetch(): AppArmor policy forbids access to " ++ filename)
  | .album .. | .artist .. => .ok ()

def setStatus (x : Handler) (status : FetchStatus) : Handler :=
  { x with request := { x.request with status := status } }

def setDownload (x : Handler) (download : Download) : Handler :=
  { x with request := { x.request with download := some download } }

def setCheckWatcher (x : Handler) (watcher : Watcher) : Handler :=
  { x with checkWatcher := watcher }

def setCreateWatcher (x : Handler) (watcher : Watcher) : Handler :=
  { x with createWatcher := watcher }

def setCancelFunc (x : Handler) (cancelFunc : CancelFunc) : Handler :=
  { x with cancelFunc := some cancelFunc }

def cancel (x : Handler) : Handler := { x with cancelled := true }

/-- Call `cancel_func`, if it is set. -/
def withdraw (x : Handler) (limiter : RateLimiter ℕ) : RateLimiter ℕ :=
  match x.cancelFunc with
  | some f => (limiter.cancel f).1
  | none => limiter

/-- What `do_check` makes of a call of `thumbnail()`; none stands for `abort()`. -/
def checkResult (outcome : Outcome) : Option ByteArrayOrError :=
  match outcome with
  | .returned ba => some ⟨ba,none⟩
  | .threw what => some ⟨none,some what⟩
  | .aborted => none

/-- What `do_create` makes of it: a failure to thumbnail is an error now. -/
def createResult (x : Handler) (outcome : Outcome) : Option ByteArrayOrError :=
  match outcome with
  | .returned (some data) => some ⟨some data,none⟩
  | .returned none =>
    some ⟨none,some ("could not get thumbnail for " ++ x.details ++ ": " ++ x.statusAsString)⟩
  | .threw what => some ⟨none,some what⟩
  | .aborted => none

end Handler

/-- A download that has been started; its state is not read before it has completed. -/
def initialDownload : Media → Download
  | .localFile .. => .extractor (.ok none)
  | .album .. | .artist .. => .artReply ⟨.notFinished,none⟩

/-- A result that the extractor or the art server can leave behind. -/
def Completes (media : Media) (download : Download) : Bool :=
  match media,download with
  | .localFile ..,.extractor _ => true
  | .album ..,.artReply reply | .artist ..,.artReply reply => reply.status ≠ .notFinished
  | _,_ => false

/-- How a call of `download()` ends. An extractor that fails to start emits `finished`
before the call returns. -/
inductive DownloadCall
  | started
  | failedToStart (what : String)
  | threw (what : String)

def blank : Handler := .new "" .download (.album "" "") .invalid ""

def new (apparmorEnabled : Bool) (maxDownloads maxExtractions : ℤ) (hd : 0 < maxDownloads)
    (he : 0 < maxExtractions) (thumbnailer : Thumbnailer) : Service where
  handlers := fun _ => blank
  next := 0
  requests := ∅
  requestKeys := fun _ => none
  nextRef := 0
  connections := []
  deletions := []
  credentials := .new apparmorEnabled
  limiters := fun
    | .download => .new maxDownloads hd
    | .extraction => .new maxExtractions he
  thumbnailer := thumbnailer
  downloads := []
  calls := []
  terminated := false
  staleAccess := false
  log := []

def note (s : Service) (e : Effect) : Service := { s with log := e :: s.log }

/-- Calls to be made next, the first one on top. -/
def push (s : Service) (calls : List Call) : Service := { s with calls := calls ++ s.calls }

def setCalls (s : Service) (calls : List Call) : Service := { s with calls := calls }

def modify (s : Service) (h : ℕ) (f : Handler → Handler) : Service :=
  { s with handlers := Function.update s.handlers h (f (s.handlers h)) }

def setLimiter (s : Service) (l : LimiterId) (limiter : RateLimiter ℕ) : Service :=
  { s with limiters := Function.update s.limiters l limiter }

def setDownloads (s : Service) (downloads : List ℕ) : Service :=
  { s with downloads := downloads }

def setThumbnailer (s : Service) (thumbnailer : Thumbnailer) : Service :=
  { s with thumbnailer := thumbnailer }

def terminate (s : Service) : Service := { s with terminated := true }

def setCredentials (s : Service) (credentials : CredentialsCache ℕ) : Service :=
  { s with credentials := credentials }

/-- `request_keys_[key]` creates the vector if there is none. -/
def keyEntry (s : Service) (key : String) : KeyEntry := (s.requestKeys key).getD ⟨s.nextRef,[]⟩

def setKey (s : Service) (key : String) (e : Option KeyEntry) : Service :=
  { s with requestKeys := Function.update s.requestKeys key e }

def requestFinished (s : Service) (h : ℕ) : Service :=
  let key := (s.handlers h).key
  let rest := (s.keyEntry key).handlers.filter (· ≠ h)
  let s := s.setKey key (if rest = [] then none else some { s.keyEntry key with handlers := rest })
  { s with requests := s.requests.erase h, deletions := h :: s.deletions }

def connected (s : Service) (h : ℕ) : List ℕ :=
  (s.connections.filter (·.1 = h)).map Prod.snd

/-- Emit `finished`: `requestFinished()` is the first slot, the chained handlers follow. -/
def emitFinished (s : Service) (h : ℕ) : Service :=
  ((s.note (.finished h)).requestFinished h).push ((s.connected h).map Call.begin)

def sendThumbnail (s : Service) (h : ℕ) (ba : Option ImageFile) : Service :=
  (s.note (.sentThumbnail h ba)).emitFinished h

def sendError (s : Service) (h : ℕ) (error : String) : Service :=
  (s.note (.sentError h error)).emitFinished h

/-- The request is known from here on, and its key has a vector. -/
def enter (s : Service) (h : ℕ) : Service :=
  let key := (s.handlers h).key
  let s := s.setKey key (some (s.keyEntry key))
  { s with requests := insert h s.requests, nextRef := s.nextRef+1 }

def connect (s : Service) (sender receiver : ℕ) : Service :=
  { s with connections := s.connections ++ [(sender,receiver)] }

def queueRequest (s : Service) (h : ℕ) : Service :=
  let e := s.keyEntry (s.handlers h).key
  match e.handlers.getLast? with
  | none => (s.enter h).push [.begin h,.pushBack h e.ref]
  | some last => ((s.enter h).connect last h).push [.pushBack h e.ref]

/-- The rest of `queueRequest()`, with the reference it took before. -/
def pushBack (s : Service) (h : ℕ) (ref : ℕ) : Service :=
  let key := (s.handlers h).key
  match s.requestKeys key with
  | some e =>
    if e.ref = ref then s.setKey key (some { e with handlers := e.handlers ++ [h] })
    else { s with staleAccess := true }
  | none => { s with staleAccess := true }

def register (s : Service) (x : Handler) : Service :=
  { s with handlers := Function.update s.handlers s.next x, next := s.next+1 }

/-- A method call arrives. -/
def request (s : Service) (peer : Peer) (m : Method) (size : QSize) : Service :=
  match m.media with
  | .error what => s.note (.refused peer (m.refusal what))
  | .ok media =>
    ((s.register (.new peer m.limiter media size (m.details size))).note
      (.arrived s.next peer media)).queueRequest s.next

def gotCredentials (cfg : Config) (s : Service) (h : ℕ) (credentials : Credentials) :
    Service :=
  let x := s.handlers h
  if x.cancelled then s.emitFinished h
  else if !credentials.valid then
    s.sendError h
      ("Handler::gotCredentials(): " ++ x.details ++ ": could not retrieve peer credentials")
  else
    match x.checkClientCredentials cfg credentials.user credentials.label with
    | .error what => s.sendError h ("Handler::gotCredentials(): " ++ x.details ++ ": " ++ what)
    | .ok () => s.modify h (·.setCheckWatcher .running)

def begin (cfg : Config) (s : Service) (h : ℕ) : Service :=
  let s := s.note (.began h)
  let r := s.credentials.get (s.handlers h).peer h
  match r.2 with
  | some credentials => gotCredentials cfg (s.setCredentials r.1) h credentials
  | none => s.setCredentials r.1

/-- The bus daemon answers a query: every waiting handler is called, then the query goes. -/
def receivedCredentials (s : Service) (peer : Peer) (reply : BusReply) : Service :=
  let r := s.credentials.receivedCredentials peer reply
  ((s.setCredentials r.1).note (.reported peer reply)).push
    (r.2.2.map (Call.gotCredentials · r.2.1) ++ [.erasePending peer])

/-- The call of `schedule()`: the job runs now or is queued, then `cancel_func` is set. -/
def schedule (s : Service) (h : ℕ) : Service :=
  let l := (s.handlers h).limiter
  let r := (s.limiters l).schedule h
  (s.setLimiter l r.1).push (r.2.2.toList.map Call.job ++ [.scheduled h r.2.1])

def checkFinished (s : Service) (h : ℕ) (result : ByteArrayOrError) : Service :=
  let x := s.handlers h
  if x.cancelled then s
  else
    match result.error,result.ba with
    | some error,_ =>
      s.sendError h ("Handler::checkFinished(): result error: " ++ x.details ++ ": " ++ error)
    | none,some data => s.sendThumbnail h (some data)
    | none,none =>
      if x.request.status = .needsDownload then s.schedule h
      else
        s.sendError h
          ("Handler::checkFinished(): no artwork for " ++ x.details ++ ": " ++ x.statusAsString)

/-- The try block of `checkFinished()` that is nearest on the stack, and what is below it. -/
def catcher : List Call → Option (ℕ × List Call)
  | [] => none
  | .scheduled h _ :: rest => some (h,rest)
  | _ :: rest => catcher rest

/-- An exception goes up the stack; outside of `checkFinished()` nothing catches it. -/
def unwind (s : Service) (what : String) : Service :=
  match catcher s.calls with
  | some (h,rest) =>
    (s.setCalls rest).sendError h
      ("Handler::checkFinished(): download error: " ++ (s.handlers h).details ++ what)
  | none => s.terminate

/-- The function that `checkFinished()` gives to `schedule()`. -/
def job (s : Service) (h : ℕ) (outcome : DownloadCall) : Option Service :=
  let x := s.handlers h
  if x.cancelled then some s
  else
    match outcome with
    | .started =>
      some (((s.note (.calledDownload h)).modify h
        (·.setDownload (initialDownload x.request.media))).setDownloads (h :: s.downloads))
    | .failedToStart what =>
      match x.request.media with
      | .localFile .. =>
        some (((s.note (.calledDownload h)).modify h (·.setDownload (.extractor (.error what)))).push
          [.downloadFinished h])
      | .album .. | .artist .. => none
    | .threw what => some (((s.note (.calledDownload h)).note (.threwDownload h what)).unwind what)

def downloadFinished (s : Service) (h : ℕ) : Service :=
  let l := (s.handlers h).limiter
  let r := (s.limiters l).done
  ((s.setLimiter l r.1).note (.released h)).push (r.2.toList.map Call.job ++ [.startCreate h])

/-- The rest of `downloadFinished()`. -/
def startCreate (s : Service) (h : ℕ) : Service :=
  if (s.handlers h).cancelled then s else s.modify h (·.setCreateWatcher .running)

def createFinished (s : Service) (h : ℕ) (result : ByteArrayOrError) : Service :=
  if (s.handlers h).cancelled then s
  else if result.error.getD "" ≠ "" then
    s.sendError h ("Handler::createFinished(): " ++ result.error.getD "")
  else s.sendThumbnail h result.ba

/-- The top call of the stack is made or continued. -/
def call (cfg : Config) (s : Service) (outcome : DownloadCall) : Call → Option Service
  | .begin h => some (begin cfg s h)
  | .pushBack h ref => some (s.pushBack h ref)
  | .gotCredentials h credentials => some (gotCredentials cfg s h credentials)
  | .erasePending peer => some (s.setCredentials (s.credentials.erasePending peer))
  | .scheduled h cancelFunc => some (s.modify h (·.setCancelFunc cancelFunc))
  | .job h => s.job h outcome
  | .downloadFinished h => some (s.downloadFinished h)
  | .startCreate h => some (s.startCreate h)

/-- A call of `thumbnail()` in a pool thread for the handler. -/
def thumbnail (s : Service) (h : ℕ) (w : World) : Outcome × Service :=
  let r := s.thumbnailer.thumbnail w (s.handlers h).request
  (r.outcome,((s.setThumbnailer r.thumbnailer).modify h (·.setStatus r.status)).note
    (.ranThumbnail h r.status))

/-- `check()`, in a thread of the check pool. -/
def check (s : Service) (h : ℕ) (w : World) : Service :=
  if (s.handlers h).cancelled then s.modify h (·.setCheckWatcher (.finished ⟨none,none⟩))
  else
    let r := s.thumbnail h w
    match Handler.checkResult r.1 with
    | some result => r.2.modify h (·.setCheckWatcher (.finished result))
    | none => r.2.terminate

/-- `create()`, in a thread of the create pool. -/
def create (s : Service) (h : ℕ) (w : World) : Service :=
  if (s.handlers h).cancelled then s.modify h (·.setCreateWatcher (.finished ⟨none,none⟩))
  else
    let r := s.thumbnail h w
    match (r.2.handlers h).createResult r.1 with
    | some result => r.2.modify h (·.setCreateWatcher (.finished result))
    | none => r.2.terminate

/-- The destructor. The results of the pool threads it waits for are not used any more. -/
def delete (s : Service) (h : ℕ) : Service :=
  let x := s.handlers h
  let s := (s.setLimiter x.limiter (x.withdraw (s.limiters x.limiter))).modify h Handler.cancel
  { s with
    connections := s.connections.filter fun c => c.1 ≠ h ∧ c.2 ≠ h
    downloads := s.downloads.filter (· ≠ h)
    deletions := s.deletions.filter (· ≠ h) }

/-- What happens next: a method call, an answer of the bus daemon, a signal of a watcher
or a download, a deferred deletion, a pool thread, an eviction, or the next call on the
stack with the way a `download()` that it makes ends. -/
inductive Event
  | request (peer : Peer) (m : Method) (size : QSize)
  | credentialsReply (peer : Peer) (reply : BusReply)
  | checkFinished (h : ℕ)
  | downloadComplete (h : ℕ) (download : Download)
  | createFinished (h : ℕ)
  | delete (h : ℕ)
  | check (h : ℕ) (w : World)
  | create (h : ℕ) (w : World)
  | evict (cache : Cache) (key : String)
  | call (outcome : DownloadCall)

/-- The event loop starts a slot when the one before has returned. -/
def slot (s : Service) (enabled : Prop) [Decidable enabled] (t : Service) : Option Service :=
  if s.calls.isEmpty ∧ enabled then some t else none

def step (cfg : Config) (s : Service) : Event → Option Service
  | .request peer m size => s.slot True (s.request peer m size)
  | .credentialsReply peer reply =>
    match s.credentials.pending peer with
    | some q => s.slot (q.replied = false) (s.receivedCredentials peer reply)
    | none => none
  | .checkFinished h =>
    match (s.handlers h).checkWatcher with
    | .finished result =>
      s.slot True ((s.modify h (·.setCheckWatcher .delivered)).checkFinished h result)
    | _ => none
  | .downloadComplete h download =>
    s.slot (h ∈ s.downloads ∧ Completes (s.handlers h).request.media download)
      (((s.setDownloads (s.downloads.erase h)).modify h (·.setDownload download)).push
        [.downloadFinished h])
  | .createFinished h =>
    match (s.handlers h).createWatcher with
    | .finished result =>
      s.slot True ((s.modify h (·.setCreateWatcher .delivered)).createFinished h result)
    | _ => none
  | .delete h => s.slot (h ∈ s.deletions) (s.delete h)
  | .check h w =>
    match (s.handlers h).checkWatcher with
    | .running => some (s.check h w)
    | _ => none
  | .create h w =>
    match (s.handlers h).createWatcher with
    | .running => some (s.create h w)
    | _ => none
  | .evict cache key => some (s.setThumbnailer (s.thumbnailer.evict cache key))
  | .call outcome =>
    match s.calls with
    | [] => none
    | c::rest => call cfg (s.setCalls rest) outcome c

def machine (cfg : Config) : EventSystem.Machine Service Event where
  step s e := if s.terminated then none else s.step cfg e

end Service
end UnityThumbnailer
