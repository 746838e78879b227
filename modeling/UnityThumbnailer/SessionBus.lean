import UnityThumbnailer.AccessControl
import UnityThumbnailer.Answering
import UnityThumbnailer.ClientTurns

/-! Applications and the service on the session bus. An application uses one instance of the
client library or more; their method calls and the replies take any time on their way, and
overtake each other. Other peers may call the service without the library. -/
namespace UnityThumbnailer
namespace SessionBus

/-- An instance of the client library. -/
abbrev Instance := ℕ

/-- A method call, by the instance that makes it and the request it is for. -/
abbrev CallId := Instance × Client.RequestId

/-- What a request is for. -/
inductive Wanted
  | albumArt (artist album : String)
  | artistArt (artist album : String)
  | thumbnail (filename : String)

namespace Wanted

/-- `details_` of the request. -/
def details (w : Wanted) (size : QSize) : String :=
  let sizeText := "(" ++ toString size.width ++ "," ++ toString size.height ++ ") "
  match w with
  | albumArt artist album => "getAlbumArt: " ++ sizeText ++ "\"" ++ artist ++ "\", \"" ++ album ++ "\""
  | artistArt artist album =>
    "getArtistArt: " ++ sizeText ++ "\"" ++ artist ++ "\", \"" ++ album ++ "\""
  | thumbnail filename => "getThumbnail: " ++ sizeText ++ filename

/-- The method call that `job_` makes, with the name that `canonical()` finds for the file
and what the service finds under that name. -/
def method (canonical : Option String) (file : Except String (String × Stat)) : Wanted → Service.Method
  | albumArt artist album => .getAlbumArt artist album
  | artistArt artist album => .getArtistArt artist album
  | thumbnail filename => .getThumbnail (canonical.getD filename) file

end Wanted
end SessionBus

open SessionBus in
structure SessionBus where
  clients : Instance → Client
  /-- The request whose `waitForFinished()` an instance is blocked in. -/
  blocked : Instance → Option Client.RequestId
  wanted : CallId → Wanted × QSize
  service : Service
  /-- `message_` of a handler, if it came from the library. -/
  message : ℕ → Option CallId
  calls : List CallId
  replies : List (CallId × Client.Reply)

namespace SessionBus

open EventSystem

/-- Libraries with these limits, before anything is requested from the service. -/
def new (maxBacklog : Instance → { n : ℤ // 0 < n }) (service : Service) : SessionBus where
  clients := fun i => .new (maxBacklog i).1 (maxBacklog i).2
  blocked := fun _ => none
  wanted := fun _ => (.thumbnail "",.invalid)
  service := service
  message := fun _ => none
  calls := []
  replies := []

/-- How often a method call was made for the request; who is blocked has made it. -/
def made (b : SessionBus) (k : CallId) : ℕ :=
  if b.blocked k.1 = some k.2 then 1 else ((b.clients k.1).requests k.2).sent

/-- The calls of one instance that `d` has made and `b` has not. -/
def newCalls (b d : SessionBus) (i : Instance) : List CallId :=
  ((List.range (d.clients i).next).filter fun r => b.made (i,r) < d.made (i,r)).map (i,·)

/-- The library has done something, and what it sent is on its way. -/
def setClient (b : SessionBus) (i : Instance) (c : Client) (blocked : Option Client.RequestId) :
    SessionBus :=
  let d := { b with
    clients := Function.update b.clients i c
    blocked := Function.update b.blocked i blocked }
  { d with calls := b.calls ++ b.newCalls d i }

def setWanted (b : SessionBus) (k : CallId) (w : Wanted) (size : QSize) : SessionBus :=
  { b with wanted := Function.update b.wanted k (w,size) }

def setReplies (b : SessionBus) (replies : List (CallId × Client.Reply)) : SessionBus :=
  { b with replies := replies }

/-- The reply that a handler sends to its method call. -/
def answerOf (message : ℕ → Option CallId) : Service.Effect → Option (CallId × Client.Reply)
  | .sentThumbnail h ba => (message h).map (·,.data ba)
  | .sentError h error => (message h).map (·,.error error)
  | _ => none

/-- The service has done something, and the replies it sent are on their way. -/
def setService (b : SessionBus) (t : Service) : SessionBus :=
  let new := t.log.take (t.log.length-b.service.log.length)
  { b with service := t, replies := b.replies ++ new.reverse.filterMap (answerOf b.message) }

/-- A method call of the library reaches the service: it has a handler, or is refused. -/
def accept (b : SessionBus) (k : CallId) (m : Service.Method) : SessionBus :=
  let d := { b with calls := b.calls.erase k }
  match m.media with
  | .ok _ => { d with message := Function.update b.message b.service.next (some k) }
  | .error what => { d with replies := b.replies ++ [(k,.error (m.refusal what))] }

/-- The watcher of the request waits for the reply. -/
def Awaits (b : SessionBus) (k : CallId) : Prop :=
  b.blocked k.1 = some k.2 ∨ b.blocked k.1 = none ∧
    ((b.clients k.1).requests k.2).live = true ∧
      ((b.clients k.1).requests k.2).watcher = .pending

instance (b : SessionBus) (k : CallId) : Decidable (b.Awaits k) :=
  inferInstanceAs (Decidable (_ ∨ _))

/-- A reply gets through to its request. -/
def receive (b : SessionBus) (k : CallId) (reply : Client.Reply) : Option SessionBus :=
  let e := if b.blocked k.1 = some k.2 then .waitForFinished k.2 reply else .reply k.2 reply
  (Client.library.step (b.clients k.1) e).map fun c => b.setClient k.1 c none

/-- What happens next: the application or the event loop of an instance does something that
is no reply, a method call arrives at the service, the service goes on, or a reply arrives,
also one that the bus makes up after a time or when the service has gone. -/
inductive Event
  | create (i : Instance) (w : Wanted) (size : QSize)
  | client (i : Instance) (e : Client.Event)
  | wait (i : Instance) (r : Client.RequestId)
  | dispatch (k : CallId) (canonical : Option String) (file : Except String (String × Stat))
  | service (e : Service.Event)
  | deliver (k : CallId)
  | timeout (k : CallId) (message : String)

/-- What an instance does by itself with requests that it has. -/
def Inner : Client.Event → Prop
  | .cancel _ | .destroy _ | .posted _ | .handlerReturned _ => True
  | _ => False

instance : DecidablePred Inner := fun e => by cases e <;> unfold Inner <;> infer_instance

def step (cfg : Service.Config) (peer : Instance → Peer) (b : SessionBus) :
    Event → Option SessionBus
  | .create i w size =>
    if b.blocked i = none then
      (Client.library.step (b.clients i) (.create (w.details size) size)).map fun c =>
        (b.setWanted (i,(b.clients i).next) w size).setClient i c none
    else none
  | .client i e =>
    if b.blocked i = none ∧ Inner e then
      (Client.library.step (b.clients i) e).map fun c => b.setClient i c none
    else none
  | .wait i r =>
    let q := (b.clients i).requests r
    if b.blocked i = none ∧ q.live = true ∧ q.finished = false ∧ q.cancelled = false then
      some (b.setClient i (b.clients i) (some r))
    else none
  | .dispatch k canonical file =>
    let w := b.wanted k
    let m := w.1.method canonical file
    if k ∈ b.calls then
      ((Service.machine cfg).step b.service (.request (peer k.1) m w.2)).map fun t =>
        (b.accept k m).setService t
    else none
  | .service e => ((Service.machine cfg).step b.service e).map b.setService
  | .deliver k =>
    match b.replies.find? (·.1 = k) with
    | some (_,reply) =>
      let d := b.setReplies (b.replies.eraseP (·.1 = k))
      if b.Awaits k then d.receive k reply
      -- nobody waits for it any more
      else if b.blocked k.1 = none then some d
      else none
    | none => none
  | .timeout k message => if b.Awaits k then b.receive k (.error message) else none

def machine (cfg : Service.Config) (peer : Instance → Peer) :
    EventSystem.Machine SessionBus Event where
  step := step cfg peer

end SessionBus

/-! ### What the service sends -/

namespace Service

/-- In one step the service answers no handler or one. -/
inductive Answering (s t : Service) : Prop
  | nobody {es : List Effect} (hnext : t.next = s.next) (hrequests : t.requests = s.requests)
    (hes : ∀ a ∈ es, a.answers = none) (hlog : t.log = es ++ s.log) : Answering s t
  | one {h : ℕ} {a : Effect} {es : List Effect} (hnext : t.next = s.next) (hh : h ∈ s.requests)
    (ha : a.answers = some h) (hrequests : t.requests = s.requests.erase h)
    (hes : ∀ a ∈ es, a.answers = none) (hlog : t.log = (.finished h :: a :: es) ++ s.log) :
    Answering s t

section

variable {cfg : Config} {e : Event} {s t u : Service}

theorem Effect.answers_of_quiet {a : Effect} (ha : a.quiet = true) : a.answers = none := by
  cases a with
  | sentThumbnail | sentError => cases ha
  | _ => rfl

theorem Quiet.answering (hq : Quiet s t) : Answering s t := by
  obtain ⟨es,hes,hlog⟩ := hq.log
  exact .nobody hq.next hq.requests (fun a ha => Effect.answers_of_quiet (hes a ha)) hlog

theorem Quiet.answering_began {h : ℕ} {rest : List Call}
    (hq : Quiet ((s.setCalls rest).note (.began h)) t) : Answering s t := by
  obtain ⟨es,hes,hlog⟩ := hq.log
  have hbegan : t.log = (es ++ [.began h]) ++ s.log := hlog.trans (by simp; rfl)
  refine .nobody hq.next hq.requests (fun a ha => ?_) hbegan
  rcases List.mem_append.mp ha with ha | ha
  · exact Effect.answers_of_quiet (hes a ha)
  · obtain rfl := List.mem_singleton.mp ha
    rfl

/-- An answer after a quiet beginning. -/
theorem Answering.answer {h : ℕ} {a : Effect} (hn : Answering s u) (hsame : u.requests = s.requests)
    (hl : Lifecycle (token h) u) (ha : a.answers = some h) :
    Answering s ((u.note a).emitFinished h) := by
  have hheld : token h h = 1 := if_pos rfl
  have hunfinished := hl.unfinished (x:=h) (by omega)
  have hh : h ∈ u.requests := (hl.requests h).mpr ⟨hunfinished.2.2.2,hunfinished.2.1⟩
  cases hn with
  | nobody hnext hrequests hes hlog =>
    rw [hsame] at hh
    have hfinished : ((u.note a).emitFinished h).log = .finished h :: a :: u.log := rfl
    exact .one hnext hh ha (congrArg (·.erase h) hsame) hes (by rw [hfinished,hlog]; rfl)
  | one hnext hx hax hrequests hes hlog =>
    rw [← hsame,hrequests] at hx
    exact absurd hx (Finset.notMem_erase _ _)

theorem Transition.answering (ht : Transition cfg s e t) (hs : Sound s) (hc : ¬ e.arrives) :
    Answering s t := by
  cases (ht.milestone hs.lifecycle hs.stacked).1 with
  | quiet hq => exact hq.answering
  | arrived => exact absurd rfl hc
  | began hcalls hq => exact hq.answering_began
  | answered hp hq hl ha => exact hq.answering.answer hq.requests hl ha
  | begunAnswered hcalls hknown hdenied hq hl ha =>
    exact hq.answering_began.answer hq.requests hl ha
  | @pushed o h ref rest hcalls =>
    obtain ⟨hm,-⟩ := Moves.pushBack (s.setCalls rest) h ref
    obtain ⟨es,hes,hlog⟩ := hm.log
    exact .nobody hm.next hm.requests (fun a ha => Effect.answers_of_quiet (hes a ha)) hlog
  | deleted => exact .nobody rfl rfl (List.forall_mem_nil _) rfl

/-- A method call that arrives is refused, or it has a handler from then on. -/
inductive Reception (s : Service) (peer : Peer) (m : Method) (size : QSize) (t : Service) : Prop
  | refused {what : String} (hmedia : m.media = .error what) (hnext : t.next = s.next)
    (hrequests : t.requests = s.requests) (hhandlers : t.handlers = s.handlers)
    (hlog : t.log = [.refused peer (m.refusal what)] ++ s.log) : Reception s peer m size t
  | admitted {media : Media} (hmedia : m.media = .ok media) (hnext : t.next = s.next+1)
    (hrequests : t.requests = insert s.next s.requests)
    (hhandlers : t.handlers = Function.update s.handlers s.next
      (.new peer m.limiter media size (m.details size)))
    (hlog : t.log = [.arrived s.next peer media] ++ s.log) : Reception s peer m size t

theorem queueRequest_requests (s : Service) (h : ℕ) :
    (s.queueRequest h).requests = insert h s.requests := by
  rcases queueRequest_cases s h with ⟨-,hq⟩ | ⟨last,-,hq⟩ <;> rw [hq] <;> rfl

theorem reception {peer : Peer} {m : Method} {size : QSize}
    (ht : (machine cfg).step s (.request peer m size) = some t) :
    Reception s peer m size t := by
  obtain ⟨-,ht⟩ := machine_step ht
  obtain ⟨-,-,rfl⟩ := slot_some ht
  unfold request
  cases hmedia : m.media with
  | error what => exact .refused hmedia rfl rfl rfl rfl
  | ok media =>
    exact .admitted hmedia (queueRequest_next ..) (queueRequest_requests ..)
      (queueRequest_handlers ..) (queueRequest_log ..)

/-- What none of its methods writes never changes in a handler. -/
structure Constant {A : Type*} (f : Handler → A) : Prop where
  status : ∀ y st, f (y.setStatus st) = f y
  download : ∀ y d, f (y.setDownload d) = f y
  checkWatcher : ∀ y w, f (y.setCheckWatcher w) = f y
  createWatcher : ∀ y w, f (y.setCreateWatcher w) = f y
  cancelFunc : ∀ y c, f (y.setCancelFunc c) = f y
  cancel : ∀ y, f (Handler.cancel y) = f y

theorem requestedSize_constant : Constant fun y => y.request.requestedSize :=
  ⟨fun _ _ => rfl,fun _ _ => rfl,fun _ _ => rfl,fun _ _ => rfl,fun _ _ => rfl,fun _ => rfl⟩

theorem Constant.update {A : Type*} {f : Handler → A} {y : Handler} {h x : ℕ}
    (hhandlers : t.handlers = Function.update s.handlers h y) (hy : f y = f (s.handlers h)) :
    f (t.handlers x) = f (s.handlers x) := by
  rw [hhandlers,Function.update_apply]
  split_ifs with hx
  · rw [hy,hx]
  · rfl

theorem Transition.constant {A : Type*} {f : Handler → A} (ht : Transition cfg s e t)
    (hf : Constant f) {x : ℕ} (hx : x < s.next) : f (t.handlers x) = f (s.handlers x) := by
  cases ht with
  | refused | reported | asked | erased | caught | uncaught | released | evicted => rfl
  | arrived hidle hmedia =>
    rw [queueRequest_handlers]
    exact congrArg f (Function.update_of_ne hx.ne ..)
  | @cleared o u h c hr hc =>
    refine Constant.update (h:=h) (y:=(s.handlers h).setCheckWatcher .running) ?_
      (hf.checkWatcher ..)
    rw [← hr.handlers]
    rfl
  | denied hr hc => exact congrArg f (congrFun hr.handlers x)
  | pushed hcalls => exact congrArg f (congrFun (pushBack_handlers ..) x)
  | returned hcalls => exact Constant.update rfl (hf.cancelFunc ..)
  | started hcalls | failed hcalls => exact Constant.update rfl (hf.download ..)
  | creating hcalls => exact Constant.update rfl (hf.createWatcher ..)
  | checkAnswered | scheduled => exact Constant.update rfl (hf.checkWatcher ..)
  | createAnswered => exact Constant.update rfl (hf.createWatcher ..)
  | completed hidle hd => exact Constant.update rfl (hf.download ..)
  | deleted => exact Constant.update rfl (hf.cancel _)
  | checked hw hr =>
    exact Constant.update (thumbnail_modify_handlers ..) ((hf.checkWatcher ..).trans (hf.status ..))
  | created hw hr =>
    exact Constant.update (thumbnail_modify_handlers ..) ((hf.createWatcher ..).trans (hf.status ..))
  | aborted hw ha => exact Constant.update rfl (hf.status ..)

end
end Service
end UnityThumbnailer
