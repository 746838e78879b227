import UnityThumbnailer.Service

/-! How far the handlers are. A handler waits to begin in one place at most, has begun at
most once, is then in one place at most that carries it on, and finishes at most once. -/
namespace UnityThumbnailer
namespace Service

/-- The handler whose `begin()` is on the stack. -/
def Call.begins : Call → Option ℕ
  | .begin h => some h
  | _ => none

/-- The handler that a call on the stack carries on. -/
def Call.works : Call → Option ℕ
  | .gotCredentials h _ | .job h | .downloadFinished h | .startCreate h => some h
  | _ => none

def Call.pushes : Call → Option (ℕ × ℕ)
  | .pushBack h ref => some (h,ref)
  | _ => none

def Effect.begins : Effect → Option ℕ
  | .began h => some h
  | _ => none

def Effect.answers : Effect → Option ℕ
  | .sentThumbnail h _ | .sentError h _ => some h
  | _ => none

def Effect.finishes : Effect → Option ℕ
  | .finished h => some h
  | _ => none

/-- Effects that neither bring a handler in, nor begin, answer or finish one. -/
def Effect.quiet : Effect → Bool
  | .arrived .. | .began _ | .sentThumbnail .. | .sentError .. | .finished _ => false
  | _ => true

/-- A watcher that will still emit `finished`. -/
def Watcher.active : Watcher → ℕ
  | .running | .finished _ => 1
  | .idle | .delivered => 0

def Handler.watched (x : Handler) : ℕ := x.checkWatcher.active+x.createWatcher.active

section Counts

variable (s : Service) (x : ℕ)

def begun : List ℕ := s.log.filterMap Effect.begins
def answered : List ℕ := s.log.filterMap Effect.answers
def ended : List ℕ := s.log.filterMap Effect.finishes

/-- The places where a handler waits for its `begin()`. -/
def waiting : ℕ :=
  (s.calls.filterMap Call.begins).count x +
    s.connections.countP fun c => c.2 = x ∧ c.1 ∉ s.ended

def queued : ℕ :=
  (s.limiters .download).pending.count x+(s.limiters .extraction).pending.count x

/-- The places from which a handler that has begun will be carried on. -/
def work : ℕ :=
  (s.calls.filterMap Call.works).count x + (s.credentials.asked (s.handlers x).peer).count x +
    (s.handlers x).watched + s.queued x + s.downloads.count x

end Counts

/-- One place in the hands of the code that runs. -/
def token (h x : ℕ) : ℕ := if h = x then 1 else 0

def nothing (_ : ℕ) : ℕ := 0

/-- The accounts of all handlers, with the places that the running code has taken a
handler out of and not yet put it back. -/
structure Lifecycle (held : ℕ → ℕ) (s : Service) : Prop where
  waits : ∀ x, s.waiting x+s.begun.count x ≤ if x < s.next then 1 else 0
  works : ∀ x, s.work x+held x+s.ended.count x ≤ s.begun.count x
  requests : ∀ x, x ∈ s.requests ↔ x < s.next ∧ s.ended.count x = 0
  answers : ∀ x, s.answered.count x = s.ended.count x
  cancelled : ∀ x, (s.handlers x).cancelled = true → 0 < s.ended.count x
  deletions : ∀ x ∈ s.deletions, 0 < s.ended.count x
  asks : ∀ p, ∀ x ∈ s.credentials.asked p, (s.handlers x).peer = p ∧ x < s.next

/-- Handlers only move on between their beginning and their end. -/
structure Moves (s t : Service) : Prop where
  next : t.next = s.next
  requests : t.requests = s.requests
  connections : t.connections = s.connections
  deletions : t.deletions = s.deletions
  begins : t.calls.filterMap Call.begins = s.calls.filterMap Call.begins
  peer : ∀ x, (t.handlers x).peer = (s.handlers x).peer
  media : ∀ x, (t.handlers x).request.media = (s.handlers x).request.media
  cancelled : ∀ x, (t.handlers x).cancelled = (s.handlers x).cancelled
  log : ∃ es, (∀ e ∈ es, Effect.quiet e = true) ∧ t.log = es ++ s.log

/-- The map of the keys and its users are left alone, too. -/
structure Quiet (s t : Service) : Prop extends Moves s t where
  requestKeys : t.requestKeys = s.requestKeys
  staleAccess : t.staleAccess = s.staleAccess
  pushes : t.calls.filterMap Call.pushes = s.calls.filterMap Call.pushes

namespace Lifecycle

variable {held : ℕ → ℕ} {s t : Service} {h x : ℕ}

theorem begun_le (hl : Lifecycle held s) (x : ℕ) : s.begun.count x ≤ 1 := by
  have hw := hl.waits x
  split at hw <;> omega

theorem ended_le (hl : Lifecycle held s) (x : ℕ) : s.ended.count x ≤ 1 := by
  have hk := hl.works x
  have hb := hl.begun_le x
  omega

theorem known (hl : Lifecycle held s) (hx : 0 < s.waiting x+s.begun.count x) : x < s.next := by
  have hw := hl.waits x
  by_contra hn
  rw [if_neg hn] at hw
  omega

/-- A handler with a place has begun and not finished. -/
theorem unfinished (hl : Lifecycle held s) (hx : 0 < s.work x+held x) :
    s.begun.count x = 1 ∧ s.ended.count x = 0 ∧ s.waiting x = 0 ∧ x < s.next := by
  have hk := hl.works x
  have hb := hl.begun_le x
  have hn := hl.known (by omega : 0 < s.waiting x+s.begun.count x)
  have hw := hl.waits x
  rw [if_pos hn] at hw
  exact ⟨by omega,by omega,by omega,hn⟩

theorem not_cancelled (hl : Lifecycle held s) (hx : s.ended.count x = 0) :
    (s.handlers x).cancelled = false := by
  cases hc : (s.handlers x).cancelled with
  | false => rfl
  | true =>
    have hpos := hl.cancelled x hc
    omega

theorem alive (hl : Lifecycle held s) (hx : 0 < s.work x+held x) :
    (s.handlers x).cancelled = false :=
  hl.not_cancelled (hl.unfinished hx).2.1

/-- Who waits for `begin()` has neither begun nor finished. -/
theorem before (hl : Lifecycle held s) (hx : 0 < s.waiting x) :
    s.begun.count x = 0 ∧ s.ended.count x = 0 ∧ x < s.next := by
  have hn := hl.known (by omega : 0 < s.waiting x+s.begun.count x)
  have hw := hl.waits x
  have hk := hl.works x
  rw [if_pos hn] at hw
  exact ⟨by omega,by omega,hn⟩

end Lifecycle

namespace Moves

variable {s t u : Service}

theorem trans (h : Moves s t) (h' : Moves t u) : Moves s u where
  next := h'.next.trans h.next
  requests := h'.requests.trans h.requests
  connections := h'.connections.trans h.connections
  deletions := h'.deletions.trans h.deletions
  begins := h'.begins.trans h.begins
  peer x := (h'.peer x).trans (h.peer x)
  media x := (h'.media x).trans (h.media x)
  cancelled x := (h'.cancelled x).trans (h.cancelled x)
  log := by
    obtain ⟨es,hes,hlog⟩ := h.log
    obtain ⟨es',hes',hlog'⟩ := h'.log
    refine ⟨es' ++ es,?_,by rw [hlog',hlog,List.append_assoc]⟩
    intro e he
    exact (List.mem_append.mp he).elim (hes' e) (hes e)

/-- Quiet effects are of no kind that is counted. -/
theorem filterMap_log {f : Effect → Option ℕ} (h : Moves s t)
    (hf : ∀ e, Effect.quiet e = true → f e = none) : t.log.filterMap f = s.log.filterMap f := by
  obtain ⟨es,hes,hlog⟩ := h.log
  have hnil : es.filterMap f = [] :=
    List.filterMap_eq_nil_iff.mpr fun e he => hf e (hes e he)
  rw [hlog,List.filterMap_append,hnil,List.nil_append]

theorem begun (h : Moves s t) : t.begun = s.begun :=
  h.filterMap_log fun e he => by cases e <;> simp_all [Effect.quiet,Effect.begins]

theorem answered (h : Moves s t) : t.answered = s.answered :=
  h.filterMap_log fun e he => by cases e <;> simp_all [Effect.quiet,Effect.answers]

theorem ended (h : Moves s t) : t.ended = s.ended :=
  h.filterMap_log fun e he => by cases e <;> simp_all [Effect.quiet,Effect.finishes]

theorem waiting (h : Moves s t) (x : ℕ) : t.waiting x = s.waiting x := by
  unfold Service.waiting
  rw [h.begins,h.connections,h.ended]

theorem key (h : Moves s t) (x : ℕ) : (t.handlers x).key = (s.handlers x).key :=
  congrArg Media.key (h.media x)

/-- A call is taken off the stack that is not a `begin()`. -/
theorem pop {c : Call} {rest : List Call} (hcalls : s.calls = c::rest) (hbegins : c.begins = none) :
    Moves s (s.setCalls rest) where
  next := rfl
  requests := rfl
  connections := rfl
  deletions := rfl
  begins := by simp [hcalls,setCalls,hbegins]
  peer _ := rfl
  media _ := rfl
  cancelled _ := rfl
  log := ⟨[],by simp,rfl⟩

end Moves

namespace Quiet

variable {s t u : Service}

theorem trans (h : Quiet s t) (h' : Quiet t u) : Quiet s u where
  toMoves := h.toMoves.trans h'.toMoves
  requestKeys := h'.requestKeys.trans h.requestKeys
  staleAccess := h'.staleAccess.trans h.staleAccess
  pushes := h'.pushes.trans h.pushes

/-- The data that a step leaves as it is, up to the stack, the records and the log. -/
theorem of_eq (hnext : t.next = s.next) (hrequests : t.requests = s.requests)
    (hkeys : t.requestKeys = s.requestKeys) (hconnections : t.connections = s.connections)
    (hdeletions : t.deletions = s.deletions) (hstale : t.staleAccess = s.staleAccess)
    (hbegins : t.calls.filterMap Call.begins = s.calls.filterMap Call.begins)
    (hpushes : t.calls.filterMap Call.pushes = s.calls.filterMap Call.pushes)
    (hhandlers : t.handlers = s.handlers) (hlog : t.log = s.log) : Quiet s t where
  next := hnext
  requests := hrequests
  connections := hconnections
  deletions := hdeletions
  begins := hbegins
  peer x := by rw [hhandlers]
  media x := by rw [hhandlers]
  cancelled x := by rw [hhandlers]
  log := ⟨[],by simp,hlog⟩
  requestKeys := hkeys
  staleAccess := hstale
  pushes := hpushes

variable (s)

theorem note {e : Effect} (he : e.quiet = true) : Quiet s (s.note e) where
  next := rfl
  requests := rfl
  connections := rfl
  deletions := rfl
  begins := rfl
  peer _ := rfl
  media _ := rfl
  cancelled _ := rfl
  log := ⟨[e],by simpa using he,rfl⟩
  requestKeys := rfl
  staleAccess := rfl
  pushes := rfl

/-- Changes to a record that keep its peer, its media and the mark of the destructor. -/
theorem modify {h : ℕ} {f : Handler → Handler} (hpeer : ∀ x, (f x).peer = x.peer)
    (hmedia : ∀ x, (f x).request.media = x.request.media)
    (hcancelled : ∀ x, (f x).cancelled = x.cancelled) : Quiet s (s.modify h f) where
  next := rfl
  requests := rfl
  connections := rfl
  deletions := rfl
  begins := rfl
  peer x := by
    by_cases hx : x = h
    · simp [Service.modify,hx,hpeer]
    · simp [Service.modify,hx]
  media x := by
    by_cases hx : x = h
    · simp [Service.modify,hx,hmedia]
    · simp [Service.modify,hx]
  cancelled x := by
    by_cases hx : x = h
    · simp [Service.modify,hx,hcancelled]
    · simp [Service.modify,hx]
  log := ⟨[],by simp,rfl⟩
  requestKeys := rfl
  staleAccess := rfl
  pushes := rfl

theorem setCheckWatcher (h : ℕ) (w : Watcher) :
    Quiet s (s.modify h (·.setCheckWatcher w)) :=
  modify s (fun _ => rfl) (fun _ => rfl) fun _ => rfl

theorem setCreateWatcher (h : ℕ) (w : Watcher) :
    Quiet s (s.modify h (·.setCreateWatcher w)) :=
  modify s (fun _ => rfl) (fun _ => rfl) fun _ => rfl

theorem setDownload (h : ℕ) (d : Download) : Quiet s (s.modify h (·.setDownload d)) :=
  modify s (fun _ => rfl) (fun _ => rfl) fun _ => rfl

theorem push {calls : List Call} (hbegins : calls.filterMap Call.begins = [])
    (hpushes : calls.filterMap Call.pushes = []) : Quiet s (s.push calls) :=
  of_eq rfl rfl rfl rfl rfl rfl (by simp [Service.push,hbegins]) (by simp [Service.push,hpushes])
    rfl rfl

theorem setDownloads (ds : List ℕ) : Quiet s (s.setDownloads ds) :=
  of_eq rfl rfl rfl rfl rfl rfl rfl rfl rfl rfl

theorem setThumbnailer (t : Thumbnailer) : Quiet s (s.setThumbnailer t) :=
  of_eq rfl rfl rfl rfl rfl rfl rfl rfl rfl rfl

theorem setLimiter (l : LimiterId) (r : RateLimiter ℕ) : Quiet s (s.setLimiter l r) :=
  of_eq rfl rfl rfl rfl rfl rfl rfl rfl rfl rfl

theorem setCredentials (c : CredentialsCache ℕ) : Quiet s (s.setCredentials c) :=
  of_eq rfl rfl rfl rfl rfl rfl rfl rfl rfl rfl

theorem terminate : Quiet s s.terminate := of_eq rfl rfl rfl rfl rfl rfl rfl rfl rfl rfl

theorem setStatus (h : ℕ) (status : FetchStatus) :
    Quiet s (s.modify h (·.setStatus status)) :=
  modify s (fun _ => rfl) (fun _ => rfl) fun _ => rfl

theorem thumbnail (h : ℕ) (w : World) : Quiet s (s.thumbnail h w).2 :=
  ((setThumbnailer s _).trans (setStatus _ h _)).trans (note _ rfl)

variable {s}

/-- A call is taken off the stack that is neither a `begin()` nor part of `queueRequest()`. -/
theorem pop {c : Call} {rest : List Call} (hcalls : s.calls = c::rest) (hbegins : c.begins = none)
    (hpushes : c.pushes = none) : Quiet s (s.setCalls rest) where
  toMoves := Moves.pop hcalls hbegins
  requestKeys := rfl
  staleAccess := rfl
  pushes := by simp [hcalls,setCalls,hpushes]

end Quiet

namespace Lifecycle

variable {held held' : ℕ → ℕ} {s t : Service} {h : ℕ}

/-- Moving places around. -/
theorem move (hl : Lifecycle held s) (hq : Moves s t)
    (hwork : ∀ x, t.work x+held' x ≤ s.work x+held x)
    (hasks : ∀ p, ∀ x ∈ t.credentials.asked p,
      x ∈ s.credentials.asked p ∨ ((s.handlers x).peer = p ∧ x < s.next)) :
    Lifecycle held' t where
  waits x := by
    rw [hq.waiting,hq.begun,hq.next]
    exact hl.waits x
  works x := by
    have hk := hl.works x
    have hx := hwork x
    rw [hq.ended,hq.begun]
    omega
  requests x := by
    rw [hq.requests,hq.next,hq.ended]
    exact hl.requests x
  answers x := by
    rw [hq.answered,hq.ended]
    exact hl.answers x
  cancelled x hx := by
    rw [hq.ended]
    exact hl.cancelled x ((hq.cancelled x).symm.trans hx)
  deletions x hx := by
    rw [hq.ended]
    exact hl.deletions x (hq.deletions ▸ hx)
  asks p x hx := by
    rw [hq.peer,hq.next]
    exact (hasks p x hx).elim (hl.asks p x) id

end Lifecycle
end Service
end UnityThumbnailer
