import UnityThumbnailer.Service

/-! The shutdown of the idle service. A counter of the active requests stops and starts the
timer that makes the event loop quit; requests are counted by the constructor and the
destructor of their handlers, and by the methods of the administrator. -/
namespace UnityThumbnailer

open EventSystem

/-- The counter and whether the timer is running. -/
structure InactivityHandler where
  numActiveRequests : ℤ
  timerRunning : Bool

namespace InactivityHandler

/-- The constructor only sets the interval of the timer. -/
def new : InactivityHandler := ⟨0,false⟩

def requestStarted (i : InactivityHandler) : InactivityHandler :=
  ⟨i.numActiveRequests+1,if i.numActiveRequests = 0 then false else i.timerRunning⟩

def requestCompleted (i : InactivityHandler) : InactivityHandler :=
  ⟨i.numActiveRequests-1,if i.numActiveRequests-1 = 0 then true else i.timerRunning⟩

/-- The timer runs exactly while no request is active. -/
def TimerArmed (i : InactivityHandler) : Prop :=
  (i.numActiveRequests = 0 → i.timerRunning = true) ∧
    (i.numActiveRequests ≠ 0 → i.timerRunning = false)

/-- The handler while `n` requests are active, with the timer started before or never. -/
structure Counts (i : InactivityHandler) (n : ℕ) (started : Prop) : Prop where
  active : i.numActiveRequests = n
  timer : i.timerRunning = true ↔ n = 0 ∧ started
  first : 0 < n → started

section

variable {i : InactivityHandler} {n : ℕ} {started : Prop}

theorem new_counts : new.Counts 0 False := ⟨rfl,by simp [new],by simp⟩

theorem Counts.of_eq {m : ℕ} {started' : Prop} (h : i.Counts n started) (hn : n = m)
    (hstarted : started ↔ started') : i.Counts m started' := by
  obtain rfl := hn
  obtain rfl := propext hstarted
  exact h

theorem Counts.requestStarted (h : i.Counts n started) : i.requestStarted.Counts (n+1) True := by
  refine ⟨by simp [InactivityHandler.requestStarted,h.active],?_,fun _ => trivial⟩
  refine iff_of_false ?_ (by omega)
  unfold InactivityHandler.requestStarted
  split_ifs with hzero
  · exact id
  · intro htimer
    have hn := (h.timer.mp htimer).1
    exact hzero (by rw [h.active,hn]; rfl)

theorem Counts.requestCompleted (h : i.Counts (n+1) started) :
    i.requestCompleted.Counts n started := by
  have hactive : i.numActiveRequests-1 = n := by
    rw [h.active]
    omega
  refine ⟨hactive,?_,fun _ => h.first (Nat.succ_pos n)⟩
  simp only [InactivityHandler.requestCompleted,hactive]
  split_ifs with hzero
  · exact iff_of_true rfl ⟨by omega,h.first (Nat.succ_pos n)⟩
  · refine iff_of_false (fun htimer => ?_) fun hn => hzero (by omega)
    have := (h.timer.mp htimer).1
    omega

/-- Once a request has been counted, the timer is right. -/
theorem Counts.armed_iff (h : i.Counts n started) : i.TimerArmed ↔ started := by
  constructor
  · rintro ⟨harmed,-⟩
    rcases Nat.eq_zero_or_pos n with rfl | hpos
    · exact (h.timer.mp (harmed h.active)).2
    · exact h.first hpos
  · intro hstarted
    refine ⟨fun hzero => h.timer.mpr ⟨?_,hstarted⟩,fun hactive => ?_⟩
    · have := h.active
      omega
    · refine Bool.eq_false_iff.mpr fun htimer => hactive ?_
      rw [h.active,(h.timer.mp htimer).1]
      rfl

end

end InactivityHandler

namespace IdleShutdown

/-- The running service: its requests, the objects of their handlers that are not destroyed
yet, whether a method of the administrator is being executed, and whether the event loop
has been told to quit. -/
structure RunningService where
  service : Service
  inactivity : InactivityHandler
  handlers : List ℕ
  adminActive : Bool
  quit : Bool

/-- `main()` up to the event loop. -/
def start (service : Service) : RunningService := ⟨service,.new,[],false,false⟩

/-- `ClientConfig()` and `Shutdown()` are not counted as requests; `Stats()`, `ClearStats()`,
`Clear()` and `Compact()` are, from their start to their end, and leave some caches behind. -/
inductive Event
  | service (e : Service.Event)
  | clientConfig
  | adminStarted
  | adminCompleted (thumbnailer : Thumbnailer)
  | shutdown
  | timerExpired

/-- Pool threads and evictions do not wait for the event loop. -/
def background : Service.Event → Bool
  | .check .. | .create .. | .evict .. => true
  | _ => false

/-- What handlers that are constructed or destroyed in an event do to the counter. -/
def RunningService.count (s : RunningService) : Service.Event → Option RunningService
  | .request _ m _ =>
    match m.media with
    | .ok _ => some { s with
        inactivity := s.inactivity.requestStarted, handlers := s.service.next::s.handlers }
    | .error _ => some s
  | .delete h =>
    -- an object is destroyed once
    if h ∈ s.handlers then
      some { s with
        inactivity := s.inactivity.requestCompleted, handlers := s.handlers.erase h }
    else none
  | _ => some s

/-- The event loop is free for another slot. -/
def RunningService.free (s : RunningService) : Bool :=
  s.service.calls.isEmpty && !s.service.terminated && !s.adminActive

def RunningService.handle (cfg : Service.Config) (s : RunningService) :
    Event → Option RunningService
  | .service e =>
    if s.adminActive && !background e then none
    else
      match (Service.machine cfg).step s.service e,s.count e with
      | some service,some s => some { s with service := service }
      | _,_ => none
  | .clientConfig => if s.free then some s else none
  | .adminStarted =>
    if s.free then
      some { s with inactivity := s.inactivity.requestStarted, adminActive := true }
    else none
  | .adminCompleted thumbnailer =>
    if s.adminActive then
      some { s with
        service := s.service.setThumbnailer thumbnailer
        inactivity := s.inactivity.requestCompleted
        adminActive := false }
    else none
  | .shutdown => if s.free then some { s with quit := true } else none
  | .timerExpired =>
    if s.free && s.inactivity.timerRunning then some { s with quit := true } else none

/-- The service until its event loop quits. -/
def running (cfg : Service.Config) : Machine RunningService Event where
  step s e := if s.quit then none else s.handle cfg e

/-- The event starts a request of a client or of the administrator. -/
def StartsRequest : Event → Prop
  | .service (.request _ m _) => ∃ media, m.media = .ok media
  | .adminStarted => True
  | _ => False

/-- All that are active are counted. -/
def Counted (s : RunningService) (started : Prop) : Prop :=
  s.inactivity.Counts (s.handlers.length+s.adminActive.toNat) started

section Steps

variable {cfg : Service.Config} {s t : RunningService} {e : Event} {started : Prop}

/-- A step that counts nothing. -/
theorem Counted.same (h : Counted s started) (hstarts : ¬ StartsRequest e) :
    Counted s (started ∨ StartsRequest e) :=
  h.of_eq rfl (or_iff_left hstarts).symm

theorem count_counted {e : Service.Event} (h : Counted s started) (ht : s.count e = some t) :
    Counted t (started ∨ StartsRequest (.service e)) ∧ t.adminActive = s.adminActive := by
  cases e with
  | request peer m size =>
    simp only [RunningService.count] at ht
    cases hmedia : m.media with
    | ok media =>
      simp only [hmedia] at ht
      obtain rfl := Option.some.inj ht
      refine ⟨h.requestStarted.of_eq ?_ (iff_of_true trivial (Or.inr ⟨media,hmedia⟩)),rfl⟩
      simp only [List.length_cons]
      omega
    | error what =>
      simp only [hmedia] at ht
      obtain rfl := Option.some.inj ht
      refine ⟨h.same ?_,rfl⟩
      rintro ⟨media,hok⟩
      rw [hmedia] at hok
      cases hok
  | delete x =>
    simp only [RunningService.count,Option.ite_none_right_eq_some,Option.some.injEq] at ht
    obtain ⟨hx,rfl⟩ := ht
    have hlength := List.length_erase_add_one hx
    have hbefore : s.inactivity.Counts
        ((s.handlers.erase x).length+s.adminActive.toNat+1) started :=
      h.of_eq (by omega) Iff.rfl
    exact ⟨hbefore.requestCompleted.of_eq rfl (or_iff_left id).symm,rfl⟩
  | credentialsReply | checkFinished | downloadComplete | createFinished | check | create | evict |
    call =>
    obtain rfl := Option.some.inj ht
    exact ⟨h.same id,rfl⟩

theorem step_counted (h : Counted s started) (ht : (running cfg).step s e = some t) :
    Counted t (started ∨ StartsRequest e) := by
  obtain ⟨-,ht⟩ := Option.ite_none_left_eq_some.mp ht
  cases e with
  | service e =>
    obtain ⟨-,ht⟩ := Option.ite_none_left_eq_some.mp ht
    split at ht
    · rename_i service u _ hu
      obtain rfl := Option.some.inj ht
      exact (count_counted h hu).1
    · cases ht
  | clientConfig =>
    obtain ⟨-,ht⟩ := Option.ite_none_right_eq_some.mp ht
    obtain rfl := Option.some.inj ht
    exact h.same id
  | adminStarted =>
    obtain ⟨hfree,ht⟩ := Option.ite_none_right_eq_some.mp ht
    obtain rfl := Option.some.inj ht
    have hidle : s.adminActive = false := by
      cases hactive : s.adminActive with
      | false => rfl
      | true => simp [RunningService.free,hactive] at hfree
    refine h.requestStarted.of_eq ?_ (iff_of_true trivial (Or.inr trivial))
    simp [hidle]
  | adminCompleted thumbnailer =>
    obtain ⟨hactive,ht⟩ := Option.ite_none_right_eq_some.mp ht
    obtain rfl := Option.some.inj ht
    have hbefore : s.inactivity.Counts (s.handlers.length+1) started :=
      h.of_eq (by simp [hactive]) Iff.rfl
    exact hbefore.requestCompleted.of_eq rfl (or_iff_left id).symm
  | shutdown | timerExpired =>
    obtain ⟨-,ht⟩ := Option.ite_none_right_eq_some.mp ht
    obtain rfl := Option.some.inj ht
    exact h.same id

theorem run_counted {es : List Event} (h : Counted s started)
    (ht : (running cfg).run s es = some t) : Counted t (started ∨ ∃ e ∈ es, StartsRequest e) := by
  induction es generalizing s started with
  | nil =>
    obtain rfl := Option.some.inj ht
    exact h.of_eq rfl (by simp)
  | cons e es ih =>
    obtain ⟨u,hu,hrest⟩ := Machine.run_cons_some ht
    refine (ih (step_counted h hu) hrest).of_eq rfl ?_
    simp [or_assoc]

end Steps

/-- In every run of the service, the idle timer runs exactly while no request is active if
and only if some request has been started since the service was; and a service without
requests is not shut down by the timer. -/
theorem timerArmed_iff (cfg : Service.Config) (service : Service) (es : List Event)
    (t : RunningService) (hrun : (running cfg).run (start service) es = some t) :
    (t.inactivity.TimerArmed ↔ ∃ e ∈ es, StartsRequest e) ∧
      ((¬ ∃ e ∈ es, StartsRequest e) → (running cfg).step t .timerExpired = none) := by
  have hstart : Counted (start service) False := InactivityHandler.new_counts
  have h := run_counted hstart hrun
  refine ⟨h.armed_iff.trans (or_iff_right id),fun hnone => ?_⟩
  have htimer : t.inactivity.timerRunning = false := by
    refine Bool.eq_false_iff.mpr fun htimer => hnone ?_
    exact ((h.timer.mp htimer).2).resolve_left id
  simp [running,RunningService.handle,htimer]

/-- Any user may be served. -/
def config : Service.Config := ⟨1000,fun _ _ => .ok true⟩

/-- The service right after its start, with the default limits. -/
def activated : Service := .new false 8 4 (by decide) (by decide) Thumbnailer.fresh

/-- The administrator asks for the statistics. -/
theorem timerArmed_stats : ∃ t, (running config).run (start activated)
    [.adminStarted,.adminCompleted Thumbnailer.fresh] = some t ∧ t.inactivity.TimerArmed := by
  obtain ⟨t,ht⟩ : ∃ t, (running config).run (start activated)
    [.adminStarted,.adminCompleted Thumbnailer.fresh] = some t := ⟨_,rfl⟩
  have hstarts : ∃ e ∈ [Event.adminStarted,.adminCompleted Thumbnailer.fresh], StartsRequest e :=
    ⟨.adminStarted,List.mem_cons_self,trivial⟩
  exact ⟨t,ht,(timerArmed_iff config activated _ t ht).1.mpr hstarts⟩

/-- A client that only asks for its configuration keeps the service alive. -/
theorem clientConfig_unarmed : ∃ t, (running config).run (start activated)
    [.clientConfig,.clientConfig] = some t ∧ t.inactivity.numActiveRequests = 0 ∧
      ¬ t.inactivity.TimerArmed ∧ (running config).step t .timerExpired = none := by
  refine ⟨start activated,rfl,rfl,fun harmed => ?_,rfl⟩
  have htimer : false = true := harmed.1 rfl
  cases htimer

end IdleShutdown
end UnityThumbnailer
