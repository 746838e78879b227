import Mathlib.Algebra.BigOperators.Group.Finset.Basic
import Mathlib.Algebra.Group.Action.Defs
import Mathlib.Algebra.Order.BigOperators.Group.Finset
import Mathlib.Data.Finset.Max
import UnityThumbnailer.Completion
import UnityThumbnailer.Conservation

/-! Every request is answered. A handler that has a place can be carried on from it, or waits
for one that can; and every move brings its handler nearer to the answer, which pays for the
calls that are left to return from. -/
namespace UnityThumbnailer
namespace Service

open EventSystem

/-- How many moves a place is away from the answer, at most. -/
def Place.rank : Place → ℕ
  | .asking => 11
  | .told _ => 10
  | .checking => 9
  | .checked _ => 8
  | .queued => 7
  | .starting => 6
  | .downloading => 5
  | .ended => 4
  | .returning => 3
  | .creating => 2
  | .created _ => 1

open Classical in
/-- The moves that a handler has before it, at most. -/
noncomputable def remaining (s : Service) (x : ℕ) : ℕ :=
  if x ∈ s.ended then 0 else if h : ∃ p, At s x p then h.choose.rank else 12

/-- Calls that carry no handler on. -/
def Call.chore : Call → Bool
  | .pushBack .. | .erasePending _ | .scheduled .. => true
  | _ => false

/-- The steps that are left to do besides. -/
def chores (s : Service) : ℕ := s.calls.countP Call.chore+s.deletions.length

/-- Each move pays for itself and for one chore. -/
noncomputable def distance (s : Service) : ℕ :=
  2*∑ x ∈ Finset.range s.next, s.remaining x+s.chores

/-- Neither the arrival of a request nor an eviction. -/
def Carries : Event → Prop
  | .request .. | .evict .. => False
  | _ => True

instance : DecidablePred Carries
  | .request .. | .evict .. => .isFalse id
  | .credentialsReply .. | .checkFinished _ | .downloadComplete .. | .createFinished _ | .delete _
  | .check .. | .create .. | .call _ => .isTrue trivial

def Event.arrives : Event → Bool
  | .request .. => true
  | _ => false

/-- What a request that arrives adds to the distance. -/
def Event.cost (e : Event) : ℕ := if e.arrives then 25 else 0

theorem cost_sum (es : List Event) : (es.map Event.cost).sum = 25*es.countP Event.arrives := by
  induction es with
  | nil => rfl
  | cons e es ih =>
    rw [List.map_cons,List.sum_cons,ih,List.countP_cons,Event.cost]
    split <;> omega

/-- Every request has its answer, and nothing is left of it. -/
structure AllAnswered (s : Service) : Prop where
  requests : s.requests = ∅
  calls : s.calls = []
  slots : ∀ l, (s.limiters l).running = 0 ∧ (s.limiters l).pending = []
  answered : ∀ x < s.next, s.answered.count x = 1 ∧ (s.handlers x).cancelled = true

section

variable {cfg : Config} {e : Event} {s t u : Service} {h x : ℕ} {p : Place}

/-! ### Moves -/

theorem remaining_at (hat : At s x p) (hl : Lifecycle nothing s) : s.remaining x = p.rank := by
  have hended := List.count_eq_zero.mp (hat.unfinished hl).2.1
  have hsome : ∃ p, At s x p := ⟨p,hat⟩
  unfold remaining
  rw [if_neg hended,dif_pos hsome,hsome.choose_spec.unique hat hl]

theorem remaining_ended (hx : x ∈ s.ended) : s.remaining x = 0 := if_pos hx

/-- Who has not begun has all moves before it. -/
theorem remaining_waiting (hx : x ∉ s.begun) (hl : Lifecycle nothing s) : s.remaining x = 12 := by
  have hended : x ∉ s.ended := fun he => by
    have hpos := List.count_pos_iff.mpr he
    have hk := hl.works x
    rw [List.count_eq_zero.mpr hx] at hk
    omega
  have hnone : ¬ ∃ p, At s x p := fun ⟨p,hat⟩ => by
    have hone := (hat.unfinished hl).1
    rw [List.count_eq_zero.mpr hx] at hone
    cases hone
  unfold remaining
  rw [if_neg hended,dif_neg hnone]

theorem Place.rank_pos (p : Place) : 0 < p.rank := by cases p <;> exact Nat.succ_pos _

theorem Place.rank_lt (p : Place) : p.rank < 12 := by cases p <;> simp [Place.rank]

theorem remaining_le (s : Service) (x : ℕ) : s.remaining x ≤ 12 := by
  unfold remaining
  split_ifs with he hat
  · exact Nat.zero_le _
  · exact hat.choose.rank_lt.le
  · exact le_rfl

/-- Whoever gets its credentials had a rank that was higher than that of the check. -/
theorem Received.remaining {c : Credentials} (hr : Received s u h c) (hl : Lifecycle nothing s) :
    Place.rank .checking < s.remaining h := by
  cases hr with
  | replied hcalls =>
    have hat : At s h (.told c) := at_calls hcalls
    rw [remaining_at hat hl]
    exact Nat.lt_succ_self _
  | known hcalls =>
    have hb := (hl.before (begins_pos (at_calls hcalls))).1
    rw [remaining_waiting (List.count_eq_zero.mp hb) hl]
    decide

/-- A new place has a lower rank than the one before. -/
theorem Came.rank_le (hc : Came cfg s e t x p) (hl : Lifecycle nothing s) :
    p.rank ≤ s.remaining x := by
  cases hc with
  | stayed hat => exact (remaining_at hat hl).ge
  | asked hbegin =>
    have hb := (hl.before (begins_pos hbegin)).1
    rw [remaining_waiting (List.count_eq_zero.mp hb) hl]
    decide
  | cleared hr hc => exact (hr.remaining hl).le
  | scheduled hat hs hp =>
    rw [remaining_at hat hl]
    rcases hp with rfl | rfl <;> decide
  | completed hat hd hc =>
    rcases hat with hat | hat <;> rw [remaining_at hat hl] <;> decide
  | told hat | checked he hat | dequeued hat | started hat | released hat | returned hat
  | created he hat =>
    rw [remaining_at hat hl]
    exact Nat.le_succ _

/-- No handler is thrown back. -/
theorem Transition.remaining_le (ht : Transition cfg s e t) (hs : Whole s) (hnew : Whole t) (x : ℕ) :
    t.remaining x ≤ s.remaining x := by
  have hl := hs.sound.lifecycle
  by_cases he : x ∈ t.ended
  · rw [remaining_ended he]
    exact Nat.zero_le _
  by_cases hb : x ∈ t.begun
  · obtain ⟨p,hat⟩ := hnew.somewhere hb he
    rw [remaining_at hat hnew.sound.lifecycle]
    exact (ht.place hl hat).rank_le hl
  · have hb' : x ∉ s.begun := fun hx => by
      have hpos := List.count_pos_iff.mpr hx
      have hmono := begun_mono ht x
      exact hb (List.count_pos_iff.mp (by omega))
    rw [remaining_waiting hb' hl]
    exact Service.remaining_le t x

/-! ### Chores -/

theorem chores_pop {c : Call} {rest : List Call} (hcalls : s.calls = c::rest) :
    (s.setCalls rest).chores+(if c.chore = true then 1 else 0) = s.chores := by
  unfold chores
  rw [hcalls,List.countP_cons]
  change rest.countP _+s.deletions.length+_ = _
  omega

theorem chores_push (calls : List Call) :
    (s.push calls).chores = calls.countP Call.chore+s.chores := by
  change (calls ++ s.calls).countP Call.chore+s.deletions.length = _
  unfold chores
  rw [List.countP_append]
  omega

/-- The handler that answers is left to be deleted; the ones that begin are no chores. -/
theorem chores_answer (a : Effect) : ((s.note a).emitFinished h).chores = s.chores+1 := by
  have hnone : ((s.connected h).map Call.begin).countP Call.chore = 0 :=
    List.countP_eq_zero.mpr fun c hc => by
      obtain ⟨y,-,rfl⟩ := List.mem_map.mp hc
      exact Bool.false_ne_true
  change (((s.connected h).map Call.begin) ++ s.calls).countP Call.chore+(s.deletions.length+1) = _
  rw [List.countP_append,hnone]
  unfold chores
  omega

/-- What a step does to the distance: a handler moves and leaves one chore at most behind, or
a chore is done. -/
def Nearer (s t : Service) : Prop :=
  (∃ h < s.next, t.remaining h < s.remaining h) ∧ t.chores ≤ s.chores+1 ∨ t.chores < s.chores

/-- A handler moves on to a place. -/
theorem Nearer.moved (hat : At t h p) (hlt : Lifecycle nothing t) (hnext : h < s.next)
    (hrank : p.rank < s.remaining h) (hchores : t.chores ≤ s.chores+1) : Nearer s t := by
  refine Or.inl ⟨⟨h,hnext,?_⟩,hchores⟩
  rw [remaining_at hat hlt]
  exact hrank

/-- A handler finishes. -/
theorem Nearer.finished {a : Effect} (ha : a.answers = some h) (hnext : h < s.next)
    (hrank : 0 < s.remaining h) (hchores : u.chores ≤ s.chores) :
    Nearer s ((u.note a).emitFinished h) := by
  refine Or.inl ⟨⟨h,hnext,?_⟩,?_⟩
  · rw [remaining_ended (by rw [answer_ended ha]; exact List.mem_cons_self)]
    exact hrank
  · rw [chores_answer]
    omega

theorem Received.chores {c : Credentials} (hr : Received s u h c) : u.chores = s.chores := by
  cases hr with
  | replied hcalls => exact chores_pop hcalls
  | known hcalls => exact chores_pop hcalls

/-- The job that is given to the limiter is called or waits in the queue. -/
theorem schedule_at (s : Service) (h : ℕ) :
    At (s.schedule h) h .starting ∨ At (s.schedule h) h .queued := by
  have hjobs := (s.limiters (s.handlers h).limiter).schedule_jobs h
  have hmem : h ∈ ((s.limiters (s.handlers h).limiter).schedule h).2.2.toList ++
      ((s.limiters (s.handlers h).limiter).schedule h).1.pending := by
    rw [hjobs]
    exact List.mem_cons_self
  rcases List.mem_append.mp hmem with hm | hm
  · refine Or.inl (List.mem_append_left _ (List.mem_append_left _ ?_))
    exact List.mem_map.mpr ⟨h,hm,rfl⟩
  · refine Or.inr ⟨(s.handlers h).limiter,?_⟩
    change h ∈ (Function.update s.limiters _ _ (s.handlers h).limiter).pending
    rw [Function.update_self]
    exact hm

theorem schedule_chores (s : Service) (h : ℕ) : (s.schedule h).chores = s.chores+1 := by
  have hone : ∀ (next : Option ℕ) (f : CancelFunc),
      (next.toList.map Call.job ++ [Call.scheduled h f]).countP Call.chore = 1 := by
    intro next f
    cases next <;> rfl
  refine (chores_push _).trans ?_
  rw [hone]
  exact Nat.add_comm 1 s.chores

theorem downloadFinished_chores (s : Service) (h : ℕ) :
    (s.downloadFinished h).chores = s.chores := by
  have hnone : ∀ next : Option ℕ,
      (next.toList.map Call.job ++ [Call.startCreate h]).countP Call.chore = 0 := by
    intro next
    cases next <;> rfl
  refine (chores_push _).trans ?_
  rw [hnone]
  exact Nat.zero_add _

theorem pushBack_deletions (s : Service) (h ref : ℕ) : (s.pushBack h ref).deletions = s.deletions :=
  (Moves.pushBack s h ref).1.deletions

theorem checkWatcher_self (s : Service) (h : ℕ) (w : Watcher) :
    ((s.modify h (·.setCheckWatcher w)).handlers h).checkWatcher = w := by
  change (Function.update s.handlers h _ h).checkWatcher = w
  rw [Function.update_self]
  rfl

theorem createWatcher_self (s : Service) (h : ℕ) (w : Watcher) :
    ((s.modify h (·.setCreateWatcher w)).handlers h).createWatcher = w := by
  change (Function.update s.handlers h _ h).createWatcher = w
  rw [Function.update_self]
  rfl

/-- Every event that carries handlers on brings the service nearer to the end. -/
theorem Transition.nearer (ht : Transition cfg s e t) (hs : Whole s) (hnew : Whole t)
    (hquiet : ThrowsNothing s e) (hc : Carries e) : Nearer s t := by
  have hl := hs.sound.lifecycle
  have hlt := hnew.sound.lifecycle
  cases ht with
  | refused | arrived | evicted => exact hc.elim
  | @reported peer reply callbacks hidle hpending =>
    have hne : callbacks ≠ [] := hs.queries.waiting peer _ hpending rfl
    obtain ⟨y,rest,rfl⟩ := List.exists_cons_of_ne_nil hne
    have hasked := (CredentialsCache.receivedCredentials_asked reply hpending).2.1
    have hy : y ∈ s.credentials.asked peer := by
      rw [hasked]
      exact List.mem_cons_self
    have hat : At s y .asking := by
      change y ∈ s.credentials.asked (s.handlers y).peer
      rw [(hl.asks peer y hy).1]
      exact hy
    have hresult := (CredentialsCache.receivedCredentials_asked reply hpending).1
    have htold : At (s.receivedCredentials peer reply) y
        (.told (reply.credentials s.credentials.apparmorEnabled)) := by
      unfold receivedCredentials
      dsimp only
      rw [hresult]
      exact List.mem_append_left _ List.mem_cons_self
    refine .moved htold hlt (hat.unfinished hl).2.2 ?_ ?_
    · rw [remaining_at hat hl]
      exact Nat.lt_succ_self _
    · have hone : ((y::rest).map (Call.gotCredentials · (reply.credentials
          s.credentials.apparmorEnabled)) ++ [Call.erasePending peer]).countP Call.chore = 1 := by
        rw [List.countP_append,List.countP_eq_zero.mpr]
        · rfl
        · intro c hc
          obtain ⟨z,-,rfl⟩ := List.mem_map.mp hc
          exact Bool.false_ne_true
      unfold receivedCredentials
      dsimp only
      rw [hresult,chores_push,hone]
      exact (Nat.add_comm 1 s.chores).le
  | @asked o h rest hcalls hmissing =>
    have hb := hl.before (begins_pos (at_calls hcalls))
    have hat : At (((s.setCalls rest).note (.began h)).setCredentials
        (s.credentials.get (s.handlers h).peer h).1) h .asking := by
      change h ∈ (s.credentials.get (s.handlers h).peer h).1.asked (s.handlers h).peer
      rw [hs.queries.get_asked hmissing]
      exact List.mem_append_right _ List.mem_cons_self
    refine .moved hat hlt hb.2.2 ?_ ((chores_pop hcalls).le.trans (Nat.le_succ _))
    rw [remaining_waiting (List.count_eq_zero.mp hb.1) hl]
    decide
  | @cleared o u h c hr hcleared =>
    have hat : At (u.modify h (·.setCheckWatcher .running)) h .checking :=
      checkWatcher_self u h .running
    exact .moved hat hlt (hr.early hl).1 (hr.remaining hl) (hr.chores.le.trans (Nat.le_succ _))
  | @denied o u h c error hr hdenied =>
    exact .finished rfl (hr.early hl).1 ((Place.rank_pos _).trans (hr.remaining hl)) hr.chores.le
  | @pushed o h ref rest hcalls =>
    refine Or.inr ?_
    have hpop : (s.setCalls rest).chores+1 = s.chores := chores_pop hcalls
    have hsame : ((s.setCalls rest).pushBack h ref).chores = (s.setCalls rest).chores := by
      unfold chores
      rw [pushBack_calls,pushBack_deletions]
    omega
  | @erased o peer rest hcalls =>
    have hpop : (s.setCalls rest).chores+1 = s.chores := chores_pop hcalls
    exact Or.inr (Nat.lt_of_succ_le hpop.le)
  | @returned o h f rest hcalls =>
    have hpop : (s.setCalls rest).chores+1 = s.chores := chores_pop hcalls
    exact Or.inr (Nat.lt_of_succ_le hpop.le)
  | @started h rest hcalls =>
    have hold : At s h .starting := at_calls hcalls
    refine .moved (p:=.downloading) List.mem_cons_self hlt (hold.unfinished hl).2.2 ?_
      ((chores_pop hcalls).le.trans (Nat.le_succ _))
    rw [remaining_at hold hl]
    decide
  | @failed h what rest filename st hcalls hmedia =>
    have hold : At s h .starting := at_calls hcalls
    refine .moved (p:=.ended) List.mem_cons_self hlt (hold.unfinished hl).2.2 ?_
      ((chores_pop hcalls).le.trans (Nat.le_succ _))
    rw [remaining_at hold hl]
    decide
  | caught hcalls hcatch => simp only [ThrowsNothing,hcalls] at hquiet
  | uncaught hcalls hcatch => simp only [ThrowsNothing,hcalls] at hquiet
  | @released o h rest hcalls =>
    have hold : At s h .ended := at_calls hcalls
    have hat : At ((s.setCalls rest).downloadFinished h) h .returning :=
      List.mem_append_left _ (List.mem_append_right _ (List.mem_singleton_self _))
    refine .moved hat hlt (hold.unfinished hl).2.2 ?_ ?_
    · rw [remaining_at hold hl]
      decide
    · rw [downloadFinished_chores]
      exact (chores_pop hcalls).le.trans (Nat.le_succ _)
  | @creating o h rest hcalls =>
    have hold : At s h .returning := at_calls hcalls
    have hat : At ((s.setCalls rest).modify h (·.setCreateWatcher .running)) h .creating :=
      createWatcher_self (s.setCalls rest) h .running
    refine .moved hat hlt (hold.unfinished hl).2.2 ?_ ((chores_pop hcalls).le.trans (Nat.le_succ _))
    rw [remaining_at hold hl]
    decide
  | @checkAnswered h result a hidle hw ha =>
    have hold : At s h (.checked result) := hw
    refine .finished ha (hold.unfinished hl).2.2 ?_ le_rfl
    rw [remaining_at hold hl]
    exact Place.rank_pos _
  | @scheduled h hidle hw hstatus =>
    have hold : At s h (.checked ⟨none,none⟩) := hw
    have hnext := (hold.unfinished hl).2.2
    have hchores := (schedule_chores (s.modify h (·.setCheckWatcher .delivered)) h).le
    rcases schedule_at (s.modify h (·.setCheckWatcher .delivered)) h with hat | hat
    · refine .moved hat hlt hnext ?_ hchores
      rw [remaining_at hold hl]
      decide
    · refine .moved hat hlt hnext ?_ hchores
      rw [remaining_at hold hl]
      decide
  | @completed h download hidle hd hfits =>
    have hold : At s h .downloading := hd
    refine .moved (p:=.ended) List.mem_cons_self hlt (hold.unfinished hl).2.2 ?_ ?_
    · rw [remaining_at hold hl]
      decide
    · exact Nat.le_succ _
  | @createAnswered h result a hidle hw ha =>
    have hold : At s h (.created result) := hw
    refine .finished ha (hold.unfinished hl).2.2 ?_ le_rfl
    rw [remaining_at hold hl]
    exact Place.rank_pos _
  | @deleted h hidle hd =>
    refine Or.inr ?_
    have hless : (s.deletions.filter (· ≠ h)).length < s.deletions.length :=
      List.length_filter_lt_length_iff_exists.mpr ⟨h,hd,by simp⟩
    change s.calls.countP Call.chore+(s.deletions.filter (· ≠ h)).length < _
    unfold chores
    omega
  | @checked h w result hw hr =>
    have hold : At s h .checking := hw
    have hat : At ((s.thumbnail h w).2.modify h (·.setCheckWatcher (.finished result))) h
        (.checked result) := checkWatcher_self (s.thumbnail h w).2 h (.finished result)
    refine .moved hat hlt (hold.unfinished hl).2.2 ?_ (Nat.le_succ _)
    rw [remaining_at hold hl]
    exact Nat.lt_succ_self _
  | @created h w result hw hr =>
    have hold : At s h .creating := hw
    have hat : At ((s.thumbnail h w).2.modify h (·.setCreateWatcher (.finished result))) h
        (.created result) := createWatcher_self (s.thumbnail h w).2 h (.finished result)
    refine .moved hat hlt (hold.unfinished hl).2.2 ?_ (Nat.le_succ _)
    rw [remaining_at hold hl]
    exact Nat.lt_succ_self _
  | @aborted e h w hw ha =>
    exact absurd ha (hs.downloads.neverAborts h w (hw.imp And.right And.right))

theorem Transition.next_eq (ht : Transition cfg s e t) (hs : Sound s) (hc : Carries e) :
    t.next = s.next := by
  cases (ht.milestone hs.lifecycle hs.stacked).1 with
  | quiet hq => exact hq.next
  | arrived => exact hc.elim
  | began hcalls hq => exact hq.next
  | answered hpushes hq => exact hq.next
  | begunAnswered hcalls hknown hdenied hq => exact hq.next
  | pushed hcalls => exact (Moves.pushBack (s.setCalls _) _ _).1.next
  | deleted => rfl

/-- A move is worth more than the chore that it may leave behind. -/
theorem Nearer.distance (hn : Nearer s t) (hle : ∀ x, t.remaining x ≤ s.remaining x)
    (hnext : t.next = s.next) : t.distance < s.distance := by
  unfold Service.distance
  rw [hnext]
  rcases hn with ⟨⟨h,hh,hless⟩,hchores⟩ | hchores
  · have hsum : ∑ x ∈ Finset.range s.next, t.remaining x < ∑ x ∈ Finset.range s.next, s.remaining x :=
      Finset.sum_lt_sum (fun x _ => hle x) ⟨h,Finset.mem_range.mpr hh,hless⟩
    omega
  · have hsum : ∑ x ∈ Finset.range s.next, t.remaining x ≤ ∑ x ∈ Finset.range s.next, s.remaining x :=
      Finset.sum_le_sum fun x _ => hle x
    omega

/-- The distance pays for every event that carries handlers on; a request brings its own. -/
theorem distance_step (hs : Whole s) (hsmooth : RunsSmoothly cfg s e)
    (ht : (machine cfg).step s e = some t) :
    t.distance+(if Carries e then 1 else 0) ≤ s.distance+e.cost := by
  have htr := hs.sound.transition_of_step ht
  have hnew := hs.step hsmooth ht
  have hle := htr.remaining_le hs hnew
  by_cases hc : Carries e
  · have hless := (htr.nearer hs hnew hsmooth.2 hc).distance hle (htr.next_eq hs.sound hc)
    rw [if_pos hc]
    omega
  · rw [if_neg hc,Nat.add_zero]
    have hsum : ∑ x ∈ Finset.range s.next, t.remaining x ≤ ∑ x ∈ Finset.range s.next, s.remaining x :=
      Finset.sum_le_sum fun x _ => hle x
    unfold distance
    cases htr with
    | refused hidle =>
      exact (Nat.add_le_add_right (Nat.mul_le_mul_left 2 hsum) _).trans (Nat.le_add_right _ _)
    | evicted => exact Nat.add_le_add_right (Nat.mul_le_mul_left 2 hsum) _
    | @arrived peer m size media hidle hmedia =>
      have hlast := Service.remaining_le (((s.register
        (.new peer m.limiter media size (m.details size))).note
          (.arrived s.next peer media)).queueRequest s.next) s.next
      have hchores : (((s.register (.new peer m.limiter media size (m.details size))).note
          (.arrived s.next peer media)).queueRequest s.next).chores = s.chores+1 := by
        rcases queueRequest_cases ((s.register
          (.new peer m.limiter media size (m.details size))).note
            (.arrived s.next peer media)) s.next with ⟨-,hq⟩ | ⟨last,-,hq⟩ <;> rw [hq,chores_push]
        · exact Nat.add_comm 1 s.chores
        · exact Nat.add_comm 1 s.chores
      have hnext : (((s.register (.new peer m.limiter media size (m.details size))).note
          (.arrived s.next peer media)).queueRequest s.next).next = s.next+1 := queueRequest_next ..
      rw [hnext,Finset.sum_range_succ,hchores]
      have hcost : Event.cost (.request peer m size) = 25 := rfl
      omega
    | aborted hw ha => rcases hw with ⟨rfl,-⟩ | ⟨rfl,-⟩ <;> exact absurd trivial hc
    | _ => exact absurd trivial hc

/-- What is left to do is bounded by the requests that wait for an answer. -/
theorem Whole.distance_le (hs : Whole s) :
    s.distance ≤ 24*s.requests.card+s.calls.length+s.deletions.length := by
  have hl := hs.sound.lifecycle
  have hsubset : s.requests ⊆ Finset.range s.next := fun x hx =>
    Finset.mem_range.mpr ((hl.requests x).mp hx).1
  have hsum : ∑ x ∈ s.requests, s.remaining x = ∑ x ∈ Finset.range s.next, s.remaining x := by
    refine Finset.sum_subset hsubset fun x hx hnot => remaining_ended ?_
    by_contra he
    exact hnot ((hl.requests x).mpr ⟨Finset.mem_range.mp hx,List.count_eq_zero.mpr he⟩)
  have hbound : ∑ x ∈ s.requests, s.remaining x ≤ s.requests.card*12 :=
    (Finset.sum_le_card_nsmul s.requests s.remaining 12 fun x _ =>
      Service.remaining_le s x).trans_eq (smul_eq_mul ..)
  have hcalls := List.countP_le_length (p:=Call.chore) (l:=s.calls)
  unfold distance chores
  rw [← hsum]
  omega

/-! ### Progress -/

theorem slot_of_idle {enabled : Prop} [Decidable enabled] (hidle : s.calls = []) (he : enabled) :
    s.slot enabled t = some t := by
  unfold slot
  rw [hidle,if_pos ⟨rfl,he⟩]

/-- Every call that waits on the stack can be made. -/
theorem call_started (cfg : Config) (s : Service) (c : Call) :
    ∃ t, call cfg s .started c = some t := by
  cases c with
  | job h =>
    simp only [call,job]
    split <;> exact ⟨_,rfl⟩
  | _ => exact ⟨_,rfl⟩

theorem throwsNothing_started (s : Service) : ThrowsNothing s (.call .started) := trivial

/-- A service that is at rest has answered every request. -/
theorem Whole.allAnswered (hs : Whole s) (hrequests : s.requests = ∅) (hcalls : s.calls = [])
    (hdeletions : s.deletions = []) : AllAnswered s := by
  have hl := hs.sound.lifecycle
  have hnowhere : ∀ x p, ¬ At s x p := fun x p hat => by
    have hx := hat.unfinished hl
    have hmem := (hl.requests x).mpr ⟨hx.2.2,hx.2.1⟩
    rw [hrequests] at hmem
    exact Finset.notMem_empty x hmem
  refine ⟨hrequests,hcalls,fun l => ⟨?_,?_⟩,fun x hx => ?_⟩
  · have hdownloads : s.downloads = [] :=
      List.eq_nil_iff_forall_not_mem.mpr fun x hx => hnowhere x .downloading hx
    rw [hs.slots.running]
    unfold inProgress holders
    rw [hdownloads,hcalls]
    rfl
  · exact List.eq_nil_iff_forall_not_mem.mpr fun x hx => hnowhere x .queued ⟨l,hx⟩
  · have hnot : x ∉ s.requests := by
      rw [hrequests]
      exact Finset.notMem_empty x
    have hne : s.ended.count x ≠ 0 := fun hzero => hnot ((hl.requests x).mpr ⟨hx,hzero⟩)
    have hone := hl.ended_le x
    refine ⟨?_,?_⟩
    · rw [hl.answers]
      omega
    · have hdisposed := hs.disposed x (List.count_pos_iff.mp (Nat.pos_of_ne_zero hne))
      rw [hdeletions] at hdisposed
      exact hdisposed.resolve_left List.not_mem_nil

theorem completes_exists (media : Media) : ∃ d, Completes media d = true := by
  cases media with
  | localFile => exact ⟨.extractor (.ok none),rfl⟩
  | album | artist => exact ⟨.artReply ⟨.success,none⟩,rfl⟩

/-- A handler that is in a place can be carried on from it when the event loop is reached, or
waits for a slot that another one holds. -/
theorem Whole.carried (hs : Whole s) (hidle : s.calls = []) (hat : At s x p) :
    ∃ e, Carries e ∧ ThrowsNothing s e ∧ ∃ t, s.step cfg e = some t := by
  have hdownload : ∀ {y}, y ∈ s.downloads → ∃ d t, s.step cfg (.downloadComplete y d) = some t := by
    intro y hy
    obtain ⟨d,hd⟩ := completes_exists (s.handlers y).request.media
    exact ⟨d,_,slot_of_idle hidle ⟨hy,hd⟩⟩
  have hnone : ∀ {c : Call}, c ∉ s.calls := fun hc => by
    rw [hidle] at hc
    cases hc
  cases p with
  | told | starting | ended | returning => exact absurd hat hnone
  | asking =>
    have hat : x ∈ s.credentials.asked (s.handlers x).peer := hat
    unfold CredentialsCache.asked at hat
    cases hq : s.credentials.pending (s.handlers x).peer with
    | none =>
      rw [hq] at hat
      cases hat
    | some q =>
      rw [hq] at hat
      have hreplied : q.replied = false := by
        cases hr : q.replied with
        | false => rfl
        | true => simp [hr] at hat
      refine ⟨.credentialsReply (s.handlers x).peer .error,trivial,trivial,
        s.receivedCredentials (s.handlers x).peer .error,?_⟩
      simp only [Service.step,hq]
      exact slot_of_idle hidle hreplied
  | checking =>
    have hat : (s.handlers x).checkWatcher = .running := hat
    refine ⟨.check x .idle,trivial,trivial,s.check x .idle,?_⟩
    simp only [Service.step,hat]
  | creating =>
    have hat : (s.handlers x).createWatcher = .running := hat
    refine ⟨.create x .idle,trivial,trivial,s.create x .idle,?_⟩
    simp only [Service.step,hat]
  | checked result =>
    have hat : (s.handlers x).checkWatcher = .finished result := hat
    refine ⟨.checkFinished x,trivial,trivial,
        (s.modify x (·.setCheckWatcher .delivered)).checkFinished x result,?_⟩
    simp only [Service.step,hat]
    exact slot_of_idle hidle trivial
  | created result =>
    have hat : (s.handlers x).createWatcher = .finished result := hat
    refine ⟨.createFinished x,trivial,trivial,
        (s.modify x (·.setCreateWatcher .delivered)).createFinished x result,?_⟩
    simp only [Service.step,hat]
    exact slot_of_idle hidle trivial
  | downloading =>
    obtain ⟨d,t,ht⟩ := hdownload hat
    exact ⟨.downloadComplete x d,trivial,trivial,t,ht⟩
  | queued =>
    obtain ⟨l,hl⟩ := hat
    obtain ⟨y,hy,-⟩ := hs.nothingLost.queues l (List.ne_nil_of_mem hl)
    unfold holders at hy
    rw [hidle] at hy
    obtain ⟨d,t,ht⟩ := hdownload (by simpa using hy)
    exact ⟨.downloadComplete y d,trivial,trivial,t,ht⟩

/-- As long as not everything is answered, something can be done. -/
theorem Whole.progress (hs : Whole s) (hgoal : ¬ AllAnswered s) :
    ∃ e, Carries e ∧ ThrowsNothing s e ∧ ∃ t, (machine cfg).step s e = some t := by
  have hmachine : ∀ {e t}, s.step cfg e = some t → (machine cfg).step s e = some t := by
    intro e t ht
    change (if s.terminated then none else s.step cfg e) = some t
    rw [hs.live]
    exact ht
  have hl := hs.sound.lifecycle
  cases hcalls : s.calls with
  | cons c rest =>
    obtain ⟨t,ht⟩ := call_started cfg (s.setCalls rest) c
    refine ⟨.call .started,trivial,throwsNothing_started s,t,hmachine ?_⟩
    simp only [Service.step,hcalls]
    exact ht
  | nil =>
    cases hdeletions : s.deletions with
    | cons h rest =>
      have hd : h ∈ s.deletions := by
        rw [hdeletions]
        exact List.mem_cons_self
      exact ⟨.delete h,trivial,trivial,_,hmachine (slot_of_idle hcalls hd)⟩
    | nil =>
      have hsome : s.requests.Nonempty := by
        rw [Finset.nonempty_iff_ne_empty]
        exact fun hempty => hgoal (hs.allAnswered hempty hcalls hdeletions)
      -- the request that came first waits for no other one
      have hfirst := (hl.requests _).mp (s.requests.min'_mem hsome)
      have hbegun : s.requests.min' hsome ∈ s.begun := by
        by_contra hb
        rcases hs.waiting_cases hfirst.1 hb with hbegin | ⟨y,-,hlt,hlive,-⟩
        · rw [hcalls] at hbegin
          cases hbegin
        · have hy := (hl.requests y).mpr ⟨hlt.trans hfirst.1,List.count_eq_zero.mpr hlive⟩
          exact absurd (s.requests.min'_le y hy) (Nat.not_le.mpr hlt)
      obtain ⟨p,hat⟩ := hs.somewhere hbegun (List.count_eq_zero.mp hfirst.2)
      obtain ⟨e,hc,hquiet,t,ht⟩ := hs.carried hcalls hat
      exact ⟨e,hc,hquiet,t,hmachine ht⟩

/-! ### Runs -/

/-- Without arrivals no `queueRequest()` is called. -/
theorem Transition.queueing_nil (ht : Transition cfg s e t) (hs : Sound s) (hc : Carries e)
    (hpushes : s.pushes = []) : t.pushes = [] := by
  have hbegan : ∀ {h : ℕ} {rest : List Call}, s.calls = .begin h :: rest →
      rest.filterMap Call.pushes = [] := by
    intro h rest hcalls
    unfold pushes at hpushes
    rwa [hcalls,List.filterMap_cons_none rfl] at hpushes
  cases (ht.milestone hs.lifecycle hs.stacked).1 with
  | quiet hq => exact hq.pushes.trans hpushes
  | arrived => exact hc.elim
  | began hcalls hq => exact hq.pushes.trans (hbegan hcalls)
  | answered hp hq =>
    refine Eq.trans (filterMap_begin (fun _ => rfl) _ _) ?_
    exact hq.pushes.trans hpushes
  | begunAnswered hcalls hknown hdenied hq =>
    refine Eq.trans (filterMap_begin (fun _ => rfl) _ _) ?_
    exact hq.pushes.trans (hbegan hcalls)
  | pushed hcalls =>
    unfold pushes at hpushes
    rw [hcalls] at hpushes
    cases hpushes
  | deleted => exact hpushes

theorem queuesQuietly_of_nil (hpushes : s.pushes = []) (e : Event) : QueuesQuietly cfg s e := by
  unfold QueuesQuietly queueing
  split
  · rw [hpushes]
    exact fun hm => absurd hm List.not_mem_nil
  · trivial

/-- From a state without a call of `queueRequest()`, everything can be answered. -/
theorem Whole.completion (hs : Whole s) (hpushes : s.pushes = []) :
    ∃ es t, (∀ e ∈ es, Carries e) ∧ (machine cfg).run s es = some t ∧ AllAnswered t ∧
      es.length ≤ s.distance := by
  have hstep : ∀ s e t, (Whole s ∧ s.pushes = []) → (Carries e ∧ ThrowsNothing s e) →
      (machine cfg).step s e = some t → (Whole t ∧ t.pushes = []) ∧ t.distance < s.distance := by
    intro s e t hinv hg ht
    have hsmooth : RunsSmoothly cfg s e := ⟨queuesQuietly_of_nil hinv.2 e,hg.2⟩
    have hpaid := distance_step hinv.1 hsmooth ht
    have hcost : e.cost = 0 := by
      cases e with
      | request => exact hg.1.elim
      | _ => rfl
    rw [if_pos hg.1,hcost] at hpaid
    exact ⟨⟨hinv.1.step hsmooth ht,(hinv.1.sound.transition_of_step ht).queueing_nil
      hinv.1.sound hg.1 hinv.2⟩,Nat.lt_of_succ_le hpaid⟩
  have hprogress : ∀ s, (Whole s ∧ s.pushes = []) → ¬ AllAnswered s →
      ∃ e t, (Carries e ∧ ThrowsNothing s e) ∧ (machine cfg).step s e = some t := by
    intro s hinv hgoal
    obtain ⟨e,hc,hquiet,t,ht⟩ := hinv.1.progress hgoal
    exact ⟨e,t,⟨hc,hquiet⟩,ht⟩
  obtain ⟨es,t,hg,hrun,hgoal,hlength⟩ :=
    Machine.exists_completion hstep hprogress ⟨hs,hpushes⟩
  exact ⟨es,t,Machine.forall_of_allSteps (fun _ _ h => h.1) hg hrun,hrun,hgoal,hlength⟩

end

/-- Requests are answered after a bounded number of steps. In a run in which nothing throws
and no `begin()` answers inside of `queueRequest()`, there are at most 25 steps for each
request; when no step is left every request has its answer; and as soon as no call of
`queueRequest()` is under way, all of them can be answered without the arrival of another. -/
theorem everyRequest_answered (cfg : Config) (apparmorEnabled : Bool)
    (maxDownloads maxExtractions : ℤ) (hd : 0 < maxDownloads) (he : 0 < maxExtractions)
    (thumbnailer : Thumbnailer) (es : List Event) (u : Service)
    (hsmooth : (machine cfg).AllSteps (RunsSmoothly cfg)
      (new apparmorEnabled maxDownloads maxExtractions hd he thumbnailer) es)
    (hrun : (machine cfg).run (new apparmorEnabled maxDownloads maxExtractions hd he thumbnailer)
      es = some u) :
    es.countP (fun e => Carries e) ≤ 25*es.countP Event.arrives ∧
    ((machine cfg).AtRest Carries u → AllAnswered u) ∧
    (u.queueing = [] → ∃ fs v, (∀ f ∈ fs, Carries f) ∧ (machine cfg).run u fs = some v ∧
      AllAnswered v ∧ fs.length ≤ 24*u.requests.card+u.calls.length+u.deletions.length) := by
  have hstart : Whole (new apparmorEnabled maxDownloads maxExtractions hd he thumbnailer) := .new ..
  have hu : Whole u :=
    Machine.guarded_run (fun _ _ _ hs hg ht => hs.step hg ht) hstart hsmooth hrun
  refine ⟨?_,fun hrest => ?_,fun hqueueing => ?_⟩
  · have hstep : ∀ s e t, Whole s → RunsSmoothly cfg s e → (machine cfg).step s e = some t →
        t.distance+(if Carries e then 1 else 0) ≤ s.distance+e.cost :=
      fun _ _ _ hs hg ht => distance_step hs hg ht
    have hpaid := Machine.countP_le_of_measure (fun _ _ _ hs hg ht => Whole.step hs hg ht) hstep
      hstart hsmooth hrun
    have hzero : (new apparmorEnabled maxDownloads maxExtractions hd he thumbnailer).distance = 0 :=
      rfl
    rw [cost_sum] at hpaid
    omega
  · by_contra hgoal
    obtain ⟨e,hc,-,t,ht⟩ := hu.progress hgoal
    rw [hrest e hc] at ht
    cases ht
  · obtain ⟨fs,v,hfs,hv,hgoal,hlength⟩ := hu.completion (List.map_eq_nil_iff.mp hqueueing)
    exact ⟨fs,v,hfs,hv,hgoal,hlength.trans hu.distance_le⟩

/-- While the second request waits for the first, both can still be answered. -/
theorem everyRequest_answered_served :
    ∃ u, (machine superuser).run started (served.take 5) = some u ∧ u.connections = [(0,1)] ∧
      ∃ fs v, (∀ f ∈ fs, Carries f) ∧ (machine superuser).run u fs = some v ∧ AllAnswered v ∧
        fs.length ≤ 48 := by
  have hrun : (machine superuser).run started (served.take 5) = some
      (((machine superuser).run started (served.take 5)).getD started) :=
    eq_some_getD (by decide +kernel)
  have hanswered := everyRequest_answered superuser true 2 2 (by decide) (by decide) .fresh
    (served.take 5) _ (by decide +kernel) hrun
  obtain ⟨fs,v,hfs,hv,hgoal,hlength⟩ := hanswered.2.2 (by decide +kernel)
  exact ⟨_,hrun,by decide +kernel,fs,v,hfs,hv,hgoal,hlength.trans (by decide +kernel)⟩

end Service
end UnityThumbnailer
