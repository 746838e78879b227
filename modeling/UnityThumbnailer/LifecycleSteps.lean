import UnityThumbnailer.Transition

/-! Every step keeps the accounts of the handlers. -/
namespace UnityThumbnailer
namespace Service

section Work

variable (s : Service) (x : ℕ)

@[simp] theorem work_note (e : Effect) : (s.note e).work x = s.work x := rfl
@[simp] theorem work_setThumbnailer (t : Thumbnailer) : (s.setThumbnailer t).work x = s.work x := rfl
@[simp] theorem work_terminate : s.terminate.work x = s.work x := rfl

@[simp] theorem work_push (calls : List Call) :
    (s.push calls).work x = (calls.filterMap Call.works).count x+s.work x := by
  simp only [work,push,queued,List.filterMap_append,List.count_append]
  omega

theorem work_setDownloads (ds : List ℕ) :
    (s.setDownloads ds).work x+s.downloads.count x = s.work x+ds.count x := by
  simp only [work,setDownloads,queued]
  omega

theorem queued_setLimiter (l : LimiterId) (r : RateLimiter ℕ) :
    (s.setLimiter l r).queued x+(s.limiters l).pending.count x = s.queued x+r.pending.count x := by
  cases l <;> simp only [setLimiter,queued,Function.update_self,ne_eq,reduceCtorEq,
    not_false_eq_true,Function.update_of_ne] <;> omega

theorem work_setLimiter (l : LimiterId) (r : RateLimiter ℕ) :
    (s.setLimiter l r).work x+(s.limiters l).pending.count x = s.work x+r.pending.count x := by
  have hq := queued_setLimiter s x l r
  change _+_+_+(s.setLimiter l r).queued x+s.downloads.count x+_ = _
  unfold work
  change (s.calls.filterMap Call.works).count x+(s.credentials.asked (s.handlers x).peer).count x+
    (s.handlers x).watched+_+_+_ = _
  omega

theorem work_setCredentials (c : CredentialsCache ℕ) :
    (s.setCredentials c).work x+(s.credentials.asked (s.handlers x).peer).count x =
      s.work x+(c.asked (s.handlers x).peer).count x := by
  simp only [work,setCredentials,queued]
  omega

variable {s x}

theorem work_stack (calls : List Call) :
    (s.setCalls calls).work x+(s.calls.filterMap Call.works).count x =
      s.work x+(calls.filterMap Call.works).count x := by
  simp only [work,setCalls,queued]
  omega

theorem work_setCalls {c : Call} {rest : List Call} (hcalls : s.calls = c::rest) :
    (s.setCalls rest).work x+(c.works.toList).count x = s.work x := by
  have hw := work_stack (s:=s) (x:=x) rest
  rw [hcalls] at hw
  cases hc : c.works with
  | none =>
    rw [List.filterMap_cons_none hc] at hw
    simp only [Option.toList_none,List.count_nil]
    omega
  | some y =>
    rw [List.filterMap_cons_some hc,List.count_cons] at hw
    simp only [Option.toList_some,List.count_cons,List.count_nil]
    omega

/-- The place of a call passes to the code that runs it. -/
theorem work_taken {c : Call} {rest : List Call} {h : ℕ} (hcalls : s.calls = c::rest)
    (hc : c.works = some h) : (s.setCalls rest).work x+token h x = s.work x := by
  have hw := work_setCalls (x:=x) hcalls
  rw [hc,Option.toList_some,List.count_singleton] at hw
  simpa only [token,beq_iff_eq] using hw

theorem work_modify {h : ℕ} {f : Handler → Handler}
    (hpeer : (f (s.handlers h)).peer = (s.handlers h).peer) :
    (s.modify h f).work x+(if h = x then (s.handlers h).watched else 0) =
      s.work x+(if h = x then (f (s.handlers h)).watched else 0) := by
  by_cases hx : h = x
  · subst hx
    simp only [work,modify,queued,Function.update_self,hpeer,if_true]
    omega
  · have hx' : x ≠ h := fun hcon => hx hcon.symm
    simp [work,modify,queued,hx,hx']

theorem work_setCheckWatcher (h : ℕ) (w : Watcher) :
    (s.modify h (·.setCheckWatcher w)).work x +
        (if h = x then (s.handlers h).checkWatcher.active else 0) =
      s.work x+(if h = x then w.active else 0) := by
  have hw := work_modify (s:=s) (x:=x) (h:=h) (f:=(·.setCheckWatcher w)) rfl
  simp only [Handler.watched,Handler.setCheckWatcher] at hw ⊢
  by_cases hx : h = x <;> simp only [hx,if_true,if_false] at hw ⊢ <;> omega

theorem work_setCreateWatcher (h : ℕ) (w : Watcher) :
    (s.modify h (·.setCreateWatcher w)).work x +
        (if h = x then (s.handlers h).createWatcher.active else 0) =
      s.work x+(if h = x then w.active else 0) := by
  have hw := work_modify (s:=s) (x:=x) (h:=h) (f:=(·.setCreateWatcher w)) rfl
  simp only [Handler.watched,Handler.setCreateWatcher] at hw ⊢
  by_cases hx : h = x <;> simp only [hx,if_true,if_false] at hw ⊢ <;> omega

/-- A watcher that has delivered its result gives up its place. -/
theorem work_checkDelivered {h : ℕ} {result : ByteArrayOrError}
    (hw : (s.handlers h).checkWatcher = .finished result) :
    (s.modify h (·.setCheckWatcher .delivered)).work x+token h x = s.work x := by
  have hset := work_setCheckWatcher (s:=s) (x:=x) h .delivered
  rw [hw] at hset
  simpa only [token,Watcher.active,ite_self,Nat.add_zero] using hset

theorem work_createDelivered {h : ℕ} {result : ByteArrayOrError}
    (hw : (s.handlers h).createWatcher = .finished result) :
    (s.modify h (·.setCreateWatcher .delivered)).work x+token h x = s.work x := by
  have hset := work_setCreateWatcher (s:=s) (x:=x) h .delivered
  rw [hw] at hset
  simpa only [token,Watcher.active,ite_self,Nat.add_zero] using hset

/-- A watcher takes no more than the place of its handler. -/
theorem work_checkRunning (h : ℕ) :
    (s.modify h (·.setCheckWatcher .running)).work x ≤ s.work x+token h x := by
  have hset := work_setCheckWatcher (s:=s) (x:=x) h .running
  simp only [Watcher.active] at hset
  unfold token
  omega

theorem work_createRunning (h : ℕ) :
    (s.modify h (·.setCreateWatcher .running)).work x ≤ s.work x+token h x := by
  have hset := work_setCreateWatcher (s:=s) (x:=x) h .running
  simp only [Watcher.active] at hset
  unfold token
  omega

theorem work_same {h : ℕ} {f : Handler → Handler} (hpeer : ∀ y, (f y).peer = y.peer)
    (hwatched : ∀ y, (f y).watched = y.watched) : (s.modify h f).work x = s.work x := by
  have hw := work_modify (s:=s) (x:=x) (h:=h) (f:=f) (hpeer _)
  rw [hwatched] at hw
  omega

@[simp] theorem work_setDownload (h : ℕ) (d : Download) :
    (s.modify h (·.setDownload d)).work x = s.work x := work_same (fun _ => rfl) fun _ => rfl

@[simp] theorem work_setCancelFunc (h : ℕ) (f : CancelFunc) :
    (s.modify h (·.setCancelFunc f)).work x = s.work x := work_same (fun _ => rfl) fun _ => rfl

@[simp] theorem work_setStatus (h : ℕ) (status : FetchStatus) :
    (s.modify h (·.setStatus status)).work x = s.work x := work_same (fun _ => rfl) fun _ => rfl

@[simp] theorem work_thumbnail (h : ℕ) (w : World) :
    (s.thumbnail h w).2.work x = s.work x := by
  unfold thumbnail
  rw [work_note,work_setStatus,work_setThumbnailer]

end Work

section Moves

variable {held : ℕ → ℕ} {s : Service} {h : ℕ}

theorem Lifecycle.begin {rest : List Call} (hl : Lifecycle nothing s)
    (hcalls : s.calls = .begin h :: rest) :
    Lifecycle (token h) ((s.setCalls rest).note (.began h)) where
  waits x := by
    have hw := hl.waits x
    unfold waiting begun at hw ⊢
    rw [hcalls,List.filterMap_cons_some (f:=Call.begins) rfl,List.count_cons] at hw
    change _ + s.connections.countP (fun c => c.2 = x ∧ c.1 ∉ s.ended) +
      ((Effect.began h :: s.log).filterMap Effect.begins).count x ≤ if x < s.next then 1 else 0
    rw [List.filterMap_cons_some (f:=Effect.begins) rfl,List.count_cons]
    change (rest.filterMap Call.begins).count x + _ + _ ≤ _
    omega
  works x := by
    have hk := hl.works x
    have hcount : ((s.setCalls rest).note (.began h)).begun.count x =
        s.begun.count x+(if h = x then 1 else 0) := by
      change ((Effect.began h :: s.log).filterMap Effect.begins).count x = _
      rw [List.filterMap_cons_some (f:=Effect.begins) rfl,List.count_cons]
      simp [begun]
    have hwork := work_setCalls (x:=x) hcalls
    change (s.setCalls rest).work x+token h x+s.ended.count x ≤ _
    simp only [nothing] at hk
    simp only [Call.works,Option.toList_none,List.count_nil] at hwork
    rw [hcount]
    unfold token
    omega
  requests := hl.requests
  answers := hl.answers
  cancelled := hl.cancelled
  deletions := hl.deletions
  asks := hl.asks

/-- The connections of a handler that finishes turn into calls. -/
theorem connected_count {ended : List ℕ} (connections : List (ℕ × ℕ))
    (hended : h ∉ ended) (x : ℕ) :
    ((connections.filter (·.1 = h)).map Prod.snd).count x +
        connections.countP (fun c => c.2 = x ∧ c.1 ∉ h::ended) =
      connections.countP (fun c => c.2 = x ∧ c.1 ∉ ended) := by
  induction connections with
  | nil => rfl
  | cons c rest ih =>
    obtain ⟨a,b⟩ := c
    simp only [List.filter_cons,List.countP_cons,List.mem_cons,not_or] at ih ⊢
    by_cases ha : a = h
    · subst ha
      by_cases hb : b = x <;> simp [hb,hended] at ih ⊢ <;> omega
    · by_cases hb : b = x <;> by_cases hm : a ∈ ended <;> simp [ha,hb,hm] at ih ⊢ <;> omega

theorem Effect.begins_of_answers {e : Effect} (he : e.answers = some h) : e.begins = none := by
  cases e with
  | sentThumbnail | sentError => rfl
  | _ => cases he

theorem Effect.finishes_of_answers {e : Effect} (he : e.answers = some h) :
    e.finishes = none := by
  cases e with
  | sentThumbnail | sentError => rfl
  | _ => cases he

theorem answer_begun {e : Effect} (he : e.answers = some h) :
    ((s.note e).emitFinished h).begun = s.begun := by
  change (Effect.finished h :: e :: s.log).filterMap Effect.begins = _
  rw [List.filterMap_cons_none rfl,List.filterMap_cons_none (Effect.begins_of_answers he)]
  rfl

theorem answer_ended {e : Effect} (he : e.answers = some h) :
    ((s.note e).emitFinished h).ended = h :: s.ended := by
  change (Effect.finished h :: e :: s.log).filterMap Effect.finishes = _
  rw [List.filterMap_cons_some (f:=Effect.finishes) rfl,
    List.filterMap_cons_none (Effect.finishes_of_answers he)]
  rfl

theorem answer_answered {e : Effect} (he : e.answers = some h) :
    ((s.note e).emitFinished h).answered = h :: s.answered := by
  change (Effect.finished h :: e :: s.log).filterMap Effect.answers = _
  rw [List.filterMap_cons_none rfl,List.filterMap_cons_some he]
  rfl

/-- The calls of `begin()` count as nothing else. -/
theorem filterMap_begin {β : Type} {f : Call → Option β} (hf : ∀ y, f (.begin y) = none)
    (ys : List ℕ) (calls : List Call) :
    (ys.map Call.begin ++ calls).filterMap f = calls.filterMap f := by
  induction ys with
  | nil => rfl
  | cons y ys ih => exact (List.filterMap_cons_none (hf y)).trans ih

/-- The handlers that were chained to the one that answers begin. -/
theorem answer_begins (e : Effect) : ((s.note e).emitFinished h).calls.filterMap Call.begins =
    s.connected h ++ s.calls.filterMap Call.begins := by
  change ((s.connected h).map Call.begin ++ s.calls).filterMap Call.begins = _
  induction s.connected h with
  | nil => rfl
  | cons y ys ih => exact (List.filterMap_cons_some (f:=Call.begins) rfl).trans (congrArg _ ih)

theorem Lifecycle.answer {e : Effect} (hl : Lifecycle (token h) s) (he : e.answers = some h) :
    Lifecycle nothing ((s.note e).emitFinished h) := by
  have hheld : token h h = 1 := if_pos rfl
  obtain ⟨hbegun,hended,-,hnext⟩ := hl.unfinished (x:=h) (by omega)
  have hnot : h ∉ s.ended := List.count_eq_zero.mp hended
  have hb := answer_begun (s:=s) he
  have hen := answer_ended (s:=s) he
  have hnone : ((s.connected h).map Call.begin).filterMap Call.works = [] := by
    rw [← List.append_nil ((s.connected h).map Call.begin)]
    exact filterMap_begin (fun _ => rfl) _ _
  refine ⟨fun x => ?_,fun x => ?_,fun x => ?_,fun x => ?_,fun x hx => ?_,fun x hx => ?_,hl.asks⟩
  · have hw := hl.waits x
    have hconn := connected_count s.connections hnot x
    rw [hb]
    unfold waiting at hw ⊢
    rw [hen,answer_begins,List.count_append]
    change (_ + s.connections.countP _) + _ ≤ if x < s.next then 1 else 0
    unfold connected
    omega
  · have hk := hl.works x
    rw [hb,hen,List.count_cons]
    change (s.push ((s.connected h).map Call.begin)).work x + 0 + _ ≤ _
    rw [work_push,hnone]
    unfold token at hk
    simp only [List.count_nil,beq_iff_eq]
    omega
  · have hr := hl.requests x
    rw [hen]
    change x ∈ s.requests.erase h ↔ x < s.next ∧ _
    rw [Finset.mem_erase,hr,List.count_cons]
    by_cases hx : h = x
    · simp [hx]
    · have hx' : x ≠ h := fun hcon => hx hcon.symm
      simp [hx,hx']
  · rw [answer_answered he,hen,List.count_cons,List.count_cons,hl.answers x]
  · have hpos := hl.cancelled x hx
    rw [hen,List.count_cons]
    omega
  · rw [hen,List.count_cons]
    rcases List.mem_cons.mp hx with rfl | hmem
    · simp
    · have hpos := hl.deletions x hmem
      omega

/-- A request is registered: a new identity, which is in no place yet. -/
theorem Lifecycle.register {x : Handler} (peer : Peer) (media : Media)
    (hl : Lifecycle nothing s) (hlive : x.cancelled = false) (hwatched : x.watched = 0) :
    Lifecycle nothing (((s.register x).note (.arrived s.next peer media)).enter s.next) ∧
      (((s.register x).note (.arrived s.next peer media)).enter s.next).waiting s.next +
        s.begun.count s.next = 0 := by
  have hnew := hl.waits s.next
  rw [if_neg (lt_irrefl _)] at hnew
  have hworkNew := hl.works s.next
  have hself : (Function.update s.handlers s.next x) s.next = x := Function.update_self ..
  have hother : ∀ y, y ≠ s.next → (Function.update s.handlers s.next x) y = s.handlers y :=
    fun y hy => Function.update_of_ne hy ..
  have hasked : ∀ p, (s.credentials.asked p).count s.next = 0 := fun p =>
    List.count_eq_zero.mpr fun hp => absurd (hl.asks p _ hp).2 (lt_irrefl _)
  have hwork : ∀ y, work (((s.register x).note (.arrived s.next peer media)).enter s.next) y =
      (s.calls.filterMap Call.works).count y +
        (s.credentials.asked ((Function.update s.handlers s.next x) y).peer).count y +
        ((Function.update s.handlers s.next x) y).watched+s.queued y+s.downloads.count y :=
    fun _ => rfl
  refine ⟨⟨fun y => ?_,fun y => ?_,fun y => ?_,hl.answers,fun y hy => ?_,hl.deletions,
    fun p y hy => ?_⟩,Nat.le_zero.mp hnew⟩
  · have hw := hl.waits y
    change s.waiting y+s.begun.count y ≤ if y < s.next+1 then 1 else 0
    split at hw
    · rw [if_pos (by omega)]
      exact hw
    · omega
  · have hk := hl.works y
    change work _ y+0+s.ended.count y ≤ s.begun.count y
    rw [hwork]
    unfold work nothing at hk hworkNew
    by_cases hy : y = s.next
    · subst hy
      rw [hself,hwatched,hasked]
      omega
    · rw [hother y hy]
      exact hk
  · have hr := hl.requests y
    change y ∈ insert s.next s.requests ↔ y < s.next+1 ∧ s.ended.count y = 0
    rw [Finset.mem_insert,hr]
    by_cases hy : y = s.next
    · subst hy
      unfold nothing at hworkNew
      simp only [lt_irrefl,false_and,or_false,true_iff]
      exact ⟨Nat.lt_succ_self _,by omega⟩
    · simp only [hy,false_or]
      refine and_congr_left fun _ => ?_
      omega
  · by_cases hys : y = s.next
    · subst hys
      have hcan : ((Function.update s.handlers s.next x) s.next).cancelled = true := hy
      rw [hself,hlive] at hcan
      cases hcan
    · have hcan : ((Function.update s.handlers s.next x) y).cancelled = true := hy
      rw [hother y hys] at hcan
      exact hl.cancelled y hcan
  · obtain ⟨hpeer,hlt⟩ := hl.asks p y hy
    refine ⟨?_,Nat.lt_succ_of_lt hlt⟩
    change ((Function.update s.handlers s.next x) y).peer = p
    rw [hother y (Nat.ne_of_lt hlt)]
    exact hpeer

/-- A handler that waits nowhere is put where it waits for `begin()`. -/
theorem Lifecycle.wait {t : Service} (hl : Lifecycle nothing s)
    (hnew : s.waiting h+s.begun.count h = 0) (hnext : h < s.next)
    (hwait : ∀ x, t.waiting x ≤ s.waiting x+if h = x then 1 else 0)
    (hwork : ∀ x, t.work x = s.work x) (hlog : t.log = s.log) (hsame : t.next = s.next ∧
      t.requests = s.requests ∧ t.handlers = s.handlers ∧ t.deletions = s.deletions ∧
        t.credentials = s.credentials) : Lifecycle nothing t := by
  obtain ⟨hn,hr,hh,hd,hc⟩ := hsame
  have hb : t.begun = s.begun := by unfold begun; rw [hlog]
  have he : t.ended = s.ended := by unfold ended; rw [hlog]
  have ha : t.answered = s.answered := by unfold answered; rw [hlog]
  refine ⟨fun x => ?_,fun x => ?_,?_,?_,?_,?_,?_⟩
  · have hw := hl.waits x
    have ht := hwait x
    rw [hb,hn]
    by_cases hx : h = x
    · subst hx
      rw [if_pos rfl] at ht
      rw [if_pos hnext]
      omega
    · rw [if_neg hx] at ht
      omega
  · rw [hwork,hb,he]
    exact hl.works x
  · rw [hr,hn,he]
    exact hl.requests
  · rw [ha,he]
    exact hl.answers
  · rw [hh,he]
    exact hl.cancelled
  · rw [hd,he]
    exact hl.deletions
  · rw [hc,hh,hn]
    exact hl.asks

theorem Lifecycle.arrive {x : Handler} {peer : Peer} {media : Media} (hl : Lifecycle nothing s)
    (hlive : x.cancelled = false) (hwatched : x.watched = 0) :
    Lifecycle nothing (((s.register x).note (.arrived s.next peer media)).queueRequest s.next) := by
  obtain ⟨hr,hnew⟩ := hl.register peer media hlive hwatched
  unfold queueRequest
  dsimp only
  generalize hu : (s.register x).note (.arrived s.next peer media) = u at hr hnew ⊢
  have hbegun : (u.enter s.next).begun = s.begun := by
    subst hu
    exact List.filterMap_cons_none rfl
  have hnext : s.next < (u.enter s.next).next := by
    subst hu
    exact Nat.lt_succ_self _
  split
  · refine hr.wait (by rw [hbegun]; exact hnew) hnext (fun y => ?_) (fun y => ?_) rfl
      ⟨rfl,rfl,rfl,rfl,rfl⟩
    · change ((Call.begin s.next :: .pushBack s.next _ :: u.calls).filterMap Call.begins).count y
        +_ ≤ _
      rw [List.filterMap_cons_some (f:=Call.begins) rfl,List.filterMap_cons_none rfl,
        List.count_cons,beq_eq_decide]
      unfold waiting
      change _+_+u.connections.countP (fun c => c.2 = y ∧ c.1 ∉ u.ended) ≤
        (u.calls.filterMap Call.begins).count y +
          u.connections.countP (fun c => c.2 = y ∧ c.1 ∉ u.ended)+_
      simp only [decide_eq_true_eq]
      omega
    · rw [work_push]
      exact Nat.zero_add _
  · rename_i last hlast
    refine hr.wait (by rw [hbegun]; exact hnew) hnext (fun y => ?_) (fun y => ?_) rfl
      ⟨rfl,rfl,rfl,rfl,rfl⟩
    · change (u.calls.filterMap Call.begins).count y +
        (u.connections ++ [(last,s.next)]).countP (fun c => c.2 = y ∧ c.1 ∉ u.ended) ≤
          (u.calls.filterMap Call.begins).count y +
            u.connections.countP (fun c => c.2 = y ∧ c.1 ∉ u.ended)+_
      rw [List.countP_append,List.countP_singleton]
      by_cases hy : s.next = y <;> simp [hy]
      split <;> omega
    · rw [work_push]
      exact Nat.zero_add _

theorem Lifecycle.delete (hl : Lifecycle nothing s) (hd : h ∈ s.deletions) :
    Lifecycle nothing (s.delete h) := by
  have hended := hl.deletions h hd
  have hhandlers : ∀ x, ((s.delete h).handlers x).peer = (s.handlers x).peer ∧
      ((s.delete h).handlers x).watched = (s.handlers x).watched := by
    intro x
    change ((Function.update s.handlers h (s.handlers h).cancel) x).peer = _ ∧
      ((Function.update s.handlers h (s.handlers h).cancel) x).watched = _
    by_cases hx : x = h
    · subst hx
      rw [Function.update_self]
      exact ⟨rfl,rfl⟩
    · rw [Function.update_of_ne hx]
      exact ⟨rfl,rfl⟩
  have hqueue : ∀ x, (s.delete h).queued x ≤ s.queued x := by
    intro x
    have hle : ((s.handlers h).withdraw (s.limiters (s.handlers h).limiter)).pending.count x ≤
        (s.limiters (s.handlers h).limiter).pending.count x := by
      unfold Handler.withdraw
      split
      · exact (RateLimiter.cancel_pending_sublist _ _).count_le x
      · exact le_rfl
    have hset := queued_setLimiter s x (s.handlers h).limiter
      ((s.handlers h).withdraw (s.limiters (s.handlers h).limiter))
    change (s.setLimiter _ _).queued x ≤ _
    omega
  refine ⟨fun x => ?_,fun x => ?_,hl.requests,hl.answers,fun x hx => ?_,fun x hx => ?_,
    fun p x hx => ?_⟩
  · have hw := hl.waits x
    have hle := (List.filter_sublist (p:=fun c : ℕ × ℕ => decide (c.1 ≠ h ∧ c.2 ≠ h))
      (l:=s.connections)).countP_le (p:=fun c => decide (c.2 = x ∧ c.1 ∉ s.ended))
    unfold waiting at hw
    change (s.calls.filterMap Call.begins).count x +
      (s.connections.filter fun c => decide (c.1 ≠ h ∧ c.2 ≠ h)).countP
        (fun c => c.2 = x ∧ c.1 ∉ s.ended)+s.begun.count x ≤ if x < s.next then 1 else 0
    omega
  · have hk := hl.works x
    have hle : (s.delete h).downloads.count x ≤ s.downloads.count x :=
      List.filter_sublist.count_le x
    have hq := hqueue x
    unfold work at hk ⊢
    rw [(hhandlers x).1,(hhandlers x).2]
    change (s.calls.filterMap Call.works).count x +
      (s.credentials.asked (s.handlers x).peer).count x+_+_+_+_+s.ended.count x ≤
        s.begun.count x
    omega
  · by_cases hxh : x = h
    · rw [hxh]
      exact hended
    · have hcan : ((Function.update s.handlers h (s.handlers h).cancel) x).cancelled = true := hx
      rw [Function.update_of_ne hxh] at hcan
      exact hl.cancelled x hcan
  · exact hl.deletions x (List.mem_filter.mp hx).1
  · rw [(hhandlers x).1]
    exact hl.asks p x hx

end Moves
end Service
end UnityThumbnailer
