import UnityThumbnailer.LifecycleSteps

/-! The milestones of a run: arrivals, beginnings, answers and deletions. Every other step
is quiet, and every step keeps the accounts of the handlers. -/
namespace UnityThumbnailer
namespace Service

inductive Milestone (cfg : Config) (s : Service) : Event → Service → Prop
  | quiet {e : Event} {t : Service} (hq : Quiet s t) : Milestone cfg s e t
  | arrived {peer : Peer} {m : Method} {size : QSize} {media : Media} (hidle : s.calls = [])
    (hmedia : m.media = .ok media) :
    Milestone cfg s (.request peer m size) (((s.register
      (.new peer m.limiter media size (m.details size))).note (.arrived s.next peer media)).queueRequest
        s.next)
  | began {o : DownloadCall} {t : Service} {h : ℕ} {rest : List Call}
    (hcalls : s.calls = .begin h :: rest) (hq : Quiet ((s.setCalls rest).note (.began h)) t) :
    Milestone cfg s (.call o) t
  | answered {e : Event} {u : Service} {h : ℕ} {a : Effect}
    (hpushes : s.calls.filterMap Call.pushes = []) (hq : Quiet s u) (hl : Lifecycle (token h) u)
    (ha : a.answers = some h) : Milestone cfg s e ((u.note a).emitFinished h)
  | begunAnswered {o : DownloadCall} {u : Service} {h : ℕ} {a : Effect} {c : Credentials}
    {rest : List Call} (hcalls : s.calls = .begin h :: rest)
    (hknown : s.credentials.cached (s.handlers h).peer = some c)
    (hdenied : ¬ Cleared cfg (s.handlers h) c)
    (hq : Quiet ((s.setCalls rest).note (.began h)) u) (hl : Lifecycle (token h) u)
    (ha : a.answers = some h) : Milestone cfg s (.call o) ((u.note a).emitFinished h)
  | pushed {o : DownloadCall} {h : ℕ} {ref : ℕ} {rest : List Call}
    (hcalls : s.calls = .pushBack h ref :: rest) :
    Milestone cfg s (.call o) ((s.setCalls rest).pushBack h ref)
  | deleted {h : ℕ} (hidle : s.calls = []) (hd : h ∈ s.deletions) :
    Milestone cfg s (.delete h) (s.delete h)

section

variable {cfg : Config} {e : Event} {s t u : Service} {h : ℕ} {held held' : ℕ → ℕ}

/-- Moving places around, away from the credentials. -/
theorem Lifecycle.shift (hl : Lifecycle held s) (hq : Quiet s t)
    (hc : t.credentials = s.credentials)
    (hwork : ∀ x, t.work x+held' x ≤ s.work x+held x) : Lifecycle held' t :=
  hl.move hq.toMoves hwork fun _ _ hx => Or.inl (hc ▸ hx)

/-- A quiet step that loses no more than it must. -/
theorem Milestone.of_quiet (hl : Lifecycle nothing s) (hq : Quiet s t)
    (hc : t.credentials = s.credentials) (hwork : ∀ x, t.work x ≤ s.work x) :
    Milestone cfg s e t ∧ Lifecycle nothing t :=
  ⟨.quiet hq,hl.shift hq hc hwork⟩

theorem Milestone.of_answer {a : Effect} (hl : Lifecycle nothing s)
    (hpushes : s.calls.filterMap Call.pushes = []) (hq : Quiet s u)
    (hc : u.credentials = s.credentials) (hwork : ∀ x, u.work x+token h x ≤ s.work x)
    (ha : a.answers = some h) : Milestone cfg s e ((u.note a).emitFinished h) ∧
      Lifecycle nothing ((u.note a).emitFinished h) :=
  have hlu : Lifecycle (token h) u := hl.shift hq hc hwork
  ⟨.answered hpushes hq hlu ha,hlu.answer ha⟩

/-- The callbacks of a query move to the stack. -/
theorem Lifecycle.reported {peer : Peer} (reply : BusReply) {callbacks : List ℕ}
    (hl : Lifecycle nothing s) (hpending : s.credentials.pending peer = some ⟨callbacks,false⟩) :
    Quiet s (s.receivedCredentials peer reply) ∧
      Lifecycle nothing (s.receivedCredentials peer reply) := by
  obtain ⟨hresult,hasked,hself,hother⟩ :=
    CredentialsCache.receivedCredentials_asked reply hpending
  unfold receivedCredentials
  dsimp only
  rw [hresult]
  dsimp only
  generalize reply.credentials s.credentials.apparmorEnabled = c
  generalize hcache : (s.credentials.receivedCredentials peer reply).1 = cache at hself hother ⊢
  have hworks : (callbacks.map (Call.gotCredentials · c) ++ [Call.erasePending peer]).filterMap
      Call.works = callbacks := by
    rw [List.filterMap_append,List.filterMap_map]
    have hsome : (Call.works ∘ (Call.gotCredentials · c)) = some := rfl
    rw [hsome,List.filterMap_some,List.filterMap_cons_none rfl,List.filterMap_nil,List.append_nil]
  have hnone : ∀ {β : Type} (f : Call → Option β), (∀ h c, f (.gotCredentials h c) = none) →
      f (.erasePending peer) = none →
      (callbacks.map (Call.gotCredentials · c) ++ [Call.erasePending peer]).filterMap f = [] := by
    intro β f hf hp
    refine List.filterMap_eq_nil_iff.mpr fun a ha => ?_
    rcases List.mem_append.mp ha with hm | hm
    · obtain ⟨y,-,rfl⟩ := List.mem_map.mp hm
      exact hf y c
    · obtain rfl := List.mem_singleton.mp hm
      exact hp
  have hq : Quiet s (((s.setCredentials cache).note (.reported peer reply)).push
      (callbacks.map (Call.gotCredentials · c) ++ [.erasePending peer])) :=
    ((Quiet.setCredentials s cache).trans (Quiet.note _ rfl)).trans
      (Quiet.push _ (hnone _ (fun _ _ => rfl) rfl) (hnone _ (fun _ _ => rfl) rfl))
  refine ⟨hq,hl.move hq.toMoves (fun x => ?_) fun p x hx => ?_⟩
  · have hset := work_setCredentials s x cache
    rw [work_push,hworks,work_note]
    by_cases hp : (s.handlers x).peer = peer
    · rw [hp,hself,hasked] at hset
      simp only [List.count_nil] at hset
      omega
    · have hnot : callbacks.count x = 0 :=
        List.count_eq_zero.mpr fun hx => hp (hl.asks peer x (hasked ▸ hx)).1
      rw [hother _ hp] at hset
      omega
  · left
    change x ∈ cache.asked p at hx
    by_cases hp : p = peer
    · subst hp
      rw [hself] at hx
      cases hx
    · rwa [hother p hp] at hx

/-- The query of a peer is over, and nobody waits in it any more. -/
theorem Lifecycle.erased {peer : Peer} {rest : List Call} (hl : Lifecycle nothing s)
    (hcalls : s.calls = .erasePending peer :: rest) :
    Quiet s ((s.setCalls rest).setCredentials (s.credentials.erasePending peer)) ∧
      Lifecycle nothing
        ((s.setCalls rest).setCredentials (s.credentials.erasePending peer)) := by
  have hq : Quiet s _ := (Quiet.pop hcalls rfl rfl).trans
    (Quiet.setCredentials (s.setCalls rest) (s.credentials.erasePending peer))
  have hasked := s.credentials.erasePending_asked peer
  refine ⟨hq,hl.move hq.toMoves (fun x => ?_) fun p x hx => Or.inl ?_⟩
  · have hw := work_setCalls (x:=x) hcalls
    have hset : _+(s.credentials.asked (s.handlers x).peer).count x =
        _+((s.credentials.erasePending peer).asked (s.handlers x).peer).count x :=
      work_setCredentials (s.setCalls rest) x (s.credentials.erasePending peer)
    rw [hasked] at hset
    split at hset
    · simp only [List.count_nil] at hset
      omega
    · omega
  · change x ∈ (s.credentials.erasePending peer).asked p at hx
    rw [hasked] at hx
    split at hx
    · cases hx
    · exact hx

/-- Asking for the credentials: the handler waits in a query. -/
theorem Lifecycle.asked {rest : List Call} (hl : Lifecycle nothing s)
    (hcalls : s.calls = .begin h :: rest)
    (hmissing : s.credentials.cached (s.handlers h).peer = none) :
    Lifecycle nothing (((s.setCalls rest).note (.began h)).setCredentials
      (s.credentials.get (s.handlers h).peer h).1) := by
  have hb := hl.begin hcalls
  have hknown := (hl.before (begins_pos (h:=h) (by simp [hcalls]))).2.2
  have hget := CredentialsCache.get_asked_missing h hmissing
  refine hb.move (Quiet.setCredentials _ _).toMoves (fun x => ?_) fun p x hx => ?_
  · have hset := work_setCredentials ((s.setCalls rest).note (.began h)) x
      (s.credentials.get (s.handlers h).peer h).1
    change _ + (s.credentials.asked (s.handlers x).peer).count x =
      _ + ((s.credentials.get (s.handlers h).peer h).1.asked (s.handlers x).peer).count x at hset
    unfold nothing token
    by_cases hx : h = x
    · subst hx
      rw [if_pos rfl]
      rcases hget with hget | hget <;> rw [hget] at hset
      · rw [List.count_append,List.count_singleton_self] at hset
        omega
      · omega
    · rw [if_neg hx]
      have hsame : ((s.credentials.get (s.handlers h).peer h).1.asked (s.handlers x).peer).count x
          = (s.credentials.asked (s.handlers x).peer).count x := by
        by_cases hp : (s.handlers x).peer = (s.handlers h).peer
        · rw [hp]
          rcases hget with hget | hget <;> rw [hget]
          rw [List.count_append,List.count_singleton]
          simp [hx]
        · rw [CredentialsCache.get_asked_other _ _ hp]
      omega
  · change x ∈ (s.credentials.get (s.handlers h).peer h).1.asked p at hx
    by_cases hp : p = (s.handlers h).peer
    · subst hp
      rcases hget with hget | hget <;> rw [hget] at hx
      · rcases List.mem_append.mp hx with hm | hm
        · exact Or.inl hm
        · obtain rfl := List.mem_singleton.mp hm
          exact Or.inr ⟨rfl,hknown⟩
      · exact Or.inl hx
    · rw [CredentialsCache.get_asked_other _ _ hp] at hx
      exact Or.inl hx

/-- A handler that gets its credentials is in the hands of `gotCredentials()`. -/
theorem Received.lifecycle {c : Credentials} (hr : Received s u h c) (hl : Lifecycle nothing s)
    (hs : Stacked s.calls) :
    Lifecycle (token h) u ∧ ((s.calls.filterMap Call.pushes = [] ∧ Quiet s u) ∨
      ∃ rest, s.calls = .begin h :: rest ∧
      s.credentials.cached (s.handlers h).peer = some c ∧
      Quiet ((s.setCalls rest).note (.began h)) u) := by
  cases hr with
  | replied hcalls =>
    have hq := Quiet.pop hcalls rfl rfl
    have hpushes := (hcalls ▸ hs).gotCredentials_pushes
    rw [← hcalls] at hpushes
    refine ⟨hl.shift hq rfl fun x => ?_,Or.inl ⟨hpushes,hq⟩⟩
    exact (work_taken hcalls rfl).le
  | @known _ _ rest hcalls hknown =>
    have hq := Quiet.setCredentials ((s.setCalls rest).note (.began h))
      (s.credentials.get (s.handlers h).peer h).1
    have hsome : (s.credentials.cached (s.handlers h).peer).isSome := by rw [hknown]; rfl
    have hget := CredentialsCache.get_asked_found h hsome
    refine ⟨(hl.begin hcalls).move hq.toMoves (fun x => ?_) fun p x hx => ?_,
      Or.inr ⟨rest,hcalls,hknown,hq⟩⟩
    · have hset := work_setCredentials ((s.setCalls rest).note (.began h)) x
        (s.credentials.get (s.handlers h).peer h).1
      change _ + (s.credentials.asked (s.handlers x).peer).count x =
        _ + ((s.credentials.get (s.handlers h).peer h).1.asked (s.handlers x).peer).count x at hset
      rw [hget] at hset
      omega
    · left
      change x ∈ (s.credentials.get (s.handlers h).peer h).1.asked p at hx
      rwa [hget] at hx

theorem Quiet.pushEnd (s : Service) (h : ℕ) : Quiet s (s.push [.downloadFinished h]) :=
  .push s rfl rfl

theorem work_pushEnd (s : Service) (h x : ℕ) :
    (s.push [.downloadFinished h]).work x = s.work x+token h x := by
  rw [work_push,List.filterMap_cons_some (f:=Call.works) rfl,List.filterMap_nil,
    List.count_singleton]
  simp only [token,beq_iff_eq]
  omega

/-- An exception that unwinds the stack leaves the places on it to its handler. -/
theorem work_unwound (hmem : h ∈ s.calls.filterMap Call.works) (x : ℕ) :
    (s.setCalls []).work x+token h x ≤ s.work x := by
  have hw := work_stack (s:=s) (x:=x) []
  simp only [List.filterMap_nil,List.count_nil] at hw
  have hle : token h x ≤ (s.calls.filterMap Call.works).count x := by
    unfold token
    split_ifs with hx
    · subst hx
      exact List.count_pos_iff.mpr hmem
    · exact Nat.zero_le _
  omega

/-- The handler that waits longest gets the slot that is freed. -/
theorem Quiet.downloadFinished (s : Service) (h : ℕ) : Quiet s (s.downloadFinished h) := by
  have hnone : ∀ {β : Type} (f : Call → Option β), (∀ y, f (.job y) = none) →
      f (.startCreate h) = none → ∀ next : Option ℕ,
      (next.toList.map Call.job ++ [Call.startCreate h]).filterMap f = [] := by
    intro β f hj hc next
    cases next <;> simp [hj,hc]
  exact ((Quiet.setLimiter s _ _).trans (Quiet.note _ rfl)).trans
    (Quiet.push _ (hnone _ (fun _ => rfl) rfl _) (hnone _ (fun _ => rfl) rfl _))

theorem work_downloadFinished (s : Service) (h x : ℕ) :
    (s.downloadFinished h).work x = s.work x+token h x := by
  have hset := work_setLimiter s x (s.handlers h).limiter
    (s.limiters (s.handlers h).limiter).done.1
  have hjobs := congrArg (List.count x) (s.limiters (s.handlers h).limiter).done_jobs
  rw [List.count_append] at hjobs
  have hworks : ∀ next : Option ℕ, ((next.toList.map Call.job ++
      [Call.startCreate h]).filterMap Call.works).count x = next.toList.count x+token h x := by
    intro next
    cases next <;> simp [Call.works,List.count_cons,token]
    omega
  unfold Service.downloadFinished
  dsimp only
  rw [work_push,work_note,hworks]
  omega

theorem Quiet.schedule (s : Service) (h : ℕ) : Quiet s (s.schedule h) := by
  have hnone : ∀ {β : Type} (f : Call → Option β), (∀ y, f (.job y) = none) →
      ∀ c, f (.scheduled h c) = none → ∀ next : Option ℕ,
      (next.toList.map Call.job ++ [Call.scheduled h c]).filterMap f = [] := by
    intro β f hj c hc next
    cases next <;> simp [hj,hc]
  exact (Quiet.setLimiter s _ _).trans
    (Quiet.push _ (hnone _ (fun _ => rfl) _ rfl _) (hnone _ (fun _ => rfl) _ rfl _))

theorem work_schedule (s : Service) (h x : ℕ) :
    (s.schedule h).work x = s.work x+token h x := by
  have hset := work_setLimiter s x (s.handlers h).limiter
    ((s.limiters (s.handlers h).limiter).schedule h).1
  have hjobs := congrArg (List.count x) ((s.limiters (s.handlers h).limiter).schedule_jobs h)
  rw [List.count_append,List.count_cons] at hjobs
  have hworks : ∀ (next : Option ℕ) c, ((next.toList.map Call.job ++
      [Call.scheduled h c]).filterMap Call.works).count x = next.toList.count x := by
    intro next c
    cases next <;> simp [List.filterMap_cons,Call.works]
  unfold Service.schedule token
  dsimp only
  rw [work_push,hworks]
  simp only [beq_iff_eq] at hjobs
  omega

/-- A handler begins at once or is chained to the last one of its key. -/
theorem queueRequest_cases (s : Service) (h : ℕ) :
    ((s.keyEntry (s.handlers h).key).handlers = [] ∧ s.queueRequest h = (s.enter h).push
      [.begin h,.pushBack h (s.keyEntry (s.handlers h).key).ref]) ∨
    ∃ last, (s.keyEntry (s.handlers h).key).handlers.getLast? = some last ∧
      s.queueRequest h = ((s.enter h).connect last h).push
        [.pushBack h (s.keyEntry (s.handlers h).key).ref] := by
  unfold queueRequest
  dsimp only
  cases hl : (s.keyEntry (s.handlers h).key).handlers.getLast? with
  | none => exact Or.inl ⟨List.getLast?_eq_none_iff.mp hl,rfl⟩
  | some last => exact Or.inr ⟨last,rfl,rfl⟩

theorem queueRequest_handlers (s : Service) (h : ℕ) :
    (s.queueRequest h).handlers = s.handlers := by
  rcases queueRequest_cases s h with ⟨-,ht⟩ | ⟨last,-,ht⟩ <;> rw [ht] <;> rfl

theorem queueRequest_log (s : Service) (h : ℕ) : (s.queueRequest h).log = s.log := by
  rcases queueRequest_cases s h with ⟨-,ht⟩ | ⟨last,-,ht⟩ <;> rw [ht] <;> rfl

theorem queueRequest_next (s : Service) (h : ℕ) : (s.queueRequest h).next = s.next := by
  rcases queueRequest_cases s h with ⟨-,ht⟩ | ⟨last,-,ht⟩ <;> rw [ht] <;> rfl

theorem queueRequest_credentials (s : Service) (h : ℕ) :
    (s.queueRequest h).credentials = s.credentials := by
  rcases queueRequest_cases s h with ⟨-,ht⟩ | ⟨last,-,ht⟩ <;> rw [ht] <;> rfl

theorem queueRequest_thumbnailer (s : Service) (h : ℕ) :
    (s.queueRequest h).thumbnailer = s.thumbnailer := by
  rcases queueRequest_cases s h with ⟨-,ht⟩ | ⟨last,-,ht⟩ <;> rw [ht] <;> rfl

/-- A request that arrives neither begins nor ends a handler. -/
theorem arrived_begun (s : Service) (x : Handler) (peer : Peer) (media : Media) :
    (((s.register x).note (.arrived s.next peer media)).queueRequest s.next).begun = s.begun := by
  unfold begun
  rw [queueRequest_log]
  exact List.filterMap_cons_none rfl

theorem arrived_ended (s : Service) (x : Handler) (peer : Peer) (media : Media) :
    (((s.register x).note (.arrived s.next peer media)).queueRequest s.next).ended = s.ended := by
  unfold ended
  rw [queueRequest_log]
  exact List.filterMap_cons_none rfl

/-- The rest of `queueRequest()` touches nothing but the map of the keys. -/
theorem Moves.pushBack (s : Service) (h ref : ℕ) : Moves s (s.pushBack h ref) ∧
    (s.pushBack h ref).credentials = s.credentials ∧ ∀ x, (s.pushBack h ref).work x = s.work x := by
  have hof : ∀ keys stale, Moves s { s with requestKeys := keys, staleAccess := stale } :=
    fun keys stale => ⟨rfl,rfl,rfl,rfl,rfl,fun _ => rfl,fun _ => rfl,fun _ => rfl,[],by simp,rfl⟩
  unfold Service.pushBack
  dsimp only
  split
  · split
    · exact ⟨hof _ _,rfl,fun _ => rfl⟩
    · exact ⟨hof _ _,rfl,fun _ => rfl⟩
  · exact ⟨hof _ _,rfl,fun _ => rfl⟩

/-- A pool thread changes the status of its own handler and no watcher. -/
theorem thumbnail_watchers (s : Service) (h : ℕ) (w : World) (x : ℕ) :
    ((s.thumbnail h w).2.handlers x).checkWatcher = (s.handlers x).checkWatcher ∧
      ((s.thumbnail h w).2.handlers x).createWatcher = (s.handlers x).createWatcher := by
  change (Function.update s.handlers h _ x).checkWatcher = _ ∧
    (Function.update s.handlers h _ x).createWatcher = _
  by_cases hx : x = h
  · subst hx
    rw [Function.update_self]
    exact ⟨rfl,rfl⟩
  · rw [Function.update_of_ne hx]
    exact ⟨rfl,rfl⟩

theorem Transition.milestone (ht : Transition cfg s e t) (hl : Lifecycle nothing s)
    (hs : Stacked s.calls) : Milestone cfg s e t ∧ Lifecycle nothing t := by
  cases ht with
  | refused hidle => exact Milestone.of_quiet hl (.note s rfl) rfl fun x => le_rfl
  | arrived hidle hmedia => exact ⟨.arrived hidle hmedia,hl.arrive rfl rfl⟩
  | @reported peer reply callbacks hidle hpending =>
    obtain ⟨hq,hlt⟩ := hl.reported reply hpending
    exact ⟨.quiet hq,hlt⟩
  | asked hcalls hmissing =>
    exact ⟨.began hcalls (Quiet.setCredentials _ _),hl.asked hcalls hmissing⟩
  | @cleared o u h c hr hc =>
    obtain ⟨hlu,hq⟩ := hr.lifecycle hl hs
    have hset := Quiet.setCheckWatcher u h .running
    have hlt : Lifecycle nothing (u.modify h (·.setCheckWatcher .running)) := by
      exact hlu.shift hset rfl fun x => work_checkRunning h
    rcases hq with ⟨-,hq⟩ | ⟨rest,hcalls,-,hq⟩
    · exact ⟨.quiet (hq.trans hset),hlt⟩
    · exact ⟨.began hcalls (hq.trans hset),hlt⟩
  | @denied o u h c error hr hc =>
    obtain ⟨hlu,hq⟩ := hr.lifecycle hl hs
    have hlt : Lifecycle nothing (u.sendError h error) := hlu.answer rfl
    rcases hq with ⟨hpushes,hq⟩ | ⟨rest,hcalls,hknown,hq⟩
    · exact ⟨.answered hpushes hq hlu rfl,hlt⟩
    · exact ⟨.begunAnswered hcalls hknown hc hq hlu rfl,hlt⟩
  | @pushed o h ref rest hcalls =>
    obtain ⟨hm,hc,hwork⟩ := Moves.pushBack (s.setCalls rest) h ref
    refine ⟨.pushed hcalls,hl.move ((Moves.pop hcalls rfl).trans hm) (fun x => ?_)
      fun p x hx => Or.inl ?_⟩
    · have hw := work_setCalls (x:=x) hcalls
      rw [hwork]
      omega
    · rwa [hc] at hx
  | erased hcalls =>
    obtain ⟨hq,hlt⟩ := hl.erased hcalls
    exact ⟨.quiet hq,hlt⟩
  | @returned o h f rest hcalls =>
    have hset : Quiet (s.setCalls rest) ((s.setCalls rest).modify h (·.setCancelFunc f)) :=
      .modify _ (fun _ => rfl) (fun _ => rfl) fun _ => rfl
    refine Milestone.of_quiet hl ((Quiet.pop hcalls rfl rfl).trans hset) rfl fun x => ?_
    have hw := work_setCalls (x:=x) hcalls
    rw [work_setCancelFunc]
    omega
  | @started h rest hcalls =>
    have hq := (((Quiet.pop hcalls rfl rfl).trans (Quiet.note (e:=.calledDownload h) _ rfl)).trans
      (Quiet.setDownload _ h (initialDownload (s.handlers h).request.media))).trans
        (Quiet.setDownloads _ (h :: s.downloads))
    refine Milestone.of_quiet hl hq rfl fun x => ?_
    have hw := work_taken (x:=x) hcalls rfl
    have hset := work_setDownloads (((s.setCalls rest).note (.calledDownload h)).modify h
      (·.setDownload (initialDownload (s.handlers h).request.media))) x (h :: s.downloads)
    rw [work_setDownload,work_note,List.count_cons] at hset
    change _+s.downloads.count x = _ at hset
    simp only [token,beq_iff_eq] at hw hset
    omega
  | @failed h what rest filename st hcalls hmedia =>
    have hq := (((Quiet.pop hcalls rfl rfl).trans (Quiet.note (e:=.calledDownload h) _ rfl)).trans
      (Quiet.setDownload _ h (.extractor (.error what)))).trans
        (Quiet.pushEnd _ h)
    refine Milestone.of_quiet hl hq rfl fun x => ?_
    have hw := work_taken (x:=x) hcalls rfl
    rw [work_pushEnd,work_setDownload,work_note]
    omega
  | @caught y h what error rest below hcalls hcatch =>
    rw [hcalls] at hs
    obtain ⟨rfl,hmem,hbegins,hpushes⟩ := hs.catcher_some rfl hcatch
    rw [← hcalls] at hmem hbegins hpushes
    have hpop : Quiet s (s.setCalls []) :=
      .of_eq rfl rfl rfl rfl rfl rfl hbegins.symm hpushes.symm rfl rfl
    have hq : Quiet s (((s.setCalls []).note (.calledDownload y)).note (.threwDownload y what)) :=
      (hpop.trans (.note _ rfl)).trans (.note _ rfl)
    exact Milestone.of_answer (u:=((s.setCalls []).note (.calledDownload y)).note
      (.threwDownload y what)) hl hpushes hq rfl (fun x => work_unwound hmem x) rfl
  | @uncaught y what rest hcalls hcatch =>
    have hq := (((Quiet.pop hcalls rfl rfl).trans (Quiet.note (e:=.calledDownload y) _ rfl)).trans
      (Quiet.note (e:=.threwDownload y what) _ rfl)).trans (Quiet.terminate _)
    refine Milestone.of_quiet hl hq rfl fun x => ?_
    have hw := work_setCalls (x:=x) hcalls
    simp only [work_terminate,work_note]
    omega
  | @released o h rest hcalls =>
    refine Milestone.of_quiet hl ((Quiet.pop hcalls rfl rfl).trans (.downloadFinished _ h)) rfl
      fun x => ?_
    rw [work_downloadFinished]
    exact (work_taken hcalls rfl).le
  | @creating o h rest hcalls =>
    refine Milestone.of_quiet hl ((Quiet.pop hcalls rfl rfl).trans
      (.setCreateWatcher _ h .running)) rfl fun x => ?_
    exact (work_createRunning h).trans (work_taken hcalls rfl).le
  | @checkAnswered h result e hidle hw he =>
    exact Milestone.of_answer hl (by rw [hidle]; rfl) (.setCheckWatcher s h .delivered) rfl
      (fun x => (work_checkDelivered hw).le) he
  | @scheduled h hidle hw hstatus =>
    refine Milestone.of_quiet hl ((Quiet.setCheckWatcher s h .delivered).trans (.schedule _ h)) rfl
      fun x => ?_
    rw [work_schedule]
    exact (work_checkDelivered hw).le
  | @completed h download hidle hd hfits =>
    have hq := ((Quiet.setDownloads s (s.downloads.erase h)).trans
      (Quiet.setDownload _ h download)).trans (Quiet.pushEnd _ h)
    refine Milestone.of_quiet hl hq rfl fun x => ?_
    have hset := work_setDownloads s x (s.downloads.erase h)
    have hcount := (List.perm_cons_erase hd).count_eq x
    rw [List.count_cons] at hcount
    rw [work_pushEnd,work_setDownload]
    simp only [token,beq_iff_eq] at hcount ⊢
    omega
  | @createAnswered h result e hidle hw he =>
    exact Milestone.of_answer hl (by rw [hidle]; rfl) (.setCreateWatcher s h .delivered) rfl
      (fun x => (work_createDelivered hw).le) he
  | deleted hidle hd => exact ⟨.deleted hidle hd,hl.delete hd⟩
  | @checked h w result hw hr =>
    refine Milestone.of_quiet hl ((Quiet.thumbnail s h w).trans
      (.setCheckWatcher _ h (.finished result))) rfl fun x => ?_
    have hset := work_setCheckWatcher (s:=(s.thumbnail h w).2) (x:=x) h (.finished result)
    rw [(thumbnail_watchers s h w h).1,hw,work_thumbnail] at hset
    simp only [Watcher.active] at hset
    omega
  | @created h w result hw hr =>
    refine Milestone.of_quiet hl ((Quiet.thumbnail s h w).trans
      (.setCreateWatcher _ h (.finished result))) rfl fun x => ?_
    have hset := work_setCreateWatcher (s:=(s.thumbnail h w).2) (x:=x) h (.finished result)
    rw [(thumbnail_watchers s h w h).2,hw,work_thumbnail] at hset
    simp only [Watcher.active] at hset
    omega
  | @aborted e h w hw ha =>
    refine Milestone.of_quiet hl ((Quiet.thumbnail s h w).trans (.terminate _)) rfl fun x => ?_
    rw [work_terminate,work_thumbnail]
  | evicted => exact Milestone.of_quiet hl (.setThumbnailer s _) rfl fun x => le_rfl

/-! ### The shape of the stack -/

/-- A handler that answers is replaced on the stack by the handlers chained to it. -/
theorem answer_stacked {a : Effect} (hs : Stacked s.calls)
    (hb : ∀ y, ∀ g ∈ s.calls.head?, Above (.begin y) g) :
    Stacked ((s.note a).emitFinished h).calls :=
  hs.begins hb _

theorem Received.stacked {c : Credentials} (hr : Received s u h c) (hs : Stacked s.calls) :
    Stacked u.calls ∧ ∀ y, ∀ g ∈ u.calls.head?, Above (.begin y) g := by
  cases hr with
  | replied hcalls =>
    rw [hcalls] at hs
    exact ⟨hs.tail,fun y g hg => (hs.head_above g hg).begin_of_gotCredentials⟩
  | known hcalls hknown =>
    rw [hcalls] at hs
    exact ⟨hs.tail,fun y g hg => (hs.head_above g hg).begin_of_begin⟩

/-- A call is put in the place of the top one. -/
theorem Stacked.replace {c d : Call} {rest : List Call} (hs : Stacked (c::rest))
    (hd : ∀ g, Above c g → Above d g) : Stacked (d::rest) :=
  hs.tail.cons fun g hg => hd g (hs.head_above g hg)

theorem pushBack_calls (s : Service) (h ref : ℕ) : (s.pushBack h ref).calls = s.calls := by
  unfold Service.pushBack
  dsimp only
  split
  · split <;> rfl
  · rfl

theorem reported_stacked (callbacks : List ℕ) (c : Credentials) (peer : Peer) :
    Stacked (callbacks.map (Call.gotCredentials · c) ++ [.erasePending peer]) := by
  induction callbacks with
  | nil => exact .single _
  | cons y ys ih =>
    refine ih.cons fun g hg => ?_
    cases ys with
    | nil =>
      obtain rfl := Option.some.inj hg
      trivial
    | cons z zs =>
      obtain rfl := Option.some.inj hg
      trivial

theorem Transition.stacked (ht : Transition cfg s e t) (hs : Stacked s.calls) : Stacked t.calls := by
  cases ht with
  | refused | deleted | checked | created | aborted | evicted => exact hs
  | arrived hidle hmedia =>
    unfold queueRequest
    dsimp only
    split
    · change Stacked (_ :: _ :: s.calls)
      rw [hidle]
      exact Stacked.cons (.single _) fun g hg => by
        obtain rfl := Option.some.inj hg
        trivial
    · change Stacked (_ :: s.calls)
      rw [hidle]
      exact .single _
  | @reported peer reply callbacks hidle hpending =>
    change Stacked (_ ++ s.calls)
    rw [hidle,List.append_nil]
    exact reported_stacked _ _ _
  | asked hcalls hmissing =>
    rw [hcalls] at hs
    exact hs.tail
  | cleared hr hc => exact (hr.stacked hs).1
  | denied hr hc => exact answer_stacked (hr.stacked hs).1 (hr.stacked hs).2
  | @pushed o h ref rest hcalls =>
    rw [hcalls] at hs
    rw [pushBack_calls]
    exact hs.tail
  | erased hcalls | returned hcalls | started hcalls | creating hcalls | uncaught hcalls =>
    rw [hcalls] at hs
    exact hs.tail
  | failed hcalls hmedia =>
    rw [hcalls] at hs
    exact hs.replace fun g => Above.downloadFinished_of_job
  | caught hcalls hcatch =>
    rw [hcalls] at hs
    obtain ⟨rfl,-,-,-⟩ := hs.catcher_some rfl hcatch
    exact answer_stacked (by exact List.IsChain.nil) fun y g hg => by cases hg
  | @released o h rest hcalls =>
    rw [hcalls] at hs
    have hc : Stacked (.startCreate h :: rest) :=
      hs.replace fun g => Above.startCreate_of_downloadFinished
    unfold Service.downloadFinished
    dsimp only
    cases ((s.setCalls rest).limiters ((s.setCalls rest).handlers h).limiter).done.2 with
    | none => exact hc
    | some y =>
      exact hc.cons fun g hg => by
        obtain rfl := Option.some.inj hg
        trivial
  | checkAnswered hidle hw he | createAnswered hidle hw he =>
    exact answer_stacked hs fun y g hg => by
      change g ∈ s.calls.head? at hg
      simp [hidle] at hg
  | @scheduled h hidle hw hstatus =>
    unfold Service.schedule
    dsimp only
    change Stacked ((_ ++ _) ++ s.calls)
    rw [hidle,List.append_nil]
    rcases RateLimiter.schedule_next ((s.modify h (·.setCheckWatcher .delivered)).limiters
      ((s.modify h (·.setCheckWatcher .delivered)).handlers h).limiter) h with hn | hn <;> rw [hn]
    · exact .single _
    · exact Stacked.cons (.single _) fun g hg => by
        obtain rfl := Option.some.inj hg
        exact rfl
  | completed hidle hd hfits =>
    change Stacked (_ :: s.calls)
    rw [hidle]
    exact .single _

/-! ### Every state of a run -/

/-- The accounts are balanced and the stack is well formed. -/
structure Sound (s : Service) : Prop where
  lifecycle : Lifecycle nothing s
  stacked : Stacked s.calls

theorem Sound.transition (hs : Sound s) (ht : Transition cfg s e t) : Sound t :=
  ⟨(ht.milestone hs.lifecycle hs.stacked).2,ht.stacked hs.stacked⟩

theorem machine_step (ht : (machine cfg).step s e = some t) :
    s.terminated = false ∧ s.step cfg e = some t := by
  change (if s.terminated then none else s.step cfg e) = some t at ht
  cases hterm : s.terminated with
  | true => simp [hterm] at ht
  | false => exact ⟨rfl,by simpa [hterm] using ht⟩

theorem Sound.transition_of_step (hs : Sound s)
    (ht : (machine cfg).step s e = some t) : Transition cfg s e t :=
  step_transition hs.lifecycle (machine_step ht).2

theorem Sound.step (hs : Sound s) (ht : (machine cfg).step s e = some t) : Sound t :=
  hs.transition (hs.transition_of_step ht)

theorem Sound.new (apparmorEnabled : Bool) (maxDownloads maxExtractions : ℤ)
    (hd : 0 < maxDownloads) (he : 0 < maxExtractions) (thumbnailer : Thumbnailer) :
    Sound (new apparmorEnabled maxDownloads maxExtractions hd he thumbnailer) where
  lifecycle := by
    have hwork : ∀ x, (Service.new apparmorEnabled maxDownloads maxExtractions hd he
        thumbnailer).work x = 0 := fun _ => rfl
    refine ⟨fun x => Nat.zero_le _,fun x => ?_,fun x => ?_,fun x => rfl,fun x hx => ?_,
      fun x hx => ?_,fun p x hx => ?_⟩
    · rw [hwork]
      exact le_rfl
    · change x ∈ (∅ : Finset ℕ) ↔ x < 0 ∧ _
      simp
    · cases hx
    · cases hx
    · cases hx
  stacked := List.IsChain.nil

end
end Service
end UnityThumbnailer
