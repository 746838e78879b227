import UnityThumbnailer.BusQueries
import UnityThumbnailer.Downloads
import UnityThumbnailer.Tickets

/-! No request is lost in the service. The accounts of the handlers bound their places from
above; here they are bounded from below, so that a request that is not finished waits for
another one, or is in one place from which it is carried on. -/
namespace UnityThumbnailer
namespace Service

/-- Nobody falls out of the accounts: who has arrived waits or has begun, and who has begun
has a place until the end. -/
structure Complete (held : ℕ → ℕ) (s : Service) : Prop where
  waits : ∀ x < s.next, 0 < s.waiting x+s.begun.count x
  works : ∀ x, s.begun.count x ≤ s.work x+held x+s.ended.count x

/-- Handlers are chained in the order of their arrival, to others of their key. -/
def Ordered (s : Service) : Prop :=
  ∀ c ∈ s.connections, c.1 < c.2 ∧ c.2 < s.next ∧ (s.handlers c.1).key = (s.handlers c.2).key

/-- Jobs only wait while a download is in progress. -/
def Busy (s : Service) : Prop := ∀ l, (s.limiters l).pending ≠ [] → 0 < (s.limiters l).running

section

variable {cfg : Config} {e : Event} {s t u : Service} {h x : ℕ} {held held' : ℕ → ℕ}

theorem work_register {y : Handler} (hx : x ≠ s.next) : (s.register y).work x = s.work x := by
  have hsame : (s.register y).handlers x = s.handlers x := Function.update_of_ne hx ..
  unfold work
  rw [hsame]
  rfl

namespace Complete

/-- Moving places around. -/
theorem move (hc : Complete held s) (hq : Moves s t)
    (hwork : ∀ x, s.work x+held x ≤ t.work x+held' x) : Complete held' t where
  waits x hx := by
    rw [hq.waiting,hq.begun]
    exact hc.waits x (hq.next ▸ hx)
  works x := by
    have hk := hc.works x
    have hx := hwork x
    rw [hq.ended,hq.begun]
    omega

/-- Quiet steps that neither take a place nor give one. -/
theorem same (hc : Complete held s) (hq : Moves s t) (hwork : ∀ x, t.work x = s.work x) :
    Complete held t :=
  hc.move hq fun x => (congrArg (·+held x) (hwork x)).ge

theorem begin {rest : List Call} (hc : Complete nothing s) (hcalls : s.calls = .begin h :: rest) :
    Complete (token h) ((s.setCalls rest).note (.began h)) := by
  have hbegun : ∀ x, ((s.setCalls rest).note (.began h)).begun.count x =
      s.begun.count x+token h x := by
    intro x
    change ((Effect.began h :: s.log).filterMap Effect.begins).count x = _
    rw [List.filterMap_cons_some (f:=Effect.begins) rfl,List.count_cons]
    simp [begun,token]
  refine ⟨fun x hx => ?_,fun x => ?_⟩
  · have hw := hc.waits x hx
    rw [hbegun]
    unfold waiting at hw ⊢
    rw [hcalls,List.filterMap_cons_some (f:=Call.begins) rfl,List.count_cons,beq_eq_decide] at hw
    change 0 < (rest.filterMap Call.begins).count x+
      s.connections.countP (fun c => c.2 = x ∧ c.1 ∉ s.ended)+_
    unfold token
    simp only [decide_eq_true_eq] at hw
    omega
  · have hk := hc.works x
    have hwork := work_setCalls (x:=x) hcalls
    rw [hbegun]
    change _ ≤ (s.setCalls rest).work x+token h x+s.ended.count x
    simp only [nothing] at hk
    simp only [Call.works,Option.toList_none,List.count_nil] at hwork
    omega

/-- Those that waited for the handler that finishes begin. -/
theorem answer {a : Effect} (hc : Complete (token h) s) (hl : Lifecycle (token h) s)
    (ha : a.answers = some h) : Complete nothing ((s.note a).emitFinished h) := by
  have hheld : token h h = 1 := if_pos rfl
  have hended := (hl.unfinished (x:=h) (by omega)).2.1
  have hnot : h ∉ s.ended := List.count_eq_zero.mp hended
  have hb := answer_begun (s:=s) ha
  have hen := answer_ended (s:=s) ha
  have hnone : ((s.connected h).map Call.begin).filterMap Call.works = [] := by
    rw [← List.append_nil ((s.connected h).map Call.begin)]
    exact filterMap_begin (fun _ => rfl) _ _
  refine ⟨fun x hx => ?_,fun x => ?_⟩
  · have hw := hc.waits x hx
    have hconn := connected_count s.connections hnot x
    rw [hb]
    unfold waiting at hw ⊢
    rw [hen,answer_begins,List.count_append]
    change 0 < (_+s.connections.countP _)+_
    unfold connected
    omega
  · have hk := hc.works x
    rw [hb,hen,List.count_cons]
    change _ ≤ (s.push ((s.connected h).map Call.begin)).work x+0+_
    rw [work_push,hnone]
    unfold token at hk
    simp only [List.count_nil,beq_iff_eq]
    omega

/-- A step from an event of the loop that ends with an answer. -/
theorem answered {a : Effect} (hc : Complete nothing s) (hl : Lifecycle nothing s) (hq : Quiet s u)
    (hcredentials : u.credentials = s.credentials)
    (hwork : ∀ x, u.work x+token h x = s.work x) (ha : a.answers = some h) :
    Complete nothing ((u.note a).emitFinished h) := by
  have hlu : Lifecycle (token h) u := hl.shift hq hcredentials fun x => (hwork x).le
  exact (hc.move hq.toMoves fun x => (hwork x).ge).answer hlu ha

/-- A handler in the hands of the running code has no place besides. -/
theorem work_zero (hl : Lifecycle (token h) s) : s.work h = 0 := by
  have hk := hl.works h
  have hb := hl.begun_le h
  rw [token,if_pos rfl] at hk
  omega

/-- A watcher takes the place of its handler: it was not active before. -/
theorem checkRunning (hc : Complete (token h) s) (hl : Lifecycle (token h) s) :
    Complete nothing (s.modify h (·.setCheckWatcher .running)) := by
  refine hc.move (Quiet.setCheckWatcher s h .running).toMoves fun x => ?_
  have hset := work_setCheckWatcher (s:=s) (x:=x) h .running
  have hzero : (s.handlers h).checkWatcher.active = 0 :=
    Nat.le_zero.mp ((s.share_le h .check).trans (work_zero hl).le)
  rw [show Watcher.active .running = 1 from rfl,hzero,ite_self,Nat.add_zero] at hset
  unfold token nothing
  omega

theorem createRunning (hc : Complete (token h) s) (hl : Lifecycle (token h) s) :
    Complete nothing (s.modify h (·.setCreateWatcher .running)) := by
  refine hc.move (Quiet.setCreateWatcher s h .running).toMoves fun x => ?_
  have hset := work_setCreateWatcher (s:=s) (x:=x) h .running
  have hzero : (s.handlers h).createWatcher.active = 0 :=
    Nat.le_zero.mp ((s.share_le h .create).trans (work_zero hl).le)
  rw [show Watcher.active .running = 1 from rfl,hzero,ite_self,Nat.add_zero] at hset
  unfold token nothing
  omega

/-- A request that arrives begins at once, or waits for one that is not finished. -/
theorem arrive {y : Handler} (hc : Complete nothing s) (hl : Lifecycle nothing s)
    (hchained : Chained s) (hidle : s.calls = []) (peer : Peer) (media : Media) :
    Complete nothing (((s.register y).note (.arrived s.next peer media)).queueRequest s.next) := by
  have hpushes : s.pushes = [] := by
    unfold pushes
    rw [hidle]
    rfl
  have hold : ∀ x < s.next,
      0 < s.connections.countP (fun c => c.2 = x ∧ c.1 ∉ s.ended)+s.begun.count x := by
    intro x hx
    have hw := hc.waits x hx
    unfold waiting at hw
    rw [hidle] at hw
    simpa using hw
  have hnew : s.begun.count s.next = 0 := List.count_eq_zero.mpr hl.next_new.2
  have hkey : ∀ key, ((s.register y).note (.arrived s.next peer media)).keyEntry key =
      s.keyEntry key := fun _ => rfl
  refine ⟨fun x hx => ?_,fun x => ?_⟩
  · rw [queueRequest_next] at hx
    have hx : x < s.next+1 := hx
    rw [arrived_begun]
    unfold waiting
    rw [arrived_ended]
    rcases queueRequest_cases ((s.register y).note (.arrived s.next peer media)) s.next with
      ⟨-,hq⟩ | ⟨last,hlast,hq⟩ <;> rw [hq]
    · change 0 < ((Call.begin s.next :: .pushBack s.next _ :: s.calls).filterMap Call.begins).count x
        +s.connections.countP (fun c => c.2 = x ∧ c.1 ∉ s.ended)+s.begun.count x
      rw [List.filterMap_cons_some (f:=Call.begins) rfl,List.count_cons]
      by_cases hxs : s.next = x
      · simp [hxs]
      · have hpos := hold x (by omega)
        omega
    · change 0 < ((Call.pushBack s.next _ :: s.calls).filterMap Call.begins).count x +
        (s.connections ++ [(last,s.next)]).countP (fun c => c.2 = x ∧ c.1 ∉ s.ended) +
          s.begun.count x
      rw [List.countP_append,List.countP_singleton]
      by_cases hxs : s.next = x
      · rw [hkey,hchained.keyEntry_handlers hpushes] at hlast
        have hmem := (mem_unfinished.mp (List.mem_of_getLast? hlast)).2.1
        simp [hxs,hmem]
      · have hpos := hold x (by omega)
        omega
  · rw [arrived_begun,arrived_ended]
    by_cases hxs : x = s.next
    · subst hxs
      rw [hnew]
      exact Nat.zero_le _
    · have hk := hc.works x
      have hwork : (((s.register y).note (.arrived s.next peer media)).queueRequest s.next).work x =
          s.work x := by
        rcases queueRequest_cases ((s.register y).note (.arrived s.next peer media)) s.next with
          ⟨-,hq⟩ | ⟨last,-,hq⟩ <;> rw [hq,work_push]
        · change 0+(s.register y).work x = _
          rw [work_register hxs,Nat.zero_add]
        · change 0+(s.register y).work x = _
          rw [work_register hxs,Nat.zero_add]
      rw [hwork]
      exact hk

/-- The callbacks of a query move to the stack, all of them. -/
theorem reported {peer : Peer} (reply : BusReply) {callbacks : List ℕ} (hc : Complete nothing s)
    (hl : Lifecycle nothing s) (hpending : s.credentials.pending peer = some ⟨callbacks,false⟩) :
    Complete nothing (s.receivedCredentials peer reply) := by
  refine hc.same (hl.reported reply hpending).1.toMoves fun x => ?_
  obtain ⟨hresult,hasked,hself,hother⟩ :=
    CredentialsCache.receivedCredentials_asked reply hpending
  have hset := work_setCredentials s x (s.credentials.receivedCredentials peer reply).1
  have hworks : ∀ c : Credentials, (callbacks.map (Call.gotCredentials · c) ++
      [Call.erasePending peer]).filterMap Call.works = callbacks := by
    intro c
    rw [List.filterMap_append,List.filterMap_map]
    have hsome : (Call.works ∘ (Call.gotCredentials · c)) = some := rfl
    rw [hsome,List.filterMap_some,List.filterMap_cons_none rfl,List.filterMap_nil,List.append_nil]
  unfold receivedCredentials
  dsimp only
  rw [hresult,work_push,hworks,work_note]
  by_cases hp : (s.handlers x).peer = peer
  · rw [hp,hself,hasked] at hset
    simp only [List.count_nil] at hset
    omega
  · have hnot : callbacks.count x = 0 :=
      List.count_eq_zero.mpr fun hx => hp (hl.asks peer x (hasked ▸ hx)).1
    rw [hother _ hp] at hset
    omega

/-- A handler that asks joins a query that will be answered. -/
theorem asked {rest : List Call} (hc : Complete nothing s) (hq : Queries s)
    (hcalls : s.calls = .begin h :: rest)
    (hmissing : s.credentials.cached (s.handlers h).peer = none) :
    Complete nothing (((s.setCalls rest).note (.began h)).setCredentials
      (s.credentials.get (s.handlers h).peer h).1) := by
  refine (hc.begin hcalls).move (Quiet.setCredentials _ _).toMoves fun x => ?_
  have hset := work_setCredentials ((s.setCalls rest).note (.began h)) x
    (s.credentials.get (s.handlers h).peer h).1
  change _ + (s.credentials.asked (s.handlers x).peer).count x =
    _ + ((s.credentials.get (s.handlers h).peer h).1.asked (s.handlers x).peer).count x at hset
  have hjoined := hq.get_asked (h:=h) hmissing
  by_cases hp : (s.handlers x).peer = (s.handlers h).peer
  · rw [hp,hjoined,List.count_append,List.count_singleton] at hset
    unfold nothing token
    simp only [beq_iff_eq] at hset
    omega
  · have hne : h ≠ x := fun hcon => hp (congrArg (fun y => (s.handlers y).peer) hcon.symm)
    rw [CredentialsCache.get_asked_other _ _ hp] at hset
    unfold nothing token
    rw [if_neg hne]
    omega

/-- A query is forgotten when nobody waits in it any more. -/
theorem erased {peer : Peer} {rest : List Call} (hc : Complete nothing s) (hl : Lifecycle nothing s)
    (hq : Queries s) (hcalls : s.calls = .erasePending peer :: rest) :
    Complete nothing ((s.setCalls rest).setCredentials (s.credentials.erasePending peer)) := by
  refine hc.same (hl.erased hcalls).1.toMoves fun x => ?_
  have hw := work_setCalls (x:=x) hcalls
  have hset : _+(s.credentials.asked (s.handlers x).peer).count x =
      _+((s.credentials.erasePending peer).asked (s.handlers x).peer).count x :=
    work_setCredentials (s.setCalls rest) x (s.credentials.erasePending peer)
  have hmem : peer ∈ s.erasures := by
    unfold erasures
    rw [hcalls,List.filterMap_cons_some (f:=Call.erases) rfl]
    exact List.mem_cons_self
  simp only [Call.works,Option.toList_none,List.count_nil] at hw
  rw [CredentialsCache.erasePending_asked] at hset
  split_ifs at hset with hp
  · rw [hp,hq.asked_erased hmem] at hset
    omega
  · omega

theorem received {c : Credentials} (hc : Complete nothing s) (hr : Received s u h c) :
    Complete (token h) u := by
  cases hr with
  | replied hcalls =>
    exact hc.move (Moves.pop hcalls rfl) fun x => (work_taken hcalls rfl).ge
  | @known _ _ rest hcalls hknown =>
    have hsome : (s.credentials.cached (s.handlers h).peer).isSome := by rw [hknown]; rfl
    refine (hc.begin hcalls).same (Quiet.setCredentials _ _).toMoves fun x => ?_
    have hset := work_setCredentials ((s.setCalls rest).note (.began h)) x
      (s.credentials.get (s.handlers h).peer h).1
    change _ + (s.credentials.asked (s.handlers x).peer).count x =
      _ + ((s.credentials.get (s.handlers h).peer h).1.asked (s.handlers x).peer).count x at hset
    rw [CredentialsCache.get_asked_found h hsome] at hset
    omega

/-- The destructor takes nothing away from the handlers that are not finished. -/
theorem delete (hc : Complete nothing s) (hl : Lifecycle nothing s) (hk : Tickets s)
    (hd : h ∈ s.deletions) : Complete nothing (s.delete h) := by
  have hended := hl.deletions h hd
  have hbegun := hl.works h
  have hqueued : ∀ x, (s.delete h).queued x = s.queued x := by
    intro x
    unfold queued
    rw [hk.delete_pending hl hd,hk.delete_pending hl hd]
  have hhandlers : ∀ x, ((s.delete h).handlers x).peer = (s.handlers x).peer ∧
      ((s.delete h).handlers x).watched = (s.handlers x).watched := by
    intro x
    change (Function.update s.handlers h (s.handlers h).cancel x).peer = _ ∧
      (Function.update s.handlers h (s.handlers h).cancel x).watched = _
    rw [Function.update_apply]
    split_ifs with hx
    · subst hx
      exact ⟨rfl,rfl⟩
    · exact ⟨rfl,rfl⟩
  refine ⟨fun x hx => ?_,fun x => ?_⟩
  · have hw := hc.waits x hx
    change 0 < (s.calls.filterMap Call.begins).count x +
      (s.connections.filter fun c => decide (c.1 ≠ h ∧ c.2 ≠ h)).countP
        (fun c => c.2 = x ∧ c.1 ∉ s.ended)+s.begun.count x
    by_cases hxh : x = h
    · subst hxh
      omega
    · have hsame : (s.connections.filter fun c => decide (c.1 ≠ h ∧ c.2 ≠ h)).countP
          (fun c => decide (c.2 = x ∧ c.1 ∉ s.ended)) =
            s.connections.countP fun c => decide (c.2 = x ∧ c.1 ∉ s.ended) := by
        rw [List.countP_filter]
        refine List.countP_congr fun c _ => ?_
        have hh : h ∈ s.ended := List.count_pos_iff.mp hended
        simp only [Bool.decide_and,Bool.and_eq_true,decide_eq_true_eq]
        constructor
        · exact And.left
        · rintro ⟨rfl,hlive⟩
          exact ⟨⟨rfl,hlive⟩,fun hcon => hlive (hcon ▸ hh),hxh⟩
      rw [hsame]
      exact hw
  · have hwork : (s.delete h).work x = s.work x := by
      unfold work
      rw [hqueued,delete_downloads hl hd,(hhandlers x).1,(hhandlers x).2]
      rfl
    rw [hwork]
    exact hc.works x

/-- A step of a run without exceptions loses no request. -/
theorem step (hc : Complete nothing s) (hs : Sound s) (hchained : Chained s) (hq : Queries s)
    (hk : Tickets s) (ht : Transition cfg s e t) (hquiet : ThrowsNothing s e) :
    Complete nothing t := by
  have hl := hs.lifecycle
  cases ht with
  | refused hidle => exact hc.same (Quiet.note s rfl).toMoves fun _ => rfl
  | arrived hidle hmedia => exact hc.arrive hl hchained hidle _ _
  | reported hidle hpending => exact hc.reported _ hl hpending
  | asked hcalls hmissing => exact hc.asked hq hcalls hmissing
  | cleared hr hcleared => exact (hc.received hr).checkRunning (hr.lifecycle hl hs.stacked).1
  | denied hr hdenied => exact (hc.received hr).answer (hr.lifecycle hl hs.stacked).1 rfl
  | @pushed o h ref rest hcalls =>
    obtain ⟨hm,-,hwork⟩ := Moves.pushBack (s.setCalls rest) h ref
    refine hc.same ((Moves.pop hcalls rfl).trans hm) fun x => ?_
    have hw := work_setCalls (x:=x) hcalls
    rw [hwork]
    exact hw
  | erased hcalls => exact hc.erased hl hq hcalls
  | @returned o h f rest hcalls =>
    have hset : Quiet (s.setCalls rest) ((s.setCalls rest).modify h (·.setCancelFunc f)) :=
      .modify _ (fun _ => rfl) (fun _ => rfl) fun _ => rfl
    refine hc.same ((Quiet.pop hcalls rfl rfl).trans hset).toMoves fun x => ?_
    rw [work_setCancelFunc]
    exact work_setCalls (x:=x) hcalls
  | @started h rest hcalls =>
    have hq' := (((Quiet.pop hcalls rfl rfl).trans (Quiet.note (e:=.calledDownload h) _ rfl)).trans
      (Quiet.setDownload _ h (initialDownload (s.handlers h).request.media))).trans
        (Quiet.setDownloads _ (h :: s.downloads))
    refine hc.same hq'.toMoves fun x => ?_
    have hw := work_taken (x:=x) hcalls rfl
    have hset := work_setDownloads (((s.setCalls rest).note (.calledDownload h)).modify h
      (·.setDownload (initialDownload (s.handlers h).request.media))) x (h :: s.downloads)
    rw [work_setDownload,work_note,List.count_cons] at hset
    change _+s.downloads.count x = _ at hset
    simp only [token,beq_iff_eq] at hw hset
    omega
  | @failed h what rest filename st hcalls hmedia =>
    have hq' := (((Quiet.pop hcalls rfl rfl).trans (Quiet.note (e:=.calledDownload h) _ rfl)).trans
      (Quiet.setDownload _ h (.extractor (.error what)))).trans (Quiet.pushEnd _ h)
    refine hc.same hq'.toMoves fun x => ?_
    have hw := work_taken (x:=x) hcalls rfl
    rw [work_pushEnd,work_setDownload,work_note]
    exact hw
  | caught hcalls hcatch => simp only [ThrowsNothing,hcalls] at hquiet
  | uncaught hcalls hcatch => simp only [ThrowsNothing,hcalls] at hquiet
  | @released o h rest hcalls =>
    refine hc.same ((Quiet.pop hcalls rfl rfl).trans (.downloadFinished _ h)).toMoves fun x => ?_
    rw [work_downloadFinished]
    exact work_taken hcalls rfl
  | creating hcalls =>
    have hpop := Quiet.pop hcalls rfl rfl
    have htaken := fun x => work_taken (x:=x) hcalls rfl
    exact (hc.move hpop.toMoves fun x => (htaken x).ge).createRunning
      (hl.shift hpop rfl fun x => (htaken x).le)
  | checkAnswered hidle hw he =>
    exact hc.answered hl (.setCheckWatcher s _ .delivered) rfl (fun x => work_checkDelivered hw) he
  | @scheduled h hidle hw hstatus =>
    refine hc.same ((Quiet.setCheckWatcher s h .delivered).trans (.schedule _ h)).toMoves
      fun x => ?_
    rw [work_schedule]
    exact work_checkDelivered hw
  | @completed h download hidle hd hfits =>
    have hq' := ((Quiet.setDownloads s (s.downloads.erase h)).trans
      (Quiet.setDownload _ h download)).trans (Quiet.pushEnd _ h)
    refine hc.same hq'.toMoves fun x => ?_
    have hset := work_setDownloads s x (s.downloads.erase h)
    have hcount := (List.perm_cons_erase hd).count_eq x
    rw [List.count_cons] at hcount
    rw [work_pushEnd,work_setDownload]
    simp only [token,beq_iff_eq] at hcount ⊢
    omega
  | createAnswered hidle hw he =>
    exact hc.answered hl (.setCreateWatcher s _ .delivered) rfl (fun x => work_createDelivered hw) he
  | deleted hidle hd => exact hc.delete hl hk hd
  | @checked h w result hw hr =>
    refine hc.same ((Quiet.thumbnail s h w).trans
      (.setCheckWatcher _ h (.finished result))).toMoves fun x => ?_
    have hset := work_setCheckWatcher (s:=(s.thumbnail h w).2) (x:=x) h (.finished result)
    rw [(thumbnail_watchers s h w h).1,hw,work_thumbnail] at hset
    simp only [Watcher.active] at hset
    omega
  | @created h w result hw hr =>
    refine hc.same ((Quiet.thumbnail s h w).trans
      (.setCreateWatcher _ h (.finished result))).toMoves fun x => ?_
    have hset := work_setCreateWatcher (s:=(s.thumbnail h w).2) (x:=x) h (.finished result)
    rw [(thumbnail_watchers s h w h).2,hw,work_thumbnail] at hset
    simp only [Watcher.active] at hset
    omega
  | @aborted e h w hw ha =>
    refine hc.same ((Quiet.thumbnail s h w).trans (.terminate _)).toMoves fun x => ?_
    rw [work_terminate,work_thumbnail]
  | evicted => exact hc.same (Quiet.setThumbnailer s _).toMoves fun _ => rfl

end Complete

/-! ### The chains and the queues -/

theorem Ordered.moves (ho : Ordered s) (hq : Moves s t) : Ordered t := by
  intro c hc
  rw [hq.connections] at hc
  rw [hq.next,hq.key,hq.key]
  exact ho c hc

/-- A request is chained behind the one that came last. -/
theorem Ordered.arrive {y : Handler} (ho : Ordered s) (hchained : Chained s) (hidle : s.calls = [])
    (peer : Peer) (media : Media) :
    Ordered (((s.register y).note (.arrived s.next peer media)).queueRequest s.next) := by
  have hpushes : s.pushes = [] := by
    unfold pushes
    rw [hidle]
    rfl
  have hself : Function.update s.handlers s.next y s.next = y := Function.update_self ..
  have hother : ∀ x < s.next, Function.update s.handlers s.next y x = s.handlers x :=
    fun x hx => Function.update_of_ne hx.ne ..
  have hkept : ∀ c ∈ s.connections, c.1 < c.2 ∧ c.2 < s.next+1 ∧
      (Function.update s.handlers s.next y c.1).key =
        (Function.update s.handlers s.next y c.2).key := by
    intro c hc
    obtain ⟨hlt,hnext,hkey⟩ := ho c hc
    rw [hother _ hnext,hother _ (hlt.trans hnext)]
    exact ⟨hlt,Nat.lt_succ_of_lt hnext,hkey⟩
  rcases queueRequest_cases ((s.register y).note (.arrived s.next peer media)) s.next with
    ⟨-,hq⟩ | ⟨last,hlast,hq⟩ <;> rw [hq]
  · exact hkept
  · intro c hc
    rcases List.mem_append.mp hc with hc | hc
    · exact hkept c hc
    · obtain rfl := List.mem_singleton.mp hc
      change (s.keyEntry (Function.update s.handlers s.next y s.next).key).handlers.getLast? =
        some last at hlast
      rw [hself,hchained.keyEntry_handlers hpushes] at hlast
      obtain ⟨hnext,-,hkey⟩ := mem_unfinished.mp (List.mem_of_getLast? hlast)
      refine ⟨hnext,Nat.lt_succ_self _,?_⟩
      change (Function.update s.handlers s.next y last).key =
        (Function.update s.handlers s.next y s.next).key
      rw [hself,hother last hnext]
      exact hkey

theorem Ordered.step (ho : Ordered s) (hchained : Chained s) (hm : Milestone cfg s e t) :
    Ordered t := by
  cases hm with
  | quiet hq => exact ho.moves hq.toMoves
  | arrived hidle hmedia => exact ho.arrive hchained hidle _ _
  | @began o t h rest hcalls hq =>
    have hb : Ordered ((s.setCalls rest).note (.began h)) := ho
    exact hb.moves hq.toMoves
  | @answered e u h a hpushes hq =>
    have hu : Ordered u := ho.moves hq.toMoves
    exact fun c hc => hu c hc
  | @begunAnswered o u h a c rest hcalls hknown hdenied hq =>
    have hb : Ordered ((s.setCalls rest).note (.began h)) := ho
    have hu : Ordered u := hb.moves hq.toMoves
    exact fun c hc => hu c hc
  | @pushed o h ref rest hcalls =>
    exact ho.moves ((Moves.pop hcalls rfl).trans (Moves.pushBack (s.setCalls rest) h ref).1)
  | @deleted h hidle hd =>
    have hkey : ∀ x, ((s.delete h).handlers x).key = (s.handlers x).key := by
      intro x
      change (Function.update s.handlers h (s.handlers h).cancel x).key = _
      rw [Function.update_apply]
      split_ifs with hx
      · rw [hx]
        rfl
      · rfl
    intro c hc
    rw [hkey,hkey]
    exact ho c (List.mem_filter.mp hc).1

/-- A job is queued when the slots are taken, and a slot that is freed goes to the next job. -/
theorem Busy.step (hb : Busy s) (hshifts : Shifts s t) : Busy t := by
  intro l hl
  cases hshifts with
  | same hrunning hpending hholders =>
    rw [hrunning]
    exact hb l fun hnil => hl (List.subset_nil.mp (hnil ▸ hpending l))
  | @scheduled h hat hlimiters hholders =>
    rw [hlimiters] at hl ⊢
    rw [Function.update_apply] at hl ⊢
    split_ifs at hl ⊢ with hlim
    · rw [RateLimiter.schedule_running]
      by_cases hbelow : (s.limiters (s.handlers h).limiter).running <
          (s.limiters (s.handlers h).limiter).concurrency
      · have hjobs := (s.limiters (s.handlers h).limiter).schedule_jobs h
        rw [RateLimiter.schedule_below hbelow] at hl hjobs ⊢
        have hpos := hb _ hl
        simp only [Option.toList_some,List.length_singleton]
        omega
      · have hpos := (s.limiters (s.handlers h).limiter).concurrency_pos
        omega
    · exact hb l hl
  | @released h rest hat hlimiters hbefore hholders =>
    rw [hlimiters] at hl ⊢
    rw [Function.update_apply] at hl ⊢
    split_ifs at hl ⊢ with hlim
    · have hdone := (s.limiters (s.handlers h).limiter).done_running_next
      rw [RateLimiter.done_pending] at hl
      rw [RateLimiter.done_next] at hdone
      cases hp : (s.limiters (s.handlers h).limiter).pending with
      | nil => simp [hp] at hl
      | cons job jobs =>
        have hpos := hb (s.handlers h).limiter (by simp [hp])
        rw [hp] at hdone
        simp only [List.head?_cons,Option.toList_some,List.length_singleton] at hdone
        omega
    · exact hb l hl

/-! ### Every state of a run -/

/-- A handler that has finished is deleted when the event loop is reached. -/
def Disposed (s : Service) : Prop := ∀ x ∈ s.ended, x ∈ s.deletions ∨ (s.handlers x).cancelled = true

theorem Disposed.moves (hd : Disposed s) (hq : Moves s t) : Disposed t := by
  intro x hx
  rw [hq.ended] at hx
  rw [hq.deletions,hq.cancelled]
  exact hd x hx

theorem Disposed.answer {a : Effect} (hd : Disposed u) (ha : a.answers = some h) :
    Disposed ((u.note a).emitFinished h) := by
  intro x hx
  rw [answer_ended ha] at hx
  rcases List.mem_cons.mp hx with rfl | hx
  · exact Or.inl List.mem_cons_self
  · exact (hd x hx).imp_left (List.mem_cons_of_mem h)

theorem Disposed.step (hd : Disposed s) (hl : Lifecycle nothing s) (hm : Milestone cfg s e t) :
    Disposed t := by
  cases hm with
  | quiet hq => exact hd.moves hq.toMoves
  | @arrived peer m size media hidle hmedia =>
    intro x hx
    rw [arrived_ended] at hx
    have hne : x ≠ s.next := fun hcon => hl.next_new.1 (hcon ▸ hx)
    rw [queueRequest_handlers]
    change _ ∨ (Function.update s.handlers s.next _ x).cancelled = true
    rw [Function.update_of_ne hne]
    rcases queueRequest_cases ((s.register (.new peer m.limiter media size (m.details size))).note
      (.arrived s.next peer media)) s.next with ⟨-,hq⟩ | ⟨last,-,hq⟩ <;> rw [hq] <;> exact hd x hx
  | @began o t h rest hcalls hq =>
    have hb : Disposed ((s.setCalls rest).note (.began h)) := hd
    exact hb.moves hq.toMoves
  | answered hpushes hq hlu ha => exact (hd.moves hq.toMoves).answer ha
  | @begunAnswered o u h a c rest hcalls hknown hdenied hq hlu ha =>
    have hb : Disposed ((s.setCalls rest).note (.began h)) := hd
    exact (hb.moves hq.toMoves).answer ha
  | @pushed o h ref rest hcalls =>
    exact hd.moves ((Moves.pop hcalls rfl).trans (Moves.pushBack (s.setCalls rest) h ref).1)
  | @deleted h hidle hdel =>
    intro x hx
    change x ∈ s.deletions.filter (· ≠ h) ∨
      (Function.update s.handlers h (s.handlers h).cancel x).cancelled = true
    by_cases hxh : x = h
    · subst hxh
      right
      rw [Function.update_self]
      rfl
    · rw [Function.update_of_ne hxh]
      exact (hd x hx).imp_left fun hm => List.mem_filter.mpr ⟨hm,by simpa using hxh⟩

/-- Nothing throws, and no `begin()` that `queueRequest()` calls answers its request. -/
def RunsSmoothly (cfg : Config) (s : Service) (e : Event) : Prop :=
  QueuesQuietly cfg s e ∧ ThrowsNothing s e

/-- The job at the top of the calls throws. -/
def jobThrows : Event → List Call → Bool
  | .call (.threw _),.job _ :: _ => true
  | _,_ => false

theorem throwsNothing_iff (s : Service) (e : Event) :
    ThrowsNothing s e ↔ jobThrows e s.calls = false := by
  unfold ThrowsNothing
  generalize s.calls = calls
  fun_cases jobThrows e calls with
  | case1 => simp
  | case2 =>
    rename_i hneither
    split
    · exact (hneither _ _ _ rfl rfl).elim
    · simp

instance (s : Service) (e : Event) : Decidable (ThrowsNothing s e) :=
  decidable_of_iff _ (throwsNothing_iff s e).symm

instance (cfg : Config) (s : Service) (e : Event) : Decidable (RunsSmoothly cfg s e) :=
  inferInstanceAs (Decidable (_ ∧ _))

/-- What smooth runs preserve. -/
structure Whole (s : Service) : Prop where
  sound : Sound s
  chained : Chained s
  slots : Slots s
  downloads : Downloads s
  queries : Queries s
  tickets : Tickets s
  ordered : Ordered s
  busy : Busy s
  complete : Complete nothing s
  disposed : Disposed s
  live : s.terminated = false

/-- Who has arrived and has no answer is in one place. -/
structure NothingLost (s : Service) : Prop where
  /-- Before it begins, a request waits for `begin()` or for an earlier one of its key. -/
  waits : ∀ x < s.next, x ∉ s.begun → .begin x ∈ s.calls ∨ ∃ y, (y,x) ∈ s.connections ∧ y < x ∧
    y ∉ s.ended ∧ (s.handlers y).key = (s.handlers x).key
  /-- From its beginning to its answer it is in one place that carries it on. -/
  works : ∀ x < s.next, x ∈ s.begun → x ∉ s.ended → ∃ p, At s x p ∧ ∀ q, At s x q → q = p
  answered : ∀ x < s.next, x ∈ s.ended → s.answered.count x = 1 ∧ ∀ p, ¬ At s x p
  /-- A queue only forms behind downloads that are in progress. -/
  queues : ∀ l, (s.limiters l).pending ≠ [] → ∃ x ∈ s.holders, (s.handlers x).limiter = l
  live : s.terminated = false

theorem emitFinished_terminated (s : Service) (h : ℕ) :
    (s.emitFinished h).terminated = s.terminated := rfl

/-- The only ways to end the service are an exception that nobody catches and `abort()`. -/
theorem Transition.live (ht : Transition cfg s e t) (hn : NeverAborts s)
    (hquiet : ThrowsNothing s e) : t.terminated = s.terminated := by
  cases ht with
  | arrived hidle hmedia =>
    rcases queueRequest_cases _ _ with ⟨-,hq⟩ | ⟨last,-,hq⟩ <;> rw [hq] <;> rfl
  | cleared hr hc => cases hr <;> rfl
  | denied hr hc =>
    unfold sendError
    rw [emitFinished_terminated]
    cases hr <;> rfl
  | pushed hcalls =>
    unfold Service.pushBack
    dsimp only
    split
    · split <;> rfl
    · rfl
  | caught hcalls hcatch => simp only [ThrowsNothing,hcalls] at hquiet
  | uncaught hcalls hcatch => simp only [ThrowsNothing,hcalls] at hquiet
  | @aborted e h w hw ha => exact absurd ha (hn h w (hw.imp And.right And.right))
  | checkAnswered | createAnswered => rw [emitFinished_terminated]; rfl
  | _ => rfl

/-- Whoever has work is somewhere. -/
theorem at_of_work (hx : 0 < s.work x) : ∃ p, At s x p := by
  unfold work Handler.watched at hx
  rcases Nat.eq_zero_or_pos (s.downloads.count x) with hd | hd
  · rcases Nat.eq_zero_or_pos (s.queued x) with hqueue | hqueue
    · rcases Nat.eq_zero_or_pos (s.credentials.asked (s.handlers x).peer |>.count x) with ha | ha
      · rcases Nat.eq_zero_or_pos ((s.calls.filterMap Call.works).count x) with hcalls | hcalls
        · cases hcheck : (s.handlers x).checkWatcher with
          | running => exact ⟨.checking,hcheck⟩
          | finished result => exact ⟨.checked result,hcheck⟩
          | idle | delivered =>
            cases hcreate : (s.handlers x).createWatcher with
            | running => exact ⟨.creating,hcreate⟩
            | finished result => exact ⟨.created result,hcreate⟩
            | idle | delivered =>
              rw [hcheck,hcreate] at hx
              simp only [Watcher.active] at hx
              omega
        · obtain ⟨c,hc,hcx⟩ := List.mem_filterMap.mp (List.count_pos_iff.mp hcalls)
          cases c with
          | gotCredentials y c =>
            obtain rfl : y = x := Option.some.inj hcx
            exact ⟨.told c,hc⟩
          | job y =>
            obtain rfl : y = x := Option.some.inj hcx
            exact ⟨.starting,hc⟩
          | downloadFinished y =>
            obtain rfl : y = x := Option.some.inj hcx
            exact ⟨.ended,hc⟩
          | startCreate y =>
            obtain rfl : y = x := Option.some.inj hcx
            exact ⟨.returning,hc⟩
          | _ => cases hcx
      · exact ⟨.asking,List.count_pos_iff.mp ha⟩
    · refine ⟨.queued,?_⟩
      unfold queued at hqueue
      rcases Nat.eq_zero_or_pos ((s.limiters .download).pending.count x) with hp | hp
      · exact ⟨.extraction,List.count_pos_iff.mp (by omega)⟩
      · exact ⟨.download,List.count_pos_iff.mp hp⟩
  · exact ⟨.downloading,List.count_pos_iff.mp hd⟩

namespace Whole

theorem step (hs : Whole s) (hsmooth : RunsSmoothly cfg s e)
    (ht : (machine cfg).step s e = some t) : Whole t := by
  have hl := hs.sound.lifecycle
  have htr := hs.sound.transition_of_step ht
  have hm := (htr.milestone hl hs.sound.stacked).1
  have hshifts := htr.shifts hl hsmooth.2
  exact {
    sound := hs.sound.step ht
    chained := hs.chained.milestone hl hm hsmooth.1
    slots := hs.slots.step hl htr hsmooth.2
    downloads := hs.downloads.step hl htr
    queries := hs.queries.step htr hsmooth.2
    tickets := hs.tickets.step htr hsmooth.2
    ordered := hs.ordered.step hs.chained hm
    busy := hs.busy.step hshifts
    complete := hs.complete.step hs.sound hs.chained hs.queries hs.tickets htr hsmooth.2
    disposed := hs.disposed.step hl hm
    live := (htr.live hs.downloads.neverAborts hsmooth.2).trans hs.live }

theorem new (apparmorEnabled : Bool) (maxDownloads maxExtractions : ℤ)
    (hd : 0 < maxDownloads) (he : 0 < maxExtractions) (thumbnailer : Thumbnailer) :
    Whole (new apparmorEnabled maxDownloads maxExtractions hd he thumbnailer) where
  sound := .new ..
  chained := .new ..
  slots := .new ..
  downloads := .new ..
  queries := .new ..
  tickets := .new ..
  ordered := nofun
  busy l := by cases l <;> exact fun hne => absurd rfl hne
  complete := ⟨nofun,fun _ => Nat.zero_le _⟩
  disposed := nofun
  live := rfl

/-- Before it begins, a request waits on the stack or for one that came before. -/
theorem waiting_cases (hs : Whole s) (hx : x < s.next) (hb : x ∉ s.begun) :
    .begin x ∈ s.calls ∨ ∃ y, (y,x) ∈ s.connections ∧ y < x ∧ y ∉ s.ended ∧
      (s.handlers y).key = (s.handlers x).key := by
  have hw := hs.complete.waits x hx
  rw [List.count_eq_zero.mpr hb] at hw
  unfold waiting at hw
  rcases Nat.eq_zero_or_pos ((s.calls.filterMap Call.begins).count x) with hzero | hpos
  · obtain ⟨c,hc,hcx⟩ := List.countP_pos_iff.mp (show 0 < s.connections.countP
      (fun c => decide (c.2 = x ∧ c.1 ∉ s.ended)) by omega)
    obtain ⟨rfl,hlive⟩ := of_decide_eq_true hcx
    obtain ⟨hlt,-,hkey⟩ := hs.ordered c hc
    exact Or.inr ⟨c.1,hc,hlt,hlive,hkey⟩
  · obtain ⟨c,hc,hcx⟩ := List.mem_filterMap.mp (List.count_pos_iff.mp hpos)
    cases c with
    | begin y =>
      obtain rfl : y = x := Option.some.inj hcx
      exact Or.inl hc
    | _ => cases hcx

/-- After it has begun and before it is answered, a request is somewhere. -/
theorem somewhere (hs : Whole s) (hb : x ∈ s.begun) (he : x ∉ s.ended) : ∃ p, At s x p := by
  refine at_of_work ?_
  have hk := hs.complete.works x
  have hpos := List.count_pos_iff.mpr hb
  rw [List.count_eq_zero.mpr he,nothing] at hk
  omega

theorem nothingLost (hs : Whole s) : NothingLost s where
  waits x hx hb := hs.waiting_cases hx hb
  works x hx hb he := by
    obtain ⟨p,hat⟩ := hs.somewhere hb he
    exact ⟨p,hat,fun q hq => hq.unique hat hs.sound.lifecycle⟩
  answered x hx he := by
    have hl := hs.sound.lifecycle
    have hpos := List.count_pos_iff.mpr he
    have hone := hl.ended_le x
    rw [hl.answers]
    refine ⟨by omega,fun p hat => ?_⟩
    have hzero := (hat.unfinished hl).2.1
    omega
  queues l hl := by
    have hpos := hs.busy l hl
    rw [hs.slots.running] at hpos
    obtain ⟨x,hx,hlim⟩ := List.countP_pos_iff.mp (show 0 < s.inProgress l by omega)
    exact ⟨x,hx,of_decide_eq_true hlim⟩
  live := hs.live

end Whole
end

/-- In a run in which nothing throws and no `begin()` answers inside of `queueRequest()`, no
request is lost: until it is answered it waits for an earlier one of its key, or is in exactly
one place that carries it on, and jobs only wait behind downloads in progress. -/
theorem requestsConserved (cfg : Config) (apparmorEnabled : Bool) (maxDownloads maxExtractions : ℤ)
    (hd : 0 < maxDownloads) (he : 0 < maxExtractions) (thumbnailer : Thumbnailer)
    (es : List Event) (hsmooth : (machine cfg).AllSteps (RunsSmoothly cfg)
      (new apparmorEnabled maxDownloads maxExtractions hd he thumbnailer) es) :
    (machine cfg).Always NothingLost
      (new apparmorEnabled maxDownloads maxExtractions hd he thumbnailer) es :=
  have hstep : ∀ s e t, Whole s → RunsSmoothly cfg s e → (machine cfg).step s e = some t →
      Whole t := fun _ _ _ hs hg ht => hs.step hg ht
  EventSystem.Machine.always_of_guarded hstep (fun _ hs => hs.nothingLost)
    (.new apparmorEnabled maxDownloads maxExtractions hd he thumbnailer) hsmooth

/-- Two requests for one key, the second of which waits for the first; both are answered
without artwork, and their handlers are deleted. -/
def served : List Event :=
  [cover ":1.1",go,go,cover ":1.2",go] ++ [.credentialsReply ":1.1" (.map 0 []),go,go,
    .check 0 .idle,.checkFinished 0,go,go,.downloadComplete 0 (.artReply ⟨.notFound,none⟩),go,go,
    .create 0 .idle,.createFinished 0,go,.delete 0,.credentialsReply ":1.2" (.map 0 []),go,go,
    .check 1 .idle,.checkFinished 1,.delete 1]

theorem served_smooth : (machine superuser).AllSteps (RunsSmoothly superuser) started served := by
  decide +kernel

theorem requestsConserved_served :
    (∃ t, (machine superuser).run started (served.take 5) = some t ∧ t.connections = [(0,1)] ∧
      t.requests = {0,1}) ∧
      (∃ u, (machine superuser).run started served = some u ∧ u.ended = [1,0] ∧ u.requests = ∅) ∧
      (machine superuser).Always NothingLost started served := by
  refine ⟨?_,?_,
    requestsConserved superuser true 2 2 (by decide) (by decide) .fresh served served_smooth⟩
  · exact ⟨_,eq_some_getD (d:=started) (by decide +kernel),by decide +kernel,by decide +kernel⟩
  · exact ⟨_,eq_some_getD (d:=started) (by decide +kernel),by decide +kernel,by decide +kernel⟩

end Service
end UnityThumbnailer
