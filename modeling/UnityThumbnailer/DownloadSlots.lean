import UnityThumbnailer.Records
import UnityThumbnailer.RequestChains

/-! The slots of the limiters. A job takes its slot before it calls `download()`, and
`downloadFinished()` gives it back; a `download()` that throws leaves no one to do that. -/
namespace UnityThumbnailer

namespace RateLimiter

variable {Job : Type*}

theorem schedule_running (l : RateLimiter Job) (job : Job) :
    (l.schedule job).1.running = l.running+(l.schedule job).2.2.toList.length := by
  by_cases h : l.running < l.concurrency
  · rw [schedule_below h]
    rfl
  · rw [schedule_full h]
    exact (add_zero _).symm

theorem done_running_next (l : RateLimiter Job) :
    l.done.1.running+1 = l.running+l.done.2.toList.length := by
  rw [done_running,done_next]
  cases l.pending <;> simp

end RateLimiter

namespace Service

/-- The calls around a download that hold its slot. -/
def Call.holds : Call → Option ℕ
  | .job h | .downloadFinished h => some h
  | _ => none

/-- The handlers whose download is in progress, be it that the call of `download()` is about
to be made or that `downloadFinished()` is about to run. -/
def holders (s : Service) : List ℕ := s.downloads ++ s.calls.filterMap Call.holds

def inProgress (s : Service) (l : LimiterId) : ℕ :=
  s.holders.countP fun x => (s.handlers x).limiter = l

def Effect.errors : Effect → Option ℕ
  | .sentError h _ => some h
  | _ => none

def failed (s : Service) : List ℕ := s.log.filterMap Effect.errors

/-- The rest of `downloadFinished()` is still to run, or has started the create stage. -/
def Continued (s : Service) (x : ℕ) : Prop :=
  .startCreate x ∈ s.calls ∨ (s.handlers x).createWatcher ≠ .idle

/-- Slots are taken by the downloads in progress; a request whose download threw has got its
error reply and is finished; one that has given its slot back goes on. -/
structure SlotsMatch (s : Service) : Prop where
  running : ∀ l, (s.limiters l).running = s.inProgress l
  answered : ∀ x what, .threwDownload x what ∈ s.log → s.failed.count x = 1 ∧ s.ended.count x = 1
  unaffected : ∀ x, .released x ∈ s.log → s.Continued x

/-- No call of `download()` throws. -/
def ThrowsNothing (s : Service) (e : Event) : Prop :=
  match e,s.calls with
  | .call (.threw _),.job _ :: _ => False
  | _,_ => True

/-- What runs without exceptions preserve. -/
structure Slots (s : Service) : Prop where
  running : ∀ l, (s.limiters l).running = s.inProgress l
  queue : ∀ l, ∀ x ∈ (s.limiters l).pending, (s.handlers x).limiter = l
  threw : ∀ x what, .threwDownload x what ∉ s.log
  unaffected : ∀ x, .released x ∈ s.log → x < s.next ∧ s.Continued x

theorem Slots.slotsMatch {s : Service} (hs : Slots s) : SlotsMatch s :=
  ⟨hs.running,fun x what hm => absurd hm (hs.threw x what),fun x hm => (hs.unaffected x hm).2⟩

section

variable {cfg : Config} {e : Event} {s t : Service} {h x : ℕ} {l : LimiterId}

theorem holders_at (hx : x ∈ s.holders) : ∃ p, At s x p := by
  rcases List.mem_append.mp hx with hx | hx
  · exact ⟨.downloading,hx⟩
  · obtain ⟨c,hc,hcx⟩ := List.mem_filterMap.mp hx
    cases c with
    | job y =>
      obtain rfl : y = x := Option.some.inj hcx
      exact ⟨.starting,hc⟩
    | downloadFinished y =>
      obtain rfl : y = x := Option.some.inj hcx
      exact ⟨.ended,hc⟩
    | _ => cases hcx

/-- Who is counted where does not change in a step. -/
theorem inProgress_eq (ht : Transition cfg s e t) (hl : Lifecycle nothing s) (l : LimiterId) :
    s.inProgress l = s.holders.countP fun x => (t.handlers x).limiter = l := by
  refine List.countP_congr fun x hx => ?_
  obtain ⟨p,hat⟩ := holders_at hx
  rw [(ht.rewritten (hat.unfinished hl).2.2).limiter]

theorem holders_push (calls : List Call) :
    (s.push calls).holders.Perm (calls.filterMap Call.holds ++ s.holders) := by
  change (s.downloads ++ (calls ++ s.calls).filterMap Call.holds).Perm _
  rw [List.filterMap_append]
  exact List.perm_append_comm_assoc ..

theorem holders_pop {c : Call} {rest : List Call} (hcalls : s.calls = c::rest) :
    s.holders.Perm ((c.holds.toList) ++ (s.setCalls rest).holders) := by
  unfold holders
  rw [hcalls]
  cases hc : c.holds with
  | none =>
    rw [List.filterMap_cons_none hc]
    exact .refl _
  | some y =>
    rw [List.filterMap_cons_some hc]
    exact List.perm_middle

/-- A step leaves the limiters and the holders of their slots alone, starts or queues a job,
or hands a slot on. -/
inductive Shifts (s t : Service) : Prop
  | same (hrunning : ∀ l, (t.limiters l).running = (s.limiters l).running)
    (hpending : ∀ l, (t.limiters l).pending ⊆ (s.limiters l).pending)
    (hholders : t.holders.Perm s.holders) : Shifts s t
  | scheduled {h : ℕ} (hat : ∃ p, At s h p)
    (hlimiters : t.limiters = Function.update s.limiters (s.handlers h).limiter
      ((s.limiters (s.handlers h).limiter).schedule h).1)
    (hholders : t.holders.Perm
      (((s.limiters (s.handlers h).limiter).schedule h).2.2.toList ++ s.holders)) : Shifts s t
  | released {h : ℕ} {rest : List ℕ} (hat : ∃ p, At s h p)
    (hlimiters : t.limiters = Function.update s.limiters (s.handlers h).limiter
      (s.limiters (s.handlers h).limiter).done.1)
    (hbefore : s.holders.Perm (h::rest))
    (hholders : t.holders.Perm
      ((s.limiters (s.handlers h).limiter).done.2.toList ++ rest)) : Shifts s t

theorem Shifts.of_eq (hlimiters : t.limiters = s.limiters) (hdownloads : t.downloads = s.downloads)
    (hcalls : t.calls.filterMap Call.holds = s.calls.filterMap Call.holds) : Shifts s t := by
  refine .same (fun l => by rw [hlimiters]) (fun l => by rw [hlimiters]; exact List.Subset.refl _) ?_
  unfold holders
  rw [hdownloads,hcalls]

/-- An answer lets other handlers begin, which takes no slots. -/
theorem Shifts.answer (hlimiters : t.limiters = s.limiters) (hdownloads : t.downloads = s.downloads)
    (hcalls : t.calls.filterMap Call.holds = s.calls.filterMap Call.holds) {a : Effect} :
    Shifts s ((t.note a).emitFinished h) :=
  .of_eq hlimiters hdownloads ((filterMap_begin (fun _ => rfl) _ _).trans hcalls)

theorem holds_pop {c : Call} {rest : List Call} (hcalls : s.calls = c::rest) (hc : c.holds = none) :
    rest.filterMap Call.holds = s.calls.filterMap Call.holds := by
  rw [hcalls,List.filterMap_cons_none hc]

theorem Received.shifts {u : Service} {c : Credentials} (hr : Received s u h c) :
    u.limiters = s.limiters ∧ u.downloads = s.downloads ∧
      u.calls.filterMap Call.holds = s.calls.filterMap Call.holds := by
  cases hr with
  | replied hcalls => exact ⟨rfl,rfl,holds_pop hcalls rfl⟩
  | known hcalls => exact ⟨rfl,rfl,holds_pop hcalls rfl⟩

theorem holds_jobs (next : Option ℕ) {c : Call} (hc : c.holds = none) :
    (next.toList.map Call.job ++ [c]).filterMap Call.holds = next.toList := by
  rw [List.filterMap_append,List.filterMap_cons_none hc]
  cases next <;> rfl

/-- The downloads of a handler that is deleted are over. -/
theorem delete_downloads (hl : Lifecycle nothing s) (hd : h ∈ s.deletions) :
    (s.delete h).downloads = s.downloads := by
  refine List.filter_eq_self.mpr fun x hx => ?_
  have hat : At s x .downloading := hx
  have hended := (hat.unfinished hl).2.1
  have hpos := hl.deletions h hd
  have hne : x ≠ h := by
    rintro rfl
    omega
  simpa using hne

theorem pushBack_limiters (s : Service) (h ref : ℕ) :
    (s.pushBack h ref).limiters = s.limiters ∧ (s.pushBack h ref).downloads = s.downloads := by
  unfold Service.pushBack
  dsimp only
  split
  · split <;> exact ⟨rfl,rfl⟩
  · exact ⟨rfl,rfl⟩

theorem withdraw_running (y : Handler) (r : RateLimiter ℕ) :
    (y.withdraw r).running = r.running ∧ (y.withdraw r).pending ⊆ r.pending := by
  unfold Handler.withdraw
  split
  · exact ⟨r.cancel_running _,(r.cancel_pending_sublist _).subset⟩
  · exact ⟨rfl,List.Subset.refl _⟩

theorem Transition.shifts (ht : Transition cfg s e t) (hl : Lifecycle nothing s)
    (hquiet : ThrowsNothing s e) : Shifts s t := by
  cases ht with
  | refused hidle => exact .of_eq rfl rfl rfl
  | @arrived peer m size media hidle hmedia =>
    rcases queueRequest_cases ((s.register (.new peer m.limiter media size (m.details size))).note
      (.arrived s.next peer media)) s.next with ⟨-,hq⟩ | ⟨last,-,hq⟩ <;> rw [hq] <;>
      exact .of_eq rfl rfl rfl
  | @reported peer reply callbacks hidle hpending =>
    have hnone : ∀ (xs : List ℕ) (c : Credentials),
        (xs.map (Call.gotCredentials · c)).filterMap Call.holds = [] := fun xs c => by
      rw [List.filterMap_map]
      exact List.filterMap_eq_nil_iff.mpr fun _ _ => rfl
    refine .of_eq rfl rfl ?_
    change (_ ++ [Call.erasePending peer] ++ s.calls).filterMap Call.holds = _
    rw [List.filterMap_append,List.filterMap_append,hnone]
    rfl
  | asked hcalls hmissing => exact .of_eq rfl rfl (holds_pop hcalls rfl)
  | cleared hr hc =>
    obtain ⟨hlimiters,hdownloads,hcalls⟩ := hr.shifts
    exact .of_eq hlimiters hdownloads hcalls
  | denied hr hc =>
    obtain ⟨hlimiters,hdownloads,hcalls⟩ := hr.shifts
    exact .answer hlimiters hdownloads hcalls
  | @pushed o h ref rest hcalls =>
    obtain ⟨hlimiters,hdownloads⟩ := pushBack_limiters (s.setCalls rest) h ref
    refine .of_eq hlimiters hdownloads ?_
    rw [pushBack_calls]
    exact holds_pop hcalls rfl
  | erased hcalls => exact .of_eq rfl rfl (holds_pop hcalls rfl)
  | returned hcalls => exact .of_eq rfl rfl (holds_pop hcalls rfl)
  | creating hcalls => exact .of_eq rfl rfl (holds_pop hcalls rfl)
  | @started h rest hcalls =>
    refine .same (fun _ => rfl) (fun _ => List.Subset.refl _) ?_
    unfold holders
    rw [hcalls]
    exact List.perm_middle.symm
  | @failed h what rest filename st hcalls hmedia =>
    refine .of_eq rfl rfl ?_
    rw [hcalls]
    rfl
  | caught hcalls hcatch =>
    simp only [ThrowsNothing,hcalls] at hquiet
  | uncaught hcalls hcatch =>
    simp only [ThrowsNothing,hcalls] at hquiet
  | @released o h rest hcalls =>
    have hat : At s h .ended := at_calls hcalls
    refine @Shifts.released _ _ h (s.setCalls rest).holders ⟨_,hat⟩ rfl (holders_pop hcalls) ?_
    refine (holders_push (s:=((s.setCalls rest).setLimiter _ _).note _) _).trans ?_
    rw [holds_jobs _ rfl]
    exact .refl _
  | checkAnswered hidle hw he => exact @Shifts.answer s (s.modify _ _) _ rfl rfl rfl _
  | createAnswered hidle hw he => exact @Shifts.answer s (s.modify _ _) _ rfl rfl rfl _
  | @scheduled h hidle hw hs =>
    have hat : At s h (.checked ⟨none,none⟩) := hw
    have hself : ((s.modify h (·.setCheckWatcher .delivered)).handlers h).limiter =
        (s.handlers h).limiter := by
      rw [show (s.modify h (·.setCheckWatcher .delivered)).handlers h =
        (s.handlers h).setCheckWatcher .delivered from Function.update_self ..]
      rfl
    refine .scheduled ⟨_,hat⟩ ?_ ?_
    · unfold Service.schedule
      dsimp only
      rw [hself]
      rfl
    · unfold Service.schedule
      dsimp only
      rw [hself]
      refine (holders_push (s:=(s.modify h (·.setCheckWatcher .delivered)).setLimiter _ _) _).trans ?_
      rw [holds_jobs _ rfl]
      exact .refl _
  | @completed h download hidle hd hfits =>
    refine .same (fun _ => rfl) (fun _ => List.Subset.refl _) ?_
    change (s.downloads.erase h ++ h :: s.calls.filterMap Call.holds).Perm _
    refine List.perm_middle.trans ?_
    exact (List.perm_cons_erase hd).symm.append_right _
  | @deleted h hidle hd =>
    have hself := withdraw_running (s.handlers h) (s.limiters (s.handlers h).limiter)
    refine .same (fun l => ?_) (fun l => ?_) ?_
    · change (Function.update s.limiters _ _ l).running = _
      by_cases hl' : l = (s.handlers h).limiter
      · subst hl'
        rw [Function.update_self]
        exact hself.1
      · rw [Function.update_of_ne hl']
    · change (Function.update s.limiters _ _ l).pending ⊆ _
      by_cases hl' : l = (s.handlers h).limiter
      · subst hl'
        rw [Function.update_self]
        exact hself.2
      · rw [Function.update_of_ne hl']
        exact List.Subset.refl _
    · unfold holders
      rw [delete_downloads hl hd]
      exact .refl _
  | checked | created | aborted | evicted => exact .of_eq rfl rfl rfl

theorem countP_limiter {f : ℕ → LimiterId} {m : LimiterId} {xs : List ℕ} (h : ∀ x ∈ xs, f x = m)
    (l : LimiterId) : (xs.countP fun x => f x = l) = if m = l then xs.length else 0 := by
  split
  · rename_i hml
    exact List.countP_eq_length.mpr fun x hx => by simp [h x hx,hml]
  · rename_i hml
    exact List.countP_eq_zero.mpr fun x hx => by simp [h x hx,hml]

/-- The limiter counts what its handlers hold, whichever way a step shifts the slots. -/
theorem Slots.running_step (hs : Slots s) (ht : Transition cfg s e t) (hl : Lifecycle nothing s)
    (hshifts : Shifts s t) (l : LimiterId) : (t.limiters l).running = t.inProgress l := by
  have hrunning := hs.running l
  rw [inProgress_eq ht hl l] at hrunning
  have hlimiter : ∀ {x p}, At s x p → (t.handlers x).limiter = (s.handlers x).limiter :=
    fun hat => (ht.rewritten (hat.unfinished hl).2.2).limiter
  unfold inProgress
  cases hshifts with
  | same hsame hpending hholders =>
    rw [hsame l,hholders.countP_eq]
    exact hrunning
  | @scheduled h hat hlimiters hholders =>
    obtain ⟨p,hat⟩ := hat
    have hjobs : ∀ x ∈ ((s.limiters (s.handlers h).limiter).schedule h).2.2.toList,
        (t.handlers x).limiter = (s.handlers h).limiter := by
      intro x hx
      rcases (s.limiters (s.handlers h).limiter).schedule_next h with hnext | hnext
      · rw [hnext] at hx
        cases hx
      · rw [hnext] at hx
        rw [List.mem_singleton.mp hx]
        exact hlimiter hat
    rw [hlimiters,hholders.countP_eq,List.countP_append,countP_limiter hjobs]
    by_cases hml : (s.handlers h).limiter = l
    · subst hml
      rw [Function.update_self,RateLimiter.schedule_running,hrunning,if_pos rfl]
      omega
    · rw [Function.update_of_ne (Ne.symm hml),hrunning,if_neg hml,Nat.zero_add]
  | @released h rest hat hlimiters hbefore hholders =>
    obtain ⟨p,hat⟩ := hat
    have hjobs : ∀ x ∈ (s.limiters (s.handlers h).limiter).done.2.toList,
        (t.handlers x).limiter = (s.handlers h).limiter := by
      intro x hx
      have hqueued : x ∈ (s.limiters (s.handlers h).limiter).pending := by
        rw [← RateLimiter.done_jobs]
        exact List.mem_append_left _ hx
      have hat' : At s x .queued := ⟨_,hqueued⟩
      exact (hlimiter hat').trans (hs.queue _ x hqueued)
    rw [hbefore.countP_eq,List.countP_cons] at hrunning
    rw [hlimiters,hholders.countP_eq,List.countP_append,countP_limiter hjobs]
    have hdone := (s.limiters (s.handlers h).limiter).done_running_next
    by_cases hml : (s.handlers h).limiter = l
    · subst hml
      rw [hlimiter hat] at hrunning
      simp only [decide_true,if_true] at hrunning
      rw [Function.update_self,if_pos rfl]
      omega
    · rw [hlimiter hat] at hrunning
      simp only [hml,decide_false,Bool.false_eq_true,if_false] at hrunning
      rw [Function.update_of_ne (Ne.symm hml),if_neg hml,hrunning,Nat.zero_add]
      rfl

theorem Slots.queue_step (hs : Slots s) (ht : Transition cfg s e t) (hl : Lifecycle nothing s)
    (hshifts : Shifts s t) (l : LimiterId) : ∀ x ∈ (t.limiters l).pending,
      (t.handlers x).limiter = l := by
  have hlimiter : ∀ {x p}, At s x p → (t.handlers x).limiter = (s.handlers x).limiter :=
    fun hat => (ht.rewritten (hat.unfinished hl).2.2).limiter
  have hkept : ∀ x ∈ (s.limiters l).pending, (t.handlers x).limiter = l := by
    intro x hx
    have hat : At s x .queued := ⟨l,hx⟩
    exact (hlimiter hat).trans (hs.queue l x hx)
  intro x hx
  cases hshifts with
  | same hsame hpending hholders => exact hkept x (hpending l hx)
  | @scheduled h hat hlimiters hholders =>
    obtain ⟨p,hat⟩ := hat
    rw [hlimiters] at hx
    by_cases hml : (s.handlers h).limiter = l
    · subst hml
      rw [Function.update_self] at hx
      have hjobs := (s.limiters (s.handlers h).limiter).schedule_jobs h
      have hmem := List.mem_append_right
        ((s.limiters (s.handlers h).limiter).schedule h).2.2.toList hx
      rw [hjobs] at hmem
      rcases List.mem_cons.mp hmem with rfl | hmem
      · exact hlimiter hat
      · exact hkept x hmem
    · rw [Function.update_of_ne (Ne.symm hml)] at hx
      exact hkept x hx
  | @released h rest hat hlimiters hbefore hholders =>
    rw [hlimiters] at hx
    by_cases hml : (s.handlers h).limiter = l
    · subst hml
      rw [Function.update_self,RateLimiter.done_pending] at hx
      exact hkept x (List.mem_of_mem_tail hx)
    · rw [Function.update_of_ne (Ne.symm hml)] at hx
      exact hkept x hx

theorem Continued.same (hc : Continued s x)
    (hcalls : .startCreate x ∈ s.calls → .startCreate x ∈ t.calls)
    (hhandlers : t.handlers x = s.handlers x) : Continued t x :=
  hc.imp hcalls fun h => hhandlers ▸ h

/-- One record changes; `y` is what becomes of it. -/
theorem Continued.update {y : Handler} (hc : Continued s x)
    (hcalls : .startCreate x ∈ s.calls → .startCreate x ∈ t.calls)
    (hhandlers : t.handlers = Function.update s.handlers h y)
    (hy : y.createWatcher = (s.handlers h).createWatcher ∨ y.createWatcher ≠ .idle) :
    Continued t x := by
  by_cases hx : x = h
  · subst hx
    have hself : t.handlers x = y := by rw [hhandlers,Function.update_self]
    refine hc.imp hcalls fun hw => ?_
    rw [hself]
    exact hy.elim (fun h => h ▸ hw) id
  · exact hc.same hcalls (by rw [hhandlers,Function.update_of_ne hx])

/-- Calls are pushed above the ones that wait. -/
theorem mem_popped {c d : Call} {rest : List Call} (calls : List Call) (hcalls : s.calls = c::rest)
    (hd : d ∈ s.calls) (hne : d ≠ c) : d ∈ calls ++ rest := by
  rw [hcalls] at hd
  exact List.mem_append_right _ ((List.mem_cons.mp hd).resolve_left hne)

theorem Received.startCreate {u : Service} {c : Credentials} (hr : Received s u h c)
    (hx : .startCreate x ∈ s.calls) : .startCreate x ∈ u.calls := by
  cases hr with
  | replied hcalls => exact mem_popped [] hcalls hx nofun
  | known hcalls => exact mem_popped [] hcalls hx nofun

/-- Nothing keeps a handler from its create stage once it has given its slot back. -/
theorem Continued.step (hc : Continued s x) (hx : x < s.next) (ht : Transition cfg s e t)
    (hquiet : ThrowsNothing s e) : Continued t x := by
  have hidle' : ∀ {u : Service}, s.calls = [] → .startCreate x ∈ s.calls →
      .startCreate x ∈ u.calls := fun hidle h => by
    rw [hidle] at h
    cases h
  cases ht with
  | refused | evicted => exact hc.same id rfl
  | arrived hidle hmedia =>
    refine hc.same (hidle' hidle) ?_
    rw [queueRequest_handlers]
    exact Function.update_of_ne hx.ne ..
  | reported hidle hpending => exact hc.same (hidle' hidle) rfl
  | asked hcalls hmissing => exact hc.same (fun h => mem_popped (s:=s) [] hcalls h nofun) rfl
  | @cleared o u h c hr hcleared =>
    have hhandlers : (u.modify h (·.setCheckWatcher .running)).handlers =
        Function.update s.handlers h ((s.handlers h).setCheckWatcher .running) := by
      rw [← hr.handlers]
      rfl
    exact hc.update hr.startCreate hhandlers (.inl rfl)
  | denied hr hdenied =>
    refine hc.same (fun h => ?_) (congrFun hr.handlers x)
    exact List.mem_append_right _ (hr.startCreate h)
  | pushed hcalls =>
    refine hc.same (fun h => ?_) (by rw [pushBack_handlers]; rfl)
    rw [pushBack_calls]
    exact mem_popped [] hcalls h nofun
  | erased hcalls => exact hc.same (fun h => mem_popped [] hcalls h nofun) rfl
  | returned hcalls | started hcalls =>
    exact hc.update (fun h => mem_popped [] hcalls h nofun) rfl (.inl rfl)
  | failed hcalls hmedia =>
    exact hc.update (fun h => mem_popped [_] hcalls h nofun) rfl (.inl rfl)
  | caught hcalls hcatch => simp only [ThrowsNothing,hcalls] at hquiet
  | uncaught hcalls hcatch => simp only [ThrowsNothing,hcalls] at hquiet
  | released hcalls => exact hc.same (fun h => mem_popped _ hcalls h nofun) rfl
  | @creating o h rest hcalls =>
    have hrunning : (((s.setCalls rest).modify h (·.setCreateWatcher .running)).handlers h) =
        (s.handlers h).setCreateWatcher .running := Function.update_self ..
    by_cases hxh : x = h
    · subst hxh
      exact .inr (by rw [hrunning]; exact nofun)
    · refine hc.update (fun hd => mem_popped [] hcalls hd ?_) rfl (.inr nofun)
      exact fun heq => hxh (Call.startCreate.inj heq)
  | checkAnswered hidle hw he => exact hc.update (hidle' hidle) rfl (.inl rfl)
  | createAnswered hidle hw he => exact hc.update (hidle' hidle) rfl (.inr nofun)
  | scheduled hidle hw hs => exact hc.update (hidle' hidle) rfl (.inl rfl)
  | completed hidle hd hfits => exact hc.update (hidle' hidle) rfl (.inl rfl)
  | deleted hidle hd => exact hc.update (hidle' hidle) rfl (.inl rfl)
  | checked hw hr => exact hc.update id (thumbnail_modify_handlers ..) (.inl rfl)
  | created hw hr => exact hc.update id (thumbnail_modify_handlers ..) (.inr nofun)
  | aborted hw ha => exact hc.update id rfl (.inl rfl)

theorem Slots.step (hs : Slots s) (hl : Lifecycle nothing s) (ht : Transition cfg s e t)
    (hquiet : ThrowsNothing s e) : Slots t := by
  have hshifts := ht.shifts hl hquiet
  have hnext : s.next ≤ t.next := by rcases ht.next with h | ⟨h,-⟩ <;> omega
  obtain ⟨es,hlog,hdue⟩ := ht.log
  refine ⟨hs.running_step ht hl hshifts,hs.queue_step ht hl hshifts,fun x what hm => ?_,
    fun x hm => ?_⟩
  · rw [hlog] at hm
    rcases List.mem_append.mp hm with hm | hm
    · obtain ⟨rest,hcalls,rfl⟩ := hdue _ hm
      simp only [ThrowsNothing,hcalls] at hquiet
    · exact hs.threw x what hm
  · rw [hlog] at hm
    rcases List.mem_append.mp hm with hm | hm
    · obtain ⟨hat,hcall⟩ := hdue _ hm
      exact ⟨(hat.unfinished hl).2.2.trans_le hnext,.inl hcall⟩
    · obtain ⟨hx,hc⟩ := hs.unaffected x hm
      exact ⟨hx.trans_le hnext,hc.step hx ht hquiet⟩

/-- The slot of a job that is thrown out of the stack is counted for ever. -/
theorem Slots.lost {y : ℕ} {rest below : List Call} (hs : Slots s) (hcalls : s.calls = .job y :: rest)
    (hbelow : below <:+ rest) (hlimiters : t.limiters = s.limiters)
    (hhandlers : t.handlers = s.handlers) (hdownloads : t.downloads = s.downloads)
    (hholds : t.calls.filterMap Call.holds = below.filterMap Call.holds) : ¬ SlotsMatch t := by
  intro hmatch
  have hafter := hmatch.running (s.handlers y).limiter
  rw [hlimiters,hs.running] at hafter
  unfold inProgress holders at hafter
  rw [hhandlers,hdownloads,hholds,hcalls,
    List.filterMap_cons_some (show (Call.job y).holds = some y from rfl),List.countP_append,
    List.countP_append,List.countP_cons_of_pos (by simp)] at hafter
  have hle := (hbelow.filterMap Call.holds).sublist.countP_le
    (p:=fun x => decide ((s.handlers x).limiter = (s.handlers y).limiter))
  omega

theorem emitFinished_limiters (s : Service) (h : ℕ) :
    (s.emitFinished h).limiters = s.limiters := rfl

theorem emitFinished_handlers (s : Service) (h : ℕ) :
    (s.emitFinished h).handlers = s.handlers := rfl

theorem emitFinished_downloads (s : Service) (h : ℕ) :
    (s.emitFinished h).downloads = s.downloads := rfl

theorem emitFinished_holds (s : Service) (h : ℕ) :
    (s.emitFinished h).calls.filterMap Call.holds = s.calls.filterMap Call.holds :=
  filterMap_begin (fun _ => rfl) _ _

/-- What a `download()` that throws does: the stack is unwound to the next try block, or the
service ends. -/
theorem Transition.thrown {y : ℕ} {what : String} {rest : List Call} (ht : Transition cfg s e t)
    (he : e = .call (.threw what)) (hcalls : s.calls = .job y :: rest) :
    t.limiters = s.limiters ∧ t.handlers = s.handlers ∧ t.downloads = s.downloads ∧
      ∃ below, below <:+ rest ∧ t.calls.filterMap Call.holds = below.filterMap Call.holds := by
  have hother : ∀ {c : Call} {below : List Call}, s.calls = c::below → c = .job y :=
    fun h => (List.cons.inj (h.symm.trans hcalls)).1
  cases ht with
  | caught hcalls' hcatch =>
    obtain ⟨-,rfl⟩ := List.cons.inj (hcalls'.symm.trans hcalls)
    unfold sendError
    rw [emitFinished_limiters,emitFinished_handlers,emitFinished_downloads,emitFinished_holds]
    dsimp only [Service.note,Service.setCalls]
    exact ⟨rfl,rfl,rfl,_,Stacked.catcher_suffix hcatch,rfl⟩
  | uncaught hcalls' hcatch =>
    obtain ⟨-,rfl⟩ := List.cons.inj (hcalls'.symm.trans hcalls)
    exact ⟨rfl,rfl,rfl,_,List.suffix_refl _,rfl⟩
  | cleared hr hc => cases hr with
    | replied h => cases hother h
    | known h => cases hother h
  | denied hr hc => cases hr with
    | replied h => cases hother h
    | known h => cases hother h
  | asked h | pushed h | erased h | returned h | released h | creating h => cases hother h
  | aborted hw ha => rcases hw with ⟨rfl,-⟩ | ⟨rfl,-⟩ <;> cases he
  | _ => cases he

theorem Slots.thrown (hs : Slots s) (ht : Transition cfg s e t) (hthrows : ¬ ThrowsNothing s e) :
    ¬ SlotsMatch t := by
  unfold ThrowsNothing at hthrows
  split at hthrows
  · rename_i hcalls
    obtain ⟨hlimiters,hhandlers,hdownloads,below,hbelow,hholds⟩ := ht.thrown rfl hcalls
    exact hs.lost hcalls hbelow hlimiters hhandlers hdownloads hholds
  · exact absurd trivial hthrows

theorem slots_step (hs : Sound s ∧ Slots s) (hquiet : ThrowsNothing s e)
    (ht : (machine cfg).step s e = some t) : Sound t ∧ Slots t :=
  ⟨hs.1.step ht,hs.2.step hs.1.lifecycle (hs.1.transition_of_step ht) hquiet⟩

end

theorem Slots.new (apparmorEnabled : Bool) (maxDownloads maxExtractions : ℤ)
    (hd : 0 < maxDownloads) (he : 0 < maxExtractions) (thumbnailer : Thumbnailer) :
    Slots (new apparmorEnabled maxDownloads maxExtractions hd he thumbnailer) where
  running l := by cases l <;> rfl
  queue l x hx := by cases l <;> cases hx
  threw x what hm := by cases hm
  unaffected x hm := by cases hm

/-- The limiters count the downloads in progress, and who has given its slot back goes on,
exactly in the runs in which no call of `download()` throws: such a call never gives its slot
back. -/
theorem slotsMatch_iff (cfg : Config) (apparmorEnabled : Bool) (maxDownloads maxExtractions : ℤ)
    (hd : 0 < maxDownloads) (he : 0 < maxExtractions) (thumbnailer : Thumbnailer)
    (es : List Event) (u : Service)
    (hrun : (machine cfg).run (new apparmorEnabled maxDownloads maxExtractions hd he thumbnailer)
      es = some u) :
    (machine cfg).Always SlotsMatch
        (new apparmorEnabled maxDownloads maxExtractions hd he thumbnailer) es ↔
      (machine cfg).AllSteps ThrowsNothing
        (new apparmorEnabled maxDownloads maxExtractions hd he thumbnailer) es := by
  have hstep : ∀ s e t, Sound s ∧ Slots s → ThrowsNothing s e →
      (machine cfg).step s e = some t → Sound t ∧ Slots t := fun _ _ _ => slots_step
  refine EventSystem.Machine.always_iff_allSteps hstep (fun _ hs => hs.2.slotsMatch) ?_
    ⟨.new apparmorEnabled maxDownloads maxExtractions hd he thumbnailer,
      .new apparmorEnabled maxDownloads maxExtractions hd he thumbnailer⟩ hrun
  exact fun s e t hs hthrows ht => hs.2.thrown (hs.1.transition_of_step ht) hthrows

/-- A request that needs a download has been looked up. -/
def lookedUp : List Event :=
  [cover ":1.1",go,go,.credentialsReply ":1.1" (.map 0 []),go,go,.check 0 .idle,
    .checkFinished 0]

theorem slotsMatch_iff_started : ∃ u, (machine superuser).run started (lookedUp ++ [go]) = some u ∧
    ((machine superuser).Always SlotsMatch started (lookedUp ++ [go]) ↔
      (machine superuser).AllSteps ThrowsNothing started (lookedUp ++ [go])) := by
  have hrun : ((machine superuser).run started (lookedUp ++ [go])).isSome = true := by
    decide +kernel
  obtain ⟨u,hu⟩ := Option.isSome_iff_exists.mp hrun
  exact ⟨u,hu,slotsMatch_iff superuser true 2 2 (by decide) (by decide) .fresh _ u hu⟩

/-- The URL is refused: the request gets an error reply, but its slot stays taken. -/
theorem slotsMatch_threw : ¬ ∀ es, (machine superuser).Always SlotsMatch started es := by
  intro h
  have hrun : ((machine superuser).run started
      (lookedUp ++ [.call (.threw "invalid URL")])).isSome = true := by decide +kernel
  obtain ⟨t,ht⟩ := Option.isSome_iff_exists.mp hrun
  have hmatch : SlotsMatch t := EventSystem.Machine.always_prefix [] (h _) ht
  have hcounts : ((machine superuser).run started (lookedUp ++ [.call (.threw "invalid URL")])).map
      (fun t => ((t.limiters .download).running,t.inProgress .download)) = some (1,0) := by
    decide +kernel
  rw [ht] at hcounts
  obtain ⟨hrunning,hprogress⟩ := Prod.mk.inj (Option.some.inj hcounts)
  have hslots := hmatch.running .download
  rw [hrunning,hprogress] at hslots
  cases hslots

end Service
end UnityThumbnailer
