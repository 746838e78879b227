import UnityThumbnailer.Milestone

/-! Where a handler is once it has begun, and how it gets from one place to the next. -/
namespace UnityThumbnailer
namespace Service

inductive Place
  | asking
  | told (credentials : Credentials)
  | checking
  | checked (result : ByteArrayOrError)
  | queued | starting | downloading | ended | returning | creating
  | created (result : ByteArrayOrError)

def At (s : Service) (x : ℕ) : Place → Prop
  | .asking => x ∈ s.credentials.asked (s.handlers x).peer
  | .told credentials => .gotCredentials x credentials ∈ s.calls
  | .checking => (s.handlers x).checkWatcher = .running
  | .checked result => (s.handlers x).checkWatcher = .finished result
  | .queued => ∃ l, x ∈ (s.limiters l).pending
  | .starting => .job x ∈ s.calls
  | .downloading => x ∈ s.downloads
  | .ended => .downloadFinished x ∈ s.calls
  | .returning => .startCreate x ∈ s.calls
  | .creating => (s.handlers x).createWatcher = .running
  | .created result => (s.handlers x).createWatcher = .finished result

/-- The bus has said this about the peer. -/
def Reported (apparmorEnabled : Bool) (past : List Effect) (peer : Peer) (c : Credentials) : Prop :=
  ∃ reply, .reported peer reply ∈ past ∧ reply.Says apparmorEnabled c

/-- How a handler came to a place by a step. -/
inductive Came (cfg : Config) (s : Service) (e : Event) (t : Service) (x : ℕ) : Place → Prop
  | stayed {p : Place} (hat : At s x p) : Came cfg s e t x p
  | asked (hbegin : .begin x ∈ s.calls) : Came cfg s e t x .asking
  | told {c : Credentials} (hat : At s x .asking)
    (hreported : Reported s.credentials.apparmorEnabled t.log (s.handlers x).peer c) :
    Came cfg s e t x (.told c)
  | cleared {u : Service} {c : Credentials} (hr : Received s u x c)
    (hc : Cleared cfg (s.handlers x) c) (he : ∃ o, e = .call o) : Came cfg s e t x .checking
  | checked {w : World} {result : ByteArrayOrError} (he : e = .check x w) (hat : At s x .checking)
    (hr : Handler.checkResult (s.thumbnail x w).1 = some result)
    (ht : t = (s.thumbnail x w).2.modify x (·.setCheckWatcher (.finished result))) :
    Came cfg s e t x (.checked result)
  | scheduled {p : Place} (hat : At s x (.checked ⟨none,none⟩))
    (hs : (s.handlers x).request.status = .needsDownload) (hp : p = .queued ∨ p = .starting) :
    Came cfg s e t x p
  | dequeued (hat : At s x .queued) : Came cfg s e t x .starting
  | started (hat : At s x .starting) : Came cfg s e t x .downloading
  | completed {d : Download} (hat : At s x .starting ∨ At s x .downloading)
    (hd : (t.handlers x).request.download = some d)
    (hc : Completes (s.handlers x).request.media d = true) : Came cfg s e t x .ended
  | released (hat : At s x .ended) : Came cfg s e t x .returning
  | returned (hat : At s x .returning) : Came cfg s e t x .creating
  | created {w : World} {result : ByteArrayOrError} (he : e = .create x w)
    (hat : At s x .creating)
    (hr : ((s.thumbnail x w).2.handlers x).createResult (s.thumbnail x w).1 = some result)
    (ht : t = (s.thumbnail x w).2.modify x (·.setCreateWatcher (.finished result))) :
    Came cfg s e t x (.created result)

/-- The handler is nowhere in the new state where it was not before. -/
structure Keeps (s t : Service) (x : ℕ) : Prop where
  check : (t.handlers x).checkWatcher = (s.handlers x).checkWatcher
  create : (t.handlers x).createWatcher = (s.handlers x).createWatcher
  queue : ∀ l, x ∈ (t.limiters l).pending → ∃ l, x ∈ (s.limiters l).pending
  asked : x ∈ t.credentials.asked (t.handlers x).peer → x ∈ s.credentials.asked (s.handlers x).peer
  calls : ∀ c ∈ t.calls, c.works = some x → c ∈ s.calls
  downloads : x ∈ t.downloads → x ∈ s.downloads

section

variable {cfg : Config} {e : Event} {s t u : Service} {h x : ℕ} {p : Place}

theorem Keeps.at (hk : Keeps s t x) (hat : At t x p) : At s x p := by
  cases p with
  | asking => exact hk.asked hat
  | checking | checked => exact hk.check.symm.trans hat
  | queued =>
    obtain ⟨l,hl⟩ := hat
    exact hk.queue l hl
  | told | starting | ended | returning => exact hk.calls _ hat rfl
  | downloading => exact hk.downloads hat
  | creating | created => exact hk.create.symm.trans hat

theorem Keeps.trans (hk : Keeps s t x) (hk' : Keeps t u x) : Keeps s u x where
  check := hk'.check.trans hk.check
  create := hk'.create.trans hk.create
  queue l hl := by
    obtain ⟨m,hm⟩ := hk'.queue l hl
    exact hk.queue m hm
  asked h := hk.asked (hk'.asked h)
  calls c hc hx := hk.calls c (hk'.calls c hc hx) hx
  downloads hd := hk.downloads (hk'.downloads hd)

/-- Steps that leave all but the stack alone. -/
theorem Keeps.of_calls (hhandlers : t.handlers = s.handlers) (hlimiters : t.limiters = s.limiters)
    (hcredentials : t.credentials = s.credentials) (hdownloads : t.downloads = s.downloads)
    (hcalls : ∀ c ∈ t.calls, c.works = some x → c ∈ s.calls) : Keeps s t x where
  check := by rw [hhandlers]
  create := by rw [hhandlers]
  queue l hl := ⟨l,by rwa [← hlimiters]⟩
  asked h := by rwa [hcredentials,hhandlers] at h
  calls := hcalls
  downloads hd := by rwa [← hdownloads]

theorem Keeps.same (hhandlers : t.handlers = s.handlers) (hlimiters : t.limiters = s.limiters)
    (hcredentials : t.credentials = s.credentials) (hdownloads : t.downloads = s.downloads)
    (hcalls : t.calls = s.calls) : Keeps s t x :=
  .of_calls hhandlers hlimiters hcredentials hdownloads fun c hc _ => by rwa [← hcalls]

theorem Keeps.note {a : Effect} : Keeps s (s.note a) x := .same rfl rfl rfl rfl rfl

theorem Keeps.pop {c : Call} {rest : List Call} (hcalls : s.calls = c::rest) :
    Keeps s (s.setCalls rest) x :=
  .of_calls rfl rfl rfl rfl fun c hc _ => by
    rw [hcalls]
    exact List.mem_cons_of_mem _ hc

/-- The bus knows better, but nobody asks who did not ask before. -/
theorem Keeps.setCredentials {c : CredentialsCache ℕ}
    (hc : ∀ peer, x ∈ c.asked peer → x ∈ s.credentials.asked peer) :
    Keeps s (s.setCredentials c) x :=
  ⟨rfl,rfl,fun l hl => ⟨l,hl⟩,hc _,fun _ hc _ => hc,id⟩

theorem Keeps.modify {f : Handler → Handler} (hpeer : ∀ y, (f y).peer = y.peer)
    (hcheck : ∀ y, (f y).checkWatcher = y.checkWatcher)
    (hcreate : ∀ y, (f y).createWatcher = y.createWatcher) : Keeps s (s.modify h f) x := by
  have hsame : ((s.modify h f).handlers x).peer = (s.handlers x).peer := by
    change (Function.update s.handlers h (f (s.handlers h)) x).peer = _
    by_cases hx : x = h
    · rw [hx,Function.update_self,hpeer]
    · rw [Function.update_of_ne hx]
  refine ⟨?_,?_,fun l hl => ⟨l,hl⟩,fun ha => by rwa [hsame] at ha,fun c hc _ => hc,id⟩
  · change (Function.update s.handlers h (f (s.handlers h)) x).checkWatcher = _
    by_cases hx : x = h
    · rw [hx,Function.update_self,hcheck]
    · rw [Function.update_of_ne hx]
  · change (Function.update s.handlers h (f (s.handlers h)) x).createWatcher = _
    by_cases hx : x = h
    · rw [hx,Function.update_self,hcreate]
    · rw [Function.update_of_ne hx]

theorem Keeps.setDownload {d : Download} : Keeps s (s.modify h (·.setDownload d)) x :=
  .modify (fun _ => rfl) (fun _ => rfl) fun _ => rfl

theorem Keeps.setCancelFunc {f : CancelFunc} : Keeps s (s.modify h (·.setCancelFunc f)) x :=
  .modify (fun _ => rfl) (fun _ => rfl) fun _ => rfl

/-- A change to another record. -/
theorem Keeps.modify_other {f : Handler → Handler} (hx : x ≠ h) : Keeps s (s.modify h f) x := by
  have hsame : (s.modify h f).handlers x = s.handlers x := Function.update_of_ne hx ..
  exact ⟨by rw [hsame],by rw [hsame],fun l hl => ⟨l,hl⟩,fun ha => by rwa [hsame] at ha,
    fun c hc _ => hc,id⟩

theorem Keeps.push {calls : List Call} (hcalls : ∀ c ∈ calls, c.works ≠ some x) :
    Keeps s (s.push calls) x :=
  .of_calls rfl rfl rfl rfl fun c hc hx => by
    rcases List.mem_append.mp hc with hc | hc
    · exact absurd hx (hcalls c hc)
    · exact hc

theorem Keeps.answer {a : Effect} : Keeps s ((s.note a).emitFinished h) x :=
  .of_calls rfl rfl rfl rfl fun c hc hx => by
    rcases List.mem_append.mp hc with hc | hc
    · obtain ⟨y,-,rfl⟩ := List.mem_map.mp hc
      cases hx
    · exact hc

theorem Keeps.received {c : Credentials} (hr : Received s u h c) : Keeps s u x := by
  cases hr with
  | replied hcalls => exact .pop hcalls
  | @known _ _ rest hcalls hknown =>
    have hsome : (s.credentials.cached (s.handlers h).peer).isSome := by rw [hknown]; rfl
    have hnote : Keeps s ((s.setCalls rest).note (.began h)) x := (Keeps.pop hcalls).trans .note
    refine hnote.trans (.setCredentials fun peer ha => ?_)
    rwa [CredentialsCache.get_asked_found h hsome] at ha

theorem Keeps.thumbnail {w : World} : Keeps s (s.thumbnail h w).2 x :=
  have hw := thumbnail_watchers s h w x
  have hpeer : ((s.thumbnail h w).2.handlers x).peer = (s.handlers x).peer :=
    (Quiet.thumbnail s h w).peer x
  ⟨hw.1,hw.2,fun l hl => ⟨l,hl⟩,fun ha => by rwa [hpeer] at ha,fun _ hc _ => hc,id⟩

/-- A change to one watcher puts its handler in the place that the watcher stands for. -/
theorem at_setCheckWatcher {w : Watcher} (hat : At (s.modify h (·.setCheckWatcher w)) x p) :
    At s x p ∨ (x = h ∧ ((p = .checking ∧ w = .running) ∨
      ∃ result, p = .checked result ∧ w = .finished result)) := by
  by_cases hx : x = h
  · subst hx
    have hself : (s.modify x (·.setCheckWatcher w)).handlers x = (s.handlers x).setCheckWatcher w :=
      Function.update_self ..
    cases p with
    | checking =>
      change ((s.modify x (·.setCheckWatcher w)).handlers x).checkWatcher = _ at hat
      rw [hself] at hat
      exact .inr ⟨rfl,.inl ⟨rfl,hat⟩⟩
    | checked result =>
      change ((s.modify x (·.setCheckWatcher w)).handlers x).checkWatcher = _ at hat
      rw [hself] at hat
      exact .inr ⟨rfl,.inr ⟨result,rfl,hat⟩⟩
    | creating | created =>
      change ((s.modify x (·.setCheckWatcher w)).handlers x).createWatcher = _ at hat
      rw [hself] at hat
      exact .inl hat
    | asking =>
      change x ∈ s.credentials.asked ((s.modify x (·.setCheckWatcher w)).handlers x).peer at hat
      rw [hself] at hat
      exact .inl hat
    | told | queued | starting | downloading | ended | returning => exact .inl hat
  · exact .inl ((Keeps.modify_other hx).at hat)

theorem at_setCreateWatcher {w : Watcher} (hat : At (s.modify h (·.setCreateWatcher w)) x p) :
    At s x p ∨ (x = h ∧ ((p = .creating ∧ w = .running) ∨
      ∃ result, p = .created result ∧ w = .finished result)) := by
  by_cases hx : x = h
  · subst hx
    have hself : (s.modify x (·.setCreateWatcher w)).handlers x =
        (s.handlers x).setCreateWatcher w := Function.update_self ..
    cases p with
    | creating =>
      change ((s.modify x (·.setCreateWatcher w)).handlers x).createWatcher = _ at hat
      rw [hself] at hat
      exact .inr ⟨rfl,.inl ⟨rfl,hat⟩⟩
    | created result =>
      change ((s.modify x (·.setCreateWatcher w)).handlers x).createWatcher = _ at hat
      rw [hself] at hat
      exact .inr ⟨rfl,.inr ⟨result,rfl,hat⟩⟩
    | checking | checked =>
      change ((s.modify x (·.setCreateWatcher w)).handlers x).checkWatcher = _ at hat
      rw [hself] at hat
      exact .inl hat
    | asking =>
      change x ∈ s.credentials.asked ((s.modify x (·.setCreateWatcher w)).handlers x).peer at hat
      rw [hself] at hat
      exact .inl hat
    | told | queued | starting | downloading | ended | returning => exact .inl hat
  · exact .inl ((Keeps.modify_other hx).at hat)

/-- Jobs that a limiter hands out were queued there, or are the one it was given. -/
theorem at_setLimiter {l : LimiterId} {r : RateLimiter ℕ} (hat : At (s.setLimiter l r) x p) :
    At s x p ∨ (p = .queued ∧ x ∈ r.pending) := by
  cases p with
  | queued =>
    obtain ⟨m,hm⟩ := hat
    change x ∈ (Function.update s.limiters l r m).pending at hm
    by_cases hml : m = l
    · subst hml
      rw [Function.update_self] at hm
      exact .inr ⟨rfl,hm⟩
    · rw [Function.update_of_ne hml] at hm
      exact .inl ⟨m,hm⟩
  | _ => exact .inl hat

/-- New calls on the stack. -/
theorem at_push {calls : List Call} (hat : At (s.push calls) x p) :
    At s x p ∨ (p = .starting ∧ .job x ∈ calls) ∨ (p = .ended ∧ .downloadFinished x ∈ calls) ∨
      (p = .returning ∧ .startCreate x ∈ calls) ∨
        ∃ c, p = .told c ∧ .gotCredentials x c ∈ calls := by
  cases p with
  | told c =>
    rcases List.mem_append.mp hat with hm | hm
    · exact .inr (.inr (.inr (.inr ⟨c,rfl,hm⟩)))
    · exact .inl hm
  | starting =>
    rcases List.mem_append.mp hat with hm | hm
    · exact .inr (.inl ⟨rfl,hm⟩)
    · exact .inl hm
  | ended =>
    rcases List.mem_append.mp hat with hm | hm
    · exact .inr (.inr (.inl ⟨rfl,hm⟩))
    · exact .inl hm
  | returning =>
    rcases List.mem_append.mp hat with hm | hm
    · exact .inr (.inr (.inr (.inl ⟨rfl,hm⟩)))
    · exact .inl hm
  | _ => exact .inl hat

theorem Keeps.arrived {y : Handler} {peer : Peer} {media : Media} (hx : x ≠ s.next) :
    Keeps s (((s.register y).note (.arrived s.next peer media)).queueRequest s.next) x := by
  have hregister : Keeps s (((s.register y).note (.arrived s.next peer media)).enter s.next) x := by
    have hsame : (Function.update s.handlers s.next y) x = s.handlers x :=
      Function.update_of_ne hx ..
    exact ⟨congrArg Handler.checkWatcher hsame,congrArg Handler.createWatcher hsame,
      fun l hl => ⟨l,hl⟩,fun ha => by
        change x ∈ s.credentials.asked ((Function.update s.handlers s.next y) x).peer at ha
        rwa [hsame] at ha,fun _ hc _ => hc,id⟩
  have hnone : ∀ {ref : ℕ}, ∀ c ∈ [Call.pushBack s.next ref], c.works ≠ some x := by
    intro ref c hc
    obtain rfl := List.mem_singleton.mp hc
    simp [Call.works]
  rcases queueRequest_cases ((s.register y).note (.arrived s.next peer media)) s.next with
    ⟨-,ht⟩ | ⟨last,-,ht⟩ <;> rw [ht]
  · refine hregister.trans (.push fun c hc => ?_)
    rcases List.mem_cons.mp hc with rfl | hc
    · simp [Call.works]
    · exact hnone c hc
  · have hconnect : Keeps s ((((s.register y).note (.arrived s.next peer media)).enter
        s.next).connect last s.next) x := hregister.trans (.same rfl rfl rfl rfl rfl)
    exact hconnect.trans (.push hnone)

/-- A handler that is new is in no place of its own. -/
theorem at_arrived {peer : Peer} {media m : Media} {l : LimiterId} {size : QSize}
    {details : String} (hl : Lifecycle nothing s) (hx : x = s.next) (hat : At (((s.register
      (.new peer l media size details)).note (.arrived s.next peer m)).queueRequest s.next) x p) :
    At s x p := by
  subst hx
  have hself : (Function.update s.handlers s.next (.new peer l media size details)) s.next =
      .new peer l media size details := Function.update_self ..
  have hrest : ∀ t, t = ((s.register (.new peer l media size details)).note
      (.arrived s.next peer m)).queueRequest s.next → t.handlers s.next =
        .new peer l media size details ∧ t.limiters = s.limiters ∧ t.downloads = s.downloads ∧
          t.credentials = s.credentials ∧ ∀ c ∈ t.calls, c.works = some s.next → c ∈ s.calls := by
    rintro t rfl
    rcases queueRequest_cases ((s.register (.new peer l media size details)).note
      (.arrived s.next peer m)) s.next with ⟨-,ht⟩ | ⟨last,-,ht⟩ <;> rw [ht]
    · refine ⟨hself,rfl,rfl,rfl,fun c hc hcc => ?_⟩
      rcases List.mem_cons.mp hc with rfl | hc
      · cases hcc
      · rcases List.mem_cons.mp hc with rfl | hc
        · cases hcc
        · exact hc
    · refine ⟨hself,rfl,rfl,rfl,fun c hc hcc => ?_⟩
      rcases List.mem_cons.mp hc with rfl | hc
      · cases hcc
      · exact hc
  obtain ⟨hh,hlim,hd,hcred,hc⟩ := hrest _ rfl
  cases p with
  | asking =>
    change s.next ∈ CredentialsCache.asked _ _ at hat
    rw [hcred] at hat
    exact absurd (hl.asks _ _ hat).2 (lt_irrefl _)
  | checking | checked =>
    change Handler.checkWatcher _ = _ at hat
    rw [hh] at hat
    cases hat
  | creating | created =>
    change Handler.createWatcher _ = _ at hat
    rw [hh] at hat
    cases hat
  | queued =>
    obtain ⟨l,hm⟩ := hat
    exact ⟨l,by rwa [hlim] at hm⟩
  | told | starting | ended | returning => exact hc _ hat rfl
  | downloading =>
    change s.next ∈ _ at hat
    rwa [hd] at hat

theorem Keeps.pushBack {ref : ℕ} : Keeps s (s.pushBack h ref) x := by
  unfold Service.pushBack
  dsimp only
  split
  · split
    · exact .same rfl rfl rfl rfl rfl
    · exact .same rfl rfl rfl rfl rfl
  · exact .same rfl rfl rfl rfl rfl

/-- The answer of the bus reaches those who asked. -/
theorem at_reported {peer : Peer} {reply : BusReply} {callbacks : List ℕ}
    (hpending : s.credentials.pending peer = some ⟨callbacks,false⟩) (hl : Lifecycle nothing s)
    (hat : At (s.receivedCredentials peer reply) x p) :
    At s x p ∨ ∃ c, p = .told c ∧ At s x .asking ∧
      Reported s.credentials.apparmorEnabled (s.receivedCredentials peer reply).log
        (s.handlers x).peer c := by
  obtain ⟨hresult,hasked,hself,hother⟩ :=
    CredentialsCache.receivedCredentials_asked reply hpending
  unfold receivedCredentials at hat ⊢
  dsimp only at hat ⊢
  rw [hresult] at hat ⊢
  have hcredentials : Keeps s ((s.setCredentials
      (s.credentials.receivedCredentials peer reply).1).note
        (.reported peer reply)) x := by
    refine Keeps.trans (.setCredentials fun q ha => ?_) .note
    by_cases hq : q = peer
    · rw [hq,hself] at ha
      cases ha
    · rwa [hother q hq] at ha
  rcases at_push hat with hu | ⟨-,hm⟩ | ⟨-,hm⟩ | ⟨-,hm⟩ | ⟨c,rfl,hm⟩
  · exact .inl (hcredentials.at hu)
  · simp at hm
  · simp at hm
  · simp at hm
  · obtain ⟨y,hy,heq⟩ : ∃ y ∈ callbacks, Call.gotCredentials y
        (reply.credentials s.credentials.apparmorEnabled) = .gotCredentials x c := by
      simpa using hm
    obtain ⟨rfl,rfl⟩ := Call.gotCredentials.inj heq
    rw [← hasked] at hy
    have hpeer := (hl.asks peer y hy).1
    refine .inr ⟨_,rfl,?_,?_⟩
    · change y ∈ s.credentials.asked (s.handlers y).peer
      rwa [hpeer]
    · rw [hpeer]
      exact ⟨reply,List.mem_cons_self,BusReply.says_iff.mpr rfl⟩

theorem Keeps.delete : Keeps s (s.delete h) x := by
  have hmodify : Keeps s (s.modify h Handler.cancel) x :=
    .modify (fun _ => rfl) (fun _ => rfl) fun _ => rfl
  refine ⟨hmodify.check,hmodify.create,fun l hl => ?_,hmodify.asked,fun _ hc _ => hc,
    fun hd => (List.mem_filter.mp hd).1⟩
  change x ∈ (Function.update s.limiters (s.handlers h).limiter
    ((s.handlers h).withdraw (s.limiters (s.handlers h).limiter)) l).pending at hl
  by_cases hlim : l = (s.handlers h).limiter
  · rw [hlim,Function.update_self] at hl
    refine ⟨(s.handlers h).limiter,?_⟩
    unfold Handler.withdraw at hl
    split at hl
    · exact (RateLimiter.cancel_pending_sublist _ _).subset hl
    · exact hl
  · rw [Function.update_of_ne hlim] at hl
    exact ⟨l,hl⟩

theorem download_setDownload {d : Download} :
    ((s.modify h (·.setDownload d)).handlers h).request.download = some d := by
  change (Function.update s.handlers h ((s.handlers h).setDownload d) h).request.download = _
  rw [Function.update_self]
  rfl

/-- What the calls of a download do to its record. -/
theorem Keeps.called {rest : List Call} {d : Download} (hcalls : s.calls = .job h :: rest) :
    Keeps s (((s.setCalls rest).note (.calledDownload h)).modify h (·.setDownload d)) x := by
  have hnote : Keeps s ((s.setCalls rest).note (.calledDownload h)) x :=
    (Keeps.pop hcalls).trans (.same rfl rfl rfl rfl rfl)
  exact hnote.trans .setDownload

theorem Keeps.caught {y : ℕ} {what error : String} {rest below : List Call}
    (hcalls : s.calls = .job y :: rest) (hcatch : catcher rest = some (h,below)) :
    Keeps s (((((s.setCalls rest).note (.calledDownload y)).note
      (.threwDownload y what)).setCalls below).sendError h error) x := by
  have hbelow : Keeps s ((((s.setCalls rest).note (.calledDownload y)).note
      (.threwDownload y what)).setCalls below) x := by
    refine .of_calls rfl rfl rfl rfl fun c hc _ => ?_
    rw [hcalls]
    exact List.mem_cons_of_mem _ ((Stacked.catcher_suffix hcatch).subset hc)
  exact hbelow.trans .answer

theorem Keeps.erased {peer : Peer} {rest : List Call} (hcalls : s.calls = .erasePending peer :: rest) :
    Keeps s ((s.setCalls rest).setCredentials (s.credentials.erasePending peer)) x := by
  refine (Keeps.pop hcalls).trans (.setCredentials fun q ha => ?_)
  rw [CredentialsCache.erasePending_asked] at ha
  split at ha
  · cases ha
  · exact ha

/-- A handler whose peer is not known asks for it. -/
theorem at_asked {rest : List Call} (hcalls : s.calls = .begin h :: rest)
    (hmissing : s.credentials.cached (s.handlers h).peer = none)
    (hat : At (((s.setCalls rest).note (.began h)).setCredentials
      (s.credentials.get (s.handlers h).peer h).1) x p) : At s x p ∨ (x = h ∧ p = .asking) := by
  have hnote : Keeps s ((s.setCalls rest).note (.began h)) x := (Keeps.pop hcalls).trans .note
  by_cases hx : x = h
  · subst hx
    cases p with
    | asking => exact .inr ⟨rfl,rfl⟩
    | _ => exact .inl (hnote.at hat)
  · refine .inl ((hnote.trans (.setCredentials fun peer ha => ?_)).at hat)
    by_cases hp : peer = (s.handlers h).peer
    · subst hp
      rcases CredentialsCache.get_asked_missing h hmissing with hget | hget <;> rw [hget] at ha
      · rcases List.mem_append.mp ha with hm | hm
        · exact hm
        · exact absurd (List.mem_singleton.mp hm) hx
      · exact ha
    · rwa [CredentialsCache.get_asked_other _ _ hp] at ha

theorem at_calls {c : Call} {rest : List Call} (hcalls : s.calls = c::rest) : c ∈ s.calls := by
  rw [hcalls]
  exact List.mem_cons_self

/-- The watcher of a handler that moves on from it is no place any more. -/
theorem at_delivered (hat : At (s.modify h (·.setCheckWatcher .delivered)) x p) : At s x p := by
  rcases at_setCheckWatcher hat with hu | ⟨-,⟨-,hd⟩ | ⟨result,-,hd⟩⟩
  · exact hu
  · cases hd
  · cases hd

theorem at_created (hat : At (s.modify h (·.setCreateWatcher .delivered)) x p) : At s x p := by
  rcases at_setCreateWatcher hat with hu | ⟨-,⟨-,hd⟩ | ⟨result,-,hd⟩⟩
  · exact hu
  · cases hd
  · cases hd

/-- A handler given to its limiter is queued or starts; all others stay. -/
theorem at_schedule (hat : At (s.schedule h) x p) :
    At s x p ∨ (x = h ∧ (p = .queued ∨ p = .starting)) := by
  have hjobs := (s.limiters (s.handlers h).limiter).schedule_jobs h
  unfold Service.schedule at hat
  rcases at_push hat with hu | ⟨rfl,hm⟩ | ⟨-,hm⟩ | ⟨-,hm⟩ | ⟨c,-,hm⟩
  · rcases at_setLimiter hu with hu | ⟨rfl,hq⟩
    · exact .inl hu
    · have hmem := List.mem_append_right
        ((s.limiters (s.handlers h).limiter).schedule h).2.2.toList hq
      rw [hjobs] at hmem
      rcases List.mem_cons.mp hmem with rfl | hold
      · exact .inr ⟨rfl,.inl rfl⟩
      · exact .inl ⟨_,hold⟩
  · have hnext : x ∈ ((s.limiters (s.handlers h).limiter).schedule h).2.2.toList := by
      simpa using hm
    rcases RateLimiter.schedule_next (s.limiters (s.handlers h).limiter) h with hn | hn <;>
      rw [hn] at hnext
    · cases hnext
    · exact .inr ⟨by simpa using hnext,.inr rfl⟩
  · simp at hm
  · simp at hm
  · simp at hm

/-- A slot that is given back goes to a handler that was queued. -/
theorem at_downloadFinished (hat : At (s.downloadFinished h) x p) :
    At s x p ∨ (p = .starting ∧ At s x .queued) ∨ (x = h ∧ p = .returning) := by
  have hjobs := (s.limiters (s.handlers h).limiter).done_jobs
  have hold : ∀ {y : ℕ}, (y ∈ (s.limiters (s.handlers h).limiter).done.2.toList ∨
      y ∈ (s.limiters (s.handlers h).limiter).done.1.pending) → At s y .queued :=
    fun hy => ⟨_,hjobs ▸ List.mem_append.mpr hy⟩
  unfold Service.downloadFinished at hat
  rcases at_push hat with hu | ⟨rfl,hm⟩ | ⟨-,hm⟩ | ⟨rfl,hm⟩ | ⟨c,-,hm⟩
  · rcases at_setLimiter (Keeps.note.at hu) with hu | ⟨rfl,hq⟩
    · exact .inl hu
    · exact .inl (hold (.inr hq))
  · exact .inr (.inl ⟨rfl,hold (.inl (by simpa using hm))⟩)
  · simp at hm
  · exact .inr (.inr ⟨by simpa using hm,rfl⟩)
  · simp at hm

/-- The parts that the work of a handler is summed up from. -/
inductive Part
  | asks | check | create | calls | queue | downloads

def Place.part : Place → Part
  | .asking => .asks
  | .checking | .checked _ => .check
  | .creating | .created _ => .create
  | .told _ | .starting | .ended | .returning => .calls
  | .queued => .queue
  | .downloading => .downloads

def share (s : Service) (x : ℕ) : Part → ℕ
  | .asks => (s.credentials.asked (s.handlers x).peer).count x
  | .check => (s.handlers x).checkWatcher.active
  | .create => (s.handlers x).createWatcher.active
  | .calls => (s.calls.filterMap Call.works).count x
  | .queue => s.queued x
  | .downloads => s.downloads.count x

theorem At.share_pos (hat : At s x p) : 0 < s.share x p.part := by
  have hcalls : ∀ c : Call, c ∈ s.calls → c.works = some x →
      0 < (s.calls.filterMap Call.works).count x :=
    fun c hc hw => List.count_pos_iff.mpr (List.mem_filterMap.mpr ⟨c,hc,hw⟩)
  cases p with
  | checking =>
    change 0 < (s.handlers x).checkWatcher.active
    rw [show (s.handlers x).checkWatcher = .running from hat]
    exact Nat.one_pos
  | checked result =>
    change 0 < (s.handlers x).checkWatcher.active
    rw [show (s.handlers x).checkWatcher = .finished result from hat]
    exact Nat.one_pos
  | creating =>
    change 0 < (s.handlers x).createWatcher.active
    rw [show (s.handlers x).createWatcher = .running from hat]
    exact Nat.one_pos
  | created result =>
    change 0 < (s.handlers x).createWatcher.active
    rw [show (s.handlers x).createWatcher = .finished result from hat]
    exact Nat.one_pos
  | told | starting | ended | returning => exact hcalls _ hat rfl
  | asking | downloading => exact List.count_pos_iff.mpr hat
  | queued =>
    obtain ⟨l,hl⟩ := hat
    have hpos := List.count_pos_iff.mpr hl
    change 0 < s.queued x
    unfold queued
    cases l <;> omega

theorem share_le (s : Service) (x : ℕ) (a : Part) : s.share x a ≤ s.work x := by
  unfold work Handler.watched
  cases a <;> simp only [share] <;> omega

theorem share_add_le (s : Service) (x : ℕ) {a b : Part} (hab : a ≠ b) :
    s.share x a+s.share x b ≤ s.work x := by
  unfold work Handler.watched
  cases a <;> cases b <;> first | exact absurd rfl hab | (simp only [share]; omega)

theorem At.work_pos (hat : At s x p) : 0 < s.work x := hat.share_pos.trans_le (s.share_le x _)

theorem Lifecycle.work_le (hl : Lifecycle nothing s) (x : ℕ) : s.work x ≤ 1 := by
  have hworks := hl.works x
  have hbegun := hl.begun_le x
  omega

/-- A handler in a place has begun and not finished. -/
theorem At.unfinished (hat : At s x p) (hl : Lifecycle nothing s) :
    s.begun.count x = 1 ∧ s.ended.count x = 0 ∧ x < s.next := by
  obtain ⟨hb,he,-,hn⟩ := hl.unfinished (Nat.add_pos_left hat.work_pos _)
  exact ⟨hb,he,hn⟩

/-- A handler's work is in one part at a time. -/
theorem At.part_eq {q : Place} (hp : At s x p) (hq : At s x q) (hl : Lifecycle nothing s) :
    p.part = q.part := by
  by_contra hne
  have hsum := s.share_add_le x hne
  have hone := hl.work_le x
  have hpos := hp.share_pos
  have hpos' := hq.share_pos
  omega

/-- Two calls on the stack never carry the same handler on. -/
theorem works_unique {c d : Call} (hc : c ∈ s.calls) (hd : d ∈ s.calls) (hcx : c.works = some x)
    (hdx : d.works = some x) (hl : Lifecycle nothing s) : c = d := by
  by_contra hne
  have hone := (s.share_le x .calls).trans (hl.work_le x)
  change (s.calls.filterMap Call.works).count x ≤ 1 at hone
  obtain ⟨above,below,hsplit⟩ := List.append_of_mem hc
  have hrest : d ∈ above ++ below := by
    rw [hsplit] at hd
    rcases List.mem_append.mp hd with hd | hd
    · exact List.mem_append_left _ hd
    · rcases List.mem_cons.mp hd with heq | hd
      · exact absurd heq.symm hne
      · exact List.mem_append_right _ hd
  have hpos : 0 < ((above ++ below).filterMap Call.works).count x :=
    List.count_pos_iff.mpr (List.mem_filterMap.mpr ⟨d,hrest,hdx⟩)
  rw [hsplit,List.filterMap_append,List.filterMap_cons_some hcx,List.count_append,
    List.count_cons_self] at hone
  rw [List.filterMap_append,List.count_append] at hpos
  omega

/-- A handler is in one place at a time. -/
theorem At.unique {q : Place} (hp : At s x p) (hq : At s x q) (hl : Lifecycle nothing s) :
    p = q := by
  have hpart := hp.part_eq hq hl
  have hcheck : ∀ {v w : Watcher}, (s.handlers x).checkWatcher = v →
      (s.handlers x).checkWatcher = w → v = w := fun hv hw => hv.symm.trans hw
  have hcreate : ∀ {v w : Watcher}, (s.handlers x).createWatcher = v →
      (s.handlers x).createWatcher = w → v = w := fun hv hw => hv.symm.trans hw
  have hcalls : ∀ {c d : Call}, c ∈ s.calls → d ∈ s.calls → c.works = some x →
      d.works = some x → c = d := fun hc hd hcx hdx => works_unique hc hd hcx hdx hl
  cases p with
  | asking | downloading | queued => cases q <;> first | rfl | cases hpart
  | checking | checked =>
    cases q with
    | checking | checked =>
      have heq := hcheck hp hq
      cases heq <;> rfl
    | _ => cases hpart
  | creating | created =>
    cases q with
    | creating | created =>
      have heq := hcreate hp hq
      cases heq <;> rfl
    | _ => cases hpart
  | told | starting | ended | returning =>
    cases q with
    | told | starting | ended | returning =>
      have heq := hcalls hp hq rfl rfl
      cases heq <;> rfl
    | _ => cases hpart

/-- Every place that is taken after a step was reached by one of the ways listed. -/
theorem Transition.place (ht : Transition cfg s e t) (hl : Lifecycle nothing s) (hat : At t x p) :
    Came cfg s e t x p := by
  cases ht with
  | refused hidle => exact .stayed (Keeps.note.at hat)
  | arrived hidle hmedia =>
    by_cases hx : x = s.next
    · exact .stayed (at_arrived hl hx hat)
    · exact .stayed ((Keeps.arrived hx).at hat)
  | reported hidle hpending =>
    rcases at_reported hpending hl hat with hu | ⟨c,rfl,hu,hreported⟩
    · exact .stayed hu
    · exact .told hu hreported
  | asked hcalls hmissing =>
    rcases at_asked hcalls hmissing hat with hu | ⟨rfl,rfl⟩
    · exact .stayed hu
    · exact .asked (at_calls hcalls)
  | cleared hr hc =>
    rcases at_setCheckWatcher hat with hu | ⟨rfl,⟨rfl,-⟩ | ⟨result,-,hw⟩⟩
    · exact .stayed ((Keeps.received hr).at hu)
    · exact .cleared hr hc ⟨_,rfl⟩
    · cases hw
  | denied hr hc => exact .stayed (((Keeps.received hr).trans .answer).at hat)
  | pushed hcalls => exact .stayed (((Keeps.pop hcalls).trans .pushBack).at hat)
  | erased hcalls => exact .stayed ((Keeps.erased hcalls).at hat)
  | returned hcalls => exact .stayed (((Keeps.pop hcalls).trans .setCancelFunc).at hat)
  | @started h rest hcalls =>
    have hkeep : Keeps s _ x :=
      Keeps.called (d:=initialDownload (s.handlers h).request.media) hcalls
    cases p with
    | downloading =>
      rcases List.mem_cons.mp hat with rfl | hd
      · exact .started (at_calls hcalls)
      · exact .stayed hd
    | _ => exact .stayed (hkeep.at hat)
  | @failed h what rest filename st hcalls hmedia =>
    rcases at_push hat with hu | ⟨-,hm⟩ | ⟨rfl,hm⟩ | ⟨-,hm⟩ | ⟨c,-,hm⟩
    · exact .stayed ((Keeps.called hcalls).at hu)
    · simp at hm
    · obtain rfl : x = h := by simpa using hm
      exact .completed (.inl (at_calls hcalls)) download_setDownload (by rw [hmedia]; rfl)
    · simp at hm
    · simp at hm
  | caught hcalls hcatch => exact .stayed ((Keeps.caught hcalls hcatch).at hat)
  | uncaught hcalls hcatch =>
    exact .stayed (((Keeps.pop hcalls).trans (.same rfl rfl rfl rfl rfl)).at hat)
  | @released o h rest hcalls =>
    rcases at_downloadFinished hat with hu | ⟨rfl,hq⟩ | ⟨rfl,rfl⟩
    · exact .stayed ((Keeps.pop hcalls).at hu)
    · exact .dequeued hq
    · exact .released (at_calls hcalls)
  | @creating o h rest hcalls =>
    rcases at_setCreateWatcher hat with hu | ⟨rfl,⟨rfl,-⟩ | ⟨result,-,hw⟩⟩
    · exact .stayed ((Keeps.pop hcalls).at hu)
    · exact .returned (at_calls hcalls)
    · cases hw
  | checkAnswered hidle hw ha => exact .stayed (at_delivered (Keeps.answer.at hat))
  | scheduled hidle hw hs =>
    rcases at_schedule hat with hu | ⟨rfl,hp⟩
    · exact .stayed (at_delivered hu)
    · exact .scheduled hw hs hp
  | @completed h download hidle hd hfits =>
    rcases at_push hat with hu | ⟨-,hm⟩ | ⟨rfl,hm⟩ | ⟨-,hm⟩ | ⟨c,-,hm⟩
    · have herase : Keeps s (s.setDownloads (s.downloads.erase h)) x :=
        ⟨rfl,rfl,fun l hl => ⟨l,hl⟩,id,fun _ hc _ => hc,List.mem_of_mem_erase⟩
      exact .stayed ((herase.trans .setDownload).at hu)
    · simp at hm
    · obtain rfl : x = h := by simpa using hm
      exact .completed (.inr hd) download_setDownload hfits
    · simp at hm
    · simp at hm
  | createAnswered hidle hw ha => exact .stayed (at_created (Keeps.answer.at hat))
  | deleted hidle hd => exact .stayed (Keeps.delete.at hat)
  | checked hw hr =>
    rcases at_setCheckWatcher hat with hu | ⟨rfl,⟨-,hd⟩ | ⟨result,rfl,hd⟩⟩
    · exact .stayed (Keeps.thumbnail.at hu)
    · cases hd
    · obtain rfl := Watcher.finished.inj hd
      exact .checked rfl hw hr rfl
  | created hw hr =>
    rcases at_setCreateWatcher hat with hu | ⟨rfl,⟨-,hd⟩ | ⟨result,rfl,hd⟩⟩
    · exact .stayed (Keeps.thumbnail.at hu)
    · cases hd
    · obtain rfl := Watcher.finished.inj hd
      exact .created rfl hw hr rfl
  | aborted hw ha => exact .stayed ((Keeps.thumbnail.trans (.same rfl rfl rfl rfl rfl)).at hat)
  | evicted => exact .stayed ((Keeps.same rfl rfl rfl rfl rfl).at hat)

end
end Service
end UnityThumbnailer
