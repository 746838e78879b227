import UnityThumbnailer.DownloadBurst

/-! The backoff window and the requests that wait for a download. The window is tested in
the first look-up of a request only, so a temporary error that is reported while the request
waits for its download does not hold the download back. -/
namespace UnityThumbnailer

namespace Service

def remote : Media → Bool
  | .localFile .. => false
  | .album .. | .artist .. => true

/-- The time that an event reads from the clock. -/
def Event.now : Event → Option ℤ
  | .check _ w | .create _ w => some w.now
  | _ => none

/-- The service and the time of its last step. -/
structure Timed where
  service : Service
  clock : ℤ

/-- The service with events that carry the time at which they happen. -/
def timed (cfg : Config) : EventSystem.Machine Timed (ℤ × Event) where
  step s e :=
    if e.2.now.all (· = e.1) then ((machine cfg).step s.service e.2).map (⟨·,e.1⟩) else none

def Effect.calls : Effect → Option ℕ
  | .calledDownload x => some x
  | _ => none

/-- The handlers that have called `download()`. -/
def called (s : Service) : List ℕ := s.log.filterMap Effect.calls

/-- The step calls `download()` for a handler with a remote request. -/
def Contacts (cfg : Config) (s : Timed) (e : ℤ × Event) (x : ℕ) : Prop :=
  remote (s.service.handlers x).request.media = true ∧
    ∃ t ∈ (timed cfg).step s e, s.service.called.count x < t.service.called.count x

/-- The server is contacted only when the backoff allows it. -/
def Respected (cfg : Config) (s : Timed) (e : ℤ × Event) : Prop :=
  ∀ x, Contacts cfg s e x → s.service.thumbnailer.backoff.retryOk e.1 = true

/-- A download has ended with a temporary error since the handler's request was found to need
one. -/
def Overtaken (s : Service) (x : ℕ) : Prop :=
  ∃ later earlier y, s.log = later ++ .ranThumbnail x .needsDownload :: earlier ∧
    .ranThumbnail y .temporaryError ∈ later ∧ .ranThumbnail y .needsDownload ∈ s.log

/-- An overtaken request waits until the backoff period is over. -/
def WaitsOut (cfg : Config) (s : Timed) (e : ℤ × Event) : Prop :=
  ∀ x, Contacts cfg s e x → Overtaken s.service x →
    s.service.thumbnailer.backoff.retryOk e.1 = true

/-- No overtaken request is started. -/
def NoneOvertaken (cfg : Config) (s : Timed) (e : ℤ × Event) : Prop :=
  ∀ x, Contacts cfg s e x → ¬ Overtaken s.service x

/-- A place that a request takes only after its look-up has asked for a download. -/
def Asked (s : Service) (x : ℕ) : Place → Prop
  | .checked result => result = ⟨none,none⟩ ∧ (s.handlers x).request.status = .needsDownload
  | .queued | .starting | .downloading | .ended | .returning | .creating => True
  | _ => False

/-- A place from which the download is still to be started. -/
def Place.waits : Place → Bool
  | .checked _ | .queued | .starting => true
  | _ => false

/-- A remote request whose download is still to be started. -/
def Waiting (s : Service) (x : ℕ) : Prop :=
  remote (s.handlers x).request.media = true ∧ ∃ p, At s x p ∧ Asked s x p ∧ p.waits = true

/-- The second look-up of a handler, whose download has ended with a temporary error. -/
def FindsError (s : Service) (e : Event) (y : ℕ) : Prop :=
  ∃ w d, e = .create y w ∧ fetch w (s.handlers y).request
    (s.thumbnailer.targetSize (s.handlers y).request.requestedSize) = some d ∧
      d.status = .temporaryError

/-- No request waits for its download when a temporary error is noted. -/
def FailsAlone (s : Timed) (e : ℤ × Event) : Prop :=
  ∀ y, FindsError s.service e.2 y → ∀ x, ¬ Waiting s.service x

/-- The clock is not set back. -/
def Onward (s : Timed) (e : ℤ × Event) : Prop := s.clock ≤ e.1

instance (s : Timed) (e : ℤ × Event) : Decidable (Onward s e) :=
  inferInstanceAs (Decidable (s.clock ≤ e.1))

/-! ### One look-up -/

section Look

variable {t : Thumbnailer} {w : World} {r : Request}

theorem saveThumbnail_backoff (status : FetchStatus) (scaled : Image) :
    (t.saveThumbnail w r status scaled).thumbnailer.backoff = t.backoff := by
  unfold Thumbnailer.saveThumbnail
  split <;> rfl

theorem scaleFetched_backoff (image : Image) (policy : CachePolicy) :
    (t.scaleFetched w r image policy).thumbnailer.backoff = t.backoff := by
  unfold Thumbnailer.scaleFetched
  split
  · rfl
  · rename_i u kept hkept
    have hu : u.backoff = t.backoff := by
      split at hkept
      · obtain ⟨file,rfl⟩ := Thumbnailer.keepFullSize_ok hkept
        rfl
      · obtain ⟨rfl,rfl⟩ := Prod.mk.inj (Except.ok.inj hkept)
        rfl
    split
    · exact hu
    · exact (saveThumbnail_backoff _ _).trans hu

theorem noteAnswer_retryOk (location : Location) (hok : t.backoff.retryOk w.now = true) :
    (t.noteAnswer w location).backoff.retryOk w.now = true := by
  unfold Thumbnailer.noteAnswer
  split
  · exact BackoffAdjuster.reset_retryOk hok
  · exact hok

theorem handleFetched_retryOk (d : ImageData) (hok : t.backoff.retryOk w.now = true) :
    (t.handleFetched w r d).thumbnailer.backoff.retryOk w.now = true ∨
      (t.handleFetched w r d).status = .temporaryError ∧ d.status = .temporaryError := by
  cases d with
  | image image policy location =>
    refine .inl ?_
    change ((t.noteAnswer w location).scaleFetched w r image policy).thumbnailer.backoff.retryOk _ = _
    rw [scaleFetched_backoff]
    exact noteAnswer_retryOk location hok
  | failed status policy location =>
    cases status with
    | notFound | hardError => exact .inl (noteAnswer_retryOk location hok)
    | temporaryError => cases location <;> exact .inr ⟨rfl,rfl⟩
    | timeout => cases location <;> exact .inl hok
    | needsDownload =>
      refine .inl ?_
      simp only [Thumbnailer.handleFetched]
      split_ifs <;> exact hok
    | cacheHit | scaledFromFullsize | cachedFailure | downloaded | networkDown => exact .inl hok

/-- A look-up closes the window only when its download has ended with a temporary error. -/
theorem thumbnail_retryOk (hok : t.backoff.retryOk w.now = true) :
    (t.thumbnail w r).thumbnailer.backoff.retryOk w.now = true ∨
      (t.thumbnail w r).status = .temporaryError ∧
        ∃ d, fetch w r (t.targetSize r.requestedSize) = some d ∧ d.status = .temporaryError := by
  unfold Thumbnailer.thumbnail
  split
  · exact .inl hok
  · dsimp only
    split
    · exact .inl hok
    · split
      · split
        · exact .inl hok
        · rw [saveThumbnail_backoff]
          exact .inl hok
      · split
        · exact .inl hok
        · cases hf : fetch w r (t.targetSize r.requestedSize) with
          | none => exact .inl hok
          | some d =>
            exact (handleFetched_retryOk d hok).imp id fun h => ⟨h.1,d,rfl,h.2⟩

theorem fetch_undownloaded {size : QSize} {d : ImageData} (hnone : r.download = none)
    (hf : fetch w r size = some d) : d.status ≠ .temporaryError := by
  unfold fetch at hf
  rw [hnone] at hf
  cases hm : r.media with
  | localFile filename st =>
    rw [hm] at hf
    obtain rfl := Option.some.inj hf
    unfold fetchLocal
    dsimp only
    repeat' split
    all_goals simp [ImageData.status]
  | album | artist =>
    rw [hm] at hf
    obtain rfl := Option.some.inj hf
    simp [ImageData.status]

theorem fetch_remote {size : QSize} {d : ImageData} (hremote : remote r.media = true)
    (hf : fetch w r size = some d) : d.location = .remote := by
  have hcommon : commonFetch r.download = some d := by
    unfold fetch at hf
    cases hm : r.media with
    | localFile filename st =>
      rw [hm] at hremote
      cases hremote
    | album | artist =>
      rw [hm] at hf
      exact hf
  unfold commonFetch at hcommon
  split at hcommon
  · split at hcommon
    · split at hcommon <;> obtain rfl := Option.some.inj hcommon <;> rfl
    all_goals first | (obtain rfl := Option.some.inj hcommon; rfl) | cases hcommon
  · obtain rfl := Option.some.inj hcommon
    rfl

theorem saveThumbnail_status (status : FetchStatus) (scaled : Image) :
    (t.saveThumbnail w r status scaled).status = status := by
  unfold Thumbnailer.saveThumbnail
  split <;> rfl

theorem handleFetched_needsDownload {d : ImageData} (hremote : d.location = .remote)
    (hs : (t.handleFetched w r d).status = .needsDownload)
    (hdata : (t.handleFetched w r d).outcome = .returned none) :
    t.backoff.retryOk w.now = true ∧ (t.handleFetched w r d).thumbnailer = t := by
  cases d with
  | image image policy location =>
    change ((t.noteAnswer w location).scaleFetched w r image policy).status = _ at hs
    rw [scaleFetched_status] at hs
    cases hs
  | failed status policy location =>
    obtain rfl : location = .remote := hremote
    cases status with
    | needsDownload =>
      simp only [Thumbnailer.handleFetched,true_and] at hs ⊢
      split_ifs at hs ⊢ with hok
      exact ⟨by simpa using hok,rfl⟩
    | _ => cases hs

/-- A remote request that needs a download was looked up outside of the window. -/
theorem thumbnail_needsDownload (hremote : remote r.media = true)
    (hs : (t.thumbnail w r).status = .needsDownload)
    (hdata : (t.thumbnail w r).outcome = .returned none) :
    t.backoff.retryOk w.now = true ∧ (t.thumbnail w r).thumbnailer = t := by
  rw [Thumbnailer.thumbnail_eq] at hdata hs ⊢
  have hv := Thumbnailer.returned_valid hdata
  by_cases hholds : t.Holds w r
  · have hheld := Thumbnailer.thumbnail_held hv hholds
    rw [Thumbnailer.thumbnail_eq] at hheld
    generalize t.thumbnailWith w r (fetch w r) = result at hheld hdata hs ⊢
    cases hheld with
    | hit | broken | failure => cases hs
    | scaled =>
      rw [saveThumbnail_status] at hs
      cases hs
  · cases hf : fetch w r (t.targetSize r.requestedSize) with
    | none =>
      rw [Thumbnailer.thumbnailWith_of_abort hv hholds hf] at hdata
      cases hdata
    | some d =>
      rw [Thumbnailer.thumbnailWith_of_fetch hv hholds hf] at hdata hs ⊢
      exact handleFetched_needsDownload (fetch_remote hremote hf) hs hdata

end Look

/-! ### What waits for a download -/

section

variable {cfg : Config} {e : Event} {s t : Service} {x : ℕ} {p : Place} {now : ℤ}

/-- Requests that wait, but for the exempt ones, wait outside of the window. -/
structure Admission (Exempt : Service → ℕ → Prop) (s : Service) (now : ℤ) : Prop where
  looked : ∀ x p, At s x p → Asked s x p → .ranThumbnail x .needsDownload ∈ s.log
  waiting : ∀ x, Waiting s x → ¬ Exempt s x → s.thumbnailer.backoff.retryOk now = true

/-- The exempt stay so, and an error makes all that wait exempt. -/
structure Exempts (Exempt : Service → ℕ → Prop) (s : Service) (e : Event) (t : Service) :
    Prop where
  kept : ∀ x, Exempt s x → Exempt t x
  error : ∀ x y, Waiting s x → FindsError s e y → At s y .creating →
    t.log = .ranThumbnail y .temporaryError :: s.log → Exempt t x

theorem Overtaken.mono {es : List Effect} (ho : Overtaken s x) (hlog : t.log = es ++ s.log) :
    Overtaken t x := by
  obtain ⟨later,earlier,y,hsplit,herror,hlooked⟩ := ho
  refine ⟨es ++ later,earlier,y,?_,List.mem_append_right _ herror,?_⟩
  · rw [hlog,hsplit,List.append_assoc]
  · rw [hlog]
    exact List.mem_append_right _ hlooked

/-- A temporary error overtakes all requests that have been looked up. -/
theorem Overtaken.of_error {y : ℕ} (hx : .ranThumbnail x .needsDownload ∈ s.log)
    (hy : .ranThumbnail y .needsDownload ∈ s.log)
    (hlog : t.log = .ranThumbnail y .temporaryError :: s.log) : Overtaken t x := by
  obtain ⟨later,earlier,hsplit⟩ := List.append_of_mem hx
  refine ⟨.ranThumbnail y .temporaryError :: later,earlier,y,?_,List.mem_cons_self,?_⟩
  · rw [hlog,hsplit,List.cons_append]
  · rw [hlog]
    exact List.mem_cons_of_mem _ hy

/-- A step closes the window only by a second look-up that finds an error, which leaves its
trace in the log. -/
theorem Transition.retryOk (ht : Transition cfg s e t) (hd : Downloads s)
    (hnow : ∀ n ∈ e.now, n = now) (hok : s.thumbnailer.backoff.retryOk now = true) :
    t.thumbnailer.backoff.retryOk now = true ∨ ∃ y, FindsError s e y ∧ At s y .creating ∧
      t.log = .ranThumbnail y .temporaryError :: s.log := by
  rcases ht.thumbnailer with h | ⟨y,w,hlook,h,hlog⟩ | ⟨cache,key,-,h⟩
  · rw [h]
    exact .inl hok
  · have hw : w.now = now := by
      rcases hlook with ⟨rfl,-⟩ | ⟨rfl,-⟩ <;> exact hnow _ rfl
    subst hw
    rcases thumbnail_retryOk (r:=(s.handlers y).request) hok with hkept | ⟨hs,d,hf,herror⟩
    · rw [h]
      exact .inl hkept
    · rcases hlook with ⟨-,hat⟩ | ⟨he,hat⟩
      · exact absurd herror (fetch_undownloaded (hd.early y _ hat rfl) hf)
      · refine .inr ⟨y,⟨w,d,he,hf,herror⟩,hat,?_⟩
        rw [hlog,← hs]
        rfl
  · rw [h]
    cases cache <;> exact .inl hok

/-- What waits for a download before a step still does so afterwards. -/
theorem Admission.transfer {Exempt : Service → ℕ → Prop} {later : ℤ}
    (ha : Admission Exempt s now) (hd : Downloads s) (ht : Transition cfg s e t)
    (hexempt : Exempts Exempt s e t) (hnow : ∀ n ∈ e.now, n = later) (hle : now ≤ later)
    (hx : Waiting s x) (ho : ¬ Exempt t x) : t.thumbnailer.backoff.retryOk later = true := by
  have hbefore := ha.waiting x hx fun h => ho (hexempt.kept x h)
  rcases ht.retryOk hd hnow (BackoffAdjuster.retryOk_mono hbefore hle) with
    hok | ⟨y,hfinds,hy,herror⟩
  · exact hok
  · exact absurd (hexempt.error x y hx hfinds hy herror) ho

theorem Admission.step {Exempt : Service → ℕ → Prop} {later : ℤ} (ha : Admission Exempt s now)
    (hd : Downloads s) (hl : Lifecycle nothing s) (ht : Transition cfg s e t)
    (hexempt : Exempts Exempt s e t) (hnow : ∀ n ∈ e.now, n = later) (hle : now ≤ later) :
    Admission Exempt t later := by
  obtain ⟨es,hlog,-⟩ := ht.log
  have hkept : ∀ {x q}, At s x q → Asked s x q → .ranThumbnail x .needsDownload ∈ t.log :=
    fun hat hasked => hlog ▸ List.mem_append_right _ (ha.looked _ _ hat hasked)
  -- a result that is at hand already was looked up in an earlier step
  have hstayed : ∀ {x q}, At s x q → Asked t x q → Asked s x q := by
    intro x q hat hasked
    cases q with
    | checked result =>
      rcases (ht.rewritten (hat.unfinished hl).2.2).status with hsame | ⟨w,⟨-,hlook⟩ | ⟨-,hlook⟩⟩
      · exact ⟨hasked.1,hsame.symm.trans hasked.2⟩
      · cases hat.unique hlook hl
      · cases hat.unique hlook hl
    | _ => exact hasked
  refine ⟨fun x p hat hasked => ?_,fun x ⟨hremote,p,hat,hasked,hp⟩ ho => ?_⟩
  · cases ht.place hl hat with
    | stayed hold => exact hkept hold (hstayed hold hasked)
    | scheduled hold hs => exact hkept hold ⟨rfl,hs⟩
    | dequeued hold | started hold | released hold | returned hold => exact hkept hold trivial
    | completed hold => exact hold.elim (hkept · trivial) (hkept · trivial)
    | asked | told | cleared | created => exact hasked.elim
    | @checked w result he hold hr hresult =>
      have hs : (s.thumbnailer.thumbnail w (s.handlers x).request).status = .needsDownload := by
        rw [← hasked.2,hresult,thumbnail_modify_self]
        rfl
      have hmem : .ranThumbnail x (s.thumbnailer.thumbnail w (s.handlers x).request).status ∈
          t.log := by
        rw [hresult]
        exact List.mem_cons_self
      rwa [hs] at hmem
  · have hwaited : ∀ q, At s x q → Asked s x q → q.waits = true →
        t.thumbnailer.backoff.retryOk later = true := by
      intro q hold hq hwaits
      rw [(ht.rewritten (hold.unfinished hl).2.2).media] at hremote
      exact ha.transfer hd ht hexempt hnow hle ⟨hremote,q,hold,hq,hwaits⟩ ho
    cases ht.place hl hat with
    | stayed hold => exact hwaited p hold (hstayed hold hasked) hp
    | scheduled hold hs => exact hwaited _ hold ⟨rfl,hs⟩ rfl
    | dequeued hold => exact hwaited _ hold trivial rfl
    | started | released | returned | completed | asked | told | cleared | created => cases hp
    | @checked w result he hold hr hresult =>
      have hs : (s.thumbnailer.thumbnail w (s.handlers x).request).status = .needsDownload := by
        rw [← hasked.2,hresult,thumbnail_modify_self]
        rfl
      rw [(ht.rewritten (hold.unfinished hl).2.2).media] at hremote
      have hdata : (s.thumbnail x w).1 = .returned none := checkResult_none (hasked.1 ▸ hr)
      obtain ⟨hok,hsame⟩ := thumbnail_needsDownload hremote hs hdata
      have hw : w.now = later := by
        rw [he] at hnow
        exact hnow _ rfl
      have hbackoff : t.thumbnailer = s.thumbnailer := by
        rw [hresult]
        exact hsame
      rw [hbackoff,← hw]
      exact hok

/-- An error overtakes all requests that wait. -/
theorem Transition.exempts_overtaken (ht : Transition cfg s e t)
    (ha : Admission Overtaken s now) : Exempts Overtaken s e t where
  kept x ho := by
    obtain ⟨es,hlog,-⟩ := ht.log
    exact ho.mono hlog
  error x y hx _ hy herror := by
    obtain ⟨-,p,hat,hasked,-⟩ := hx
    exact .of_error (ha.looked x p hat hasked) (ha.looked y _ hy trivial) herror

theorem Transition.called (ht : Transition cfg s e t) (hx : s.called.count x < t.called.count x) :
    At s x .starting := by
  obtain ⟨es,hlog,hdue⟩ := ht.log
  unfold Service.called at hx
  rw [hlog,List.filterMap_append,List.count_append] at hx
  have hpos : 0 < (es.filterMap Effect.calls).count x := by omega
  obtain ⟨a,ha,hax⟩ := List.mem_filterMap.mp (List.count_pos_iff.mp hpos)
  cases a with
  | calledDownload y =>
    obtain rfl : y = x := Option.some.inj hax
    exact hdue _ ha
  | _ => cases hax

/-! ### Timed runs -/

structure Windowed (Exempt : Service → ℕ → Prop) (s : Timed) : Prop where
  sound : Sound s.service
  downloads : Downloads s.service
  admission : Admission Exempt s.service s.clock

theorem timed_step {s t : Timed} {e : ℤ × Event} (ht : (timed cfg).step s e = some t) :
    (∀ n ∈ e.2.now, n = e.1) ∧ (machine cfg).step s.service e.2 = some t.service ∧
      t.clock = e.1 := by
  change (if _ then _ else _) = _ at ht
  split at ht
  · rename_i hnow
    obtain ⟨u,hu,rfl⟩ := Option.map_eq_some_iff.mp ht
    refine ⟨fun n hn => ?_,hu,rfl⟩
    rw [Option.mem_def.mp hn] at hnow
    simpa using hnow
  · cases ht

section Steps

variable {Exempt : Service → ℕ → Prop} {s t : Timed} {e : ℤ × Event}

theorem Windowed.new (apparmorEnabled : Bool) (maxDownloads maxExtractions : ℤ)
    (hd : 0 < maxDownloads) (he : 0 < maxExtractions) (thumbnailer : Thumbnailer) (clock : ℤ) :
    Windowed Exempt
      ⟨.new apparmorEnabled maxDownloads maxExtractions hd he thumbnailer,clock⟩ :=
  ⟨.new apparmorEnabled maxDownloads maxExtractions hd he thumbnailer,
    .new apparmorEnabled maxDownloads maxExtractions hd he thumbnailer,
    fun _ _ hat => absurd hat.work_pos (lt_irrefl 0),
    fun _ ⟨_,_,hat,_⟩ => absurd hat.work_pos (lt_irrefl 0)⟩

theorem Windowed.step (hs : Windowed Exempt s) (hclock : Onward s e)
    (hexempt : ∀ u, Transition cfg s.service e.2 u → Exempts Exempt s.service e.2 u)
    (ht : (timed cfg).step s e = some t) : Windowed Exempt t := by
  obtain ⟨hnow,hstep,htime⟩ := timed_step ht
  have htr := hs.sound.transition_of_step hstep
  refine ⟨hs.sound.step hstep,hs.downloads.step hs.sound.lifecycle htr,?_⟩
  rw [htime]
  exact hs.admission.step hs.downloads hs.sound.lifecycle htr (hexempt _ htr) hnow hclock

/-- Who contacts the server without being exempt does so outside of the window. -/
theorem Windowed.retryOk (hs : Windowed Exempt s) (hclock : Onward s e)
    (hx : Contacts cfg s e x) (ho : ¬ Exempt s.service x) :
    s.service.thumbnailer.backoff.retryOk e.1 = true := by
  obtain ⟨hremote,t,ht,hcount⟩ := hx
  have hat := (hs.sound.transition_of_step (timed_step ht).2.1).called hcount
  exact BackoffAdjuster.retryOk_mono
    (hs.admission.waiting x ⟨hremote,_,hat,trivial,rfl⟩ ho) hclock

/-- Only overtaken requests contact the server inside of the window. -/
theorem Windowed.respected_iff (hs : Windowed Overtaken s) (hclock : Onward s e) :
    Respected cfg s e ↔ WaitsOut cfg s e := by
  refine ⟨fun h x hx _ => h x hx,fun h x hx => ?_⟩
  by_cases ho : Overtaken s.service x
  · exact h x hx ho
  · exact hs.retryOk hclock hx ho

/-- A step at which no error is noted while requests wait makes no exemptions. -/
theorem FailsAlone.exempts (hg : FailsAlone s e) (u : Service) :
    Exempts (fun _ _ => False) s.service e.2 u :=
  ⟨fun _ => id,fun x y hx hfinds _ _ => hg y hfinds x hx⟩

end Steps

end

/-- As long as the clock is not set back, the server is contacted outside of the backoff window
only, in exactly the runs in which no request that was overtaken by a temporary error is
started before the window is over; so it is when none is started at all, and when no request
waits for its download while a temporary error is noted. -/
theorem backoffWindow_iff (cfg : Config) (apparmorEnabled : Bool)
    (maxDownloads maxExtractions : ℤ) (hd : 0 < maxDownloads) (he : 0 < maxExtractions)
    (thumbnailer : Thumbnailer) (clock : ℤ) (es : List (ℤ × Event))
    (hclock : (timed cfg).AllSteps Onward
      ⟨new apparmorEnabled maxDownloads maxExtractions hd he thumbnailer,clock⟩ es) :
    ((timed cfg).AllSteps (Respected cfg)
        ⟨new apparmorEnabled maxDownloads maxExtractions hd he thumbnailer,clock⟩ es ↔
      (timed cfg).AllSteps (WaitsOut cfg)
        ⟨new apparmorEnabled maxDownloads maxExtractions hd he thumbnailer,clock⟩ es) ∧
    ((timed cfg).AllSteps (NoneOvertaken cfg)
        ⟨new apparmorEnabled maxDownloads maxExtractions hd he thumbnailer,clock⟩ es →
      (timed cfg).AllSteps (Respected cfg)
        ⟨new apparmorEnabled maxDownloads maxExtractions hd he thumbnailer,clock⟩ es) ∧
    ((timed cfg).AllSteps FailsAlone
        ⟨new apparmorEnabled maxDownloads maxExtractions hd he thumbnailer,clock⟩ es →
      (timed cfg).AllSteps (Respected cfg)
        ⟨new apparmorEnabled maxDownloads maxExtractions hd he thumbnailer,clock⟩ es) := by
  have hnew : ∀ Exempt, Windowed Exempt
      ⟨new apparmorEnabled maxDownloads maxExtractions hd he thumbnailer,clock⟩ :=
    fun _ => .new apparmorEnabled maxDownloads maxExtractions hd he thumbnailer clock
  have hstep : ∀ s e t, Windowed Overtaken s → Onward s e → (timed cfg).step s e = some t →
      Windowed Overtaken t :=
    fun _ _ _ hs hg ht => hs.step hg (fun _ htr => htr.exempts_overtaken hs.admission) ht
  have hwaits : ∀ s e, Windowed Overtaken s → Onward s e → (Respected cfg s e ↔ WaitsOut cfg s e) :=
    fun _ _ hs hg => hs.respected_iff hg
  have hiff := EventSystem.Machine.allSteps_iff_of_guarded hstep hwaits (hnew Overtaken) hclock
  refine ⟨hiff,fun h => hiff.mpr ?_,fun h => ?_⟩
  · exact h.mono fun _ _ hnone x hx ho => absurd ho (hnone x hx)
  · refine EventSystem.Machine.allSteps_of_guarded
      (fun _ _ _ hs hg ht => hs.step hg.1 (fun u _ => hg.2.exempts u) ht)
      (fun _ _ hs hg x hx => hs.retryOk hg.1 hx id) (hnew fun _ _ => False) (hclock.and h)

/-- A service that makes one download at a time. -/
def narrow : Timed := ⟨.new true 1 1 Int.one_pos Int.one_pos .fresh,0⟩

def albumArt (album : String) : Event := .request ":1.1" (.getAlbumArt "Metallica" album) ⟨48,48⟩

/-- The server does not answer a download. -/
def unanswered (h : ℕ) : Event := .downloadComplete h (.artReply ⟨.temporaryError,none⟩)

/-- One second after the start, the failure of the first download is noted. -/
def aSecondLater : World := { World.idle with now := nanosPerSecond }

/-- Three albums are wanted while one download can be made. -/
def threeAlbums : List (ℤ × Event) :=
  [albumArt "Load",go,go,.credentialsReply ":1.1" (.map 0 []),go,go,albumArt "Reload",go,go,
    albumArt "Garage",go,go,.check 0 .idle,.check 1 .idle,.check 2 .idle,.checkFinished 0,go,go,
    .checkFinished 1,go,.checkFinished 2,go,unanswered 0,go,go,go].map ((0,·))

/-- The first failure opens the window, and the second download fails, too. -/
def secondFailure : List (ℤ × Event) :=
  [.create 0 aSecondLater,unanswered 2,go].map ((nanosPerSecond,·))

/-- The second failure is reported after the first window, and the last request is started. -/
def waitedOut : List (ℤ × Event) :=
  threeAlbums ++ (nanosPerSecond,.create 0 aSecondLater) ::
    [unanswered 2,go,go].map ((30*nanosPerSecond,·))

def Effect.lookedUp : Effect → Option (ℕ × FetchStatus)
  | .ranThumbnail x status => some (x,status)
  | _ => none

/-- The look-ups alone tell who was overtaken. -/
theorem Overtaken.of_lookups {s : Service} {x y : ℕ} {later earlier : List (ℕ × FetchStatus)}
    (hlog : s.log.filterMap Effect.lookedUp = later ++ (x,.needsDownload) :: earlier)
    (herror : (y,.temporaryError) ∈ later) (hlooked : (y,.needsDownload) ∈ earlier) :
    Overtaken s x := by
  have hof : ∀ {es : List Effect} {z status}, (z,status) ∈ es.filterMap Effect.lookedUp →
      .ranThumbnail z status ∈ es := by
    intro es z status hz
    obtain ⟨a,ha,haz⟩ := List.mem_filterMap.mp hz
    cases a with
    | ranThumbnail =>
      cases haz
      exact ha
    | _ => cases haz
  obtain ⟨later',rest,hsplit,rfl,hrest⟩ := List.filterMap_eq_append_iff.mp hlog
  obtain ⟨skipped,a,earlier',rfl,-,ha,rfl⟩ := List.filterMap_eq_cons_iff.mp hrest
  cases a with
  | ranThumbnail =>
    cases ha
    refine ⟨later' ++ skipped,earlier',y,?_,List.mem_append_left _ (hof herror),?_⟩
    · rw [hsplit,List.append_assoc]
    · rw [hsplit]
      exact List.mem_append_right _
        (List.mem_append_right _ (List.mem_cons_of_mem _ (hof hlooked)))
  | _ => cases ha

/-- A step that is outside of the window, or calls no `download()`. -/
def Harmless (cfg : Config) (s : Timed) (e : ℤ × Event) : Prop :=
  s.service.thumbnailer.backoff.retryOk e.1 = true ∨
    ∀ t ∈ (timed cfg).step s e, t.service.called = s.service.called

instance (cfg : Config) (s : Timed) (e : ℤ × Event) : Decidable (Harmless cfg s e) :=
  inferInstanceAs (Decidable (_ ∨ _))

theorem Harmless.respected {cfg : Config} {s : Timed} {e : ℤ × Event} (h : Harmless cfg s e) :
    Respected cfg s e := by
  rintro x ⟨-,t,ht,hcount⟩
  refine h.resolve_right fun hsame => ?_
  rw [hsame t ht] at hcount
  exact lt_irrefl _ hcount

def waitedUntil : Timed := ((timed superuser).run narrow waitedOut).getD narrow

theorem backoffWindow_iff_waitedOut :
    (timed superuser).AllSteps Onward narrow waitedOut ∧
      (∃ t, (timed superuser).run narrow waitedOut = some t ∧ Overtaken t.service 1 ∧
        t.service.called = [1,2,0]) ∧
      (timed superuser).AllSteps (WaitsOut superuser) narrow waitedOut := by
  have hclock : (timed superuser).AllSteps Onward narrow waitedOut := by decide +kernel
  have hrun : (timed superuser).run narrow waitedOut = some waitedUntil :=
    eq_some_getD (by decide +kernel)
  have hlookups : waitedUntil.service.log.filterMap Effect.lookedUp =
      [(0,.temporaryError),(2,.needsDownload)] ++ (1,.needsDownload) :: [(0,.needsDownload)] := by
    decide +kernel
  have hharmless : (timed superuser).AllSteps (Harmless superuser) narrow waitedOut := by
    decide +kernel
  have hiff := backoffWindow_iff superuser true 1 1 Int.one_pos Int.one_pos .fresh 0 _ hclock
  exact ⟨hclock,⟨_,hrun,.of_lookups hlookups List.mem_cons_self List.mem_cons_self,
    by decide +kernel⟩,hiff.1.mp (hharmless.mono fun _ _ => Harmless.respected)⟩

def failedTwice : Timed :=
  ((timed superuser).run narrow (threeAlbums ++ secondFailure)).getD narrow

def lastStarted : Timed := ((timed superuser).step failedTwice (nanosPerSecond,go)).getD narrow

/-- The last request in the queue is started while the server is not to be contacted. -/
theorem backoffWindow_broken :
    ¬ ∀ es, (timed superuser).AllSteps Onward narrow es →
      (timed superuser).AllSteps (Respected superuser) narrow es := by
  intro h
  have hclock : (timed superuser).AllSteps Onward narrow
      (threeAlbums ++ secondFailure ++ [(nanosPerSecond,go)]) := by decide +kernel
  have hrun : (timed superuser).run narrow (threeAlbums ++ secondFailure) = some failedTwice :=
    eq_some_getD (by decide +kernel)
  have hstep : (timed superuser).step failedTwice (nanosPerSecond,go) = some lastStarted :=
    eq_some_getD (by decide +kernel)
  have hresp := EventSystem.Machine.allSteps_prefix (h _ hclock) hrun
  have hok := hresp 1 ⟨by decide +kernel,_,hstep,by decide +kernel⟩
  revert hok
  decide +kernel

end Service
end UnityThumbnailer
