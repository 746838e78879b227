import UnityThumbnailer.Records
import UnityThumbnailer.ThumbnailOutcome

/-! Handlers drive their requests in order: a first look-up, a download if it is needed, and
a second look-up when the download has finished. So `fetch()` meets only what it expects, and
no call of `thumbnail()` aborts. -/
namespace UnityThumbnailer
namespace Service

/-- The places before the first look-up has ended. -/
def Place.early : Place → Bool
  | .asking | .told _ | .checking => true
  | _ => false

/-- The places after the download has finished. -/
def Place.fetched : Place → Bool
  | .ended | .returning | .creating => true
  | _ => false

/-- The second look-up has a finished download, and the first one has none. -/
structure Downloads (s : Service) : Prop where
  before : ∀ x < s.next, s.begun.count x = 0 → (s.handlers x).request.download = none
  early : ∀ x p, At s x p → p.early = true → (s.handlers x).request.download = none
  finished : ∀ x p, At s x p → p.fetched = true → ∃ d,
    (s.handlers x).request.download = some d ∧ Completes (s.handlers x).request.media d = true

/-- Whoever calls `thumbnail()` next, with whatever it finds outside, the call does not fail
an assertion or reach an `abort()`. -/
def NeverAborts (s : Service) : Prop :=
  ∀ x w, At s x .checking ∨ At s x .creating → (s.thumbnail x w).1 ≠ .aborted

section

variable {cfg : Config} {e : Event} {s t : Service} {h x : ℕ} {p : Place}

theorem begun_mono (ht : Transition cfg s e t) (x : ℕ) : s.begun.count x ≤ t.begun.count x := by
  obtain ⟨es,hlog,-⟩ := ht.log
  unfold begun
  rw [hlog,List.filterMap_append,List.count_append]
  exact Nat.le_add_left ..

/-- Only the calls of a download and its end change it. -/
theorem Rewritten.download_same (hr : Rewritten s e t x) (hl : Lifecycle nothing s)
    (hat : At s x p) (hstarting : p ≠ .starting) (hdownloading : p ≠ .downloading) :
    (t.handlers x).request.download = (s.handlers x).request.download := by
  rcases hr.download with hd | hd | hd
  · exact hd
  · exact absurd (hat.unique hd hl) hstarting
  · exact absurd (hat.unique hd hl) hdownloading

theorem Rewritten.download_before (hr : Rewritten s e t x) (hl : Lifecycle nothing s)
    (hb : s.begun.count x = 0) :
    (t.handlers x).request.download = (s.handlers x).request.download := by
  have hnot : ∀ p, ¬ At s x p := fun p hat => by
    have hone := (hat.unfinished hl).1
    omega
  rcases hr.download with hd | hd | hd
  · exact hd
  · exact absurd hd (hnot _)
  · exact absurd hd (hnot _)

/-- A handler that gets its credentials has begun just now or waited for them. -/
theorem Received.early {u : Service} {c : Credentials} (hr : Received s u x c)
    (hl : Lifecycle nothing s) : x < s.next ∧
      ((∃ p, At s x p ∧ p.early = true) ∨ s.begun.count x = 0) := by
  cases hr with
  | replied hcalls =>
    have hat : At s x (.told c) := at_calls hcalls
    exact ⟨(hat.unfinished hl).2.2,.inl ⟨_,hat,rfl⟩⟩
  | known hcalls =>
    have hb := hl.before (begins_pos (at_calls hcalls))
    exact ⟨hb.2.2,.inr hb.1⟩

theorem Downloads.step (hd : Downloads s) (hl : Lifecycle nothing s) (ht : Transition cfg s e t) :
    Downloads t := by
  have hbefore : ∀ x, x < s.next → s.begun.count x = 0 →
      (t.handlers x).request.download = none := fun x hx hb =>
    ((ht.rewritten hx).download_before hl hb).trans (hd.before x hx hb)
  have hearly : ∀ {x q}, At s x q → q.early = true → (t.handlers x).request.download = none := by
    intro x q hat hq
    have hsame := (ht.rewritten (hat.unfinished hl).2.2).download_same hl hat
      (by rintro rfl; cases hq) (by rintro rfl; cases hq)
    exact hsame.trans (hd.early x q hat hq)
  have hfinished : ∀ {x q}, At s x q → q.fetched = true → ∃ d,
      (t.handlers x).request.download = some d ∧
        Completes (t.handlers x).request.media d = true := by
    intro x q hat hq
    have hr := ht.rewritten (hat.unfinished hl).2.2
    have hsame := hr.download_same hl hat (by rintro rfl; cases hq) (by rintro rfl; cases hq)
    rw [hsame,hr.media]
    exact hd.finished x q hat hq
  refine ⟨fun x hx hb => ?_,fun x p hat hp => ?_,fun x p hat hp => ?_⟩
  · have hb' : s.begun.count x = 0 := Nat.le_zero.mp (hb ▸ begun_mono ht x)
    by_cases hxs : x < s.next
    · exact hbefore x hxs hb'
    · rcases ht.next with hn | ⟨hn,peer,l,media,size,details,hnew,-⟩
      · omega
      · obtain rfl : x = s.next := by omega
        rw [hnew]
        rfl
  · cases ht.place hl hat with
    | stayed hold => exact hearly hold hp
    | asked hbegin =>
      have hb := hl.before (begins_pos hbegin)
      exact hbefore x hb.2.2 hb.1
    | told hold => exact hearly hold rfl
    | cleared hr hc =>
      obtain ⟨hx,⟨q,hq,hqe⟩ | hb⟩ := hr.early hl
      · exact hearly hq hqe
      · exact hbefore x hx hb
    | scheduled hold hs hplace => rcases hplace with rfl | rfl <;> cases hp
    | checked | dequeued | started | completed | released | returned | created => cases hp
  · cases ht.place hl hat with
    | stayed hold => exact hfinished hold hp
    | completed hold hnew hc =>
      have hx := (hold.elim (·.unfinished hl) (·.unfinished hl)).2.2
      rw [(ht.rewritten hx).media]
      exact ⟨_,hnew,hc⟩
    | released hold => exact hfinished hold rfl
    | returned hold => exact hfinished hold rfl
    | scheduled hold hs hplace => rcases hplace with rfl | rfl <;> cases hp
    | asked | told | cleared | checked | dequeued | started | created => cases hp

/-! ### What the second look-up meets -/

/-- Outcomes of `fetch()` that `thumbnail()` is prepared for: some errors never happen with
local media. -/
def Expected : ImageData → Prop
  | .image .. => True
  | .failed status _ location => status = .needsDownload ∨ status = .networkDown ∨
    status = .notFound ∨ status = .hardError ∨
      (status = .temporaryError ∨ status = .timeout) ∧ location = .remote

/-- The download of a request when it looks an image up. -/
def Ready (r : Request) : Prop :=
  r.download = none ∨ ∃ d, r.download = some d ∧ Completes r.media d = true

theorem fetchLocal_expected (w : World) (filename : String) (download : Option Download)
    (size : QSize) : Expected (fetchLocal w filename download size) := by
  unfold fetchLocal
  split
  · split <;> simp [Expected]
  · split
    · simp [Expected]
    · split <;> simp [Expected]
    · split
      · simp [Expected]
      · simp [Expected]
      · split <;> simp [Expected]
    · simp [Expected]
    · simp [Expected]

theorem commonFetch_expected {download : Option Download}
    (hd : ∀ reply, download = some (.artReply reply) → reply.status ≠ .notFinished) :
    ∃ d, commonFetch download = some d ∧ Expected d := by
  unfold commonFetch
  split
  · rename_i reply
    have hstatus := hd reply rfl
    cases hs : reply.status with
    | notFinished => exact absurd hs hstatus
    | success =>
      dsimp only
      split <;> exact ⟨_,rfl,by simp [Expected]⟩
    | _ => exact ⟨_,rfl,by simp [Expected]⟩
  · exact ⟨_,rfl,by simp [Expected]⟩

/-- The three implementations of `fetch()`, driven in order. -/
theorem fetch_expected (w : World) {r : Request} (size : QSize) (hr : Ready r) :
    ∃ d, fetch w r size = some d ∧ Expected d := by
  have hremote : ∀ reply, r.download = some (.artReply reply) →
      (∀ filename st, r.media ≠ .localFile filename st) → reply.status ≠ .notFinished := by
    intro reply hreply hmedia
    rcases hr with hnone | ⟨d,hd,hc⟩
    · rw [hnone] at hreply
      cases hreply
    · obtain rfl : d = .artReply reply := Option.some.inj (hd.symm.trans hreply)
      cases hm : r.media with
      | localFile filename st => exact absurd hm (hmedia filename st)
      | album | artist =>
        rw [hm] at hc
        simpa [Completes] using hc
  unfold fetch
  cases hm : r.media with
  | localFile filename st => exact ⟨_,rfl,fetchLocal_expected ..⟩
  | album | artist =>
    exact commonFetch_expected fun reply hreply => hremote reply hreply (by simp [hm])

section Look

variable {thumbnailer : Thumbnailer} {w : World} {r : Request}

theorem saveThumbnail_ends (status : FetchStatus) (scaled : Image) :
    (thumbnailer.saveThumbnail w r status scaled).outcome ≠ .aborted := by
  unfold Thumbnailer.saveThumbnail
  split <;> simp [Thumbnailer.unexpected]

theorem scaleFetched_ends (image : Image) (policy : CachePolicy) :
    (thumbnailer.scaleFetched w r image policy).outcome ≠ .aborted := by
  unfold Thumbnailer.scaleFetched
  split
  · simp [Thumbnailer.unexpected]
  · split
    · simp [Thumbnailer.unexpected]
    · exact saveThumbnail_ends _ _

theorem handleFetched_ends {d : ImageData} (hd : Expected d) :
    (thumbnailer.handleFetched w r d).outcome ≠ .aborted := by
  cases d with
  | image image policy location => exact scaleFetched_ends _ _
  | failed status policy location =>
    rcases hd with rfl | rfl | rfl | rfl | ⟨rfl | rfl,rfl⟩
    · simp only [Thumbnailer.handleFetched]
      split_ifs <;> simp
    all_goals simp [Thumbnailer.handleFetched]

theorem thumbnail_ends (hr : Ready r) : (thumbnailer.thumbnail w r).outcome ≠ .aborted := by
  rw [Thumbnailer.thumbnail_eq]
  cases hv : r.requestedSize.isValid with
  | false => simp [Thumbnailer.thumbnailWith,hv,Thumbnailer.unexpected]
  | true =>
    by_cases hholds : thumbnailer.Holds w r
    · have hheld := Thumbnailer.thumbnail_held hv hholds
      rw [Thumbnailer.thumbnail_eq] at hheld
      generalize thumbnailer.thumbnailWith w r (fetch w r) = result at hheld ⊢
      cases hheld with
      | hit | failure | broken => simp [Thumbnailer.unexpected]
      | scaled => exact saveThumbnail_ends _ _
    · obtain ⟨d,hd,hexpected⟩ := fetch_expected w (thumbnailer.targetSize r.requestedSize) hr
      rw [Thumbnailer.thumbnailWith_of_fetch hv hholds hd]
      exact handleFetched_ends hexpected

end Look

theorem Downloads.neverAborts (hd : Downloads s) : NeverAborts s := by
  intro x w hat
  refine thumbnail_ends ?_
  rcases hat with hat | hat
  · exact .inl (hd.early x _ hat rfl)
  · exact .inr (hd.finished x _ hat rfl)

theorem downloads_step (hs : Sound s ∧ Downloads s) (ht : (machine cfg).step s e = some t) :
    Sound t ∧ Downloads t :=
  ⟨hs.1.step ht,hs.2.step hs.1.lifecycle (hs.1.transition_of_step ht)⟩

end

theorem Downloads.new (apparmorEnabled : Bool) (maxDownloads maxExtractions : ℤ)
    (hd : 0 < maxDownloads) (he : 0 < maxExtractions) (thumbnailer : Thumbnailer) :
    Downloads (new apparmorEnabled maxDownloads maxExtractions hd he thumbnailer) :=
  ⟨fun _ _ _ => rfl,fun _ _ hat => absurd hat.work_pos (lt_irrefl 0),
    fun _ _ hat => absurd hat.work_pos (lt_irrefl 0)⟩

/-- What `thumbnail()` returns and leaves behind is decided by the caches and, where they
have no answer, by what `fetch()` reports; and in every run of the service `fetch()` reports
nothing that `thumbnail()` is not prepared for. -/
theorem thumbnail_accounted :
    (∀ (t : Thumbnailer) (w : World) (r : Request) (fetch : QSize → Option ImageData)
      (data : Option ImageFile), (t.thumbnailWith w r fetch).outcome = .returned data →
        t.Effects w r fetch data) ∧
    (∀ t w r, Thumbnailer.thumbnail t w r = t.thumbnailWith w r (fetch w r)) ∧
    ∀ (cfg : Config) (apparmorEnabled : Bool) (maxDownloads maxExtractions : ℤ)
      (hd : 0 < maxDownloads) (he : 0 < maxExtractions) (thumbnailer : Thumbnailer)
      (es : List Event), (machine cfg).Always NeverAborts
        (new apparmorEnabled maxDownloads maxExtractions hd he thumbnailer) es := by
  refine ⟨fun t w r fetch data h => Thumbnailer.effects h,Thumbnailer.thumbnail_eq,?_⟩
  intro cfg apparmorEnabled maxDownloads maxExtractions hd he thumbnailer es
  have hstep : ∀ s e t, Sound s ∧ Downloads s → (machine cfg).step s e = some t →
      Sound t ∧ Downloads t := fun _ _ _ => downloads_step
  exact EventSystem.Machine.always_of_invariant hstep (fun _ hs => hs.2.neverAborts) es
    ⟨.new apparmorEnabled maxDownloads maxExtractions hd he thumbnailer,
      .new apparmorEnabled maxDownloads maxExtractions hd he thumbnailer⟩

theorem thumbnail_accounted_notFound :
    Thumbnailer.Effects .fresh .idle (.new (.album "Metallica" "Load") ⟨48,48⟩)
        (fun _ => some (.failed .notFound .cacheFullsize .remote)) none ∧
      (machine ⟨0,fun _ _ => .ok true⟩).Always NeverAborts
        (new true 2 2 (by decide) (by decide) .fresh) [.evict .failure ""] :=
  ⟨thumbnail_accounted.1 _ _ _ _ _ rfl,thumbnail_accounted.2.2 _ true 2 2 _ _ _ _⟩

end Service
end UnityThumbnailer
