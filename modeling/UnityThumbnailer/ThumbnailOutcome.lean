import UnityThumbnailer.ThumbnailRequest

/-! What a call of `thumbnail()` returns and what it leaves behind, whatever the virtual
`fetch()` of the request reports. -/
namespace UnityThumbnailer
namespace Thumbnailer

/-- `RequestBase::thumbnail()` over any `fetch()`. -/
def thumbnailWith (t : Thumbnailer) (w : World) (r : Request) (fetch : QSize → Option ImageData) :
    Result :=
  if !r.requestedSize.isValid then
    ⟨unexpected r s!"invalid size: ({r.requestedSize.width},{r.requestedSize.height})",t,r.status⟩
  else
    let size := t.targetSize r.requestedSize
    match t.thumbnailCache (sizedKey r.key size) with
    | some data => ⟨.returned (some data),t,.cacheHit⟩
    | none =>
      match t.fullSizeCache r.key with
      | some fullSize =>
        match Image.load fullSize size with
        | .error e => ⟨unexpected r e,t,.scaledFromFullsize⟩
        | .ok scaled => t.saveThumbnail w r .scaledFromFullsize scaled
      | none =>
        if t.failureHit r.key w.now then ⟨.returned none,t,.cachedFailure⟩
        else
          match fetch size with
          | none => ⟨.aborted,t,r.status⟩
          | some imageData => t.handleFetched w r imageData

/-- A cache has an answer to the request. -/
def Holds (t : Thumbnailer) (w : World) (r : Request) : Prop :=
  (t.thumbnailCache (sizedKey r.key (t.targetSize r.requestedSize))).isSome = true ∨
    (t.fullSizeCache r.key).isSome = true ∨ t.failureHit r.key w.now = true

instance (t : Thumbnailer) (w : World) (r : Request) : Decidable (t.Holds w r) :=
  inferInstanceAs (Decidable (_ ∨ _ ∨ _))

/-- What `fetch()` reported, if it was called. -/
def fetched (t : Thumbnailer) (w : World) (r : Request) (fetch : QSize → Option ImageData) :
    Option ImageData :=
  if t.Holds w r then none else fetch (t.targetSize r.requestedSize)

/-- A definite answer that there is no image. -/
def Authoritative (d : ImageData) : Prop := d.status = .notFound ∨ d.status = .hardError

/-- An outcome that may be different the next time. -/
def Transient (d : ImageData) : Prop :=
  d.status = .needsDownload ∨ d.status = .networkDown ∨ d.status = .timeout ∨
    d.status = .temporaryError

/-- The backoff after a fetch. -/
def backoffAfter (b : BackoffAdjuster) (now : ℤ) : Option ImageData → BackoffAdjuster
  | none => b
  | some d =>
    match d.location,d.status with
    | .remote,.downloaded | .remote,.notFound | .remote,.hardError => b.reset now
    | .remote,.temporaryError => (b.adjustRetryLimit now).1
    | _,_ => b

/-- What a remote server does not have now, it may have later; other failures are for good. -/
def expiry (t : Thumbnailer) (now : ℤ) (d : ImageData) : Option ℤ :=
  if d.location = .remote ∧ d.status = .notFound then
    some (now+t.retryNotFoundHours*3600*nanosPerSecond)
  else none

/-- The failure cache holds the failure, if it took the entry, and for other keys what it held
before. -/
structure FailureNoted (t : Thumbnailer) (w : World) (r : Request) (d : ImageData)
    (u : Thumbnailer) : Prop where
  taken : w.accepts .failure = true → u.failureCache r.key = some (t.expiry w.now d)
  refused : w.accepts .failure = false → u.failureCache r.key = t.failureCache r.key
  others : ∀ key, key ≠ r.key → u.failureCache key = t.failureCache key

/-- The outcome and the effects of a call that returns `data`. -/
structure Effects (t : Thumbnailer) (w : World) (r : Request) (fetch : QSize → Option ImageData)
    (data : Option ImageFile) : Prop where
  data_iff : data.isSome = true ↔ (t.thumbnailWith w r fetch).status = .cacheHit ∨
    (t.thumbnailWith w r fetch).status = .scaledFromFullsize ∨
      (t.thumbnailWith w r fetch).status = .downloaded
  /-- `fetch()` is not called: whatever it would report, the call is the same. -/
  held : t.Holds w r → ∀ other, t.thumbnailWith w r other = t.thumbnailWith w r fetch
  failed : ∀ d, t.fetched w r fetch = some d → Authoritative d →
    FailureNoted t w r d (t.thumbnailWith w r fetch).thumbnailer
  notFailed : (∀ d, t.fetched w r fetch = some d → ¬ Authoritative d) →
    (t.thumbnailWith w r fetch).thumbnailer.failureCache = t.failureCache
  unchanged : ∀ d, t.fetched w r fetch = some d → Transient d →
    (t.thumbnailWith w r fetch).thumbnailer.fullSizeCache = t.fullSizeCache ∧
      (t.thumbnailWith w r fetch).thumbnailer.thumbnailCache = t.thumbnailCache ∧
        (t.thumbnailWith w r fetch).thumbnailer.failureCache = t.failureCache
  backoff : (t.thumbnailWith w r fetch).thumbnailer.backoff =
    backoffAfter t.backoff w.now (t.fetched w r fetch)

/-- The same for a call that `fetch()` has reported something to. -/
structure Handled (t : Thumbnailer) (w : World) (r : Request) (d : ImageData)
    (data : Option ImageFile) (result : Result) : Prop where
  data_iff : data.isSome = true ↔ result.status = .cacheHit ∨
    result.status = .scaledFromFullsize ∨ result.status = .downloaded
  failed : Authoritative d → FailureNoted t w r d result.thumbnailer
  notFailed : ¬ Authoritative d → result.thumbnailer.failureCache = t.failureCache
  unchanged : Transient d → result.thumbnailer.fullSizeCache = t.fullSizeCache ∧
    result.thumbnailer.thumbnailCache = t.thumbnailCache ∧
      result.thumbnailer.failureCache = t.failureCache
  backoff : result.thumbnailer.backoff = backoffAfter t.backoff w.now (some d)

section

variable {t : Thumbnailer} {w : World} {r : Request} {fetch : QSize → Option ImageData}
  {data : Option ImageFile}

theorem thumbnail_eq (t : Thumbnailer) (w : World) (r : Request) :
    t.thumbnail w r = t.thumbnailWith w r (UnityThumbnailer.fetch w r) := rfl

theorem putFailure_noted {d : ImageData} :
    FailureNoted t w r d (t.putFailure w r.key (t.expiry w.now d)) where
  taken htaken := by
    simp [putFailure,put,htaken]
  refused hrefused := by
    simp [putFailure,put,hrefused]
  others key hkey := by
    unfold putFailure put
    split_ifs
    · exact Function.update_of_ne hkey ..
    · rfl

/-- What a server has answered is noted in the backoff only. -/
theorem FailureNoted.noteAnswer {d : ImageData} {u : Thumbnailer} (h : FailureNoted t w r d u)
    (location : Location) : FailureNoted t w r d (u.noteAnswer w location) := by
  have hsame : (u.noteAnswer w location).failureCache = u.failureCache := by
    unfold Thumbnailer.noteAnswer
    split <;> rfl
  exact ⟨hsame ▸ h.taken,hsame ▸ h.refused,hsame ▸ h.others⟩

/-- A result that carries data and changed nothing but the two image caches. -/
structure Delivers (t : Thumbnailer) (status : FetchStatus) (data : Option ImageFile)
    (result : Result) : Prop where
  isSome : data.isSome = true
  status : result.status = status
  failureCache : result.thumbnailer.failureCache = t.failureCache
  backoff : result.thumbnailer.backoff = t.backoff

theorem saveThumbnail_delivers {status : FetchStatus} {scaled : Image}
    (h : (t.saveThumbnail w r status scaled).outcome = .returned data) :
    Delivers t status data (t.saveThumbnail w r status scaled) := by
  unfold saveThumbnail at h ⊢
  split at h
  · cases h
  · rename_i d hd
    obtain rfl := Outcome.returned.inj h
    exact ⟨rfl,rfl,rfl,rfl⟩

/-- A full-size image that is kept changes the full-size cache only. -/
theorem keepFullSize_ok {key : String} {image kept : Image} {u : Thumbnailer}
    (h : t.keepFullSize w key image = .ok (u,kept)) : ∃ file, u = t.putFullSize w key file := by
  have hstore : ∀ {i : Image}, (do
      let file ← i.jpegOrPngData 90
      return (t.putFullSize w key file,i) : Except String (Thumbnailer × Image)) = .ok (u,kept) →
        ∃ file, u = t.putFullSize w key file := by
    intro i hi
    cases hfile : i.jpegOrPngData 90 with
    | error what =>
      rw [hfile] at hi
      cases hi
    | ok file =>
      rw [hfile] at hi
      exact ⟨file,(Prod.mk.inj (Except.ok.inj hi)).1.symm⟩
  unfold keepFullSize at h
  split at h
  · cases hscale : image.scale ⟨t.maxSize,t.maxSize⟩ with
    | error what =>
      rw [hscale] at h
      cases h
    | ok reduced =>
      rw [hscale] at h
      exact hstore h
  · exact hstore h

theorem scaleFetched_delivers {image : Image} {policy : CachePolicy}
    (h : (t.scaleFetched w r image policy).outcome = .returned data) :
    Delivers t .downloaded data (t.scaleFetched w r image policy) := by
  unfold scaleFetched at h ⊢
  split at h
  · cases h
  · rename_i u kept hkept
    have hu : u.failureCache = t.failureCache ∧ u.backoff = t.backoff := by
      split at hkept
      · obtain ⟨file,rfl⟩ := keepFullSize_ok hkept
        exact ⟨rfl,rfl⟩
      · obtain ⟨rfl,rfl⟩ := Prod.mk.inj (Except.ok.inj hkept)
        exact ⟨rfl,rfl⟩
    split at h
    · cases h
    · have hd := saveThumbnail_delivers h
      exact ⟨hd.isSome,hd.status,hd.failureCache.trans hu.1,hd.backoff.trans hu.2⟩

/-! ### With and without `fetch()` -/

/-- A call that returns had a valid size. -/
theorem returned_valid (h : (t.thumbnailWith w r fetch).outcome = .returned data) :
    r.requestedSize.isValid = true := by
  cases hv : r.requestedSize.isValid with
  | true => rfl
  | false =>
    unfold thumbnailWith at h
    simp only [hv,Bool.not_false,if_true] at h
    cases h

theorem not_holds (hmiss : ¬ t.Holds w r) :
    t.thumbnailCache (sizedKey r.key (t.targetSize r.requestedSize)) = none ∧
      t.fullSizeCache r.key = none ∧ t.failureHit r.key w.now = false := by
  unfold Holds at hmiss
  push Not at hmiss
  obtain ⟨hthumbnail,hfull,hfailure⟩ := hmiss
  exact ⟨Option.not_isSome_iff_eq_none.mp hthumbnail,Option.not_isSome_iff_eq_none.mp hfull,
    Bool.eq_false_iff.mpr hfailure⟩

/-- Without an answer the call is what is made of the outcome of `fetch()`. -/
theorem thumbnailWith_of_fetch {d : ImageData} (hv : r.requestedSize.isValid = true)
    (hmiss : ¬ t.Holds w r) (hd : fetch (t.targetSize r.requestedSize) = some d) :
    t.thumbnailWith w r fetch = t.handleFetched w r d := by
  obtain ⟨hthumbnail,hfull,hfailure⟩ := not_holds hmiss
  unfold thumbnailWith
  simp only [hv,hthumbnail,hfull,hfailure,hd,Bool.not_true,Bool.false_eq_true,if_false]

theorem thumbnailWith_of_abort (hv : r.requestedSize.isValid = true) (hmiss : ¬ t.Holds w r)
    (hd : fetch (t.targetSize r.requestedSize) = none) :
    t.thumbnailWith w r fetch = ⟨.aborted,t,r.status⟩ := by
  obtain ⟨hthumbnail,hfull,hfailure⟩ := not_holds hmiss
  unfold thumbnailWith
  simp only [hv,hthumbnail,hfull,hfailure,hd,Bool.not_true,Bool.false_eq_true,if_false]

/-- An answer of a cache: the thumbnail, the image scaled, or the failure. -/
inductive Held (t : Thumbnailer) (w : World) (r : Request) : Result → Prop
  | hit {file : ImageFile} : Held t w r ⟨.returned (some file),t,.cacheHit⟩
  | broken {e : String} : Held t w r ⟨unexpected r e,t,.scaledFromFullsize⟩
  | scaled {image : Image} : Held t w r (t.saveThumbnail w r .scaledFromFullsize image)
  | failure : Held t w r ⟨.returned none,t,.cachedFailure⟩

theorem thumbnailWith_of_holds (hv : r.requestedSize.isValid = true) (hholds : t.Holds w r) :
    Held t w r (t.thumbnailWith w r fetch) := by
  unfold thumbnailWith
  simp only [hv,Bool.not_true,Bool.false_eq_true,if_false]
  split
  · exact .hit
  · rename_i hthumbnail
    split
    · split
      · exact .broken
      · exact .scaled
    · rename_i hfull
      have hfailure : t.failureHit r.key w.now = true := by
        rcases hholds with h | h | h
        · rw [hthumbnail] at h
          cases h
        · rw [hfull] at h
          cases h
        · exact h
      rw [if_pos hfailure]
      exact .failure

theorem thumbnail_held (hv : r.requestedSize.isValid = true) (hholds : t.Holds w r) :
    Held t w r (t.thumbnail w r) :=
  thumbnailWith_of_holds hv hholds

theorem held_same (hholds : t.Holds w r) (other : QSize → Option ImageData) :
    t.thumbnailWith w r other = t.thumbnailWith w r fetch := by
  unfold thumbnailWith
  split
  · rfl
  · simp only
    split
    · rfl
    · rename_i hthumbnail
      split
      · rfl
      · rename_i hfull
        rcases hholds with h | h | h
        · rw [hthumbnail] at h
          cases h
        · rw [hfull] at h
          cases h
        · rw [if_pos h,if_pos h]

/-- A fetch that reports no image. -/
theorem handleFetched_failed_effects {status : FetchStatus} {policy : CachePolicy}
    {location : Location}
    (h : (t.handleFetched w r (.failed status policy location)).outcome = .returned data) :
    Handled t w r (.failed status policy location) data
      (t.handleFetched w r (.failed status policy location)) := by
  cases status with
  | cacheHit | scaledFromFullsize | cachedFailure | downloaded => cases h
  | networkDown =>
    obtain rfl := Outcome.returned.inj h
    exact ⟨by simp [handleFetched],by simp [Authoritative,ImageData.status],fun _ => rfl,
      fun _ => ⟨rfl,rfl,rfl⟩,by cases location <;> rfl⟩
  | needsDownload =>
    have hsame : ∃ status, t.handleFetched w r (.failed .needsDownload policy location) =
        ⟨.returned none,t,status⟩ ∧ (status = .temporaryError ∨ status = .needsDownload) := by
      simp only [handleFetched]
      split_ifs
      · exact ⟨_,rfl,.inl rfl⟩
      · exact ⟨_,rfl,.inr rfl⟩
    obtain ⟨status,heq,hstatus⟩ := hsame
    rw [heq] at h ⊢
    obtain rfl := Outcome.returned.inj h
    refine ⟨?_,by simp [Authoritative,ImageData.status],fun _ => rfl,fun _ => ⟨rfl,rfl,rfl⟩,
      by cases location <;> rfl⟩
    rcases hstatus with rfl | rfl <;> simp
  | notFound =>
    obtain rfl := Outcome.returned.inj h
    refine ⟨by simp [handleFetched],fun _ => ?_,by simp [Authoritative,ImageData.status],
      by simp [Transient,ImageData.status],by cases location <;> rfl⟩
    have hnoted := (putFailure_noted (t:=t) (w:=w) (r:=r)
      (d:=.failed .notFound policy location)).noteAnswer location
    cases location <;> exact hnoted
  | hardError =>
    obtain rfl := Outcome.returned.inj h
    refine ⟨by simp [handleFetched],fun _ => ?_,by simp [Authoritative,ImageData.status],
      by simp [Transient,ImageData.status],by cases location <;> rfl⟩
    have hnoted := (putFailure_noted (t:=t) (w:=w) (r:=r)
      (d:=.failed .hardError policy location)).noteAnswer location
    cases location <;> exact hnoted
  | temporaryError | timeout =>
    cases location with
    | localMedia => cases h
    | remote =>
      obtain rfl := Outcome.returned.inj h
      exact ⟨by simp [handleFetched],by simp [Authoritative,ImageData.status],fun _ => rfl,
        fun _ => ⟨rfl,rfl,rfl⟩,rfl⟩

theorem handleFetched_effects {d : ImageData}
    (h : (t.handleFetched w r d).outcome = .returned data) : Handled t w r d data (t.handleFetched w r d) := by
  cases d with
  | failed status policy location => exact handleFetched_failed_effects h
  | image image policy location =>
    have hd := scaleFetched_delivers h
    refine ⟨⟨fun _ => .inr (.inr hd.status),fun _ => hd.isSome⟩,fun ha => ?_,fun _ => ?_,fun ht => ?_,?_⟩
    · rcases ha with ha | ha <;> cases ha
    · refine hd.failureCache.trans ?_
      unfold noteAnswer
      split <;> rfl
    · rcases ht with ht | ht | ht | ht <;> cases ht
    · refine hd.backoff.trans ?_
      cases location <;> rfl

/-- A request that a cache answers. -/
theorem effects_of_holds (h : (t.thumbnailWith w r fetch).outcome = .returned data)
    (hholds : t.Holds w r) : Effects t w r fetch data := by
  have hheld : Held t w r (t.thumbnailWith w r fetch) :=
    thumbnailWith_of_holds (returned_valid h) hholds
  have hfetched : t.fetched w r fetch = none := if_pos hholds
  have hsame : (data.isSome = true ↔ (t.thumbnailWith w r fetch).status = .cacheHit ∨
      (t.thumbnailWith w r fetch).status = .scaledFromFullsize ∨
        (t.thumbnailWith w r fetch).status = .downloaded) ∧
      (t.thumbnailWith w r fetch).thumbnailer.failureCache = t.failureCache ∧
        (t.thumbnailWith w r fetch).thumbnailer.backoff = t.backoff := by
    generalize t.thumbnailWith w r fetch = result at h hheld ⊢
    cases hheld with
    | hit =>
      obtain rfl := Outcome.returned.inj h
      exact ⟨by simp,rfl,rfl⟩
    | broken => cases h
    | scaled =>
      have hd := saveThumbnail_delivers h
      exact ⟨⟨fun _ => .inr (.inl hd.status),fun _ => hd.isSome⟩,hd.failureCache,hd.backoff⟩
    | failure =>
      obtain rfl := Outcome.returned.inj h
      exact ⟨by simp,rfl,rfl⟩
  refine ⟨hsame.1,fun _ => held_same hholds,fun d hd => ?_,fun _ => hsame.2.1,fun d hd => ?_,?_⟩
  · rw [hfetched] at hd
    cases hd
  · rw [hfetched] at hd
    cases hd
  · rw [hfetched]
    exact hsame.2.2

/-- A request that only `fetch()` can answer. -/
theorem effects_of_not_holds (h : (t.thumbnailWith w r fetch).outcome = .returned data)
    (hmiss : ¬ t.Holds w r) : Effects t w r fetch data := by
  have hv := returned_valid h
  have hfetched : t.fetched w r fetch = fetch (t.targetSize r.requestedSize) := if_neg hmiss
  cases hf : fetch (t.targetSize r.requestedSize) with
  | none =>
    rw [thumbnailWith_of_abort hv hmiss hf] at h
    cases h
  | some d =>
    have heq := thumbnailWith_of_fetch hv hmiss hf
    rw [hf] at hfetched
    rw [heq] at h
    have hd := handleFetched_effects h
    rw [← heq] at hd
    have honly : ∀ d', t.fetched w r fetch = some d' → d' = d := fun d' hd' =>
      Option.some.inj (hd'.symm.trans hfetched)
    refine ⟨hd.data_iff,fun hholds => absurd hholds hmiss,fun d' hd' => ?_,fun hnot => ?_,
      fun d' hd' => ?_,?_⟩
    · rw [honly d' hd']
      exact hd.failed
    · exact hd.notFailed (hnot d hfetched)
    · rw [honly d' hd']
      exact hd.unchanged
    · rw [hfetched]
      exact hd.backoff

/-- What a call that returns has done, for any state of the caches and any `fetch()`. -/
theorem effects (h : (t.thumbnailWith w r fetch).outcome = .returned data) :
    Effects t w r fetch data := by
  by_cases hholds : t.Holds w r
  · exact effects_of_holds h hholds
  · exact effects_of_not_holds h hholds

end

/-- Every way that a look-up can go. -/
inductive Looked (t : Thumbnailer) (w : World) (r : Request) : Result → Prop
  | threw {what : String} {status : FetchStatus} : Looked t w r ⟨unexpected r what,t,status⟩
  | hit {data : ImageFile}
    (hdata : t.thumbnailCache (sizedKey r.key (t.targetSize r.requestedSize)) = some data) :
    Looked t w r ⟨.returned (some data),t,.cacheHit⟩
  | scaled {fullSize : ImageFile} {image : Image} (hv : r.requestedSize.isValid = true)
    (hfull : t.fullSizeCache r.key = some fullSize)
    (hload : Image.load fullSize (t.targetSize r.requestedSize) = .ok image) :
    Looked t w r (t.saveThumbnail w r .scaledFromFullsize image)
  | failure : Looked t w r ⟨.returned none,t,.cachedFailure⟩
  | aborted : Looked t w r ⟨.aborted,t,r.status⟩
  | fetched {d : ImageData} (hv : r.requestedSize.isValid = true)
    (hfetch : fetch w r (t.targetSize r.requestedSize) = some d) :
    Looked t w r (t.handleFetched w r d)

theorem looked (t : Thumbnailer) (w : World) (r : Request) : Looked t w r (t.thumbnail w r) := by
  cases hv : r.requestedSize.isValid with
  | false =>
    simp only [thumbnail,hv,Bool.not_false,if_true]
    exact .threw
  | true =>
    simp only [thumbnail,hv,Bool.not_true,Bool.false_eq_true,if_false]
    split
    · rename_i data hdata
      exact .hit hdata
    · split
      · rename_i fullSize hfull
        split
        · exact .threw
        · rename_i image hload
          exact .scaled hv hfull hload
      · split
        · exact .failure
        · split
          · exact .aborted
          · rename_i d hfetch
            exact .fetched hv hfetch

end Thumbnailer
end UnityThumbnailer
