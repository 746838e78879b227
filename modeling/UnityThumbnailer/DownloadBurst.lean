import UnityThumbnailer.Downloads
import UnityThumbnailer.Serialization
import UnityThumbnailer.Transparency

/-! One download serves all requests for its key. What it leaves in the full-size or the
failure cache answers the first look-up of every request that was waiting or comes later. -/
namespace UnityThumbnailer
namespace Service

/-- The cache that remembers the outcome of a download, if one does. -/
def remembers : FetchStatus → Option Cache
  | .downloaded => some .fullSize
  | .notFound | .hardError => some .failure
  | _ => none

/-- The cache has an entry for the key, expired or not. -/
def Stored (t : Thumbnailer) (cache : Cache) (key : String) : Prop :=
  match cache with
  | .fullSize => (t.fullSizeCache key).isSome = true
  | .thumbnail => False
  | .failure => (t.failureCache key).isSome = true

/-- The step leaves the entry in the cache, and a look-up for the key comes before it expires. -/
def Spares (cache : Cache) (key : String) (s : Service) : Event → Prop
  | .evict c k => ¬ (c = cache ∧ k = key)
  | .check x w => (s.handlers x).key = key → cache = .failure →
    ∀ expiry, s.thumbnailer.failureCache key = some (some expiry) → w.now < expiry
  | _ => True

/-- No request for the key has called `download()` since the state `s`. -/
def NoDownload (key : String) (s t : Service) : Prop :=
  ∃ es, t.log = es ++ s.log ∧ ∀ x, .calledDownload x ∈ es →
    x < t.next ∧ (t.handlers x).key ≠ key

/-- A place that leads to no call of `download()`. -/
def Settled (s : Service) (x : ℕ) : Place → Prop
  | .queued | .starting => False
  | .checked result => result = ⟨none,none⟩ → (s.handlers x).request.status ≠ .needsDownload
  | _ => True

/-- The entry is there, and no request for the key is on its way to a download. -/
structure Stocked (cache : Cache) (key : String) (s : Service) : Prop where
  stored : Stored s.thumbnailer cache key
  settled : ∀ x p, (s.handlers x).key = key → At s x p → Settled s x p

section Look

variable {t : Thumbnailer} {w : World} {r : Request} {cache : Cache} {key : String}

theorem put_isSome {α : Type} {c : String → Option α} {accepted : Bool} {k : String} {v : α}
    (h : (c key).isSome = true) : (Thumbnailer.put c accepted k v key).isSome = true := by
  unfold Thumbnailer.put
  split
  · by_cases hk : key = k
    · rw [hk,Function.update_self]
      rfl
    · rw [Function.update_of_ne hk]
      exact h
  · exact h

/-- Entries are added and replaced. -/
def Grows (t u : Thumbnailer) : Prop := ∀ cache key, Stored t cache key → Stored u cache key

theorem Grows.refl (t : Thumbnailer) : Grows t t := fun _ _ h => h

theorem Grows.trans {u v : Thumbnailer} (h : Grows t u) (h' : Grows u v) : Grows t v :=
  fun cache key hs => h' cache key (h cache key hs)

/-- Neither cache is touched. -/
theorem Grows.of_eq {u : Thumbnailer} (hfull : u.fullSizeCache = t.fullSizeCache)
    (hfailure : u.failureCache = t.failureCache) : Grows t u := by
  intro cache key h
  cases cache with
  | fullSize =>
    change (u.fullSizeCache key).isSome = true
    rw [hfull]
    exact h
  | thumbnail => exact h
  | failure =>
    change (u.failureCache key).isSome = true
    rw [hfailure]
    exact h

theorem Grows.putFullSize (k : String) (file : ImageFile) : Grows t (t.putFullSize w k file) := by
  intro cache key h
  cases cache with
  | fullSize => exact put_isSome h
  | thumbnail | failure => exact h

theorem Grows.putFailure (k : String) (expiry : Option ℤ) : Grows t (t.putFailure w k expiry) := by
  intro cache key h
  cases cache with
  | failure => exact put_isSome h
  | thumbnail | fullSize => exact h

theorem Grows.noteAnswer (location : Location) : Grows t (t.noteAnswer w location) := by
  unfold Thumbnailer.noteAnswer
  split
  · exact .of_eq rfl rfl
  · exact .refl t

theorem saveThumbnail_grows (status : FetchStatus) (scaled : Image) :
    Grows t (t.saveThumbnail w r status scaled).thumbnailer := by
  unfold Thumbnailer.saveThumbnail
  split
  · exact .refl t
  · exact .of_eq rfl rfl

theorem scaleFetched_grows (image : Image) (policy : CachePolicy) :
    Grows t (t.scaleFetched w r image policy).thumbnailer := by
  unfold Thumbnailer.scaleFetched
  split
  · exact .refl t
  · rename_i u kept hkept
    have hu : Grows t u := by
      split at hkept
      · obtain ⟨file,rfl⟩ := Thumbnailer.keepFullSize_ok hkept
        exact .putFullSize _ file
      · obtain ⟨rfl,rfl⟩ := Prod.mk.inj (Except.ok.inj hkept)
        exact .refl t
    split
    · exact hu
    · exact hu.trans (saveThumbnail_grows _ _)

theorem handleFetched_grows (d : ImageData) : Grows t (t.handleFetched w r d).thumbnailer := by
  cases d with
  | image image policy location =>
    exact (Grows.noteAnswer location).trans (scaleFetched_grows image policy)
  | failed status policy location =>
    cases status with
    | notFound | hardError => exact (Grows.putFailure r.key _).trans (.noteAnswer location)
    | needsDownload =>
      simp only [Thumbnailer.handleFetched]
      split_ifs <;> exact .refl t
    | temporaryError | timeout =>
      cases location with
      | localMedia => exact .refl t
      | remote => exact .of_eq rfl rfl
    | _ => exact .refl t

/-- No call of `thumbnail()` removes an entry. -/
theorem thumbnail_grows (t : Thumbnailer) (w : World) (r : Request) :
    Grows t (t.thumbnail w r).thumbnailer := by
  unfold Thumbnailer.thumbnail
  split
  · exact .refl t
  · dsimp only
    split
    · exact .refl t
    · split
      · split
        · exact .refl t
        · exact saveThumbnail_grows _ _
      · split
        · exact .refl t
        · split
          · exact .refl t
          · exact handleFetched_grows _

/-- A stored entry that has not expired answers the look-up. -/
theorem Stored.holds (h : Stored t cache r.key)
    (hnow : cache = .failure → ∀ expiry, t.failureCache r.key = some (some expiry) →
      w.now < expiry) : t.Holds w r := by
  cases cache with
  | fullSize => exact .inr (.inl h)
  | thumbnail => exact h.elim
  | failure =>
    obtain ⟨entry,hentry⟩ := Option.isSome_iff_exists.mp h
    refine .inr (.inr ?_)
    unfold Thumbnailer.failureHit
    rw [hentry]
    cases entry with
    | none => rfl
    | some expiry => simpa using hnow rfl expiry hentry

/-- Such a look-up does not ask for a download. -/
theorem thumbnail_of_holds (hholds : t.Holds w r) (hdata : (t.thumbnail w r).outcome = .returned none) :
    (t.thumbnail w r).status ≠ .needsDownload := by
  have hheld := Thumbnailer.thumbnail_held (Thumbnailer.returned_valid hdata) hholds
  generalize t.thumbnail w r = result at hheld hdata ⊢
  cases hheld with
  | hit | broken => cases hdata
  | scaled =>
    have hd := (Thumbnailer.saveThumbnail_delivers hdata).isSome
    cases hd
  | failure => simp

/-- What `fetch()` makes of a finished download. -/
inductive Brought : ImageData → Prop
  | image {image : Image} {location : Location} (hi : Transparency.Honest image) :
    Brought (.image image .cacheFullsize location)
  | failed {status : FetchStatus} {location : Location} (hs : status ≠ .downloaded) :
    Brought (.failed status .cacheFullsize location)

theorem decode_honest {data : Bytes} {size : QSize} {image : Image}
    (h : decode data size = .ok image) : Transparency.Honest image := by
  cases data with
  | none => cases h
  | some file => exact Transparency.load_honest h

theorem fetchLocal_brought (w : World) (filename : String) (read : Except String Bytes)
    (size : QSize) : Brought (fetchLocal w filename (some (.extractor read)) size) := by
  simp only [fetchLocal]
  split
  · rename_i image himage
    cases read with
    | error e => cases himage
    | ok data => exact .image (decode_honest himage)
  · exact .failed (by decide)

theorem commonFetch_brought {reply : ArtReply} {d : ImageData}
    (h : commonFetch (some (.artReply reply)) = some d) : Brought d := by
  simp only [commonFetch] at h
  cases hs : reply.status with
  | success =>
    rw [hs] at h
    dsimp only at h
    split at h
    · rename_i image himage
      obtain rfl := Option.some.inj h
      exact .image (decode_honest himage)
    · obtain rfl := Option.some.inj h
      exact .failed (by decide)
  | notFinished =>
    rw [hs] at h
    cases h
  | _ =>
    rw [hs] at h
    obtain rfl := Option.some.inj h
    exact .failed (by decide)

theorem fetch_brought {size : QSize} {download : Download} {d : ImageData}
    (hd : r.download = some download) (hc : Completes r.media download = true)
    (h : fetch w r size = some d) : Brought d := by
  unfold fetch at h
  rw [hd] at h
  cases hm : r.media with
  | localFile filename st =>
    rw [hm] at h hc
    cases download with
    | extractor read =>
      obtain rfl := Option.some.inj h
      exact fetchLocal_brought ..
    | artReply => cases hc
  | album | artist =>
    rw [hm] at h hc
    cases download with
    | extractor => cases hc
    | artReply reply => exact commonFetch_brought h

theorem scaleFetched_stored {image : Image} (hi : Transparency.Honest image)
    (hw : w.accepts .fullSize = true) :
    Stored (t.scaleFetched w r image .cacheFullsize).thumbnailer .fullSize r.key := by
  obtain ⟨kept,hkept,-,-⟩ := Transparency.keepFullSize_eq t w r.key hi
  have hput : Stored (t.putFullSize w r.key (Transparency.encoded kept)) .fullSize r.key := by
    change (Thumbnailer.put t.fullSizeCache (w.accepts .fullSize) r.key _ r.key).isSome = true
    rw [hw,Thumbnailer.put_self]
    rfl
  unfold Thumbnailer.scaleFetched
  rw [if_pos rfl,hkept]
  dsimp only
  split
  · exact hput
  · exact saveThumbnail_grows _ _ _ _ hput

theorem putFailure_stored (expiry : Option ℤ) (location : Location)
    (hw : w.accepts .failure = true) :
    Stored ((t.putFailure w r.key expiry).noteAnswer w location) .failure r.key := by
  refine Grows.noteAnswer location .failure r.key ?_
  change (Thumbnailer.put t.failureCache (w.accepts .failure) r.key _ r.key).isSome = true
  rw [hw,Thumbnailer.put_self]
  rfl

theorem scaleFetched_status (image : Image) (policy : CachePolicy) :
    (t.scaleFetched w r image policy).status = .downloaded := by
  unfold Thumbnailer.scaleFetched Thumbnailer.saveThumbnail
  split
  · rfl
  · split
    · rfl
    · split <;> rfl

/-- An outcome that is remembered is stored where it is looked up. -/
theorem handleFetched_stored {d : ImageData} (hd : Brought d)
    (hcache : remembers (t.handleFetched w r d).status = some cache)
    (hw : w.accepts cache = true) : Stored (t.handleFetched w r d).thumbnailer cache r.key := by
  cases hd with
  | @image image location hi =>
    have hstatus : (t.handleFetched w r (.image image .cacheFullsize location)).status =
        .downloaded := scaleFetched_status _ _
    rw [hstatus] at hcache
    obtain rfl : Cache.fullSize = cache := Option.some.inj hcache
    exact scaleFetched_stored hi hw
  | @failed status location hs =>
    cases status with
    | downloaded => exact absurd rfl hs
    | notFound | hardError =>
      obtain rfl : Cache.failure = cache := Option.some.inj hcache
      exact putFailure_stored _ location hw
    | needsDownload =>
      simp only [Thumbnailer.handleFetched] at hcache
      split_ifs at hcache <;> cases hcache
    | temporaryError | timeout => cases location <;> cases hcache
    | cacheHit | scaledFromFullsize | cachedFailure | networkDown => cases hcache

/-- The second look-up of a request that needed a download leaves the outcome in a cache,
if it is one to be remembered and the cache takes it. -/
theorem thumbnail_stored {download : Download} (hd : r.download = some download)
    (hc : Completes r.media download = true) (hs : r.status = .needsDownload)
    (hcache : remembers (t.thumbnail w r).status = some cache) (hw : w.accepts cache = true) :
    Stored (t.thumbnail w r).thumbnailer cache r.key := by
  rw [Thumbnailer.thumbnail_eq] at hcache ⊢
  cases hv : r.requestedSize.isValid with
  | false =>
    unfold Thumbnailer.thumbnailWith at hcache
    simp [hv,hs,remembers] at hcache
  | true =>
    by_cases hholds : t.Holds w r
    · have hheld := Thumbnailer.thumbnail_held hv hholds
      rw [Thumbnailer.thumbnail_eq] at hheld
      generalize t.thumbnailWith w r (fetch w r) = result at hheld hcache ⊢
      cases hheld with
      | hit | broken | failure => cases hcache
      | scaled =>
        rw [Transparency.saveThumbnail_eq] at hcache
        cases hcache
    · cases hf : fetch w r (t.targetSize r.requestedSize) with
      | none =>
        rw [Thumbnailer.thumbnailWith_of_abort hv hholds hf] at hcache
        change remembers r.status = _ at hcache
        rw [hs] at hcache
        cases hcache
      | some d =>
        rw [Thumbnailer.thumbnailWith_of_fetch hv hholds hf] at hcache ⊢
        exact handleFetched_stored (fetch_brought hd hc hf) hcache hw

end Look

/-! ### What a step does to the caches and to the requests on their way -/

section

variable {cfg : Config} {e : Event} {s t : Service} {x : ℕ} {p : Place} {cache : Cache}
  {key : String}

/-- The places between the two look-ups. -/
def Place.pending : Place → Bool
  | .queued | .starting | .downloading | .ended | .returning | .creating => true
  | _ => false

/-- Between the look-ups the status tells that a download is needed. -/
def Pending (s : Service) : Prop :=
  ∀ x p, At s x p → p.pending = true → (s.handlers x).request.status = .needsDownload

@[simp] theorem note_thumbnailer (s : Service) (e : Effect) : (s.note e).thumbnailer = s.thumbnailer := rfl

@[simp] theorem setCalls_thumbnailer (s : Service) (calls : List Call) :
    (s.setCalls calls).thumbnailer = s.thumbnailer := rfl

@[simp] theorem sendError_thumbnailer (s : Service) (h : ℕ) (error : String) :
    (s.sendError h error).thumbnailer = s.thumbnailer := rfl

/-- The caches change by a look-up or an eviction only. -/
theorem Transition.thumbnailer (ht : Transition cfg s e t) :
    t.thumbnailer = s.thumbnailer ∨ (∃ x w, (e = .check x w ∧ At s x .checking ∨
        e = .create x w ∧ At s x .creating) ∧
          t.thumbnailer = (s.thumbnail x w).2.thumbnailer ∧ t.log = (s.thumbnail x w).2.log) ∨
      ∃ cache key, e = .evict cache key ∧ t.thumbnailer = s.thumbnailer.evict cache key := by
  cases ht with
  | arrived hidle hmedia => exact .inl (queueRequest_thumbnailer _ s.next)
  | cleared hr hc => cases hr <;> exact .inl rfl
  | denied hr hc =>
    rw [sendError_thumbnailer]
    cases hr <;> exact .inl rfl
  | caught =>
    rw [sendError_thumbnailer,setCalls_thumbnailer,note_thumbnailer,note_thumbnailer,
      setCalls_thumbnailer]
    exact .inl rfl
  | @pushed o h ref rest hcalls =>
    refine .inl ?_
    unfold Service.pushBack
    dsimp only
    split
    · split <;> rfl
    · rfl
  | checked hw => exact .inr (.inl ⟨_,_,.inl ⟨rfl,hw⟩,rfl,rfl⟩)
  | created hw => exact .inr (.inl ⟨_,_,.inr ⟨rfl,hw⟩,rfl,rfl⟩)
  | aborted hw => exact .inr (.inl ⟨_,_,hw,rfl,rfl⟩)
  | evicted => exact .inr (.inr ⟨_,_,rfl,rfl⟩)
  | _ => exact .inl rfl

/-- The first look-up, which does not abort. -/
theorem Transition.look_check {w : World} (ht : Transition cfg s (.check x w) t)
    (hn : NeverAborts s) : At s x .checking ∧ ∃ result,
      t = (s.thumbnail x w).2.modify x (·.setCheckWatcher (.finished result)) := by
  cases ht with
  | checked hw hr => exact ⟨hw,_,rfl⟩
  | aborted hw ha =>
    rcases hw with ⟨he,hw⟩ | ⟨he,hw⟩
    · cases he
      exact absurd ha (hn _ _ (.inl hw))
    · cases he

/-- The second look-up, which does not abort. -/
theorem Transition.look_create {w : World} (ht : Transition cfg s (.create x w) t)
    (hn : NeverAborts s) : At s x .creating ∧ ∃ result,
      t = (s.thumbnail x w).2.modify x (·.setCreateWatcher (.finished result)) := by
  cases ht with
  | created hw hr => exact ⟨hw,_,rfl⟩
  | aborted hw ha =>
    rcases hw with ⟨he,hw⟩ | ⟨he,hw⟩
    · cases he
    · cases he
      exact absurd ha (hn _ _ (.inr hw))

theorem thumbnail_modify_self (s : Service) (x : ℕ) (w : World) (f : Handler → Handler) :
    ((s.thumbnail x w).2.modify x f).handlers x = f ((s.handlers x).setStatus
      (s.thumbnailer.thumbnail w (s.handlers x).request).status) := by
  rw [thumbnail_modify_handlers,Function.update_self]

theorem at_checkedBy (s : Service) (x : ℕ) (w : World) (result : ByteArrayOrError) :
    At ((s.thumbnail x w).2.modify x (·.setCheckWatcher (.finished result))) x (.checked result) :=
  congrArg Handler.checkWatcher (thumbnail_modify_self s x w _)

theorem at_createdBy (s : Service) (x : ℕ) (w : World) (result : ByteArrayOrError) :
    At ((s.thumbnail x w).2.modify x (·.setCreateWatcher (.finished result))) x
      (.created result) :=
  congrArg Handler.createWatcher (thumbnail_modify_self s x w _)

/-- The status changes with a look-up, whose result is at hand then. -/
theorem Transition.status_same (ht : Transition cfg s e t) (hl : Lifecycle nothing t)
    (hn : NeverAborts s) (hx : x < s.next) (hat : At t x p)
    (hp : ∀ result, p ≠ .checked result ∧ p ≠ .created result) :
    (t.handlers x).request.status = (s.handlers x).request.status := by
  rcases (ht.rewritten hx).status with hsame | ⟨w,⟨rfl,-⟩ | ⟨rfl,-⟩⟩
  · exact hsame
  · obtain ⟨-,result,rfl⟩ := ht.look_check hn
    exact absurd (hat.unique (at_checkedBy s x w result) hl) (hp result).1
  · obtain ⟨-,result,rfl⟩ := ht.look_create hn
    exact absurd (hat.unique (at_createdBy s x w result) hl) (hp result).2

theorem Pending.step (hs : Pending s) (hl : Lifecycle nothing s) (hl' : Lifecycle nothing t)
    (hn : NeverAborts s) (ht : Transition cfg s e t) : Pending t := by
  intro x p hat hp
  have hnot : ∀ result, p ≠ .checked result ∧ p ≠ .created result := by
    refine fun result => ⟨?_,?_⟩ <;> rintro rfl <;> cases hp
  have hfrom : ∀ q, At s x q → (s.handlers x).request.status = .needsDownload →
      (t.handlers x).request.status = .needsDownload := fun q hq hstatus =>
    (ht.status_same hl' hn (hq.unfinished hl).2.2 hat hnot).trans hstatus
  cases ht.place hl hat with
  | stayed hold => exact hfrom _ hold (hs x p hold hp)
  | scheduled hold hstatus => exact hfrom _ hold hstatus
  | dequeued hold | started hold | released hold | returned hold =>
    exact hfrom _ hold (hs x _ hold rfl)
  | completed hold =>
    exact hold.elim (fun h => hfrom _ h (hs x _ h rfl)) (fun h => hfrom _ h (hs x _ h rfl))
  | asked | told | cleared | checked | created => cases hp

theorem Spares.stored (hspares : Spares cache key s e) (hs : Stored s.thumbnailer cache key)
    (ht : Transition cfg s e t) : Stored t.thumbnailer cache key := by
  rcases ht.thumbnailer with h | ⟨x,w,-,h,-⟩ | ⟨c,k,rfl,h⟩
  · rwa [h]
  · rw [h]
    exact thumbnail_grows _ w _ cache key hs
  · rw [h]
    have hkept : ∀ {α : Type} (f : String → Option α), (f key).isSome = true → k ≠ key →
        (Function.update f k none key).isSome = true := fun f hf hk => by
      rw [Function.update_of_ne hk.symm]
      exact hf
    have hkey : c = cache → k ≠ key := fun hc hk => hspares ⟨hc,hk⟩
    cases c <;> cases cache <;> first | exact hs | exact hkept _ hs (hkey rfl)

/-- A check without data and without an error has found nothing. -/
theorem checkResult_none {outcome : Outcome}
    (h : Handler.checkResult outcome = some ⟨none,none⟩) : outcome = .returned none := by
  cases outcome with
  | returned ba =>
    obtain rfl : ba = none := congrArg ByteArrayOrError.ba (Option.some.inj h)
    rfl
  | threw what => cases congrArg ByteArrayOrError.error (Option.some.inj h)
  | aborted => cases h

theorem Stocked.step (hs : Stocked cache key s) (hl : Lifecycle nothing s)
    (hspares : Spares cache key s e) (ht : Transition cfg s e t) : Stocked cache key t := by
  refine ⟨hspares.stored hs.stored ht,fun x p hkey hat => ?_⟩
  have hfrom : ∀ q, At s x q → Settled s x q := fun q hq =>
    hs.settled x q ((ht.rewritten (hq.unfinished hl).2.2).key.symm.trans hkey) hq
  cases ht.place hl hat with
  | stayed hold =>
    have hsettled := hfrom p hold
    cases p with
    | checked result =>
      have hx := (hold.unfinished hl).2.2
      rcases (ht.rewritten hx).status with hsame | ⟨w,⟨-,hlook⟩ | ⟨-,hlook⟩⟩
      · change result = ⟨none,none⟩ → (t.handlers x).request.status ≠ .needsDownload
        rw [hsame]
        exact hsettled
      · cases hold.unique hlook hl
      · cases hold.unique hlook hl
    | _ => exact hsettled
  | asked | told | cleared | released | returned | created | completed => trivial
  | started hold => trivial
  | dequeued hold => exact (hfrom _ hold).elim
  | scheduled hold hstatus => exact absurd hstatus (hfrom _ hold rfl)
  | @checked w result he hold hr hresult =>
    rintro rfl
    have hk : (s.handlers x).key = key :=
      (ht.rewritten (hold.unfinished hl).2.2).key.symm.trans hkey
    have hstatus : (t.handlers x).request.status =
        (s.thumbnailer.thumbnail w (s.handlers x).request).status := by
      rw [hresult,thumbnail_modify_self]
      rfl
    have hstored : Stored s.thumbnailer cache (s.handlers x).key := by
      rw [hk]
      exact hs.stored
    have hunexpired : cache = .failure → ∀ expiry,
        s.thumbnailer.failureCache (s.handlers x).key = some (some expiry) → w.now < expiry := by
      rw [he] at hspares
      intro hc
      rw [hk]
      exact hspares hk hc
    rw [hstatus]
    exact thumbnail_of_holds (hstored.holds hunexpired) (checkResult_none hr)

theorem NoDownload.step {u : Service} (hn : NoDownload key u s) (hs : Stocked cache key s)
    (hl : Lifecycle nothing s) (ht : Transition cfg s e t) : NoDownload key u t := by
  obtain ⟨es,hes,hbefore⟩ := hn
  obtain ⟨new,hnew,hdue⟩ := ht.log
  have hnext : s.next ≤ t.next := by rcases ht.next with h | ⟨h,-⟩ <;> omega
  refine ⟨new ++ es,by rw [hnew,hes,List.append_assoc],fun x hx => ?_⟩
  rcases List.mem_append.mp hx with hx | hx
  · have hat : At s x .starting := hdue _ hx
    have hlt := (hat.unfinished hl).2.2
    refine ⟨hlt.trans_le hnext,fun hkey => ?_⟩
    exact hs.settled x _ ((ht.rewritten hlt).key.symm.trans hkey) hat
  · obtain ⟨hlt,hkey⟩ := hbefore x hx
    rw [(ht.rewritten hlt).key]
    exact ⟨hlt.trans_le hnext,hkey⟩

/-- What holds while no handler finishes inside of its own `begin()`. -/
structure Orderly (s : Service) : Prop where
  sound : Sound s
  chained : Chained s
  serial : Serial s
  downloads : Downloads s
  pending : Pending s

theorem Orderly.step (hs : Orderly s) (hquiet : BeginsQuietly cfg s e)
    (ht : (machine cfg).step s e = some t) : Orderly t := by
  have htr := hs.sound.transition_of_step ht
  obtain ⟨hsound,hchained,hserial⟩ := serial_step ⟨hs.sound,hs.chained,hs.serial⟩ hquiet ht
  exact ⟨hsound,hchained,hserial,hs.downloads.step hs.sound.lifecycle htr,
    hs.pending.step hs.sound.lifecycle hsound.lifecycle hs.downloads.neverAborts htr⟩

theorem Orderly.new (apparmorEnabled : Bool) (maxDownloads maxExtractions : ℤ)
    (hd : 0 < maxDownloads) (he : 0 < maxExtractions) (thumbnailer : Thumbnailer) :
    Orderly (new apparmorEnabled maxDownloads maxExtractions hd he thumbnailer) :=
  ⟨.new apparmorEnabled maxDownloads maxExtractions hd he thumbnailer,
    .new apparmorEnabled maxDownloads maxExtractions hd he thumbnailer,
    .new apparmorEnabled maxDownloads maxExtractions hd he thumbnailer,
    .new apparmorEnabled maxDownloads maxExtractions hd he thumbnailer,
    fun _ _ hat => absurd hat.work_pos (lt_irrefl 0)⟩

/-- The handlers in a place have begun and not finished. -/
theorem At.running (hat : At s x p) (hl : Lifecycle nothing s) : s.Running x := by
  obtain ⟨hb,he,-⟩ := hat.unfinished hl
  have hbegun : x ∈ s.begun := List.count_pos_iff.mp (by omega)
  exact ⟨mem_begun.mp hbegun,fun hf => List.count_eq_zero.mp he (mem_ended.mpr hf)⟩

/-- A handler has completed its download, and no other one of its key has begun. -/
theorem Stocked.create {w : World} (hs : Orderly s) (hquiet : BeginsQuietly cfg s (.create x w))
    (ht : (machine cfg).step s (.create x w) = some t)
    (hcache : remembers (t.handlers x).request.status = some cache)
    (hw : w.accepts cache = true) : Stocked cache (s.handlers x).key t := by
  have hl := hs.sound.lifecycle
  have htr := hs.sound.transition_of_step ht
  have hlater := hs.step hquiet ht
  obtain ⟨hat,result,rfl⟩ := htr.look_create hs.downloads.neverAborts
  have hself := thumbnail_modify_self s x w (·.setCreateWatcher (.finished result))
  have hresult := at_createdBy s x w result
  have hkey := (htr.rewritten (hat.unfinished hl).2.2).key
  refine ⟨?_,fun y p hy hp => ?_⟩
  · obtain ⟨d,hd,hc⟩ := hs.downloads.finished x _ hat rfl
    rw [hself] at hcache
    exact thumbnail_stored hd hc (hs.pending x _ hat rfl) hcache hw
  · have hone := (hlater.serial.serialized hlater.sound.lifecycle).one y x
      (hp.running hlater.sound.lifecycle) (hresult.running hlater.sound.lifecycle)
      (hy.trans hkey.symm)
    subst hone
    rw [hp.unique hresult hlater.sound.lifecycle]
    trivial

end

/-- Once a handler has completed its download with an outcome that is remembered, no request
for its key calls `download()` as long as the entry is spared, whatever else happens. -/
theorem burst_downloadsOnce (cfg : Config) (apparmorEnabled : Bool)
    (maxDownloads maxExtractions : ℤ) (hd : 0 < maxDownloads) (he : 0 < maxExtractions)
    (thumbnailer : Thumbnailer) (es : List Event) (a : ℕ) (w : World) (s t : Service)
    (hquiet : (machine cfg).AllSteps (BeginsQuietly cfg)
      (new apparmorEnabled maxDownloads maxExtractions hd he thumbnailer) es)
    (hrun : (machine cfg).run (new apparmorEnabled maxDownloads maxExtractions hd he thumbnailer)
      es = some s)
    (hcreate : (machine cfg).step s (.create a w) = some t) (cache : Cache)
    (hcache : remembers (t.handlers a).request.status = some cache)
    (haccepted : w.accepts cache = true) (fs : List Event)
    (hspares : (machine cfg).AllSteps (Spares cache (s.handlers a).key) t fs) :
    (machine cfg).Always (NoDownload (s.handlers a).key t) t fs := by
  have horderly : Orderly s := EventSystem.Machine.guarded_run
    (fun _ _ _ hs hq ht => Orderly.step hs hq ht)
    (.new apparmorEnabled maxDownloads maxExtractions hd he thumbnailer) hquiet hrun
  have hstocked := Stocked.create horderly trivial hcreate hcache haccepted
  generalize (s.handlers a).key = key at hspares hstocked ⊢
  have hstep : ∀ u e v, Sound u ∧ Stocked cache key u ∧ NoDownload key t u →
      Spares cache key u e → (machine cfg).step u e = some v →
        Sound v ∧ Stocked cache key v ∧ NoDownload key t v := by
    rintro u e v ⟨hsound,hs,hn⟩ hg hstep
    have htr := hsound.transition_of_step hstep
    exact ⟨hsound.step hstep,hs.step hsound.lifecycle hg htr,
      hn.step hs hsound.lifecycle htr⟩
  exact EventSystem.Machine.always_of_guarded hstep (fun _ hs => hs.2.2)
    ⟨horderly.sound.step hcreate,hstocked,[],rfl,by simp⟩ hspares

instance (cache : Cache) (key : String) (s : Service) : ∀ e, Decidable (Spares cache key s e)
  | .evict c k => inferInstanceAs (Decidable ¬ (c = cache ∧ k = key))
  | .check x w =>
    decidable_of_iff ((s.handlers x).key = key → cache = .failure →
        ∀ entry ∈ s.thumbnailer.failureCache key, ∀ expiry ∈ entry, w.now < expiry) (by
      have hentry : (∀ entry ∈ s.thumbnailer.failureCache key, ∀ expiry ∈ entry, w.now < expiry) ↔
          ∀ expiry, s.thumbnailer.failureCache key = some (some expiry) → w.now < expiry :=
        ⟨fun h expiry he => h _ he expiry rfl,fun h entry he expiry hx => h expiry (hx ▸ he)⟩
      rw [hentry]
      rfl)
  | .request .. | .credentialsReply .. | .checkFinished _ | .downloadComplete .. | .createFinished _
  | .delete _ | .create .. | .call _ => .isTrue trivial

/-- The first request has downloaded and found nothing, and starts its second look-up. -/
def nothingFound : List Event :=
  [cover ":1.1",go,go,.credentialsReply ":1.1" (.map 0 []),go,go,.check 0 .idle,
    .checkFinished 0,go,go,.downloadComplete 0 (.artReply ⟨.notFound,none⟩),go,go]

def lookingAgain : Service := ((machine superuser).run started nothingFound).getD started

def remembered : Service := ((machine superuser).step lookingAgain (.create 0 .idle)).getD started

/-- The same album is wanted again, and its request is not sent to the server. -/
def again : List Event :=
  [.createFinished 0,cover ":1.1",go,go,.check 1 .idle,.checkFinished 1]

theorem burst_downloadsOnce_again :
    ((machine superuser).run remembered again).isSome = true ∧
      (machine superuser).Always (NoDownload (lookingAgain.handlers 0).key remembered) remembered
        again := by
  have hquiet : (machine superuser).AllSteps (BeginsQuietly superuser) started nothingFound := by
    decide +kernel
  have hrun : (machine superuser).run started nothingFound = some lookingAgain :=
    eq_some_getD (by decide +kernel)
  have hcreate : (machine superuser).step lookingAgain (.create 0 .idle) = some remembered :=
    eq_some_getD (by decide +kernel)
  have hspares : (machine superuser).AllSteps (Spares .failure (lookingAgain.handlers 0).key)
      remembered again := by decide +kernel
  exact ⟨by decide +kernel,burst_downloadsOnce superuser true 2 2 (by decide) (by decide) .fresh
    nothingFound 0 .idle lookingAgain remembered hquiet hrun hcreate .failure (by decide +kernel) rfl
    again hspares⟩

end Service
end UnityThumbnailer
