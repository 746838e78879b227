import UnityThumbnailer.BackoffWindow
import UnityThumbnailer.Outcomes
import UnityThumbnailer.ShownPictures
import UnityThumbnailer.UbuntuServerDownloader

/-! Album and artist art without the server. The downloader makes no request any more and
reports that the network is down. So art that is not cached is not shown, and nothing is
remembered of the attempts: neither a failure nor a reason to wait with the next one. -/
namespace UnityThumbnailer

open CacheKeys EventSystem UbuntuServerDownloader Service

/-- What a download holds that the server has no part in. -/
def Unreached (d : Option Download) : Prop :=
  ∀ d', d = some d' → d' = .artReply ⟨.notFinished,none⟩ ∨ d' = .artReply down

namespace Thumbnailer

/-- Only pictures have been stored. -/
def Steady (t u : Thumbnailer) : Prop :=
  u.backoff = t.backoff ∧ u.failureCache = t.failureCache

section

variable {t u : Thumbnailer} {w : World} {r : Request}

theorem saveThumbnail_steady (status : FetchStatus) (scaled : Image) :
    Steady t (t.saveThumbnail w r status scaled).thumbnailer := by
  unfold saveThumbnail
  split <;> exact ⟨rfl,rfl⟩

theorem scaleFetched_steady (image : Image) (policy : CachePolicy) :
    Steady t (t.scaleFetched w r image policy).thumbnailer := by
  unfold scaleFetched
  split
  · exact ⟨rfl,rfl⟩
  · rename_i u kept hkept
    have hu : Steady t u := by
      split at hkept
      · obtain ⟨file,rfl⟩ := keepFullSize_ok hkept
        exact ⟨rfl,rfl⟩
      · obtain ⟨rfl,rfl⟩ := Prod.mk.inj (Except.ok.inj hkept)
        exact ⟨rfl,rfl⟩
    split
    · exact hu
    · obtain ⟨hbackoff,hfailures⟩ := saveThumbnail_steady (t:=u) (w:=w) (r:=r) .downloaded _
      exact ⟨hbackoff.trans hu.1,hfailures.trans hu.2⟩

/-- Nothing is remembered but the failure of one key. -/
def SteadyBut (key : String) (t u : Thumbnailer) : Prop :=
  u.backoff = t.backoff ∧ ∀ k, k ≠ key → u.failureCache k = t.failureCache k

theorem Steady.but (h : Steady t u) (key : String) : SteadyBut key t u :=
  ⟨h.1,fun k _ => congrFun h.2 k⟩

theorem putFailure_steadyBut (key : String) (expiry : Option ℤ) :
    SteadyBut key t (t.putFailure w key expiry) := by
  refine ⟨rfl,fun k hk => ?_⟩
  unfold putFailure put
  split
  · exact Function.update_of_ne hk ..
  · rfl

theorem fetchLocal_location (w : World) (filename : String) (download : Option Download)
    (size : QSize) : (fetchLocal w filename download size).location = .localMedia := by
  unfold fetchLocal
  split
  · split <;> rfl
  · split
    · rfl
    · split <;> rfl
    · split
      · rfl
      · rfl
      · split <;> rfl
    · rfl
    · rfl

theorem handleFetched_local {d : ImageData} (hd : d.location = .localMedia) :
    SteadyBut r.key t (t.handleFetched w r d).thumbnailer := by
  have hrefl : Steady t t := ⟨rfl,rfl⟩
  cases d with
  | image image policy location =>
    obtain rfl : location = .localMedia := hd
    exact (scaleFetched_steady image policy).but _
  | failed status policy location =>
    obtain rfl : location = .localMedia := hd
    cases status with
    | notFound | hardError => exact putFailure_steadyBut ..
    | _ => exact hrefl.but _

/-- A look-up of a local file remembers at most that this file has failed. -/
theorem thumbnail_local (hm : remote r.media = false) :
    SteadyBut r.key t (t.thumbnail w r).thumbnailer := by
  have hlooked := looked t w r
  generalize t.thumbnail w r = res at hlooked ⊢
  cases hlooked with
  | threw | hit | failure | aborted => exact ⟨rfl,fun _ _ => rfl⟩
  | scaled => exact (saveThumbnail_steady _ _).but _
  | fetched hv hfetch =>
    unfold fetch at hfetch
    cases hmedia : r.media with
    | localFile filename st =>
      rw [hmedia] at hfetch
      obtain rfl := Option.some.inj hfetch
      exact handleFetched_local (fetchLocal_location ..)
    | album | artist =>
      rw [hmedia] at hm
      cases hm

/-- What the server is asked for in vain needs a download or finds the network down. -/
theorem fetch_unreached {size : QSize} {d : ImageData} (hm : remote r.media = true)
    (hd : Unreached r.download) (hfetch : fetch w r size = some d) : ∃ policy,
      d = .failed .needsDownload policy .remote ∨ d = .failed .networkDown policy .remote := by
  have hcommon : fetch w r size = commonFetch r.download := by
    unfold fetch
    cases hmedia : r.media with
    | localFile =>
      rw [hmedia] at hm
      cases hm
    | album | artist => rfl
  rw [hcommon] at hfetch
  cases hdownload : r.download with
  | none =>
    rw [hdownload] at hfetch
    exact ⟨_,.inl (Option.some.inj hfetch).symm⟩
  | some d' =>
    rw [hdownload] at hfetch
    rcases hd d' hdownload with rfl | rfl
    · cases hfetch
    · exact ⟨_,.inr (Option.some.inj hfetch).symm⟩

/-- A look-up for an album or an artist remembers nothing, if the server was not reached. -/
theorem thumbnail_unreached (hm : remote r.media = true) (hd : Unreached r.download) :
    Steady t (t.thumbnail w r).thumbnailer := by
  have hlooked := looked t w r
  generalize t.thumbnail w r = res at hlooked ⊢
  cases hlooked with
  | threw | hit | failure | aborted => exact ⟨rfl,rfl⟩
  | scaled => exact saveThumbnail_steady _ _
  | fetched hv hfetch =>
    obtain ⟨policy,rfl | rfl⟩ := fetch_unreached hm hd hfetch
    · simp only [handleFetched]
      split_ifs <;> exact ⟨rfl,rfl⟩
    · exact ⟨rfl,rfl⟩

end
end Thumbnailer

namespace Service

/-- Albums and artists get what the downloader signals; the strings of a call are free of NUL
bytes. -/
def FromServer (domainName : String) (s : Service) : Event → Prop
  | .request _ m _ => ∀ media ∈ m.media.toOption, Admissible media
  | .downloadComplete h d => remote (s.handlers h).request.media = true →
      ∃ r, Signals (networkIsConnected domainName) r ∧ d = .artReply r
  | _ => True

instance (domainName : String) (s : Service) (e : Event) : Decidable (FromServer domainName s e) :=
  match e with
  | .request _ m _ => inferInstanceAs (Decidable (∀ media ∈ m.media.toOption, Admissible media))
  | .downloadComplete h d => inferInstanceAs (Decidable (remote (s.handlers h).request.media =
      true → ∃ r, Signals (networkIsConnected domainName) r ∧ d = .artReply r))
  | .credentialsReply .. | .checkFinished _ | .createFinished _ | .delete _ | .evict .. | .call _
  | .check .. | .create .. => inferInstanceAs (Decidable True)

/-- Nothing is known of albums and artists, and nothing has been remembered since. -/
structure Offline (backoff : BackoffAdjuster) (s : Service) : Prop where
  genuine : Genuine (Kind.ofMedia fun m => remote m = false) s
  unreached : ∀ x < s.next, remote (s.handlers x).request.media = true →
    Unreached (s.handlers x).request.download
  backoff : s.thumbnailer.backoff = backoff
  failures : ∀ m, Admissible m → remote m = true → s.thumbnailer.failureCache m.key = none

section

variable {cfg : Config} {domainName : String} {backoff : BackoffAdjuster} {e : Event}
  {s t : Service}

theorem FromServer.supplies (h : FromServer domainName s e) :
    Supplies (fun m _ => remote m = false) s e := by
  have hreads : ∀ w m, Reads (fun m _ => remote m = false) w m := by
    intro w m
    cases m with
    | localFile => exact ⟨fun _ _ => rfl,fun _ _ => rfl⟩
    | album | artist => trivial
  cases e with
  | request => exact h
  | check x w | create x w => exact hreads w _
  | downloadComplete x d =>
    intro raw hraw
    by_contra hremote
    obtain ⟨r,hr,rfl⟩ := h (Bool.eq_true_of_not_eq_false hremote)
    rw [signals_iff_down.mp hr] at hraw
    cases hraw
  | _ => trivial

theorem Offline.unreached_step (ho : Offline backoff s) (hs : Sound s)
    (ht : (machine cfg).step s e = some t) (hserver : FromServer domainName s e) : ∀ x < t.next,
      remote (t.handlers x).request.media = true → Unreached (t.handlers x).request.download := by
  have htr := hs.transition_of_step ht
  intro x hx hremote d hd
  by_cases hold : x < s.next
  · rw [(htr.rewritten hold).media] at hremote
    rcases htr.downloaded hold with hsame | ⟨d',hd',hput⟩
    · exact ho.unreached x hold hremote d (hsame.symm.trans hd)
    · obtain rfl := Option.some.inj (hd'.symm.trans hd)
      rcases hput with rfl | ⟨filename,st,what,hmedia,-⟩ | rfl
      · cases hmedia : (s.handlers x).request.media with
        | localFile =>
          rw [hmedia] at hremote
          cases hremote
        | album | artist => exact .inl rfl
      · rw [hmedia] at hremote
        cases hremote
      · obtain ⟨r,hr,rfl⟩ := hserver hremote
        exact .inr (congrArg Download.artReply (signals_iff_down.mp hr))
  · rcases htr.next with hn | ⟨hn,peer,l,media,size,details,hnew,-⟩
    · omega
    · obtain rfl : x = s.next := by omega
      rw [hnew] at hd
      cases hd

/-- A look-up remembers nothing of albums and artists. -/
theorem Offline.look {x : ℕ} {w : World} (ho : Offline backoff s) (hx : x < s.next) :
    (s.thumbnailer.thumbnail w (s.handlers x).request).thumbnailer.backoff = backoff ∧
      ∀ m, Admissible m → remote m = true →
        (s.thumbnailer.thumbnail w (s.handlers x).request).thumbnailer.failureCache m.key =
          none := by
  cases hremote : remote (s.handlers x).request.media with
  | false =>
    obtain ⟨hbackoff,hfailures⟩ := Thumbnailer.thumbnail_local (t:=s.thumbnailer) (w:=w) hremote
    refine ⟨hbackoff.trans ho.backoff,fun m hm hr => ?_⟩
    refine (hfailures m.key fun hkey => ?_).trans (ho.failures m hm hr)
    -- a key that is shared would make the media the same
    have hsame := (keys_injective m (s.handlers x).request.media .invalid .invalid hm
      (ho.genuine.admissible x hx)).1 hkey
    rw [hsame,hremote] at hr
    cases hr
  | true =>
    obtain ⟨hbackoff,hfailures⟩ := Thumbnailer.thumbnail_unreached (t:=s.thumbnailer) (w:=w)
      hremote (ho.unreached x hx hremote)
    exact ⟨hbackoff.trans ho.backoff,fun m hm hr =>
      (congrFun hfailures m.key).trans (ho.failures m hm hr)⟩

theorem Offline.step (ho : Offline backoff s) (hs : Sound s)
    (ht : (machine cfg).step s e = some t) (hserver : FromServer domainName s e) :
    Offline backoff t := by
  have htr := hs.transition_of_step ht
  have hgenuine := ho.genuine.step hs (fun _ _ h => h) hserver.supplies ht
  have hunreached := ho.unreached_step hs ht hserver
  rcases htr.thumbnailer with hsame | ⟨x,w,he,hthumbnailer,-⟩ | ⟨cache,key,-,hevicted⟩
  · exact ⟨hgenuine,hunreached,hsame ▸ ho.backoff,hsame ▸ ho.failures⟩
  · have hx : x < s.next := he.elim (fun h => (h.2.unfinished hs.lifecycle).2.2)
      fun h => (h.2.unfinished hs.lifecycle).2.2
    obtain ⟨hbackoff,hfailures⟩ := ho.look (w:=w) hx
    exact ⟨hgenuine,hunreached,hthumbnailer ▸ hbackoff,hthumbnailer ▸ hfailures⟩
  · refine ⟨hgenuine,hunreached,?_,fun m hm hr => ?_⟩
    · rw [hevicted]
      cases cache <;> exact ho.backoff
    · rw [hevicted]
      cases cache with
      | fullSize | thumbnail => exact ho.failures m hm hr
      | failure =>
        change Function.update s.thumbnailer.failureCache key none m.key = none
        rw [Function.update_apply]
        split_ifs
        · rfl
        · exact ho.failures m hm hr

theorem Offline.new (apparmorEnabled : Bool) (maxDownloads maxExtractions : ℤ)
    (hd : 0 < maxDownloads) (he : 0 < maxExtractions) {thumbnailer : Thumbnailer}
    (hs : (Kind.ofMedia fun m => remote m = false).Stocks thumbnailer)
    (hfailures : ∀ m, Admissible m → remote m = true → thumbnailer.failureCache m.key = none) :
    Offline thumbnailer.backoff
      (new apparmorEnabled maxDownloads maxExtractions hd he thumbnailer) :=
  ⟨.new apparmorEnabled maxDownloads maxExtractions hd he hs,
    fun _ hx => absurd hx (Nat.not_lt_zero _),rfl,hfailures⟩

end
end Service

namespace SessionBus

/-- The step of the service that a step of the bus is gets art from the downloader only. -/
def FromServer (domainName : String) (b : SessionBus) : Event → Prop
  | .dispatch k canonical file =>
    ∀ media ∈ ((b.wanted k).1.method canonical file).media.toOption, Admissible media
  | .service e => Service.FromServer domainName b.service e
  | _ => True

instance (domainName : String) (b : SessionBus) (e : Event) :
    Decidable (FromServer domainName b e) :=
  match e with
  | .dispatch k canonical file => inferInstanceAs (Decidable
      (∀ media ∈ ((b.wanted k).1.method canonical file).media.toOption, Admissible media))
  | .service e => inferInstanceAs (Decidable (Service.FromServer domainName b.service e))
  | .create .. | .client .. | .wait .. | .deliver _ | .timeout .. =>
    inferInstanceAs (Decidable True)

/-- Requests for albums and artists show nothing, and nothing is remembered of them. -/
structure Unremembered (backoff : BackoffAdjuster) (b : SessionBus) : Prop where
  unshown : ∀ i r, (∀ filename, (b.wanted (i,r)).1 ≠ .thumbnail filename) →
    ((b.clients i).requests r).isValid = false ∧
      (((b.clients i).requests r).finished = true → ((b.clients i).requests r).errorMessage ≠ "")
  backoff : b.service.thumbnailer.backoff = backoff
  failures : ∀ m, Admissible m → remote m = true →
    b.service.thumbnailer.failureCache m.key = none

section

variable {cfg : Service.Config} {peer : Instance → Peer} {domainName : String}
  {backoff : BackoffAdjuster} {b d : SessionBus} {e : Event}

theorem FromServer.serves {f : Service.Event} (h : FromServer domainName b e)
    (hf : Serves peer b e f) : Service.FromServer domainName b.service f := by
  cases e with
  | dispatch | service =>
    obtain rfl := hf
    exact h
  | _ => exact hf.elim

theorem remote_media {w : Wanted} {canonical : Option String} {file : Except String (String × Stat)}
    {media : Media} (hw : ∀ filename, w ≠ .thumbnail filename)
    (hm : (w.method canonical file).media = .ok media) : remote media = true := by
  cases w with
  | thumbnail filename => exact absurd rfl (hw filename)
  | albumArt | artistArt =>
    simp only [Wanted.method,Service.Method.media] at hm
    split_ifs at hm
    cases hm
    rfl

theorem Telling.unremembered (h : Telling cfg peer b) (ho : Service.Offline backoff b.service) :
    Unremembered backoff b := by
  refine ⟨fun i r hw => ?_,ho.backoff,ho.failures⟩
  have hinvalid : ((b.clients i).requests r).isValid = false := by
    by_contra hcon
    have hvalid := Bool.eq_true_of_not_eq_false hcon
    obtain ⟨x,hx,hsent⟩ := h.correlated.shown i r hvalid
    obtain ⟨-,-,canonical,file,hmedia⟩ := h.correlated.handlers x _ hx
    obtain ⟨data,hdata⟩ := Option.ne_none_iff_exists'.mp (h.filled.sent x _ hsent)
    rw [hdata] at hsent
    have hlocal : remote (b.service.handlers x).request.media = false :=
      (ho.genuine.handed.sent x data hsent).2
    exact absurd (remote_media hw hmedia) (hlocal ▸ Bool.false_ne_true)
  refine ⟨hinvalid,fun hfinished => ?_⟩
  rcases h.told i r with hopen | ⟨-,hvalid | hfailed⟩
  · exact absurd (hfinished.symm.trans hopen.1) (Bool.noConfusion ·)
  · exact absurd (hinvalid.symm.trans hvalid.1) (Bool.noConfusion ·)
  · exact hfailed.2.2

/-- While the downloader makes no requests, albums and artists that are not cached already are
never shown; each of their requests that finishes says why, and leaves no trace in the failure
cache or in the backoff. -/
theorem remoteArt_unremembered (cfg : Service.Config) (peer : Instance → Peer)
    (maxBacklog : Instance → { n : ℤ // 0 < n }) (apparmorEnabled : Bool)
    (maxDownloads maxExtractions : ℤ) (hd : 0 < maxDownloads) (he : 0 < maxExtractions)
    (domainName : String) (thumbnailer : Thumbnailer)
    (hs : (Kind.ofMedia fun m => remote m = false).Stocks thumbnailer)
    (hfailures : ∀ m, Admissible m → remote m = true → thumbnailer.failureCache m.key = none)
    (es : List Event) (hserver : (machine cfg peer).AllSteps (FromServer domainName) (new maxBacklog
      (.new apparmorEnabled maxDownloads maxExtractions hd he thumbnailer)) es) :
    (machine cfg peer).Always (Unremembered thumbnailer.backoff) (new maxBacklog
      (.new apparmorEnabled maxDownloads maxExtractions hd he thumbnailer)) es := by
  have hstep : ∀ b e d, (Telling cfg peer b ∧ Service.Offline thumbnailer.backoff b.service) →
      FromServer domainName b e → (machine cfg peer).step b e = some d →
      Telling cfg peer d ∧ Service.Offline thumbnailer.backoff d.service := by
    intro b e d ⟨htelling,ho⟩ hserver hstep
    refine ⟨htelling.step hstep,?_⟩
    rcases step_service hstep with hsame | ⟨f,hf,ht⟩
    · rwa [hsame]
    · exact ho.step htelling.correlated.balanced.service ht (hserver.serves hf)
  exact Machine.always_of_guarded hstep (fun _ h => h.1.unremembered h.2)
    ⟨.new cfg peer maxBacklog apparmorEnabled maxDownloads maxExtractions hd he thumbnailer,
      .new apparmorEnabled maxDownloads maxExtractions hd he hs hfailures⟩ hserver

end

/-- A cover that nobody has, asked for while the network is down. -/
def coverLook : List Event :=
  [.create 1 (.albumArt "Bob" "Unheard") ⟨48,48⟩,.dispatch (1,0) none (.error ""),
    .service Service.go,.service Service.go,
    .service (.credentialsReply ":1.1" (.map 1000 "unconfined\x00".toList)),.service Service.go,
    .service Service.go,.service (.check 0 .idle),.service (.checkFinished 0),.service Service.go,
    .service Service.go,.service (.downloadComplete 0 (.artReply down)),.service Service.go,
    .service Service.go,.service (.create 0 .idle),.service (.createFinished 0),.deliver (1,0)]

theorem remoteArt_unremembered_coverLook :
    ((machine Service.reader viewer).run emptyDesk coverLook).any
      (fun d => ((d.clients 1).requests 0).finished) = true ∧
    (machine Service.reader viewer).Always (Unremembered .new) emptyDesk coverLook :=
  ⟨by decide +kernel,remoteArt_unremembered Service.reader viewer _ true 2 2 two_pos two_pos
    "dash.ubuntu.com" Thumbnailer.fresh (fun _ _ => ⟨nofun,nofun⟩) (fun _ _ _ => rfl) coverLook
    (by decide +kernel)⟩

end SessionBus
end UnityThumbnailer
