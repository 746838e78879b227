import UnityThumbnailer.CachedSizes
import UnityThumbnailer.EndToEnd
import UnityThumbnailer.Handovers

/-! No application is shown more than it asked for. The sizes of thumbnails are followed from
the caches, which outlive the service, through the pool threads and the slots of the handlers
to the images that the applications show. -/
namespace UnityThumbnailer

open Transparency

/-- The size that a request stands for: missing sides are filled in, and no side exceeds the
maximum. -/
def limitedSize (maxSize : ℤ) (requestedSize : QSize) : QSize :=
  ⟨if requestedSize.width ≠ 0 then min requestedSize.width maxSize else maxSize,
    if requestedSize.height ≠ 0 then min requestedSize.height maxSize else maxSize⟩

theorem targetSize_eq {t : Thumbnailer} {maxSize : ℤ} (hmax : t.maxSize = maxSize) (size : QSize) :
    t.targetSize size = limitedSize maxSize size := by
  unfold Thumbnailer.targetSize limitedSize
  rw [hmax]

namespace Service

/-- The image is no larger than the handler's request wants it. -/
def FitsRequest (maxSize : ℤ) (y : Handler) (data : ImageFile) : Prop :=
  Within data.picture (limitedSize maxSize y.request.requestedSize)

/-- What is cached, handed to the event loop or sent has the size that it was wanted in. -/
structure SizesKept (limit : ℤ) (s : Service) : Prop where
  maxSize : s.thumbnailer.maxSize = limit
  sized : s.thumbnailer.Sized
  handed : HandedOver (FitsRequest limit) s

section

variable {cfg : Config} {e : Event} {s t : Service} {h x : ℕ} {limit : ℤ}

/-- What a call of `thumbnail()` hands over. -/
theorem SizesKept.outcome {w : World} {data : ImageFile} (hk : SizesKept limit s)
    (hr : (s.thumbnail x w).1 = .returned (some data)) : FitsRequest limit (s.handlers x) data := by
  unfold FitsRequest
  rw [← targetSize_eq hk.maxSize]
  exact (hk.sized.thumbnail w (s.handlers x).request).fits data hr

/-- The caches are written by the pool threads only. -/
theorem Transition.sized (ht : Transition cfg s e t) (hk : SizesKept limit s) :
    t.thumbnailer.maxSize = limit ∧ t.thumbnailer.Sized := by
  rcases ht.thumbnailer with heq | ⟨y,w,-,heq,-⟩ | ⟨cache,key,-,heq⟩ <;> rw [heq]
  · exact ⟨hk.maxSize,hk.sized⟩
  · have hres := hk.sized.thumbnail w (s.handlers y).request
    exact ⟨hres.maxSize.trans hk.maxSize,hres.sized⟩
  · exact ⟨(Thumbnailer.evict_maxSize ..).trans hk.maxSize,hk.sized.evict cache key⟩

theorem SizesKept.step (hk : SizesKept limit s) (hs : Sound s)
    (ht : (machine cfg).step s e = some t) : SizesKept limit t := by
  have htr := hs.transition_of_step ht
  obtain ⟨hmax,hsized⟩ := htr.sized hk
  refine ⟨hmax,hsized,hk.handed.step hs ht (fun x data hx hfits => ?_) fun x w data _ _ => hk.outcome⟩
  unfold FitsRequest
  rw [htr.constant requestedSize_constant hx]
  exact hfits

theorem SizesKept.new (apparmorEnabled : Bool) (maxDownloads maxExtractions : ℤ)
    (hd : 0 < maxDownloads) (he : 0 < maxExtractions) {thumbnailer : Thumbnailer}
    (hs : thumbnailer.Sized) : SizesKept thumbnailer.maxSize
      (new apparmorEnabled maxDownloads maxExtractions hd he thumbnailer) :=
  ⟨rfl,hs,.new ..⟩

/-- The cache holds the thumbnail of one photo in one size. -/
def warmedAtSize : Thumbnailer :=
  { Thumbnailer.fresh with
    thumbnailCache := Function.update (fun _ => none)
      (Thumbnailer.sizedKey (Media.localFile "/photo.jpg" ⟨1,0,0,0,0⟩).key ⟨48,48⟩) (some square) }

theorem warmedAtSize_sized : warmedAtSize.Sized :=
  Thumbnailer.Sized.put (w:=.idle) (t:=.fresh) Thumbnailer.sized_fresh ⟨by decide,by decide⟩

end
end Service

namespace SessionBus

open EventSystem

/-- What every request shows is no larger than it was asked for. -/
def ShownInSize (limit : ℤ) (b : SessionBus) : Prop :=
  ∀ i r data, ((b.clients i).requests r).isValid = true →
    ((b.clients i).requests r).image = some data →
      Within data.picture (limitedSize limit (b.wanted (i,r)).2)

section

variable {cfg : Service.Config} {peer : Instance → Peer} {b d : SessionBus} {e : Event}
  {limit : ℤ}

theorem Correlated.shownInSize (hc : Correlated cfg peer b)
    (hk : Service.SizesKept limit b.service) : ShownInSize limit b := by
  intro i r data hv himage
  obtain ⟨h,hh,hsent⟩ := hc.shown i r hv
  rw [himage] at hsent
  obtain ⟨-,hsize,-⟩ := hc.handlers h _ hh
  have hfits := (hk.handed.sent h data hsent).2
  unfold Service.FitsRequest at hfits
  rwa [hsize] at hfits

end

/-- Whatever the service finds in its caches, however the requests of all applications
interleave, and whichever way a thumbnail is made: an application is shown no image that is
larger than it asked for, or than the maximum. -/
theorem images_inSize (cfg : Service.Config) (peer : Instance → Peer)
    (maxBacklog : Instance → { n : ℤ // 0 < n }) (apparmorEnabled : Bool)
    (maxDownloads maxExtractions : ℤ) (hd : 0 < maxDownloads) (he : 0 < maxExtractions)
    (thumbnailer : Thumbnailer) (hs : thumbnailer.Sized) (es : List Event) :
    (machine cfg peer).Always (ShownInSize thumbnailer.maxSize) (new maxBacklog
      (.new apparmorEnabled maxDownloads maxExtractions hd he thumbnailer)) es :=
  have hstep : ∀ b e d,
      (Correlated cfg peer b ∧ Service.SizesKept thumbnailer.maxSize b.service) →
      (machine cfg peer).step b e = some d →
      Correlated cfg peer d ∧ Service.SizesKept thumbnailer.maxSize d.service := by
    intro b e d ⟨hc,hk⟩ hstep
    refine ⟨hc.step hstep,?_⟩
    rcases step_service hstep with heq | ⟨f,-,hf⟩
    · rwa [heq]
    · exact hk.step hc.balanced.service hf
  Machine.always_of_invariant hstep (fun _ hb => hb.1.shownInSize hb.2) es
    ⟨.new cfg peer maxBacklog (.new ..) (.new ..),.new _ _ _ _ _ hs⟩

def deskAtSize : SessionBus :=
  { desk with service := .new true 2 2 two_pos two_pos Service.warmedAtSize }

/-- The thumbnail that both viewers want is in the cache already. -/
theorem images_inSize_twoViewers :
    ((machine Service.reader viewer).run deskAtSize twoViewers).any
      (fun d => ((d.clients 1).requests 0).image = some Service.square) = true ∧
    (machine Service.reader viewer).Always (ShownInSize Service.warmedAtSize.maxSize) deskAtSize
      twoViewers :=
  ⟨by decide +kernel,images_inSize Service.reader viewer _ true 2 2 (by decide) (by decide)
    Service.warmedAtSize Service.warmedAtSize_sized twoViewers⟩

end SessionBus
end UnityThumbnailer
