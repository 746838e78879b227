import UnityThumbnailer.CacheKeys
import UnityThumbnailer.CachedSizes

/-! Kinds of pictures. For each media some files are of the kind and some are not, and loading,
scaling and encoding do not leave it. When the sources of a media bring only what is of the
kind, then so do its look-ups, since what is cached for one media is never found for another. -/
namespace UnityThumbnailer

open CacheKeys

/-- The picture that a download leaves behind, if it is one. -/
def Download.raw : Download → Option ImageFile
  | .extractor read => read.toOption.join
  | .artReply reply => if reply.status = .success then reply.data else none

/-- What is read for a media is among what it is supplied with. -/
def Reads (Supplied : Media → ImageFile → Prop) (w : World) (m : Media) : Prop :=
  match m with
  | .localFile filename _ => (∀ raw ∈ (w.readFile filename).toOption.join, Supplied m raw) ∧
    ∀ raw ∈ (w.albumArt filename).toOption.join.join, Supplied m raw
  | .album .. | .artist .. => True

instance (Supplied : Media → ImageFile → Prop) [∀ m f, Decidable (Supplied m f)] (w : World)
    (m : Media) : Decidable (Reads Supplied w m) :=
  match m with
  | .localFile .. => inferInstanceAs (Decidable (_ ∧ _))
  | .album .. | .artist .. => inferInstanceAs (Decidable True)

/-- What a download leaves behind for a media is among what it is supplied with. -/
def Brings (Supplied : Media → ImageFile → Prop) (m : Media) (d : Download) : Prop :=
  ∀ raw ∈ d.raw, Supplied m raw

instance (Supplied : Media → ImageFile → Prop) [∀ m f, Decidable (Supplied m f)] (m : Media)
    (d : Download) : Decidable (Brings Supplied m d) :=
  inferInstanceAs (Decidable (∀ raw ∈ d.raw, Supplied m raw))

theorem Reads.mono {P Q : Media → ImageFile → Prop} {w : World} {m : Media}
    (h : Reads P w m) (hPQ : ∀ m f, P m f → Q m f) : Reads Q w m := by
  cases m with
  | localFile => exact ⟨fun raw hr => hPQ _ _ (h.1 raw hr),fun raw hr => hPQ _ _ (h.2 raw hr)⟩
  | album | artist => trivial

/-- A property of files and images of a media that is kept by all that is done to them. -/
structure Kind where
  file : Media → ImageFile → Prop
  image : Media → Image → Prop
  load : ∀ m f size i, file m f → Image.load f size = .ok i → image m i
  scale : ∀ m i size j, image m i → i.scale size = .ok j → image m j
  encode : ∀ m i quality f, image m i → i.jpegOrPngData quality = .ok f → file m f

namespace Kind

variable {K : Kind} {m : Media} {t u : Thumbnailer} {w : World} {r : Request}

/-- What the caches hold for a media is of the kind. -/
def Stocks (K : Kind) (t : Thumbnailer) : Prop :=
  ∀ m, Admissible m → (∀ f, t.fullSizeCache m.key = some f → K.file m f) ∧
    ∀ size f, t.thumbnailCache (Thumbnailer.sizedKey m.key size) = some f → K.file m f

/-! ### Look-ups -/

theorem decoded {data : Bytes} {size : QSize} {i : Image}
    (hdata : ∀ raw, data = some raw → K.file m raw) (hi : decode data size = .ok i) :
    K.image m i := by
  cases data with
  | none => cases hi
  | some raw => exact K.load m raw size i (hdata raw rfl) hi

theorem fetched_local {filename : String} {st : Stat} {d : Option Download} {size : QSize}
    {i : Image} {policy : CachePolicy} {location : Location}
    (hw : Reads K.file w (.localFile filename st))
    (hd : ∀ d', d = some d' → Brings K.file (.localFile filename st) d')
    (hi : fetchLocal w filename d size = .image i policy location) :
    K.image (.localFile filename st) i := by
  unfold fetchLocal at hi
  split at hi
  · rename_i read
    cases hread : read with
    | error what => simp [hread,Except.bind] at hi
    | ok data =>
      simp only [hread,Except.bind] at hi
      split at hi
      · rename_i j hj
        obtain ⟨rfl,-,-⟩ := ImageData.image.inj hi
        refine decoded (fun raw hraw => hd _ rfl raw ?_) hj
        simp [Download.raw,hread,hraw,Except.toOption]
      · cases hi
  · split at hi
    · cases hi
    · cases hread : w.readFile filename with
      | error what => simp [hread,Except.bind] at hi
      | ok data =>
        simp only [hread,Except.bind] at hi
        split at hi
        · rename_i j hj
          obtain ⟨rfl,-,-⟩ := ImageData.image.inj hi
          refine decoded (fun raw hraw => hw.1 raw ?_) hj
          simp [hread,hraw,Except.toOption]
        · cases hi
    · split at hi
      · cases hi
      · cases hi
      · rename_i art hart
        split at hi
        · rename_i j hj
          obtain ⟨rfl,-,-⟩ := ImageData.image.inj hi
          refine decoded (fun raw hraw => hw.2 raw ?_) hj
          simp [hart,hraw,Except.toOption]
        · cases hi
    · cases hi
    · cases hi

theorem fetched_common {d : Option Download} {i : Image} {policy : CachePolicy}
    {location : Location} (hd : ∀ d', d = some d' → Brings K.file m d')
    (hi : commonFetch d = some (.image i policy location)) : K.image m i := by
  unfold commonFetch at hi
  split at hi
  · rename_i reply
    split at hi
    · rename_i hsuccess
      split at hi
      · rename_i j hj
        obtain ⟨rfl,-,-⟩ := ImageData.image.inj (Option.some.inj hi)
        refine decoded (fun raw hraw => hd _ rfl raw ?_) hj
        simp [Download.raw,hsuccess,hraw]
      · cases hi
    all_goals cases hi
  · cases hi

theorem fetched {size : QSize} {i : Image} {policy : CachePolicy} {location : Location}
    (hw : Reads K.file w r.media)
    (hd : ∀ d, r.download = some d → Brings K.file r.media d)
    (hi : fetch w r size = some (.image i policy location)) : K.image r.media i := by
  unfold fetch at hi
  cases hm : r.media with
  | localFile filename st =>
    rw [hm] at hw hd hi
    exact fetched_local hw hd (Option.some.inj hi)
  | album | artist =>
    rw [hm] at hd hi
    exact fetched_common hd hi

/-- What one look-up leaves and returns. -/
structure Kept (K : Kind) (m : Media) (res : Result) : Prop where
  stocks : K.Stocks res.thumbnailer
  returned : ∀ f, res.outcome = .returned (some f) → K.file m f

theorem Stocks.of_caches (hs : K.Stocks t) (hfull : u.fullSizeCache = t.fullSizeCache)
    (hthumbnails : u.thumbnailCache = t.thumbnailCache) : K.Stocks u := by
  unfold Stocks
  rw [hfull,hthumbnails]
  exact hs

theorem Stocks.nothing {res : Result} (hs : K.Stocks t)
    (hfull : res.thumbnailer.fullSizeCache = t.fullSizeCache)
    (hthumbnails : res.thumbnailer.thumbnailCache = t.thumbnailCache)
    (ho : ∀ f, res.outcome ≠ .returned (some f)) : Kept K m res :=
  ⟨hs.of_caches hfull hthumbnails,fun f hf => absurd hf (ho f)⟩

theorem Stocks.putFullSize {f : ImageFile} (hs : K.Stocks t) (hm : Admissible m)
    (hf : K.file m f) : K.Stocks (t.putFullSize w m.key f) := by
  refine fun n hn => ⟨fun g hg => ?_,(hs n hn).2⟩
  rcases Thumbnailer.put_found hg with ⟨hkey,rfl⟩ | hold
  · obtain rfl := (keys_injective n m .invalid .invalid hn hm).1 hkey
    exact hf
  · exact (hs n hn).1 g hold

theorem Stocks.putThumbnail {size : QSize} {f : ImageFile} (hs : K.Stocks t) (hm : Admissible m)
    (hf : K.file m f) : K.Stocks (t.putThumbnail w (Thumbnailer.sizedKey m.key size) f) := by
  refine fun n hn => ⟨(hs n hn).1,fun size' g hg => ?_⟩
  rcases Thumbnailer.put_found hg with ⟨hkey,rfl⟩ | hold
  · have hkeys := keys_injective n m size' size hn hm
    obtain rfl := hkeys.1 (hkeys.2.1 hkey).1
    exact hf
  · exact (hs n hn).2 size' g hold

theorem Stocks.saveThumbnail {status : FetchStatus} {i : Image} (hs : K.Stocks t)
    (hm : Admissible r.media) (hi : K.image r.media i) :
    Kept K r.media (t.saveThumbnail w r status i) := by
  unfold Thumbnailer.saveThumbnail
  split
  · exact hs.nothing rfl rfl fun _ => Thumbnailer.unexpected_ne
  · rename_i data hdata
    have hf := K.encode _ _ _ _ hi hdata
    refine ⟨hs.putThumbnail hm hf,fun f hreturned => ?_⟩
    obtain rfl := Option.some.inj (Outcome.returned.inj hreturned)
    exact hf

theorem Stocks.keepFullSize {i j : Image} (hs : K.Stocks t) (hm : Admissible m)
    (hi : K.image m i) (hkept : t.keepFullSize w m.key i = .ok (u,j)) :
    K.Stocks u ∧ K.image m j := by
  have hencoded : ∀ {k}, K.image m k →
      (k.jpegOrPngData 90).map (fun data => (t.putFullSize w m.key data,k)) = .ok (u,j) →
      K.Stocks u ∧ K.image m j := by
    intro k hk hok
    cases hdata : k.jpegOrPngData 90 with
    | error what => simp [hdata,Except.map] at hok
    | ok data =>
      simp only [hdata,Except.map] at hok
      obtain ⟨rfl,rfl⟩ := Prod.mk.inj (Except.ok.inj hok)
      exact ⟨hs.putFullSize hm (K.encode _ _ _ _ hk hdata),hk⟩
  unfold Thumbnailer.keepFullSize at hkept
  split_ifs at hkept
  · cases hscaled : i.scale ⟨t.maxSize,t.maxSize⟩ with
    | error what => simp [hscaled,bind,Except.bind] at hkept
    | ok k =>
      rw [hscaled] at hkept
      exact hencoded (K.scale _ _ _ _ hi hscaled) hkept
  · exact hencoded hi hkept

theorem Stocks.scaleFetched {i : Image} {policy : CachePolicy} (hs : K.Stocks t)
    (hm : Admissible r.media) (hi : K.image r.media i) :
    Kept K r.media (t.scaleFetched w r i policy) := by
  unfold Thumbnailer.scaleFetched
  split
  · exact hs.nothing rfl rfl fun _ => Thumbnailer.unexpected_ne
  · rename_i u j hkept
    have hu : K.Stocks u ∧ K.image r.media j := by
      split_ifs at hkept
      · exact hs.keepFullSize hm hi hkept
      · obtain ⟨rfl,rfl⟩ := Prod.mk.inj (Except.ok.inj hkept)
        exact ⟨hs,hi⟩
    split
    · exact hu.1.nothing rfl rfl fun _ => Thumbnailer.unexpected_ne
    · rename_i scaled hscaled
      exact hu.1.saveThumbnail hm (K.scale _ _ _ _ hu.2 hscaled)

theorem Stocks.handleFetched {d : ImageData} (hs : K.Stocks t) (hm : Admissible r.media)
    (hd : ∀ i policy location, d = .image i policy location → K.image r.media i) :
    Kept K r.media (t.handleFetched w r d) := by
  cases d with
  | image i policy location =>
    obtain ⟨hfull,hthumbnails,-⟩ := Transparency.noteAnswer_caches t w location
    exact (hs.of_caches hfull hthumbnails).scaleFetched hm (hd _ _ _ rfl)
  | failed status policy location =>
    obtain ⟨hdata,hfull,hthumbnails⟩ :=
      Transparency.handleFetched_failed t w r status policy location
    refine hs.nothing hfull hthumbnails fun f hf => ?_
    exact List.cons_ne_nil _ _ ((congrArg Transparency.data hf).symm.trans hdata)

/-- A look-up of one media puts only pictures of the kind into the caches, and returns one. -/
theorem Stocks.thumbnail (hs : K.Stocks t) (hm : Admissible r.media) (hw : Reads K.file w r.media)
    (hd : ∀ d, r.download = some d → Brings K.file r.media d) : Kept K r.media (t.thumbnail w r) := by
  have hlooked := Thumbnailer.looked t w r
  generalize t.thumbnail w r = res at hlooked ⊢
  cases hlooked with
  | threw => exact hs.nothing rfl rfl fun _ => Thumbnailer.unexpected_ne
  | hit hdata =>
    refine ⟨hs,fun f hf => ?_⟩
    obtain rfl := Option.some.inj (Outcome.returned.inj hf)
    exact (hs _ hm).2 _ _ hdata
  | scaled hv hfull hload =>
    exact hs.saveThumbnail hm (K.load _ _ _ _ ((hs _ hm).1 _ hfull) hload)
  | failure | aborted => exact hs.nothing rfl rfl (by simp)
  | fetched hv hfetch =>
    exact hs.handleFetched hm fun i policy location hi => fetched hw hd (hi ▸ hfetch)

theorem Stocks.evict (hs : K.Stocks t) (cache : Cache) (key : String) :
    K.Stocks (t.evict cache key) := by
  have hfound : ∀ {c : String → Option ImageFile} {k : String} {f : ImageFile},
      Function.update c key none k = some f → c k = some f := by
    intro c k f hf
    rw [Function.update_apply] at hf
    split_ifs at hf
    exact hf
  cases cache with
  | fullSize => exact fun m hm => ⟨fun f hf => (hs m hm).1 f (hfound hf),(hs m hm).2⟩
  | thumbnail => exact fun m hm => ⟨(hs m hm).1,fun size f hf => (hs m hm).2 size f (hfound hf)⟩
  | failure => exact hs

end Kind

/-- What is made of the pictures that a media is supplied with. -/
inductive Derived (Supplied : Media → ImageFile → Prop) (m : Media) : ImageFile ⊕ Image → Prop
  | supplied {f : ImageFile} (hf : Supplied m f) : Derived Supplied m (.inl f)
  | loaded {f : ImageFile} {size : QSize} {i : Image} (hf : Derived Supplied m (.inl f))
    (hi : Image.load f size = .ok i) : Derived Supplied m (.inr i)
  | scaled {i j : Image} {size : QSize} (hi : Derived Supplied m (.inr i))
    (hj : i.scale size = .ok j) : Derived Supplied m (.inr j)
  | encoded {i : Image} {quality : ℤ} {f : ImageFile} (hi : Derived Supplied m (.inr i))
    (hf : i.jpegOrPngData quality = .ok f) : Derived Supplied m (.inl f)

def Kind.derived (Supplied : Media → ImageFile → Prop) : Kind where
  file m f := Derived Supplied m (.inl f)
  image m i := Derived Supplied m (.inr i)
  load _ _ _ _ := .loaded
  scale _ _ _ _ := .scaled
  encode _ _ _ _ := .encoded

/-- A property of the media alone. -/
def Kind.ofMedia (P : Media → Prop) : Kind where
  file m _ := P m
  image m _ := P m
  load _ _ _ _ hm _ := hm
  scale _ _ _ _ hm _ := hm
  encode _ _ _ _ hm _ := hm

end UnityThumbnailer
