import UnityThumbnailer.EventSystem
import UnityThumbnailer.ScalingPaths
import UnityThumbnailer.ThumbnailRequest

/-! Transparency from the source image to the thumbnail. The calls of `thumbnail()` for
one key are followed over any number of requests, in any sizes, with any evictions. -/
namespace UnityThumbnailer
namespace Transparency

open EventSystem

/-- PNG keeps an alpha channel, JPEG has none. -/
def formatFor (alpha : Bool) : Format := if alpha then .png else .jpeg

/-- The ways `fetch()` gets an image: read at the requested size, taken at full size from
an audio file, or extracted or downloaded before. -/
inductive Source
  | imageFile | albumArt | downloaded
  deriving DecidableEq

def fileSource (w : World) (filename : String) : Option (Source × ImageFile) :=
  match w.mimetype filename with
  | .ok .image =>
    match w.readFile filename with
    | .ok (some f) => some (.imageFile,f)
    | _ => none
  | .ok .audio =>
    match w.albumArt filename with
    | .ok (some (some f)) => some (.albumArt,f)
    | _ => none
  | _ => none

def remoteSource : Option Download → Option (Source × ImageFile)
  | some (.artReply ⟨.success,some f⟩) => some (.downloaded,f)
  | _ => none

/-- The image that a request has at hand when no cache knows its key. -/
def source (w : World) (r : Request) : Option (Source × ImageFile) :=
  match r.media with
  | .localFile filename _ =>
    match r.download with
    | some (.extractor (.ok (some f))) => some (.downloaded,f)
    | some (.extractor _) => none
    | _ => fileSource w filename
  | .album .. | .artist .. => remoteSource r.download

/-- The thumbnailer with all the data it has returned. -/
structure Served where
  thumbnailer : Thumbnailer
  returned : List ImageFile

inductive Event
  | call (w : World) (r : Request)
  | evict (cache : Cache) (key : String)

/-- A call for the key with a valid size, whose image can only be the file. -/
def callFor (key : String) (file : ImageFile) (w : World) (r : Request) : Bool :=
  r.key = key && r.requestedSize.isValid && (source w r).all fun x => x.2 = file

def data : Outcome → List ImageFile
  | .returned (some d) => [d]
  | _ => []

def service (key : String) (file : ImageFile) : Machine Served Event where
  step s
    | .call w r =>
      if callFor key file w r then
        let result := s.thumbnailer.thumbnail w r
        some ⟨result.thumbnailer,data result.outcome ++ s.returned⟩
      else none
    | .evict cache key => some { s with thumbnailer := s.thumbnailer.evict cache key }

/-- No thumbnail and no image of the key is cached yet, and nothing was returned. -/
structure Fresh (key : String) (s : Served) : Prop where
  fullSize : s.thumbnailer.fullSizeCache key = none
  thumbnail : ∀ size, s.thumbnailer.thumbnailCache (Thumbnailer.sizedKey key size) = none
  returned : s.returned = []

/-- Everything returned, and the full-size entry, is PNG exactly for a source with alpha. -/
def Preserved (key : String) (file : ImageFile) (s : Served) : Prop :=
  (∀ d ∈ s.returned, d.format = formatFor file.hasAlpha) ∧
    ∀ d ∈ s.thumbnailer.fullSizeCache key, d.format = formatFor file.hasAlpha

/-- The size of the upright image. -/
def upright (file : ImageFile) : Pixbuf := applyOrientation file.orientation file.picture

/-- An image loaded to size comes from a picture with the alpha channel of the source, and
one that is scaled afterwards has none or fits. -/
def KeepsAlpha (file : ImageFile) (target : QSize) : Source → Prop
  | .imageFile => ∀ p ∈ loadThumbnail file target
      (if sideways file.orientation then target.transpose else target),
      p.hasAlpha = file.hasAlpha
  | .albumArt | .downloaded => file.hasAlpha = false ∨
      QSize.fits (upright file).width (upright file).height target = true

/-- At every call that no cache answers, the way to the image keeps the alpha channel. -/
def FetchesKeepAlpha (file : ImageFile) (s : Served) : Event → Prop
  | .call w r =>
    let target := s.thumbnailer.targetSize r.requestedSize
    s.thumbnailer.thumbnailCache (Thumbnailer.sizedKey r.key target) = none →
      s.thumbnailer.fullSizeCache r.key = none → s.thumbnailer.failureHit r.key w.now = false →
        ∀ x ∈ source w r, KeepsAlpha file target x.1
  | .evict .. => True

/-! ### Images and their encodings -/

/-- The flag of an image is only set for a pixbuf with an alpha channel. -/
def Honest (i : Image) : Prop := i.hasAlpha = true → i.pixbuf.hasAlpha = true

def encoded (i : Image) : ImageFile :=
  if i.hasAlpha then i.pngData else ⟨.jpeg,{ i.pixbuf with hasAlpha := false },none⟩

/-- Data of the right format that decodes to the right alpha channel. -/
structure Faithful (alpha : Bool) (d : ImageFile) : Prop where
  format : d.format = formatFor alpha
  decoded : d.picture.hasAlpha = alpha
  exif : d.exif = none

theorem jpegOrPngData_eq (i : Image) {quality : ℤ} (h0 : 0 ≤ quality) (h100 : quality ≤ 100) :
    i.jpegOrPngData quality = .ok (encoded i) := by
  have hrange : ¬ (quality < 0 ∨ 100 < quality) := by omega
  cases h : i.hasAlpha <;> simp [Image.jpegOrPngData,encoded,Image.jpegData,h,hrange]

theorem encoded_faithful {i : Image} (hi : Honest i) : Faithful i.hasAlpha (encoded i) := by
  cases h : i.hasAlpha with
  | true => exact ⟨by simp [encoded,h,formatFor,Image.pngData],by simpa [encoded,h,Image.pngData] using hi h,
      by simp [encoded,h,Image.pngData]⟩
  | false => exact ⟨by simp [encoded,h,formatFor],by simp [encoded,h],by simp [encoded,h]⟩

theorem encoded_format (i : Image) : (encoded i).format = formatFor i.hasAlpha := by
  cases h : i.hasAlpha <;> simp [encoded,h,formatFor,Image.pngData]

theorem formatFor_injective {a b : Bool} (h : formatFor a = formatFor b) : a = b := by
  cases a <;> cases b <;> simp_all [formatFor]

/-! ### Loading to a size -/

/-- Both sides of the size are constrained. -/
def Proper (size : QSize) : Prop := 0 < size.width ∧ 0 < size.height

theorem Proper.isValid {size : QSize} (h : Proper size) : size.isValid = true :=
  (QSize.isValid_iff size).mpr ⟨h.1.le,h.2.le⟩

theorem Proper.fillMissing {size : QSize} (h : Proper size) (w v : ℤ) :
    size.fillMissing w v = size := by
  simp [QSize.fillMissing,h.1.ne',h.2.ne']

theorem Proper.transpose {size : QSize} (h : Proper size) : Proper size.transpose := ⟨h.2,h.1⟩

/-- The pixbuf lies in the box. -/
def Within (p : Pixbuf) (size : QSize) : Prop := p.width ≤ size.width ∧ p.height ≤ size.height

theorem resized_within {p q : Pixbuf} {size : QSize}
    (hq : p.resized (p.size.scale size).width (p.size.scale size).height = some q) :
    Within q size := by
  obtain ⟨hw,hh,_⟩ := Pixbuf.resized_some hq
  have hle := BoxFit.fit_le (W:=size.width) (H:=size.height) p.width_pos p.height_pos
  rw [QSize.scale_eq (s:=p.size) size p.width_pos p.height_pos] at hw hh
  exact ⟨hw.le.trans hle.1,hh.le.trans hle.2⟩

/-- What `load_image()` returns is the source or a copy of the proposed size. -/
theorem loadImage_ok {p q : Pixbuf} {prepared : SizePrepared}
    (h : loadImage p prepared = .ok q) :
    prepared p.width p.height = none ∧ q = p ∨
      ∃ size, prepared p.width p.height = some size ∧ p.resized size.width size.height = some q := by
  unfold loadImage at h
  cases hs : prepared p.width p.height with
  | none =>
    simp only [hs,Except.ok.injEq] at h
    exact Or.inl ⟨rfl,h.symm⟩
  | some size =>
    simp only [hs] at h
    cases hr : p.resized size.width size.height with
    | none => simp [hr] at h
    | some r =>
      simp only [hr,Except.ok.injEq] at h
      exact Or.inr ⟨size,rfl,h ▸ hr⟩

theorem loadImage_hasAlpha {p q : Pixbuf} {prepared : SizePrepared}
    (h : loadImage p prepared = .ok q) : q.hasAlpha = p.hasAlpha := by
  rcases loadImage_ok h with ⟨_,rfl⟩ | ⟨size,_,hr⟩
  · rfl
  · exact (Pixbuf.resized_some hr).2.2

theorem maybeScaleImage_within {p q : Pixbuf} {size : QSize} (hs : Proper size)
    (h : loadImage p (maybeScaleImage size) = .ok q) : Within q size := by
  have hprep : maybeScaleImage size p.width p.height =
      if QSize.fits p.width p.height size then none else some (p.size.scale size) := by
    simp only [maybeScaleImage,hs.isValid,hs.fillMissing,Bool.not_true,Bool.false_eq_true,if_false]
    rfl
  rcases loadImage_ok h with ⟨hnone,rfl⟩ | ⟨box,hsome,hr⟩
  · have hfits : QSize.fits q.width q.height size = true := by
      by_contra hcon
      simp [hprep,hcon] at hnone
    exact QSize.fits_iff.mp hfits
  · rw [hprep] at hsome
    split at hsome
    · cases hsome
    · obtain rfl := Option.some.inj hsome
      exact resized_within hr

theorem maybeScaleThumbnail_within {p q : Pixbuf} {size : QSize} (hs : Proper size)
    (h : loadImage p (maybeScaleThumbnail size) = .ok q) : Within q size := by
  have hbox : (QSize.mk p.width p.height).scale (size.fillMissing p.width p.height) =
      p.size.scale size := by
    rw [hs.fillMissing]
    rfl
  rcases loadImage_ok h with ⟨hnone,rfl⟩ | ⟨box,hsome,hr⟩
  · simp only [maybeScaleThumbnail,hbox] at hnone
    split at hnone
    · cases hnone
    · split at hnone
      · cases hnone
      · rename_i hsame
        have hsame : (q.size.scale size).width = q.width ∧ (q.size.scale size).height = q.height := by
          simpa [not_or] using hsame
        have hle := BoxFit.fit_le (W:=size.width) (H:=size.height) q.width_pos q.height_pos
        rw [QSize.scale_eq (s:=q.size) size q.width_pos q.height_pos] at hsame
        exact ⟨hsame.1.symm.le.trans hle.1,hsame.2.symm.le.trans hle.2⟩
  · simp only [maybeScaleThumbnail,hbox] at hsome
    split at hsome
    · obtain rfl := Option.some.inj hsome
      have hnone := p.resized_of_not_pos (w:=0) (h:=0) (by omega)
      rw [hnone] at hr
      cases hr
    · split at hsome
      · obtain rfl := Option.some.inj hsome
        exact resized_within hr
      · cases hsome

theorem applyOrientation_hasAlpha (o : ℕ) (p : Pixbuf) :
    (applyOrientation o p).hasAlpha = p.hasAlpha := by
  unfold applyOrientation
  split <;> rfl

/-- Turned upright, what was loaded into the turned box lies in the box. -/
theorem applyOrientation_within {o : ℕ} {p : Pixbuf} {size : QSize}
    (h : Within p (if sideways o then size.transpose else size)) :
    Within (applyOrientation o p) size := by
  unfold applyOrientation
  split
  · rename_i hside
    rw [if_pos hside] at h
    exact ⟨h.2,h.1⟩
  · rename_i hup
    rwa [if_neg hup] at h

/-- The picture that `load()` decodes: the embedded thumbnail if it can be used. -/
theorem load_ok {file : ImageFile} {size : QSize} {i : Image} (h : Image.load file size = .ok i) :
    ∃ p : Pixbuf, i = ⟨applyOrientation file.orientation p,p.hasAlpha⟩ ∧
      (loadThumbnail file size (if sideways file.orientation then size.transpose else size) = some p ∨
        loadThumbnail file size
            (if sideways file.orientation then size.transpose else size) = none ∧
          loadImage file.picture (maybeScaleImage
            (if sideways file.orientation then size.transpose else size)) = .ok p) := by
  unfold Image.load at h
  cases ht : loadThumbnail file size
      (if sideways file.orientation then size.transpose else size) with
  | some p =>
    simp only [ht] at h
    exact ⟨p,(Except.ok.inj h).symm,Or.inl rfl⟩
  | none =>
    simp only [ht] at h
    cases hm : loadImage file.picture (maybeScaleImage
        (if sideways file.orientation then size.transpose else size)) with
    | error e => simp only [hm] at h; cases h
    | ok p =>
      simp only [hm] at h
      exact ⟨p,(Except.ok.inj h).symm,Or.inr ⟨rfl,rfl⟩⟩

theorem load_honest {file : ImageFile} {size : QSize} {i : Image}
    (h : Image.load file size = .ok i) : Honest i := by
  obtain ⟨p,rfl,_⟩ := load_ok h
  intro hp
  exact (applyOrientation_hasAlpha _ p).trans hp

/-- An image loaded to a proper size fits it. -/
theorem load_within {file : ImageFile} {size : QSize} {i : Image} (hs : Proper size)
    (h : Image.load file size = .ok i) : Within i.pixbuf size := by
  obtain ⟨p,rfl,hp⟩ := load_ok h
  have hbox : Proper (if sideways file.orientation then size.transpose else size) := by
    split
    · exact hs.transpose
    · exact hs
  apply applyOrientation_within
  rcases hp with hthumb | ⟨_,hmain⟩
  · have ht := hthumb
    simp only [loadThumbnail,hs.isValid,if_true,Option.bind_eq_some_iff] at ht
    obtain ⟨t,_,ht⟩ := ht
    apply maybeScaleThumbnail_within (p:=t) hbox
    cases hl : loadImage t (maybeScaleThumbnail
        (if sideways file.orientation then size.transpose else size)) with
    | error e => rw [hl] at ht; cases ht
    | ok q =>
      rw [hl] at ht
      exact congrArg Except.ok (Option.some.inj ht)
  · exact maybeScaleImage_within hbox hmain

/-- Without embedded thumbnail the flag is the alpha channel of the picture. -/
theorem load_hasAlpha {file : ImageFile} {size : QSize} {i : Image}
    (ht : loadThumbnail file size
      (if sideways file.orientation then size.transpose else size) = none)
    (h : Image.load file size = .ok i) : i.hasAlpha = file.hasAlpha := by
  obtain ⟨p,rfl,hp⟩ := load_ok h
  rcases hp with hp | ⟨_,hp⟩
  · rw [ht] at hp
    cases hp
  · exact loadImage_hasAlpha hp

/-- An image loaded to size has the alpha channel of the source exactly when the picture
that was decoded has it. -/
theorem load_keeps_iff {file : ImageFile} {size : QSize} {i : Image}
    (h : Image.load file size = .ok i) :
    i.hasAlpha = file.hasAlpha ↔ KeepsAlpha file size .imageFile := by
  cases ht : loadThumbnail file size
      (if sideways file.orientation then size.transpose else size) with
  | none => simpa [KeepsAlpha,ht] using load_hasAlpha ht h
  | some t =>
    obtain ⟨p,rfl,hp⟩ := load_ok h
    rcases hp with hp | ⟨hp,_⟩
    · obtain rfl : t = p := Option.some.inj (ht.symm.trans hp)
      simp [KeepsAlpha,ht]
    · rw [ht] at hp
      cases hp

/-! ### Scaling -/

/-- `Image::scale` to a proper size keeps the flag only of an image that fits. -/
theorem scale_proper (i : Image) {size : QSize} (hs : Proper size) :
    ∃ j, i.scale size = .ok j ∧ (Honest i → Honest j) ∧
      j.hasAlpha = (i.hasAlpha && QSize.fits i.pixbuf.width i.pixbuf.height size) := by
  have hbox : i.pixbuf.boxFor size = size := hs.fillMissing _ _
  by_cases hfits : QSize.fits i.pixbuf.width i.pixbuf.height (i.pixbuf.boxFor size) = true
  · refine ⟨i,scale_of_fits hfits,id,?_⟩
    rw [← hbox,hfits,Bool.and_true]
  · obtain ⟨p,hp,_,_⟩ := scale_of_not_fits hs.isValid hfits
    refine ⟨_,hp,fun _ h => (by cases h),?_⟩
    rw [← hbox]
    simp [hfits]

theorem targetSize_proper (t : Thumbnailer) {r : QSize} (hr : r.isValid = true) :
    Proper (t.targetSize r) := by
  have hmax := t.maxSize_pos
  obtain ⟨h1,h2⟩ := (QSize.isValid_iff r).mp hr
  unfold Proper Thumbnailer.targetSize
  simp only
  split_ifs <;> omega

theorem targetSize_le (t : Thumbnailer) (r : QSize) :
    (t.targetSize r).width ≤ t.maxSize ∧ (t.targetSize r).height ≤ t.maxSize := by
  unfold Thumbnailer.targetSize
  simp only
  split_ifs <;> omega

/-- What the save stage returns and stores is the encoding of the scaled image. -/
theorem saveThumbnail_eq (t : Thumbnailer) (w : World) (r : Request) (status : FetchStatus)
    (i : Image) :
    t.saveThumbnail w r status i = ⟨.returned (some (encoded i)),
      t.putThumbnail w (Thumbnailer.sizedKey r.key (t.targetSize r.requestedSize)) (encoded i),
      status⟩ := by
  have hdata : i.jpegOrPngData 75 = .ok (encoded i) := jpegOrPngData_eq i (by omega) (by omega)
  simp only [Thumbnailer.saveThumbnail,Thumbnailer.thumbnailQuality,hdata]

/-- The image is kept as it is below the maximum size, and reduced otherwise. -/
theorem keepFullSize_eq (t : Thumbnailer) (w : World) (key : String) {i : Image} (hi : Honest i) :
    ∃ j, t.keepFullSize w key i = .ok (t.putFullSize w key (encoded j),j) ∧ Honest j ∧
      j.hasAlpha = (i.hasAlpha &&
        QSize.fits i.pixbuf.width i.pixbuf.height ⟨t.maxSize,t.maxSize⟩) ∧
      (QSize.fits i.pixbuf.width i.pixbuf.height ⟨t.maxSize,t.maxSize⟩ = true → j = i) := by
  have hfits : QSize.fits i.pixbuf.width i.pixbuf.height ⟨t.maxSize,t.maxSize⟩ = true ↔
      ¬ t.maxSize < max i.pixbuf.width i.pixbuf.height := by
    rw [QSize.fits_iff,not_lt,max_le_iff]
  unfold Thumbnailer.keepFullSize
  by_cases hlarge : t.maxSize < max i.pixbuf.width i.pixbuf.height
  · obtain ⟨j,hj,hhonest,halpha⟩ := @scale_proper i ⟨t.maxSize,t.maxSize⟩
      ⟨t.maxSize_pos,t.maxSize_pos⟩
    refine ⟨j,?_,hhonest hi,halpha,fun h => absurd hlarge (hfits.mp h)⟩
    simp only [hlarge,if_true,hj]
    change Except.bind (j.jpegOrPngData 90) _ = _
    rw [jpegOrPngData_eq j (by omega) (by omega)]
    rfl
  · refine ⟨i,?_,hi,by simp [hfits.mpr hlarge],fun _ => rfl⟩
    simp only [hlarge,if_false]
    change Except.bind (i.jpegOrPngData 90) _ = _
    rw [jpegOrPngData_eq i (by omega) (by omega)]
    rfl

/-- The two entries that a fetched image leaves behind, and the data it is returned as. -/
structure Scaled (t : Thumbnailer) (w : World) (r : Request) (i : Image) (policy : CachePolicy)
    (result : Result) (d : ImageFile) : Prop where
  outcome : result.outcome = .returned (some d)
  format : d.format = formatFor (i.hasAlpha && QSize.fits i.pixbuf.width i.pixbuf.height
    (t.targetSize r.requestedSize))
  thumbnail : result.thumbnailer.thumbnailCache = Thumbnailer.put t.thumbnailCache
    (w.accepts .thumbnail) (Thumbnailer.sizedKey r.key (t.targetSize r.requestedSize)) d
  fullSize : result.thumbnailer.fullSizeCache = t.fullSizeCache ∨
    ∃ e, policy = .cacheFullsize ∧ Faithful (i.hasAlpha && QSize.fits i.pixbuf.width
        i.pixbuf.height ⟨t.maxSize,t.maxSize⟩) e ∧
      result.thumbnailer.fullSizeCache =
        Thumbnailer.put t.fullSizeCache (w.accepts .fullSize) r.key e

theorem fits_max_of_target {t : Thumbnailer} {r : QSize} {p : Pixbuf}
    (h : QSize.fits p.width p.height (t.targetSize r) = true) :
    QSize.fits p.width p.height ⟨t.maxSize,t.maxSize⟩ = true := by
  have hle := targetSize_le t r
  rw [QSize.fits_iff] at h ⊢
  exact ⟨h.1.trans hle.1,h.2.trans hle.2⟩

theorem scaleFetched_scaled (t : Thumbnailer) (w : World) (r : Request) {i : Image}
    (policy : CachePolicy) (hr : r.requestedSize.isValid = true) (hi : Honest i) :
    ∃ d, Scaled t w r i policy (t.scaleFetched w r i policy) d := by
  have hs := targetSize_proper t hr
  unfold Thumbnailer.scaleFetched
  cases policy with
  | dontCacheFullsize =>
    obtain ⟨j,hj,_,halpha⟩ := scale_proper i hs
    refine ⟨encoded j,?_⟩
    simp only [reduceCtorEq,if_false,hj,saveThumbnail_eq]
    exact ⟨rfl,by rw [encoded_format,halpha],rfl,Or.inl rfl⟩
  | cacheFullsize =>
    obtain ⟨k,hk,hhonest,hkalpha,hsame⟩ := keepFullSize_eq t w r.key hi
    obtain ⟨j,hj,_,halpha⟩ := scale_proper k hs
    refine ⟨encoded j,?_⟩
    have htarget : (t.putFullSize w r.key (encoded k)).targetSize r.requestedSize =
        t.targetSize r.requestedSize := rfl
    simp only [if_true,hk,htarget,hj,saveThumbnail_eq]
    refine ⟨rfl,?_,rfl,Or.inr ⟨encoded k,rfl,hkalpha ▸ encoded_faithful hhonest,rfl⟩⟩
    rw [encoded_format,halpha]
    congr 1
    by_cases hmax : QSize.fits i.pixbuf.width i.pixbuf.height ⟨t.maxSize,t.maxSize⟩ = true
    · rw [hsame hmax]
    · have htgt : ¬ QSize.fits i.pixbuf.width i.pixbuf.height
          (t.targetSize r.requestedSize) = true := fun h => hmax (fits_max_of_target h)
      rw [hkalpha]
      simp [hmax,htgt]

/-! ### One call of `thumbnail()` -/

/-- The image that a source decodes to for a target size. -/
def decoded (target : QSize) : Source × ImageFile → Except String Image
  | (.imageFile,f) => Image.load f target
  | (_,f) => Image.load f .invalid

def policyFor : Source → CachePolicy
  | .downloaded => .cacheFullsize
  | .imageFile | .albumArt => .dontCacheFullsize

/-- A fetch delivers the decoded source, or no image. -/
inductive Fetched (w : World) (r : Request) (target : QSize) : Option ImageData → Prop
  | image (x : Source × ImageFile) (i : Image) (location : Location)
      (hsource : source w r = some x) (hdecoded : decoded target x = .ok i) :
      Fetched w r target (some (.image i (policyFor x.1) location))
  | failed (status : FetchStatus) (policy : CachePolicy) (location : Location)
      (hsource : ∀ x ∈ source w r, ∃ e, decoded target x = .error e) :
      Fetched w r target (some (.failed status policy location))
  | aborted (hsource : source w r = none) : Fetched w r target none

/-- A source that is found is decoded, for better or worse. -/
theorem Fetched.of_source {w : World} {r : Request} {target : QSize} {x : Source × ImageFile}
    (hsource : source w r = some x) (status : FetchStatus) (location : Location) :
    Fetched w r target (some (match decoded target x with
      | .ok i => .image i (policyFor x.1) location
      | .error _ => .failed status (policyFor x.1) location)) := by
  cases hdecoded : decoded target x with
  | error e => exact .failed status _ location (by simp [hsource,hdecoded])
  | ok i => exact .image x i location hsource hdecoded

theorem fetchLocal_fetched (w : World) (r : Request) (target : QSize) {filename : String} {st : Stat}
    (hm : r.media = .localFile filename st) :
    Fetched w r target (some (fetchLocal w filename r.download target)) := by
  have hfile : ∀ (d : Option Download), r.download = d → (∀ read, d ≠ some (.extractor read)) →
      Fetched w r target (some (fetchLocal w filename none target)) := by
    intro d hd hne
    have hsource : source w r = fileSource w filename := by
      rcases d with _ | (read | reply)
      · simp [source,hm,hd]
      · exact absurd rfl (hne read)
      · simp [source,hm,hd]
    unfold fetchLocal
    cases hmime : w.mimetype filename with
    | error e => exact .failed _ _ _ (by simp [hsource,fileSource,hmime])
    | ok content =>
      cases content with
      | video | other => exact .failed _ _ _ (by simp [hsource,fileSource,hmime])
      | image =>
        cases hread : w.readFile filename with
        | error e => exact .failed _ _ _ (by simp [hsource,fileSource,hmime,hread])
        | ok bytes =>
          cases bytes with
          | none => exact .failed _ _ _ (by simp [hsource,fileSource,hmime,hread])
          | some f =>
            have hs : source w r = some (.imageFile,f) := by simp [hsource,fileSource,hmime,hread]
            exact .of_source hs .hardError .localMedia
      | audio =>
        cases hart : w.albumArt filename with
        | error e => exact .failed _ _ _ (by simp [hsource,fileSource,hmime,hart])
        | ok art =>
          rcases art with _ | (_ | f)
          · exact .failed _ _ _ (by simp [hsource,fileSource,hmime,hart])
          · exact .failed _ _ _ (by simp [hsource,fileSource,hmime,hart])
          · have hs : source w r = some (.albumArt,f) := by simp [hsource,fileSource,hmime,hart]
            exact .of_source hs .hardError .localMedia
  cases hd : r.download with
  | none => exact hfile none hd (by simp)
  | some d =>
    cases d with
    | artReply reply => exact hfile _ hd (by simp)
    | extractor read =>
      unfold fetchLocal
      rcases read with e | (_ | f)
      · exact .failed _ _ _ (by simp [source,hm,hd])
      · exact .failed _ _ _ (by simp [source,hm,hd])
      · have hs : source w r = some (.downloaded,f) := by simp [source,hm,hd]
        exact .of_source hs .hardError .localMedia

theorem commonFetch_fetched (w : World) (r : Request) (target : QSize)
    (hm : ∀ filename st, r.media ≠ .localFile filename st) :
    Fetched w r target (commonFetch r.download) := by
  have hsource : source w r = remoteSource r.download := by
    cases hmedia : r.media with
    | localFile filename st => exact absurd hmedia (hm filename st)
    | album | artist => simp [source,hmedia]
  cases hd : r.download with
  | none => exact .failed _ _ _ (by simp [hsource,hd,remoteSource])
  | some d =>
    cases d with
    | extractor read => exact .failed _ _ _ (by simp [hsource,hd,remoteSource])
    | artReply reply =>
      obtain ⟨status,bytes⟩ := reply
      cases status with
      | notFinished => exact .aborted (by simp [hsource,hd,remoteSource])
      | notFound | temporaryError | hardError | networkDown | timeout =>
        exact .failed _ _ _ (by simp [hsource,hd,remoteSource])
      | success =>
        cases bytes with
        | none => exact .failed _ _ _ (by simp [hsource,hd,remoteSource])
        | some f =>
          have hs : source w r = some (.downloaded,f) := by simp [hsource,hd,remoteSource]
          have hfetched := @Fetched.of_source w r target _ hs .hardError .remote
          have hdec : decode (some f) .invalid = decoded target (.downloaded,f) := rfl
          simp only [commonFetch,hdec]
          cases hl : decoded target (.downloaded,f) with
          | error e => rwa [hl] at hfetched
          | ok i => rwa [hl] at hfetched

theorem fetch_fetched (w : World) (r : Request) (target : QSize) :
    Fetched w r target (fetch w r target) := by
  unfold fetch
  cases hm : r.media with
  | localFile filename st => exact fetchLocal_fetched w r target hm
  | album | artist => exact commonFetch_fetched w r target (by simp [hm])

/-- Without an image no data is returned, and the caches of images are left alone. -/
theorem handleFetched_failed (t : Thumbnailer) (w : World) (r : Request) (status : FetchStatus)
    (policy : CachePolicy) (location : Location) :
    data (t.handleFetched w r (.failed status policy location)).outcome = [] ∧
      (t.handleFetched w r (.failed status policy location)).thumbnailer.fullSizeCache =
        t.fullSizeCache ∧
      (t.handleFetched w r (.failed status policy location)).thumbnailer.thumbnailCache =
        t.thumbnailCache := by
  cases status <;> simp only [Thumbnailer.handleFetched,Thumbnailer.noteAnswer] <;>
    (try split) <;> simp [data,Thumbnailer.putFailure]

/-! ### Runs -/

/-- Every entry of the key, and everything returned, is encoded as the source asks for. -/
structure Kept (key : String) (file : ImageFile) (s : Served) : Prop where
  returned : ∀ d ∈ s.returned, d.format = formatFor file.hasAlpha
  fullSize : ∀ d ∈ s.thumbnailer.fullSizeCache key, Faithful file.hasAlpha d
  thumbnail : ∀ size, ∀ d ∈ s.thumbnailer.thumbnailCache (Thumbnailer.sizedKey key size),
    d.format = formatFor file.hasAlpha

theorem Fresh.kept {key : String} {file : ImageFile} {s : Served} (h : Fresh key s) :
    Kept key file s where
  returned := by simp [h.returned]
  fullSize := by simp [h.fullSize]
  thumbnail := by simp [h.thumbnail]

theorem Kept.preserved {key : String} {file : ImageFile} {s : Served} (h : Kept key file s) :
    Preserved key file s := ⟨h.returned,fun d hd => (h.fullSize d hd).format⟩

theorem Kept.evict {key k : String} {file : ImageFile} {s : Served} (h : Kept key file s)
    (cache : Cache) : Kept key file { s with thumbnailer := s.thumbnailer.evict cache k } := by
  have hdrop : ∀ (c : String → Option ImageFile) (x : String) (d : ImageFile),
      Function.update c k none x = some d → c x = some d := by
    intro c x d hd
    by_cases hx : x = k
    · subst hx
      simp at hd
    · rwa [Function.update_of_ne hx] at hd
  cases cache with
  | fullSize => exact ⟨h.returned,fun d hd => h.fullSize d (hdrop _ _ d hd),h.thumbnail⟩
  | thumbnail => exact ⟨h.returned,h.fullSize,fun size d hd => h.thumbnail size d (hdrop _ _ d hd)⟩
  | failure => exact ⟨h.returned,h.fullSize,h.thumbnail⟩

/-- The full-size entry of a source loads with the alpha channel of the source. -/
theorem Faithful.load {alpha : Bool} {e : ImageFile} {size : QSize} {i : Image}
    (he : Faithful alpha e) (h : Image.load e size = .ok i) : i.hasAlpha = alpha := by
  have hnone : e.thumbnail = none := by simp [ImageFile.thumbnail,he.exif]
  have hthumb : loadThumbnail e size
      (if sideways e.orientation then size.transpose else size) = none := by
    simp [loadThumbnail,hnone]
  exact (load_hasAlpha hthumb h).trans he.decoded

/-- What a decoded source contributes to the format of the thumbnail. -/
theorem decoded_format_iff {file : ImageFile} {target : QSize} {kind : Source} {i : Image}
    (hs : Proper target) (h : decoded target (kind,file) = .ok i) :
    (i.hasAlpha && QSize.fits i.pixbuf.width i.pixbuf.height target) = file.hasAlpha ↔
      KeepsAlpha file target kind := by
  have hfull : Image.load file .invalid = .ok i →
      ((i.hasAlpha && QSize.fits i.pixbuf.width i.pixbuf.height target) = file.hasAlpha ↔
        file.hasAlpha = false ∨
          QSize.fits (upright file).width (upright file).height target = true) := by
    intro hl
    rw [load_full] at hl
    obtain rfl := Except.ok.inj hl
    change (file.hasAlpha && QSize.fits (upright file).width (upright file).height target) =
      file.hasAlpha ↔ _
    cases file.hasAlpha <;> simp
  cases kind with
  | imageFile =>
    have hfits := QSize.fits_iff.mpr (load_within hs h)
    rw [hfits,Bool.and_true]
    exact load_keeps_iff h
  | albumArt => exact hfull h
  | downloaded => exact hfull h

theorem decoded_honest {target : QSize} {x : Source × ImageFile} {i : Image}
    (h : decoded target x = .ok i) : Honest i := by
  obtain ⟨kind,f⟩ := x
  cases kind with
  | imageFile => exact @load_honest f target i h
  | albumArt | downloaded => exact @load_honest f .invalid i h

/-- An image that goes into the full-size cache was loaded at full size. -/
theorem decoded_cached_hasAlpha {file : ImageFile} {target : QSize} {kind : Source} {i : Image}
    (h : decoded target (kind,file) = .ok i) (hpolicy : policyFor kind = .cacheFullsize) :
    i.hasAlpha = file.hasAlpha := by
  cases kind with
  | imageFile | albumArt => cases hpolicy
  | downloaded =>
    have hload : Image.load file .invalid = .ok i := h
    rw [load_full] at hload
    obtain rfl := Except.ok.inj hload
    rfl

/-- A source that cannot be decoded has no alpha channel to lose. -/
theorem keepsAlpha_of_error {file : ImageFile} {target : QSize} {kind : Source} {e : String}
    (h : decoded target (kind,file) = .error e) : KeepsAlpha file target kind := by
  cases kind with
  | imageFile =>
    intro p hp
    have hload : Image.load file target = .error e := h
    unfold Image.load at hload
    simp only [Option.mem_def] at hp
    simp only [hp] at hload
    cases hload
  | albumArt | downloaded =>
    have hload : Image.load file .invalid = .error e := h
    rw [load_full] at hload
    cases hload

/-- If scaling to the target keeps the alpha channel, so does scaling to the maximum. -/
theorem fits_max_keeps {t : Thumbnailer} {size : QSize} {i : Image}
    (h : (i.hasAlpha && QSize.fits i.pixbuf.width i.pixbuf.height (t.targetSize size)) =
      i.hasAlpha) :
    (i.hasAlpha && QSize.fits i.pixbuf.width i.pixbuf.height ⟨t.maxSize,t.maxSize⟩) =
      i.hasAlpha := by
  cases hfits : QSize.fits i.pixbuf.width i.pixbuf.height (t.targetSize size) with
  | true => rw [fits_max_of_target hfits,Bool.and_true]
  | false =>
    rw [hfits,Bool.and_false] at h
    rw [← h,Bool.false_and]

/-- Noting the answer of the server leaves the caches and the sizes alone. -/
theorem noteAnswer_caches (t : Thumbnailer) (w : World) (location : Location) :
    (t.noteAnswer w location).fullSizeCache = t.fullSizeCache ∧
      (t.noteAnswer w location).thumbnailCache = t.thumbnailCache ∧
      (t.noteAnswer w location).maxSize = t.maxSize := by
  unfold Thumbnailer.noteAnswer
  split <;> exact ⟨rfl,rfl,rfl⟩

section Call

variable {key : String} {file : ImageFile} {s : Served} {w : World} {r : Request}

theorem callFor_iff : callFor key file w r = true ↔
    r.key = key ∧ r.requestedSize.isValid = true ∧ ∀ x ∈ source w r, x.2 = file := by
  simp [callFor,and_assoc,Option.all_eq_true]

/-- A call that the caches answer. -/
theorem call_cached (h : Kept key file s) (hcall : callFor key file w r = true)
    (hcached : ¬ (s.thumbnailer.thumbnailCache (Thumbnailer.sizedKey r.key
        (s.thumbnailer.targetSize r.requestedSize)) = none ∧
      s.thumbnailer.fullSizeCache r.key = none ∧ s.thumbnailer.failureHit r.key w.now = false)) :
    Kept key file ⟨(s.thumbnailer.thumbnail w r).thumbnailer,
      data (s.thumbnailer.thumbnail w r).outcome ++ s.returned⟩ := by
  obtain ⟨rfl,hr,_⟩ := callFor_iff.mp hcall
  cases hthumb : s.thumbnailer.thumbnailCache (Thumbnailer.sizedKey r.key
      (s.thumbnailer.targetSize r.requestedSize)) with
  | some d =>
    rw [Thumbnailer.thumbnail_hit hr hthumb]
    exact ⟨List.forall_mem_cons.mpr ⟨h.thumbnail _ d hthumb,h.returned⟩,h.fullSize,h.thumbnail⟩
  | none =>
    cases hfull : s.thumbnailer.fullSizeCache r.key with
    | some e =>
      rw [Thumbnailer.thumbnail_fullSize hr hthumb hfull]
      cases hload : Image.load e (s.thumbnailer.targetSize r.requestedSize) with
      | error what => exact h
      | ok i =>
        have hformat : (encoded i).format = formatFor file.hasAlpha := by
          rw [encoded_format,(h.fullSize e hfull).load hload]
        simp only [saveThumbnail_eq]
        refine ⟨List.forall_mem_cons.mpr ⟨hformat,h.returned⟩,h.fullSize,fun size d hd => ?_⟩
        rcases Thumbnailer.put_some hd with rfl | hold
        · exact hformat
        · exact h.thumbnail size d hold
    | none =>
      have hfail : s.thumbnailer.failureHit r.key w.now = true := by
        by_contra hcon
        exact hcached ⟨hthumb,hfull,Bool.eq_false_iff.mpr hcon⟩
      rw [Thumbnailer.thumbnail_failure hr hthumb hfull hfail]
      exact h

/-- A call that fetches the image: the data has the right format exactly when the way to
the image keeps its alpha channel, and then so has the full-size entry. -/
theorem call_fetched (h : Kept key file s) (hcall : callFor key file w r = true)
    (hthumb : s.thumbnailer.thumbnailCache (Thumbnailer.sizedKey r.key
        (s.thumbnailer.targetSize r.requestedSize)) = none)
    (hfull : s.thumbnailer.fullSizeCache r.key = none)
    (hfail : s.thumbnailer.failureHit r.key w.now = false) :
    let t : Served := ⟨(s.thumbnailer.thumbnail w r).thumbnailer,
      data (s.thumbnailer.thumbnail w r).outcome ++ s.returned⟩
    let keeps := ∀ x ∈ source w r,
      KeepsAlpha file (s.thumbnailer.targetSize r.requestedSize) x.1
    (keeps → Kept key file t) ∧ (¬ keeps → ¬ Preserved key file t) := by
  obtain ⟨rfl,hr,hsame⟩ := callFor_iff.mp hcall
  have hproper := targetSize_proper s.thumbnailer hr
  intro t keeps
  have ht : t = ⟨(s.thumbnailer.thumbnail w r).thumbnailer,
      data (s.thumbnailer.thumbnail w r).outcome ++ s.returned⟩ := rfl
  rw [Thumbnailer.thumbnail_fetch hr hthumb hfull hfail] at ht
  have hfetch := fetch_fetched w r (s.thumbnailer.targetSize r.requestedSize)
  generalize fetch w r (s.thumbnailer.targetSize r.requestedSize) = fetched at hfetch ht
  cases hfetch with
  | aborted hsource =>
    have hkeeps : keeps := by simp [keeps,hsource]
    exact ⟨fun _ => ht ▸ h,fun hcon => absurd hkeeps hcon⟩
  | failed status policy location hsource =>
    obtain ⟨hdata,hfs,hts⟩ := handleFetched_failed s.thumbnailer w r status policy location
    have hkept : Kept r.key file t := by
      rw [ht]
      simp only [hdata,List.nil_append]
      exact ⟨h.returned,by rw [hfs]; exact h.fullSize,by rw [hts]; exact h.thumbnail⟩
    refine ⟨fun _ => hkept,fun hcon => absurd ?_ hcon⟩
    intro x hx
    obtain ⟨e,he⟩ := hsource x hx
    obtain ⟨kind,f⟩ := x
    obtain rfl : f = file := hsame _ hx
    exact keepsAlpha_of_error he
  | image x i location hsource hdecoded =>
    obtain ⟨kind,f⟩ := x
    obtain rfl : f = file := hsame _ hsource
    have hhonest := decoded_honest hdecoded
    have hkeeps : keeps ↔ KeepsAlpha f (s.thumbnailer.targetSize r.requestedSize) kind := by
      simp [keeps,hsource]
    rw [hkeeps,← decoded_format_iff hproper hdecoded]
    have hcaches := noteAnswer_caches s.thumbnailer w location
    have htarget : (s.thumbnailer.noteAnswer w location).targetSize r.requestedSize =
        s.thumbnailer.targetSize r.requestedSize := by
      simp only [Thumbnailer.targetSize,hcaches.2.2]
    obtain ⟨d,hd⟩ := scaleFetched_scaled (s.thumbnailer.noteAnswer w location) w r
      (policyFor kind) hr hhonest
    have hformat := hd.format
    rw [htarget] at hformat
    have hdt : d ∈ t.returned := by
      rw [ht]
      simp [Thumbnailer.handleFetched,hd.outcome,data]
    refine ⟨fun hflag => ?_,fun hflag hp => hflag (formatFor_injective (hformat ▸ hp.1 d hdt))⟩
    rw [hflag] at hformat
    rw [ht]
    simp only [Thumbnailer.handleFetched,hd.outcome,data,List.cons_append,List.nil_append]
    refine ⟨List.forall_mem_cons.mpr ⟨hformat,h.returned⟩,fun e he => ?_,fun size e he => ?_⟩
    · rcases hd.fullSize with hsame | ⟨e',hpolicy,hfaithful,hput⟩
      · simp only [hsame,hcaches.1] at he
        exact h.fullSize e he
      · simp only [hput] at he
        rcases Thumbnailer.put_some he with rfl | hold
        · have halpha := decoded_cached_hasAlpha hdecoded hpolicy
          have hmax := fits_max_keeps (hflag.trans halpha.symm)
          rw [hcaches.2.2,hmax,halpha] at hfaithful
          exact hfaithful
        · rw [hcaches.1] at hold
          exact h.fullSize e hold
    · simp only [hd.thumbnail] at he
      rcases Thumbnailer.put_some he with rfl | hold
      · exact hformat
      · rw [hcaches.2.1] at hold
        exact h.thumbnail size e hold

end Call

theorem step_call {key : String} {file : ImageFile} {s t : Served} {w : World} {r : Request}
    (hstep : (service key file).step s (.call w r) = some t) :
    callFor key file w r = true ∧ t = ⟨(s.thumbnailer.thumbnail w r).thumbnailer,
      data (s.thumbnailer.thumbnail w r).outcome ++ s.returned⟩ := by
  simp only [service,Option.ite_none_right_eq_some,Option.some.injEq] at hstep
  exact ⟨hstep.1,hstep.2.symm⟩

/-- A step that keeps the alpha channel keeps all entries right. -/
theorem step_kept {key : String} {file : ImageFile} (s : Served) (e : Event) (t : Served)
    (h : Kept key file s) (hg : FetchesKeepAlpha file s e)
    (hstep : (service key file).step s e = some t) : Kept key file t := by
  cases e with
  | evict cache k =>
    obtain rfl := Option.some.inj hstep
    exact h.evict cache
  | call w r =>
    obtain ⟨hcall,rfl⟩ := step_call hstep
    by_cases hmiss : s.thumbnailer.thumbnailCache (Thumbnailer.sizedKey r.key
        (s.thumbnailer.targetSize r.requestedSize)) = none ∧
      s.thumbnailer.fullSizeCache r.key = none ∧ s.thumbnailer.failureHit r.key w.now = false
    · exact (call_fetched h hcall hmiss.1 hmiss.2.1 hmiss.2.2).1 (hg hmiss.1 hmiss.2.1 hmiss.2.2)
    · exact call_cached h hcall hmiss

/-- A step that loses the alpha channel shows in what it returns. -/
theorem step_lost {key : String} {file : ImageFile} (s : Served) (e : Event) (t : Served)
    (h : Kept key file s) (hg : ¬ FetchesKeepAlpha file s e)
    (hstep : (service key file).step s e = some t) : ¬ Preserved key file t := by
  cases e with
  | evict cache k => exact absurd trivial hg
  | call w r =>
    obtain ⟨hcall,rfl⟩ := step_call hstep
    by_cases hmiss : s.thumbnailer.thumbnailCache (Thumbnailer.sizedKey r.key
        (s.thumbnailer.targetSize r.requestedSize)) = none ∧
      s.thumbnailer.fullSizeCache r.key = none ∧ s.thumbnailer.failureHit r.key w.now = false
    · refine (call_fetched h hcall hmiss.1 hmiss.2.1 hmiss.2.2).2 fun hkeeps => hg ?_
      exact fun _ _ _ => hkeeps
    · refine absurd ?_ hg
      exact fun h1 h2 h3 => absurd ⟨h1,h2,h3⟩ hmiss

/-- Along the calls for one key, transparency is preserved in all that is returned and in
the full-size entry exactly when every fetch of the image keeps its alpha channel. -/
theorem transparencyPreserved_iff (key : String) (file : ImageFile) (s t : Served)
    (es : List Event) (hs : Fresh key s) (hrun : (service key file).run s es = some t) :
    (service key file).Always (Preserved key file) s es ↔
      (service key file).AllSteps (FetchesKeepAlpha file) s es :=
  Machine.always_iff_allSteps step_kept (fun _ h => h.preserved) step_lost hs.kept hrun

/-- An audio file whose embedded cover is a 600 by 600 PNG with an alpha channel. -/
def song : Media := .localFile "/music/song.ogg" ⟨7,0,0,0,0⟩

def cover : ImageFile := ⟨.png,⟨600,600,true,by decide,by decide⟩,none⟩

def musicFolder : World where
  now := 0
  mimetype := fun _ => .ok .audio
  readFile := fun _ => .error "Could not open file"
  albumArt := fun _ => .ok (some (some cover))
  accepts := fun _ => true

def emptyCaches : Served := ⟨.fresh,[]⟩

theorem emptyCaches_fresh (key : String) : Fresh key emptyCaches := ⟨rfl,fun _ => rfl,rfl⟩

instance (key : String) (file : ImageFile) (s : Served) : Decidable (Preserved key file s) :=
  inferInstanceAs (Decidable (_ ∧ _))

theorem transparencyPreserved_cover :
    Fresh song.key emptyCaches ∧
      ∃ t, (service song.key cover).run emptyCaches
          [.call musicFolder (.new song ⟨0,1000⟩)] = some t ∧
        ((service song.key cover).Always (Preserved song.key cover) emptyCaches
            [.call musicFolder (.new song ⟨0,1000⟩)] ↔
          (service song.key cover).AllSteps (FetchesKeepAlpha cover) emptyCaches
            [.call musicFolder (.new song ⟨0,1000⟩)]) :=
  ⟨emptyCaches_fresh _,_,rfl,transparencyPreserved_iff song.key cover emptyCaches _ _
    (emptyCaches_fresh _) rfl⟩

/-- Asked for 256 by 256, the service returns the cover as JPEG. -/
theorem cover_flattened :
    ¬ (service song.key cover).Always (Preserved song.key cover) emptyCaches
      [.call musicFolder (.new song ⟨256,256⟩)] := by
  decide

end Transparency
end UnityThumbnailer
