import UnityThumbnailer.Image
import UnityThumbnailer.BackoffAdjuster

/-! Requests for a thumbnail and the look-up in the three caches. `thumbnail()` runs
once before and, if something has to be downloaded, once after the download. -/
namespace UnityThumbnailer

inductive FetchStatus
  | cacheHit | scaledFromFullsize | cachedFailure | needsDownload | downloaded | notFound
  | networkDown | temporaryError | hardError | timeout
  deriving DecidableEq

inductive CachePolicy
  | cacheFullsize | dontCacheFullsize
  deriving DecidableEq

inductive Location
  | localMedia | remote
  deriving DecidableEq

/-- The parts of `struct stat` that go into a key. -/
structure Stat where
  ino : ℕ
  mtimSec : ℤ
  mtimNsec : ℤ
  ctimSec : ℤ
  ctimNsec : ℤ
  deriving DecidableEq

/-- What is being thumbnailed; the file name is canonical. -/
inductive Media
  | localFile (filename : String) (stat : Stat)
  | album (artistName albumName : String)
  | artist (artistName albumName : String)
  deriving DecidableEq

def nul : String := "\x00"

/-- The string that identifies the media in all caches. -/
def Media.key : Media → String
  | .localFile filename st =>
    filename ++ nul ++ toString st.ino
      ++ nul ++ toString st.mtimSec ++ "." ++ toString st.mtimNsec
      ++ nul ++ toString st.ctimSec ++ "." ++ toString st.ctimNsec
  | .album artistName albumName => artistName ++ nul ++ albumName ++ nul ++ "album"
  | .artist artistName albumName => artistName ++ nul ++ albumName ++ nul ++ "artist"

/-- Encoded image data; none when no decoder accepts it. -/
abbrev Bytes := Option ImageFile

inductive ArtStatus
  | notFinished | success | notFound | temporaryError | hardError | networkDown | timeout
  deriving DecidableEq

structure ArtReply where
  status : ArtStatus
  data : Bytes
  deriving DecidableEq

/-- What `download()` leaves in the request: the extractor of a local file with what its
`read()` gives, or the reply of the art server. -/
inductive Download
  | extractor (read : Except String Bytes)
  | artReply (reply : ArtReply)

/-- `unity::Exception::what()`: the name, the reason, and a nested exception on its own line. -/
def exceptionText (name reason : String) (nested : Option String) : String :=
  name ++ (if reason = "" then "" else ": " ++ reason) ++ nested.elim "" (":\n    " ++ ·)

structure Request where
  media : Media
  requestedSize : QSize
  status : FetchStatus
  download : Option Download

namespace Request

def new (media : Media) (requestedSize : QSize) : Request :=
  ⟨media,requestedSize,.needsDownload,none⟩

def key (r : Request) : String := r.media.key

def printableKey (r : Request) : String :=
  String.join (r.key.toList.map fun c => if c = '\x00' then "\\0" else c.toString)

end Request

inductive ContentType
  | image | audio | video | other
  deriving DecidableEq

inductive Cache
  | fullSize | thumbnail | failure
  deriving DecidableEq

/-- What one call of `thumbnail()` finds outside the service: the clock, the file system
and the caches' decisions to take an entry. -/
structure World where
  now : ℤ
  mimetype : String → Except String ContentType
  readFile : String → Except String Bytes
  albumArt : String → Except String (Option Bytes)
  accepts : Cache → Bool

/-- At the epoch, with unreadable files, and caches that take everything. -/
def World.idle : World :=
  ⟨0,fun _ => .ok .other,fun _ => .ok none,fun _ => .ok none,fun _ => true⟩

structure Thumbnailer where
  maxSize : ℤ
  maxSize_pos : 0 < maxSize
  retryNotFoundHours : ℤ
  fullSizeCache : String → Option ImageFile
  thumbnailCache : String → Option ImageFile
  /-- An entry with its expiry time, or none for an entry that does not expire. -/
  failureCache : String → Option (Option ℤ)
  backoff : BackoffAdjuster

/-- The result of `fetch()`: an image, or a status without one. -/
inductive ImageData
  | image (image : Image) (cachePolicy : CachePolicy) (location : Location)
  | failed (status : FetchStatus) (cachePolicy : CachePolicy) (location : Location)

def ImageData.status : ImageData → FetchStatus
  | .image .. => .downloaded
  | .failed status .. => status

def ImageData.location : ImageData → Location
  | .image _ _ location => location
  | .failed _ _ location => location

/-- Decode data at a size, as the constructors of `Image` do. -/
def decode (data : Bytes) (size : QSize) : Except String Image :=
  match data with
  | some file => Image.load file size
  | none => .error "load_image(): cannot create pixbuf"

/-- `LocalThumbnailRequest::fetch()`: whatever throws inside it is a hard error. -/
def fetchLocal (w : World) (filename : String) (download : Option Download) (sizeHint : QSize) :
    ImageData :=
  match download with
  | some (.extractor read) =>
    match read.bind (decode · .invalid) with
    | .ok image => .image image .cacheFullsize .localMedia
    | .error _ => .failed .hardError .cacheFullsize .localMedia
  | _ =>
    match w.mimetype filename with
    | .error _ => .failed .hardError .dontCacheFullsize .localMedia
    | .ok .image =>
      match (w.readFile filename).bind (decode · sizeHint) with
      | .ok image => .image image .dontCacheFullsize .localMedia
      | .error _ => .failed .hardError .dontCacheFullsize .localMedia
    | .ok .audio =>
      match w.albumArt filename with
      | .error _ => .failed .hardError .dontCacheFullsize .localMedia
      | .ok none => .failed .notFound .dontCacheFullsize .localMedia
      | .ok (some art) =>
        match decode art .invalid with
        | .ok image => .image image .dontCacheFullsize .localMedia
        | .error _ => .failed .hardError .dontCacheFullsize .localMedia
    | .ok .video => .failed .needsDownload .cacheFullsize .localMedia
    | .ok .other => .failed .notFound .dontCacheFullsize .localMedia

/-- The helper that albums and artists share; none stands for `abort()`. -/
def commonFetch (download : Option Download) : Option ImageData :=
  match download with
  | some (.artReply reply) =>
    match reply.status with
    | .success =>
      match decode reply.data .invalid with
      | .ok image => some (.image image .cacheFullsize .remote)
      | .error _ => some (.failed .hardError .cacheFullsize .remote)
    | .notFound => some (.failed .notFound .cacheFullsize .remote)
    | .temporaryError => some (.failed .temporaryError .cacheFullsize .remote)
    | .hardError => some (.failed .hardError .cacheFullsize .remote)
    | .timeout => some (.failed .timeout .cacheFullsize .remote)
    | .networkDown => some (.failed .networkDown .cacheFullsize .remote)
    | .notFinished => none
  | _ => some (.failed .needsDownload .cacheFullsize .remote)

def fetch (w : World) (r : Request) (sizeHint : QSize) : Option ImageData :=
  match r.media with
  | .localFile filename _ => some (fetchLocal w filename r.download sizeHint)
  | .album .. | .artist .. => commonFetch r.download

/-- How a call of `thumbnail()` ends: with data (none is the empty array), with an
exception, or in `abort()` and failed assertions. -/
inductive Outcome
  | returned (data : Option ImageFile)
  | threw (what : String)
  | aborted
  deriving DecidableEq

structure Result where
  outcome : Outcome
  thumbnailer : Thumbnailer
  status : FetchStatus

namespace Thumbnailer

/-- The requested size with missing sides filled in, limited to the maximum size. -/
def targetSize (t : Thumbnailer) (requestedSize : QSize) : QSize :=
  ⟨if requestedSize.width ≠ 0 then min requestedSize.width t.maxSize else t.maxSize,
    if requestedSize.height ≠ 0 then min requestedSize.height t.maxSize else t.maxSize⟩

def sizedKey (key : String) (size : QSize) : String :=
  key ++ nul ++ toString size.width ++ nul ++ toString size.height

def put {α : Type} (cache : String → Option α) (accepted : Bool) (key : String) (value : α) :
    String → Option α :=
  if accepted then Function.update cache key (some value) else cache

def putFullSize (t : Thumbnailer) (w : World) (key : String) (data : ImageFile) : Thumbnailer :=
  { t with fullSizeCache := put t.fullSizeCache (w.accepts .fullSize) key data }

def putThumbnail (t : Thumbnailer) (w : World) (key : String) (data : ImageFile) : Thumbnailer :=
  { t with thumbnailCache := put t.thumbnailCache (w.accepts .thumbnail) key data }

def putFailure (t : Thumbnailer) (w : World) (key : String) (expiry : Option ℤ) : Thumbnailer :=
  { t with failureCache := put t.failureCache (w.accepts .failure) key expiry }

/-- An entry is evicted, expires for good or is cleared by the administrator. -/
def evict (t : Thumbnailer) (cache : Cache) (key : String) : Thumbnailer :=
  match cache with
  | .fullSize => { t with fullSizeCache := Function.update t.fullSizeCache key none }
  | .thumbnail => { t with thumbnailCache := Function.update t.thumbnailCache key none }
  | .failure => { t with failureCache := Function.update t.failureCache key none }

/-- A failure that has expired is not found. -/
def failureHit (t : Thumbnailer) (key : String) (now : ℤ) : Bool :=
  match t.failureCache key with
  | some (some expiry) => now < expiry
  | some none => true
  | none => false

/-- The remote server has answered, be it with an image or without. -/
def noteAnswer (t : Thumbnailer) (w : World) (location : Location) : Thumbnailer :=
  if location = .remote then { t with backoff := t.backoff.reset w.now } else t

/-- The catch block around the look-up; the exception that it handles is nested in its own. -/
def unexpected (r : Request) (what : String) : Outcome :=
  .threw (exceptionText "unity::ResourceException"
    ("RequestBase::thumbnail(): key = " ++ r.printableKey ++ ": " ++ what) (some what))

/-- The quality of a thumbnail, the default argument of `jpeg_or_png_data()`. -/
def thumbnailQuality : ℤ := 75

/-- Encode the scaled image, store it under its sized key and return it. -/
def saveThumbnail (t : Thumbnailer) (w : World) (r : Request) (status : FetchStatus)
    (scaled : Image) : Result :=
  match scaled.jpegOrPngData thumbnailQuality with
  | .error e => ⟨unexpected r e,t,status⟩
  | .ok data =>
    ⟨.returned (some data),
      t.putThumbnail w (sizedKey r.key (t.targetSize r.requestedSize)) data,status⟩

/-- Keep the full-size image, reduced to the maximum size if it exceeds it; the image
goes on in the size in which it was kept. -/
def keepFullSize (t : Thumbnailer) (w : World) (key : String) (image : Image) :
    Except String (Thumbnailer × Image) := do
  let image ← if t.maxSize < max image.pixbuf.width image.pixbuf.height
    then image.scale ⟨t.maxSize,t.maxSize⟩ else .ok image
  let data ← image.jpegOrPngData 90
  return (t.putFullSize w key data,image)

/-- The image was fetched: keep it if it was expensive to get, and scale it. -/
def scaleFetched (t : Thumbnailer) (w : World) (r : Request) (image : Image)
    (policy : CachePolicy) : Result :=
  match (if policy = .cacheFullsize then t.keepFullSize w r.key image else .ok (t,image)) with
  | .error e => ⟨unexpected r e,t,.downloaded⟩
  | .ok (t,image) =>
    match image.scale (t.targetSize r.requestedSize) with
    | .error e => ⟨unexpected r e,t,.downloaded⟩
    | .ok scaled => t.saveThumbnail w r .downloaded scaled

/-- The switch on the status of what was fetched. -/
def handleFetched (t : Thumbnailer) (w : World) (r : Request) : ImageData → Result
  | .image image policy location => (t.noteAnswer w location).scaleFetched w r image policy
  | .failed .needsDownload _ location =>
    -- too early after the last failure, the server is not contacted
    if location = .remote ∧ ¬ t.backoff.retryOk w.now then ⟨.returned none,t,.temporaryError⟩
    else ⟨.returned none,t,.needsDownload⟩
  | .failed .networkDown _ _ => ⟨.returned none,t,.networkDown⟩
  | .failed .notFound _ location =>
    let later := if location = .remote
      then some (w.now+t.retryNotFoundHours*3600*nanosPerSecond) else none
    ⟨.returned none,(t.putFailure w r.key later).noteAnswer w location,.notFound⟩
  | .failed .hardError _ location =>
    ⟨.returned none,(t.putFailure w r.key none).noteAnswer w location,.hardError⟩
  | .failed .temporaryError _ location =>
    if location = .remote then
      ⟨.returned none,{ t with backoff := (t.backoff.adjustRetryLimit w.now).1 },.temporaryError⟩
    else ⟨.aborted,t,.temporaryError⟩
  | .failed .timeout _ location =>
    if location = .remote then ⟨.returned none,t,.timeout⟩ else ⟨.aborted,t,.timeout⟩
  | .failed status _ _ => ⟨.aborted,t,status⟩

/-- Main look-up logic for thumbnails: the thumbnail cache first, then the full-size
cache, then the failure cache, and `fetch()` last. -/
def thumbnail (t : Thumbnailer) (w : World) (r : Request) : Result :=
  if !r.requestedSize.isValid then
    ⟨unexpected r s!"invalid size: ({r.requestedSize.width},{r.requestedSize.height})",t,r.status⟩
  else
    let size := t.targetSize r.requestedSize
    match t.thumbnailCache (sizedKey r.key size) with
    | some data => ⟨.returned (some data),t,.cacheHit⟩
    | none =>
      match t.fullSizeCache r.key with
      | some fullSize =>
        match Image.load fullSize size with
        | .error e => ⟨unexpected r e,t,.scaledFromFullsize⟩
        | .ok scaled => t.saveThumbnail w r .scaledFromFullsize scaled
      | none =>
        if t.failureHit r.key w.now then ⟨.returned none,t,.cachedFailure⟩
        else
          match fetch w r size with
          | none => ⟨.aborted,t,r.status⟩
          | some imageData => t.handleFetched w r imageData

/-- A thumbnailer with the default settings whose caches are empty. -/
def fresh : Thumbnailer :=
  ⟨1920,by decide,168,fun _ => none,fun _ => none,fun _ => none,.new⟩

/-! ### The look-up order -/

theorem put_some {α : Type} {cache : String → Option α} {accepted : Bool} {key k : String}
    {value v : α} (h : put cache accepted key value k = some v) : v = value ∨ cache k = some v := by
  unfold put at h
  split at h
  · by_cases hk : k = key
    · subst hk
      rw [Function.update_self] at h
      exact Or.inl (Option.some.inj h).symm
    · rw [Function.update_of_ne hk] at h
      exact Or.inr h
  · exact Or.inr h

theorem put_self {α : Type} (cache : String → Option α) (key : String) (value : α) :
    put cache true key value key = some value := by
  simp [put]

section LookUp

variable {t : Thumbnailer} {w : World} {r : Request} (hr : r.requestedSize.isValid = true)
include hr

theorem thumbnail_hit {d : ImageFile}
    (h : t.thumbnailCache (sizedKey r.key (t.targetSize r.requestedSize)) = some d) :
    t.thumbnail w r = ⟨.returned (some d),t,.cacheHit⟩ := by
  simp [thumbnail,hr,h]

theorem thumbnail_fullSize {e : ImageFile}
    (h : t.thumbnailCache (sizedKey r.key (t.targetSize r.requestedSize)) = none)
    (he : t.fullSizeCache r.key = some e) :
    t.thumbnail w r = match Image.load e (t.targetSize r.requestedSize) with
      | .error what => ⟨unexpected r what,t,.scaledFromFullsize⟩
      | .ok scaled => t.saveThumbnail w r .scaledFromFullsize scaled := by
  simp only [thumbnail,hr,h,he,Bool.not_true,Bool.false_eq_true,if_false]

theorem thumbnail_failure
    (h : t.thumbnailCache (sizedKey r.key (t.targetSize r.requestedSize)) = none)
    (he : t.fullSizeCache r.key = none) (hf : t.failureHit r.key w.now = true) :
    t.thumbnail w r = ⟨.returned none,t,.cachedFailure⟩ := by
  simp [thumbnail,hr,h,he,hf]

theorem thumbnail_fetch
    (h : t.thumbnailCache (sizedKey r.key (t.targetSize r.requestedSize)) = none)
    (he : t.fullSizeCache r.key = none) (hf : t.failureHit r.key w.now = false) :
    t.thumbnail w r = match fetch w r (t.targetSize r.requestedSize) with
      | none => ⟨.aborted,t,r.status⟩
      | some imageData => t.handleFetched w r imageData := by
  simp only [thumbnail,hr,h,he,hf,Bool.not_true,Bool.false_eq_true,if_false]

end LookUp

end Thumbnailer
end UnityThumbnailer
