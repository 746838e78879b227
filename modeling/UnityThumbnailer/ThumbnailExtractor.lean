import UnityThumbnailer.CoverArt
import UnityThumbnailer.EventSystem
import UnityThumbnailer.LocalAlbumArt
import UnityThumbnailer.Orientation

/-! The extractor of vs-thumb. A still frame uses the pixels of a buffer that stays mapped while
the frame lives, so it matters in which order the extractor lets go of frames and buffers. -/
namespace UnityThumbnailer

open LocalAlbumArt CoverArt UnityThumbnailer.Orientation EventSystem

/-- Red, green and blue, 8 bits each. -/
abbrev Rgb := UInt8 × UInt8 × UInt8

namespace ThumbnailExtractor

inductive BusMessage
  | asyncDone (own : Bool) | error (text : String) | other

/-- What `gst_element_set_state()` returns; for an asynchronous change, the messages that come
from the bus until there are no more. -/
inductive StateChange
  | noPreroll | success | async (messages : List BusMessage) | failure

inductive OutUrl
  | file (path : String) | fd (n : ℤ)
  deriving DecidableEq

/-- A frame that uses the pixels of a mapped buffer, or has its own. -/
inductive StillFrame
  | borrowed (mapping : ℕ) (pixels : Raster Rgb)
  | owned (pixels : Raster Rgb)

def StillFrame.pixels : StillFrame → Raster Rgb
  | .borrowed _ pixels | .owned pixels => pixels

inductive Output
  | tiff (pixels : Raster Rgb)
  | raw (data : Data)
  /-- Decoded and saved as tiff. -/
  | converted (data : Data)

/-- How much of an image was written. -/
inductive Extent
  | whole | part (bytes : ℕ)
  deriving DecidableEq

inductive Effect
  | mapped (mapping : ℕ)
  | unmapped (mapping : ℕ)
  /-- Its memory is read. -/
  | accessed (mapping : ℕ)
  | sought (point : ℤ)
  /-- The file was created, or truncated. -/
  | opened (path : String)
  | wrote (url : OutUrl) (output : Output) (extent : Extent)

/-- How a call ends that does not return. -/
inductive Fault
  | exception (what : String) | assertion
  deriving DecidableEq

end ThumbnailExtractor

open ThumbnailExtractor in
structure ThumbnailExtractor where
  inUrl : String
  outUrl : OutUrl
  duration : ℤ
  /-- Raw data for cover or still frame. -/
  sample : Option (GstSample Data)
  stillFrame : Option StillFrame
  /-- The mapping that `buffermap_` holds. -/
  buffermap : Option ℕ
  /-- The number of mappings that were made. -/
  next : ℕ
  log : List Effect

namespace ThumbnailExtractor

def new : ThumbnailExtractor := ⟨"",.file "",-1,none,none,none,0,[]⟩

def note (s : ThumbnailExtractor) (a : Effect) : ThumbnailExtractor := { s with log := a::s.log }

/-! ### Buffers and frames -/

/-- `BufferMap::unmap()` -/
def unmap (s : ThumbnailExtractor) : ThumbnailExtractor :=
  match s.buffermap with
  | some mapping => { s with buffermap := none, log := .unmapped mapping::s.log }
  | none => s

/-- `BufferMap::map()` -/
def map (s : ThumbnailExtractor) : ThumbnailExtractor :=
  let s := s.unmap
  { s with buffermap := some s.next, next := s.next+1, log := .mapped s.next::s.log }

/-- The memory of a frame is read, if it is that of a mapping. -/
def access (s : ThumbnailExtractor) : StillFrame → ThumbnailExtractor
  | .borrowed mapping _ => s.note (.accessed mapping)
  | .owned _ => s

/-- `still_frame_.reset()`: when a frame with borrowed pixels is destroyed, `unmap_callback()`
unmaps what `buffermap_` holds at that time. -/
def resetStillFrame (s : ThumbnailExtractor) (frame : Option StillFrame) : ThumbnailExtractor :=
  match s.stillFrame with
  | some (.borrowed ..) => { s with stillFrame := frame }.unmap
  | _ => { s with stillFrame := frame }

/-! ### The calls -/

def errorText (s : ThumbnailExtractor) (msg : String) (error : Option String) : String :=
  "ThumbnailExtractor: " ++ msg ++ ", url: " ++ s.inUrl ++ error.elim "" (": " ++ ·)

/-- `throw_error()` -/
def thrownError {α : Type} (s : ThumbnailExtractor) (msg : String) (error : Option String) :
    Except Fault α :=
  .error (.exception (s.errorText msg error))

/-- Pop messages off the bus until the change is done. -/
def awaitChange (s : ThumbnailExtractor) : List BusMessage → Except Fault Unit
  | [] | .asyncDone true::_ => .ok ()
  | .error text::_ => s.thrownError "change_state(): reading async messages" text
  | .asyncDone false::messages | .other::messages => s.awaitChange messages

def changeState (s : ThumbnailExtractor) : StateChange → Except Fault Unit
  | .noPreroll | .success => .ok ()
  | .failure => s.thrownError "change_state(): Could not change element state" none
  | .async messages => s.awaitChange messages

def reset (s : ThumbnailExtractor) (toNull : StateChange) :
    Except Fault Unit × ThumbnailExtractor :=
  match s.changeState toNull with
  | .error fault => (.error fault,s)
  | .ok _ => (.ok (),{ s with sample := none }.resetStillFrame none)

/-- How the element reacts to new URLs. -/
structure Opening where
  toNull : StateChange
  toPaused : StateChange
  duration : Option ℤ

def setUrls (s : ThumbnailExtractor) (inUrl : String) (outUrl : OutUrl) (w : Opening) :
    Except Fault Unit × ThumbnailExtractor :=
  match s.reset w.toNull with
  | (.error fault,s) => (.error fault,s)
  | (.ok _,s) =>
    let s := { s with inUrl := inUrl, outUrl := outUrl }
    match s.changeState w.toPaused with
    | .error fault => (.error fault,s)
    | .ok _ => (.ok (),{ s with duration := w.duration.getD (-1) })

/-- The sample that the current frame is converted to. -/
structure VideoSample where
  buffer : Data
  /-- Width and height, 0 for a missing field. -/
  caps : Option (ℤ × ℤ)

def roundUp4 (n : ℕ) : ℕ := (n+3)/4*4

/-- A buffer as `gdk_pixbuf_new_from_data()` reads it, in rows of whole words. -/
def framePixels (buffer : Data) (width height : ℕ) : Raster Rgb where
  width := width
  height := height
  pixel y x :=
    let offset := y*roundUp4 (width*3)+x*3
    (buffer.getD offset 0,buffer.getD (offset+1) 0,buffer.getD (offset+2) 0)

/-- The rotation that the orientation tag asks for; others are ignored, a flipped or rotated image
is better than none. -/
def sampleRotation : Option String → Option PixbufRotation
  | some "rotate-90" => some .clockwise
  | some "rotate-180" => some .upsidedown
  | some "rotate-270" => some .counterclockwise
  | _ => none

structure Playback where
  sample : Option VideoSample
  orientation : Option String
  /-- There is memory for the rotated frame. -/
  rotates : Bool

def seekPoint (duration : ℤ) : ℤ :=
  if 0 ≤ duration then (2*duration).tdiv 7 else 10*1000000000

/-- Rotate the frame as needed. -/
def rotateFrame (s : ThumbnailExtractor) (frame : StillFrame) (w : Playback) :
    ThumbnailExtractor :=
  match sampleRotation w.orientation with
  | none => s
  | some rotation =>
    let s := s.access frame
    if w.rotates then s.resetStillFrame (some (.owned (rotateSimple frame.pixels rotation))) else s

/-- Convert the raw sample and store it in `still_frame_`. -/
def storeFrame (s : ThumbnailExtractor) (buffer : Data) (width height : ℕ) (w : Playback) :
    ThumbnailExtractor :=
  let frame := .borrowed s.next (framePixels buffer width height)
  (s.map.resetStillFrame (some frame)).rotateFrame frame w

def extractVideoFrame (s : ThumbnailExtractor) (w : Playback) :
    Except Fault Unit × ThumbnailExtractor :=
  let s := s.note (.sought (seekPoint s.duration))
  match w.sample with
  | none => (s.thrownError "extract_video_frame(): failed to extract still frame" none,s)
  | some sample =>
    let s := { s with sample := some ⟨sample.buffer,none⟩ }
    match sample.caps with
    | none => (s.thrownError "write_image(): Could not retrieve caps for sample buffer" none,s)
    | some (width,height) =>
      if width ≤ 0 ∨ height ≤ 0 then
        (s.thrownError "write_image(): Could not retrieve image dimensions" none,s)
      else (.ok (),s.storeFrame sample.buffer width.toNat height.toNat w)

/-- `extract_cover_art()`, as CoverArt has it, leaves the image in `sample_`. -/
def coverArt (s : ThumbnailExtractor) (tags : Option (GstTagList Data)) :
    Bool × ThumbnailExtractor :=
  let r := extractCoverArt tags s.sample
  (r.1,{ s with sample := r.2 })

/-- How the destination behaves. -/
structure Destination where
  /-- An error of `open()`. -/
  openError : Option String
  /-- `gdk_pixbuf_save_to_callback()` fails, with an error if it sets one, after `write_to_fd()`
  has written so many bytes. -/
  saveError : Option (ℕ × Option String)
  /-- The bytes that `write()` wrote, or the error. -/
  written : Except String ℕ
  /-- `gdk_pixbuf_loader_write()` and `gdk_pixbuf_loader_close()`, and whether there is a pixbuf
  afterwards. -/
  loaded : Except (Option String) Bool

def save (s : ThumbnailExtractor) (msg : String) (output : Output) (w : Destination) :
    Except Fault Unit × ThumbnailExtractor :=
  match w.saveError with
  | some (bytes,error) => (s.thrownError msg error,s.note (.wrote s.outUrl output (.part bytes)))
  | none => (.ok (),s.note (.wrote s.outUrl output .whole))

/-- Embedded artwork: to a descriptor it is dumped as is, for a file it is converted. -/
def writeSample (s : ThumbnailExtractor) (data : Data) (w : Destination) :
    Except Fault Unit × ThumbnailExtractor :=
  match s.outUrl with
  | .fd n =>
    let msg := "write_image(): cannot write to file descriptor " ++ toString n ++ ": "
    match w.written with
    | .error error => (.error (.exception (msg ++ error)),s)
    | .ok count =>
      if count = data.length then (.ok (),s.note (.wrote s.outUrl (.raw data) .whole))
      else (.error (.exception (msg ++ "short write")),
        s.note (.wrote s.outUrl (.raw data) (.part count)))
  | .file path =>
    match w.loaded with
    | .error error => (s.thrownError "write_image(): decoding image" error,s)
    | .ok false => (s.thrownError ("write_image(): cannot write image to " ++ path) none,s)
    | .ok true => s.save ("write_image(): cannot write image to " ++ path) (.converted data) w

/-- The other buffer map, that of `write_image()`, lives for this call. -/
def writeMapped (s : ThumbnailExtractor) (data : Data) (w : Destination) :
    Except Fault Unit × ThumbnailExtractor :=
  let mapping := s.next
  let s := { s with next := mapping+1, log := .accessed mapping::.mapped mapping::s.log }
  let r := s.writeSample data w
  (r.1,r.2.note (.unmapped mapping))

/-- Figure out where to write to. -/
def openDestination (s : ThumbnailExtractor) (w : Destination) :
    Except Fault Unit × ThumbnailExtractor :=
  match s.outUrl with
  | .fd _ => (.ok (),s)
  | .file path =>
    match w.openError with
    | some error =>
      (.error (.exception ("write_image(): cannot open " ++ path ++ ": " ++ error)),s)
    | none => (.ok (),s.note (.opened path))

def writeImage (s : ThumbnailExtractor) (w : Destination) :
    Except Fault Unit × ThumbnailExtractor :=
  if s.stillFrame.isNone ∧ s.sample.isNone then (.error .assertion,s)
  else
    match s.openDestination w with
    | (.error fault,s) => (.error fault,s)
    | (.ok _,s) =>
      match s.stillFrame with
      | some frame =>
        (s.access frame).save "write_image(): cannot write image" (.tiff frame.pixels) w
      | none => s.writeMapped ((s.sample.map GstSample.buffer).getD []) w

/-- `~ThumbnailExtractor()`, and the destructor of `buffermap_` after it; what `reset()` throws
ends the process. -/
def destruct (s : ThumbnailExtractor) (toNull : StateChange) :
    Except Fault Unit × ThumbnailExtractor :=
  match s.reset toNull with
  | (.error _,s) => (.error .assertion,s)
  | (.ok _,s) => (.ok (),s.unmap)

/-! ### The program -/

structure Media where
  opening : Opening
  tags : Option (GstTagList Data)
  hasVideo : Bool
  playback : Playback
  destination : Destination
  closing : StateChange

/-- `extract_thumbnail()`, until its extractor is destroyed. -/
def extractThumbnail (inUrl : String) (outUrl : OutUrl) (m : Media) :
    Except Fault Unit × ThumbnailExtractor :=
  match new.setUrls inUrl outUrl m.opening with
  | (.error fault,s) => (.error fault,s)
  | (.ok _,s) =>
    match s.coverArt m.tags with
    -- found embedded cover art
    | (true,s) => s.writeImage m.destination
    -- otherwise, extract a still frame
    | (false,s) =>
      if !m.hasVideo then (.error .assertion,s)
      else
        match s.extractVideoFrame m.playback with
        | (.error fault,s) => (.error fault,s)
        | (.ok _,s) => s.writeImage m.destination

inductive Event
  | setUrls (inUrl : String) (outUrl : OutUrl) (w : Opening)
  | reset (toNull : StateChange)
  | extractCoverArt (tags : Option (GstTagList Data))
  | extractVideoFrame (w : Playback)
  | writeImage (w : Destination)

def call (s : ThumbnailExtractor) : Event → Except Fault Unit × ThumbnailExtractor
  | .setUrls inUrl outUrl w => s.setUrls inUrl outUrl w
  | .reset toNull => s.reset toNull
  | .extractCoverArt tags => (.ok (),(s.coverArt tags).2)
  | .extractVideoFrame w => s.extractVideoFrame w
  | .writeImage w => s.writeImage w

/-- Any calls in any order, also after one that threw; a failed assertion is the end. -/
def machine : Machine ThumbnailExtractor Event where
  step s e := if (s.call e).1 = .error .assertion then none else some (s.call e).2

end ThumbnailExtractor
end UnityThumbnailer
