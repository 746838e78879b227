import UnityThumbnailer.StillFrames

/-! What vs-thumb writes. It makes one image of a file, the embedded cover art or else a still
frame as it is to be seen. If it fails, there is no complete image, but a destination that is a
file may be empty, and there may be a part of the image. -/
namespace UnityThumbnailer
namespace ThumbnailExtractor

open LocalAlbumArt CoverArt UnityThumbnailer.Orientation

/-- It is about a destination. -/
def Effect.touches : Effect → Bool
  | .opened _ | .wrote .. => true
  | _ => false

/-- What has been done to destinations, newest first. -/
def touched (s : ThumbnailExtractor) : List Effect := s.log.filter Effect.touches

/-- A file is created or truncated before anything is written. -/
def OutUrl.opening : OutUrl → List Effect
  | .file path => [.opened path]
  | .fd _ => []

/-- The frame as it is to be seen. -/
def Playback.pixels (w : Playback) (buffer : Data) (width height : ℕ) : Raster Rgb :=
  match sampleRotation w.orientation with
  | some rotation =>
    if w.rotates then rotateSimple (framePixels buffer width height) rotation
    else framePixels buffer width height
  | none => framePixels buffer width height

/-- Embedded artwork is dumped as is, or converted. -/
def OutUrl.image (data : Data) : OutUrl → Output
  | .fd _ => .raw data
  | .file _ => .converted data

/-- Nothing of an image has been written yet, or a part of it. -/
def Incomplete (outUrl : OutUrl) (o : Output) (before after : List Effect) : Prop :=
  after = before ∨ ∃ bytes, after = .wrote outUrl o (.part bytes)::before

/-- Embedded cover art before a still frame of the video. -/
def Media.thumbnail (m : Media) (outUrl : OutUrl) : Option Output :=
  match extractCoverArt m.tags none with
  | (true,some image) => some (outUrl.image image.buffer)
  | _ => m.playback.sample.bind fun sample => sample.caps.map fun caps =>
    .tiff (m.playback.pixels sample.buffer caps.1.toNat caps.2.toNat)

section

variable {s t : ThumbnailExtractor} {frame : StillFrame}

@[simp] theorem unmap_touched : touched s.unmap = touched s := by
  unfold unmap
  split <;> rfl

@[simp] theorem map_touched : touched s.map = touched s := unmap_touched

@[simp] theorem access_touched (frame : StillFrame) : touched (s.access frame) = touched s := by
  cases frame <;> rfl

@[simp] theorem resetStillFrame_touched (frame : Option StillFrame) :
    touched (s.resetStillFrame frame) = touched s := by
  unfold resetStillFrame
  split
  · exact unmap_touched
  · rfl

@[simp] theorem unmap_outUrl : s.unmap.outUrl = s.outUrl := by
  unfold unmap
  split <;> rfl

@[simp] theorem access_outUrl (frame : StillFrame) : (s.access frame).outUrl = s.outUrl := by
  cases frame <;> rfl

@[simp] theorem resetStillFrame_outUrl (frame : Option StillFrame) :
    (s.resetStillFrame frame).outUrl = s.outUrl := by
  unfold resetStillFrame
  split
  · exact unmap_outUrl
  · rfl

@[simp] theorem access_stillFrame (frame : StillFrame) :
    (s.access frame).stillFrame = s.stillFrame := by
  cases frame <;> rfl

@[simp] theorem resetStillFrame_stillFrame (frame : Option StillFrame) :
    (s.resetStillFrame frame).stillFrame = frame := by
  unfold resetStillFrame
  split
  · exact unmap_stillFrame
  · rfl

/-- Nothing is written, and the destination stays. -/
def Quiet (s t : ThumbnailExtractor) : Prop := touched t = touched s ∧ t.outUrl = s.outUrl

theorem rotateFrame_quiet (frame : StillFrame) (w : Playback) : Quiet s (s.rotateFrame frame w) := by
  unfold rotateFrame
  split
  · exact ⟨rfl,rfl⟩
  · dsimp only
    split <;> constructor <;> simp

theorem storeFrame_quiet (buffer : Data) (width height : ℕ) (w : Playback) :
    Quiet s (s.storeFrame buffer width height w) := by
  unfold storeFrame
  have hrotated := rotateFrame_quiet (s:=s.map.resetStillFrame (some (.borrowed s.next
    (framePixels buffer width height)))) (.borrowed s.next (framePixels buffer width height)) w
  refine ⟨hrotated.1.trans ?_,hrotated.2.trans ?_⟩
  · rw [resetStillFrame_touched,map_touched]
  · rw [resetStillFrame_outUrl]
    exact unmap_outUrl

theorem storeFrame_pixels (buffer : Data) (width height : ℕ) (w : Playback) :
    (s.storeFrame buffer width height w).stillFrame.map StillFrame.pixels =
      some (w.pixels buffer width height) := by
  unfold storeFrame rotateFrame Playback.pixels
  cases hrotation : sampleRotation w.orientation with
  | none => simp [StillFrame.pixels]
  | some rotation => cases hrotates : w.rotates <;> simp [StillFrame.pixels]

theorem reset_quiet (toNull : StateChange) : Quiet s (s.reset toNull).2 := by
  unfold reset
  split
  · exact ⟨rfl,rfl⟩
  · exact ⟨resetStillFrame_touched _,resetStillFrame_outUrl _⟩

theorem reset_empty {toNull : StateChange} (ht : s.reset toNull = (.ok (),t)) :
    t.stillFrame = none ∧ t.sample = none := by
  unfold reset at ht
  split at ht
  · cases ht
  · obtain ⟨-,rfl⟩ := Prod.mk.inj ht
    refine ⟨resetStillFrame_stillFrame _,?_⟩
    unfold resetStillFrame unmap
    dsimp only
    split
    · split <;> rfl
    · rfl

theorem setUrls_touched (inUrl : String) (outUrl : OutUrl) (w : Opening) :
    touched (s.setUrls inUrl outUrl w).2 = touched s := by
  have hquiet := reset_quiet (s:=s) w.toNull
  unfold setUrls
  split
  · rename_i heq
    rw [heq] at hquiet
    exact hquiet.1
  · rename_i heq
    rw [heq] at hquiet
    dsimp only
    split <;> exact hquiet.1

theorem setUrls_ok {inUrl : String} {outUrl : OutUrl} {w : Opening}
    (ht : s.setUrls inUrl outUrl w = (.ok (),t)) :
    t.stillFrame = none ∧ t.sample = none ∧ t.outUrl = outUrl := by
  unfold setUrls at ht
  split at ht
  · cases ht
  · rename_i heq
    dsimp only at ht
    split at ht
    · cases ht
    · obtain ⟨-,rfl⟩ := Prod.mk.inj ht
      obtain ⟨hframe,hsample⟩ := reset_empty heq
      exact ⟨hframe,hsample,rfl⟩

theorem extractVideoFrame_quiet (w : Playback) : Quiet s (s.extractVideoFrame w).2 := by
  unfold extractVideoFrame
  dsimp only
  split
  · exact ⟨rfl,rfl⟩
  · split
    · exact ⟨rfl,rfl⟩
    · split
      · exact ⟨rfl,rfl⟩
      · rename_i sample _ _ _ _ _ _
        have hquiet := storeFrame_quiet
          (s:={ s.note (.sought (seekPoint s.duration)) with sample := some ⟨sample.buffer,none⟩ })
        exact hquiet ..

theorem extractVideoFrame_ok {w : Playback} (ht : s.extractVideoFrame w = (.ok (),t)) :
    ∃ sample caps, w.sample = some sample ∧ sample.caps = some caps ∧
      t.stillFrame.map StillFrame.pixels =
        some (w.pixels sample.buffer caps.1.toNat caps.2.toNat) := by
  unfold extractVideoFrame at ht
  dsimp only at ht
  split at ht
  · cases ht
  · rename_i sample hsample
    split at ht
    · cases ht
    · rename_i width height hcaps
      split at ht
      · cases ht
      · obtain ⟨-,rfl⟩ := Prod.mk.inj ht
        exact ⟨sample,(width,height),hsample,hcaps,storeFrame_pixels ..⟩

/-- What `writeImage` writes. -/
def image (s : ThumbnailExtractor) : Option Output :=
  match s.stillFrame.map StillFrame.pixels with
  | some pixels => some (.tiff pixels)
  | none => s.sample.map fun sample => s.outUrl.image sample.buffer

/-- A call that has its destination open writes the image if it returns, and not all of it if
it throws. -/
def Puts (s : ThumbnailExtractor) (o : Output) (r : Except Fault Unit × ThumbnailExtractor) : Prop :=
  (r.1 = .ok () → touched r.2 = .wrote s.outUrl o .whole::touched s) ∧
    (r.1 ≠ .ok () → Incomplete s.outUrl o (touched s) (touched r.2))

theorem save_puts (s : ThumbnailExtractor) (msg : String) (o : Output) (w : Destination) :
    Puts s o (s.save msg o w) := by
  unfold save
  split
  · exact ⟨nofun,fun _ => .inr ⟨_,rfl⟩⟩
  · exact ⟨fun _ => rfl,fun h => absurd rfl h⟩

theorem writeSample_puts (s : ThumbnailExtractor) (data : Data) (w : Destination) :
    Puts s (s.outUrl.image data) (s.writeSample data w) := by
  unfold writeSample
  cases hurl : s.outUrl with
  | fd n =>
    unfold Puts
    dsimp only
    rw [hurl]
    split
    · exact ⟨nofun,fun _ => .inl rfl⟩
    · split
      · exact ⟨fun _ => rfl,fun h => absurd rfl h⟩
      · exact ⟨nofun,fun _ => .inr ⟨_,rfl⟩⟩
  | file path =>
    dsimp only
    split
    · exact ⟨nofun,fun _ => .inl rfl⟩
    · exact ⟨nofun,fun _ => .inl rfl⟩
    · exact save_puts ..

theorem writeMapped_puts (s : ThumbnailExtractor) (data : Data) (w : Destination) :
    Puts s (s.outUrl.image data) (s.writeMapped data w) := by
  have hw := writeSample_puts
    { s with next := s.next+1, log := .accessed s.next::.mapped s.next::s.log } data w
  exact ⟨hw.1,hw.2⟩

/-- A destination that cannot be opened is left alone. -/
theorem openDestination_cases (s : ThumbnailExtractor) (w : Destination) :
    (∃ fault, s.openDestination w = (.error fault,s)) ∨
      ∃ t, s.openDestination w = (.ok (),t) ∧ touched t = s.outUrl.opening ++ touched s ∧
        t.outUrl = s.outUrl ∧ t.stillFrame = s.stillFrame ∧ t.sample = s.sample := by
  unfold openDestination OutUrl.opening
  cases hurl : s.outUrl with
  | fd n => exact .inr ⟨s,rfl,rfl,hurl,rfl,rfl⟩
  | file path =>
    cases w.openError with
    | some error => exact .inl ⟨_,rfl⟩
    | none => exact .inr ⟨_,rfl,rfl,hurl,rfl,rfl⟩

/-- What a call that opens the destination, too, does to it: all, if it returns; not all, or
nothing, if it throws; and nothing if there is no image. -/
def Writes (outUrl : OutUrl) (output : Option Output) (before : List Effect)
    (r : Except Fault Unit × ThumbnailExtractor) : Prop :=
  (r.1 = .ok () → ∃ o, output = some o ∧
    touched r.2 = .wrote outUrl o .whole::(outUrl.opening ++ before)) ∧
  (r.1 ≠ .ok () → touched r.2 = before ∨ ∃ o, output = some o ∧
    Incomplete outUrl o (outUrl.opening ++ before) (touched r.2))

theorem Puts.writes {o : Output} {r : Except Fault Unit × ThumbnailExtractor}
    {before : List Effect} (h : Puts t o r) (ht : touched t = t.outUrl.opening ++ before) :
    Writes t.outUrl (some o) before r := by
  rw [Puts,ht] at h
  exact ⟨fun hok => ⟨o,rfl,h.1 hok⟩,fun hbad => .inr ⟨o,rfl,h.2 hbad⟩⟩

theorem writeImage_writes (s : ThumbnailExtractor) (w : Destination) :
    Writes s.outUrl s.image (touched s) (s.writeImage w) := by
  unfold writeImage
  split
  · exact ⟨nofun,fun _ => .inl rfl⟩
  · rename_i hany
    rcases openDestination_cases s w with ⟨fault,heq⟩ | ⟨t,heq,htouched,hurl,hstill,hold⟩
    · rw [heq]
      exact ⟨nofun,fun _ => .inl rfl⟩
    · rw [heq,image,← hstill,← hold,← hurl]
      rw [← hurl] at htouched
      rw [← hstill,← hold] at hany
      dsimp only
      cases hframe : t.stillFrame with
      | some frame =>
        have hsaved := save_puts (t.access frame) "write_image(): cannot write image"
          (.tiff frame.pixels) w
        rw [Puts,access_touched,access_outUrl] at hsaved
        exact Puts.writes hsaved htouched
      | none =>
        cases hsample : t.sample with
        | none => exact absurd ⟨by rw [hframe]; rfl,by rw [hsample]; rfl⟩ hany
        | some sample => exact (writeMapped_puts ..).writes htouched

/-- What the program has done so far: it is in order, no destination was touched yet, and the
image that would be written now is that of the file. -/
structure Prepared (s : ThumbnailExtractor) (outUrl : OutUrl) (output : Option Output) : Prop where
  sound : Sound s
  nothing : touched s = []
  outUrl_eq : s.outUrl = outUrl
  image_eq : s.image = output

/-- The one image of the file was written, or it was not written completely. -/
structure Delivered (outUrl : OutUrl) (output : Option Output)
    (r : Except Fault Unit × ThumbnailExtractor) : Prop where
  sound : Sound r.2
  writes : Writes outUrl output [] r

theorem Prepared.writeImage {outUrl : OutUrl} {output : Option Output} (h : Prepared s outUrl output)
    (w : Destination) : Delivered outUrl output (s.writeImage w) := by
  have hw := writeImage_writes s w
  rw [h.image_eq,h.outUrl_eq,h.nothing] at hw
  exact ⟨h.sound.writeImage,hw⟩

theorem delivered_of_failure {outUrl : OutUrl} {output : Option Output} {fault : Fault}
    (hs : Sound s) (ho : touched s = []) : Delivered outUrl output (.error fault,s) :=
  ⟨hs,nofun,fun _ => .inl ho⟩

theorem extractCoverArt_found (tags : Option (GstTagList Data)) :
    (extractCoverArt tags none).1 = (extractCoverArt tags none).2.isSome := by
  unfold extractCoverArt
  cases tags with
  | none => rfl
  | some tags =>
    dsimp only
    split_ifs <;> simp_all

theorem extractThumbnail_delivered (inUrl : String) (outUrl : OutUrl) (m : Media) :
    Delivered outUrl (m.thumbnail outUrl) (extractThumbnail inUrl outUrl m) := by
  have hs : Sound (new.setUrls inUrl outUrl m.opening).2 := Sound.new.setUrls ..
  have ho : touched (new.setUrls inUrl outUrl m.opening).2 = [] := setUrls_touched ..
  unfold extractThumbnail
  split
  · rename_i heq
    rw [heq] at hs ho
    exact delivered_of_failure hs ho
  · rename_i s heq
    rw [heq] at hs ho
    obtain ⟨hframe,hsample,hurl⟩ := setUrls_ok heq
    have hcover : s.coverArt m.tags = ((extractCoverArt m.tags none).1,
        { s with sample := (extractCoverArt m.tags none).2 }) := by
      rw [coverArt,hsample]
    rw [hcover]
    cases hart : extractCoverArt m.tags none with
    | mk found image =>
      have hfound : found = image.isSome := by
        have h := extractCoverArt_found m.tags
        rwa [hart] at h
      have hs' : Sound { s with sample := image } := hs.of_same rfl rfl rfl rfl
      cases image with
      | some image =>
        subst hfound
        refine Prepared.writeImage ⟨hs',ho,hurl,?_⟩ _
        rw [ThumbnailExtractor.image,Media.thumbnail,hart,hframe,← hurl]
        rfl
      | none =>
        subst hfound
        dsimp only [Option.isSome_none]
        split
        · exact delivered_of_failure hs' ho
        · have huses : ThumbnailExtractor.uses { s with sample := none } = none := by
            rw [uses,hframe]
            rfl
          have hv := hs'.extractVideoFrame (w:=m.playback) fun _ => huses
          have hq := extractVideoFrame_quiet (s:={ s with sample := none }) m.playback
          split
          · rename_i heq
            rw [heq] at hv hq
            exact delivered_of_failure hv (hq.1.trans ho)
          · rename_i t heq
            rw [heq] at hv hq
            obtain ⟨sample,caps,hw,hcaps,hpixels⟩ := extractVideoFrame_ok heq
            refine Prepared.writeImage ⟨hv,hq.1.trans ho,hq.2.trans hurl,?_⟩ _
            rw [ThumbnailExtractor.image,hpixels,Media.thumbnail,hart,hw]
            simp [hcaps]

end

/-- A film of two pixels that was recorded upright. -/
def film : Media where
  opening := ⟨.success,.async [.other,.asyncDone true],some 7⟩
  tags := none
  hasVideo := true
  playback := { landscape with orientation := some "rotate-90" }
  destination := ⟨none,none,.ok 0,.ok true⟩
  closing := .success

/-- The disk is full after the first bytes. -/
def fullDisk : Media :=
  { film with destination := { film.destination with saveError := some (4096,some "No space") } }

end ThumbnailExtractor
end UnityThumbnailer
