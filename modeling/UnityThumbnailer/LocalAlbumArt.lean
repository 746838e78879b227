import UnityThumbnailer.FirstChoice
import UnityThumbnailer.ThumbnailRequest

/-! Embedded album art. MPEG files have a selection loop of their own; FLAC and Ogg files share
one. A file without art is recorded in the failure cache. -/
namespace UnityThumbnailer

namespace LocalAlbumArt

abbrev Data := List UInt8

/-- The types of pictures that matter, and the others by their number. -/
inductive PictureType
  | other | frontCover | ignored (code : ℕ)
  deriving DecidableEq

structure Picture where
  type : PictureType
  data : Data
  deriving DecidableEq

/-! ### The extractors -/

/-- The loop of `MpegExtractor::get_album_art()` over the frames of the tag. -/
def mpegLoop : List Picture → Data → Data → Data
  | [], _, art => art
  | frame::frames, byteVector, art =>
    match frame.type with
    | .frontCover => frame.data
    | .other =>
      if byteVector.length = 0 then mpegLoop frames frame.data frame.data
      else mpegLoop frames byteVector art
    | .ignored _ => mpegLoop frames byteVector art

def mpegAlbumArt (tag : Option (List Picture)) : Data :=
  match tag with
  | some pictureFrames => mpegLoop pictureFrames [] []
  | none => []

/-- True if an image was extracted and that image is the front cover; otherwise the art is
either set to some other image that was found, or remains untouched. -/
def extractFlacArt (pic : Picture) (art : Data) : Bool × Data :=
  match pic.type with
  | .frontCover => (true,pic.data)
  | .other => (false,if art.isEmpty then pic.data else art)
  | .ignored _ => (false,art)

def flacLoop : List Picture → Data → Data
  | [], art => art
  | pic::pics, art =>
    let r := extractFlacArt pic art
    if r.1 then r.2 else flacLoop pics r.2

/-- The picture list of the Xiph comment. -/
def oggAlbumArt (comment : Option (List Picture)) : Data :=
  match comment with
  | some pictureList => flacLoop pictureList []
  | none => []

def flacAlbumArt (pictureList : List Picture) : Data := flacLoop pictureList []

/-- The cover art items of the tag, of which the first one is used. -/
def mp4AlbumArt (tag : Option (List Data)) : Data :=
  match tag with
  | some (image::_) => image
  | _ => []

/-- A media file as it is parsed, with what its extractor looks at. -/
inductive Container
  | mpeg (tag : Option (List Picture))
  | ogg (comment : Option (List Picture))
  | flac (pictureList : List Picture)
  | mp4 (tag : Option (List Data))
  | unknown

def getAlbumArt (filename : String) : Container → Except String Data
  | .mpeg tag => .ok (mpegAlbumArt tag)
  | .ogg comment => .ok (oggAlbumArt comment)
  | .flac pictureList => .ok (flacAlbumArt pictureList)
  | .mp4 tag => .ok (mp4AlbumArt tag)
  | .unknown => .error (filename ++ ": unknown container format")

/-- Unfortunately, there is no `FileRef` for all files without a file extension. -/
def extractLocalAlbumArt (filename : String) (fileref : Option Container) : Except String Data :=
  match fileref with
  | some container => getAlbumArt filename container
  | none => .error (filename ++ ": cannot create TagLib::FileRef")

/-! ### The selection -/

def isFrontCover (p : Picture) : Bool := p.type = .frontCover

/-- A picture without a special type that is not empty. -/
def isUsableOther (p : Picture) : Bool := p.type = .other ∧ p.data ≠ []

/-- The data of the first front cover if the list contains one, otherwise of the first other
picture with data, otherwise nothing. -/
def selected (ps : List Picture) : Data :=
  ((FirstChoice.choose isFrontCover isUsableOther ps).map Picture.data).getD []

/-- The art at hand is that of a picture that would do, if there was one. -/
structure Holds (kept : Option Picture) (art : Data) : Prop where
  art_eq : art = (kept.map Picture.data).getD []
  usable : ∀ p ∈ kept, p.data ≠ []

section Loops

variable {kept : Option Picture} {art : Data}

theorem Holds.isEmpty (h : Holds kept art) : art = [] ↔ kept = none := by
  obtain ⟨rfl,husable⟩ := h
  cases kept with
  | none => exact iff_of_true rfl rfl
  | some p => exact iff_of_false (husable p rfl) (by simp)

theorem holds_some {p : Picture} (h : p.data ≠ []) : Holds (some p) p.data :=
  ⟨rfl,fun q hq => by obtain rfl := Option.some.inj hq; exact h⟩

theorem holds_none : Holds none [] := ⟨rfl,fun _ hp => by cases hp⟩

/-- An other picture without data leaves nothing, and is passed over. -/
theorem flacLoop_scan_other (data : Data) (ps : List Picture)
    (ih : ∀ {kept art}, Holds kept art → flacLoop ps art =
      ((FirstChoice.scan isFrontCover isUsableOther ps kept).2.map Picture.data).getD [])
    (h : Holds kept art) : flacLoop (⟨.other,data⟩::ps) art =
      ((FirstChoice.scan isFrontCover isUsableOther (⟨.other,data⟩::ps) kept).2.map
        Picture.data).getD [] := by
  have hbest : isFrontCover ⟨.other,data⟩ = false := rfl
  have hstep : flacLoop (⟨.other,data⟩::ps) art =
      flacLoop ps (if art.isEmpty then data else art) := rfl
  rw [hstep]
  cases kept with
  | some q =>
    have hne : art ≠ [] := fun heq => by cases h.isEmpty.mp heq
    rw [if_neg (by simpa using hne),FirstChoice.scan_cons_skip hbest (Or.inl rfl)]
    exact ih h
  | none =>
    obtain rfl : art = [] := h.isEmpty.mpr rfl
    rw [if_pos List.isEmpty_nil]
    by_cases hdata : data = []
    · rw [FirstChoice.scan_cons_skip hbest (Or.inr (by simp [isUsableOther,hdata])),hdata]
      exact ih holds_none
    · rw [FirstChoice.scan_cons_good hbest (by simp [isUsableOther,hdata])]
      exact ih (holds_some hdata)

/-- The loop of FLAC and Ogg files is a scan for the front cover. -/
theorem flacLoop_scan (ps : List Picture) (h : Holds kept art) : flacLoop ps art =
    ((FirstChoice.scan isFrontCover isUsableOther ps kept).2.map Picture.data).getD [] := by
  induction ps generalizing kept art with
  | nil => exact h.art_eq
  | cons p ps ih =>
    obtain ⟨type,data⟩ := p
    cases type with
    | frontCover =>
      rw [FirstChoice.scan_cons_best rfl]
      rfl
    | other => exact flacLoop_scan_other data ps ih h
    | ignored code =>
      rw [FirstChoice.scan_cons_skip rfl (Or.inr (by simp [isUsableOther]))]
      exact ih h

theorem flacLoop_selected (ps : List Picture) : flacLoop ps [] = selected ps := by
  rw [flacLoop_scan ps holds_none,FirstChoice.scan_choose]
  rfl

/-- The two loops carry the same art: the byte vector of the one is its art as well. -/
theorem mpegLoop_eq (ps : List Picture) (art : Data) : mpegLoop ps art art = flacLoop ps art := by
  induction ps generalizing art with
  | nil => rfl
  | cons p ps ih =>
    obtain ⟨type,data⟩ := p
    cases type with
    | frontCover => rfl
    | ignored code => exact ih art
    | other =>
      have hmpeg : mpegLoop (⟨.other,data⟩::ps) art art =
          if art.length = 0 then mpegLoop ps data data else mpegLoop ps art art := rfl
      have hflac : flacLoop (⟨.other,data⟩::ps) art =
          flacLoop ps (if art.isEmpty then data else art) := rfl
      rw [hmpeg,hflac,ih,ih]
      cases art with
      | nil => rfl
      | cons byte bytes => rfl

theorem mpegAlbumArt_selected (ps : List Picture) : mpegAlbumArt (some ps) = selected ps :=
  (mpegLoop_eq ps []).trans (flacLoop_selected ps)

theorem flacAlbumArt_selected (ps : List Picture) : flacAlbumArt ps = selected ps :=
  flacLoop_selected ps

theorem oggAlbumArt_selected (ps : List Picture) : oggAlbumArt (some ps) = selected ps :=
  flacLoop_selected ps

end Loops

/-- The two selection loops agree on every list of pictures: the data of the first front cover
if there is one, otherwise of the first other picture with data, otherwise nothing. -/
theorem loops_agree (ps : List Picture) : mpegAlbumArt (some ps) = selected ps ∧
    flacAlbumArt ps = selected ps ∧ oggAlbumArt (some ps) = selected ps :=
  ⟨mpegAlbumArt_selected ps,flacAlbumArt_selected ps,oggAlbumArt_selected ps⟩

/-! ### Files with art -/

/-- A picture that can serve as album art. -/
def Usable (p : Picture) : Prop := (p.type = .frontCover ∨ p.type = .other) ∧ p.data ≠ []

instance (p : Picture) : Decidable (Usable p) := inferInstanceAs (Decidable (_ ∧ _))

/-- What `fetch()` gets of the art, where the decoders see only art that is not empty. -/
def passedOn (decoder : Data → Bytes) (art : Data) : Option Bytes :=
  if art.isEmpty then none else some (decoder art)

/-- The extractor returns art that is not empty, and `fetch()` does not record the file as
having no artwork, whatever the art decodes to. -/
def Found (c : Container) : Prop :=
  (∀ filename, ∃ art, extractLocalAlbumArt filename (some c) = .ok art ∧ art ≠ []) ∧
    ∀ (decoder : Data → Bytes) (w : World) (filename : String) (sizeHint : QSize),
      w.mimetype filename = .ok .audio →
      w.albumArt filename = (extractLocalAlbumArt filename (some c)).map (passedOn decoder) →
      (fetchLocal w filename none sizeHint).status ≠ .notFound

/-- Whenever a usable picture is embedded, the three extractors find art. -/
def FoundIfEmbedded (ps : List Picture) : Prop :=
  (∃ p ∈ ps, Usable p) → Found (.mpeg (some ps)) ∧ Found (.flac ps) ∧ Found (.ogg (some ps))

section Found

variable {c : Container} {ps : List Picture}

/-- A file is recorded as having no artwork only if the art is empty. -/
theorem fetchLocal_recorded {w : World} {filename : String} {sizeHint : QSize} {art : Option Bytes}
    (haudio : w.mimetype filename = .ok .audio) (hart : w.albumArt filename = .ok art) :
    (fetchLocal w filename none sizeHint).status = .notFound ↔ art = none := by
  unfold fetchLocal
  simp only [haudio,hart]
  cases art with
  | none => exact iff_of_true rfl rfl
  | some data =>
    refine iff_of_false (fun hcon => ?_) (by simp)
    simp only at hcon
    cases hdecode : decode data .invalid <;> rw [hdecode] at hcon <;> cases hcon

theorem found_iff {art : Data} (h : ∀ filename, getAlbumArt filename c = .ok art) :
    Found c ↔ art ≠ [] := by
  constructor
  · rintro ⟨hart,-⟩
    obtain ⟨art',hart',hne⟩ := hart ""
    obtain rfl := Except.ok.inj ((h "").symm.trans hart')
    exact hne
  · intro hne
    refine ⟨fun filename => ⟨art,h filename,hne⟩,fun decoder w filename sizeHint haudio hart => ?_⟩
    have hextract : extractLocalAlbumArt filename (some c) = .ok art := h filename
    rw [hextract] at hart
    rw [ne_eq,fetchLocal_recorded haudio hart,passedOn,if_neg (by simpa using hne)]
    exact Option.some_ne_none _

theorem found_iff_selected :
    Found (.mpeg (some ps)) ∧ Found (.flac ps) ∧ Found (.ogg (some ps)) ↔ selected ps ≠ [] := by
  rw [found_iff (fun _ => rfl),found_iff (fun _ => rfl),found_iff (fun _ => rfl),
    mpegAlbumArt_selected,flacAlbumArt_selected,oggAlbumArt_selected,and_self,and_self]

theorem selected_of_cover {cover : Picture} (h : ps.find? isFrontCover = some cover) :
    selected ps = cover.data := by
  rw [selected,FirstChoice.choose_of_best h]
  rfl

/-- Without a front cover a usable picture is an other one, and one of those is selected. -/
theorem selected_of_usable (h : ps.find? isFrontCover = none) (hp : ∃ p ∈ ps, Usable p) :
    selected ps ≠ [] := by
  obtain ⟨p,hmem,htype,hdata⟩ := hp
  have hother : p.type = .other := by
    refine htype.resolve_left fun hfront => ?_
    exact List.find?_eq_none.mp h p hmem (by simp [isFrontCover,hfront])
  have hsome : (ps.find? isUsableOther).isSome :=
    List.find?_isSome.mpr ⟨p,hmem,by simp [isUsableOther,hother,hdata]⟩
  obtain ⟨q,hq⟩ := Option.isSome_iff_exists.mp hsome
  have husable : isUsableOther q = true := List.find?_some hq
  rw [selected,FirstChoice.choose_of_good h,hq]
  exact (of_decide_eq_true husable).2

end Found

/-- Embedded album art is found whenever it exists exactly when the first front cover of the
list, if there is one, is not empty. -/
theorem foundIfEmbedded_iff (ps : List Picture) : FoundIfEmbedded ps ↔
    ((∃ p ∈ ps, Usable p) → ∀ cover ∈ ps.find? isFrontCover, cover.data ≠ []) := by
  rw [FoundIfEmbedded,found_iff_selected]
  refine imp_congr_right fun hp => ?_
  cases hcover : ps.find? isFrontCover with
  | none => exact iff_of_true (selected_of_usable hcover hp) (by simp)
  | some cover =>
    rw [selected_of_cover hcover]
    simp

/-- An other picture with data, and a front cover without. -/
def emptyCover : List Picture := [⟨.other,[0xff,0xd8]⟩,⟨.frontCover,[]⟩]

/-- The empty front cover replaces the picture that was found. -/
theorem emptyCover_lost : (∃ p ∈ emptyCover, Usable p) ∧ mpegAlbumArt (some emptyCover) = [] ∧
    ¬ FoundIfEmbedded emptyCover := by
  refine ⟨by decide,rfl,fun h => ?_⟩
  exact found_iff_selected.mp (h (by decide)) rfl

end LocalAlbumArt
end UnityThumbnailer
