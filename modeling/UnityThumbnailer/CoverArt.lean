import Mathlib.Data.Int.Notation
import UnityThumbnailer.FirstChoice

/-! Cover art in media streams: the images among the tags that vs-thumb finds, and which of them
it uses. -/
namespace UnityThumbnailer

namespace CoverArt

/-- The values of GST_TYPE_TAG_IMAGE_TYPE that matter, and the others by their number. -/
inductive TagImageType
  | undefined | frontCover | ignored (code : ℤ)
  deriving DecidableEq

/-- An image among the tags; its info structure, and the image type in it, may be missing. -/
structure GstSample (Buffer : Type*) where
  buffer : Buffer
  info : Option (Option TagImageType)

/-- The two tags that are looked at, with their samples in the order of the index. -/
structure GstTagList (Buffer : Type*) where
  image : List (GstSample Buffer)
  previewImage : List (GstSample Buffer)

inductive ImageType
  | cover | other
  deriving DecidableEq

structure CoverImage (Buffer : Type*) where
  type : ImageType
  sample : Option (GstSample Buffer)

variable {Buffer : Type*}

/-- Check the type of this image. -/
def imageType (s : GstSample Buffer) : TagImageType :=
  match s.info with
  | some type => type.getD .undefined
  | none => .undefined

/-- The loop of `find_cover()`, from the samples that are left on. -/
def findCoverLoop : List (GstSample Buffer) → CoverImage Buffer → CoverImage Buffer
  | [], ci => ci
  | s::samples, ci =>
    if imageType s = .frontCover then ⟨.cover,some s⟩
    else if imageType s = .undefined ∧ ci.sample.isNone then
      -- save the first unknown image tag, but continue scanning
      findCoverLoop samples { ci with sample := some s }
    else findCoverLoop samples ci

def findCover (samples : List (GstSample Buffer)) : CoverImage Buffer :=
  findCoverLoop samples ⟨.other,none⟩

/-- What `extract_cover_art()` returns, and `sample_` after it. -/
def extractCoverArt (tags : Option (GstTagList Buffer)) (sample : Option (GstSample Buffer)) :
    Bool × Option (GstSample Buffer) :=
  match tags with
  | none => (false,sample)
  | some tags =>
    -- look for a normal image (cover or other image)
    let image := findCover tags.image
    if image.sample.isSome ∧ image.type = .cover then (true,image.sample)
    else
      -- try to find a preview image instead
      let previewImage := findCover tags.previewImage
      if previewImage.sample.isSome ∧ previewImage.type = .cover then (true,previewImage.sample)
      -- see if we found some other normal image
      else if image.sample.isSome then (true,image.sample)
      -- we might have found a non-cover preview image
      else (previewImage.sample.isSome,previewImage.sample)

/-! ### The selection -/

def isFrontCover (s : GstSample Buffer) : Bool := imageType s = .frontCover

def isUndefined (s : GstSample Buffer) : Bool := imageType s = .undefined

/-- The first front cover if there is one, otherwise the first image of undefined type. -/
def bestImage (samples : List (GstSample Buffer)) : CoverImage Buffer :=
  if (samples.find? isFrontCover).isSome then ⟨.cover,samples.find? isFrontCover⟩
  else ⟨.other,samples.find? isUndefined⟩

/-- The normal front cover, the preview front cover, the normal undefined image, or the preview
undefined image. -/
def bestSample (tags : GstTagList Buffer) : Option (GstSample Buffer) :=
  (tags.image.find? isFrontCover).or ((tags.previewImage.find? isFrontCover).or
    ((tags.image.find? isUndefined).or (tags.previewImage.find? isUndefined)))

section Loop

variable {samples : List (GstSample Buffer)}

/-- The loop is a scan for the front cover. -/
theorem findCoverLoop_scan (samples : List (GstSample Buffer)) (kept : Option (GstSample Buffer)) :
    findCoverLoop samples ⟨.other,kept⟩ =
      ⟨if (FirstChoice.scan isFrontCover isUndefined samples kept).1 then .cover else .other,
        (FirstChoice.scan isFrontCover isUndefined samples kept).2⟩ := by
  induction samples generalizing kept with
  | nil => rfl
  | cons s samples ih =>
    unfold findCoverLoop
    by_cases hfront : imageType s = .frontCover
    · rw [if_pos hfront,FirstChoice.scan_cons_best (by simpa [isFrontCover] using hfront)]
      rfl
    · have hbest : isFrontCover s = false := by simpa [isFrontCover] using hfront
      rw [if_neg hfront]
      by_cases hsave : imageType s = .undefined ∧ kept.isNone
      · obtain ⟨hundefined,hnone⟩ := hsave
        obtain rfl := Option.isNone_iff_eq_none.mp hnone
        rw [if_pos ⟨hundefined,rfl⟩,
          FirstChoice.scan_cons_good hbest (by simpa [isUndefined] using hundefined)]
        exact ih (some s)
      · have hskip : kept.isSome ∨ isUndefined s = false := by
          rcases not_and_or.mp hsave with htype | hkept
          · exact Or.inr (by simpa [isUndefined] using htype)
          · exact Or.inl (Option.isSome_iff_ne_none.mpr (by simpa using hkept))
        rw [if_neg hsave,FirstChoice.scan_cons_skip hbest hskip]
        exact ih kept

theorem findCover_best (samples : List (GstSample Buffer)) :
    findCover samples = bestImage samples := by
  rw [findCover,findCoverLoop_scan,FirstChoice.scan_stopped,FirstChoice.scan_choose,bestImage]
  cases hfront : samples.find? isFrontCover with
  | some s =>
    rw [FirstChoice.choose_of_best hfront]
    rfl
  | none =>
    rw [FirstChoice.choose_of_good hfront]
    rfl

theorem bestImage_cover {s : GstSample Buffer} (h : samples.find? isFrontCover = some s) :
    bestImage samples = ⟨.cover,some s⟩ := by
  rw [bestImage,h]
  rfl

theorem bestImage_other (h : samples.find? isFrontCover = none) :
    bestImage samples = ⟨.other,samples.find? isUndefined⟩ := by
  rw [bestImage,h]
  rfl

end Loop

theorem extractCoverArt_best (tags : GstTagList Buffer) (sample : Option (GstSample Buffer)) :
    extractCoverArt (some tags) sample = ((bestSample tags).isSome,bestSample tags) := by
  simp only [extractCoverArt,findCover_best,bestSample]
  cases himage : tags.image.find? isFrontCover with
  | some s =>
    rw [bestImage_cover himage]
    rfl
  | none =>
    rw [bestImage_other himage]
    cases hpreview : tags.previewImage.find? isFrontCover with
    | some s =>
      rw [bestImage_cover hpreview]
      simp
    | none =>
      rw [bestImage_other hpreview]
      cases hnormal : tags.image.find? isUndefined <;> simp

/-- Nothing is selected when no image has one of the two types. -/
theorem bestSample_eq_none (tags : GstTagList Buffer) : bestSample tags = none ↔
    ∀ s ∈ tags.image ++ tags.previewImage, imageType s ≠ .frontCover ∧
      imageType s ≠ .undefined := by
  have hnone : ∀ samples : List (GstSample Buffer),
      samples.find? isFrontCover = none ∧ samples.find? isUndefined = none ↔
        ∀ s ∈ samples, imageType s ≠ .frontCover ∧ imageType s ≠ .undefined := by
    intro samples
    simp only [List.find?_eq_none,isFrontCover,isUndefined,decide_eq_true_eq,← forall_and,
      ne_eq]
  rw [bestSample,Option.or_eq_none_iff,Option.or_eq_none_iff,Option.or_eq_none_iff,
    List.forall_mem_append,← hnone,← hnone]
  tauto

/-- `find_cover()` finds the first front cover, otherwise the first image of undefined type;
`extract_cover_art()` selects a normal front cover, a preview front cover, a normal undefined
image or a preview undefined image, in this order, and fails exactly when there is none. -/
theorem coverSelection (tags : GstTagList Buffer) (sample : Option (GstSample Buffer)) :
    (∀ samples : List (GstSample Buffer), findCover samples = bestImage samples) ∧
      (extractCoverArt (some tags) sample).2 = bestSample tags ∧
      ((extractCoverArt (some tags) sample).1 = false ↔
        ∀ s ∈ tags.image ++ tags.previewImage, imageType s ≠ .frontCover ∧
          imageType s ≠ .undefined) := by
  rw [extractCoverArt_best]
  refine ⟨findCover_best,rfl,?_⟩
  rw [← bestSample_eq_none]
  exact Option.isSome_eq_false_iff.trans Option.isNone_iff_eq_none

end CoverArt
end UnityThumbnailer
