import UnityThumbnailer.CacheKeys
import UnityThumbnailer.SizeContract
import UnityThumbnailer.ThumbnailOutcome

/-! The thumbnail cache holds nothing too large. An entry fits the size in its key, whichever
way its image came, and a look-up keeps it so; what it returns fits the target size. -/
namespace UnityThumbnailer

open Transparency

theorem encoded_size (i : Image) : (encoded i).picture.size = i.pixbuf.size := by
  unfold encoded
  split <;> rfl

theorem scale_within {i : Image} {box : QSize} (hs : Proper box) :
    ∃ j, i.scale box = .ok j ∧ Within j.pixbuf box := by
  obtain ⟨j,hj,hb,-⟩ := SizeContract.scale_bounded i hs.1 hs.2
  exact ⟨j,hj,hb.width_le_box,hb.height_le_box⟩

namespace Thumbnailer

/-! ### Sizes in keys -/

/-- The last fields of two texts are told apart by the separator before them. -/
theorem append_cons_inj {A : Type*} {c : A} {a b x y : List A} (hx : c ∉ x) (hy : c ∉ y)
    (h : a ++ c :: x = b ++ c :: y) : a = b ∧ x = y := by
  rcases List.append_eq_append_iff.mp h with ⟨m,rfl,hm⟩ | ⟨m,rfl,hm⟩
  · cases m with
    | nil => exact ⟨(List.append_nil a).symm,(List.cons.inj hm).2⟩
    | cons d m =>
      obtain ⟨rfl,rfl⟩ := List.cons.inj hm
      exact absurd (List.mem_append_right m List.mem_cons_self) hx
  · cases m with
    | nil => exact ⟨List.append_nil b,(List.cons.inj hm).2.symm⟩
    | cons d m =>
      obtain ⟨rfl,rfl⟩ := List.cons.inj hm
      exact absurd (List.mem_append_right m List.mem_cons_self) hy

/-- The size can be read off a key, whatever it is a key of. -/
theorem sizedKey_size {key key' : String} {size size' : QSize}
    (h : sizedKey key size = sizedKey key' size') : size = size' := by
  have hlist : ∀ (k : String) (s : QSize), (sizedKey k s).toList =
      (k.toList ++ '\x00' :: (toString s.width).toList) ++ '\x00' :: (toString s.height).toList := by
    intro k s
    simp [sizedKey,nul]
  have hnot : ∀ n : ℤ, '\x00' ∉ (toString n).toList :=
    DelimitedText.not_mem_int (by decide) (by decide)
  have heq := congrArg String.toList h
  rw [hlist,hlist] at heq
  obtain ⟨hrest,hheight⟩ := append_cons_inj (hnot _) (hnot _) heq
  obtain ⟨-,hwidth⟩ := append_cons_inj (hnot _) (hnot _) hrest
  refine CacheKeys.sizeFields_injective ?_
  unfold CacheKeys.sizeFields
  rw [String.toList_injective hwidth,String.toList_injective hheight]

/-! ### The cache -/

/-- Every thumbnail in the cache fits the size in its key. -/
def Sized (t : Thumbnailer) : Prop :=
  ∀ key size data, t.thumbnailCache (sizedKey key size) = some data → Within data.picture size

/-- What one look-up leaves and returns. -/
structure SizedResult (t : Thumbnailer) (r : Request) (res : Result) : Prop where
  sized : res.thumbnailer.Sized
  maxSize : res.thumbnailer.maxSize = t.maxSize
  fits : ∀ data, res.outcome = .returned (some data) →
    Within data.picture (t.targetSize r.requestedSize)

section

variable {t u : Thumbnailer} {w : World} {r : Request}

theorem Sized.of_cache (hs : t.Sized) (hcache : u.thumbnailCache = t.thumbnailCache) : u.Sized :=
  fun key size data hd => hs key size data (hcache ▸ hd)

theorem targetSize_congr (hmax : u.maxSize = t.maxSize) (size : QSize) :
    u.targetSize size = t.targetSize size := by
  unfold targetSize
  rw [hmax]

theorem unexpected_ne {what : String} {data : Option ImageFile} :
    unexpected r what ≠ .returned data := by
  unfold unexpected
  simp

/-- Nothing is returned, and the cache of thumbnails is left alone. -/
theorem Sized.nothing {o : Outcome} {status : FetchStatus} (hs : t.Sized)
    (hcache : u.thumbnailCache = t.thumbnailCache) (hmax : u.maxSize = t.maxSize)
    (ho : ∀ data, o ≠ .returned (some data)) : SizedResult t r ⟨o,u,status⟩ :=
  ⟨hs.of_cache hcache,hmax,fun data hd => absurd hd (ho data)⟩

/-- What is found after an entry was put in is that entry, or was there before. -/
theorem put_found {A : Type} {cache : String → Option A} {accepted : Bool} {key k : String}
    {value v : A} (h : Thumbnailer.put cache accepted key value k = some v) :
    k = key ∧ v = value ∨ cache k = some v := by
  unfold Thumbnailer.put at h
  split_ifs at h
  · rw [Function.update_apply] at h
    split_ifs at h with hk
    · exact .inl ⟨hk,(Option.some.inj h).symm⟩
    · exact .inr h
  · exact .inr h

/-- An entry that fits its size goes in. -/
theorem Sized.put {size : QSize} {key : String} {data : ImageFile} (hs : t.Sized)
    (hdata : Within data.picture size) : (t.putThumbnail w (sizedKey key size) data).Sized := by
  intro key' size' data' hd
  rcases put_found hd with ⟨hkey,rfl⟩ | hold
  · rw [sizedKey_size hkey]
    exact hdata
  · exact hs key' size' data' hold

theorem Sized.saveThumbnail {scaled : Image} (status : FetchStatus) (hs : t.Sized)
    (hfits : Within scaled.pixbuf (t.targetSize r.requestedSize)) :
    SizedResult t r (t.saveThumbnail w r status scaled) := by
  have hsize := encoded_size scaled
  have hdata : Within (encoded scaled).picture (t.targetSize r.requestedSize) :=
    ⟨(congrArg QSize.width hsize).trans_le hfits.1,(congrArg QSize.height hsize).trans_le hfits.2⟩
  rw [saveThumbnail_eq]
  refine ⟨hs.put hdata,rfl,fun data hd => ?_⟩
  obtain rfl := Option.some.inj (Outcome.returned.inj hd)
  exact hdata

theorem Sized.scaleFetched {image : Image} (policy : CachePolicy) (hs : t.Sized)
    (hv : r.requestedSize.isValid = true) :
    SizedResult t r (t.scaleFetched w r image policy) := by
  have hscaled : ∀ (v : Thumbnailer) (kept : Image), v.thumbnailCache = t.thumbnailCache →
      v.maxSize = t.maxSize → ∃ j, kept.scale (v.targetSize r.requestedSize) = .ok j ∧
        SizedResult t r (v.saveThumbnail w r .downloaded j) := by
    intro v kept hcache hmax
    obtain ⟨j,hj,hwithin⟩ := scale_within (i:=kept) (targetSize_proper v hv)
    have hres : SizedResult v r (v.saveThumbnail w r .downloaded j) :=
      (hs.of_cache hcache).saveThumbnail .downloaded hwithin
    refine ⟨j,hj,hres.sized,hres.maxSize.trans hmax,?_⟩
    rw [← targetSize_congr hmax]
    exact hres.fits
  unfold Thumbnailer.scaleFetched
  split
  · exact hs.nothing rfl rfl fun _ => unexpected_ne
  · rename_i v kept hkept
    split_ifs at hkept with hpolicy
    · obtain ⟨file,rfl⟩ := keepFullSize_ok hkept
      obtain ⟨j,hj,hres⟩ := hscaled (t.putFullSize w r.key file) kept rfl rfl
      rw [hj]
      exact hres
    · obtain ⟨rfl,rfl⟩ := Prod.mk.inj (Except.ok.inj hkept)
      obtain ⟨j,hj,hres⟩ := hscaled t image rfl rfl
      rw [hj]
      exact hres

theorem Sized.handleFetched {d : ImageData} (hs : t.Sized)
    (hv : r.requestedSize.isValid = true) : SizedResult t r (t.handleFetched w r d) := by
  cases d with
  | image image policy location =>
    obtain ⟨-,hcache,hmax⟩ := Transparency.noteAnswer_caches t w location
    have hres : SizedResult (t.noteAnswer w location) r
        ((t.noteAnswer w location).scaleFetched w r image policy) :=
      (hs.of_cache hcache).scaleFetched policy hv
    refine ⟨hres.sized,hres.maxSize.trans hmax,?_⟩
    rw [← targetSize_congr hmax]
    exact hres.fits
  | failed status policy location =>
    have hnoted : ∀ {u : Thumbnailer} {status}, u.thumbnailCache = t.thumbnailCache →
        u.maxSize = t.maxSize → SizedResult t r ⟨.returned none,u.noteAnswer w location,status⟩ :=
      fun {u _} hcache hmax =>
        have hsame := Transparency.noteAnswer_caches u w location
        hs.nothing (hsame.2.1.trans hcache) (hsame.2.2.trans hmax) (by simp)
    cases status with
    | notFound | hardError => exact hnoted rfl rfl
    | needsDownload | temporaryError | timeout =>
      simp only [Thumbnailer.handleFetched]
      split <;> exact hs.nothing rfl rfl (by simp)
    | _ => exact hs.nothing rfl rfl (by simp)

/-- A look-up keeps the cache of thumbnails sized, and returns what fits the target size. -/
theorem Sized.thumbnail (hs : t.Sized) (w : World) (r : Request) :
    SizedResult t r (t.thumbnail w r) := by
  have hlooked := looked t w r
  generalize t.thumbnail w r = res at hlooked ⊢
  cases hlooked with
  | threw => exact hs.nothing rfl rfl fun _ => unexpected_ne
  | hit hdata =>
    refine ⟨hs,rfl,fun data hd => ?_⟩
    obtain rfl := Option.some.inj (Outcome.returned.inj hd)
    exact hs _ _ _ hdata
  | scaled hv hfull hload =>
    exact hs.saveThumbnail .scaledFromFullsize (load_within (targetSize_proper t hv) hload)
  | failure | aborted => exact hs.nothing rfl rfl (by simp)
  | fetched hv hfetch => exact hs.handleFetched hv

theorem Sized.evict (hs : t.Sized) (cache : Cache) (key : String) : (t.evict cache key).Sized := by
  cases cache with
  | thumbnail =>
    intro key' size data hd
    change Function.update t.thumbnailCache key none _ = _ at hd
    rw [Function.update_apply] at hd
    split_ifs at hd
    exact hs key' size data hd
  | fullSize | failure => exact hs.of_cache rfl

theorem evict_maxSize (t : Thumbnailer) (cache : Cache) (key : String) :
    (t.evict cache key).maxSize = t.maxSize := by
  cases cache <;> rfl

theorem sized_fresh : fresh.Sized := nofun

end
end Thumbnailer
end UnityThumbnailer
