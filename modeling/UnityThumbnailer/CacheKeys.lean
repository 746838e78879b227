import UnityThumbnailer.DelimitedText
import UnityThumbnailer.ThumbnailRequest

/-! The keys of the three caches. A string of the source is a sequence of bytes, and a
character stands for a byte here; the fields of a key are separated by NUL bytes, which
neither a path nor a D-Bus string can hold. -/
namespace UnityThumbnailer

namespace CacheKeys

/-- The keys under which the failure cache holds the last time of a network failure and
the current backoff period. -/
def lastNetworkFailTimeKey : String := "/*** LAST_NETWORK_FAIL_TIME ***/"

def backoffPeriodKey : String := "/*** BACKOFF_PERIOD ***/"

/-- A string without NUL bytes. -/
def NulFree (s : String) : Prop := '\x00' ∉ s.toList

/-- The strings that identify the media are free of NUL bytes. -/
def Admissible : Media → Prop
  | .localFile filename _ => NulFree filename
  | .album artistName albumName => NulFree artistName ∧ NulFree albumName
  | .artist artistName albumName => NulFree artistName ∧ NulFree albumName

/-- A time stamp in a key. -/
def timeField (sec nsec : ℤ) : String := toString sec ++ "." ++ toString nsec

def fields : Media → List String
  | .localFile filename st =>
    [filename,toString st.ino,timeField st.mtimSec st.mtimNsec,timeField st.ctimSec st.ctimNsec]
  | .album artistName albumName => [artistName,albumName,"album"]
  | .artist artistName albumName => [artistName,albumName,"artist"]

def sizeFields (size : QSize) : List String := [toString size.width,toString size.height]

/-! ### Keys as separated fields -/

theorem nul_eq : nul = String.singleton '\x00' := rfl

theorem fields_ne_nil (m : Media) : fields m ≠ [] := by
  cases m <;> simp [fields]

theorem key_eq (m : Media) : m.key = DelimitedText.join '\x00' (fields m) := by
  cases m <;>
    simp [Media.key,fields,timeField,nul_eq,DelimitedText.join,String.append_assoc]

theorem sizedKey_eq (m : Media) (size : QSize) :
    Thumbnailer.sizedKey m.key size = DelimitedText.join '\x00' (fields m ++ sizeFields size) := by
  have hsize : DelimitedText.join '\x00' (sizeFields size) =
      toString size.width ++ nul ++ toString size.height := by
    simp [DelimitedText.join,sizeFields,nul_eq]
  rw [DelimitedText.join,String.intercalate_append_of_ne_nil (fields_ne_nil m) (by simp [sizeFields])]
  rw [← DelimitedText.join,← DelimitedText.join,hsize,← key_eq,← nul_eq]
  simp only [Thumbnailer.sizedKey,String.append_assoc]

theorem not_mem_timeField (sec nsec : ℤ) : '\x00' ∉ (timeField sec nsec).toList := by
  simp only [timeField,String.toList_append,List.mem_append,not_or]
  exact ⟨⟨DelimitedText.not_mem_int (by decide) (by decide) sec,by decide⟩,
    DelimitedText.not_mem_int (by decide) (by decide) nsec⟩

theorem separable_fields {m : Media} (hm : Admissible m) :
    DelimitedText.Separable '\x00' (fields m) := by
  cases m with
  | localFile filename st =>
    simp only [fields,DelimitedText.separable_cons,DelimitedText.separable_nil,and_true]
    exact ⟨hm,DelimitedText.not_mem_nat (by decide) st.ino,not_mem_timeField _ _,
      not_mem_timeField _ _⟩
  | album artistName albumName | artist artistName albumName =>
    simp only [fields,DelimitedText.separable_cons,DelimitedText.separable_nil,and_true]
    exact ⟨hm.1,hm.2,by decide⟩

theorem separable_sizeFields (size : QSize) :
    DelimitedText.Separable '\x00' (sizeFields size) := by
  simp only [sizeFields,DelimitedText.separable_cons,DelimitedText.separable_nil,and_true]
  exact ⟨DelimitedText.not_mem_int (by decide) (by decide) size.width,
    DelimitedText.not_mem_int (by decide) (by decide) size.height⟩

/-! ### Fields determine what they are made from -/

theorem timeField_injective {a b c d : ℤ} (h : timeField a b = timeField c d) :
    a = c ∧ b = d := by
  have hjoin : ∀ x y : ℤ, timeField x y = DelimitedText.join '.' [toString x,toString y] := by
    intro x y
    simp [timeField,DelimitedText.join]
  have hsep : ∀ x y : ℤ, DelimitedText.Separable '.' [toString x,toString y] := by
    intro x y
    simp only [DelimitedText.separable_cons,DelimitedText.separable_nil,and_true]
    exact ⟨DelimitedText.not_mem_int (by decide) (by decide) x,
      DelimitedText.not_mem_int (by decide) (by decide) y⟩
  rw [hjoin,hjoin] at h
  have hfields := DelimitedText.join_injective (hsep a b) (hsep c d) (by simp) (by simp) h
  simpa using hfields

theorem sizeFields_injective : Function.Injective sizeFields := by
  intro s t h
  have hpair : s.width = t.width ∧ s.height = t.height := by simpa [sizeFields] using h
  cases s
  cases t
  simpa using hpair

theorem fields_injective : Function.Injective fields := by
  intro m n h
  cases m with
  | localFile filename st =>
    cases n with
    | localFile name st' =>
      simp only [fields,List.cons.injEq,and_true] at h
      obtain ⟨rfl,hino,hm,hc⟩ := h
      obtain ⟨hm1,hm2⟩ := timeField_injective hm
      obtain ⟨hc1,hc2⟩ := timeField_injective hc
      have hino : st.ino = st'.ino := by simpa using hino
      cases st
      cases st'
      simp_all
    | album _ _ | artist _ _ => simp [fields] at h
  | album artistName albumName =>
    cases n with
    | album _ _ => simpa [fields] using h
    | localFile _ _ | artist _ _ => simp [fields] at h
  | artist artistName albumName =>
    cases n with
    | artist _ _ => simpa [fields] using h
    | localFile _ _ | album _ _ => simp [fields] at h

theorem fields_length (m : Media) : 3 ≤ (fields m).length ∧ (fields m).length ≤ 4 := by
  cases m <;> simp [fields]

theorem sizeFields_length (size : QSize) : (sizeFields size).length = 2 := rfl

/-! ### All keys -/

/-- Everything that a cache has a key for. -/
inductive Entry
  | unsized (media : Media)
  | sized (media : Media) (size : QSize)
  | lastNetworkFailTime
  | backoffPeriod

namespace Entry

def text : Entry → String
  | .unsized m => m.key
  | .sized m size => Thumbnailer.sizedKey m.key size
  | .lastNetworkFailTime => lastNetworkFailTimeKey
  | .backoffPeriod => backoffPeriodKey

def Admissible : Entry → Prop
  | .unsized m | .sized m _ => CacheKeys.Admissible m
  | .lastNetworkFailTime | .backoffPeriod => True

def fields : Entry → List String
  | .unsized m => CacheKeys.fields m
  | .sized m size => CacheKeys.fields m ++ sizeFields size
  | .lastNetworkFailTime => [lastNetworkFailTimeKey]
  | .backoffPeriod => [backoffPeriodKey]

theorem text_eq (e : Entry) : e.text = DelimitedText.join '\x00' e.fields := by
  cases e with
  | unsized m => exact key_eq m
  | sized m size => exact sizedKey_eq m size
  | lastNetworkFailTime | backoffPeriod => simp [text,fields]

theorem fields_ne_nil (e : Entry) : e.fields ≠ [] := by
  cases e with
  | unsized m => exact CacheKeys.fields_ne_nil m
  | sized m size => simp [fields,CacheKeys.fields_ne_nil]
  | lastNetworkFailTime | backoffPeriod => simp [fields]

theorem separable {e : Entry} (he : e.Admissible) : DelimitedText.Separable '\x00' e.fields := by
  cases e with
  | unsized m => exact separable_fields he
  | sized m size =>
    exact DelimitedText.separable_append.mpr ⟨separable_fields he,separable_sizeFields size⟩
  | lastNetworkFailTime | backoffPeriod =>
    simp only [fields,DelimitedText.separable_cons,DelimitedText.separable_nil,and_true]
    decide

/-- The number of fields tells the kinds of keys apart: one for the reserved keys, three or
four without a size, and two more with one. -/
theorem fields_injective : Function.Injective fields := by
  intro e d h
  have hlength := congrArg List.length h
  cases e with
  | unsized m =>
    have hm := fields_length m
    cases d with
    | unsized n => exact congrArg unsized (CacheKeys.fields_injective h)
    | sized n size =>
      have hn := fields_length n
      simp only [fields,List.length_append,sizeFields_length] at hlength
      omega
    | lastNetworkFailTime | backoffPeriod =>
      simp only [fields,List.length_singleton] at hlength
      omega
  | sized m size =>
    have hm := fields_length m
    cases d with
    | unsized n =>
      have hn := fields_length n
      simp only [fields,List.length_append,sizeFields_length] at hlength
      omega
    | sized n size' =>
      obtain ⟨hfields,hsize⟩ := List.append_inj' h rfl
      rw [CacheKeys.fields_injective hfields,sizeFields_injective hsize]
    | lastNetworkFailTime | backoffPeriod =>
      simp only [fields,List.length_append,sizeFields_length,List.length_singleton] at hlength
      omega
  | lastNetworkFailTime | backoffPeriod =>
    cases d with
    | unsized n =>
      have hn := fields_length n
      simp only [fields,List.length_singleton] at hlength
      omega
    | sized n size =>
      simp only [fields,List.length_append,sizeFields_length,List.length_singleton] at hlength
      omega
    | lastNetworkFailTime | backoffPeriod =>
      first
      | rfl
      | exact absurd h (by decide)

/-- Equal keys are keys of the same entry. -/
theorem text_injective {e d : Entry} (he : e.Admissible) (hd : d.Admissible)
    (h : e.text = d.text) : e = d := by
  rw [text_eq,text_eq] at h
  exact fields_injective (DelimitedText.join_injective (separable he) (separable hd)
    e.fields_ne_nil d.fields_ne_nil h)

end Entry

/-- Keys identify the media, sized keys the media and the size, and neither is mistaken for
the other or for a reserved key. -/
theorem keys_injective (m n : Media) (s t : QSize) (hm : Admissible m) (hn : Admissible n) :
    (m.key = n.key → m = n) ∧
      (Thumbnailer.sizedKey m.key s = Thumbnailer.sizedKey n.key t → m.key = n.key ∧ s = t) ∧
      Thumbnailer.sizedKey m.key s ≠ n.key ∧
      ∀ k ∈ [lastNetworkFailTimeKey,backoffPeriodKey],
        m.key ≠ k ∧ Thumbnailer.sizedKey m.key s ≠ k := by
  have hinj := @Entry.text_injective
  refine ⟨fun h => ?_,fun h => ?_,fun h => ?_,fun k hk => ?_⟩
  · exact Entry.unsized.inj (@hinj (.unsized m) (.unsized n) hm hn h)
  · obtain ⟨rfl,hs⟩ := Entry.sized.inj (@hinj (.sized m s) (.sized n t) hm hn h)
    exact ⟨rfl,hs⟩
  · cases @hinj (.sized m s) (.unsized n) hm hn h
  · obtain ⟨e,he,hreserved,rfl⟩ : ∃ e : Entry, e.Admissible ∧
        (e = .lastNetworkFailTime ∨ e = .backoffPeriod) ∧ e.text = k := by
      rcases List.mem_pair.mp hk with rfl | rfl
      · exact ⟨.lastNetworkFailTime,trivial,Or.inl rfl,rfl⟩
      · exact ⟨.backoffPeriod,trivial,Or.inr rfl,rfl⟩
    constructor <;> intro h
    · rcases hreserved with rfl | rfl <;> cases @hinj (.unsized m) _ hm he h
    · rcases hreserved with rfl | rfl <;> cases @hinj (.sized m s) _ hm he h

/-- An album and an artist of the same names. -/
theorem keys_injective_metallica :
    Admissible (.album "metallica" "load") ∧ Admissible (.artist "metallica" "load") ∧
      ((Media.album "metallica" "load").key = (Media.artist "metallica" "load").key →
        Media.album "metallica" "load" = .artist "metallica" "load") ∧
      (Thumbnailer.sizedKey (Media.album "metallica" "load").key ⟨10,10⟩ =
          Thumbnailer.sizedKey (Media.artist "metallica" "load").key ⟨10,10⟩ →
        (Media.album "metallica" "load").key = (Media.artist "metallica" "load").key ∧
          (⟨10,10⟩ : QSize) = ⟨10,10⟩) ∧
      Thumbnailer.sizedKey (Media.album "metallica" "load").key ⟨10,10⟩ ≠
        (Media.artist "metallica" "load").key ∧
      ∀ k ∈ [lastNetworkFailTimeKey,backoffPeriodKey], (Media.album "metallica" "load").key ≠ k ∧
        Thumbnailer.sizedKey (Media.album "metallica" "load").key ⟨10,10⟩ ≠ k :=
  ⟨by simp [Admissible,NulFree],by simp [Admissible,NulFree],
    keys_injective (.album "metallica" "load") (.artist "metallica" "load") ⟨10,10⟩ ⟨10,10⟩
      (by simp [Admissible,NulFree]) (by simp [Admissible,NulFree])⟩

end CacheKeys
end UnityThumbnailer
