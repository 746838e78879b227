import UnityThumbnailer.ShownPictures

/-! How old a picture may be. Files change while applications look at them. The caches outlive
the changes, but their keys tell the versions of a file apart, so an application is not shown what
a file was before the application asked for it. -/
namespace UnityThumbnailer

open CacheKeys EventSystem

/-- What is found under a path after so many changes to it. -/
structure Disk where
  stat : String → ℕ → Option Stat
  readFile : String → ℕ → Except String Bytes
  albumArt : String → ℕ → Except String (Option Bytes)
  /-- What vs-thumb makes of the file. -/
  frame : String → ℕ → Except String Bytes
  /-- A change shows in the inode or in one of the times. -/
  distinct : ∀ path v w st, stat path v = some st → stat path w = some st → v = w

namespace Disk

/-- The pictures in a version of a file. -/
def Holds (disk : Disk) (path : String) (v : ℕ) (f : ImageFile) : Prop :=
  disk.readFile path v = .ok (some f) ∨ disk.albumArt path v = .ok (some (some f)) ∨
    disk.frame path v = .ok (some f)

/-- The pictures in the version that a request is for, and in later ones. -/
def Since (disk : Disk) : Media → ImageFile → Prop
  | .localFile path st,f => ∃ v w, disk.stat path v = some st ∧ v ≤ w ∧ disk.Holds path w f
  | .album ..,_ | .artist ..,_ => True

/-- The request is for a file as it is. -/
def Finds (disk : Disk) (version : String → ℕ) : Media → Prop
  | .localFile path st => disk.stat path (version path) = some st
  | .album .. | .artist .. => True

/-- A look-up reads the file as it is. -/
def Shows (disk : Disk) (version : String → ℕ) (w : World) : Media → Prop
  | .localFile path _ => w.readFile path = disk.readFile path (version path) ∧
      w.albumArt path = disk.albumArt path (version path)
  | .album .. | .artist .. => True

/-- What an extractor brings is from a version since the request was made. -/
def Extracts (disk : Disk) (version : String → ℕ) : Media → Download → Prop
  | .localFile path st,.extractor read => ∃ w ≤ version path, ∃ v ≤ w,
      disk.stat path v = some st ∧ read = disk.frame path w
  | .localFile ..,.artReply _ => False
  | .album ..,_ | .artist ..,_ => True

/-- What the service finds on the disk is there. -/
def Sees (disk : Disk) (version : String → ℕ) (s : Service) : Service.Event → Prop
  | .request _ m _ => ∀ media ∈ m.media.toOption, Admissible media ∧ disk.Finds version media
  | .check h w | .create h w => disk.Shows version w (s.handlers h).request.media
  | .downloadComplete h d => disk.Extracts version (s.handlers h).request.media d
  | _ => True

instance (disk : Disk) (version : String → ℕ) (media : Media) :
    Decidable (disk.Finds version media) :=
  match media with
  | .localFile path st => inferInstanceAs (Decidable (disk.stat path (version path) = some st))
  | .album .. | .artist .. => inferInstanceAs (Decidable True)

instance (disk : Disk) (version : String → ℕ) (w : World) (media : Media) :
    Decidable (disk.Shows version w media) :=
  match media with
  | .localFile .. => inferInstanceAs (Decidable (_ ∧ _))
  | .album .. | .artist .. => inferInstanceAs (Decidable True)

instance (disk : Disk) (version : String → ℕ) (media : Media) (d : Download) :
    Decidable (disk.Extracts version media d) :=
  match media,d with
  | .localFile path st,.extractor read => inferInstanceAs (Decidable
      (∃ w ≤ version path, ∃ v ≤ w, disk.stat path v = some st ∧ read = disk.frame path w))
  | .localFile ..,.artReply _ => inferInstanceAs (Decidable False)
  | .album ..,_ | .artist ..,_ => inferInstanceAs (Decidable True)

instance (disk : Disk) (version : String → ℕ) (s : Service) (e : Service.Event) :
    Decidable (disk.Sees version s e) :=
  match e with
  | .request _ m _ => inferInstanceAs (Decidable
      (∀ media ∈ m.media.toOption, Admissible media ∧ disk.Finds version media))
  | .check h w | .create h w =>
    inferInstanceAs (Decidable (disk.Shows version w (s.handlers h).request.media))
  | .downloadComplete h d =>
    inferInstanceAs (Decidable (disk.Extracts version (s.handlers h).request.media d))
  | .credentialsReply .. | .checkFinished _ | .createFinished _ | .delete _ | .evict .. | .call _ =>
    inferInstanceAs (Decidable True)

end Disk

open SessionBus in
/-- Applications and service, and files that change. -/
structure Desktop where
  bus : SessionBus
  /-- How often a file has changed. -/
  version : String → ℕ
  /-- The versions of all files when the request was created. -/
  asked : CallId → String → ℕ

namespace Desktop

open SessionBus

inductive Event
  | change (path : String)
  | bus (e : SessionBus.Event)

def askedBy (d : Desktop) : SessionBus.Event → CallId → String → ℕ
  | .create i _ _ => Function.update d.asked (i,(d.bus.clients i).next) d.version
  | _ => d.asked

def machine (cfg : Service.Config) (peer : Instance → Peer) : Machine Desktop Event where
  step d
    | .change path =>
      some { d with version := Function.update d.version path (d.version path+1) }
    | .bus e => ((SessionBus.machine cfg peer).step d.bus e).map fun b =>
        { d with bus := b, asked := d.askedBy e }

/-- The step of the service that a step is sees the disk. -/
def Sees (disk : Disk) (d : Desktop) : Event → Prop
  | .bus (.dispatch k canonical file) =>
    ∀ media ∈ ((d.bus.wanted k).1.method canonical file).media.toOption,
      Admissible media ∧ disk.Finds d.version media
  | .bus (.service e) => disk.Sees d.version d.bus.service e
  | _ => True

instance (disk : Disk) (d : Desktop) (e : Event) : Decidable (Sees disk d e) :=
  match e with
  | .bus (.dispatch k canonical file) => inferInstanceAs (Decidable
      (∀ media ∈ ((d.bus.wanted k).1.method canonical file).media.toOption,
        Admissible media ∧ disk.Finds d.version media))
  | .bus (.service e) => inferInstanceAs (Decidable (disk.Sees d.version d.bus.service e))
  | .bus (.create ..) | .bus (.client ..) | .bus (.wait ..) | .bus (.deliver _)
  | .bus (.timeout ..) | .change _ => inferInstanceAs (Decidable True)

/-- What a request for a local file shows was made of the file in a version that it had when
the request was created, or later. -/
def ShownFresh (disk : Disk) (d : Desktop) : Prop :=
  ∀ i r data filename, ((d.bus.clients i).requests r).isValid = true →
    ((d.bus.clients i).requests r).image = some data →
    (d.bus.wanted (i,r)).1 = .thumbnail filename → ∃ h path st,
      d.bus.message h = some (i,r) ∧
      (d.bus.service.handlers h).request.media = .localFile path st ∧
      Derived (fun _ f => ∃ v, d.asked (i,r) path ≤ v ∧ disk.Holds path v f) (.localFile path st)
        (.inl data)

/-- The versions that requests are for. -/
structure Dated (disk : Disk) (d : Desktop) : Prop where
  found : ∀ x < d.bus.service.next, ∀ path st,
    (d.bus.service.handlers x).request.media = .localFile path st →
      ∃ v ≤ d.version path, disk.stat path v = some st
  asked : ∀ k path, d.asked k path ≤ d.version path
  calls : ∀ h k, d.bus.message h = some k → ∀ path st,
    (d.bus.service.handlers h).request.media = .localFile path st →
      ∃ v, d.asked k path ≤ v ∧ disk.stat path v = some st

end Desktop

theorem Derived.mono {P Q : Media → ImageFile → Prop} {m : Media} {x : ImageFile ⊕ Image}
    (h : Derived P m x) (hPQ : ∀ f, P m f → Q m f) : Derived Q m x := by
  induction h with
  | supplied hf => exact .supplied (hPQ _ hf)
  | loaded _ hi ih => exact .loaded ih hi
  | scaled _ hj ih => exact .scaled ih hj
  | encoded _ hf ih => exact .encoded ih hf

namespace Service

section

variable {cfg : Config} {e : Event} {s t : Service} {h : ℕ} {disk : Disk} {version : String → ℕ}

/-- A step that looks up or ends a download is about a handler that is at work. -/
theorem Transition.concerns {w : World} {d : Download} (ht : Transition cfg s e t)
    (he : e = .check h w ∨ e = .create h w ∨ e = .downloadComplete h d) : ∃ p, At s h p := by
  rcases he with rfl | rfl | rfl
  · cases ht with
    | checked hw => exact ⟨Place.checking,hw⟩
    | aborted hw =>
      rcases hw with ⟨he,hw⟩ | ⟨he,-⟩
      · cases he
        exact ⟨Place.checking,hw⟩
      · cases he
  · cases ht with
    | created hw => exact ⟨Place.creating,hw⟩
    | aborted hw =>
      rcases hw with ⟨he,-⟩ | ⟨he,hw⟩
      · cases he
      · cases he
        exact ⟨Place.creating,hw⟩
  · cases ht with
    | completed hidle hd => exact ⟨.downloading,hd⟩
    | aborted hw => rcases hw with ⟨he,-⟩ | ⟨he,-⟩ <;> cases he

theorem reads_since {w : World} {media : Media}
    (hfound : ∀ path st, media = .localFile path st →
      ∃ v ≤ version path, disk.stat path v = some st)
    (hw : disk.Shows version w media) : Reads disk.Since w media := by
  cases media with
  | localFile path st =>
    obtain ⟨v,hv,hstat⟩ := hfound path st rfl
    refine ⟨fun raw hraw => ⟨v,_,hstat,hv,.inl ?_⟩,fun raw hraw => ⟨v,_,hstat,hv,.inr (.inl ?_)⟩⟩
    · rw [← hw.1]
      cases hread : w.readFile path with
      | error what => simp [hread,Except.toOption] at hraw
      | ok data => simpa [hread,Except.toOption] using hraw
    · rw [← hw.2]
      cases hread : w.albumArt path with
      | error what => simp [hread,Except.toOption] at hraw
      | ok data => simpa [hread,Except.toOption,Option.join_eq_some_iff] using hraw
  | album | artist => trivial

theorem brings_since {media : Media} {d : Download} (hd : disk.Extracts version media d) :
    Brings disk.Since media d := by
  intro raw hraw
  cases media with
  | localFile path st =>
    cases d with
    | extractor read =>
      obtain ⟨w,-,v,hle,hstat,hread⟩ := hd
      refine ⟨v,w,hstat,hle,.inr (.inr ?_)⟩
      rw [← hread]
      cases read with
      | error what => simp [Download.raw,Except.toOption] at hraw
      | ok data => simpa [Download.raw,Except.toOption] using hraw
    | artReply reply => exact hd.elim
  | album | artist => trivial

/-- What is read for a request now is from the version that it is for, or from a later one. -/
theorem supplies_of_sees (hs : Sound s) (ht : (machine cfg).step s e = some t)
    (hfound : ∀ x < s.next, ∀ path st, (s.handlers x).request.media = .localFile path st →
      ∃ v ≤ version path, disk.stat path v = some st)
    (hsees : disk.Sees version s e) : Supplies disk.Since s e := by
  have htr := hs.transition_of_step ht
  cases e with
  | request peer m size => exact fun media hm => (hsees media hm).1
  | check h w =>
    obtain ⟨p,hat⟩ := htr.concerns (d:=.extractor (.error "")) (.inl rfl)
    exact reads_since (hfound h (hat.unfinished hs.lifecycle).2.2) hsees
  | create h w =>
    obtain ⟨p,hat⟩ := htr.concerns (d:=.extractor (.error "")) (.inr (.inl rfl))
    exact reads_since (hfound h (hat.unfinished hs.lifecycle).2.2) hsees
  | downloadComplete h d => exact brings_since hsees
  | _ => trivial

end
end Service

namespace Desktop

open SessionBus

section

variable {cfg : Service.Config} {peer : Instance → Peer} {d u : Desktop} {b : SessionBus}
  {e : SessionBus.Event} {disk : Disk}

theorem Dated.change (h : Dated disk d) (path : String) :
    Dated disk { d with version := Function.update d.version path (d.version path+1) } := by
  have hle : ∀ p, d.version p ≤ Function.update d.version path (d.version path+1) p := by
    intro p
    rw [Function.update_apply]
    split_ifs with hp
    · rw [hp]
      exact Nat.le_succ _
    · exact le_rfl
  refine ⟨fun x hx p st hm => ?_,fun k p => (h.asked k p).trans (hle p),h.calls⟩
  obtain ⟨v,hv,hstat⟩ := h.found x hx p st hm
  exact ⟨v,hv.trans (hle p),hstat⟩

/-- A message belongs to a call that has arrived before, or that arrives now. -/
theorem message_step (hb : (SessionBus.machine cfg peer).step d.bus e = some b) {h : ℕ}
    {k : CallId} (hk : b.message h = some k) : d.bus.message h = some k ∨
      ∃ canonical file, e = .dispatch k canonical file ∧ h = d.bus.service.next := by
  have hreceive : ∀ {a : SessionBus} {j : CallId} {reply : Client.Reply},
      a.receive j reply = some b → a.message = d.bus.message → d.bus.message h = some k := by
    intro a j reply hr ha
    obtain ⟨f,c,-,rfl,-⟩ := receive_brings hr
    rw [← ha]
    exact hk
  cases e with
  | create | client =>
    simp only [SessionBus.machine,SessionBus.step,Option.ite_none_right_eq_some,
      Option.map_eq_some_iff] at hb
    obtain ⟨-,c,-,rfl⟩ := hb
    exact .inl hk
  | wait i r =>
    simp only [SessionBus.machine,SessionBus.step,Option.ite_none_right_eq_some,
      Option.some.injEq] at hb
    obtain ⟨-,rfl⟩ := hb
    exact .inl hk
  | dispatch j canonical file =>
    simp only [SessionBus.machine,SessionBus.step,Option.ite_none_right_eq_some,
      Option.map_eq_some_iff] at hb
    obtain ⟨-,t,-,rfl⟩ := hb
    change (d.bus.accept j ((d.bus.wanted j).1.method canonical file)).message h = some k at hk
    unfold accept at hk
    dsimp only at hk
    split at hk
    · dsimp only at hk
      rw [Function.update_apply] at hk
      split_ifs at hk with hh
      · obtain rfl := Option.some.inj hk
        exact .inr ⟨canonical,file,rfl,hh⟩
      · exact .inl hk
    · exact .inl hk
  | service e =>
    simp only [SessionBus.machine,SessionBus.step,Option.map_eq_some_iff] at hb
    obtain ⟨t,-,rfl⟩ := hb
    exact .inl hk
  | deliver j =>
    simp only [SessionBus.machine,SessionBus.step] at hb
    split at hb
    · split_ifs at hb
      · exact .inl (hreceive hb rfl)
      · obtain rfl := Option.some.inj hb
        exact .inl hk
    · cases hb
  | timeout j message =>
    simp only [SessionBus.machine,SessionBus.step,Option.ite_none_right_eq_some] at hb
    exact .inl (hreceive hb.2 rfl)

/-- A handler is of old, or it is for a media that is found on the disk as it is. -/
theorem media_found (hc : Correlated cfg peer d.bus) (hsees : Sees disk d (.bus e))
    (hb : (SessionBus.machine cfg peer).step d.bus e = some b) {x : ℕ} (hx : x < b.service.next) :
    x < d.bus.service.next ∧ (b.service.handlers x).request.media =
        (d.bus.service.handlers x).request.media ∨
      x = d.bus.service.next ∧ disk.Finds d.version (b.service.handlers x).request.media := by
  rcases step_service hb with hsame | ⟨f,hf,ht⟩
  · rw [hsame] at hx ⊢
    exact .inl ⟨hx,rfl⟩
  · rcases Service.media_step hc.balanced.service ht hx with hold | ⟨hnew,p,m,size,rfl,hmedia⟩
    · exact .inl hold
    · refine .inr ⟨hnew,?_⟩
      cases e with
      | dispatch k canonical file =>
        obtain ⟨-,rfl,-⟩ := Service.Event.request.inj hf
        exact (hsees _ (by rw [hmedia]; rfl)).2
      | service e =>
        obtain rfl := hf
        exact (hsees _ (by rw [hmedia]; rfl)).2
      | _ => exact hf.elim

theorem Dated.bus (h : Dated disk d) (hc : Correlated cfg peer d.bus)
    (hsees : Sees disk d (.bus e)) (hb : (SessionBus.machine cfg peer).step d.bus e = some b) :
    Dated disk { d with bus := b, asked := d.askedBy e } := by
  have hasked : ∀ k path, d.askedBy e k path ≤ d.version path := by
    intro k path
    cases e with
    | create i w size =>
      simp only [askedBy,Function.update_apply]
      split_ifs
      · exact le_rfl
      · exact h.asked k path
    | _ => exact h.asked k path
  refine ⟨fun x hx path st hm => ?_,hasked,fun x k hk path st hm => ?_⟩
  · rcases media_found hc hsees hb hx with ⟨hold,hsame⟩ | ⟨-,hfinds⟩
    · exact h.found x hold path st (hsame.symm.trans hm)
    · rw [hm] at hfinds
      exact ⟨_,le_rfl,hfinds⟩
  · have hx : x < b.service.next := (hc.step hb).balanced.message_lt hk
    rcases message_step hb hk with hold | ⟨canonical,file,rfl,hnew⟩
    · have hlt := hc.balanced.message_lt hold
      rcases media_found hc hsees hb hx with ⟨-,hsame⟩ | ⟨hnew,-⟩
      · have hk' : d.askedBy e k = d.asked k := by
          cases e with
          | create i w size =>
            simp only [SessionBus.machine,SessionBus.step,Option.ite_none_right_eq_some] at hb
            exact Function.update_of_ne (hc.balanced.message_ne_next hb.1 hold) ..
          | _ => rfl
        dsimp only
        rw [hk']
        exact h.calls x k hold path st (hsame.symm.trans hm)
      · omega
    · rcases media_found hc hsees hb hx with ⟨hold,-⟩ | ⟨-,hfinds⟩
      · omega
      · rw [hm] at hfinds
        exact ⟨_,hasked k path,hfinds⟩

theorem supplies_of_sees (h : Dated disk d) (hc : Correlated cfg peer d.bus)
    (hsees : Sees disk d (.bus e)) (hb : (SessionBus.machine cfg peer).step d.bus e = some b) :
    SessionBus.Supplies disk.Since d.bus e := by
  cases e with
  | dispatch k canonical file => exact fun media hm => (hsees media hm).1
  | service e =>
    simp only [SessionBus.machine,SessionBus.step,Option.map_eq_some_iff] at hb
    obtain ⟨t,ht,-⟩ := hb
    exact Service.supplies_of_sees hc.balanced.service ht h.found hsees
  | _ => trivial

/-- Everything that is known in a run with a disk. -/
structure Inv (cfg : Service.Config) (peer : Instance → Peer) (disk : Disk) (d : Desktop) :
    Prop where
  correlated : Correlated cfg peer d.bus
  genuine : Service.Genuine (Kind.derived disk.Since) d.bus.service
  dated : Dated disk d

theorem Inv.step {e : Event} (h : Inv cfg peer disk d) (hsees : Sees disk d e)
    (hu : (machine cfg peer).step d e = some u) : Inv cfg peer disk u := by
  cases e with
  | change path =>
    obtain rfl := Option.some.inj hu
    exact ⟨h.correlated,h.genuine,h.dated.change path⟩
  | bus e =>
    obtain ⟨b,hb,rfl⟩ := Option.map_eq_some_iff.mp hu
    have hsupplies := supplies_of_sees h.dated h.correlated hsees hb
    refine ⟨h.correlated.step hb,?_,h.dated.bus h.correlated hsees hb⟩
    rcases step_service hb with hsame | ⟨f,hf,ht⟩
    · rw [hsame]
      exact h.genuine
    · exact h.genuine.step h.correlated.balanced.service (fun _ _ => .supplied)
        (hsupplies.serves hf) ht

theorem Inv.shownFresh (h : Inv cfg peer disk d) : ShownFresh disk d := by
  intro i r data filename hv himage hwanted
  obtain ⟨x,hx,hsent⟩ := h.correlated.shown i r hv
  rw [himage] at hsent
  have hfile := (h.genuine.handed.sent x data hsent).2
  obtain ⟨-,-,canonical,file,hmedia⟩ := h.correlated.handlers x _ hx
  rw [hwanted] at hmedia
  obtain ⟨path,st,hm⟩ := thumbnail_media hmedia
  obtain ⟨v,hv,hstat⟩ := h.dated.calls x _ hx path st hm
  refine ⟨x,path,st,hx,hm,?_⟩
  have hderived : Derived disk.Since (.localFile path st) (.inl data) := hm ▸ hfile
  refine hderived.mono ?_
  rintro f ⟨v',w,hstat',hle,hholds⟩
  obtain rfl := disk.distinct path v v' st hstat hstat'
  exact ⟨w,hv.trans hle,hholds⟩

end

/-- In every run of applications, service and changing files, an application is shown what was
made of the file as it was when the application asked, or later, whatever the caches hold for
requests before the change. -/
theorem pictures_fresh (cfg : Service.Config) (peer : Instance → Peer) (disk : Disk)
    (maxBacklog : Instance → { n : ℤ // 0 < n }) (apparmorEnabled : Bool)
    (maxDownloads maxExtractions : ℤ) (hd : 0 < maxDownloads) (he : 0 < maxExtractions)
    (thumbnailer : Thumbnailer) (hs : (Kind.derived disk.Since).Stocks thumbnailer)
    (es : List Event)
    (hsees : (machine cfg peer).AllSteps (Sees disk) ⟨.new maxBacklog
      (.new apparmorEnabled maxDownloads maxExtractions hd he thumbnailer),fun _ => 0,
        fun _ _ => 0⟩ es) :
    (machine cfg peer).Always (ShownFresh disk) ⟨.new maxBacklog
      (.new apparmorEnabled maxDownloads maxExtractions hd he thumbnailer),fun _ => 0,
        fun _ _ => 0⟩ es := by
  have hstep : ∀ d e u, Inv cfg peer disk d → Sees disk d e →
      (machine cfg peer).step d e = some u → Inv cfg peer disk u := fun _ _ _ => Inv.step
  refine Machine.always_of_guarded hstep (fun _ h => h.shownFresh) ⟨?_,?_,?_⟩ hsees
  · exact .new cfg peer maxBacklog (.new ..) (.new ..)
  · exact .new apparmorEnabled maxDownloads maxExtractions hd he hs
  · exact ⟨fun _ hx => absurd hx (Nat.not_lt_zero _),fun _ _ => le_rfl,nofun⟩

/-- The photo before and after it is turned, which changes one tag in it. -/
def photo (v : ℕ) : ImageFile :=
  if v = 0 then Service.square else { Service.square with exif := some ⟨6,none⟩ }

def photoStat (v : ℕ) : Stat := ⟨1,v,0,v,0⟩

def album : Disk where
  stat path v := if path = "/photo.jpg" then some (photoStat v) else none
  readFile _ v := .ok (some (photo v))
  albumArt _ _ := .ok none
  frame _ _ := .error "no video"
  distinct path v w st hv hw := by
    by_cases hpath : path = "/photo.jpg"
    · rw [if_pos hpath] at hv hw
      have hsame : photoStat v = photoStat w := Option.some.inj (hv.trans hw.symm)
      exact Int.ofNat.inj (congrArg Stat.mtimSec hsame)
    · rw [if_neg hpath] at hv
      cases hv

/-- A look at the photo as it is, by the request with this number. -/
def look (r v : ℕ) : List SessionBus.Event :=
  [.create 1 (.thumbnail "/photo.jpg") ⟨48,48⟩,
    .dispatch (1,r) none (.ok ("/photo.jpg",photoStat v)),.service Service.go,
    .service Service.go]

def entitled : List SessionBus.Event :=
  [.service (.credentialsReply ":1.1" (.map 1000 "unconfined\x00".toList)),
    .service Service.go,.service Service.go]

def shown (r v : ℕ) : List SessionBus.Event :=
  [.service (.check r { pictureDisk with
      readFile := fun _ => .ok (some (photo v)), albumArt := fun _ => .ok none }),
    .service (.checkFinished r),.deliver (1,r)]

/-- The application looks at the photo, turns it, and looks at it again. -/
def turnPhoto : List Event :=
  (look 0 0 ++ entitled ++ shown 0 0).map .bus ++
    .change "/photo.jpg"::(look 1 1 ++ shown 1 1).map .bus

theorem pictures_fresh_turned :
    ((machine Service.reader viewer).run ⟨emptyDesk,fun _ => 0,fun _ _ => 0⟩ turnPhoto).any
      (fun d => ((d.bus.clients 1).requests 0).isValid && ((d.bus.clients 1).requests 1).isValid &&
        d.asked (1,1) "/photo.jpg" = 1) = true ∧
    (machine Service.reader viewer).Always (ShownFresh album) ⟨emptyDesk,fun _ => 0,fun _ _ => 0⟩
      turnPhoto :=
  ⟨by decide +kernel,pictures_fresh Service.reader viewer album _ true 2 2 two_pos two_pos
    Thumbnailer.fresh (fun _ _ => ⟨nofun,nofun⟩) turnPhoto (by decide +kernel)⟩

end Desktop
end UnityThumbnailer
