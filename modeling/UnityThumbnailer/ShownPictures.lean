import UnityThumbnailer.EndToEnd
import UnityThumbnailer.Handovers
import UnityThumbnailer.PictureKinds

/-! Whose picture an application is shown. Pictures are followed from the sources of a media
through the caches, which all requests share, to the requests for that very media. -/
namespace UnityThumbnailer

open CacheKeys

instance (m : Media) : Decidable (Admissible m) :=
  match m with
  | .localFile filename _ => inferInstanceAs (Decidable ('\x00' ∉ filename.toList))
  | .album a b | .artist a b =>
    inferInstanceAs (Decidable ('\x00' ∉ a.toList ∧ '\x00' ∉ b.toList))

namespace Service

/-- A step brings only what the media it is about is supplied with; the strings of a call are
free of NUL bytes. -/
def Supplies (Supplied : Media → ImageFile → Prop) (s : Service) : Event → Prop
  | .request _ m _ => ∀ media ∈ m.media.toOption, Admissible media
  | .check h w | .create h w => Reads Supplied w (s.handlers h).request.media
  | .downloadComplete h d => Brings Supplied (s.handlers h).request.media d
  | _ => True

instance (Supplied : Media → ImageFile → Prop) [∀ m f, Decidable (Supplied m f)] (s : Service)
    (e : Event) : Decidable (Supplies Supplied s e) :=
  match e with
  | .request _ m _ => inferInstanceAs (Decidable (∀ media ∈ m.media.toOption, Admissible media))
  | .check h w | .create h w =>
    inferInstanceAs (Decidable (Reads Supplied w (s.handlers h).request.media))
  | .downloadComplete h d =>
    inferInstanceAs (Decidable (Brings Supplied (s.handlers h).request.media d))
  | .credentialsReply .. | .checkFinished _ | .createFinished _ | .delete _ | .evict .. | .call _ =>
    inferInstanceAs (Decidable True)

/-- Everything that is cached, brought, handed over or sent for a media is of the kind. -/
structure Genuine (K : Kind) (s : Service) : Prop where
  admissible : ∀ x < s.next, Admissible (s.handlers x).request.media
  stocks : K.Stocks s.thumbnailer
  brought : ∀ x < s.next, ∀ d, (s.handlers x).request.download = some d →
    Brings K.file (s.handlers x).request.media d
  handed : HandedOver (fun y data => K.file y.request.media data) s

section

variable {cfg : Config} {e : Event} {s t : Service} {h x : ℕ} {K : Kind}

/-- A download that is put into a request: one that has just been started or that could not be,
or what it has left behind. -/
def Put (m : Media) (x : ℕ) (e : Event) (d : Download) : Prop :=
  d = initialDownload m ∨
    (∃ filename st what, m = .localFile filename st ∧ d = .extractor (.error what)) ∨
      e = .downloadComplete x d

/-- What a step can make of the download of a request. -/
def Downloaded (s : Service) (e : Event) (t : Service) (x : ℕ) : Prop :=
  (t.handlers x).request.download = (s.handlers x).request.download ∨
    ∃ d, (t.handlers x).request.download = some d ∧ Put (s.handlers x).request.media x e d

theorem Downloaded.update {y : Handler}
    (hhandlers : t.handlers = Function.update s.handlers h y)
    (hy : y.request.download = (s.handlers h).request.download ∨
      ∃ d, y.request.download = some d ∧ Put (s.handlers h).request.media h e d) :
    Downloaded s e t x := by
  unfold Downloaded
  rw [hhandlers,Function.update_apply]
  split_ifs with hx
  · rw [hx]
    exact hy
  · exact .inl rfl

theorem initialDownload_raw (m : Media) : (initialDownload m).raw = none := by
  cases m <;> rfl

theorem Put.raw {m : Media} {d : Download} (h : Put m x e d) :
    d.raw = none ∨ e = .downloadComplete x d := by
  rcases h with rfl | ⟨_,_,_,-,rfl⟩ | he
  · exact .inl (initialDownload_raw m)
  · exact .inl rfl
  · exact .inr he

theorem Transition.downloaded (ht : Transition cfg s e t) (hx : x < s.next) :
    Downloaded s e t x := by
  cases ht with
  | refused | reported | asked | erased | caught | uncaught | released | evicted => exact .inl rfl
  | arrived hidle hmedia =>
    refine .inl ?_
    rw [queueRequest_handlers]
    exact congrArg (fun y : Handler => y.request.download) (Function.update_of_ne hx.ne ..)
  | @cleared o u h c hr hc =>
    refine Downloaded.update (h:=h) (y:=(s.handlers h).setCheckWatcher .running) ?_ (.inl rfl)
    rw [← hr.handlers]
    rfl
  | denied hr hc =>
    exact .inl (congrArg (fun y : Handler => y.request.download) (congrFun hr.handlers x))
  | pushed hcalls =>
    exact .inl (congrArg (fun y : Handler => y.request.download)
      (congrFun (pushBack_handlers ..) x))
  | started hcalls => exact .update rfl (.inr ⟨_,rfl,.inl rfl⟩)
  | failed hcalls hmedia => exact .update rfl (.inr ⟨_,rfl,.inr (.inl ⟨_,_,_,hmedia,rfl⟩)⟩)
  | completed hidle hd => exact .update rfl (.inr ⟨_,rfl,.inr (.inr rfl)⟩)
  | returned | creating | checkAnswered | scheduled | createAnswered | deleted | aborted =>
    exact .update rfl (.inl rfl)
  | checked hw hr => exact .update (thumbnail_modify_handlers ..) (.inl rfl)
  | created hw hr => exact .update (thumbnail_modify_handlers ..) (.inl rfl)

/-- The media of a handler is that of its method call. -/
theorem media_step (hs : Sound s) (ht : (machine cfg).step s e = some t) (hx : x < t.next) :
    x < s.next ∧ (t.handlers x).request.media = (s.handlers x).request.media ∨
      x = s.next ∧ ∃ peer m size, e = .request peer m size ∧
        m.media = .ok (t.handlers x).request.media := by
  have htr := hs.transition_of_step ht
  have hold : t.next = s.next →
      x < s.next ∧ (t.handlers x).request.media = (s.handlers x).request.media := fun hnext =>
    ⟨hnext ▸ hx,(htr.rewritten (hnext ▸ hx)).media⟩
  by_cases harrives : e.arrives
  · cases e with
    | request peer m size =>
      cases reception ht with
      | refused hmedia hnext => exact .inl (hold hnext)
      | admitted hmedia hnext hrequests hhandlers =>
        by_cases hnew : x = s.next
        · refine .inr ⟨hnew,peer,m,size,rfl,?_⟩
          rw [hhandlers,hnew,Function.update_self]
          exact hmedia
        · refine .inl ⟨by omega,?_⟩
          rw [hhandlers,Function.update_of_ne hnew]
    | _ => cases harrives
  · cases htr.answering hs harrives with
    | nobody hnext => exact .inl (hold hnext)
    | one hnext => exact .inl (hold hnext)

theorem admissible_step {Supplied : Media → ImageFile → Prop} (hs : Sound s)
    (ht : (machine cfg).step s e = some t) (hsupplies : Supplies Supplied s e)
    (hall : ∀ x < s.next, Admissible (s.handlers x).request.media) :
    ∀ x < t.next, Admissible (t.handlers x).request.media := by
  intro x hx
  rcases media_step hs ht hx with ⟨hold,hsame⟩ | ⟨-,peer,m,size,rfl,hmedia⟩
  · rw [hsame]
    exact hall x hold
  · exact hsupplies _ (by rw [hmedia]; rfl)

theorem Genuine.brought_step {Supplied : Media → ImageFile → Prop} (hg : Genuine K s)
    (htr : Transition cfg s e t) (hK : ∀ m f, Supplied m f → K.file m f)
    (hsupplies : Supplies Supplied s e) : ∀ x < t.next, ∀ d,
      (t.handlers x).request.download = some d → Brings K.file (t.handlers x).request.media d := by
  intro x hx d hd
  by_cases hold : x < s.next
  · rw [(htr.rewritten hold).media]
    rcases htr.downloaded hold with hsame | ⟨d',hd',hput⟩
    · exact hg.brought x hold d (hsame.symm.trans hd)
    · obtain rfl := Option.some.inj (hd'.symm.trans hd)
      rcases hput.raw with hnone | rfl
      · intro raw hraw
        rw [hnone] at hraw
        cases hraw
      · exact fun raw hraw => hK _ _ (hsupplies raw hraw)
  · rcases htr.next with hn | ⟨hn,peer,l,media,size,details,hnew,-⟩
    · omega
    · obtain rfl : x = s.next := by omega
      rw [hnew] at hd
      cases hd

theorem Genuine.look {Supplied : Media → ImageFile → Prop} {w : World} (hg : Genuine K s)
    (hK : ∀ m f, Supplied m f → K.file m f) (hx : x < s.next)
    (hw : Reads Supplied w (s.handlers x).request.media) :
    K.Kept (s.handlers x).request.media (s.thumbnailer.thumbnail w (s.handlers x).request) :=
  hg.stocks.thumbnail (hg.admissible x hx) (hw.mono hK) (hg.brought x hx)

theorem Genuine.step {Supplied : Media → ImageFile → Prop} (hg : Genuine K s) (hs : Sound s)
    (hK : ∀ m f, Supplied m f → K.file m f) (hsupplies : Supplies Supplied s e)
    (ht : (machine cfg).step s e = some t) : Genuine K t := by
  have htr := hs.transition_of_step ht
  have hl := hs.lifecycle
  have hlooked : ∀ x w, e = .check x w ∨ e = .create x w →
      Reads Supplied w (s.handlers x).request.media := by
    rintro x w (rfl | rfl) <;> exact hsupplies
  refine ⟨admissible_step hs ht hsupplies hg.admissible,?_,?_,hg.handed.step hs ht ?_ ?_⟩
  · rcases htr.thumbnailer with hsame | ⟨x,w,he,hthumbnailer,-⟩ | ⟨cache,key,-,hevicted⟩
    · rw [hsame]
      exact hg.stocks
    · have hx : x < s.next := he.elim (fun h => (h.2.unfinished hl).2.2)
        fun h => (h.2.unfinished hl).2.2
      rw [hthumbnailer]
      exact (hg.look hK hx (hlooked x w (he.imp And.left And.left))).stocks
    · rw [hevicted]
      exact hg.stocks.evict cache key
  · exact hg.brought_step htr hK hsupplies
  · intro x data hx hfile
    rw [(htr.rewritten hx).media]
    exact hfile
  · intro x w data hx he hreturned
    exact (hg.look hK hx (hlooked x w he)).returned data hreturned

theorem Genuine.new (apparmorEnabled : Bool) (maxDownloads maxExtractions : ℤ)
    (hd : 0 < maxDownloads) (he : 0 < maxExtractions) {thumbnailer : Thumbnailer}
    (hs : K.Stocks thumbnailer) :
    Genuine K (new apparmorEnabled maxDownloads maxExtractions hd he thumbnailer) :=
  ⟨fun _ hx => absurd hx (Nat.not_lt_zero _),hs,fun _ hx => absurd hx (Nat.not_lt_zero _),.new ..⟩

end
end Service

namespace SessionBus

open EventSystem

/-- The step of the service that a step of the bus is brings only what media are supplied
with. -/
def Supplies (Supplied : Media → ImageFile → Prop) (b : SessionBus) : Event → Prop
  | .dispatch k canonical file =>
    ∀ media ∈ ((b.wanted k).1.method canonical file).media.toOption, Admissible media
  | .service e => Service.Supplies Supplied b.service e
  | _ => True

instance (Supplied : Media → ImageFile → Prop) [∀ m f, Decidable (Supplied m f)]
    (b : SessionBus) (e : Event) : Decidable (Supplies Supplied b e) :=
  match e with
  | .dispatch k canonical file => inferInstanceAs (Decidable
      (∀ media ∈ ((b.wanted k).1.method canonical file).media.toOption, Admissible media))
  | .service e => inferInstanceAs (Decidable (Service.Supplies Supplied b.service e))
  | .create .. | .client .. | .wait .. | .deliver _ | .timeout .. =>
    inferInstanceAs (Decidable True)

/-- What a request shows is a picture of the kind for the media of the one handler that got its
call, which is the media that the request wants as it was found when the call was taken. -/
def ShownGenuine (K : Kind) (b : SessionBus) : Prop :=
  ∀ i r data, ((b.clients i).requests r).isValid = true →
    ((b.clients i).requests r).image = some data → ∃ h,
      (∀ h', b.message h' = some (i,r) ↔ h' = h) ∧
      (∃ canonical file, ((b.wanted (i,r)).1.method canonical file).media =
        .ok (b.service.handlers h).request.media) ∧
      .sentThumbnail h (some data) ∈ b.service.log ∧
      K.file (b.service.handlers h).request.media data

section

variable {cfg : Service.Config} {peer : Instance → Peer} {b d : SessionBus} {e : Event}
  {K : Kind} {Supplied : Media → ImageFile → Prop}

theorem Supplies.serves {f : Service.Event} (hsupplies : Supplies Supplied b e)
    (hf : Serves peer b e f) : Service.Supplies Supplied b.service f := by
  cases e with
  | dispatch =>
    obtain rfl := hf
    exact hsupplies
  | service =>
    obtain rfl := hf
    exact hsupplies
  | _ => exact hf.elim

theorem Correlated.shownGenuine (hc : Correlated cfg peer b) (hg : Service.Genuine K b.service) :
    ShownGenuine K b := by
  intro i r data hv himage
  obtain ⟨h,hh,hsent⟩ := hc.shown i r hv
  rw [himage] at hsent
  exact ⟨h,fun _ => hc.message_iff hh,(hc.handlers h _ hh).2.2,hsent,(hg.handed.sent h data hsent).2⟩

/-- Pictures of a kind are all that applications are shown, if sources supply no others. -/
theorem pictures_genuine (maxBacklog : Instance → { n : ℤ // 0 < n }) (apparmorEnabled : Bool)
    (maxDownloads maxExtractions : ℤ) (hd : 0 < maxDownloads) (he : 0 < maxExtractions)
    {thumbnailer : Thumbnailer} (hs : K.Stocks thumbnailer) (hK : ∀ m f, Supplied m f → K.file m f)
    {es : List Event} (hsupplies : (machine cfg peer).AllSteps (Supplies Supplied)
      (new maxBacklog (.new apparmorEnabled maxDownloads maxExtractions hd he thumbnailer)) es) :
    (machine cfg peer).Always (ShownGenuine K) (new maxBacklog
      (.new apparmorEnabled maxDownloads maxExtractions hd he thumbnailer)) es := by
  have hstep : ∀ b e d, (Correlated cfg peer b ∧ Service.Genuine K b.service) →
      Supplies Supplied b e → (machine cfg peer).step b e = some d →
      Correlated cfg peer d ∧ Service.Genuine K d.service := by
    intro b e d ⟨hc,hg⟩ hsupplies hstep
    refine ⟨hc.step hstep,?_⟩
    rcases step_service hstep with hsame | ⟨f,hf,ht⟩
    · rwa [hsame]
    · exact hg.step hc.balanced.service hK (hsupplies.serves hf) ht
  exact Machine.always_of_guarded hstep (fun _ h => h.1.shownGenuine h.2)
    ⟨.new cfg peer maxBacklog (.new ..) (.new ..),.new apparmorEnabled maxDownloads
      maxExtractions hd he hs⟩ hsupplies

end

/-- A disk with pictures, all alike. -/
def pictureDisk : World :=
  { World.idle with
    mimetype := fun _ => .ok .image, readFile := fun _ => .ok (some Service.square) }

def firstLook : List Event :=
  [.create 1 (.thumbnail "/photo.jpg") ⟨48,48⟩,
    .dispatch (1,0) none (.ok ("/photo.jpg",⟨1,0,0,0,0⟩)),.service Service.go,.service Service.go,
    .service (.credentialsReply ":1.1" (.map 1000 "unconfined\x00".toList)),.service Service.go,
    .service Service.go,.service (.check 0 pictureDisk),.service (.checkFinished 0),
    .deliver (1,0)]

/-- The one picture that there is. -/
def OnDisk (m : Media) (f : ImageFile) : Prop :=
  m = .localFile "/photo.jpg" ⟨1,0,0,0,0⟩ ∧ f = Service.square

instance (m : Media) (f : ImageFile) : Decidable (OnDisk m f) :=
  inferInstanceAs (Decidable (_ ∧ _))

def emptyDesk : SessionBus :=
  { desk with service := Service.started }

end SessionBus
end UnityThumbnailer
