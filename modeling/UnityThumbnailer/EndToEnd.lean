import UnityThumbnailer.CallAccounts

/-! From the request of an application to the image that it shows: what a request shows is
what the service sent for that very request, and no request is forgotten. -/
namespace UnityThumbnailer
namespace SessionBus

open EventSystem Client

/-- The service has sent this image to the call. -/
def SentTo (b : SessionBus) (k : CallId) (image : Option ImageFile) : Prop :=
  ∃ h, b.message h = some k ∧ .sentThumbnail h image ∈ b.service.log

/-- A request for a file that is taken on is for a file. -/
theorem thumbnail_media {canonical : Option String} {file : Except String (String × Stat)}
    {filename : String} {media : Media}
    (hm : ((Wanted.thumbnail filename).method canonical file).media = .ok media) :
    ∃ name st, media = .localFile name st := by
  simp only [Wanted.method,Service.Method.media] at hm
  split at hm
  · cases hm
  · split at hm
    · exact ⟨_,_,(Except.ok.inj hm).symm⟩
    · cases hm

/-- The handler was created for what the request wants, and for its peer. -/
def HandledAs (peer : Instance → Peer) (b : SessionBus) (k : CallId) (x : Service.Handler) : Prop :=
  x.peer = peer k.1 ∧ x.request.requestedSize = (b.wanted k).2 ∧
    ∃ canonical file, ((b.wanted k).1.method canonical file).media = .ok x.request.media

structure Correlated (cfg : Service.Config) (peer : Instance → Peer) (b : SessionBus) : Prop where
  balanced : Balanced noReply b
  access : Service.Access cfg b.service.credentials.apparmorEnabled b.service
  handlers : ∀ h k, b.message h = some k → HandledAs peer b k (b.service.handlers h)
  replies : ∀ k image, (k,.data image) ∈ b.replies → b.SentTo k image
  shown : ∀ i r, ((b.clients i).requests r).isValid = true →
    b.SentTo (i,r) ((b.clients i).requests r).image

section

variable {cfg : Service.Config} {peer : Instance → Peer} {b d : SessionBus} {i : Instance}
  {k : CallId} {e : Event}

theorem SentTo.mono {image : Option ImageFile} (hs : b.SentTo k image)
    (hmessage : ∀ h k, b.message h = some k → d.message h = some k)
    (hlog : b.service.log ⊆ d.service.log) : d.SentTo k image := by
  obtain ⟨h,hh,hsent⟩ := hs
  exact ⟨h,hmessage h k hh,hlog hsent⟩

theorem Balanced.message_lt {held : CallId → ℕ} {h : ℕ} (hb : Balanced held b)
    (hk : b.message h = some k) : h < b.service.next := by
  by_contra hge
  rw [hb.fresh h (not_lt.mp hge)] at hk
  cases hk

theorem Balanced.handled_pos {held : CallId → ℕ} {h : ℕ} (hb : Balanced held b)
    (hk : b.message h = some k) : 0 < b.handled k :=
  Finset.card_pos.mpr ⟨h,Finset.mem_filter.mpr ⟨Finset.mem_range.mpr (hb.message_lt hk),hk⟩⟩

/-- A request that does not exist yet has no handler. -/
theorem Balanced.message_ne_next {h : ℕ} (hb : Balanced noReply b) (hblocked : b.blocked i = none)
    (hk : b.message h = some k) : k ≠ (i,(b.clients i).next) := by
  rintro rfl
  have honce := hb.once (i,(b.clients i).next)
  have hpos := hb.handled_pos hk
  have hmade : b.made (i,(b.clients i).next) = 0 := by
    unfold made
    dsimp only
    rw [hblocked,if_neg (Option.some_ne_none _).symm,(hb.clients i).fresh _ le_rfl]
    rfl
  omega

/-! ### The libraries -/

/-- What a library shows is what it showed before, or the reply that comes in. -/
theorem shown_cases {c : Client} {e : Client.Event} (hb : Balanced noReply b)
    (hstep : library.step (b.clients i) e = some c) {r : RequestId}
    (hv : (c.requests r).isValid = true) :
    ((b.clients i).requests r).isValid = true ∧
        (c.requests r).image = ((b.clients i).requests r).image ∨
      e.Brings r (.data (c.requests r).image) := by
  cases step_turn (hb.clients i) hstep r with
  | kept hsent hfly hvalid => exact .inl (hvalid hv)
  | sent hq hsent hvalid => cases hvalid.symm.trans hv
  | answered he hsent hfly hvalid => exact .inr (hvalid hv ▸ he)

/-- A library that goes on shows what it should, if the reply that it gets does. -/
theorem Correlated.client {c : Client} {e : Client.Event}
    (hc : Correlated cfg peer b) (hstep : library.step (b.clients i) e = some c)
    (hbalanced : Balanced noReply d) (hservice : d.service = b.service)
    (hmessage : d.message = b.message) (hclients : d.clients = Function.update b.clients i c)
    (hreplies : d.replies ⊆ b.replies)
    (hwanted : ∀ h k, b.message h = some k → d.wanted k = b.wanted k)
    (hreply : ∀ r image, e.Brings r (.data image) → b.SentTo (i,r) image) :
    Correlated cfg peer d := by
  have hsent : ∀ {k image}, b.SentTo k image → d.SentTo k image := fun hs =>
    hs.mono (by rw [hmessage]; exact fun _ _ => id) (by rw [hservice]; exact fun _ => id)
  refine ⟨hbalanced,hservice ▸ hc.access,fun h k hk => ?_,fun k image hm => ?_,fun j r hv => ?_⟩
  · rw [hmessage] at hk
    unfold HandledAs
    rw [hwanted h k hk,hservice]
    exact hc.handlers h k hk
  · exact hsent (hc.replies k image (hreplies hm))
  · rw [hclients] at hv ⊢
    by_cases hji : j = i
    · subst hji
      rw [Function.update_self] at hv ⊢
      rcases shown_cases hc.balanced hstep hv with ⟨hold,himage⟩ | hr
      · rw [himage]
        exact hsent (hc.shown j r hold)
      · exact hsent (hreply r _ hr)
    · rw [Function.update_of_ne hji] at hv ⊢
      exact hsent (hc.shown j r hv)

/-- The reply that gets through is the one that is brought. -/
theorem receive_brings {reply : Reply} (hd : b.receive k reply = some d) :
    ∃ e c, library.step (b.clients k.1) e = some c ∧ d = b.setClient k.1 c none ∧
      ∀ r reply', Client.Event.Brings e r reply' → r = k.2 ∧ reply' = reply := by
  unfold receive at hd
  obtain ⟨c,hc,rfl⟩ := Option.map_eq_some_iff.mp hd
  refine ⟨_,c,hc,rfl,fun r reply' hr => ?_⟩
  split_ifs at hr
  · rcases hr with hr | hr <;> cases hr
    exact ⟨rfl,rfl⟩
  · rcases hr with hr | hr <;> cases hr
    exact ⟨rfl,rfl⟩

/-! ### The service -/

/-- The service goes on; `new` are the replies that it sends. -/
theorem Correlated.service {t : Service} {e : Service.Event} (new : List (CallId × Reply))
    (hc : Correlated cfg peer b) (ht : (Service.machine cfg).step b.service e = some t)
    (hbalanced : Balanced noReply d) (hservice : d.service = t)
    (hclients : d.clients = b.clients) (hwanted : d.wanted = b.wanted)
    (hmessage : ∀ h k, b.message h = some k → d.message h = some k)
    (hhandlers : ∀ h k, d.message h = some k → b.message h = some k ∨
      HandledAs peer b k (t.handlers h))
    (hreplies : d.replies = b.replies ++ new)
    (hnew : ∀ k image, (k,.data image) ∈ new → d.SentTo k image) : Correlated cfg peer d := by
  have htr := hc.balanced.service.transition_of_step ht
  obtain ⟨es,hlog,-⟩ := htr.log
  have hsent : ∀ {k image}, b.SentTo k image → d.SentTo k image := fun hs =>
    hs.mono hmessage (by rw [hservice,hlog]; exact List.subset_append_right ..)
  refine ⟨hbalanced,?_,fun h k hk => ?_,fun k image hm => ?_,fun i r hv => ?_⟩
  · rw [hservice]
    exact (Service.access_step ⟨hc.balanced.service,hc.access⟩ ht).2.self
  · unfold HandledAs
    rw [hservice,hwanted]
    rcases hhandlers h k hk with hold | hnew
    · have hx := hc.balanced.message_lt hold
      obtain ⟨hpeer,hsize,canonical,file,hmedia⟩ := hc.handlers h k hold
      have hr := htr.rewritten hx
      exact ⟨hr.peer.trans hpeer,
        (htr.constant Service.requestedSize_constant hx).trans hsize,canonical,file,
        hmedia.trans (congrArg Except.ok hr.media.symm)⟩
    · exact hnew
  · rw [hreplies] at hm
    exact (List.mem_append.mp hm).elim (fun hm => hsent (hc.replies k image hm)) (hnew k image)
  · rw [hclients] at hv ⊢
    exact hsent (hc.shown i r hv)

theorem Correlated.serve {t : Service} {e : Service.Event} (hc : Correlated cfg peer b)
    (ht : (Service.machine cfg).step b.service e = some t)
    (hbalanced : Balanced noReply (b.setService t)) : Correlated cfg peer (b.setService t) := by
  have hquiet : ∀ {es}, t.log = es ++ b.service.log → (∀ a ∈ es, a.answers = none) →
      Correlated cfg peer (b.setService t) := fun hlog hes =>
    hc.service [] ht hbalanced rfl rfl rfl (fun _ _ => id) (fun _ _ => .inl)
      ((setService_quiet hlog hes).trans (List.append_nil _).symm)
      (fun _ _ hm => absurd hm List.not_mem_nil)
  by_cases harrives : e.arrives
  · cases e with
    | request p m size =>
      cases Service.reception ht with
      | refused hmedia hnext hrequests hhandlers hlog => exact hquiet hlog (by simp; rfl)
      | admitted hmedia hnext hrequests hhandlers hlog => exact hquiet hlog (by simp; rfl)
    | _ => cases harrives
  · cases (hc.balanced.service.transition_of_step ht).answering hc.balanced.service harrives with
    | nobody hnext hrequests hes hlog => exact hquiet hlog hes
    | @one h a es hnext hh ha hrequests hes hlog =>
      refine hc.service _ ht hbalanced rfl rfl rfl (fun _ _ => id) (fun _ _ => .inl)
        (setService_answer hlog hes) fun k image hm => ?_
      have hanswer := Option.mem_toList.mp hm
      have hlogged : a ∈ t.log := by
        rw [hlog]
        exact List.mem_append_left _ (List.mem_cons_of_mem _ List.mem_cons_self)
      cases a with
      | sentThumbnail x ba =>
        obtain ⟨y,hy,hpair⟩ := Option.map_eq_some_iff.mp hanswer
        obtain ⟨rfl,hdata⟩ := Prod.mk.inj hpair
        obtain rfl := Reply.data.inj hdata
        exact ⟨x,hy,hlogged⟩
      | sentError x error =>
        obtain ⟨y,hy,hpair⟩ := Option.map_eq_some_iff.mp hanswer
        cases (Prod.mk.inj hpair).2
      | _ => cases ha

theorem Correlated.dispatch {t : Service} {canonical : Option String}
    {file : Except String (String × Stat)} (hc : Correlated cfg peer b)
    (ht : (Service.machine cfg).step b.service
      (.request (peer k.1) ((b.wanted k).1.method canonical file) (b.wanted k).2) = some t)
    (hbalanced : Balanced noReply
      ((b.accept k ((b.wanted k).1.method canonical file)).setService t)) :
    Correlated cfg peer ((b.accept k ((b.wanted k).1.method canonical file)).setService t) := by
  cases Service.reception ht with
  | @refused what hmedia hnext hrequests hhandlers hlog =>
    have hacc : b.accept k ((b.wanted k).1.method canonical file) = { b with
        calls := b.calls.erase k
        replies := b.replies ++
          [(k,.error (((b.wanted k).1.method canonical file).refusal what))] } := by
      simp only [accept,hmedia]
    have hreplies : ((b.accept k ((b.wanted k).1.method canonical file)).setService t).replies =
        b.replies ++ [(k,.error (((b.wanted k).1.method canonical file).refusal what))] := by
      rw [hacc]
      exact setService_quiet (b:={ b with
        calls := b.calls.erase k
        replies := b.replies ++
          [(k,.error (((b.wanted k).1.method canonical file).refusal what))] }) hlog (by simp; rfl)
    refine hc.service _ ht hbalanced rfl ?_ ?_ ?_ ?_ hreplies fun j image hm => ?_
    · rw [hacc]; rfl
    · rw [hacc]; rfl
    · rw [hacc]; exact fun _ _ => id
    · rw [hacc]; exact fun _ _ => .inl
    · cases List.mem_singleton.mp hm
  | @admitted media hmedia hnext hrequests hhandlers hlog =>
    have hacc : b.accept k ((b.wanted k).1.method canonical file) = { b with
        calls := b.calls.erase k
        message := Function.update b.message b.service.next (some k) } := by
      simp only [accept,hmedia]
    have hreplies : ((b.accept k ((b.wanted k).1.method canonical file)).setService t).replies =
        b.replies := by
      rw [hacc]
      exact setService_quiet (b:={ b with
        calls := b.calls.erase k
        message := Function.update b.message b.service.next (some k) }) hlog (by simp; rfl)
    have hmessage : ((b.accept k ((b.wanted k).1.method canonical file)).setService t).message =
        Function.update b.message b.service.next (some k) := by
      rw [hacc]; rfl
    refine hc.service [] ht hbalanced rfl ?_ ?_ (fun h j hj => ?_) (fun h j hj => ?_)
      (hreplies.trans (List.append_nil _).symm) (fun _ _ hm => absurd hm List.not_mem_nil)
    · rw [hacc]; rfl
    · rw [hacc]; rfl
    · rw [hmessage,Function.update_of_ne (hc.balanced.message_lt hj).ne]
      exact hj
    · rw [hmessage,Function.update_apply] at hj
      split_ifs at hj with hh
      · obtain rfl := Option.some.inj hj
        rw [hh,hhandlers,Function.update_self]
        exact .inr ⟨rfl,rfl,canonical,file,hmedia⟩
      · exact .inl hj

/-! ### Every step -/

theorem Correlated.step (hc : Correlated cfg peer b) (hd : (machine cfg peer).step b e = some d) :
    Correlated cfg peer d := by
  have hb := hc.balanced
  have hbalanced := hb.step hd
  have hreceive : ∀ {k reply} {a : SessionBus}, a.receive k reply = some d →
      a.service = b.service → a.message = b.message → a.clients = b.clients →
      a.wanted = b.wanted → a.replies ⊆ b.replies →
      (∀ image, reply = .data image → b.SentTo k image) → Correlated cfg peer d := by
    intro k reply a hr hservice hmessage hclients hwanted hreplies hsent
    obtain ⟨e,c,hstep,rfl,he⟩ := receive_brings hr
    rw [hclients] at hstep
    refine hc.client hstep hbalanced hservice hmessage
      (by rw [← hclients]; rfl) hreplies
      (fun _ j _ => congrFun hwanted j) fun r image hbrings => ?_
    obtain ⟨rfl,hreply⟩ := he r _ hbrings
    exact hsent image hreply.symm
  cases e with
  | create i w size =>
    simp only [machine,SessionBus.step,Option.ite_none_right_eq_some,
      Option.map_eq_some_iff] at hd
    obtain ⟨hblocked,c,hstep,rfl⟩ := hd
    refine hc.client hstep hbalanced rfl rfl rfl (fun _ => id) (fun h k hk => ?_)
      fun r image hr => ?_
    · exact Function.update_of_ne (hb.message_ne_next hblocked hk) ..
    · rcases hr with hr | hr <;> cases hr
  | client i e =>
    simp only [machine,SessionBus.step,Option.ite_none_right_eq_some,
      Option.map_eq_some_iff] at hd
    obtain ⟨⟨hblocked,hinner⟩,c,hstep,rfl⟩ := hd
    refine hc.client hstep hbalanced rfl rfl rfl (fun _ => id) (fun _ _ _ => rfl)
      fun r image hr => ?_
    rcases hr with rfl | rfl <;> exact hinner.elim
  | wait i r =>
    simp only [machine,SessionBus.step,Option.ite_none_right_eq_some,Option.some.injEq] at hd
    obtain ⟨-,rfl⟩ := hd
    refine ⟨hbalanced,hc.access,hc.handlers,hc.replies,fun j x hv => ?_⟩
    have hsame : Function.update b.clients i (b.clients i) = b.clients := Function.update_eq_self ..
    change ((Function.update b.clients i (b.clients i) j).requests x).isValid = true at hv
    change b.SentTo (j,x) ((Function.update b.clients i (b.clients i) j).requests x).image
    rw [hsame] at hv ⊢
    exact hc.shown j x hv
  | dispatch k canonical file =>
    simp only [machine,SessionBus.step,Option.ite_none_right_eq_some,
      Option.map_eq_some_iff] at hd
    obtain ⟨hk,t,ht,rfl⟩ := hd
    exact hc.dispatch ht hbalanced
  | service e =>
    simp only [machine,SessionBus.step,Option.map_eq_some_iff] at hd
    obtain ⟨t,ht,rfl⟩ := hd
    exact hc.serve ht hbalanced
  | deliver k =>
    simp only [machine,SessionBus.step] at hd
    have hsub : b.replies.eraseP (·.1 = k) ⊆ b.replies := List.eraseP_subset
    split at hd
    · rename_i p hp
      split_ifs at hd with hk hblocked
      · refine hreceive hd rfl rfl rfl rfl hsub fun image himage => ?_
        have hkey := List.find?_some (p:=fun x : CallId × Reply => decide (x.1 = k)) hp
        have hmem := List.mem_of_find?_eq_some hp
        obtain rfl := of_decide_eq_true hkey
        rw [himage] at hmem
        exact hc.replies _ image hmem
      · obtain rfl := Option.some.inj hd
        exact ⟨hbalanced,hc.access,hc.handlers,fun k image hm => hc.replies k image (hsub hm),
          hc.shown⟩
    · cases hd
  | timeout k message =>
    simp only [machine,SessionBus.step,Option.ite_none_right_eq_some] at hd
    exact hreceive hd.2 rfl rfl rfl rfl (fun _ => id) fun image himage => Reply.noConfusion himage

theorem Correlated.new (cfg : Service.Config) (peer : Instance → Peer)
    (maxBacklog : Instance → { n : ℤ // 0 < n }) {service : Service}
    {apparmorEnabled : Bool} (hs : Service.Sound service)
    (ha : Service.Access cfg apparmorEnabled service) :
    Correlated cfg peer (new maxBacklog service) :=
  ⟨.new maxBacklog hs,ha.self,nofun,nofun,nofun⟩

end

/-! ### What applications may rely on -/

/-- Calls, replies and images belong to their requests. -/
structure Delivered (peer : Instance → Peer) (b : SessionBus) : Prop where
  /-- A request makes one call at most, and one handler at most gets it. -/
  once : ∀ k, b.calls.count k+b.handled k ≤ 1
  /-- As long as a request waits, its call is on its way to the service, with a handler that
  has not answered, or the reply is on its way back: in one of these places. -/
  awaited : ∀ k, b.Awaited k → b.stages k = 1
  /-- What a request shows was sent by the one handler of its own call, which was created for
  what the request wants, in that size, and for the peer that it belongs to. -/
  shown : ∀ i r, ((b.clients i).requests r).isValid = true →
    ∃ h, .sentThumbnail h ((b.clients i).requests r).image ∈ b.service.log ∧
      HandledAs peer b (i,r) (b.service.handlers h) ∧ ∀ h', b.message h' = some (i,r) ↔ h' = h

section

variable {cfg : Service.Config} {peer : Instance → Peer} {b : SessionBus} {k : CallId}

theorem Correlated.made_le (hc : Correlated cfg peer b) (k : CallId) : b.made k ≤ 1 := by
  have hsent := ((hc.balanced.clients k.1).placed k.2).proper.sent
  unfold made
  split <;> omega

/-- A call has no second handler. -/
theorem Correlated.message_iff {h h' : ℕ} (hc : Correlated cfg peer b)
    (hh : b.message h = some k) : b.message h' = some k ↔ h' = h := by
  have hb := hc.balanced
  refine ⟨fun hh' => ?_,fun heq => heq ▸ hh⟩
  have hle : b.handled k ≤ 1 := by
    have honce := hb.once k
    have hle := hc.made_le k
    omega
  exact Finset.card_le_one.mp hle h' (Finset.mem_filter.mpr
    ⟨Finset.mem_range.mpr (hb.message_lt hh'),hh'⟩) h (Finset.mem_filter.mpr
      ⟨Finset.mem_range.mpr (hb.message_lt hh),hh⟩)

theorem Correlated.delivered (hc : Correlated cfg peer b) : Delivered peer b := by
  have hb := hc.balanced
  refine ⟨fun k => (hb.once k).trans (hc.made_le k),fun k hk => hb.awaited k hk,fun i r hv => ?_⟩
  obtain ⟨h,hh,hsent⟩ := hc.shown i r hv
  exact ⟨h,hsent,hc.handlers h _ hh,fun _ => hc.message_iff hh⟩

end

/-- In every run of applications and service, whichever way calls, replies, timeouts and
cancellations overtake each other, calls are served once and images reach their requests. -/
theorem images_delivered (cfg : Service.Config) (peer : Instance → Peer)
    (maxBacklog : Instance → { n : ℤ // 0 < n }) (apparmorEnabled : Bool)
    (maxDownloads maxExtractions : ℤ) (hd : 0 < maxDownloads) (he : 0 < maxExtractions)
    (thumbnailer : Thumbnailer) (es : List Event) :
    (machine cfg peer).Always (Delivered peer) (new maxBacklog
      (.new apparmorEnabled maxDownloads maxExtractions hd he thumbnailer)) es :=
  have hstep : ∀ b e d, Correlated cfg peer b → (machine cfg peer).step b e = some d →
      Correlated cfg peer d := fun _ _ _ => Correlated.step
  Machine.always_of_invariant hstep (fun _ hc => hc.delivered) es
    (.new cfg peer maxBacklog (.new ..) (.new ..))

/-- Two applications that look at the same photo; the service has thumbnails in its cache. -/
def twoViewers : List Event :=
  [.create 0 (.thumbnail "/photo.jpg") ⟨48,48⟩,.create 1 (.thumbnail "/photo.jpg") ⟨48,48⟩,
    .dispatch (1,0) none (.ok ("/photo.jpg",⟨1,0,0,0,0⟩)),.service Service.go,.service Service.go,
    .dispatch (0,0) none (.ok ("/photo.jpg",⟨1,0,0,0,0⟩)),.service Service.go,
    .service (.credentialsReply ":1.1" (.map 1000 "unconfined\x00".toList)),.service Service.go,
    .service Service.go,.service (.check 0 .idle),.service (.checkFinished 0),.wait 1 0,
    .deliver (1,0)]

def viewer : Instance → Peer
  | 0 => ":1.0"
  | _ => ":1.1"

def desk : SessionBus := new (fun _ => ⟨20,by decide⟩) Service.warmed

theorem images_delivered_twoViewers :
    (∃ d, (machine Service.reader viewer).run desk twoViewers = some d ∧
      ((d.clients 1).requests 0).isValid = true) ∧
    (machine Service.reader viewer).Always (Delivered viewer) desk twoViewers := by
  have hrun : ((machine Service.reader viewer).run desk twoViewers).any
      (fun d => ((d.clients 1).requests 0).isValid) = true := by decide +kernel
  obtain ⟨d,hd,hv⟩ := (Option.any_eq_true ..).mp hrun
  exact ⟨⟨d,hd,hv⟩,
    images_delivered Service.reader viewer _ true 2 2 (by decide) (by decide) _ _⟩

/-! ### Coming to rest -/

/-- Events that carry requests on without the help of an application. -/
def Carries : Event → Prop
  | .dispatch .. | .deliver _ | .client _ (.posted _) => True
  | .service e => Service.Carries e
  | _ => False

/-- The service goes on without exceptions and without answers inside of `queueRequest()`. -/
def RunsSmoothly (cfg : Service.Config) (b : SessionBus) : Event → Prop
  | .service e => Service.RunsSmoothly cfg b.service e
  | _ => True

instance (cfg : Service.Config) (b : SessionBus) (e : Event) :
    Decidable (RunsSmoothly cfg b e) := by
  unfold RunsSmoothly
  split <;> infer_instance

/-- Nothing is left to do for anybody. -/
structure AllFinished (b : SessionBus) : Prop where
  service : Service.AllAnswered b.service
  calls : b.calls = []
  replies : b.replies = []
  blocked : ∀ i, b.blocked i = none
  posted : ∀ i, (b.clients i).posted = []
  finished : ∀ i r, ((b.clients i).requests r).live = true →
    ((b.clients i).requests r).finished = true

structure Going (cfg : Service.Config) (peer : Instance → Peer) (b : SessionBus) : Prop where
  correlated : Correlated cfg peer b
  whole : Service.Whole b.service

section

variable {cfg : Service.Config} {peer : Instance → Peer} {b d : SessionBus} {e : Event}

theorem smooth_request (s : Service) (p : Peer) (m : Service.Method) (size : QSize) :
    Service.RunsSmoothly cfg s (.request p m size) :=
  ⟨trivial,trivial⟩

theorem receive_service {k : CallId} {reply : Reply} (hd : b.receive k reply = some d) :
    d.service = b.service := by
  obtain ⟨e,c,-,rfl,-⟩ := receive_brings hd
  rfl

/-- The step of the service that a step of the bus is. -/
def Serves (peer : Instance → Peer) (b : SessionBus) : Event → Service.Event → Prop
  | .dispatch k canonical file,f =>
    f = .request (peer k.1) ((b.wanted k).1.method canonical file) (b.wanted k).2
  | .service e,f => f = e
  | _,_ => False

/-- A step of the bus is a step of the service, or leaves the service alone. -/
theorem step_service (hd : (machine cfg peer).step b e = some d) :
    d.service = b.service ∨
      ∃ f, Serves peer b e f ∧ (Service.machine cfg).step b.service f = some d.service := by
  cases e with
  | create | client =>
    simp only [machine,SessionBus.step,Option.ite_none_right_eq_some,
      Option.map_eq_some_iff] at hd
    obtain ⟨-,c,-,rfl⟩ := hd
    exact .inl rfl
  | wait i r =>
    simp only [machine,SessionBus.step,Option.ite_none_right_eq_some,Option.some.injEq] at hd
    obtain ⟨-,rfl⟩ := hd
    exact .inl rfl
  | dispatch k canonical file =>
    simp only [machine,SessionBus.step,Option.ite_none_right_eq_some,
      Option.map_eq_some_iff] at hd
    obtain ⟨-,t,ht,rfl⟩ := hd
    exact .inr ⟨_,rfl,ht⟩
  | service e =>
    simp only [machine,SessionBus.step,Option.map_eq_some_iff] at hd
    obtain ⟨t,ht,rfl⟩ := hd
    exact .inr ⟨_,rfl,ht⟩
  | deliver k =>
    simp only [machine,SessionBus.step] at hd
    split at hd
    · split_ifs at hd with hk hblocked
      · have hsame := receive_service hd
        exact .inl hsame
      · obtain rfl := Option.some.inj hd
        exact .inl rfl
    · cases hd
  | timeout k message =>
    simp only [machine,SessionBus.step,Option.ite_none_right_eq_some] at hd
    exact .inl (receive_service hd.2)

theorem RunsSmoothly.serves {f : Service.Event} (hsmooth : RunsSmoothly cfg b e)
    (hf : Serves peer b e f) : Service.RunsSmoothly cfg b.service f := by
  cases e with
  | dispatch =>
    obtain rfl := hf
    exact smooth_request ..
  | service =>
    obtain rfl := hf
    exact hsmooth
  | _ => exact hf.elim

theorem Going.step (hg : Going cfg peer b) (hsmooth : RunsSmoothly cfg b e)
    (hd : (machine cfg peer).step b e = some d) : Going cfg peer d := by
  refine ⟨hg.correlated.step hd,?_⟩
  rcases step_service hd with hsame | ⟨f,hf,ht⟩
  · rw [hsame]
    exact hg.whole
  · exact hg.whole.step (hsmooth.serves hf) ht

/-- A reply that is on the bus can be delivered, if its instance does not wait for another. -/
theorem deliverable {k : CallId} {reply : Reply} (hb : Balanced noReply b)
    (hm : (k,reply) ∈ b.replies) (hblocked : ∀ r, b.blocked k.1 = some r → r = k.2) :
    ((machine cfg peer).step b (.deliver k)).isSome = true := by
  cases hfind : b.replies.find? (·.1 = k) with
  | none => exact absurd rfl (of_decide_eq_false (Bool.eq_false_iff.mpr
      (List.find?_eq_none.mp hfind _ hm)))
  | some p =>
    simp only [machine,SessionBus.step,hfind]
    by_cases hk : b.Awaits k
    · rw [if_pos hk]
      unfold receive
      rw [Option.isSome_map]
      rcases hk with hbl | ⟨hnone,hlive,hwatch⟩
      · have hr := hb.blocked _ _ hbl
        change ((library.step (b.clients k.1) (if b.blocked k.1 = some k.2 then _ else _))).isSome = _
        rw [if_pos hbl]
        simp only [library,hr.1,if_true,Option.isSome_some]
      · change ((library.step (b.clients k.1) (if b.blocked k.1 = some k.2 then _ else _))).isSome = _
        rw [if_neg (by rw [hnone]; exact (Option.some_ne_none _).symm)]
        simp only [library,hlive,hwatch,and_self,if_true,Option.isSome_some]
    · have hnone : b.blocked k.1 = none := by
        rw [Option.eq_none_iff_forall_ne_some]
        intro r hr
        exact hk (.inl (hblocked r hr ▸ hr))
      rw [if_neg hk,if_pos hnone]
      rfl

/-- When no event can carry anything on, there is nothing left. -/
theorem Going.allFinished (hg : Going cfg peer b)
    (hrest : (machine cfg peer).AtRest Carries b) : AllFinished b := by
  have hb := hg.correlated.balanced
  have hnone : ∀ {e}, Carries e → ((machine cfg peer).step b e).isSome ≠ true := fun hc => by
    rw [hrest _ hc]
    exact Bool.false_ne_true
  have hservice : Service.AllAnswered b.service := by
    by_contra hgoal
    have hprogress : ∃ e, Service.Carries e ∧ Service.ThrowsNothing b.service e ∧
        ∃ t, (Service.machine cfg).step b.service e = some t := hg.whole.progress hgoal
    obtain ⟨e,hc,-,t,ht⟩ := hprogress
    refine hnone (e:=.service e) hc ?_
    simp only [machine,SessionBus.step,ht,Option.map_some,Option.isSome_some]
  have hcalls : b.calls = [] := by
    refine List.eq_nil_iff_forall_not_mem.mpr fun k hk => hnone (e:=.dispatch k none (.error "")) trivial ?_
    have hlive : b.service.terminated = false := hg.whole.live
    simp only [machine,SessionBus.step,if_pos hk,Service.machine,hlive,Bool.false_eq_true,if_false,
      Service.step,Service.slot,hservice.calls,List.isEmpty_nil,and_self,if_true,Option.map_some,
      Option.isSome_some]
  have hreturning : ∀ k, b.Awaited k → ∃ reply, (k,reply) ∈ b.replies := by
    intro k hk
    have hstage := hb.awaited k hk
    unfold SessionBus.stages working noReply returning at hstage
    rw [hcalls,hservice.requests] at hstage
    have hpos : 0 < b.replies.countP (·.1 = k) := by simpa using hstage.ge
    obtain ⟨⟨k',reply⟩,hm,hkey⟩ := List.countP_pos_iff.mp hpos
    obtain rfl := of_decide_eq_true hkey
    exact ⟨reply,hm⟩
  have hblocked : ∀ i, b.blocked i = none := by
    refine fun i => Option.eq_none_iff_forall_ne_some.mpr fun r hr => ?_
    obtain ⟨reply,hm⟩ := hreturning (i,r) (.inl hr)
    exact hnone (e:=.deliver (i,r)) trivial
      (deliverable hb hm fun r' hr' => Option.some.inj (hr'.symm.trans hr))
  have hreplies : b.replies = [] := by
    refine List.eq_nil_iff_forall_not_mem.mpr fun p hm => ?_
    obtain ⟨k,reply⟩ := p
    refine hnone (e:=.deliver k) trivial (deliverable hb hm fun r hr => ?_)
    rw [hblocked] at hr
    cases hr
  have hposted : ∀ i, (b.clients i).posted = [] := by
    refine fun i => List.eq_nil_iff_forall_not_mem.mpr fun p hp =>
      hnone (e:=.client i (.posted p)) trivial ?_
    have hinner : b.blocked i = none ∧ Inner (.posted p) := ⟨hblocked i,trivial⟩
    simp only [machine,SessionBus.step,if_pos hinner,library,if_pos hp,Option.map_some,
      Option.isSome_some]
  have hnotWaiting : ∀ i r, ¬ WaitsForReply (b.clients i) r := by
    intro i r hr
    obtain ⟨reply,hm⟩ := hreturning (i,r) (.inr ((waitsForReply_iff (hb.clients i).toCore).mp hr))
    rw [hreplies] at hm
    cases hm
  refine ⟨hservice,hcalls,hreplies,hblocked,hposted,fun i r hlive => ?_⟩
  by_contra hfin
  rcases (hb.clients i).located hlive (Bool.eq_false_iff.mpr hfin) with
    ⟨hqueued,-⟩ | ⟨-,hwaits,-⟩ | ⟨-,-,hfake⟩
  · obtain ⟨x,hx | hx⟩ := (hb.clients i).wakeUp hqueued
    · exact hnotWaiting i x hx
    · rw [hposted] at hx
      cases hx
  · exact hnotWaiting i r hwaits
  · have hx := hfake.2
    rw [hposted] at hx
    cases hx

end

/-- Applications and service never get stuck: in a run without exceptions in the service, when
no event can carry a request on by itself, every request of every application is finished, no
application is blocked, and nothing is left in the service or on the bus. -/
theorem rest_allFinished (cfg : Service.Config) (peer : Instance → Peer)
    (maxBacklog : Instance → { n : ℤ // 0 < n }) (apparmorEnabled : Bool)
    (maxDownloads maxExtractions : ℤ) (hd : 0 < maxDownloads) (he : 0 < maxExtractions)
    (thumbnailer : Thumbnailer) (es : List Event)
    (hsmooth : (machine cfg peer).AllSteps (RunsSmoothly cfg) (new maxBacklog
      (.new apparmorEnabled maxDownloads maxExtractions hd he thumbnailer)) es) :
    (machine cfg peer).Always
      (fun b => (machine cfg peer).AtRest Carries b → AllFinished b) (new maxBacklog
        (.new apparmorEnabled maxDownloads maxExtractions hd he thumbnailer)) es :=
  have hstep : ∀ b e d, Going cfg peer b → RunsSmoothly cfg b e →
      (machine cfg peer).step b e = some d → Going cfg peer d :=
    fun _ _ _ hg hsmooth hd => hg.step hsmooth hd
  Machine.always_of_guarded hstep (fun _ hg => hg.allFinished)
    ⟨.new cfg peer maxBacklog (.new ..) (.new ..),.new ..⟩ hsmooth

theorem rest_allFinished_twoViewers :
    (machine Service.reader viewer).Always
      (fun b => (machine Service.reader viewer).AtRest Carries b → AllFinished b) desk twoViewers :=
  rest_allFinished Service.reader viewer _ true 2 2 (by decide) (by decide) _ _ (by decide +kernel)

end SessionBus
end UnityThumbnailer
