import UnityThumbnailer.RequestChains
import UnityThumbnailer.Records

/-! Local files are shown to those who may read them. The credentials are checked in one
callback only; every stage after it is reached from there, whoever else asks for the same
file and whichever cache or query the credentials come from. -/
namespace UnityThumbnailer
namespace Service

/-- These are the credentials of a user who may read the file. -/
def MayRead (cfg : Config) (c : Credentials) (filename : String) : Prop :=
  c.valid = true ∧ c.user = cfg.euid ∧ cfg.apparmorCanRead c.label filename = .ok true

/-- The bus has said who the peer is, and that user may read the file. -/
def Authorized (cfg : Config) (apparmorEnabled : Bool) (past : List Effect) (peer : Peer)
    (filename : String) : Prop :=
  ∃ c, Reported apparmorEnabled past peer c ∧ MayRead cfg c filename

/-- The handler has arrived, and if it is for a local file its peer is authorized. -/
def Admitted (cfg : Config) (apparmorEnabled : Bool) (past : List Effect) (x : ℕ) : Prop :=
  (∃ peer media, .arrived x peer media ∈ past) ∧
    ∀ peer filename st, .arrived x peer (.localFile filename st) ∈ past →
      Authorized cfg apparmorEnabled past peer filename

/-- Nothing is read, fetched or sent for a handler before that. -/
def AccessChecked (cfg : Config) (apparmorEnabled : Bool) (past : List Effect) : Effect → Prop
  | .ranThumbnail x _ | .calledDownload x | .sentThumbnail x _ =>
    Admitted cfg apparmorEnabled past x
  | _ => True

/-- The places past the check. -/
def Place.cleared : Place → Bool
  | .asking | .told _ => false
  | _ => true

/-- What the record of a handler says about its right to be served. -/
def Allowed (cfg : Config) (apparmorEnabled : Bool) (s : Service) (x : ℕ) : Prop :=
  ∀ filename st, (s.handlers x).request.media = .localFile filename st →
    Authorized cfg apparmorEnabled s.log (s.handlers x).peer filename

/-- The handler has arrived with this file and has no reply yet, and the credentials of its peer
that it gets now are those of a user who may read the file. -/
structure PassesCheck (cfg : Config) (apparmorEnabled : Bool) (s : Service) (x : ℕ) (peer : Peer)
    (filename : String) : Prop where
  arrived : ∃ st, .arrived x peer (.localFile filename st) ∈ s.log
  unanswered : ∀ a ∈ s.log, a.answers ≠ some x
  credentials : ∃ u c, Received s u x c ∧ Reported apparmorEnabled s.log peer c ∧
    MayRead cfg c filename

/-- The log names every handler once, as it was created. -/
structure Arrivals (s : Service) : Prop where
  known : ∀ x < s.next,
    .arrived x (s.handlers x).peer (s.handlers x).request.media ∈ s.log
  unique : ∀ x peer media, .arrived x peer media ∈ s.log →
    x < s.next ∧ (s.handlers x).peer = peer ∧ (s.handlers x).request.media = media

/-- Credentials are those that were reported for the peer they are used for, and handlers
past the check are allowed to be there. -/
structure Access (cfg : Config) (apparmorEnabled : Bool) (s : Service) : Prop
    extends Arrivals s where
  enabled : s.credentials.apparmorEnabled = apparmorEnabled
  cached : ∀ peer c, s.credentials.cached peer = some c → Reported apparmorEnabled s.log peer c
  told : ∀ x c, At s x (.told c) → Reported apparmorEnabled s.log (s.handlers x).peer c
  allowed : ∀ x p, At s x p → p.cleared = true → Allowed cfg apparmorEnabled s x
  order : EventSystem.Justified (AccessChecked cfg apparmorEnabled) s.log

section

variable {cfg : Config} {apparmorEnabled : Bool} {e : Event} {s t u : Service} {h x : ℕ}
  {p : Place}

theorem Reported.mono {past future : List Effect} {peer : Peer} {c : Credentials}
    (hc : Reported apparmorEnabled past peer c) (hsub : past ⊆ future) :
    Reported apparmorEnabled future peer c := by
  obtain ⟨reply,hreply,hsaid⟩ := hc
  exact ⟨reply,hsub hreply,hsaid⟩

theorem Authorized.mono {past future : List Effect} {peer : Peer} {filename : String}
    (ha : Authorized cfg apparmorEnabled past peer filename) (hsub : past ⊆ future) :
    Authorized cfg apparmorEnabled future peer filename := by
  obtain ⟨c,hc,hrest⟩ := ha
  exact ⟨c,hc.mono hsub,hrest⟩

/-- The check that a handler's credentials passed. -/
theorem Cleared.authorized {c : Credentials} {filename : String} {st : Stat}
    (hc : Cleared cfg (s.handlers x) c) (hm : (s.handlers x).request.media = .localFile filename st) :
    MayRead cfg c filename := by
  obtain ⟨hvalid,hok⟩ := hc
  simp only [Handler.checkClientCredentials,hm] at hok
  split at hok
  · cases hok
  · rename_i huser
    split at hok
    · cases hok
    · rename_i hread
      exact ⟨hvalid,not_not.mp huser,hread⟩
    · cases hok

/-! ### Who has arrived -/

theorem Arrivals.step (ha : Arrivals s) (ht : Transition cfg s e t) : Arrivals t := by
  obtain ⟨es,hlog,hdue⟩ := ht.log
  have hold : ∀ {a}, a ∈ s.log → a ∈ t.log := fun hm => hlog ▸ List.mem_append_right _ hm
  have hnext : s.next ≤ t.next := by
    rcases ht.next with hn | ⟨hn,-⟩ <;> omega
  have hunique : ∀ x peer media, .arrived x peer media ∈ t.log →
      x < t.next ∧ (t.handlers x).peer = peer ∧ (t.handlers x).request.media = media := by
    intro x peer media hm
    rw [hlog] at hm
    rcases List.mem_append.mp hm with hm | hm
    · obtain ⟨rfl,hn,hp,hmedia⟩ := hdue _ hm
      exact ⟨by omega,hp,hmedia⟩
    · obtain ⟨hx,hp,hmedia⟩ := ha.unique x peer media hm
      have hr := ht.rewritten hx
      exact ⟨by omega,hr.peer.trans hp,hr.media.trans hmedia⟩
  refine ⟨fun x hx => ?_,hunique⟩
  by_cases hxs : x < s.next
  · have hr := ht.rewritten hxs
    rw [hr.peer,hr.media]
    exact hold (ha.known x hxs)
  · rcases ht.next with hn | ⟨hn,peer,l,media,size,details,hnew,hm⟩
    · omega
    · obtain rfl : x = s.next := by omega
      rw [hnew]
      exact hm

/-! ### Where credentials come from -/

@[simp] theorem note_credentials (s : Service) (e : Effect) : (s.note e).credentials = s.credentials := rfl

@[simp] theorem setCalls_credentials (s : Service) (calls : List Call) :
    (s.setCalls calls).credentials = s.credentials := rfl

@[simp] theorem sendError_credentials (s : Service) (h : ℕ) (error : String) :
    (s.sendError h error).credentials = s.credentials := rfl

theorem receivedCredentials_log (s : Service) (peer : Peer) (reply : BusReply) :
    (s.receivedCredentials peer reply).log = .reported peer reply :: s.log := rfl

theorem Transition.cached {peer : Peer} {c : Credentials} (ht : Transition cfg s e t)
    (hc : t.credentials.cached peer = some c) :
    s.credentials.cached peer = some c ∨
      Reported s.credentials.apparmorEnabled t.log peer c := by
  have hget : ∀ q y, (s.credentials.get q y).1.cached peer = some c →
      s.credentials.cached peer = some c := by
    intro q y hq
    rwa [CredentialsCache.get_cached] at hq
  cases ht with
  | @reported q reply callbacks hidle hpending =>
    rcases CredentialsCache.receivedCredentials_cached hc with ⟨rfl,rfl⟩ | hold
    · refine .inr ⟨reply,?_,BusReply.says_iff.mpr rfl⟩
      rw [receivedCredentials_log]
      exact List.mem_cons_self
    · exact .inl hold
  | asked hcalls hmissing => exact .inl (hget _ _ hc)
  | cleared hr =>
    cases hr with
    | replied => exact .inl hc
    | known => exact .inl (hget _ _ hc)
  | denied hr =>
    rw [sendError_credentials] at hc
    cases hr with
    | replied => exact .inl hc
    | known => exact .inl (hget _ _ hc)
  | arrived hidle hmedia =>
    rw [queueRequest_credentials] at hc
    exact .inl hc
  | @pushed o h ref rest hcalls =>
    rw [(Moves.pushBack (s.setCalls rest) h ref).2.1] at hc
    exact .inl hc
  | caught =>
    rw [sendError_credentials,setCalls_credentials,note_credentials,note_credentials,
      setCalls_credentials] at hc
    exact .inl hc
  | _ => exact .inl hc

theorem Transition.enabled (ht : Transition cfg s e t) :
    t.credentials.apparmorEnabled = s.credentials.apparmorEnabled := by
  cases ht with
  | reported => exact CredentialsCache.receivedCredentials_apparmorEnabled ..
  | asked => exact CredentialsCache.get_apparmorEnabled ..
  | cleared hr =>
    cases hr with
    | replied => rfl
    | known => exact CredentialsCache.get_apparmorEnabled ..
  | denied hr =>
    rw [sendError_credentials]
    cases hr with
    | replied => rfl
    | known => exact CredentialsCache.get_apparmorEnabled ..
  | arrived hidle hmedia => rw [queueRequest_credentials]; rfl
  | @pushed o h ref rest hcalls => rw [(Moves.pushBack (s.setCalls rest) h ref).2.1]; rfl
  | caught => rw [sendError_credentials]; rfl
  | _ => rfl

/-! ### Past the check -/

theorem Came.before (hc : Came cfg s e t x p) (hp : p.cleared = true) :
    (∃ q, At s x q ∧ q.cleared = true) ∨
      p = .checking ∧ (∃ o, e = .call o) ∧
        ∃ u c, Received s u x c ∧ Cleared cfg (s.handlers x) c := by
  cases hc with
  | asked | told => cases hp
  | cleared hr hc he => exact .inr ⟨rfl,he,_,_,hr,hc⟩
  | stayed hat => exact .inl ⟨p,hat,hp⟩
  | completed hat => exact .inl (hat.elim (⟨_,·,rfl⟩) (⟨_,·,rfl⟩))
  | checked _ hat | created _ hat => exact .inl ⟨_,hat,rfl⟩
  | scheduled hat | dequeued hat | started hat | released hat | returned hat =>
    exact .inl ⟨_,hat,rfl⟩

theorem Access.received {c : Credentials} (ha : Access cfg apparmorEnabled s)
    (hl : Lifecycle nothing s) (hr : Received s u x c) :
    Reported apparmorEnabled s.log (s.handlers x).peer c ∧ x < s.next := by
  cases hr with
  | replied hcalls =>
    have hat : At s x (.told c) := at_calls hcalls
    exact ⟨ha.told x c hat,(hat.unfinished hl).2.2⟩
  | known hcalls hknown =>
    exact ⟨ha.cached _ c hknown,(hl.before (begins_pos (at_calls hcalls))).2.2⟩

theorem Received.unanswered {c : Credentials} (hr : Received s u x c) (hl : Lifecycle nothing s) :
    ∀ a ∈ s.log, a.answers ≠ some x := by
  have hended : s.ended.count x = 0 := by
    cases hr with
    | replied hcalls => exact ((At.unfinished (p:=.told c) (at_calls hcalls) hl)).2.1
    | known hcalls => exact (hl.before (begins_pos (at_calls hcalls))).2.1
  intro a ha hx
  have hanswered : x ∈ s.answered := List.mem_filterMap.mpr ⟨a,ha,hx⟩
  have hpos := List.count_pos_iff.mpr hanswered
  have heq := hl.answers x
  omega

/-- The check that a handler's credentials pass for a local file. -/
theorem Access.passesCheck {c : Credentials} {filename : String} {st : Stat}
    (ha : Access cfg apparmorEnabled s) (hl : Lifecycle nothing s) (hr : Received s u x c)
    (hc : Cleared cfg (s.handlers x) c) (hm : (s.handlers x).request.media = .localFile filename st) :
    PassesCheck cfg apparmorEnabled s x (s.handlers x).peer filename := by
  obtain ⟨hreported,hx⟩ := ha.received hl hr
  have harrived := ha.known x hx
  rw [hm] at harrived
  exact ⟨⟨st,harrived⟩,hr.unanswered hl,u,c,hr,hreported,hc.authorized hm⟩

/-- Whom a thumbnail was sent to has arrived. -/
theorem Access.sent_lt {ba : Option ImageFile} (ha : Access cfg apparmorEnabled s)
    (hsent : .sentThumbnail x ba ∈ s.log) : x < s.next := by
  obtain ⟨future,past,hlog⟩ := List.append_of_mem hsent
  have horder := ha.order
  rw [hlog] at horder
  obtain ⟨⟨peer,media,harrived⟩,-⟩ := horder.split
  refine (ha.unique x peer media ?_).1
  rw [hlog]
  exact List.mem_append_right _ (List.mem_cons_of_mem _ harrived)

/-- An allowed handler that has arrived is admitted, at any time of the step. -/
theorem Arrivals.admitted {past : List Effect} (ha : Arrivals s) (ht : Transition cfg s e t)
    (hx : x < s.next) (hallowed : Allowed cfg apparmorEnabled s x) (hsub : s.log ⊆ past)
    (hsub' : past ⊆ t.log) : Admitted cfg apparmorEnabled past x := by
  refine ⟨⟨_,_,hsub (ha.known x hx)⟩,fun peer filename st hm => ?_⟩
  obtain ⟨-,hp,hmedia⟩ := (ha.step ht).unique _ _ _ (hsub' hm)
  have hr := ht.rewritten hx
  rw [← hp,hr.peer]
  exact (hallowed filename st (hr.media.symm.trans hmedia)).mono hsub

theorem Access.due {past : List Effect} {a : Effect} (ha : Access cfg apparmorEnabled s)
    (hl : Lifecycle nothing s) (ht : Transition cfg s e t) (hd : Due s e t a)
    (hsub : s.log ⊆ past) (hsub' : past ⊆ t.log) : AccessChecked cfg apparmorEnabled past a := by
  have hat : ∀ {x} q, q.cleared = true → At s x q → Admitted cfg apparmorEnabled past x :=
    fun q hp hq =>
    ha.admitted ht (hq.unfinished hl).2.2 (ha.allowed _ _ hq hp) hsub hsub'
  cases a with
  | ranThumbnail x status => exact hd.elim (hat _ rfl) (hat _ rfl)
  | calledDownload x => exact hat .starting rfl hd
  | sentThumbnail x ba =>
    obtain ⟨result,hd⟩ := hd
    exact hd.elim (hat _ rfl) (hat _ rfl)
  | _ => trivial

theorem Access.step (ha : Access cfg apparmorEnabled s) (hs : Sound s)
    (ht : Transition cfg s e t) : Access cfg apparmorEnabled t := by
  obtain ⟨es,hlog,hdue⟩ := ht.log
  have hsub : s.log ⊆ t.log := fun a hm => hlog ▸ List.mem_append_right _ hm
  have hl := hs.lifecycle
  have hkeeps : ∀ x < s.next, Allowed cfg apparmorEnabled s x → Allowed cfg apparmorEnabled t x := by
    intro x hx hallowed filename st hm
    have hr := ht.rewritten hx
    rw [hr.peer]
    exact (hallowed filename st (hr.media.symm.trans hm)).mono hsub
  refine ⟨ha.toArrivals.step ht,ht.enabled.trans ha.enabled,fun peer c hc => ?_,
    fun x c hat => ?_,fun x p hat hp => ?_,?_⟩
  · rcases ht.cached hc with hold | hreported
    · exact (ha.cached peer c hold).mono hsub
    · exact ha.enabled ▸ hreported
  · cases ht.place hl hat with
    | stayed hold =>
      rw [(ht.rewritten (hold.unfinished hl).2.2).peer]
      exact (ha.told x c hold).mono hsub
    | told hold hreported =>
      rw [(ht.rewritten (hold.unfinished hl).2.2).peer]
      exact ha.enabled ▸ hreported
    | scheduled hold hs hp => rcases hp with hp | hp <;> cases hp
  · rcases (ht.place hl hat).before hp with ⟨q,hq,hqp⟩ | ⟨-,-,u,c,hr,hc⟩
    · exact hkeeps x (hq.unfinished hl).2.2 (ha.allowed x q hq hqp)
    · obtain ⟨hreported,hx⟩ := ha.received hl hr
      refine hkeeps x hx fun filename st hm => ?_
      exact ⟨c,hreported,hc.authorized hm⟩
  · rw [hlog]
    refine ha.order.append fun a hm new hnew => ha.due hl ht (hdue a hm) ?_ ?_
    · exact List.subset_append_right ..
    · rw [hlog]
      exact List.append_subset.mpr ⟨List.Subset.trans hnew.subset (List.subset_append_left ..),
        List.subset_append_right ..⟩

theorem Access.self (ha : Access cfg apparmorEnabled s) :
    Access cfg s.credentials.apparmorEnabled s :=
  ha.enabled.symm ▸ ha

theorem access_step (hs : Sound s ∧ Access cfg apparmorEnabled s)
    (ht : (machine cfg).step s e = some t) : Sound t ∧ Access cfg apparmorEnabled t :=
  ⟨hs.1.step ht,hs.2.step hs.1 (hs.1.transition_of_step ht)⟩

end

theorem Access.new (cfg : Config) (apparmorEnabled : Bool) (maxDownloads maxExtractions : ℤ)
    (hd : 0 < maxDownloads) (he : 0 < maxExtractions) (thumbnailer : Thumbnailer) :
    Access cfg apparmorEnabled
      (new apparmorEnabled maxDownloads maxExtractions hd he thumbnailer) := by
  refine ⟨⟨fun x hx => ?_,fun x peer media hm => ?_⟩,rfl,fun peer c hc => ?_,
    fun x c hat => absurd hat.work_pos (lt_irrefl 0),
    fun x p hat => absurd hat.work_pos (lt_irrefl 0),trivial⟩
  · exact absurd hx (Nat.not_lt_zero x)
  · cases hm
  · cases hc

/-- In every run, `thumbnail()` and `download()` run for a local file, and its thumbnail is
sent, only after the bus has said that its peer has the service's own user id and a label that
AppArmor lets read the file. -/
theorem localFiles_accessChecked (cfg : Config) (apparmorEnabled : Bool)
    (maxDownloads maxExtractions : ℤ) (hd : 0 < maxDownloads) (he : 0 < maxExtractions)
    (thumbnailer : Thumbnailer) (es : List Event) :
    (machine cfg).Always (fun s => EventSystem.Justified (AccessChecked cfg apparmorEnabled) s.log)
      (new apparmorEnabled maxDownloads maxExtractions hd he thumbnailer) es :=
  have hstep : ∀ s e t, Sound s ∧ Access cfg apparmorEnabled s →
      (machine cfg).step s e = some t → Sound t ∧ Access cfg apparmorEnabled t :=
    fun _ _ _ => access_step
  EventSystem.Machine.always_of_invariant hstep (fun _ hs => hs.2.order) es
    ⟨.new apparmorEnabled maxDownloads maxExtractions hd he thumbnailer,
      .new cfg apparmorEnabled maxDownloads maxExtractions hd he thumbnailer⟩

def square : ImageFile := ⟨.jpeg,⟨48,48,false,by decide,by decide⟩,none⟩

/-- All files have a thumbnail in the cache, and unconfined peers may read them. -/
def warmed : Service :=
  started.setThumbnailer { Thumbnailer.fresh with thumbnailCache := fun _ => some square }

def reader : Config := ⟨1000,fun label _ => .ok (label = "unconfined".toList)⟩

def photo (peer : Peer) : Event :=
  .request peer (.getThumbnail "/photo.jpg" (.ok ("/photo.jpg",⟨1,0,0,0,0⟩))) ⟨48,48⟩

theorem localFiles_accessChecked_photo :
    ((machine reader).run warmed [photo ":1.1",go,go,
        .credentialsReply ":1.1" (.map 1000 "unconfined\x00".toList),go,go,.check 0 .idle,
        .checkFinished 0]).isSome = true ∧
      (machine reader).Always
        (fun s => EventSystem.Justified (AccessChecked reader true) s.log) warmed
        [photo ":1.1",go,go,.credentialsReply ":1.1" (.map 1000 "unconfined\x00".toList),go,go,
          .check 0 .idle,.checkFinished 0] :=
  ⟨by decide,localFiles_accessChecked reader true 2 2 (by decide) (by decide) _ _⟩

end Service
end UnityThumbnailer
