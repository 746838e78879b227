import UnityThumbnailer.Outcomes

/-! The image providers of QML. A response belongs to a request of the client library, or to none
if the ID was not valid. QML takes a texture from a response that has finished without an error,
so such a response has to have one. -/
namespace UnityThumbnailer

open EventSystem SessionBus Client

structure ThumbnailerImageResponse where
  request : Option CallId
  errorMessage : String
  /-- The call of `finished()` that the constructor queues. -/
  posted : Bool
  /-- How often `finished` was signalled. -/
  finished : ℕ

namespace ThumbnailerImageResponse

def ofRequest (request : CallId) : ThumbnailerImageResponse := ⟨some request,"",false,0⟩

def ofError (errorMessage : String) : ThumbnailerImageResponse := ⟨none,errorMessage,true,0⟩

def emitFinished (y : ThumbnailerImageResponse) : ThumbnailerImageResponse :=
  { y with finished := y.finished+1 }

def requestFinished (y : ThumbnailerImageResponse) (q : RequestImpl) : ThumbnailerImageResponse :=
  (if !q.isValid then { y with errorMessage := q.errorMessage } else y).emitFinished

def errorString (y : ThumbnailerImageResponse) : String := y.errorMessage

/-- The image of the texture; none is the null pointer. -/
def textureFactory (y : ThumbnailerImageResponse) (b : SessionBus) : Option ImageFile :=
  match y.request with
  | some (i,r) =>
    if ((b.clients i).requests r).isValid then ((b.clients i).requests r).image else none
  | none => none

/-- The slot runs when the request signals `finished`. -/
def hear (b d : SessionBus) (y : ThumbnailerImageResponse) : ThumbnailerImageResponse :=
  match y.request with
  | some (i,r) =>
    if ((b.clients i).requests r).emitted < ((d.clients i).requests r).emitted then
      y.requestFinished ((d.clients i).requests r)
    else y
  | none => y

end ThumbnailerImageResponse

/-- What a provider is asked for: an ID with the query items that it has, or with its path. -/
inductive ImageId
  | albumArt (id : String) (artist album : Option String)
  | artistArt (id : String) (artist album : Option String)
  | thumbnail (path : String)

/-- `requestImageResponse()`: the request that is made, or the error message. -/
def ImageId.wanted : ImageId → Except String Wanted
  | .albumArt _ (some artist) (some album) => .ok (.albumArt artist album)
  | .albumArt id _ _ => .error ("Invalid albumart ID: " ++ id)
  | .artistArt _ (some artist) (some album) => .ok (.artistArt artist album)
  | .artistArt id _ _ => .error ("Invalid artistart ID: " ++ id)
  | .thumbnail path => .ok (.thumbnail path)

/-- Applications and service, some of which show images with QML. -/
structure QmlPlugin where
  bus : SessionBus
  responses : ℕ → Option ThumbnailerImageResponse
  next : ℕ

/-! ### What a request signals -/

namespace Client

theorem settled_emits (q : RequestImpl) (reply : Reply) :
    (settled reply q).live = q.live ∧ (settled reply q).finished = true ∧
      (settled reply q).emitted = q.emitted+1 := by
  unfold settled concluded
  split
  · exact ⟨rfl,rfl,rfl⟩
  · cases reply <;> exact ⟨rfl,rfl,rfl⟩

/-- A request that is kept signals nothing in a step, or that it has finished. -/
theorem Rewritten.emits {e : Client.Event} {r : RequestId} {q q' : RequestImpl}
    (h : Rewritten e r q q') (hlive : q.live = true) (hkept : e ≠ .destroy r) : q'.live = true ∧
      (q'.emitted = q.emitted ∨ q'.emitted = q.emitted+1 ∧ q'.finished = true) := by
  cases h with
  | same | sent | marked | pumped | returned => exact ⟨hlive,.inl rfl⟩
  | rejected hblank | created hblank | createdSent hblank =>
    rw [hblank] at hlive
    cases hlive
  | answered | waited =>
    obtain ⟨hlive',hfinished,hemitted⟩ := settled_emits _ _
    exact ⟨hlive'.trans hlive,.inr ⟨hemitted,hfinished⟩⟩
  | withdrawn => exact ⟨hlive,.inr ⟨rfl,rfl⟩⟩
  | announced hrejected => exact ⟨hlive,.inr ⟨rfl,hrejected.2.1⟩⟩
  | destroyed he => exact absurd he hkept

end Client

namespace ThumbnailerImageResponse

/-- A response has heard what its request has signalled. -/
structure Heard (y : ThumbnailerImageResponse) (q : RequestImpl) : Prop where
  live : q.live = true
  posted : y.posted = false
  finished : y.finished = q.emitted
  before : q.emitted = 0 → y.errorMessage = ""
  after : 0 < q.emitted → q.finished = true ∧ y.errorMessage = q.errorMessage

theorem Heard.kept {y : ThumbnailerImageResponse} {q q' : RequestImpl} (h : Heard y q)
    (hlive : q'.live = true) (hemitted : q'.emitted = q.emitted)
    (hfinal : q.finished = true → answers q' = answers q) : Heard y q' := by
  refine ⟨hlive,h.posted,h.finished.trans hemitted.symm,hemitted ▸ h.before,fun hpos => ?_⟩
  obtain ⟨hfinished,hmessage⟩ := h.after (hemitted ▸ hpos)
  have hsame := hfinal hfinished
  exact ⟨(congrArg Prod.fst hsame).trans hfinished,
    hmessage.trans (congrArg (·.2.2.2) hsame).symm⟩

theorem Heard.signalled {y : ThumbnailerImageResponse} {q q' : RequestImpl} (h : Heard y q)
    (hlive : q'.live = true) (hemitted : q'.emitted = q.emitted+1) (hone : q'.emitted ≤ 1)
    (hfinished : q'.finished = true) (htold : Told q') : Heard (y.requestFinished q') q' := by
  have hmessage := h.before (by omega)
  unfold requestFinished
  rcases htold with hopen | ⟨-,⟨hvalid,herror⟩ | ⟨hinvalid,-,-⟩⟩
  · exact absurd (hopen.1.symm.trans hfinished) Bool.false_ne_true
  · rw [if_neg (by simp [hvalid])]
    exact ⟨hlive,h.posted,by rw [hemitted,← h.finished]; rfl,fun hzero => absurd hzero (by omega),
      fun _ => ⟨hfinished,hmessage.trans herror.symm⟩⟩
  · rw [if_pos (by simp [hinvalid])]
    exact ⟨hlive,h.posted,by rw [hemitted,← h.finished]; rfl,fun hzero => absurd hzero (by omega),
      fun _ => ⟨hfinished,rfl⟩⟩

/-- A response is in step with its request, or it reports an error by itself. -/
def Owned (b : SessionBus) (y : ThumbnailerImageResponse) : Prop :=
  match y.request with
  | some (i,r) => Heard y ((b.clients i).requests r)
  | none => y.errorMessage ≠ "" ∧
      (y.posted = true ∧ y.finished = 0 ∨ y.posted = false ∧ y.finished = 1)

theorem owned_some {b : SessionBus} {y : ThumbnailerImageResponse} {i : Instance} {r : RequestId}
    (h : y.request = some (i,r)) : y.Owned b ↔ Heard y ((b.clients i).requests r) := by
  unfold Owned
  rw [h]

theorem owned_none {b : SessionBus} {y : ThumbnailerImageResponse} (h : y.request = none) :
    y.Owned b ↔ y.errorMessage ≠ "" ∧
      (y.posted = true ∧ y.finished = 0 ∨ y.posted = false ∧ y.finished = 1) := by
  unfold Owned
  rw [h]

theorem hear_request (b d : SessionBus) (y : ThumbnailerImageResponse) :
    (y.hear b d).request = y.request := by
  unfold hear
  split
  · split_ifs
    · unfold requestFinished
      split_ifs <;> rfl
    · rfl
  · rfl

section

variable {cfg : Service.Config} {peer : Instance → Peer} {b d : SessionBus}
  {e : SessionBus.Event} {y : ThumbnailerImageResponse}

/-- A step of the bus leaves a response in step, if it does not destroy its request. -/
theorem Owned.hear (hy : Owned b y) (hb : Telling cfg peer b)
    (hd : (SessionBus.machine cfg peer).step b e = some d)
    (hkept : ∀ i r, y.request = some (i,r) → e ≠ .client i (.destroy r)) :
    Owned d (y.hear b d) := by
  cases hrequest : y.request with
  | none =>
    have hsame : y.hear b d = y := by simp [ThumbnailerImageResponse.hear,hrequest]
    rw [hsame,owned_none hrequest]
    exact (owned_none hrequest).mp hy
  | some k =>
    obtain ⟨i,r⟩ := k
    rw [owned_some ((y.hear_request b d).trans hrequest)]
    rw [owned_some hrequest] at hy
    obtain ⟨f,hf,hdestroy⟩ := step_requests hb.correlated.balanced hd i r
    have hdt := hb.step hd
    have hone := ((hdt.correlated.balanced.clients i).placed r).proper.emitted
    obtain ⟨hlive,hquiet | ⟨hemitted,hfinished⟩⟩ :=
      hf.emits hy.live fun hcon => hkept i r hrequest (hdestroy hcon)
    · have hsame : y.hear b d = y := by
        simp only [ThumbnailerImageResponse.hear,hrequest]
        exact if_neg (by omega)
      rw [hsame]
      exact hy.kept hlive hquiet hf.final
    · have hheard : y.hear b d = y.requestFinished ((d.clients i).requests r) := by
        simp only [ThumbnailerImageResponse.hear,hrequest]
        exact if_pos (by omega)
      rw [hheard]
      exact hy.signalled hlive hemitted hone hfinished (hdt.told i r)

end

/-- A response signals once, and has a texture then exactly if it has no error. -/
def Complete (b : SessionBus) (y : ThumbnailerImageResponse) : Prop :=
  y.finished ≤ 1 ∧ (y.finished = 1 → (y.errorString = "" ↔ (y.textureFactory b).isSome = true))

theorem Owned.complete {cfg : Service.Config} {peer : Instance → Peer} {b : SessionBus}
    {y : ThumbnailerImageResponse} (hy : Owned b y) (hb : Telling cfg peer b) : Complete b y := by
  cases hrequest : y.request with
  | none =>
    rw [owned_none hrequest] at hy
    obtain ⟨herror,hfinished⟩ := hy
    have htexture : y.textureFactory b = none := by simp [textureFactory,hrequest]
    refine ⟨by omega,fun _ => ?_⟩
    rw [htexture]
    exact ⟨fun h => absurd h herror,fun h => Bool.noConfusion h⟩
  | some k =>
    obtain ⟨i,r⟩ := k
    rw [owned_some hrequest] at hy
    have hone := ((hb.correlated.balanced.clients i).placed r).proper.emitted
    refine ⟨hy.finished.trans_le hone,fun hfinished => ?_⟩
    obtain ⟨hdone,hmessage⟩ := hy.after (by rw [← hy.finished,hfinished]; exact Nat.one_pos)
    have htexture : y.textureFactory b = if ((b.clients i).requests r).isValid then
        ((b.clients i).requests r).image else none := by simp [textureFactory,hrequest]
    rw [htexture]
    change y.errorMessage = "" ↔ _
    rw [hmessage]
    rcases hb.conclusive i r with hopen | ⟨-,⟨hvalid,himage,herror⟩ | ⟨hinvalid,himage,herror⟩⟩
    · exact absurd (hopen.1.symm.trans hdone) Bool.false_ne_true
    · rw [if_pos hvalid]
      exact ⟨fun _ => Option.isSome_iff_ne_none.mpr himage,fun _ => herror⟩
    · rw [if_neg (by simp [hinvalid])]
      exact ⟨fun h => absurd h herror,fun h => Bool.noConfusion h⟩

end ThumbnailerImageResponse

namespace QmlPlugin

def new (bus : SessionBus) : QmlPlugin := ⟨bus,fun _ => none,0⟩

/-- The bus has made a step, and the slots have run. -/
def moved (p : QmlPlugin) (d : SessionBus) : QmlPlugin :=
  { p with bus := d, responses := fun x => (p.responses x).map (·.hear p.bus d) }

def add (p : QmlPlugin) (y : ThumbnailerImageResponse) : QmlPlugin :=
  { p with responses := Function.update p.responses p.next (some y), next := p.next+1 }

def set (p : QmlPlugin) (x : ℕ) (y : Option ThumbnailerImageResponse) : QmlPlugin :=
  { p with responses := Function.update p.responses x y }

/-- A response keeps its request from being destroyed. -/
def Holds (p : QmlPlugin) (k : CallId) : Prop :=
  ∃ x < p.next, (p.responses x).bind (·.request) = some k

instance (p : QmlPlugin) (k : CallId) : Decidable (p.Holds k) :=
  inferInstanceAs (Decidable (∃ x < p.next, (p.responses x).bind (·.request) = some k))

/-- What QML does with a response, the queued signal of a response without a request, and
whatever else happens on the bus. -/
inductive Event
  | requestImageResponse (i : Instance) (id : ImageId) (requestedSize : QSize)
  | posted (x : ℕ)
  | cancel (x : ℕ)
  | delete (x : ℕ)
  | bus (e : SessionBus.Event)

section

variable (cfg : Service.Config) (peer : Instance → Peer)

def moves (p : QmlPlugin) (e : SessionBus.Event) : Option QmlPlugin :=
  ((SessionBus.machine cfg peer).step p.bus e).map p.moved

/-- `cancel()` -/
def cancelRequest (p : QmlPlugin) (k : CallId) : Option QmlPlugin :=
  let q := (p.bus.clients k.1).requests k.2
  if q.finished || q.cancelled then some p else p.moves cfg peer (.client k.1 (.cancel k.2))

def step (p : QmlPlugin) : Event → Option QmlPlugin
  | .requestImageResponse i id requestedSize =>
    match id.wanted with
    | .ok w => (p.moves cfg peer (.create i w requestedSize)).map fun t =>
      t.add (.ofRequest (i,(p.bus.clients i).next))
    | .error message => some (p.add (.ofError message))
  | .posted x => (p.responses x).bind fun y =>
    if y.posted then some (p.set x (some { y with posted := false }.emitFinished)) else none
  | .cancel x => (p.responses x).bind fun y =>
    match y.request with
    | some k => p.cancelRequest cfg peer k
    | none => some p
  | .delete x => (p.responses x).bind fun y =>
    -- the destructor cancels the request before it lets it go
    match y.request with
    | some k => (p.cancelRequest cfg peer k).bind fun t =>
      (t.set x none).moves cfg peer (.client k.1 (.destroy k.2))
    | none => some (p.set x none)
  | .bus e =>
    match e with
    | .client i (.destroy r) => if p.Holds (i,r) then none else p.moves cfg peer e
    | _ => p.moves cfg peer e

def machine : Machine QmlPlugin Event where
  step := step cfg peer

end

/-! ### Every run -/

/-- All responses are in step with their requests, and no two share one. -/
structure Attended (cfg : Service.Config) (peer : Instance → Peer) (p : QmlPlugin) : Prop where
  telling : Telling cfg peer p.bus
  owned : ∀ x y, p.responses x = some y → y.Owned p.bus
  fresh : ∀ x, p.next ≤ x → p.responses x = none
  distinct : ∀ x x' y y' k, p.responses x = some y → p.responses x' = some y' →
    y.request = some k → y'.request = some k → x = x'

section

variable {cfg : Service.Config} {peer : Instance → Peer} {p t : QmlPlugin}

theorem moved_responses {d : SessionBus} {x : ℕ} {y : ThumbnailerImageResponse}
    (hy : (p.moved d).responses x = some y) :
    ∃ y', p.responses x = some y' ∧ y = y'.hear p.bus d ∧ y.request = y'.request := by
  obtain ⟨y',hy',rfl⟩ := Option.map_eq_some_iff.mp hy
  exact ⟨y',hy',rfl,y'.hear_request ..⟩

theorem Attended.moves {e : SessionBus.Event} (h : Attended cfg peer p)
    (ht : p.moves cfg peer e = some t) (hkept : ∀ x y i r, p.responses x = some y →
      y.request = some (i,r) → e ≠ .client i (.destroy r)) : Attended cfg peer t := by
  obtain ⟨d,hd,rfl⟩ := Option.map_eq_some_iff.mp ht
  refine ⟨h.telling.step hd,fun x y hy => ?_,fun x hx => ?_,fun x x' y y' k hy hy' hk hk' => ?_⟩
  · obtain ⟨z,hz,rfl,-⟩ := moved_responses hy
    exact (h.owned x z hz).hear h.telling hd fun i r => hkept x z i r hz
  · exact congrArg (Option.map _) (h.fresh x hx)
  · obtain ⟨z,hz,-,hrequest⟩ := moved_responses hy
    obtain ⟨z',hz',-,hrequest'⟩ := moved_responses hy'
    exact h.distinct x x' z z' k hz hz' (hrequest.symm.trans hk) (hrequest'.symm.trans hk')

/-- Other responses are as before. -/
theorem set_cases {x x' : ℕ} {y : Option ThumbnailerImageResponse} {z : ThumbnailerImageResponse}
    (hz : (p.set x y).responses x' = some z) :
    x' = x ∧ y = some z ∨ x' ≠ x ∧ p.responses x' = some z := by
  change Function.update p.responses x y x' = some z at hz
  by_cases hx : x' = x
  · subst hx
    rw [Function.update_self] at hz
    exact .inl ⟨rfl,hz⟩
  · exact .inr ⟨hx,(Function.update_of_ne hx ..).symm.trans hz⟩

/-- A response is replaced, without another request, or deleted. -/
theorem Attended.set {x : ℕ} {y : Option ThumbnailerImageResponse} (h : Attended cfg peer p)
    (hx : x < p.next) (hy : ∀ z, y = some z → z.Owned p.bus ∧ z.request = none) :
    Attended cfg peer (p.set x y) := by
  refine ⟨h.telling,fun x' z hz => ?_,fun x' hx' => ?_,fun x' x'' z z' k hz hz' hk hk' => ?_⟩
  · rcases set_cases hz with ⟨-,hnew⟩ | ⟨-,hold⟩
    · exact (hy z hnew).1
    · exact h.owned x' z hold
  · have hne : x' ≠ x := by
      have hle : p.next ≤ x' := hx'
      omega
    exact (Function.update_of_ne hne ..).trans (h.fresh x' hx')
  · have hother : ∀ {a : ℕ} {u : ThumbnailerImageResponse}, (p.set x y).responses a = some u →
        u.request = some k → p.responses a = some u := by
      intro a u hu hrequest
      rcases set_cases hu with ⟨-,hnew⟩ | ⟨-,hold⟩
      · rw [(hy u hnew).2] at hrequest
        cases hrequest
      · exact hold
    exact h.distinct x' x'' z z' k (hother hz hk) (hother hz' hk') hk hk'

theorem add_cases {x : ℕ} {y z : ThumbnailerImageResponse}
    (hz : (p.add y).responses x = some z) :
    x = p.next ∧ y = z ∨ x ≠ p.next ∧ p.responses x = some z := by
  change Function.update p.responses p.next (some y) x = some z at hz
  by_cases hx : x = p.next
  · subst hx
    rw [Function.update_self] at hz
    exact .inl ⟨rfl,Option.some.inj hz⟩
  · exact .inr ⟨hx,(Function.update_of_ne hx ..).symm.trans hz⟩

/-- A response is added for a request that no other response is for. -/
theorem Attended.add {y : ThumbnailerImageResponse} (h : Attended cfg peer p)
    (hy : y.Owned p.bus) (hnew : ∀ x z k, p.responses x = some z → z.request = some k →
      y.request ≠ some k) : Attended cfg peer (p.add y) := by
  refine ⟨h.telling,fun x z hz => ?_,fun x hx => ?_,fun x x' z z' k hz hz' hk hk' => ?_⟩
  · rcases add_cases hz with ⟨-,rfl⟩ | ⟨-,hold⟩
    · exact hy
    · exact h.owned x z hold
  · have hne : x ≠ p.next := by
      have hle : p.next+1 ≤ x := hx
      omega
    refine (Function.update_of_ne hne ..).trans (h.fresh x ?_)
    exact (Nat.le_succ _).trans hx
  · rcases add_cases hz with ⟨rfl,rfl⟩ | ⟨-,hold⟩
    · rcases add_cases hz' with ⟨rfl,-⟩ | ⟨-,hold'⟩
      · rfl
      · exact absurd hk (hnew x' z' k hold' hk')
    · rcases add_cases hz' with ⟨rfl,rfl⟩ | ⟨-,hold'⟩
      · exact absurd hk' (hnew x z k hold hk)
      · exact h.distinct x x' z z' k hold hold' hk hk'

theorem Attended.lt_next {x : ℕ} {y : ThumbnailerImageResponse} (h : Attended cfg peer p)
    (hy : p.responses x = some y) : x < p.next := by
  by_contra hcon
  rw [h.fresh x (not_lt.mp hcon)] at hy
  cases hy

theorem Attended.cancelRequest {k : CallId} (h : Attended cfg peer p)
    (ht : p.cancelRequest cfg peer k = some t) : Attended cfg peer t ∧
      ∀ x y, p.responses x = some y → ∃ z, t.responses x = some z ∧ z.request = y.request := by
  simp only [QmlPlugin.cancelRequest] at ht
  split_ifs at ht
  · obtain rfl := Option.some.inj ht
    exact ⟨h,fun x y hy => ⟨y,hy,rfl⟩⟩
  · refine ⟨h.moves ht fun _ _ _ _ _ _ => by nofun,fun x y hy => ?_⟩
    obtain ⟨d,-,rfl⟩ := Option.map_eq_some_iff.mp ht
    exact ⟨_,congrArg (Option.map _) hy,y.hear_request ..⟩

/-- A new request has signalled nothing. -/
theorem create_heard {b d : SessionBus} {i : Instance} {w : Wanted} {size : QSize}
    (hd : (SessionBus.machine cfg peer).step b (.create i w size) = some d) :
    (ThumbnailerImageResponse.ofRequest (i,(b.clients i).next)).Owned d := by
  simp only [SessionBus.machine,SessionBus.step,Option.ite_none_right_eq_some,
    Option.map_eq_some_iff] at hd
  obtain ⟨-,c,hc,rfl⟩ := hd
  obtain rfl := Option.some.inj hc
  change ThumbnailerImageResponse.Heard _ ((Function.update b.clients i _ i).requests _)
  rw [Function.update_self]
  have hheard : ∀ q : RequestImpl, q.live = true → q.emitted = 0 →
      ThumbnailerImageResponse.Heard (.ofRequest (i,(b.clients i).next)) q :=
    fun q hlive hzero => ⟨hlive,rfl,hzero.symm,fun _ => rfl,fun hpos => absurd hzero hpos.ne'⟩
  cases hs : size.isValid with
  | false =>
    rw [create_invalid _ _ hs,post_requests,registered_self]
    exact hheard _ rfl rfl
  | true =>
    by_cases hlim : (b.clients i).limiter.running < (b.clients i).limiter.concurrency
    · rw [create_sent _ _ hs hlim,registered_self]
      exact hheard _ rfl rfl
    · rw [create_queued _ _ hs hlim,registered_self]
      exact hheard _ rfl rfl

theorem Attended.request {i : Instance} {w : Wanted} {size : QSize} (h : Attended cfg peer p)
    (ht : p.moves cfg peer (.create i w size) = some t) :
    Attended cfg peer (t.add (.ofRequest (i,(p.bus.clients i).next))) := by
  have hattended := h.moves ht fun _ _ _ _ _ _ => by nofun
  obtain ⟨d,hd,rfl⟩ := Option.map_eq_some_iff.mp ht
  refine hattended.add (create_heard hd) fun x z k hz hk hsame => ?_
  obtain ⟨y,hy,-,hrequest⟩ := moved_responses hz
  obtain rfl := Option.some.inj hsame
  have howned := h.owned x y hy
  rw [ThumbnailerImageResponse.owned_some (hrequest.symm.trans hk)] at howned
  exact absurd ((h.telling.correlated.balanced.clients i).live_lt howned.live) (lt_irrefl _)

theorem Attended.step {e : Event} (h : Attended cfg peer p)
    (ht : (machine cfg peer).step p e = some t) : Attended cfg peer t := by
  cases e with
  | requestImageResponse i id requestedSize =>
    simp only [machine,QmlPlugin.step] at ht
    split at ht
    · obtain ⟨u,hu,rfl⟩ := Option.map_eq_some_iff.mp ht
      exact h.request hu
    · rename_i message hmessage
      obtain rfl := Option.some.inj ht
      refine h.add ⟨?_,.inl ⟨rfl,rfl⟩⟩ fun _ _ _ _ _ hsame => by cases hsame
      cases id with
      | albumArt id artist album =>
        cases artist <;> cases album <;> cases hmessage <;> exact append_ne_empty (by decide)
      | artistArt id artist album =>
        cases artist <;> cases album <;> cases hmessage <;> exact append_ne_empty (by decide)
      | thumbnail path => cases hmessage
  | posted x =>
    obtain ⟨y,hy,ht⟩ := Option.bind_eq_some_iff.mp ht
    simp only [Option.ite_none_right_eq_some,Option.some.injEq] at ht
    obtain ⟨hposted,rfl⟩ := ht
    have howned := h.owned x y hy
    refine h.set (h.lt_next hy) fun z hz => ?_
    obtain rfl := Option.some.inj hz
    cases hrequest : y.request with
    | some k =>
      obtain ⟨i,r⟩ := k
      rw [ThumbnailerImageResponse.owned_some hrequest] at howned
      exact absurd (howned.posted.symm.trans hposted) Bool.false_ne_true
    | none =>
      rw [ThumbnailerImageResponse.owned_none hrequest] at howned
      obtain ⟨herror,⟨-,hzero⟩ | ⟨hquiet,-⟩⟩ := howned
      · exact ⟨(ThumbnailerImageResponse.owned_none rfl).mpr
          ⟨herror,.inr ⟨rfl,congrArg (·+1) hzero⟩⟩,rfl⟩
      · exact absurd (hquiet.symm.trans hposted) Bool.false_ne_true
  | cancel x =>
    obtain ⟨y,hy,ht⟩ := Option.bind_eq_some_iff.mp ht
    split at ht
    · exact (h.cancelRequest ht).1
    · obtain rfl := Option.some.inj ht
      exact h
  | delete x =>
    obtain ⟨y,hy,ht⟩ := Option.bind_eq_some_iff.mp ht
    split at ht
    · rename_i k hrequest
      obtain ⟨u,hu,ht⟩ := Option.bind_eq_some_iff.mp ht
      obtain ⟨hattended,hkept⟩ := h.cancelRequest hu
      obtain ⟨z,hz,hsame⟩ := hkept x y hy
      refine (hattended.set (y:=none) (hattended.lt_next hz) nofun).moves ht ?_
      rintro x' z' i r hz' hrequest' hdestroy
      obtain ⟨rfl,hr⟩ := SessionBus.Event.client.inj hdestroy
      obtain rfl := Client.Event.destroy.inj hr
      rcases set_cases hz' with ⟨-,hnone⟩ | ⟨hne,hold⟩
      · cases hnone
      · exact hne (hattended.distinct x' x z' z k hold hz hrequest' (hsame.trans hrequest))
    · obtain rfl := Option.some.inj ht
      exact h.set (y:=none) (h.lt_next hy) nofun
  | bus e =>
    simp only [machine,QmlPlugin.step] at ht
    split at ht
    · rename_i i r
      split_ifs at ht with hholds
      refine h.moves ht ?_
      rintro x y j r' hy hrequest hdestroy
      obtain ⟨rfl,hr⟩ := SessionBus.Event.client.inj hdestroy
      obtain rfl := Client.Event.destroy.inj hr
      exact hholds ⟨x,h.lt_next hy,by rw [hy]; exact hrequest⟩
    · rename_i hother
      exact h.moves ht fun _ _ i r _ _ hdestroy => hother i r hdestroy

end

/-- Two images are shown, and one ID has no album. -/
def gallery : List Event :=
  [.requestImageResponse 1 (.thumbnail "/photo.jpg") ⟨48,48⟩,
    .requestImageResponse 1 (.albumArt "artist=Bob" (some "Bob") none) ⟨48,48⟩,
    .bus (.dispatch (1,0) none (.ok ("/photo.jpg",⟨1,0,0,0,0⟩))),.bus (.service Service.go),
    .bus (.service Service.go),
    .bus (.service (.credentialsReply ":1.1" (.map 1000 "unconfined\x00".toList))),
    .bus (.service Service.go),.bus (.service Service.go),.bus (.service (.check 0 .idle)),
    .bus (.service (.checkFinished 0)),.posted 1,.bus (.deliver (1,0)),.cancel 0]

end QmlPlugin
end UnityThumbnailer
