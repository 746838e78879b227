import UnityThumbnailer.EndToEnd
import UnityThumbnailer.Handovers

/-! What an application is told of its requests. The service sends no empty image, and no error
without a text, so a request that has finished either shows an image or says what went wrong. -/
namespace UnityThumbnailer

open EventSystem

/-- An exception has a text. -/
def Outcome.Worded (o : Outcome) : Prop := ∀ what, o = .threw what → what ≠ ""

theorem append_ne_empty {a b : String} (ha : a ≠ "") : a ++ b ≠ "" :=
  fun h => ha (String.append_eq_empty_iff.mp h).1

namespace Thumbnailer

variable {t : Thumbnailer} {w : World} {r : Request}

theorem unexpected_worded (what : String) : (unexpected r what).Worded := by
  rintro _ ⟨rfl⟩
  exact append_ne_empty (append_ne_empty (by decide))

theorem returned_worded (data : Option ImageFile) : (Outcome.returned data).Worded := nofun

theorem saveThumbnail_worded (status : FetchStatus) (scaled : Image) :
    (t.saveThumbnail w r status scaled).outcome.Worded := by
  unfold saveThumbnail
  split
  · exact unexpected_worded _
  · exact returned_worded _

theorem scaleFetched_worded (image : Image) (policy : CachePolicy) :
    (t.scaleFetched w r image policy).outcome.Worded := by
  unfold scaleFetched
  split
  · exact unexpected_worded _
  · split
    · exact unexpected_worded _
    · exact saveThumbnail_worded _ _

theorem handleFetched_worded (d : ImageData) : (t.handleFetched w r d).outcome.Worded := by
  have haborted : Outcome.aborted.Worded := nofun
  cases d with
  | image image policy location => exact scaleFetched_worded _ _
  | failed status policy location =>
    cases status with
    | notFound | hardError | networkDown => exact returned_worded _
    | cacheHit | scaledFromFullsize | cachedFailure | downloaded => exact haborted
    | needsDownload =>
      simp only [handleFetched]
      split_ifs <;> exact returned_worded _
    | temporaryError | timeout =>
      simp only [handleFetched]
      split_ifs
      · exact returned_worded _
      · exact haborted

theorem thumbnail_worded : (t.thumbnail w r).outcome.Worded := by
  have hlooked := looked t w r
  generalize t.thumbnail w r = res at hlooked ⊢
  cases hlooked with
  | threw => exact unexpected_worded _
  | hit | failure => exact returned_worded _
  | scaled => exact saveThumbnail_worded _ _
  | aborted => nofun
  | fetched => exact handleFetched_worded _

end Thumbnailer

namespace Service

section

variable {cfg : Config} {e : Event} {s t : Service} {x : ℕ}

theorem createResult_worded {y : Handler} {o : Outcome} {result : ByteArrayOrError}
    (hr : y.createResult o = some result) (ho : o.Worded) (hba : result.ba = none) :
    result.error.getD "" ≠ "" := by
  cases o with
  | returned ba =>
    cases ba with
    | none =>
      obtain rfl := Option.some.inj hr
      exact append_ne_empty (append_ne_empty (append_ne_empty (by decide)))
    | some data =>
      obtain rfl := Option.some.inj hr
      cases hba
  | threw what =>
    obtain rfl := Option.some.inj hr
    exact ho what rfl
  | aborted => cases hr

/-- What is created is an image or an error with a text, and no empty image is sent. -/
structure Filled (s : Service) : Prop where
  results : ∀ x result, At s x (.created result) → result.ba = none → result.error.getD "" ≠ ""
  sent : ∀ x ba, .sentThumbnail x ba ∈ s.log → ba ≠ none

theorem Filled.step (hf : Filled s) (hs : Sound s) (ht : (machine cfg).step s e = some t) :
    Filled t := by
  refine ⟨fun x result hat hba => ?_,fun x ba hm => ?_⟩
  · cases (hs.transition_of_step ht).place hs.lifecycle hat with
    | stayed hold => exact hf.results x result hold hba
    | created he hold hr heq => exact createResult_worded hr Thumbnailer.thumbnail_worded hba
    | scheduled hold hst hp => rcases hp with hp | hp <;> cases hp
  · rcases step_sent hs ht hm with hold | ⟨result,rfl,⟨-,hne⟩ | ⟨hat,herror⟩⟩
    · exact hf.sent x ba hold
    · exact hne
    · exact fun hba => hf.results x result hat hba herror

theorem Filled.new (apparmorEnabled : Bool) (maxDownloads maxExtractions : ℤ)
    (hd : 0 < maxDownloads) (he : 0 < maxExtractions) (thumbnailer : Thumbnailer) :
    Filled (new apparmorEnabled maxDownloads maxExtractions hd he thumbnailer) :=
  ⟨fun _ _ hat => (by cases hat),nofun⟩

end
end Service

/-! ### The libraries -/

namespace Client

/-- A request tells nothing before it has finished, and then either that it is valid, or why
it is not. -/
def Told (q : RequestImpl) : Prop :=
  q.finished = false ∧ q.isValid = false ∧ q.image = none ∧ q.errorMessage = "" ∨
    q.finished = true ∧ (q.isValid = true ∧ q.errorMessage = "" ∨
      q.isValid = false ∧ q.image = none ∧ q.errorMessage ≠ "")

/-- All that an application can ask a request for. -/
def answers (q : RequestImpl) : Bool × Bool × Option ImageFile × String :=
  (q.finished,q.isValid,q.image,q.errorMessage)

section

variable {e : Event} {r : RequestId} {q q' : RequestImpl}

theorem failed_told {message : String} (hm : message ≠ "") : Told (failed q message) :=
  .inr ⟨rfl,.inr ⟨rfl,rfl,hm⟩⟩

theorem settled_told (q : RequestImpl) (reply : Reply) : Told (settled reply q) := by
  unfold settled concluded
  split
  · exact failed_told (by decide)
  · cases reply with
    | data bytes => exact .inr ⟨rfl,.inl ⟨rfl,rfl⟩⟩
    | error message => exact failed_told (append_ne_empty (by decide))

theorem Rewritten.told (h : Rewritten e r q q') (hq : Told q) : Told q' := by
  cases h with
  | same | sent | marked | pumped | announced | returned | destroyed => exact hq
  | rejected =>
    refine .inr ⟨rfl,.inr ⟨rfl,rfl,fun h => ?_⟩⟩
    exact absurd (String.append_eq_empty_iff.mp h).2 (by decide)
  | created | createdSent => exact .inl ⟨rfl,rfl,rfl,rfl⟩
  | answered | waited => exact settled_told ..
  | withdrawn => exact failed_told (by decide)

/-- A request that has finished does not change its answers. -/
theorem Rewritten.final (h : Rewritten e r q q') (hq : q.finished = true) :
    answers q' = answers q := by
  cases h with
  | same | marked | pumped | announced | returned | destroyed | sent => rfl
  | rejected hblank | created hblank | createdSent hblank =>
    rw [hblank] at hq
    cases hq
  | answered he hopen | waited he hopen | withdrawn hopen => cases hopen.2.1.symm.trans hq

end
end Client

namespace SessionBus

open Client

section

variable {cfg : Service.Config} {peer : Instance → Peer} {b d : SessionBus} {e : Event}

/-- A step of the bus that is a step of one library, and destroys a request only on demand. -/
def StepsOne (b : SessionBus) (e : Event) (d : SessionBus) : Prop :=
  ∃ i f c, library.step (b.clients i) f = some c ∧ d.clients = Function.update b.clients i c ∧
    ∀ r, f = .destroy r → e = .client i (.destroy r)

theorem receive_clients {a : SessionBus} {k : CallId} {reply : Reply}
    (hd : a.receive k reply = some d) (ha : a.clients = b.clients) : StepsOne b e d := by
  unfold receive at hd
  obtain ⟨c,hc,rfl⟩ := Option.map_eq_some_iff.mp hd
  rw [ha] at hc
  refine ⟨k.1,_,c,hc,?_,fun r hr => ?_⟩
  · change Function.update a.clients k.1 c = _
    rw [ha]
  · split_ifs at hr

/-- A step of the bus is a step of one library, or leaves them alone. -/
theorem step_clients (hd : (machine cfg peer).step b e = some d) :
    d.clients = b.clients ∨ StepsOne b e d := by
  cases e with
  | create i w size =>
    simp only [machine,SessionBus.step,Option.ite_none_right_eq_some,
      Option.map_eq_some_iff] at hd
    obtain ⟨-,c,hc,rfl⟩ := hd
    exact .inr ⟨i,_,c,hc,rfl,fun r hr => by cases hr⟩
  | client i f =>
    simp only [machine,SessionBus.step,Option.ite_none_right_eq_some,
      Option.map_eq_some_iff] at hd
    obtain ⟨-,c,hc,rfl⟩ := hd
    exact .inr ⟨i,f,c,hc,rfl,fun r hr => congrArg (Event.client i) hr⟩
  | wait i r =>
    simp only [machine,SessionBus.step,Option.ite_none_right_eq_some,Option.some.injEq] at hd
    obtain ⟨-,rfl⟩ := hd
    exact .inl (Function.update_eq_self ..)
  | dispatch k canonical file =>
    simp only [machine,SessionBus.step,Option.ite_none_right_eq_some,
      Option.map_eq_some_iff] at hd
    obtain ⟨-,t,-,rfl⟩ := hd
    refine .inl ?_
    change (b.accept k ((b.wanted k).1.method canonical file)).clients = b.clients
    unfold accept
    dsimp only
    split <;> rfl
  | service f =>
    simp only [machine,SessionBus.step,Option.map_eq_some_iff] at hd
    obtain ⟨t,-,rfl⟩ := hd
    exact .inl rfl
  | deliver k =>
    simp only [machine,SessionBus.step] at hd
    split at hd
    · split_ifs at hd
      · exact .inr (receive_clients hd rfl)
      · obtain rfl := Option.some.inj hd
        exact .inl rfl
    · cases hd
  | timeout k message =>
    simp only [machine,SessionBus.step,Option.ite_none_right_eq_some] at hd
    exact .inr (receive_clients hd.2 rfl)

/-- What a step of the bus makes of any request. -/
theorem step_requests (hb : Balanced noReply b) (hd : (machine cfg peer).step b e = some d)
    (i : Instance) (r : RequestId) : ∃ f : Client.Event,
      Rewritten f r ((b.clients i).requests r) ((d.clients i).requests r) ∧
        (f = .destroy r → e = .client i (.destroy r)) := by
  rcases step_clients hd with hsame | ⟨j,f,c,hc,hclients,hdestroy⟩
  · rw [hsame]
    exact ⟨.cancel r,.same,fun hr => by cases hr⟩
  · rw [hclients]
    by_cases hij : i = j
    · subst hij
      rw [Function.update_self]
      exact ⟨f,step_rewritten (hb.clients i) hc r,hdestroy r⟩
    · rw [Function.update_of_ne hij]
      exact ⟨.cancel r,.same,fun hr => by cases hr⟩

/-- A request of an application tells nothing before it has finished; then it shows an image, or
it shows none and has an error message. -/
def Conclusive (q : RequestImpl) : Prop :=
  q.finished = false ∧ q.isValid = false ∧ q.image = none ∧ q.errorMessage = "" ∨
    q.finished = true ∧ (q.isValid = true ∧ q.image ≠ none ∧ q.errorMessage = "" ∨
      q.isValid = false ∧ q.image = none ∧ q.errorMessage ≠ "")

/-- What applications are told, and what it is based on. -/
structure Telling (cfg : Service.Config) (peer : Instance → Peer) (b : SessionBus) : Prop where
  correlated : Correlated cfg peer b
  filled : Service.Filled b.service
  told : ∀ i r, Told ((b.clients i).requests r)

theorem Telling.conclusive (h : Telling cfg peer b) (i : Instance) (r : RequestId) :
    Conclusive ((b.clients i).requests r) := by
  rcases h.told i r with hopen | ⟨hfinished,⟨hvalid,herror⟩ | hfailed⟩
  · exact .inl hopen
  · obtain ⟨x,-,hsent⟩ := h.correlated.shown i r hvalid
    exact .inr ⟨hfinished,.inl ⟨hvalid,h.filled.sent x _ hsent,herror⟩⟩
  · exact .inr ⟨hfinished,.inr hfailed⟩

theorem Telling.step (h : Telling cfg peer b) (hd : (machine cfg peer).step b e = some d) :
    Telling cfg peer d := by
  have hb := h.correlated.balanced
  refine ⟨h.correlated.step hd,?_,fun i r => ?_⟩
  · rcases step_service hd with hsame | ⟨f,-,ht⟩
    · rw [hsame]
      exact h.filled
    · exact h.filled.step hb.service ht
  · obtain ⟨f,hf,-⟩ := step_requests hb hd i r
    exact hf.told (h.told i r)

theorem Telling.new (cfg : Service.Config) (peer : Instance → Peer)
    (maxBacklog : Instance → { n : ℤ // 0 < n }) (apparmorEnabled : Bool)
    (maxDownloads maxExtractions : ℤ) (hd : 0 < maxDownloads) (he : 0 < maxExtractions)
    (thumbnailer : Thumbnailer) : Telling cfg peer (new maxBacklog
      (.new apparmorEnabled maxDownloads maxExtractions hd he thumbnailer)) :=
  ⟨.new cfg peer maxBacklog (.new ..) (.new ..),.new ..,fun _ _ => .inl ⟨rfl,rfl,rfl,rfl⟩⟩

end

end SessionBus
end UnityThumbnailer
