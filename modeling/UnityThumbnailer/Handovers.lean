import UnityThumbnailer.DownloadBurst
import UnityThumbnailer.SessionBus

/-! What a pool thread returns is handed to the event loop and sent as it is. So a property
that all results of `thumbnail()` have is one of everything that the service sends. -/
namespace UnityThumbnailer
namespace Service

/-- Every result on its way to the event loop, and everything sent, has a property that
depends on the handler. -/
structure HandedOver (R : Handler → ImageFile → Prop) (s : Service) : Prop where
  results : ∀ x result data, At s x (.checked result) ∨ At s x (.created result) →
    result.ba = some data → R (s.handlers x) data
  sent : ∀ x data, .sentThumbnail x (some data) ∈ s.log → x < s.next ∧ R (s.handlers x) data

section

variable {cfg : Config} {e : Event} {s t : Service} {h x : ℕ} {R : Handler → ImageFile → Prop}

/-- What an application is sent. -/
def Effect.sends : Effect → Option (ℕ × Option ImageFile)
  | .sentThumbnail h ba => some (h,ba)
  | _ => none

theorem sent_of_cons {a : Effect} {l : List Effect} {ba : Option ImageFile}
    (hm : .sentThumbnail x ba ∈ a::l) (ha : a.sends = none) : .sentThumbnail x ba ∈ l :=
  (List.mem_cons.mp hm).resolve_left fun h => by
    rw [← h] at ha
    cases ha

theorem checkFinished_sent {result : ByteArrayOrError} {ba : Option ImageFile}
    (hm : .sentThumbnail x ba ∈ (s.checkFinished h result).log) :
    .sentThumbnail x ba ∈ s.log ∨ x = h ∧ ba = result.ba ∧ ba ≠ none := by
  unfold checkFinished at hm
  dsimp only at hm
  split at hm
  · exact .inl hm
  · split at hm
    · exact .inl (sent_of_cons (sent_of_cons hm rfl) rfl)
    · rename_i data hba
      rcases List.mem_cons.mp (sent_of_cons hm rfl) with heq | hold
      · obtain ⟨rfl,rfl⟩ := Effect.sentThumbnail.inj heq
        exact .inr ⟨rfl,hba.symm,Option.some_ne_none _⟩
      · exact .inl hold
    · split at hm
      · exact .inl hm
      · exact .inl (sent_of_cons (sent_of_cons hm rfl) rfl)

theorem createFinished_sent {result : ByteArrayOrError} {ba : Option ImageFile}
    (hm : .sentThumbnail x ba ∈ (s.createFinished h result).log) :
    .sentThumbnail x ba ∈ s.log ∨ x = h ∧ ba = result.ba ∧ result.error.getD "" = "" := by
  unfold createFinished at hm
  split_ifs at hm with hcancelled herror
  · exact .inl hm
  · exact .inl (sent_of_cons (sent_of_cons hm rfl) rfl)
  · rcases List.mem_cons.mp (sent_of_cons hm rfl) with heq | hold
    · obtain ⟨rfl,rfl⟩ := Effect.sentThumbnail.inj heq
      exact .inr ⟨rfl,rfl,not_not.mp herror⟩
    · exact .inl hold

/-- What is sent is the result of a pool thread, as it was handed over, and no error. -/
theorem step_sent {ba : Option ImageFile} (hs : Sound s) (ht : (machine cfg).step s e = some t)
    (hm : .sentThumbnail x ba ∈ t.log) : .sentThumbnail x ba ∈ s.log ∨
      ∃ result, result.ba = ba ∧ (At s x (.checked result) ∧ ba ≠ none ∨
        At s x (.created result) ∧ result.error.getD "" = "") := by
  have hstep := (machine_step ht).2
  cases hs.transition_of_step ht with
  | @checkAnswered h result a hidle hw ha =>
    simp only [Service.step,hw] at hstep
    obtain ⟨-,-,heq⟩ := slot_some hstep
    rw [← heq] at hm
    rcases checkFinished_sent hm with hold | ⟨rfl,rfl,hne⟩
    · exact .inl hold
    · exact .inr ⟨result,rfl,.inl ⟨hw,hne⟩⟩
  | @createAnswered h result a hidle hw ha =>
    simp only [Service.step,hw] at hstep
    obtain ⟨-,-,heq⟩ := slot_some hstep
    rw [← heq] at hm
    rcases createFinished_sent hm with hold | ⟨rfl,rfl,herror⟩
    · exact .inl hold
    · exact .inr ⟨result,rfl,.inr ⟨hw,herror⟩⟩
  | arrived hidle hmedia =>
    rw [queueRequest_log] at hm
    exact .inl (sent_of_cons hm rfl)
  | cleared hr hc => exact .inl (by cases hr with
      | replied => exact hm
      | known => exact sent_of_cons hm rfl)
  | denied hr hc =>
    have hu := sent_of_cons (sent_of_cons hm rfl) rfl
    exact .inl (by cases hr with
      | replied => exact hu
      | known => exact sent_of_cons hu rfl)
  | @pushed o h ref rest hcalls =>
    have hlog : ((s.setCalls rest).pushBack h ref).log = s.log := by
      unfold Service.pushBack
      dsimp only
      split
      · split <;> rfl
      · rfl
    exact .inl (hlog ▸ hm)
  | caught =>
    exact .inl (sent_of_cons (sent_of_cons (sent_of_cons (sent_of_cons hm rfl) rfl) rfl) rfl)
  | uncaught => exact .inl (sent_of_cons (sent_of_cons hm rfl) rfl)
  | refused | reported | asked | started | failed | released | checked | created | aborted =>
    exact .inl (sent_of_cons hm rfl)
  | erased | returned | creating | scheduled | completed | deleted | evicted => exact .inl hm

theorem checkResult_ba {o : Outcome} {result : ByteArrayOrError} {data : ImageFile}
    (hr : Handler.checkResult o = some result) (hba : result.ba = some data) :
    o = .returned (some data) := by
  cases o with
  | returned ba =>
    obtain rfl := Option.some.inj hr
    exact congrArg Outcome.returned hba
  | threw what =>
    obtain rfl := Option.some.inj hr
    cases hba
  | aborted => cases hr

theorem createResult_ba {y : Handler} {o : Outcome} {result : ByteArrayOrError} {data : ImageFile}
    (hr : y.createResult o = some result) (hba : result.ba = some data) :
    o = .returned (some data) := by
  cases o with
  | returned ba =>
    cases ba with
    | none =>
      obtain rfl := Option.some.inj hr
      cases hba
    | some d =>
      obtain rfl := Option.some.inj hr
      exact congrArg Outcome.returned hba
  | threw what =>
    obtain rfl := Option.some.inj hr
    cases hba
  | aborted => cases hr

/-- One step: the handlers stay what the property depends on, and a look-up returns what has the
property. -/
theorem HandedOver.step (hh : HandedOver R s) (hs : Sound s) (ht : (machine cfg).step s e = some t)
    (hkept : ∀ x data, x < s.next → R (s.handlers x) data → R (t.handlers x) data)
    (hlooked : ∀ x w data, x < s.next → e = .check x w ∨ e = .create x w →
      (s.thumbnail x w).1 = .returned (some data) → R (s.handlers x) data) : HandedOver R t := by
  have htr := hs.transition_of_step ht
  have hl := hs.lifecycle
  have hnext : s.next ≤ t.next := by
    rcases htr.next with hn | ⟨hn,-⟩ <;> omega
  refine ⟨fun x result data hat hba => ?_,fun x data hm => ?_⟩
  · rcases hat with hat | hat
    · cases htr.place hl hat with
      | stayed hold =>
        exact hkept _ _ (hold.unfinished hl).2.2 (hh.results x result data (.inl hold) hba)
      | checked he hat' hr heq =>
        have hx := (hat'.unfinished hl).2.2
        exact hkept _ _ hx (hlooked x _ data hx (.inl he) (checkResult_ba hr hba))
      | scheduled hold hst hp => rcases hp with hp | hp <;> cases hp
    · cases htr.place hl hat with
      | stayed hold =>
        exact hkept _ _ (hold.unfinished hl).2.2 (hh.results x result data (.inr hold) hba)
      | created he hat' hr heq =>
        have hx := (hat'.unfinished hl).2.2
        exact hkept _ _ hx (hlooked x _ data hx (.inr he) (createResult_ba hr hba))
      | scheduled hold hst hp => rcases hp with hp | hp <;> cases hp
  · rcases step_sent hs ht hm with hold | ⟨result,hba,hat⟩
    · obtain ⟨hx,hR⟩ := hh.sent x data hold
      exact ⟨hx.trans_le hnext,hkept _ _ hx hR⟩
    · replace hat := hat.imp And.left And.left
      have hx : x < s.next := hat.elim (fun h => (h.unfinished hl).2.2)
        fun h => (h.unfinished hl).2.2
      exact ⟨hx.trans_le hnext,hkept _ _ hx (hh.results x result data hat hba)⟩

theorem HandedOver.new (apparmorEnabled : Bool) (maxDownloads maxExtractions : ℤ)
    (hd : 0 < maxDownloads) (he : 0 < maxExtractions) (thumbnailer : Thumbnailer) :
    HandedOver R (new apparmorEnabled maxDownloads maxExtractions hd he thumbnailer) :=
  ⟨fun _ _ _ hat => (by rcases hat with hat | hat <;> cases hat),nofun⟩

end
end Service
end UnityThumbnailer
