import UnityThumbnailer.Places

/-! What a step writes: its effects go with the places of their handlers, and a record
keeps what it was created with. -/
namespace UnityThumbnailer
namespace Service

/-- The place, or the event, that an effect of a step comes from. -/
def Due (s : Service) (e : Event) (t : Service) : Effect → Prop
  | .arrived x peer media => x = s.next ∧ t.next = s.next+1 ∧
    (t.handlers x).peer = peer ∧ (t.handlers x).request.media = media
  | .ranThumbnail x _ => At s x .checking ∨ At s x .creating
  | .calledDownload x => At s x .starting
  | .threwDownload x what => ∃ rest, s.calls = .job x :: rest ∧ e = .call (.threw what)
  | .released x => At s x .ended ∧ .startCreate x ∈ t.calls
  | .sentThumbnail x _ => ∃ result, At s x (.checked result) ∨ At s x (.created result)
  | _ => True

/-- What happens to the record of a handler that has arrived. -/
structure Rewritten (s : Service) (e : Event) (t : Service) (x : ℕ) : Prop where
  peer : (t.handlers x).peer = (s.handlers x).peer
  limiter : (t.handlers x).limiter = (s.handlers x).limiter
  media : (t.handlers x).request.media = (s.handlers x).request.media
  status : (t.handlers x).request.status = (s.handlers x).request.status ∨
    ∃ w, e = .check x w ∧ At s x .checking ∨ e = .create x w ∧ At s x .creating
  download : (t.handlers x).request.download = (s.handlers x).request.download ∨
    At s x .starting ∨ At s x .downloading

section

variable {cfg : Config} {e : Event} {s t u : Service} {h x : ℕ}

theorem Rewritten.key (hr : Rewritten s e t x) : (t.handlers x).key = (s.handlers x).key :=
  congrArg Media.key hr.media

theorem Rewritten.same (hx : t.handlers x = s.handlers x) : Rewritten s e t x := by
  refine ⟨?_,?_,?_,.inl ?_,.inl ?_⟩ <;> rw [hx]

/-- One record changes; `y` is what becomes of it. -/
theorem Rewritten.update {y : Handler} (hhandlers : t.handlers = Function.update s.handlers h y)
    (hpeer : y.peer = (s.handlers h).peer) (hlimiter : y.limiter = (s.handlers h).limiter)
    (hmedia : y.request.media = (s.handlers h).request.media)
    (hstatus : y.request.status = (s.handlers h).request.status ∨
      ∃ w, e = .check h w ∧ At s h .checking ∨ e = .create h w ∧ At s h .creating)
    (hdownload : y.request.download = (s.handlers h).request.download ∨
      At s h .starting ∨ At s h .downloading) : Rewritten s e t x := by
  by_cases hx : x = h
  · subst hx
    have hself : t.handlers x = y := by rw [hhandlers,Function.update_self]
    refine ⟨?_,?_,?_,?_,?_⟩ <;> rw [hself] <;> assumption
  · exact .same (by rw [hhandlers,Function.update_of_ne hx])

/-- A pool thread has run; its watcher changes with the status. -/
theorem thumbnail_modify_handlers (s : Service) (h : ℕ) (w : World) (f : Handler → Handler) :
    ((s.thumbnail h w).2.modify h f).handlers = Function.update s.handlers h
      (f ((s.handlers h).setStatus
        (s.thumbnailer.thumbnail w (s.handlers h).request).status)) := by
  change Function.update (Function.update s.handlers h _) h (f (Function.update s.handlers h _ h)) = _
  rw [Function.update_self,Function.update_idem]
  rfl

theorem pushBack_handlers (s : Service) (h ref : ℕ) : (s.pushBack h ref).handlers = s.handlers := by
  unfold Service.pushBack
  dsimp only
  split
  · split <;> rfl
  · rfl

theorem Received.handlers {c : Credentials} (hr : Received s u h c) : u.handlers = s.handlers := by
  cases hr <;> rfl

theorem Transition.rewritten (ht : Transition cfg s e t) (hx : x < s.next) : Rewritten s e t x := by
  cases ht with
  | refused | reported | asked | erased | caught | uncaught | released | evicted => exact .same rfl
  | @arrived peer m size media hidle hmedia =>
    refine .same ?_
    rw [queueRequest_handlers]
    exact Function.update_of_ne hx.ne ..
  | @cleared o u h c hr hc =>
    have hu : (u.modify h (·.setCheckWatcher .running)).handlers =
        Function.update s.handlers h ((s.handlers h).setCheckWatcher .running) := by
      rw [← hr.handlers]
      rfl
    exact .update hu rfl rfl rfl (.inl rfl) (.inl rfl)
  | denied hr hc => exact .same (congrFun hr.handlers x)
  | pushed hcalls => exact .same (by rw [pushBack_handlers]; rfl)
  | returned hcalls =>
    exact .update rfl rfl rfl rfl (.inl rfl) (.inl rfl)
  | started hcalls | failed hcalls =>
    exact .update rfl rfl rfl rfl (.inl rfl) (.inr (.inl (at_calls hcalls)))
  | creating hcalls => exact .update rfl rfl rfl rfl (.inl rfl) (.inl rfl)
  | checkAnswered | createAnswered | scheduled =>
    exact .update rfl rfl rfl rfl (.inl rfl) (.inl rfl)
  | completed hidle hd =>
    exact .update rfl rfl rfl rfl (.inl rfl) (.inr (.inr hd))
  | deleted => exact .update rfl rfl rfl rfl (.inl rfl) (.inl rfl)
  | checked hw hr =>
    exact .update (thumbnail_modify_handlers ..) rfl rfl rfl (.inr ⟨_,.inl ⟨rfl,hw⟩⟩) (.inl rfl)
  | created hw hr =>
    exact .update (thumbnail_modify_handlers ..) rfl rfl rfl (.inr ⟨_,.inr ⟨rfl,hw⟩⟩) (.inl rfl)
  | @aborted e h w hw ha => exact .update rfl rfl rfl rfl (.inr ⟨w,hw⟩) (.inl rfl)

theorem emitFinished_next (s : Service) (h : ℕ) : (s.emitFinished h).next = s.next := rfl

/-- Nobody arrives, or one handler does, with a new record. -/
theorem Transition.next (ht : Transition cfg s e t) : t.next = s.next ∨
    t.next = s.next+1 ∧ ∃ peer l media size details,
      t.handlers s.next = .new peer l media size details ∧ .arrived s.next peer media ∈ t.log := by
  cases ht with
  | @arrived peer m size media hidle hmedia =>
    refine .inr ⟨queueRequest_next ..,peer,m.limiter,media,size,m.details size,?_,?_⟩
    · rw [queueRequest_handlers]
      exact Function.update_self ..
    · rw [queueRequest_log]
      exact List.mem_cons_self
  | cleared hr hc => cases hr <;> exact .inl rfl
  | denied hr hc =>
    unfold sendError
    rw [emitFinished_next]
    cases hr <;> exact .inl rfl
  | @pushed o h ref rest hcalls => exact .inl (Moves.pushBack (s.setCalls rest) h ref).1.next
  | caught =>
    unfold sendError
    rw [emitFinished_next]
    exact .inl rfl
  | _ => exact .inl rfl

theorem Received.log {c : Credentials} (hr : Received s u h c) :
    ∃ es, u.log = es ++ s.log ∧ ∀ a ∈ es, Due s e t a := by
  cases hr with
  | replied => exact ⟨[],rfl,by simp⟩
  | @known h c rest => exact ⟨[.began h],rfl,by simp [Due]⟩

theorem Effect.due_of_answers {a : Effect} {result : ByteArrayOrError} (ha : a.answers = some h)
    (hat : At s h (.checked result) ∨ At s h (.created result)) : Due s e t a := by
  cases a with
  | sentThumbnail y ba =>
    obtain rfl : y = h := Option.some.inj ha
    exact ⟨result,hat⟩
  | sentError => trivial
  | _ => cases ha

theorem Transition.log (ht : Transition cfg s e t) :
    ∃ es, t.log = es ++ s.log ∧ ∀ a ∈ es, Due s e t a := by
  cases ht with
  | @refused peer m size error hidle => exact ⟨[.refused peer error],rfl,by simp [Due]⟩
  | @arrived peer m size media hidle hmedia =>
    refine ⟨[.arrived s.next peer media],?_,?_⟩
    · rw [queueRequest_log]
      rfl
    · intro a ha
      obtain rfl := List.mem_singleton.mp ha
      have hself : (Function.update s.handlers s.next
          (.new peer m.limiter media size (m.details size))) s.next =
            .new peer m.limiter media size (m.details size) := Function.update_self ..
      refine ⟨rfl,queueRequest_next ..,?_,?_⟩
      · rw [queueRequest_handlers]
        exact congrArg Handler.peer hself
      · rw [queueRequest_handlers]
        exact congrArg (fun y => y.request.media) hself
  | @reported peer reply callbacks hidle hpending =>
    exact ⟨[.reported peer reply],rfl,by simp [Due]⟩
  | @asked o h rest hcalls hmissing => exact ⟨[.began h],rfl,by simp [Due]⟩
  | cleared hr hc => exact hr.log
  | @denied o u h c error hr hc =>
    obtain ⟨es,hes,hdue⟩ := hr.log (e:=.call o) (t:=u.sendError h error)
    refine ⟨.finished h :: .sentError h error :: es,?_,fun a ha => ?_⟩
    · change _ :: _ :: u.log = _
      rw [hes]
      rfl
    · rcases List.mem_cons.mp ha with rfl | ha
      · trivial
      · rcases List.mem_cons.mp ha with rfl | ha
        · trivial
        · exact hdue a ha
  | @pushed o h ref rest hcalls =>
    refine ⟨[],?_,by simp⟩
    unfold Service.pushBack
    dsimp only
    split
    · split <;> rfl
    · rfl
  | erased | returned | creating | scheduled | completed | deleted | evicted =>
    exact ⟨[],rfl,by simp⟩
  | @started h rest hcalls =>
    have hat : At s h .starting := at_calls hcalls
    exact ⟨[.calledDownload h],rfl,by simpa [Due] using hat⟩
  | @failed h what rest filename st hcalls hmedia =>
    have hat : At s h .starting := at_calls hcalls
    exact ⟨[.calledDownload h],rfl,by simpa [Due] using hat⟩
  | @caught y h what error rest below hcalls hcatch =>
    have hat : At s y .starting := at_calls hcalls
    refine ⟨[.finished h,.sentError h error,.threwDownload y what,.calledDownload y],rfl,?_⟩
    simpa [Due,hcalls] using hat
  | @uncaught y what rest hcalls hcatch =>
    have hat : At s y .starting := at_calls hcalls
    refine ⟨[.threwDownload y what,.calledDownload y],rfl,?_⟩
    simpa [Due,hcalls] using hat
  | @released o h rest hcalls =>
    have hat : At s h .ended := at_calls hcalls
    have hnext : .startCreate h ∈ ((s.setCalls rest).downloadFinished h).calls :=
      List.mem_append_left _ (List.mem_append_right _ (List.mem_singleton_self _))
    exact ⟨[.released h],rfl,by simpa [Due] using ⟨hat,hnext⟩⟩
  | @checkAnswered h result a hidle hw ha =>
    refine ⟨[.finished h,a],rfl,fun b hb => ?_⟩
    rcases List.mem_cons.mp hb with rfl | hb
    · trivial
    · obtain rfl := List.mem_singleton.mp hb
      exact Effect.due_of_answers ha (.inl hw)
  | @createAnswered h result a hidle hw ha =>
    refine ⟨[.finished h,a],rfl,fun b hb => ?_⟩
    rcases List.mem_cons.mp hb with rfl | hb
    · trivial
    · obtain rfl := List.mem_singleton.mp hb
      exact Effect.due_of_answers ha (.inr hw)
  | @checked h w result hw hr =>
    exact ⟨[.ranThumbnail h _],rfl,by simpa [Due] using .inl hw⟩
  | @created h w result hw hr =>
    exact ⟨[.ranThumbnail h _],rfl,by simpa [Due] using .inr hw⟩
  | @aborted e h w hw ha =>
    have hat : At s h .checking ∨ At s h .creating := hw.imp And.right And.right
    exact ⟨[.ranThumbnail h _],rfl,by simpa [Due] using hat⟩

end
end Service
end UnityThumbnailer
