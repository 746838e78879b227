import UnityThumbnailer.DownloadSlots

/-! The cancel functions of the handlers. Each refers to the entry of its own handler, as long
as that is in the limiter's list, so that the destructor of a handler that has finished takes
nobody out of the queue. -/
namespace UnityThumbnailer

namespace RateLimiter

variable {Job : Type*} {r r' r'' : RateLimiter Job} {job : Job} {f : CancelFunc}

/-- The entry that the cancel function refers to holds this job or none. -/
def Owns (r : RateLimiter Job) (job : Job) : CancelFunc → Prop
  | .queued ref => ref < r.nextRef ∧ ∀ e ∈ r.list, e.ref = ref → ∀ x, e.job = some x → x = job
  | .notQueued => True

/-- Entries leave the list or lose their functions. -/
structure Narrowed (r r' : RateLimiter Job) : Prop where
  nextRef : r'.nextRef = r.nextRef
  list : ∀ e ∈ r'.list, ∃ d ∈ r.list, d.ref = e.ref ∧ ∀ x, e.job = some x → d.job = some x

/-- Every entry has a number that was given before. -/
def Numbered (r : RateLimiter Job) : Prop := ∀ e ∈ r.list, e.ref < r.nextRef

theorem Narrowed.refl (r : RateLimiter Job) : r.Narrowed r :=
  ⟨rfl,fun e he => ⟨e,he,rfl,fun _ => id⟩⟩

theorem Narrowed.owns (h : r.Narrowed r') (ho : r.Owns job f) : r'.Owns job f := by
  cases f with
  | notQueued => trivial
  | queued ref =>
    refine ⟨by rw [h.nextRef]; exact ho.1,fun e he href x hx => ?_⟩
    obtain ⟨d,hd,hdref,hdjob⟩ := h.list e he
    exact ho.2 d hd (hdref.trans href) x (hdjob x hx)

theorem Narrowed.numbered (h : r.Narrowed r') (hn : r.Numbered) : r'.Numbered := by
  intro e he
  obtain ⟨d,hd,hdref,-⟩ := h.list e he
  rw [h.nextRef,← hdref]
  exact hn d hd

theorem done_narrowed (r : RateLimiter Job) : r.Narrowed r.done.1 :=
  ⟨r.done_nextRef,fun e he => ⟨e,r.done_suffix.mem he,rfl,fun _ => id⟩⟩

theorem cancel_narrowed (r : RateLimiter Job) (f : CancelFunc) : r.Narrowed (r.cancel f).1 := by
  cases f with
  | notQueued => exact .refl r
  | queued ref =>
    refine ⟨r.cancel_nextRef _,fun e he => ?_⟩
    rw [cancel_list] at he
    obtain ⟨d,hd,rfl⟩ := List.mem_map.mp he
    exact ⟨d,hd,(clear_ref ref d).symm,fun x hx => (clear_job hx).1⟩

theorem schedule_numbered (hn : r.Numbered) (job : Job) : (r.schedule job).1.Numbered := by
  by_cases h : r.running < r.concurrency
  · rw [schedule_below h]
    exact hn
  · rw [schedule_full h]
    intro e he
    rcases List.mem_cons.mp he with rfl | he
    · exact Nat.lt_succ_self _
    · exact Nat.lt_succ_of_lt (hn e he)

/-- The new entry has a number that no cancel function refers to. -/
theorem schedule_owns (ho : r.Owns job f) (other : Job) : (r.schedule other).1.Owns job f := by
  by_cases h : r.running < r.concurrency
  · rw [schedule_below h]
    cases f <;> exact ho
  · rw [schedule_full h]
    cases f with
    | notQueued => trivial
    | queued ref =>
      refine ⟨Nat.lt_succ_of_lt ho.1,fun e he href x hx => ?_⟩
      rcases List.mem_cons.mp he with rfl | he
      · exact absurd href ho.1.ne'
      · exact ho.2 e he href x hx

theorem schedule_owns_self (hn : r.Numbered) (job : Job) :
    (r.schedule job).1.Owns job (r.schedule job).2.1 := by
  by_cases h : r.running < r.concurrency
  · rw [schedule_below h]
    trivial
  · rw [schedule_full h]
    refine ⟨Nat.lt_succ_self _,fun e he href x hx => ?_⟩
    rcases List.mem_cons.mp he with rfl | he
    · exact (Option.some.inj hx).symm
    · exact absurd href (hn e he).ne

/-- The cancel function of a job that has left the queue takes no other out of it. -/
theorem Owns.cancel_pending (ho : r.Owns job f) (hjob : job ∉ r.pending) :
    (r.cancel f).1.pending = r.pending := by
  cases f with
  | notQueued => rfl
  | queued ref =>
    unfold pending
    rw [cancel_list,List.filterMap_map]
    refine List.filterMap_congr fun e he => ?_
    change (clear ref e).job = e.job
    by_cases href : e.ref = ref
    · cases hj : e.job with
      | none => simp [clear,href]
      | some x =>
        obtain rfl := ho.2 e he href x hj
        exact absurd (List.mem_filterMap.mpr ⟨e,he,hj⟩) hjob
    · rw [clear,if_neg href]

end RateLimiter

namespace Service

open RateLimiter

/-- Every cancel function that a handler keeps, or is about to be given, is its own. -/
structure Tickets (s : Service) : Prop where
  numbered : ∀ l, (s.limiters l).Numbered
  kept : ∀ h f, (s.handlers h).cancelFunc = some f →
    (s.limiters (s.handlers h).limiter).Owns h f
  returned : ∀ h f, .scheduled h f ∈ s.calls → (s.limiters (s.handlers h).limiter).Owns h f

section

variable {cfg : Config} {e : Event} {s t u : Service} {h x : ℕ}

/-- Steps that hand no cancel function out. -/
theorem Tickets.narrowed (hk : Tickets s) (hlimiters : ∀ l, (s.limiters l).Narrowed (t.limiters l))
    (hkept : ∀ h f, (t.handlers h).cancelFunc = some f →
      (t.handlers h).limiter = (s.handlers h).limiter ∧
        ((s.handlers h).cancelFunc = some f ∨ .scheduled h f ∈ s.calls))
    (hreturned : ∀ h f, .scheduled h f ∈ t.calls →
      (t.handlers h).limiter = (s.handlers h).limiter ∧ .scheduled h f ∈ s.calls) : Tickets t where
  numbered l := (hlimiters l).numbered (hk.numbered l)
  kept h f hf := by
    obtain ⟨hl,hf | hf⟩ := hkept h f hf <;> rw [hl]
    · exact (hlimiters _).owns (hk.kept h f hf)
    · exact (hlimiters _).owns (hk.returned h f hf)
  returned h f hf := by
    obtain ⟨hl,hf⟩ := hreturned h f hf
    rw [hl]
    exact (hlimiters _).owns (hk.returned h f hf)

/-- Steps that leave the limiters alone, and the cancel functions of the handlers. -/
theorem Tickets.of_calls (hk : Tickets s) (hlimiters : t.limiters = s.limiters)
    (hhandlers : ∀ h, (t.handlers h).limiter = (s.handlers h).limiter ∧
      (t.handlers h).cancelFunc = (s.handlers h).cancelFunc)
    (hcalls : ∀ h f, .scheduled h f ∈ t.calls → .scheduled h f ∈ s.calls) : Tickets t :=
  hk.narrowed (fun l => by rw [hlimiters]; exact .refl _)
    (fun h f hf => ⟨(hhandlers h).1,Or.inl ((hhandlers h).2 ▸ hf)⟩)
    fun h f hf => ⟨(hhandlers h).1,hcalls h f hf⟩

/-- A change to one record that keeps its limiter and its cancel function. -/
theorem update_same {y : Handler} (hhandlers : t.handlers = Function.update s.handlers h y)
    (hlimiter : y.limiter = (s.handlers h).limiter)
    (hcancel : y.cancelFunc = (s.handlers h).cancelFunc) (x : ℕ) :
    (t.handlers x).limiter = (s.handlers x).limiter ∧
      (t.handlers x).cancelFunc = (s.handlers x).cancelFunc := by
  rw [hhandlers,Function.update_apply]
  split_ifs with hx
  · subst hx
    exact ⟨hlimiter,hcancel⟩
  · exact ⟨rfl,rfl⟩

theorem scheduled_pop {c : Call} {rest : List Call} (hcalls : s.calls = c::rest) (y : ℕ)
    (f : CancelFunc) (hm : .scheduled y f ∈ rest) : .scheduled y f ∈ s.calls := by
  rw [hcalls]
  exact List.mem_cons_of_mem _ hm

/-- Handlers that begin get no cancel function by that. -/
theorem scheduled_answer {a : Effect} (y : ℕ) (f : CancelFunc)
    (hm : .scheduled y f ∈ ((s.note a).emitFinished h).calls) : .scheduled y f ∈ s.calls := by
  rcases List.mem_append.mp hm with hm | hm
  · obtain ⟨z,-,hz⟩ := List.mem_map.mp hm
    cases hz
  · exact hm

theorem Tickets.received (hk : Tickets s) {c : Credentials} (hr : Received s u h c) :
    Tickets u := by
  cases hr with
  | replied hcalls => exact hk.of_calls rfl (fun _ => ⟨rfl,rfl⟩) (scheduled_pop hcalls)
  | known hcalls => exact hk.of_calls rfl (fun _ => ⟨rfl,rfl⟩) (scheduled_pop hcalls)

/-- The function that `schedule()` returns goes with the entry that it made, if it made one. -/
theorem Tickets.schedule (hk : Tickets s) (h : ℕ) : Tickets (s.schedule h) := by
  have hlimiters : ∀ l, ((s.schedule h).limiters l) = if l = (s.handlers h).limiter then
      ((s.limiters l).schedule h).1 else s.limiters l := by
    intro l
    change Function.update s.limiters _ _ l = _
    rw [Function.update_apply]
    split_ifs with hl
    · rw [hl]
    · rfl
  have howns : ∀ {l y f}, (s.limiters l).Owns y f → ((s.schedule h).limiters l).Owns y f := by
    intro l y f ho
    rw [hlimiters]
    split_ifs
    · exact schedule_owns ho h
    · exact ho
  refine ⟨fun l => ?_,fun y f hf => howns (hk.kept y f hf),fun y f hf => ?_⟩
  · rw [hlimiters]
    split_ifs
    · exact schedule_numbered (hk.numbered l) h
    · exact hk.numbered l
  · have hcalls : (s.schedule h).calls =
        ((s.limiters (s.handlers h).limiter).schedule h).2.2.toList.map Call.job ++
          [.scheduled h ((s.limiters (s.handlers h).limiter).schedule h).2.1] ++ s.calls := rfl
    rw [hcalls] at hf
    rcases List.mem_append.mp hf with hf | hf
    · rcases List.mem_append.mp hf with hf | hf
      · obtain ⟨z,-,hz⟩ := List.mem_map.mp hf
        cases hz
      · obtain ⟨rfl,rfl⟩ := Call.scheduled.inj (List.mem_singleton.mp hf)
        change ((s.schedule y).limiters (s.handlers y).limiter).Owns y _
        rw [hlimiters,if_pos rfl]
        exact schedule_owns_self (hk.numbered _) y
    · exact howns (hk.returned y f hf)

theorem Tickets.step (hk : Tickets s) (ht : Transition cfg s e t) (hquiet : ThrowsNothing s e) :
    Tickets t := by
  cases ht with
  | refused | evicted => exact hk.of_calls rfl (fun _ => ⟨rfl,rfl⟩) fun _ _ => id
  | @arrived peer m size media hidle hmedia =>
    have hcalls : ∀ y f, .scheduled y f ∉ (((s.register
        (.new peer m.limiter media size (m.details size))).note
          (.arrived s.next peer media)).queueRequest s.next).calls := by
      intro y f hm
      rcases queueRequest_cases ((s.register (.new peer m.limiter media size (m.details size))).note
        (.arrived s.next peer media)) s.next with ⟨-,hr⟩ | ⟨last,-,hr⟩ <;> rw [hr] at hm
      · have hm : .scheduled y f ∈ [Call.begin s.next,.pushBack s.next _] ++ s.calls := hm
        rw [hidle] at hm
        simp at hm
      · have hm : .scheduled y f ∈ [Call.pushBack s.next _] ++ s.calls := hm
        rw [hidle] at hm
        simp at hm
    refine hk.narrowed (fun l => ?_) (fun y f hf => ?_) fun y f hf => absurd hf (hcalls y f)
    · rcases queueRequest_cases ((s.register (.new peer m.limiter media size (m.details size))).note
        (.arrived s.next peer media)) s.next with ⟨-,hr⟩ | ⟨last,-,hr⟩ <;> rw [hr] <;>
        exact .refl _
    · rw [queueRequest_handlers] at hf ⊢
      change (Function.update s.handlers s.next _ y).cancelFunc = some f at hf
      change (Function.update s.handlers s.next _ y).limiter = _ ∧ _
      rw [Function.update_apply] at hf ⊢
      split_ifs at hf ⊢ with hy
      · cases hf
      · exact ⟨rfl,Or.inl hf⟩
  | @reported peer reply callbacks hidle hpending =>
    refine hk.of_calls rfl (fun _ => ⟨rfl,rfl⟩) fun y f hm => ?_
    rcases List.mem_append.mp hm with hm | hm
    · rcases List.mem_append.mp hm with hm | hm
      · obtain ⟨z,-,hz⟩ := List.mem_map.mp hm
        cases hz
      · cases List.mem_singleton.mp hm
    · exact hm
  | asked hcalls hmissing => exact hk.of_calls rfl (fun _ => ⟨rfl,rfl⟩) (scheduled_pop hcalls)
  | cleared hr hc =>
    exact (hk.received hr).of_calls rfl (update_same rfl rfl rfl) fun _ _ => id
  | denied hr hc =>
    exact (hk.received hr).of_calls rfl (fun _ => ⟨rfl,rfl⟩) scheduled_answer
  | @pushed o h ref rest hcalls =>
    refine hk.of_calls (pushBack_limiters (s.setCalls rest) h ref).1 (fun y => ?_) fun y f hm => ?_
    · rw [pushBack_handlers]
      exact ⟨rfl,rfl⟩
    · rw [pushBack_calls] at hm
      exact scheduled_pop hcalls y f hm
  | erased hcalls => exact hk.of_calls rfl (fun _ => ⟨rfl,rfl⟩) (scheduled_pop hcalls)
  | @returned o h f rest hcalls =>
    have hself : .scheduled h f ∈ s.calls := by
      rw [hcalls]
      exact List.mem_cons_self
    refine hk.narrowed (fun l => .refl _) (fun y g hg => ?_) fun y g hg => ⟨?_,?_⟩
    · change (Function.update s.handlers h _ y).cancelFunc = some g at hg
      change (Function.update s.handlers h _ y).limiter = _ ∧ _
      rw [Function.update_apply] at hg ⊢
      split_ifs at hg ⊢ with hy
      · obtain rfl : f = g := Option.some.inj hg
        subst hy
        exact ⟨rfl,Or.inr hself⟩
      · exact ⟨rfl,Or.inl hg⟩
    · change (Function.update s.handlers h _ y).limiter = _
      rw [Function.update_apply]
      split_ifs with hy
      · rw [hy]
        rfl
      · rfl
    · exact scheduled_pop hcalls y g hg
  | started hcalls | creating hcalls =>
    exact hk.of_calls rfl (update_same rfl rfl rfl) (scheduled_pop hcalls)
  | failed hcalls hmedia =>
    refine hk.of_calls rfl (update_same rfl rfl rfl) fun y f hm => ?_
    exact scheduled_pop hcalls y f ((List.mem_cons.mp hm).resolve_left nofun)
  | caught hcalls hcatch => simp only [ThrowsNothing,hcalls] at hquiet
  | uncaught hcalls hcatch => simp only [ThrowsNothing,hcalls] at hquiet
  | @released o h rest hcalls =>
    have hmem : ∀ y f, .scheduled y f ∈ ((s.setCalls rest).downloadFinished h).calls →
        .scheduled y f ∈ s.calls := by
      intro y f hm
      rcases List.mem_append.mp hm with hm | hm
      · rcases List.mem_append.mp hm with hm | hm
        · obtain ⟨z,-,hz⟩ := List.mem_map.mp hm
          cases hz
        · cases List.mem_singleton.mp hm
      · exact scheduled_pop hcalls y f hm
    refine hk.narrowed (fun l => ?_) (fun y f hf => ⟨rfl,Or.inl hf⟩) fun y f hf => ⟨rfl,hmem y f hf⟩
    change (s.limiters l).Narrowed (Function.update s.limiters _ _ l)
    rw [Function.update_apply]
    split_ifs with hl
    · rw [hl]
      exact done_narrowed _
    · exact .refl _
  | checkAnswered hidle hw he | createAnswered hidle hw he =>
    exact hk.of_calls rfl (update_same rfl rfl rfl) scheduled_answer
  | @scheduled h hidle hw hs =>
    have hdelivered : Tickets (s.modify h (·.setCheckWatcher .delivered)) :=
      hk.of_calls rfl (update_same rfl rfl rfl) fun _ _ => id
    exact hdelivered.schedule h
  | completed hidle hd hfits =>
    refine hk.of_calls rfl (update_same rfl rfl rfl) fun y f hm => ?_
    exact (List.mem_cons.mp hm).resolve_left nofun
  | @deleted h hidle hd =>
    have hhandlers : (s.delete h).handlers = Function.update s.handlers h (s.handlers h).cancel :=
      rfl
    have hsame := update_same hhandlers rfl rfl
    refine hk.narrowed (fun l => ?_) (fun y f hf => ⟨(hsame y).1,Or.inl ((hsame y).2 ▸ hf)⟩)
      fun y f hf => ⟨(hsame y).1,hf⟩
    change (s.limiters l).Narrowed (Function.update s.limiters _ _ l)
    rw [Function.update_apply]
    split_ifs with hl
    · rw [hl]
      unfold Handler.withdraw
      split
      · exact cancel_narrowed _ _
      · exact .refl _
    · exact .refl _
  | checked hw hr =>
    exact hk.of_calls rfl (update_same (thumbnail_modify_handlers ..) rfl rfl) fun _ _ => id
  | created hw hr =>
    exact hk.of_calls rfl (update_same (thumbnail_modify_handlers ..) rfl rfl) fun _ _ => id
  | aborted hw ha => exact hk.of_calls rfl (update_same rfl rfl rfl) fun _ _ => id

theorem Tickets.new (apparmorEnabled : Bool) (maxDownloads maxExtractions : ℤ)
    (hd : 0 < maxDownloads) (he : 0 < maxExtractions) (thumbnailer : Thumbnailer) :
    Tickets (new apparmorEnabled maxDownloads maxExtractions hd he thumbnailer) :=
  ⟨fun l => by cases l <;> exact nofun,nofun,nofun⟩

/-- Deleting a handler that has finished leaves the queues of both limiters as they are. -/
theorem Tickets.delete_pending (hk : Tickets s) (hl : Lifecycle nothing s) (hd : h ∈ s.deletions)
    (l : LimiterId) : ((s.delete h).limiters l).pending = (s.limiters l).pending := by
  change (Function.update s.limiters _ _ l).pending = _
  rw [Function.update_apply]
  split_ifs with hlim
  · subst hlim
    unfold Handler.withdraw
    split
    · rename_i f hf
      refine (hk.kept h f hf).cancel_pending fun hm => ?_
      have hat : At s h .queued := ⟨_,hm⟩
      have hended := (hat.unfinished hl).2.1
      have hpos := hl.deletions h hd
      omega
    · rfl
  · rfl

end
end Service
end UnityThumbnailer
