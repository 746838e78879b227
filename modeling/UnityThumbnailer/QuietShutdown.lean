import UnityThumbnailer.Conservation
import UnityThumbnailer.InactivityHandler

/-! The idle timer and the requests. The objects that the counter counts are the handlers that
have arrived and are not destroyed, so the timer that ends the service interrupts no request. -/
namespace UnityThumbnailer
namespace IdleShutdown

open Service EventSystem

/-- The objects of the handlers that have arrived and are not destroyed. -/
structure Objects (s : RunningService) : Prop where
  sound : Sound s.service
  alive : ∀ x, x ∈ s.handlers ↔ x < s.service.next ∧ (s.service.handlers x).cancelled = false
  nodup : s.handlers.Nodup

/-- Every request has been answered, and nothing of it is left. -/
structure NothingInProgress (s : Service) : Prop where
  requests : s.requests = ∅
  nowhere : ∀ x p, ¬ At s x p
  answered : ∀ x < s.next, s.answered.count x = 1

section

variable {cfg : Config} {s t : RunningService} {e : Event} {started : Prop}

/-- Handlers arrive with their requests and are destroyed by their deletion. -/
theorem objects_kept {e : Service.Event} {u v : Service} (hs : Sound u)
    (hstep : (machine cfg).step u e = some v) (hrequest : ∀ peer m size, e ≠ .request peer m size)
    (hdelete : ∀ x, e ≠ .delete x) :
    v.next = u.next ∧ ∀ x, (v.handlers x).cancelled = (u.handlers x).cancelled := by
  have hm := ((hs.transition_of_step hstep).milestone hs.lifecycle hs.stacked).1
  cases hm with
  | quiet hq => exact ⟨hq.next,hq.cancelled⟩
  | arrived => exact absurd rfl (hrequest _ _ _)
  | began hcalls hq => exact ⟨hq.next,hq.cancelled⟩
  | answered hpushes hq => exact ⟨hq.next,hq.cancelled⟩
  | begunAnswered hcalls hknown hdenied hq => exact ⟨hq.next,hq.cancelled⟩
  | @pushed o h ref rest hcalls =>
    have hq := (Moves.pushBack (u.setCalls rest) h ref).1
    exact ⟨hq.next,hq.cancelled⟩
  | deleted => exact absurd rfl (hdelete _)

theorem Objects.arrived {peer : Peer} {m : Method} {size : QSize} {media : Media} {v : Service}
    (hs : Objects s) (hmedia : m.media = .ok media)
    (hstep : (machine cfg).step s.service (.request peer m size) = some v) :
    Objects ⟨v,s.inactivity.requestStarted,s.service.next::s.handlers,s.adminActive,s.quit⟩ := by
  have hnew : v.next = s.service.next+1 ∧
      v.handlers = Function.update s.service.handlers s.service.next
        (.new peer m.limiter media size (m.details size)) := by
    obtain ⟨-,-,rfl⟩ := slot_some (machine_step hstep).2
    unfold request
    rw [hmedia]
    exact ⟨queueRequest_next ..,queueRequest_handlers ..⟩
  refine ⟨hs.sound.step hstep,fun x => ?_,?_⟩
  · change x ∈ s.service.next::s.handlers ↔ x < v.next ∧ (v.handlers x).cancelled = false
    rw [hnew.1,hnew.2,List.mem_cons,hs.alive,Function.update_apply]
    split_ifs with hx
    · exact iff_of_true (Or.inl hx) ⟨by omega,rfl⟩
    · rw [or_iff_right hx]
      refine and_congr_left fun _ => ?_
      omega
  · refine List.nodup_cons.mpr ⟨fun hm => ?_,hs.nodup⟩
    exact absurd ((hs.alive _).mp hm).1 (lt_irrefl _)

theorem Objects.deleted {x : ℕ} {v : Service} (hs : Objects s)
    (hstep : (machine cfg).step s.service (.delete x) = some v) :
    Objects ⟨v,s.inactivity.requestCompleted,s.handlers.erase x,s.adminActive,s.quit⟩ := by
  have hnew : v.next = s.service.next ∧
      v.handlers = Function.update s.service.handlers x (s.service.handlers x).cancel := by
    obtain ⟨-,-,rfl⟩ := slot_some (machine_step hstep).2
    exact ⟨rfl,rfl⟩
  refine ⟨hs.sound.step hstep,fun y => ?_,hs.nodup.erase x⟩
  change y ∈ s.handlers.erase x ↔ y < v.next ∧ (v.handlers y).cancelled = false
  rw [hnew.1,hnew.2,hs.nodup.mem_erase_iff,hs.alive,Function.update_apply]
  split_ifs with hy
  · exact iff_of_false (fun h => h.1 hy) fun h => Bool.noConfusion h.2
  · exact and_iff_right hy

theorem Objects.service {e : Service.Event} {v : Service} (hs : Objects s)
    (hstep : (machine cfg).step s.service e = some v) (hcount : s.count e = some t) :
    Objects { t with service := v } := by
  cases e with
  | request peer m size =>
    simp only [RunningService.count] at hcount
    cases hmedia : m.media with
    | ok media =>
      rw [hmedia] at hcount
      obtain rfl := Option.some.inj hcount
      exact hs.arrived hmedia hstep
    | error what =>
      rw [hmedia] at hcount
      obtain rfl := Option.some.inj hcount
      refine ⟨hs.sound.step hstep,?_,hs.nodup⟩
      obtain ⟨-,-,rfl⟩ := slot_some (machine_step hstep).2
      unfold request
      rw [hmedia]
      exact hs.alive
  | delete x =>
    simp only [RunningService.count,Option.ite_none_right_eq_some,Option.some.injEq] at hcount
    obtain ⟨-,rfl⟩ := hcount
    exact hs.deleted hstep
  | credentialsReply | checkFinished | downloadComplete | createFinished | check | create | evict
  | call =>
    obtain rfl := Option.some.inj hcount
    obtain ⟨hnext,hcancelled⟩ := objects_kept hs.sound hstep (by simp) (by simp)
    refine ⟨hs.sound.step hstep,fun x => ?_,hs.nodup⟩
    change x ∈ s.handlers ↔ x < v.next ∧ (v.handlers x).cancelled = false
    rw [hnext,hcancelled]
    exact hs.alive x

/-- Evictions by the administrator change nothing but the caches. -/
theorem Objects.setThumbnailer (hs : Objects s) (thumbnailer : Thumbnailer) :
    Objects { s with service := s.service.setThumbnailer thumbnailer } :=
  ⟨⟨hs.sound.lifecycle.shift (.setThumbnailer ..) rfl fun _ => le_rfl,hs.sound.stacked⟩,hs.alive,
    hs.nodup⟩

theorem Objects.step (hs : Objects s) (ht : (running cfg).step s e = some t) : Objects t := by
  obtain ⟨-,ht⟩ := Option.ite_none_left_eq_some.mp ht
  cases e with
  | service e =>
    obtain ⟨-,ht⟩ := Option.ite_none_left_eq_some.mp ht
    split at ht
    · rename_i v u hv hu
      obtain rfl := Option.some.inj ht
      exact hs.service hv hu
    · cases ht
  | adminCompleted thumbnailer =>
    obtain ⟨-,ht⟩ := Option.ite_none_right_eq_some.mp ht
    obtain rfl := Option.some.inj ht
    exact ⟨(hs.setThumbnailer thumbnailer).sound,hs.alive,hs.nodup⟩
  | clientConfig | adminStarted | shutdown | timerExpired =>
    obtain ⟨-,ht⟩ := Option.ite_none_right_eq_some.mp ht
    obtain rfl := Option.some.inj ht
    exact ⟨hs.sound,hs.alive,hs.nodup⟩

/-- When all handlers are destroyed, all requests have been answered. -/
theorem Objects.nothingInProgress (hs : Objects s)
    (hdestroyed : ∀ x < s.service.next, (s.service.handlers x).cancelled = true) :
    NothingInProgress s.service := by
  have hl := hs.sound.lifecycle
  have hended : ∀ x < s.service.next, s.service.ended.count x = 1 := by
    intro x hx
    have hpos := hl.cancelled x (hdestroyed x hx)
    have hone := hl.ended_le x
    omega
  refine ⟨?_,fun x p hat => ?_,fun x hx => (hl.answers x).trans (hended x hx)⟩
  · refine Finset.eq_empty_of_forall_notMem fun x hx => ?_
    obtain ⟨hnext,hzero⟩ := (hl.requests x).mp hx
    rw [hended x hnext] at hzero
    cases hzero
  · obtain ⟨-,hzero,hnext⟩ := hat.unfinished hl
    rw [hended x hnext] at hzero
    cases hzero

end

/-- In every run of the service, with downloads that throw and with any work of the
administrator, the idle timer runs if and only if a request has been started, no method of the
administrator is being executed and every handler has been destroyed; then every request has
had its one answer, and nothing is left in progress that the end of the service could cut off. -/
theorem timerRunning_iff (cfg : Config) (apparmorEnabled : Bool) (maxDownloads maxExtractions : ℤ)
    (hd : 0 < maxDownloads) (he : 0 < maxExtractions) (thumbnailer : Thumbnailer)
    (es : List Event) (t : RunningService)
    (hrun : (running cfg).run
      (start (.new apparmorEnabled maxDownloads maxExtractions hd he thumbnailer)) es = some t) :
    (t.inactivity.timerRunning = true ↔ (∃ e ∈ es, StartsRequest e) ∧ t.adminActive = false ∧
      ∀ x < t.service.next, (t.service.handlers x).cancelled = true) ∧
    (t.inactivity.timerRunning = true → NothingInProgress t.service) := by
  have hstart : Objects (start (.new apparmorEnabled maxDownloads maxExtractions hd he
      thumbnailer)) :=
    ⟨.new ..,fun x => iff_of_false List.not_mem_nil fun h => Nat.not_lt_zero x h.1,List.nodup_nil⟩
  have ht : Objects t := Machine.invariant_run (fun _ _ _ hs hstep => hs.step hstep) hstart hrun
  have hcounts : Counted (start (.new apparmorEnabled maxDownloads maxExtractions hd he
      thumbnailer)) False := InactivityHandler.new_counts
  have hcounted := run_counted hcounts hrun
  have hiff : t.inactivity.timerRunning = true ↔ (∃ e ∈ es, StartsRequest e) ∧
      t.adminActive = false ∧ ∀ x < t.service.next, (t.service.handlers x).cancelled = true := by
    have hempty : t.handlers = [] ↔
        ∀ x < t.service.next, (t.service.handlers x).cancelled = true := by
      rw [List.eq_nil_iff_forall_not_mem]
      refine forall_congr' fun x => ?_
      rw [ht.alive,not_and,Bool.not_eq_false]
    have hzero : t.handlers.length+t.adminActive.toNat = 0 ↔
        t.handlers = [] ∧ t.adminActive = false := by
      rw [Nat.add_eq_zero_iff,List.length_eq_zero_iff]
      cases t.adminActive <;> simp
    rw [hcounted.timer,hzero,hempty,or_iff_right id]
    exact ⟨fun h => ⟨h.2,h.1.2,h.1.1⟩,fun h => ⟨⟨h.2.2,h.2.1⟩,h.1⟩⟩
  exact ⟨hiff,fun htimer => ht.nothingInProgress (hiff.mp htimer).2.2⟩

/-- After two requests for one key, the timer runs. -/
theorem timerRunning_iff_served : ∃ t, (running superuser).run (start started)
    (served.map Event.service) = some t ∧ t.inactivity.timerRunning = true ∧
      NothingInProgress t.service := by
  have hrun : (running superuser).run (start started) (served.map Event.service) =
      some (((running superuser).run (start started) (served.map Event.service)).getD
        (start started)) := eq_some_getD (by decide +kernel)
  have htimer := timerRunning_iff superuser true 2 2 (by decide) (by decide) .fresh _ _ hrun
  exact ⟨_,hrun,by decide +kernel,htimer.2 (by decide +kernel)⟩

end IdleShutdown
end UnityThumbnailer
