import UnityThumbnailer.SessionBus

/-! The accounts of the method calls. A request makes one call at most; from then on the call
is on its way to the service, with one handler that has not answered, or its reply is on the
way back, and as long as the request waits it is in one of these. -/
namespace UnityThumbnailer
namespace SessionBus

open EventSystem Client

/-- The request waits for the reply to its call. -/
def Awaited (b : SessionBus) (k : CallId) : Prop :=
  b.blocked k.1 = some k.2 ∨ InFlight ((b.clients k.1).requests k.2)

/-- The handlers that the call was ever given to. -/
def handled (b : SessionBus) (k : CallId) : ℕ :=
  ((Finset.range b.service.next).filter fun h => b.message h = some k).card

/-- Those that have not answered yet. -/
def working (b : SessionBus) (k : CallId) : ℕ :=
  (b.service.requests.filter fun h => b.message h = some k).card

def returning (b : SessionBus) (k : CallId) : ℕ := b.replies.countP (·.1 = k)

/-- The places where the call or its reply is. -/
def stages (b : SessionBus) (k : CallId) : ℕ := b.calls.count k+b.working k+b.returning k

/-- A reply in the hands of the library. -/
def inHand (k x : CallId) : ℕ := if k = x then 1 else 0

def noReply (_ : CallId) : ℕ := 0

structure Balanced (held : CallId → ℕ) (b : SessionBus) : Prop where
  clients : ∀ i, Inv (b.clients i)
  service : Service.Sound b.service
  blocked : ∀ i r, b.blocked i = some r → ((b.clients i).requests r).live = true ∧
    ((b.clients i).requests r).finished = false ∧ ((b.clients i).requests r).cancelled = false
  fresh : ∀ h, b.service.next ≤ h → b.message h = none
  once : ∀ k, b.calls.count k+b.handled k ≤ b.made k
  stages : ∀ k, b.stages k+held k ≤ b.made k
  awaited : ∀ k, b.Awaited k → b.stages k+held k = 1

section

variable {b d : SessionBus} {i : Instance} {c : Client} {w : Option RequestId} {k : CallId}
  {held held' : CallId → ℕ}

/-! ### The libraries -/

theorem setClient_made_self (b : SessionBus) (i : Instance) (c : Client) (w : Option RequestId)
    (r : RequestId) :
    (b.setClient i c w).made (i,r) = if w = some r then 1 else (c.requests r).sent := by
  simp only [made,setClient,Function.update_self]

theorem setClient_made_other (hk : k.1 ≠ i) : (b.setClient i c w).made k = b.made k := by
  simp only [made,setClient,Function.update_of_ne hk]

theorem setClient_awaited_self (b : SessionBus) (i : Instance) (c : Client)
    (w : Option RequestId) (r : RequestId) :
    (b.setClient i c w).Awaited (i,r) ↔ w = some r ∨ InFlight (c.requests r) := by
  unfold Awaited setClient
  dsimp only
  rw [Function.update_self,Function.update_self]

theorem setClient_awaited_other (hk : k.1 ≠ i) :
    (b.setClient i c w).Awaited k ↔ b.Awaited k := by
  unfold Awaited setClient
  dsimp only
  rw [Function.update_of_ne hk,Function.update_of_ne hk]

theorem Awaited.made (hk : b.Awaited k) : b.made k = 1 := by
  unfold SessionBus.made
  rcases hk with hk | hk
  · rw [if_pos hk]
  · rw [hk.2.2,ite_self]

/-- The new calls of an instance, each once. -/
theorem newCalls_count (hlt : ∀ r, b.made (i,r) < d.made (i,r) → r < (d.clients i).next)
    (k : CallId) : (b.newCalls d i).count k = if k.1 = i ∧ b.made k < d.made k then 1 else 0 := by
  have hinj : Function.Injective (fun r : RequestId => (i,r)) := fun r s h => (Prod.mk.inj h).2
  obtain ⟨j,r⟩ := k
  unfold newCalls
  by_cases hji : j = i
  · subst hji
    rw [List.count_map_of_injective _ _ hinj]
    by_cases hless : b.made (j,r) < d.made (j,r)
    · rw [List.count_filter (p:=fun r => decide (b.made (j,r) < d.made (j,r)))
        (decide_eq_true hless),if_pos ⟨rfl,hless⟩]
      exact List.count_eq_one_of_mem List.nodup_range (List.mem_range.mpr (hlt r hless))
    · rw [if_neg fun h => hless h.2]
      exact List.count_eq_zero.mpr fun hm =>
        hless (of_decide_eq_true (List.mem_filter.mp hm).2)
  · rw [if_neg fun h => hji h.1]
    refine List.count_eq_zero.mpr fun hm => ?_
    obtain ⟨x,-,hx⟩ := List.mem_map.mp hm
    exact hji (congrArg Prod.fst hx).symm

/-- A library makes calls for requests that had none, and waits for nothing else besides. -/
theorem Balanced.setClient (hb : Balanced held b) (hc : Inv c)
    (hblocked : ∀ r, w = some r → (c.requests r).live = true ∧ (c.requests r).finished = false ∧
      (c.requests r).cancelled = false)
    (hmade : ∀ r, b.made (i,r) ≤ (b.setClient i c w).made (i,r)) (hheld : ∀ k, held' k ≤ held k)
    (hkeep : ∀ k, (b.setClient i c w).Awaited k →
      b.made k = 0 ∨ b.Awaited k ∧ held' k = held k) :
    Balanced held' (b.setClient i c w) := by
  have hone : ∀ r, (b.setClient i c w).made (i,r) ≤ 1 := by
    intro r
    have hsent := (hc.placed r).proper.sent
    rw [setClient_made_self]
    split <;> omega
  have hlt : ∀ r, b.made (i,r) < (b.setClient i c w).made (i,r) →
      r < ((b.setClient i c w).clients i).next := by
    intro r hr
    change r < (Function.update b.clients i c i).next
    rw [Function.update_self]
    by_contra hge
    have hblank := hc.fresh r (not_lt.mp hge)
    have hnot : w ≠ some r := fun hw => by
      have hlive := (hblocked r hw).1
      rw [hblank] at hlive
      cases hlive
    rw [setClient_made_self,if_neg hnot,hblank] at hr
    exact absurd hr (Nat.not_lt_zero _)
  have hcalls : ∀ k, (b.setClient i c w).calls.count k+b.made k =
      b.calls.count k+(b.setClient i c w).made k := by
    intro k
    have hcount : (b.setClient i c w).calls.count k =
        b.calls.count k+(b.newCalls (b.setClient i c w) i).count k := List.count_append
    rw [hcount,newCalls_count hlt]
    obtain ⟨j,r⟩ := k
    by_cases hji : j = i
    · subst hji
      have hle := hmade r
      have hle' := hone r
      simp only [true_and]
      split <;> omega
    · rw [if_neg fun h => hji h.1,setClient_made_other (k:=(j,r)) hji]
      rfl
  refine ⟨fun j => ?_,hb.service,fun j r hj => ?_,hb.fresh,fun k => ?_,fun k => ?_,fun k hk => ?_⟩
  · change Inv (Function.update b.clients i c j)
    rw [Function.update_apply]
    split
    · exact hc
    · exact hb.clients j
  · change Function.update b.blocked i w j = some r at hj
    change ((Function.update b.clients i c j).requests r).live = true ∧
      ((Function.update b.clients i c j).requests r).finished = false ∧
        ((Function.update b.clients i c j).requests r).cancelled = false
    rw [Function.update_apply] at hj ⊢
    split_ifs at hj ⊢
    · exact hblocked r hj
    · exact hb.blocked j r hj
  · have honce := hb.once k
    have hc := hcalls k
    change _+b.handled k ≤ _
    omega
  · have hstages := hb.stages k
    have hc := hcalls k
    have hh := hheld k
    unfold SessionBus.stages at hstages ⊢
    change _+b.working k+b.returning k+_ ≤ _
    omega
  · have hstages := hb.stages k
    have hc := hcalls k
    have hh := hheld k
    have hmade' := hk.made
    unfold SessionBus.stages at hstages ⊢
    change _+b.working k+b.returning k+_ = 1
    rcases hkeep k hk with hzero | ⟨hold,hsame⟩
    · omega
    · have hstage := hb.awaited k hold
      have hmade := hold.made
      unfold SessionBus.stages at hstage
      omega

/-- What a library does without a reply. -/
theorem Balanced.inner {e : Client.Event} (hb : Balanced held b) (hblocked : b.blocked i = none)
    (hstep : library.step (b.clients i) e = some c) (he : ∀ r reply, ¬ e.Brings r reply) :
    Balanced held (b.setClient i c none) := by
  have hmade : ∀ r, b.made (i,r) = ((b.clients i).requests r).sent := fun r =>
    if_neg (by rw [hblocked]; exact nofun)
  refine hb.setClient (step_inv _ e c (hb.clients i) hstep) nofun (fun r => ?_) (fun _ => le_rfl)
    fun k hk => ?_
  · rw [setClient_made_self,if_neg nofun,hmade]
    cases step_turn (hb.clients i) hstep r with
    | kept hsent => exact hsent.ge
    | sent hq => exact hq ▸ Nat.zero_le _
    | answered hr => exact absurd hr (he r _)
  · obtain ⟨j,r⟩ := k
    by_cases hji : j = i
    · subst hji
      have hfly := ((setClient_awaited_self ..).mp hk).resolve_left nofun
      cases step_turn (hb.clients j) hstep r with
      | kept hsent hold => exact .inr ⟨.inr (hold hfly),rfl⟩
      | sent hq => exact .inl ((hmade r).trans hq)
      | answered hr => exact absurd hr (he r _)
    · exact .inr ⟨(setClient_awaited_other (k:=(j,r)) hji).mp hk,rfl⟩

/-- The application calls `waitForFinished()`; a request in the queue is sent at once. -/
theorem Balanced.wait {r : RequestId} (hb : Balanced held b) (hblocked : b.blocked i = none)
    (hr : ((b.clients i).requests r).live = true ∧ ((b.clients i).requests r).finished = false ∧
      ((b.clients i).requests r).cancelled = false) :
    Balanced held (b.setClient i (b.clients i) (some r)) := by
  have hmade : ∀ x, b.made (i,x) = ((b.clients i).requests x).sent := fun x =>
    if_neg (by rw [hblocked]; exact nofun)
  refine hb.setClient (hb.clients i) (fun x hx => ?_) (fun x => ?_) (fun _ => le_rfl)
    fun k hk => ?_
  · obtain rfl := Option.some.inj hx
    exact hr
  · have hsent := ((hb.clients i).placed x).proper.sent
    rw [setClient_made_self,hmade]
    split <;> omega
  · obtain ⟨j,x⟩ := k
    by_cases hji : j = i
    · subst hji
      rcases (setClient_awaited_self ..).mp hk with hx | hfly
      · obtain rfl := Option.some.inj hx
        rcases queued_or_inFlight ((hb.clients j).placed r).proper hr.1 hr.2.1 hr.2.2 with hq | hfly
        · exact .inl ((hmade r).trans hq.2.2.2)
        · exact .inr ⟨.inr hfly,rfl⟩
      · exact .inr ⟨.inr hfly,rfl⟩
    · exact .inr ⟨(setClient_awaited_other (k:=(j,x)) hji).mp hk,rfl⟩

/-- The request that a reply gets through to waits no more, and no other one is concerned. -/
theorem Balanced.receive {reply : Reply} (hb : Balanced held b) (hk : b.Awaits k)
    (hd : b.receive k reply = some d) (hheld : ∀ x, held' x ≤ held x)
    (hsame : ∀ x, x ≠ k → held' x = held x) : Balanced held' d := by
  obtain ⟨i,r⟩ := k
  obtain ⟨e,he,hblocked,c,hstep,rfl⟩ : ∃ e : Client.Event, e.Brings r reply ∧
      (b.blocked i = none ∧ e = .reply r reply ∨ b.blocked i = some r) ∧
      ∃ c, library.step (b.clients i) e = some c ∧ b.setClient i c none = d := by
    unfold SessionBus.receive at hd
    by_cases hbl : b.blocked i = some r
    · simp only [hbl,if_true] at hd
      obtain ⟨c,hc,hcd⟩ := Option.map_eq_some_iff.mp hd
      exact ⟨_,.inr rfl,.inr hbl,c,hc,hcd⟩
    · simp only [hbl,if_false] at hd
      obtain ⟨c,hc,hcd⟩ := Option.map_eq_some_iff.mp hd
      exact ⟨_,.inl rfl,.inl ⟨(hk.resolve_left hbl).1,rfl⟩,c,hc,hcd⟩
  have hinv := hb.clients i
  have hfin : ((b.clients i).requests r).finished = false := by
    rcases hk with hk | ⟨-,hlive,hwatch⟩
    · exact (hb.blocked i r hk).2.1
    · exact (inFlight_of_watcher (hinv.placed r).proper hlive hwatch).2.1
  have hnow := brought hinv hstep he hfin fun hwait => by
    rcases hblocked with ⟨-,hreply⟩ | hbl
    · cases hreply.symm.trans hwait
    · exact (hb.blocked i r hbl).2.2
  have hmade : ∀ x, x ≠ r → b.made (i,x) = ((b.clients i).requests x).sent := by
    intro x hx
    refine if_neg fun hbl => ?_
    rcases hblocked with ⟨hnone,-⟩ | hbl'
    · cases hnone.symm.trans hbl
    · exact hx (Option.some.inj (hbl.symm.trans hbl'))
  have hother : ∀ x reply', x ≠ r → ¬ e.Brings x reply' := by
    rintro x reply' hx (rfl | rfl) <;> rcases he with he | he <;> cases he <;> exact hx rfl
  refine hb.setClient (step_inv _ e c hinv hstep) nofun (fun x => ?_) hheld fun k hk => ?_
  · rw [setClient_made_self,if_neg nofun]
    by_cases hx : x = r
    · subst hx
      have hsent := (hinv.placed x).proper.sent
      rw [hnow.1]
      unfold SessionBus.made
      dsimp only
      split <;> omega
    · rw [hmade x hx]
      cases step_turn hinv hstep x with
      | kept hsent => exact hsent.ge
      | sent hq => exact hq ▸ Nat.zero_le _
      | answered hr => exact absurd hr (hother x _ hx)
  · obtain ⟨j,x⟩ := k
    by_cases hji : j = i
    · subst hji
      have hfly := ((setClient_awaited_self ..).mp hk).resolve_left nofun
      have hx : x ≠ r := fun hx => hnow.2 (hx ▸ hfly)
      cases step_turn hinv hstep x with
      | kept hsent hold =>
        exact .inr ⟨.inr (hold hfly),hsame _ fun h => hx (congrArg Prod.snd h)⟩
      | sent hq => exact .inl ((hmade x hx).trans hq)
      | answered hr => exact absurd hr (hother x _ hx)
    · exact .inr ⟨(setClient_awaited_other (k:=(j,x)) hji).mp hk,
        hsame _ fun h => hji (congrArg Prod.fst h)⟩

/-! ### The service -/

/-- The new effects, oldest first, give the new replies. -/
theorem setService_replies {t : Service} {es : List Service.Effect}
    (hlog : t.log = es ++ b.service.log) :
    (b.setService t).replies = b.replies ++ es.reverse.filterMap (answerOf b.message) := by
  have hlength : t.log.length-b.service.log.length = es.length := by
    rw [hlog,List.length_append]
    omega
  unfold setService
  dsimp only
  rw [hlength,hlog,List.take_left']
  rfl

theorem answerOf_none {a : Service.Effect} (message : ℕ → Option CallId)
    (ha : a.answers = none) : answerOf message a = none := by
  cases a with
  | sentThumbnail | sentError => cases ha
  | _ => rfl

theorem setService_quiet {t : Service} {es : List Service.Effect}
    (hlog : t.log = es ++ b.service.log) (hes : ∀ a ∈ es, a.answers = none) :
    (b.setService t).replies = b.replies := by
  rw [setService_replies hlog,List.filterMap_eq_nil_iff.mpr fun a ha =>
    answerOf_none b.message (hes a (List.mem_reverse.mp ha)),List.append_nil]

theorem setService_answer {t : Service} {es : List Service.Effect} {h : ℕ} {a : Service.Effect}
    (hlog : t.log = (.finished h :: a :: es) ++ b.service.log)
    (hes : ∀ a ∈ es, a.answers = none) :
    (b.setService t).replies = b.replies ++ (answerOf b.message a).toList := by
  have hnone : es.reverse.filterMap (answerOf b.message) = [] :=
    List.filterMap_eq_nil_iff.mpr fun a ha =>
      answerOf_none b.message (hes a (List.mem_reverse.mp ha))
  rw [setService_replies hlog,List.reverse_cons,List.reverse_cons,List.filterMap_append,
    List.filterMap_append,hnone,List.nil_append]
  have hfinished : answerOf b.message (.finished h) = none := rfl
  cases hanswer : answerOf b.message a with
  | none => simp [hanswer,hfinished]
  | some p => rw [List.filterMap_cons_some hanswer,List.filterMap_cons_none hfinished]; rfl

/-- An answer goes to the call that its handler is for. -/
theorem answerOf_count {a : Service.Effect} {h : ℕ} (message : ℕ → Option CallId)
    (ha : a.answers = some h) (k : CallId) :
    (answerOf message a).toList.countP (·.1 = k) = if message h = some k then 1 else 0 := by
  have hreply : ∀ reply : Reply, ((message h).map (·,reply)).toList.countP (·.1 = k) =
      if message h = some k then 1 else 0 := by
    intro reply
    cases message h with
    | none => rfl
    | some j => simp [List.countP_singleton]
  cases a with
  | sentThumbnail x ba =>
    obtain rfl := Option.some.inj ha
    exact hreply _
  | sentError x error =>
    obtain rfl := Option.some.inj ha
    exact hreply _
  | _ => cases ha

theorem card_insert_message {S : Finset ℕ} {n : ℕ} (hn : n ∉ S) (message : ℕ → Option CallId)
    (o : Option CallId) (k : CallId) :
    ((insert n S).filter fun h => Function.update message n o h = some k).card =
      (S.filter fun h => message h = some k).card+if o = some k then 1 else 0 := by
  have hsame : S.filter (fun h => Function.update message n o h = some k) =
      S.filter fun h => message h = some k := by
    refine Finset.filter_congr fun h hh => ?_
    rw [Function.update_of_ne (ne_of_mem_of_not_mem hh hn)]
  rw [Finset.filter_insert,hsame,Function.update_self]
  split
  · exact Finset.card_insert_of_notMem fun hm => hn (Finset.mem_of_mem_filter n hm)
  · rfl

/-- Calls and replies that only move, with the libraries left alone. -/
theorem Balanced.move (hb : Balanced held b) (hclients : d.clients = b.clients)
    (hblocked : d.blocked = b.blocked) (hservice : Service.Sound d.service)
    (hfresh : ∀ h, d.service.next ≤ h → d.message h = none)
    (honce : ∀ k, d.calls.count k+d.handled k ≤ b.calls.count k+b.handled k)
    (hstages : ∀ k, d.stages k+held' k = b.stages k+held k) : Balanced held' d := by
  have hmade : ∀ k, d.made k = b.made k := by
    intro k
    unfold made
    rw [hclients,hblocked]
  refine ⟨by rw [hclients]; exact hb.clients,hservice,by rw [hclients,hblocked]; exact hb.blocked,
    hfresh,fun k => ?_,fun k => ?_,fun k hk => ?_⟩
  · rw [hmade]
    exact (honce k).trans (hb.once k)
  · rw [hmade,hstages]
    exact hb.stages k
  · unfold Awaited at hk
    rw [hclients,hblocked] at hk
    rw [hstages]
    exact hb.awaited k hk

/-- The service goes on; a handler that answers turns its call into a reply. -/
theorem Balanced.serve {cfg : Service.Config} {e : Service.Event} {t : Service}
    (hb : Balanced held b) (ht : (Service.machine cfg).step b.service e = some t)
    (hc : ¬ e.arrives) : Balanced held (b.setService t) := by
  have hhandled : t.next = b.service.next → ∀ k, (b.setService t).handled k = b.handled k := by
    intro hnext k
    unfold handled
    rw [show (b.setService t).service.next = b.service.next from hnext]
    rfl
  have hstages : t.next = b.service.next ∧ ∀ k, (b.setService t).stages k = b.stages k := by
    cases (hb.service.transition_of_step ht).answering hb.service hc with
    | nobody hnext hrequests hes hlog =>
      refine ⟨hnext,fun k => ?_⟩
      have hreplies := setService_quiet hlog hes
      unfold SessionBus.stages working returning
      rw [hreplies,show (b.setService t).service.requests = b.service.requests from hrequests]
      rfl
    | @one h a es hnext hh ha hrequests hes hlog =>
      refine ⟨hnext,fun k => ?_⟩
      have hreplies := setService_answer hlog hes
      have hcount := answerOf_count b.message ha k
      have hworking := card_insert_message (Finset.notMem_erase h b.service.requests)
        b.message (b.message h) k
      rw [Finset.insert_erase hh,Function.update_eq_self] at hworking
      unfold SessionBus.stages working returning
      rw [hreplies,List.countP_append,hcount,
        show (b.setService t).service.requests = b.service.requests.erase h from hrequests]
      change b.calls.count k+((b.service.requests.erase h).filter fun x => b.message x = some k).card+
        _ = _
      omega
  refine hb.move rfl rfl (hb.service.step ht) (fun h hh => ?_) (fun k => ?_) fun k => ?_
  · exact hb.fresh h (hstages.1.symm.trans_le hh)
  · rw [hhandled hstages.1 k]
    rfl
  · rw [hstages.2 k]

/-- A handler whose message is `o` comes in. -/
theorem admitted_counts {t : Service} (hb : Balanced held b) (o : Option CallId)
    (hnext : t.next = b.service.next+1) (hrequests : t.requests = insert b.service.next b.service.requests)
    (hservice : d.service = t) (hmessage : d.message = Function.update b.message b.service.next o)
    (k : CallId) :
    d.handled k = b.handled k+(if o = some k then 1 else 0) ∧
      d.working k = b.working k+if o = some k then 1 else 0 := by
  have hnot : b.service.next ∉ b.service.requests := fun hm =>
    lt_irrefl _ ((hb.service.lifecycle.requests _).mp hm).1
  unfold handled working
  rw [hservice,hmessage,hnext,hrequests,Finset.range_add_one]
  exact ⟨card_insert_message Finset.notMem_range_self ..,card_insert_message hnot ..⟩

/-- Another peer calls the service. -/
theorem Balanced.stranger {cfg : Service.Config} {peer : Peer} {m : Service.Method} {size : QSize}
    {t : Service} (hb : Balanced held b)
    (ht : (Service.machine cfg).step b.service (.request peer m size) = some t) :
    Balanced held (b.setService t) := by
  have hreplies : (b.setService t).replies = b.replies := by
    cases Service.reception ht with
    | refused hmedia hnext hrequests hhandlers hlog => exact setService_quiet hlog (by simp; rfl)
    | admitted hmedia hnext hrequests hhandlers hlog => exact setService_quiet hlog (by simp; rfl)
  have hcounts : b.service.next ≤ t.next ∧ ∀ k, (b.setService t).handled k = b.handled k ∧
      (b.setService t).working k = b.working k := by
    cases Service.reception ht with
    | refused hmedia hnext hrequests hhandlers hlog =>
      refine ⟨hnext.ge,fun k => ?_⟩
      unfold handled working
      rw [show (b.setService t).service = t from rfl,hnext,hrequests]
      exact ⟨rfl,rfl⟩
    | admitted hmedia hnext hrequests hhandlers hlog =>
      have hnone := hb.fresh _ le_rfl
      refine ⟨by omega,fun k => ?_⟩
      have hmessage : (b.setService t).message =
          Function.update b.message b.service.next none := by
        rw [← hnone,Function.update_eq_self]
        rfl
      exact admitted_counts hb none hnext hrequests rfl hmessage k
  refine hb.move rfl rfl (hb.service.step ht) (fun h hh => ?_) (fun k => ?_) fun k => ?_
  · exact hb.fresh h (hcounts.1.trans hh)
  · rw [(hcounts.2 k).1]
    rfl
  · unfold SessionBus.stages returning
    rw [hreplies,(hcounts.2 k).2]
    rfl

/-- A call reaches the service. -/
theorem Balanced.dispatch {cfg : Service.Config} {peer : Peer} {m : Service.Method} {size : QSize}
    {t : Service} (hb : Balanced held b) (hk : k ∈ b.calls)
    (ht : (Service.machine cfg).step b.service (.request peer m size) = some t) :
    Balanced held ((b.accept k m).setService t) := by
  have hcalls : ∀ x, (b.calls.erase k).count x+(if k = x then 1 else 0) = b.calls.count x := by
    intro x
    have hpos := List.count_pos_iff.mpr hk
    rw [List.count_erase]
    by_cases hx : k = x
    · subst hx
      simp only [beq_self_eq_true,if_true]
      omega
    · simp [hx]
  have hcounts : b.service.next ≤ t.next ∧
      (∀ h, t.next ≤ h → ((b.accept k m).setService t).message h = none) ∧
      ((b.accept k m).setService t).calls = b.calls.erase k ∧
      ((b.accept k m).setService t).clients = b.clients ∧
      ((b.accept k m).setService t).blocked = b.blocked ∧
      ∀ x, ((b.accept k m).setService t).handled x ≤ b.handled x+(if k = x then 1 else 0) ∧
        ((b.accept k m).setService t).working x+((b.accept k m).setService t).returning x =
          b.working x+b.returning x+if k = x then 1 else 0 := by
    cases Service.reception ht with
    | @refused what hmedia hnext hrequests hhandlers hlog =>
      have hacc : b.accept k m = { b with
          calls := b.calls.erase k
          replies := b.replies ++ [(k,.error (m.refusal what))] } := by
        simp only [accept,hmedia]
      have hreplies : ((b.accept k m).setService t).replies =
          b.replies ++ [(k,.error (m.refusal what))] := by
        rw [hacc]
        exact setService_quiet (b:={ b with
          calls := b.calls.erase k
          replies := b.replies ++ [(k,.error (m.refusal what))] }) hlog (by simp; rfl)
      refine ⟨hnext.ge,fun h hh => ?_,?_,?_,?_,fun x => ?_⟩
      · rw [hacc]
        exact hb.fresh h (hnext.symm.trans_le hh)
      · rw [hacc]; rfl
      · rw [hacc]; rfl
      · rw [hacc]; rfl
      · unfold handled working returning
        rw [hreplies,show ((b.accept k m).setService t).service = t from rfl,hnext,hrequests,hacc]
        refine ⟨Nat.le_add_right _ _,?_⟩
        rw [List.countP_append,List.countP_singleton]
        simp only [decide_eq_true_eq]
        exact (Nat.add_assoc ..).symm
    | @admitted media hmedia hnext hrequests hhandlers hlog =>
      have hacc : b.accept k m = { b with
          calls := b.calls.erase k
          message := Function.update b.message b.service.next (some k) } := by
        simp only [accept,hmedia]
      have hreplies : ((b.accept k m).setService t).replies = b.replies := by
        rw [hacc]
        exact setService_quiet (b:={ b with
          calls := b.calls.erase k
          message := Function.update b.message b.service.next (some k) }) hlog (by simp; rfl)
      have hmessage : ((b.accept k m).setService t).message =
          Function.update b.message b.service.next (some k) := by
        rw [hacc]; rfl
      refine ⟨by omega,fun h hh => ?_,?_,?_,?_,fun x => ?_⟩
      · rw [hmessage,Function.update_of_ne (by omega)]
        exact hb.fresh h (by omega)
      · rw [hacc]; rfl
      · rw [hacc]; rfl
      · rw [hacc]; rfl
      · obtain ⟨hhandled,hworking⟩ := admitted_counts hb (some k) hnext hrequests
          (d:=(b.accept k m).setService t) rfl hmessage x
        simp only [Option.some.injEq] at hhandled hworking
        unfold returning
        rw [hreplies]
        omega
  obtain ⟨hnext,hfresh,hcalls',hclients,hblocked,hrest⟩ := hcounts
  refine hb.move hclients hblocked (hb.service.step ht) hfresh (fun x => ?_) fun x => ?_
  · have hc := hcalls x
    have hh := (hrest x).1
    rw [hcalls']
    omega
  · have hc := hcalls x
    have hr := (hrest x).2
    unfold SessionBus.stages
    rw [hcalls']
    omega

/-! ### Every step -/

/-- The reply that is found is taken off the bus. -/
theorem Balanced.taken {p : CallId × Reply} (hb : Balanced noReply b)
    (hp : b.replies.find? (·.1 = k) = some p) :
    Balanced (inHand k) (b.setReplies (b.replies.eraseP (·.1 = k))) := by
  have hfound := List.find?_some (p:=fun x : CallId × Reply => decide (x.1 = k)) hp
  obtain ⟨q,l₁,l₂,-,hq,hl,herase⟩ := List.exists_of_eraseP
    (p:=fun x : CallId × Reply => decide (x.1 = k)) (List.mem_of_find?_eq_some hp) hfound
  have hcount : ∀ x, (b.replies.eraseP (·.1 = k)).countP (·.1 = x)+inHand k x =
      b.replies.countP (·.1 = x) := by
    intro x
    rw [herase,hl,List.countP_append,List.countP_append,List.countP_cons,
      of_decide_eq_true hq]
    unfold inHand
    simp only [decide_eq_true_eq]
    omega
  refine hb.move rfl rfl hb.service hb.fresh (fun x => le_rfl) fun x => ?_
  have hc := hcount x
  unfold SessionBus.stages returning noReply
  change b.calls.count x+b.working x+(b.replies.eraseP (·.1 = k)).countP (·.1 = x)+_ = _
  omega

theorem Awaits.awaited (hb : Balanced held b) (hk : b.Awaits k) : b.Awaited k := by
  rcases hk with hk | ⟨-,hlive,hwatch⟩
  · exact .inl hk
  · exact .inr (inFlight_of_watcher ((hb.clients k.1).placed k.2).proper hlive hwatch)

/-- A request whose reply may be delivered, and that does not wait for one, waits for none. -/
theorem Balanced.not_awaited (hb : Balanced held b) (hblocked : b.blocked k.1 = none)
    (hk : ¬ b.Awaits k) : ¬ b.Awaited k := by
  rintro (hbl | hfly)
  · cases hblocked.symm.trans hbl
  · have hwaits := (waitsForReply_iff (hb.clients k.1).toCore).mpr hfly
    exact hk (.inr ⟨hblocked,hwaits.1,hwaits.2.2⟩)

/-- One case for each event. -/
theorem Balanced.step {cfg : Service.Config} {peer : Instance → Peer} {e : Event}
    (hb : Balanced noReply b) (hd : (machine cfg peer).step b e = some d) :
    Balanced noReply d := by
  cases e with
  | create i w size =>
    simp only [machine,SessionBus.step,Option.ite_none_right_eq_some,
      Option.map_eq_some_iff] at hd
    obtain ⟨hblocked,c,hc,rfl⟩ := hd
    have hwanted : Balanced noReply (b.setWanted (i,(b.clients i).next) w size) :=
      ⟨hb.clients,hb.service,hb.blocked,hb.fresh,hb.once,hb.stages,hb.awaited⟩
    exact hwanted.inner hblocked hc fun r reply hr => by rcases hr with hr | hr <;> cases hr
  | client i e =>
    simp only [machine,SessionBus.step,Option.ite_none_right_eq_some,
      Option.map_eq_some_iff] at hd
    obtain ⟨⟨hblocked,hinner⟩,c,hc,rfl⟩ := hd
    exact hb.inner hblocked hc fun r reply hr => by rcases hr with rfl | rfl <;> exact hinner
  | wait i r =>
    simp only [machine,SessionBus.step,Option.ite_none_right_eq_some,Option.some.injEq] at hd
    obtain ⟨⟨hblocked,hr⟩,rfl⟩ := hd
    exact hb.wait hblocked hr
  | dispatch k canonical file =>
    simp only [machine,SessionBus.step,Option.ite_none_right_eq_some,
      Option.map_eq_some_iff] at hd
    obtain ⟨hk,t,ht,rfl⟩ := hd
    exact hb.dispatch hk ht
  | service e =>
    simp only [machine,SessionBus.step,Option.map_eq_some_iff] at hd
    obtain ⟨t,ht,rfl⟩ := hd
    cases e with
    | request peer m size => exact hb.stranger ht
    | _ => exact hb.serve ht nofun
  | deliver k =>
    simp only [machine,SessionBus.step] at hd
    split at hd
    · rename_i p hp
      have htaken := hb.taken hp
      split_ifs at hd with hk hblocked
      · refine htaken.receive hk hd (fun x => Nat.zero_le _) fun x hx => ?_
        exact (if_neg (Ne.symm hx)).symm
      · obtain rfl := Option.some.inj hd
        have hnot := htaken.not_awaited hblocked hk
        refine ⟨htaken.clients,htaken.service,htaken.blocked,htaken.fresh,htaken.once,
          fun x => ?_,fun x hx => ?_⟩
        · exact (Nat.le_add_right _ _).trans (htaken.stages x)
        · have hx' : k ≠ x := fun h => hnot (h ▸ hx)
          have hstage := htaken.awaited x hx
          rwa [inHand,if_neg hx'] at hstage
    · cases hd
  | timeout k message =>
    simp only [machine,SessionBus.step,Option.ite_none_right_eq_some] at hd
    exact hb.receive hd.1 hd.2 (fun _ => le_rfl) fun _ _ => rfl

theorem Balanced.new (maxBacklog : Instance → { n : ℤ // 0 < n }) {service : Service}
    (hs : Service.Sound service) : Balanced noReply (new maxBacklog service) := by
  have hstages : ∀ k, (SessionBus.new maxBacklog service).stages k = 0 := by
    intro k
    have hnone : (SessionBus.new maxBacklog service).working k = 0 :=
      Finset.card_eq_zero.mpr (Finset.filter_eq_empty_iff.mpr fun _ _ => nofun)
    unfold SessionBus.stages
    rw [hnone]
    rfl
  have hhandled : ∀ k, (SessionBus.new maxBacklog service).handled k = 0 := fun k =>
    Finset.card_eq_zero.mpr (Finset.filter_eq_empty_iff.mpr fun _ _ => nofun)
  refine ⟨fun i => new_inv _ _,hs,nofun,fun _ _ => rfl,fun k => ?_,fun k => ?_,fun k hk => ?_⟩
  · rw [hhandled]
    exact Nat.zero_le _
  · rw [hstages]
    exact Nat.zero_le _
  · rcases hk with hk | hk
    · cases hk
    · cases hk.1

end
end SessionBus
end UnityThumbnailer
