import UnityThumbnailer.RequestChains

/-! Requests for one key are served one after the other. A handler begins when its key has
no other unfinished handler, or when the unfinished one before it emits `finished`; so as
long as `begin()` never answers, beginnings and answers keep the order of arrival. -/
namespace UnityThumbnailer
namespace Service

/-- No handler finishes inside of its own `begin()`. -/
def BeginsQuietly (cfg : Config) (s : Service) (e : Event) : Prop :=
  match e,s.calls with
  | .call _,.begin h :: _ => ¬ AnswersInBegin cfg s h
  | _,_ => True

instance (cfg : Config) (s : Service) : ∀ e, Decidable (BeginsQuietly cfg s e)
  | .call _ =>
    decidable_of_iff (∀ h ∈ s.calls.head?.bind Call.begins, ¬ AnswersInBegin cfg s h) (by
      unfold BeginsQuietly
      rcases s.calls with _ | ⟨c,rest⟩
      · simp
      · cases c <;> simp [Call.begins])
  | .request .. | .credentialsReply .. | .checkFinished _ | .downloadComplete .. | .createFinished _
  | .delete _ | .check .. | .create .. | .evict .. => .isTrue trivial

/-- The handlers have arrived, in this order, with requests for one key. -/
def InLine (past : List Effect) (x y : ℕ) : Prop :=
  x < y ∧ ∃ p m q n, .arrived x p m ∈ past ∧ .arrived y q n ∈ past ∧ m.key = n.key

/-- Handlers of a key begin when those before them have finished, and answer after them. -/
def InOrder (past : List Effect) : Effect → Prop
  | .began y => ∀ x, InLine past x y → .began x ∈ past ∧ .finished x ∈ past
  | .sentThumbnail y _ | .sentError y _ =>
    ∀ x, InLine past x y → (∃ ba, .sentThumbnail x ba ∈ past) ∨ ∃ text, .sentError x text ∈ past
  | _ => True

/-- The handler has begun and not finished. -/
def Running (s : Service) (x : ℕ) : Prop := .began x ∈ s.log ∧ .finished x ∉ s.log

structure Serialized (s : Service) : Prop where
  one : ∀ x y, s.Running x → s.Running y → (s.handlers x).key = (s.handlers y).key → x = y
  order : EventSystem.Justified InOrder s.log
  answersOnce : ∀ x, s.answered.count x ≤ 1
  finishesOnce : ∀ x, s.ended.count x ≤ 1

/-- Who has begun or is about to is the first unfinished handler of its key, and every
connection that is still to fire leads to the next one. -/
structure Serial (s : Service) : Prop where
  heads : ∀ y, y ∈ s.calls.filterMap Call.begins ∨ y ∈ s.begun →
    ∀ x < y, (s.handlers x).key = (s.handlers y).key → x ∈ s.ended
  links : ∀ c ∈ s.connections, c.1 ∉ s.ended → c.1 < c.2 ∧ c.2 < s.next ∧
    (s.handlers c.1).key = (s.handlers c.2).key ∧
    ∀ x < c.2, (s.handlers x).key = (s.handlers c.2).key → x ∉ s.ended → x ≤ c.1
  arrivals : ∀ x p m, .arrived x p m ∈ s.log → x < s.next ∧ (s.handlers x).request.media = m
  order : EventSystem.Justified InOrder s.log

section

variable {cfg : Config} {e : Event} {s t : Service} {h : ℕ}

theorem mem_ended {x : ℕ} : x ∈ s.ended ↔ .finished x ∈ s.log := by
  unfold ended
  rw [List.mem_filterMap]
  constructor
  · rintro ⟨e,he,hx⟩
    cases e <;> simp_all [Effect.finishes]
  · exact fun hx => ⟨_,hx,rfl⟩

theorem mem_begun {x : ℕ} : x ∈ s.begun ↔ .began x ∈ s.log := by
  unfold begun
  rw [List.mem_filterMap]
  constructor
  · rintro ⟨e,he,hx⟩
    cases e <;> simp_all [Effect.begins]
  · exact fun hx => ⟨_,hx,rfl⟩

theorem mem_answered {x : ℕ} (hx : x ∈ s.answered) :
    (∃ ba, .sentThumbnail x ba ∈ s.log) ∨ ∃ text, .sentError x text ∈ s.log := by
  obtain ⟨e,he,hxe⟩ := List.mem_filterMap.mp hx
  cases e with
  | sentThumbnail y ba =>
    obtain rfl : y = x := Option.some.inj hxe
    exact Or.inl ⟨ba,he⟩
  | sentError y text =>
    obtain rfl : y = x := Option.some.inj hxe
    exact Or.inr ⟨text,he⟩
  | _ => cases hxe

theorem Serial.key_of_inLine (hs : Serial s) {x y : ℕ} (hxy : InLine s.log x y) :
    x < y ∧ (s.handlers x).key = (s.handlers y).key := by
  obtain ⟨hlt,p,m,q,n,hx,hy,hkey⟩ := hxy
  refine ⟨hlt,?_⟩
  change (s.handlers x).request.media.key = (s.handlers y).request.media.key
  rw [(hs.arrivals x p m hx).2,(hs.arrivals y q n hy).2,hkey]

theorem Serial.serialized (hs : Serial s) (hl : Lifecycle nothing s) : Serialized s where
  one x y hx hy hkey := by
    rcases Nat.lt_trichotomy x y with hlt | heq | hlt
    · exact absurd (mem_ended.mp (hs.heads y (.inr (mem_begun.mpr hy.1)) x hlt hkey)) hx.2
    · exact heq
    · exact absurd (mem_ended.mp (hs.heads x (.inr (mem_begun.mpr hx.1)) y hlt hkey.symm)) hy.2
  order := hs.order
  answersOnce x := by
    rw [hl.answers]
    exact hl.ended_le x
  finishesOnce := hl.ended_le

/-- Quiet effects are in order whatever happened before. -/
theorem inOrder_quiet {past es : List Effect} (hes : ∀ e ∈ es, Effect.quiet e = true)
    (hp : EventSystem.Justified InOrder past) : EventSystem.Justified InOrder (es ++ past) := by
  induction es with
  | nil => exact hp
  | cons e es ih =>
    refine ⟨?_,ih fun a ha => hes a (List.mem_cons_of_mem _ ha)⟩
    have he := hes e List.mem_cons_self
    cases e <;> simp_all [InOrder,Effect.quiet]

theorem Serial.moves (hs : Serial s) (hq : Moves s t) : Serial t where
  heads y hy x hx hkey := by
    rw [hq.begins,hq.begun] at hy
    rw [hq.key,hq.key] at hkey
    rw [hq.ended]
    exact hs.heads y hy x hx hkey
  links c hc hlive := by
    rw [hq.connections] at hc
    rw [hq.ended] at hlive
    simp only [hq.key,hq.ended,hq.next]
    exact hs.links c hc hlive
  arrivals x p m hm := by
    obtain ⟨es,hes,hlog⟩ := hq.log
    rw [hlog] at hm
    rcases List.mem_append.mp hm with hn | ho
    · cases hes _ hn
    · rw [hq.next,hq.media]
      exact hs.arrivals x p m ho
  order := by
    obtain ⟨es,hes,hlog⟩ := hq.log
    rw [hlog]
    exact inOrder_quiet hes hs.order

theorem Serial.begin {rest : List Call} (hs : Serial s) (hl : Lifecycle nothing s)
    (hcalls : s.calls = .begin h :: rest) :
    Serial ((s.setCalls rest).note (.began h)) := by
  have hbegins : s.calls.filterMap Call.begins = h :: rest.filterMap Call.begins := by
    rw [hcalls]
    exact List.filterMap_cons_some rfl
  have hbegun : ((s.setCalls rest).note (.began h)).begun = h :: s.begun :=
    List.filterMap_cons_some rfl
  have hended : ((s.setCalls rest).note (.began h)).ended = s.ended := List.filterMap_cons_none rfl
  have hhead := hs.heads h (.inl (by rw [hbegins]; exact List.mem_cons_self))
  refine ⟨fun y hy x hx hkey => ?_,fun c hc hlive => ?_,fun x p m hm => ?_,?_,hs.order⟩
  · rw [hended]
    rw [hbegun] at hy
    rcases hy with hy | hy
    · exact hs.heads y (.inl (by rw [hbegins]; exact List.mem_cons_of_mem _ hy)) x hx hkey
    · rcases List.mem_cons.mp hy with rfl | hy
      · exact hhead x hx hkey
      · exact hs.heads y (.inr hy) x hx hkey
  · rw [hended] at hlive ⊢
    exact hs.links c hc hlive
  · rcases List.mem_cons.mp hm with hcon | hold
    · cases hcon
    · exact hs.arrivals x p m hold
  · intro x hxy
    obtain ⟨hlt,hkey⟩ := hs.key_of_inLine hxy
    have hended := hhead x hlt hkey
    have hpos := List.count_pos_iff.mpr hended
    have hworks := hl.works x
    have hb : x ∈ s.begun := List.count_pos_iff.mp (by omega)
    exact ⟨mem_begun.mp hb,mem_ended.mp hended⟩

/-- An answer lets the next handler of the key begin, and no other. -/
theorem Serial.answer {a : Effect} (hs : Serial s) (hl : Lifecycle (token h) s)
    (ha : a.answers = some h) : Serial ((s.note a).emitFinished h) := by
  have hheld : token h h = 1 := if_pos rfl
  obtain ⟨hbegun,hended,-,-⟩ := hl.unfinished (x:=h) (by omega)
  have hbegunMem : h ∈ s.begun := List.count_pos_iff.mp (by omega)
  have hnot : h ∉ s.ended := List.count_eq_zero.mp hended
  have hen := answer_ended (s:=s) ha
  have hheads := hs.heads h (.inr hbegunMem)
  refine ⟨fun y hy x hx hkey => ?_,fun c hc hlive => ?_,fun x p m hm => ?_,trivial,?_,hs.order⟩
  · rw [answer_begins,answer_begun ha] at hy
    rw [hen]
    have hold : y ∈ s.calls.filterMap Call.begins ∨ y ∈ s.begun ∨ (h,y) ∈ s.connections := by
      rcases hy with hy | hy
      · rcases List.mem_append.mp hy with hy | hy
        · obtain ⟨⟨a,b⟩,hab,rfl⟩ := List.mem_map.mp hy
          obtain ⟨hmem,heq⟩ := List.mem_filter.mp hab
          obtain rfl : a = h := by simpa using heq
          exact .inr (.inr hmem)
        · exact .inl hy
      · exact .inr (.inl hy)
    rcases hold with hold | hold | hlink
    · exact List.mem_cons_of_mem _ (hs.heads y (.inl hold) x hx hkey)
    · exact List.mem_cons_of_mem _ (hs.heads y (.inr hold) x hx hkey)
    · obtain ⟨-,-,hkeys,hlast⟩ := hs.links (h,y) hlink hnot
      by_cases hxe : x ∈ s.ended
      · exact List.mem_cons_of_mem _ hxe
      · have hle : x ≤ h := hlast x hx hkey hxe
        rcases Nat.lt_or_eq_of_le hle with hlt | heq
        · exact absurd (hheads x hlt (hkey.trans hkeys.symm)) hxe
        · rw [heq]
          exact List.mem_cons_self
  · rw [hen] at hlive ⊢
    obtain ⟨hlt,hnext,hkeys,hlast⟩ := hs.links c hc fun hm => hlive (List.mem_cons_of_mem _ hm)
    exact ⟨hlt,hnext,hkeys,fun x hx hkey hxe =>
      hlast x hx hkey fun hm => hxe (List.mem_cons_of_mem _ hm)⟩
  · have hold : .arrived x p m ∈ s.log := by
      rcases List.mem_cons.mp hm with hcon | hm
      · cases hcon
      · rcases List.mem_cons.mp hm with hcon | hm
        · rw [← hcon] at ha
          cases ha
        · exact hm
    exact hs.arrivals x p m hold
  · have hbefore : ∀ x, InLine s.log x h → (∃ ba, .sentThumbnail x ba ∈ s.log) ∨
        ∃ text, .sentError x text ∈ s.log := by
      intro x hxy
      obtain ⟨hlt,hkey⟩ := hs.key_of_inLine hxy
      have hpos := List.count_pos_iff.mpr (hheads x hlt hkey)
      rw [← hl.answers] at hpos
      exact mem_answered (List.count_pos_iff.mp hpos)
    cases a with
    | sentThumbnail y ba =>
      obtain rfl : y = h := Option.some.inj ha
      exact hbefore
    | sentError y text =>
      obtain rfl : y = h := Option.some.inj ha
      exact hbefore
    | _ => cases ha

/-- The handler that a new one is chained to is the newest unfinished one of the key. -/
theorem last_unfinished {key : String} {last : ℕ} (hlast : (s.unfinished key).getLast? = some last) :
    last ∈ s.unfinished key ∧ ∀ x ∈ s.unfinished key, x ≤ last := by
  obtain ⟨ys,hys⟩ := List.getLast?_eq_some_iff.mp hlast
  have hsorted : (s.unfinished key).Pairwise (· < ·) := List.pairwise_lt_range.filter _
  rw [hys] at hsorted ⊢
  refine ⟨List.mem_append_right _ List.mem_cons_self,fun x hx => ?_⟩
  rcases List.mem_append.mp hx with hx | hx
  · exact Nat.le_of_lt ((List.pairwise_append.mp hsorted).2.2 x hx last List.mem_cons_self)
  · exact Nat.le_of_eq (List.mem_singleton.mp hx)

/-- What an arrival does to the chains: the handler begins at once if it is the only
unfinished one of its key, and is otherwise chained to the newest of them. -/
theorem Chained.arrive_cases {x : Handler} {peer : Peer} {media : Media} (hc : Chained s)
    (hidle : s.calls = [])
    (ht : ((s.register x).note (.arrived s.next peer media)).queueRequest s.next = t) :
    (s.unfinished x.key = [] ∧ t.calls.filterMap Call.begins = [s.next] ∧
      t.connections = s.connections) ∨
    ∃ last, (s.unfinished x.key).getLast? = some last ∧ t.calls.filterMap Call.begins = [] ∧
      t.connections = s.connections ++ [(last,s.next)] := by
  have hpushes : s.pushes = [] := by
    unfold pushes
    rw [hidle]
    rfl
  have hlisted : (((s.register x).note (.arrived s.next peer media)).keyEntry
      (((s.register x).note (.arrived s.next peer media)).handlers s.next).key).handlers =
        s.unfinished x.key := by
    change (s.keyEntry ((Function.update s.handlers s.next x) s.next).key).handlers = _
    rw [Function.update_self]
    exact hc.keyEntry_handlers hpushes _
  rcases queueRequest_cases ((s.register x).note (.arrived s.next peer media)) s.next with
    ⟨hnone,hq⟩ | ⟨last,hlast,hq⟩ <;> rw [ht] at hq <;> subst hq
  · rw [hlisted] at hnone
    refine .inl ⟨hnone,?_,rfl⟩
    change (Call.begin s.next :: .pushBack s.next _ :: s.calls).filterMap Call.begins = _
    rw [hidle]
    rfl
  · rw [hlisted] at hlast
    refine .inr ⟨last,hlast,?_,rfl⟩
    change (Call.pushBack s.next _ :: s.calls).filterMap Call.begins = _
    rw [hidle]
    rfl

theorem Serial.arrive {x : Handler} {peer : Peer} (hs : Serial s) (hl : Lifecycle nothing s)
    (hc : Chained s) (hidle : s.calls = []) :
    Serial (((s.register x).note (.arrived s.next peer x.request.media)).queueRequest s.next) := by
  have hbegun := arrived_begun s x peer x.request.media
  have hended := arrived_ended s x peer x.request.media
  have hhandlers := queueRequest_handlers
    ((s.register x).note (.arrived s.next peer x.request.media)) s.next
  have hnext := queueRequest_next
    ((s.register x).note (.arrived s.next peer x.request.media)) s.next
  have hlog := queueRequest_log
    ((s.register x).note (.arrived s.next peer x.request.media)) s.next
  have hcases := @hc.arrive_cases _ _ x peer x.request.media hidle rfl
  generalize ((s.register x).note (.arrived s.next peer x.request.media)).queueRequest s.next = t
    at hbegun hended hhandlers hnext hlog hcases ⊢
  have hself : t.handlers s.next = x := by
    rw [hhandlers]
    exact Function.update_self ..
  have hother : ∀ y, y < s.next → t.handlers y = s.handlers y := fun y hy => by
    rw [hhandlers]
    exact Function.update_of_ne (Nat.ne_of_lt hy) ..
  refine ⟨fun y hy z hz hkey => ?_,fun c hcm hlive => ?_,fun y q m hm => ?_,?_⟩
  · rw [hended]
    rw [hbegun] at hy
    rcases hy with hy | hy
    · rcases hcases with ⟨hnone,hbegins,-⟩ | ⟨last,-,hbegins,-⟩ <;> rw [hbegins] at hy
      · -- the first handler of its key begins at once
        obtain rfl := List.mem_singleton.mp hy
        rw [hself,hother z hz] at hkey
        by_contra hze
        have hmem : z ∈ s.unfinished x.key := mem_unfinished.mpr ⟨hz,hze,hkey⟩
        rw [hnone] at hmem
        cases hmem
      · cases hy
    · have hyn : y < s.next := hl.known (Nat.add_pos_right _ (List.count_pos_iff.mpr hy))
      rw [hother y hyn,hother z (Nat.lt_trans hz hyn)] at hkey
      exact hs.heads y (.inr hy) z hz hkey
  · rw [hended] at hlive ⊢
    have hold : c ∈ s.connections → c.1 < c.2 ∧ c.2 < t.next ∧
        (t.handlers c.1).key = (t.handlers c.2).key ∧
        ∀ z < c.2, (t.handlers z).key = (t.handlers c.2).key → z ∉ s.ended → z ≤ c.1 := by
      intro hcm
      obtain ⟨hlt,hn,hkey,hlast⟩ := hs.links c hcm hlive
      rw [hother c.2 hn,hother c.1 (Nat.lt_trans hlt hn)]
      refine ⟨hlt,hnext ▸ Nat.lt_succ_of_lt hn,hkey,fun z hz hzk hze => ?_⟩
      rw [hother z (Nat.lt_trans hz hn)] at hzk
      exact hlast z hz hzk hze
    rcases hcases with ⟨-,-,hconnections⟩ | ⟨last,hlast,-,hconnections⟩ <;>
      rw [hconnections] at hcm
    · exact hold hcm
    · -- a later one waits for the newest unfinished one
      rcases List.mem_append.mp hcm with hcm | hcm
      · exact hold hcm
      · obtain rfl := List.mem_singleton.mp hcm
        obtain ⟨hmem,hmax⟩ := last_unfinished hlast
        obtain ⟨hltn,-,hlastKey⟩ := mem_unfinished.mp hmem
        simp only [hself,hother last hltn]
        refine ⟨hltn,hnext ▸ Nat.lt_succ_self _,hlastKey,fun z hz hzk hze => ?_⟩
        rw [hother z hz] at hzk
        exact hmax z (mem_unfinished.mpr ⟨hz,hze,hzk⟩)
  · rw [hlog] at hm
    rw [hnext]
    rcases List.mem_cons.mp hm with heq | hm
    · cases heq
      exact ⟨Nat.lt_succ_self _,by rw [hself]⟩
    · obtain ⟨hlt,hmedia⟩ := hs.arrivals y q m hm
      exact ⟨Nat.lt_succ_of_lt hlt,by rw [hother y hlt]; exact hmedia⟩
  · rw [hlog]
    exact ⟨trivial,hs.order⟩

theorem Serial.delete (hs : Serial s) : Serial (s.delete h) := by
  have hmedia : ∀ x, ((s.delete h).handlers x).request.media = (s.handlers x).request.media := by
    intro x
    change ((Function.update s.handlers h (s.handlers h).cancel) x).request.media = _
    by_cases hx : x = h
    · subst hx
      rw [Function.update_self]
      rfl
    · rw [Function.update_of_ne hx]
  have hkey : ∀ x, ((s.delete h).handlers x).key = (s.handlers x).key := fun x =>
    congrArg Media.key (hmedia x)
  refine ⟨fun y hy x hx hxk => ?_,fun c hcm hlive => ?_,fun x p m hm => ?_,hs.order⟩
  · rw [hkey,hkey] at hxk
    exact hs.heads y hy x hx hxk
  · simp only [hkey]
    exact hs.links c (List.mem_filter.mp hcm).1 hlive
  · rw [hmedia]
    exact hs.arrivals x p m hm

theorem Serial.milestone (hs : Serial s) (hl : Lifecycle nothing s) (hc : Chained s)
    (hm : Milestone cfg s e t) (hquiet : BeginsQuietly cfg s e) : Serial t := by
  cases hm with
  | quiet hq => exact hs.moves hq.toMoves
  | arrived hidle hmedia => exact hs.arrive hl hc hidle
  | began hcalls hq => exact (hs.begin hl hcalls).moves hq.toMoves
  | answered hpushes hq hlu ha => exact (hs.moves hq.toMoves).answer hlu ha
  | begunAnswered hcalls hknown hdenied hq hlu ha =>
    simp only [BeginsQuietly,hcalls] at hquiet
    exact absurd ⟨_,hknown,hdenied⟩ hquiet
  | pushed hcalls => exact hs.moves ((Moves.pop hcalls rfl).trans (Moves.pushBack _ _ _).1)
  | deleted hidle hd => exact hs.delete

theorem BeginsQuietly.queues (hquiet : BeginsQuietly cfg s e) : QueuesQuietly cfg s e := by
  unfold BeginsQuietly at hquiet
  unfold QueuesQuietly
  split
  · rename_i hcalls
    simp only [hcalls] at hquiet
    exact fun _ => hquiet
  · trivial

theorem serial_step (hs : Sound s ∧ Chained s ∧ Serial s) (hquiet : BeginsQuietly cfg s e)
    (ht : (machine cfg).step s e = some t) : Sound t ∧ Chained t ∧ Serial t := by
  have htr := hs.1.transition_of_step ht
  obtain ⟨hsound,hchained⟩ := chained_step ⟨hs.1,hs.2.1⟩ hquiet.queues ht
  exact ⟨hsound,hchained,hs.2.2.milestone hs.1.lifecycle hs.2.1
    (htr.milestone hs.1.lifecycle hs.1.stacked).1 hquiet⟩

end

theorem Serial.new (apparmorEnabled : Bool) (maxDownloads maxExtractions : ℤ)
    (hd : 0 < maxDownloads) (he : 0 < maxExtractions) (thumbnailer : Thumbnailer) :
    Serial (new apparmorEnabled maxDownloads maxExtractions hd he thumbnailer) := by
  refine ⟨fun y hy => ?_,fun c hc => ?_,fun x p m hm => ?_,trivial⟩
  · rcases hy with hy | hy <;> cases hy
  · cases hc
  · cases hm

/-- Same-key requests are served one at a time and answered once each, in the order of
their arrival, as long as no handler finishes inside of its own `begin()`. -/
theorem sameKey_serialized (cfg : Config) (apparmorEnabled : Bool)
    (maxDownloads maxExtractions : ℤ) (hd : 0 < maxDownloads) (he : 0 < maxExtractions)
    (thumbnailer : Thumbnailer) (es : List Event)
    (hquiet : (machine cfg).AllSteps (BeginsQuietly cfg)
      (new apparmorEnabled maxDownloads maxExtractions hd he thumbnailer) es) :
    (machine cfg).Always Serialized
      (new apparmorEnabled maxDownloads maxExtractions hd he thumbnailer) es :=
  have hstep : ∀ s e t, Sound s ∧ Chained s ∧ Serial s → BeginsQuietly cfg s e →
      (machine cfg).step s e = some t → Sound t ∧ Chained t ∧ Serial t := fun _ _ _ => serial_step
  EventSystem.Machine.always_of_guarded hstep (fun _ hs => hs.2.2.serialized hs.1.lifecycle)
    ⟨.new apparmorEnabled maxDownloads maxExtractions hd he thumbnailer,
      .new apparmorEnabled maxDownloads maxExtractions hd he thumbnailer,
      .new apparmorEnabled maxDownloads maxExtractions hd he thumbnailer⟩ hquiet

theorem sameKey_serialized_two :
    (machine superuser).AllSteps (BeginsQuietly superuser) started
        [cover ":1.1",go,go,cover ":1.2",go,.credentialsReply ":1.1" .error,go,go,go] ∧
      (machine superuser).Always Serialized started
        [cover ":1.1",go,go,cover ":1.2",go,.credentialsReply ":1.1" .error,go,go,go] :=
  have hquiet : (machine superuser).AllSteps (BeginsQuietly superuser) started
      [cover ":1.1",go,go,cover ":1.2",go,.credentialsReply ":1.1" .error,go,go,go] := by
    decide
  ⟨hquiet,sameKey_serialized superuser true 2 2 (by decide) (by decide) _ _ hquiet⟩

end Service
end UnityThumbnailer
