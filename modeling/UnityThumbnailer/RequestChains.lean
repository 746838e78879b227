import UnityThumbnailer.Milestone

/-! The handlers of a key, as `request_keys_` lists them. The vector of a key is what is
left of the arrivals for it, unless a handler answers inside of the `begin()` that its own
`queueRequest()` calls: then the vector goes while `queueRequest()` still refers to it. -/
namespace UnityThumbnailer
namespace Service

/-- The handlers of a key that have not emitted `finished`, in the order of arrival. -/
def unfinished (s : Service) (key : String) : List ℕ :=
  (List.range s.next).filter fun x => x ∉ s.ended ∧ (s.handlers x).key = key

def pushes (s : Service) : List (ℕ × ℕ) := s.calls.filterMap Call.pushes

/-- The handlers whose `queueRequest()` has not returned. -/
def queueing (s : Service) : List ℕ := s.pushes.map Prod.fst

/-- The credentials of the peer are known, and the handler's check does not accept them. -/
def AnswersInBegin (cfg : Config) (s : Service) (h : ℕ) : Prop :=
  ∃ c ∈ s.credentials.cached (s.handlers h).peer, ¬ Cleared cfg (s.handlers h) c

instance (cfg : Config) (s : Service) (h : ℕ) : Decidable (AnswersInBegin cfg s h) :=
  inferInstanceAs (Decidable (∃ c ∈ _, _))

/-- When `queueRequest()` calls `begin()`, that does not answer the request. -/
def QueuesQuietly (cfg : Config) (s : Service) (e : Event) : Prop :=
  match e,s.calls with
  | .call _,.begin h :: _ => h ∈ s.queueing → ¬ AnswersInBegin cfg s h
  | _,_ => True

instance (cfg : Config) (s : Service) (e : Event) : Decidable (QueuesQuietly cfg s e) := by
  unfold QueuesQuietly
  split <;> infer_instance

/-- What `requests_` and `request_keys_` are, between the calls of `queueRequest()`. -/
structure ChainsMatch (s : Service) : Prop where
  /-- No call of `queueRequest()` used a vector that had been erased. -/
  fresh : s.staleAccess = false
  requests : s.queueing = [] → ∀ x, x ∈ s.requests ↔ x < s.next ∧ x ∉ s.ended
  missing : s.queueing = [] → ∀ key, s.requestKeys key = none ↔ s.unfinished key = []
  listed : s.queueing = [] → ∀ key, ∀ e ∈ s.requestKeys key, e.handlers = s.unfinished key

/-- The map while `queueRequest()` may be under way: its handler comes last, and the vector
that it refers to is still there. -/
structure Chained (s : Service) : Prop where
  fresh : s.staleAccess = false
  pushing : s.pushes = [] ∨ ∃ h ref, s.pushes = [(h,ref)] ∧
    (s.calls.filterMap Call.begins = [] ∨ s.calls.filterMap Call.begins = [h])
  missing : ∀ key, s.requestKeys key = none → s.unfinished key = [] ∧
    ∀ p ∈ s.pushes, (s.handlers p.1).key ≠ key
  listed : ∀ key, ∀ e ∈ s.requestKeys key, s.unfinished key ≠ [] ∧
    s.unfinished key = e.handlers ++ (s.pushes.filter fun p => (s.handlers p.1).key = key).map
      Prod.fst ∧ ∀ p ∈ s.pushes, (s.handlers p.1).key = key → p.2 = e.ref

section

variable {cfg : Config} {e : Event} {s t : Service} {h : ℕ}

theorem mem_unfinished {x : ℕ} {key : String} :
    x ∈ s.unfinished key ↔ x < s.next ∧ x ∉ s.ended ∧ (s.handlers x).key = key := by
  simp [unfinished]

theorem Moves.unfinished (hq : Moves s t) (key : String) : t.unfinished key = s.unfinished key := by
  unfold Service.unfinished
  rw [hq.next]
  refine List.filter_congr fun x _ => ?_
  rw [hq.ended,hq.key]

theorem Chained.matches (hc : Chained s) (hl : Lifecycle nothing s) : ChainsMatch s where
  fresh := hc.fresh
  requests _ x := by
    rw [hl.requests x,List.count_eq_zero]
  missing hq key := by
    have hp : s.pushes = [] := List.map_eq_nil_iff.mp hq
    refine ⟨fun hn => (hc.missing key hn).1,fun hu => ?_⟩
    cases he : s.requestKeys key with
    | none => rfl
    | some e => exact absurd hu (hc.listed key e he).1
  listed hq key e he := by
    have hp : s.pushes = [] := List.map_eq_nil_iff.mp hq
    have hu := (hc.listed key e he).2.1
    rw [hp] at hu
    simpa using hu.symm

/-- What the map must be does not depend on anything that quiet steps change. -/
theorem Chained.of_same (hc : Chained s) (hstale : t.staleAccess = s.staleAccess)
    (hkeys : t.requestKeys = s.requestKeys) (hpushes : t.pushes = s.pushes)
    (hbegins : t.calls.filterMap Call.begins = s.calls.filterMap Call.begins ∨
      t.calls.filterMap Call.begins = [] ∨ s.pushes = [])
    (hunfinished : ∀ key, t.unfinished key = s.unfinished key)
    (hkey : ∀ x, (t.handlers x).key = (s.handlers x).key) : Chained t where
  fresh := hstale.trans hc.fresh
  pushing := by
    rw [hpushes]
    rcases hc.pushing with hp | ⟨h,ref,hp,hb⟩
    · exact Or.inl hp
    · refine Or.inr ⟨h,ref,hp,?_⟩
      rcases hbegins with hs | hn | hn
      · rw [hs]
        exact hb
      · exact Or.inl hn
      · rw [hn] at hp
        cases hp
  missing key hn := by
    rw [hpushes,hunfinished]
    simp only [hkey]
    exact hc.missing key (hkeys ▸ hn)
  listed key e he := by
    rw [hpushes,hunfinished]
    simp only [hkey]
    exact hc.listed key e (hkeys ▸ he)

theorem Chained.quiet (hc : Chained s) (hq : Quiet s t) : Chained t :=
  hc.of_same hq.staleAccess hq.requestKeys hq.pushes (Or.inl hq.begins) hq.unfinished hq.key

/-- `begin()` is called: its handler counts among the unfinished ones before and after. -/
theorem Chained.begin {rest : List Call} (hc : Chained s) (hcalls : s.calls = .begin h :: rest) :
    Chained ((s.setCalls rest).note (.began h)) := by
  have hbegins : s.calls.filterMap Call.begins = h :: rest.filterMap Call.begins := by
    rw [hcalls]
    exact List.filterMap_cons_some rfl
  refine hc.of_same rfl rfl ?_ ?_ (fun key => ?_) fun x => rfl
  · change rest.filterMap Call.pushes = s.calls.filterMap Call.pushes
    rw [hcalls,List.filterMap_cons_none rfl]
  · rcases hc.pushing with hp | ⟨y,ref,-,hb⟩
    · exact Or.inr (Or.inr hp)
    · right; left
      rw [hbegins] at hb
      rcases hb with hb | hb
      · cases hb
      · exact (List.cons.inj hb).2
  · unfold Service.unfinished
    refine List.filter_congr fun x _ => ?_
    have hended : ((s.setCalls rest).note (.began h)).ended = s.ended :=
      List.filterMap_cons_none rfl
    rw [hended]
    rfl

/-- Between two slots the vectors hold the unfinished handlers. -/
theorem Chained.keyEntry_handlers (hc : Chained s) (hp : s.pushes = []) (key : String) :
    (s.keyEntry key).handlers = s.unfinished key := by
  unfold keyEntry
  cases hk : s.requestKeys key with
  | none => exact (hc.missing key hk).1.symm
  | some d =>
    have hu := (hc.listed key d hk).2.1
    rw [hp] at hu
    simpa using hu.symm

/-- An answer takes its handler out of its vector, and the last one takes the vector. -/
theorem Chained.answer {e : Effect} (hc : Chained s) (hpushes : s.pushes = [])
    (he : e.answers = some h) : Chained ((s.note e).emitFinished h) := by
  have hnone : ((s.note e).emitFinished h).pushes = [] :=
    (filterMap_begin (fun _ => rfl) (s.connected h) s.calls).trans hpushes
  have hunfinished : ∀ key, ((s.note e).emitFinished h).unfinished key =
      (s.unfinished key).filter (· ≠ h) := by
    intro key
    unfold Service.unfinished
    rw [answer_ended he,List.filter_filter]
    refine List.filter_congr fun x _ => ?_
    change decide (x ∉ h::s.ended ∧ (s.handlers x).key = key) = _
    by_cases hx : x = h <;> simp [hx]
  have hother : ∀ key, key ≠ (s.handlers h).key →
      (s.unfinished key).filter (· ≠ h) = s.unfinished key := by
    intro key hkey
    refine List.filter_eq_self.mpr fun x hx => ?_
    have hxk := (mem_unfinished.mp hx).2.2
    simp only [ne_eq,decide_eq_true_eq]
    rintro rfl
    exact hkey hxk.symm
  have hkeys : ((s.note e).emitFinished h).requestKeys = Function.update s.requestKeys
      (s.handlers h).key (if (s.unfinished (s.handlers h).key).filter (· ≠ h) = [] then none
        else some { s.keyEntry (s.handlers h).key with
          handlers := (s.unfinished (s.handlers h).key).filter (· ≠ h) }) := by
    rw [← hc.keyEntry_handlers hpushes]
    rfl
  refine ⟨hc.fresh,Or.inl hnone,fun key hn => ?_,fun key d hd => ?_⟩
  · rw [hnone,hunfinished]
    refine ⟨?_,by simp⟩
    rw [hkeys] at hn
    by_cases hk : key = (s.handlers h).key
    · subst hk
      rw [Function.update_self] at hn
      split at hn
      · assumption
      · cases hn
    · rw [Function.update_of_ne hk] at hn
      rw [hother key hk]
      exact (hc.missing key hn).1
  · rw [hnone,hunfinished]
    rw [hkeys] at hd
    by_cases hk : key = (s.handlers h).key
    · subst hk
      rw [Function.update_self] at hd
      split at hd
      · cases hd
      · rename_i hne
        obtain rfl := Option.some.inj hd
        exact ⟨hne,by simp,by simp⟩
    · rw [Function.update_of_ne hk] at hd
      rw [hother key hk]
      have hu := hc.listed key d hd
      rw [hpushes] at hu
      exact ⟨hu.1,hu.2.1,by simp⟩

/-- The handler that is new. -/
theorem Lifecycle.next_new (hl : Lifecycle nothing s) : s.next ∉ s.ended ∧ s.next ∉ s.begun := by
  have hw := hl.waits s.next
  have hk := hl.works s.next
  rw [if_neg (lt_irrefl _)] at hw
  exact ⟨List.count_eq_zero.mp (by omega),List.count_eq_zero.mp (by omega)⟩

section Arrival

variable {x : Handler} {peer : Peer} {media : Media}

/-- A request that arrives is the last one of its key. -/
theorem arrived_unfinished (x : Handler) (peer : Peer) (media : Media) (hl : Lifecycle nothing s)
    (key : String) :
    (((s.register x).note (.arrived s.next peer media)).queueRequest s.next).unfinished key =
      s.unfinished key ++ if x.key = key then [s.next] else [] := by
  have hnew := hl.next_new.1
  unfold Service.unfinished
  rw [arrived_ended,queueRequest_next,queueRequest_handlers]
  change (List.range (s.next+1)).filter (fun y => decide (y ∉ s.ended ∧
    ((Function.update s.handlers s.next x) y).key = key)) = _
  rw [List.range_succ,List.filter_append,List.filter_singleton,Function.update_self]
  congr 1
  · refine List.filter_congr fun y hy => ?_
    rw [Function.update_of_ne (Nat.ne_of_lt (List.mem_range.mp hy))]
  · by_cases hk : x.key = key <;> simp [hnew,hk]

theorem Chained.arrive (hc : Chained s) (hl : Lifecycle nothing s) (hidle : s.calls = []) :
    Chained (((s.register x).note (.arrived s.next peer media)).queueRequest s.next) := by
  have hp : s.pushes = [] := by
    unfold pushes
    rw [hidle]
    rfl
  have hu := arrived_unfinished x peer media hl
  have hlisted := hc.keyEntry_handlers hp
  have hself : (Function.update s.handlers s.next x) s.next = x := Function.update_self ..
  have hspec : ∀ t, t = ((s.register x).note (.arrived s.next peer media)).queueRequest s.next →
      (t.handlers s.next).key = x.key ∧
      t.requestKeys = Function.update s.requestKeys x.key (some (s.keyEntry x.key)) ∧
      t.staleAccess = s.staleAccess ∧ t.pushes = [(s.next,(s.keyEntry x.key).ref)] ∧
      (t.calls.filterMap Call.begins = [] ∨ t.calls.filterMap Call.begins = [s.next]) := by
    rintro t rfl
    have hkeys : (((s.register x).note (.arrived s.next peer media)).enter s.next).requestKeys =
        Function.update s.requestKeys x.key (some (s.keyEntry x.key)) := by
      change Function.update s.requestKeys ((Function.update s.handlers s.next x) s.next).key
        (some (s.keyEntry ((Function.update s.handlers s.next x) s.next).key)) = _
      rw [hself]
    have href : (((s.register x).note (.arrived s.next peer media)).keyEntry
        (((s.register x).note (.arrived s.next peer media)).handlers s.next).key).ref =
          (s.keyEntry x.key).ref := by
      change (s.keyEntry ((Function.update s.handlers s.next x) s.next).key).ref = _
      rw [hself]
    rcases queueRequest_cases ((s.register x).note (.arrived s.next peer media)) s.next with
      ⟨-,ht⟩ | ⟨last,-,ht⟩ <;> rw [ht,href]
    · refine ⟨congrArg Handler.key hself,hkeys,rfl,?_,Or.inr ?_⟩
      · change (Call.begin s.next :: .pushBack s.next _ :: s.calls).filterMap _ = _
        rw [hidle]
        rfl
      · change (Call.begin s.next :: .pushBack s.next _ :: s.calls).filterMap _ = _
        rw [hidle]
        rfl
    · refine ⟨congrArg Handler.key hself,hkeys,rfl,?_,Or.inl ?_⟩
      · change (Call.pushBack s.next _ :: s.calls).filterMap _ = _
        rw [hidle]
        rfl
      · change (Call.pushBack s.next _ :: s.calls).filterMap _ = _
        rw [hidle]
        rfl
  generalize ((s.register x).note (.arrived s.next peer media)).queueRequest s.next = t at hu hspec ⊢
  obtain ⟨hx,hkeys,hfresh,hpushes⟩ := hspec t rfl
  refine ⟨hfresh.trans hc.fresh,Or.inr ⟨_,_,hpushes.1,hpushes.2⟩,fun key hn => ?_,
    fun key e he => ?_⟩
  · rw [hkeys] at hn
    by_cases hk : key = x.key
    · rw [hk,Function.update_self] at hn
      cases hn
    · rw [Function.update_of_ne hk] at hn
      have hk' : x.key ≠ key := fun hcon => hk hcon.symm
      rw [hu,hpushes.1]
      simpa [hx,hk'] using (hc.missing key hn).1
  · rw [hkeys] at he
    rw [hu,hpushes.1]
    by_cases hk : key = x.key
    · subst hk
      rw [Function.update_self] at he
      obtain rfl := Option.some.inj he
      simp [hx,hlisted]
    · rw [Function.update_of_ne hk] at he
      have hk' : x.key ≠ key := fun hcon => hk hcon.symm
      have hold := hc.listed key e he
      rw [hp] at hold
      simpa [hx,hk'] using hold

end Arrival

/-- `queueRequest()` returns: the handler is put where its connections say it is. -/
theorem Chained.pushBack {ref : ℕ} {rest : List Call} (hc : Chained s)
    (hcalls : s.calls = .pushBack h ref :: rest) : Chained ((s.setCalls rest).pushBack h ref) := by
  have hp : s.pushes = (h,ref) :: rest.filterMap Call.pushes := by
    unfold pushes
    rw [hcalls]
    exact List.filterMap_cons_some rfl
  have hrest : rest.filterMap Call.pushes = [] := by
    rcases hc.pushing with hn | ⟨y,r,hone,-⟩
    · rw [hn] at hp
      cases hp
    · rw [hone] at hp
      exact (List.cons.inj hp).2.symm
  rw [hrest] at hp
  obtain ⟨e,he⟩ : ∃ e, s.requestKeys (s.handlers h).key = some e := by
    cases hk : s.requestKeys (s.handlers h).key with
    | none => exact absurd rfl ((hc.missing _ hk).2 (h,ref) (by rw [hp]; exact List.mem_cons_self))
    | some e => exact ⟨e,rfl⟩
  have href : ref = e.ref :=
    (hc.listed _ e he).2.2 (h,ref) (by rw [hp]; exact List.mem_cons_self) rfl
  have ht : (s.setCalls rest).pushBack h ref = (s.setCalls rest).setKey (s.handlers h).key
      (some { e with handlers := e.handlers ++ [h] }) := by
    unfold Service.pushBack
    have he' : (s.setCalls rest).requestKeys ((s.setCalls rest).handlers h).key = some e := he
    simp only [he',href.symm,if_true]
    rfl
  rw [ht]
  refine ⟨hc.fresh,Or.inl hrest,fun key hn => ?_,fun key d hd => ?_⟩
  · change Function.update s.requestKeys _ _ key = none at hn
    by_cases hk : key = (s.handlers h).key
    · rw [hk,Function.update_self] at hn
      cases hn
    · rw [Function.update_of_ne hk] at hn
      refine ⟨(hc.missing key hn).1,fun p hpm => ?_⟩
      change p ∈ rest.filterMap Call.pushes at hpm
      rw [hrest] at hpm
      cases hpm
  · change Function.update s.requestKeys _ _ key = some d at hd
    change s.unfinished key ≠ [] ∧ s.unfinished key = d.handlers ++
      ((rest.filterMap Call.pushes).filter _).map _ ∧ ∀ p ∈ rest.filterMap Call.pushes, _
    rw [hrest]
    by_cases hk : key = (s.handlers h).key
    · subst hk
      rw [Function.update_self] at hd
      obtain rfl := Option.some.inj hd
      have hold := hc.listed _ e he
      rw [hp] at hold
      exact ⟨hold.1,by simpa using hold.2.1,by simp⟩
    · rw [Function.update_of_ne hk] at hd
      have hk' : (s.handlers h).key ≠ key := fun hcon => hk hcon.symm
      have hold := hc.listed key d hd
      rw [hp] at hold
      exact ⟨hold.1,by simpa [hk'] using hold.2.1,by simp⟩

theorem Chained.delete (hc : Chained s) : Chained (s.delete h) := by
  have hkey : ∀ x, ((s.delete h).handlers x).key = (s.handlers x).key := by
    intro x
    change ((Function.update s.handlers h (s.handlers h).cancel) x).key = _
    by_cases hx : x = h
    · subst hx
      rw [Function.update_self]
      rfl
    · rw [Function.update_of_ne hx]
  refine hc.of_same rfl rfl rfl (Or.inl rfl) (fun key => ?_) hkey
  unfold Service.unfinished
  refine List.filter_congr fun x _ => ?_
  rw [hkey]
  rfl

theorem Chained.milestone (hc : Chained s) (hl : Lifecycle nothing s)
    (hm : Milestone cfg s e t) (hquiet : QueuesQuietly cfg s e) : Chained t := by
  cases hm with
  | quiet hq => exact hc.quiet hq
  | arrived hidle hmedia => exact hc.arrive hl hidle
  | began hcalls hq => exact (hc.begin hcalls).quiet hq
  | answered hpushes hq hlu ha =>
    exact (hc.quiet hq).answer (hq.pushes.trans hpushes) ha
  | @begunAnswered o u h a c rest hcalls hknown hdenied hq hlu ha =>
    simp only [QueuesQuietly,hcalls] at hquiet
    have hnot : s.pushes = [] := by
      rcases hc.pushing with hp | ⟨y,ref,hp,hb⟩
      · exact hp
      · have hbegins : s.calls.filterMap Call.begins = h :: rest.filterMap Call.begins := by
          rw [hcalls]
          exact List.filterMap_cons_some rfl
        have hy : h = y := by
          rw [hbegins] at hb
          rcases hb with hb | hb
          · cases hb
          · exact (List.cons.inj hb).1
        have hmem : h ∈ s.queueing := by
          unfold queueing
          rw [hp,hy]
          exact List.mem_cons_self
        exact absurd ⟨c,hknown,hdenied⟩ (hquiet hmem)
    have hpop : rest.filterMap Call.pushes = [] := by
      unfold pushes at hnot
      rw [hcalls,List.filterMap_cons_none rfl] at hnot
      exact hnot
    exact ((hc.begin hcalls).quiet hq).answer (hq.pushes.trans hpop) ha
  | pushed hcalls => exact hc.pushBack hcalls
  | deleted hidle hd => exact hc.delete

theorem chained_step (hs : Sound s ∧ Chained s) (hquiet : QueuesQuietly cfg s e)
    (ht : (machine cfg).step s e = some t) : Sound t ∧ Chained t := by
  have htr := hs.1.transition_of_step ht
  exact ⟨hs.1.step ht,hs.2.milestone hs.1.lifecycle
    (htr.milestone hs.1.lifecycle hs.1.stacked).1 hquiet⟩

end

theorem Chained.new (apparmorEnabled : Bool) (maxDownloads maxExtractions : ℤ)
    (hd : 0 < maxDownloads) (he : 0 < maxExtractions) (thumbnailer : Thumbnailer) :
    Chained (new apparmorEnabled maxDownloads maxExtractions hd he thumbnailer) :=
  ⟨rfl,Or.inl rfl,fun _ _ => ⟨rfl,fun _ hp => by cases hp⟩,fun _ _ he => by cases he⟩

/-- As long as no `begin()` that `queueRequest()` calls answers its request, `requests_` and
`request_keys_` list exactly the unfinished handlers, in the order of their arrival. -/
theorem chainsMatch (cfg : Config) (apparmorEnabled : Bool) (maxDownloads maxExtractions : ℤ)
    (hd : 0 < maxDownloads) (he : 0 < maxExtractions) (thumbnailer : Thumbnailer)
    (es : List Event) (hquiet : (machine cfg).AllSteps (QueuesQuietly cfg)
      (new apparmorEnabled maxDownloads maxExtractions hd he thumbnailer) es) :
    (machine cfg).Always ChainsMatch
      (new apparmorEnabled maxDownloads maxExtractions hd he thumbnailer) es :=
  have hstep : ∀ s e t, Sound s ∧ Chained s → QueuesQuietly cfg s e →
      (machine cfg).step s e = some t → Sound t ∧ Chained t := fun _ _ _ => chained_step
  EventSystem.Machine.always_of_guarded hstep (fun _ hs => hs.2.matches hs.1.lifecycle)
    ⟨.new apparmorEnabled maxDownloads maxExtractions hd he thumbnailer,
      .new apparmorEnabled maxDownloads maxExtractions hd he thumbnailer⟩ hquiet

/-- A service that starts with empty caches, and the configuration of root. -/
def started : Service := .new true 2 2 (by decide) (by decide) .fresh

def superuser : Config := ⟨0,fun _ _ => .ok true⟩

def cover (peer : Peer) : Event := .request peer (.getAlbumArt "Metallica" "Load") ⟨48,48⟩

def go : Event := .call .started

theorem eq_some_getD {α : Type} {o : Option α} {d : α} (h : o.isSome = true) :
    o = some (o.getD d) := by
  obtain ⟨a,rfl⟩ := Option.isSome_iff_exists.mp h
  rfl

theorem chainsMatch_two :
    (machine superuser).AllSteps (QueuesQuietly superuser) started
        [cover ":1.1",go,go,cover ":1.2",go,.credentialsReply ":1.1" .error,go,go,go] ∧
      (machine superuser).Always ChainsMatch started
        [cover ":1.1",go,go,cover ":1.2",go,.credentialsReply ":1.1" .error,go,go,go] :=
  have hquiet : (machine superuser).AllSteps (QueuesQuietly superuser) started
      [cover ":1.1",go,go,cover ":1.2",go,.credentialsReply ":1.1" .error,go,go,go] := by
    decide
  ⟨hquiet,chainsMatch superuser true 2 2 (by decide) (by decide) _ _ hquiet⟩

/-- The bus daemon could not tell who the peer is; its next request is answered in `begin()`,
and its `queueRequest()` then appends to a vector that is gone. -/
theorem staleVector_used :
    ¬ ∀ es, (machine superuser).Always ChainsMatch started es := by
  intro h
  have hrun : ((machine superuser).run started [cover ":1.1",go,go,.credentialsReply ":1.1" .error,
      go,go,cover ":1.1",go,go]).map staleAccess = some true := by decide
  obtain ⟨t,ht,hstale⟩ := Option.map_eq_some_iff.mp hrun
  have hmatch : ChainsMatch t := EventSystem.Machine.always_prefix [] (h _) ht
  rw [hmatch.fresh] at hstale
  cases hstale

end Service
end UnityThumbnailer
