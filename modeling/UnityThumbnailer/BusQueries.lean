import UnityThumbnailer.DownloadSlots

/-! The queries to the bus daemon, between `get()` and the call that erases them. A handler
that asks while the callbacks of an answered query are being called finds the answer in the
cache, so that it never joins a list that nobody goes through any more. -/
namespace UnityThumbnailer

namespace CredentialsCache

variable {Callback : Type*} {c : CredentialsCache Callback} {peer p : Peer}

theorem emplace_cached_self (c : CredentialsCache Callback) (peer : Peer)
    (credentials : Credentials) : ((c.emplace peer credentials).cached peer).isSome := by
  unfold emplace
  split
  · rename_i h
    obtain ⟨d,hd⟩ := Option.isSome_iff_exists.mp h
    simp [cached,hd]
  · simp [cached,AList.lookup_insert]

/-- An answer is found from then on. -/
theorem receivedCredentials_found (reply : BusReply) {q : Query Callback}
    (hq : c.pending peer = some q) :
    ((c.receivedCredentials peer reply).1.cached peer).isSome := by
  rw [receivedCredentials_pending reply hq]
  exact emplace_cached_self ..

end CredentialsCache

namespace Service

/-- The query that a call on the stack will erase. -/
def Call.erases : Call → Option Peer
  | .erasePending peer => some peer
  | _ => none

def erasures (s : Service) : List Peer := s.calls.filterMap Call.erases

/-- A query is marked as answered exactly while its callbacks are called, and the answer is
at hand all the while; one that is not answered has a callback. -/
structure Queries (s : Service) : Prop where
  waiting : ∀ p q, s.credentials.pending p = some q → q.replied = false → q.callbacks ≠ []
  answered : ∀ p q, s.credentials.pending p = some q → (q.replied = true ↔ p ∈ s.erasures)
  found : ∀ p ∈ s.erasures, (s.credentials.cached p).isSome

section

variable {cfg : Config} {e : Event} {s t u : Service} {h x : ℕ}

theorem erasures_pop {c : Call} {rest : List Call} (hcalls : s.calls = c::rest)
    (hc : c.erases = none) : rest.filterMap Call.erases = s.erasures := by
  unfold erasures
  rw [hcalls,List.filterMap_cons_none hc]

/-- Steps that leave the queries and their answers alone. -/
theorem Queries.of_eq (hq : Queries s) (hpending : t.credentials.pending = s.credentials.pending)
    (hcached : ∀ p, t.credentials.cached p = s.credentials.cached p)
    (herasures : t.erasures = s.erasures) : Queries t where
  waiting p q hp := hq.waiting p q (hpending ▸ hp)
  answered p q hp := by
    rw [herasures]
    exact hq.answered p q (hpending ▸ hp)
  found p hp := by
    rw [hcached]
    exact hq.found p (herasures ▸ hp)

theorem Queries.of_same (hq : Queries s) (hcredentials : t.credentials = s.credentials)
    (herasures : t.erasures = s.erasures) : Queries t :=
  hq.of_eq (by rw [hcredentials]) (fun _ => by rw [hcredentials]) herasures

/-- A peer that is not known has no answered query, so the callback joins one that is still
to be answered. -/
theorem Queries.joined (hq : Queries s) {peer : Peer} (hmissing : s.credentials.cached peer = none)
    (hcredentials : t.credentials = (s.credentials.get peer h).1)
    (herasures : t.erasures = s.erasures) : Queries t := by
  have hget : (s.credentials.get peer h).1.pending =
      Function.update s.credentials.pending peer (some (s.credentials.joined peer h)) := by
    rw [CredentialsCache.get_missing h hmissing]
  have hpeer : peer ∉ s.erasures := fun hm => by
    have hsome := hq.found peer hm
    rw [hmissing] at hsome
    cases hsome
  have hself : (s.credentials.joined peer h).replied = false ∧
      (s.credentials.joined peer h).callbacks ≠ [] := by
    unfold CredentialsCache.joined
    cases hp : s.credentials.pending peer with
    | none => exact ⟨rfl,by simp⟩
    | some q =>
      have hreplied : q.replied = false :=
        Bool.eq_false_iff.mpr fun hr => hpeer ((hq.answered peer q hp).mp hr)
      exact ⟨hreplied,by simp⟩
  have hpending : ∀ p q, t.credentials.pending p = some q →
      p = peer ∧ q = s.credentials.joined peer h ∨
        p ≠ peer ∧ s.credentials.pending p = some q := by
    intro p q hp
    rw [hcredentials,hget,Function.update_apply] at hp
    split_ifs at hp with hpp
    · exact Or.inl ⟨hpp,(Option.some.inj hp).symm⟩
    · exact Or.inr ⟨hpp,hp⟩
  refine ⟨fun p q hp hr => ?_,fun p q hp => ?_,fun p hp => ?_⟩
  · rcases hpending p q hp with ⟨-,rfl⟩ | ⟨-,hp⟩
    · exact hself.2
    · exact hq.waiting p q hp hr
  · rw [herasures]
    rcases hpending p q hp with ⟨rfl,rfl⟩ | ⟨-,hp⟩
    · exact iff_of_false (by rw [hself.1]; exact Bool.false_ne_true) hpeer
    · exact hq.answered p q hp
  · rw [hcredentials,CredentialsCache.get_cached]
    exact hq.found p (herasures ▸ hp)

theorem Queries.reported (hq : Queries s) {peer : Peer} (reply : BusReply) {callbacks : List ℕ}
    (hidle : s.calls = []) (hpending : s.credentials.pending peer = some ⟨callbacks,false⟩) :
    Queries (s.receivedCredentials peer reply) := by
  have hnone : s.erasures = [] := by
    unfold erasures
    rw [hidle]
    rfl
  have hmaps : ∀ (xs : List ℕ) (c : Credentials),
      (xs.map (Call.gotCredentials · c)).filterMap Call.erases = [] := fun xs c => by
    rw [List.filterMap_map]
    exact List.filterMap_eq_nil_iff.mpr fun _ _ => rfl
  have herasures : (s.receivedCredentials peer reply).erasures = [peer] := by
    change (_ ++ [Call.erasePending peer] ++ s.calls).filterMap Call.erases = _
    rw [List.filterMap_append,List.filterMap_append,hmaps,hidle]
    rfl
  have hcredentials : (s.receivedCredentials peer reply).credentials =
      (s.credentials.receivedCredentials peer reply).1 := rfl
  have hnew : (s.receivedCredentials peer reply).credentials.pending =
      Function.update s.credentials.pending peer (some ⟨callbacks,true⟩) := by
    rw [hcredentials,CredentialsCache.receivedCredentials_pending reply hpending]
  refine ⟨fun p q hp hr => ?_,fun p q hp => ?_,fun p hp => ?_⟩
  · rw [hnew,Function.update_apply] at hp
    split_ifs at hp with hpp
    · obtain rfl := Option.some.inj hp
      cases hr
    · exact hq.waiting p q hp hr
  · rw [hnew,Function.update_apply] at hp
    rw [herasures]
    split_ifs at hp with hpp
    · obtain rfl := Option.some.inj hp
      exact iff_of_true rfl (List.mem_singleton.mpr hpp)
    · have hanswered := hq.answered p q hp
      rw [hnone] at hanswered
      exact hanswered.trans (iff_of_false List.not_mem_nil (by simpa using hpp))
  · rw [herasures] at hp
    rw [List.mem_singleton.mp hp,hcredentials]
    exact CredentialsCache.receivedCredentials_found reply hpending

theorem Queries.erased (hq : Queries s) {peer : Peer} {rest : List Call}
    (hcalls : s.calls = .erasePending peer :: rest) :
    Queries ((s.setCalls rest).setCredentials (s.credentials.erasePending peer)) := by
  have herasures : s.erasures = peer :: rest.filterMap Call.erases := by
    unfold erasures
    rw [hcalls,List.filterMap_cons_some (f:=Call.erases) rfl]
  have hpending : ∀ p q, (s.credentials.erasePending peer).pending p = some q →
      p ≠ peer ∧ s.credentials.pending p = some q := by
    intro p q hp
    change Function.update s.credentials.pending peer none p = some q at hp
    rw [Function.update_apply] at hp
    split_ifs at hp with hpp
    exact ⟨hpp,hp⟩
  refine ⟨fun p q hp => hq.waiting p q (hpending p q hp).2,fun p q hp => ?_,fun p hp => ?_⟩
  · obtain ⟨hpp,hp⟩ := hpending p q hp
    have hanswered := hq.answered p q hp
    rw [herasures,List.mem_cons,or_iff_right hpp] at hanswered
    exact hanswered
  · refine hq.found p ?_
    rw [herasures]
    exact List.mem_cons_of_mem _ hp

/-- A handler that is told at once leaves the queries as they are. -/
theorem Queries.received (hq : Queries s) {c : Credentials} (hr : Received s u h c) :
    Queries u := by
  cases hr with
  | replied hcalls => exact hq.of_same rfl (erasures_pop hcalls rfl)
  | known hcalls hknown =>
    have hsome : (s.credentials.cached (s.handlers h).peer).isSome := by rw [hknown]; rfl
    exact hq.of_eq (CredentialsCache.get_pending_found h hsome)
      (fun p => CredentialsCache.get_cached ..) (erasures_pop hcalls rfl)

theorem Queries.step (hq : Queries s) (ht : Transition cfg s e t) (hquiet : ThrowsNothing s e) :
    Queries t := by
  cases ht with
  | refused | evicted | checked | created | aborted => exact hq.of_same rfl rfl
  | arrived hidle hmedia =>
    refine hq.of_same (queueRequest_credentials ..) ?_
    unfold erasures
    rcases queueRequest_cases _ _ with ⟨-,hr⟩ | ⟨last,-,hr⟩ <;> rw [hr] <;> rfl
  | reported hidle hpending => exact hq.reported _ hidle hpending
  | asked hcalls hmissing => exact hq.joined hmissing rfl (erasures_pop hcalls rfl)
  | cleared hr hc => exact (hq.received hr).of_same rfl rfl
  | denied hr hc => exact (hq.received hr).of_same rfl (filterMap_begin (fun _ => rfl) _ _)
  | @pushed o h ref rest hcalls =>
    refine hq.of_same (Moves.pushBack (s.setCalls rest) h ref).2.1 ?_
    unfold erasures
    rw [pushBack_calls]
    exact erasures_pop hcalls rfl
  | erased hcalls => exact hq.erased hcalls
  | returned hcalls | started hcalls | creating hcalls =>
    exact hq.of_same rfl (erasures_pop hcalls rfl)
  | @failed h what rest filename st hcalls hmedia =>
    have hpop : rest.filterMap Call.erases = s.erasures := erasures_pop hcalls rfl
    exact hq.of_same rfl hpop
  | caught hcalls hcatch => simp only [ThrowsNothing,hcalls] at hquiet
  | uncaught hcalls hcatch => simp only [ThrowsNothing,hcalls] at hquiet
  | @released o h rest hcalls =>
    have hpop : rest.filterMap Call.erases = s.erasures := erasures_pop hcalls rfl
    refine hq.of_same rfl (Eq.trans ?_ hpop)
    have hjobs : ∀ next : Option ℕ,
        (next.toList.map Call.job ++ [Call.startCreate h]).filterMap Call.erases = [] := by
      intro next
      cases next <;> rfl
    change (_ ++ rest).filterMap Call.erases = _
    rw [List.filterMap_append,hjobs]
    rfl
  | checkAnswered hidle hw he | createAnswered hidle hw he =>
    exact hq.of_same rfl (filterMap_begin (fun _ => rfl) _ _)
  | @scheduled h hidle hw hs =>
    have hjobs : ∀ (next : Option ℕ) (f : CancelFunc),
        (next.toList.map Call.job ++ [Call.scheduled h f]).filterMap Call.erases = [] := by
      intro next f
      cases next <;> rfl
    refine hq.of_same rfl ?_
    change (_ ++ s.calls).filterMap Call.erases = _
    rw [List.filterMap_append,hjobs]
    rfl
  | completed hidle hd hfits => exact hq.of_same rfl rfl
  | deleted hidle hd => exact hq.of_same rfl rfl

/-- The callback of a handler that asks is in a list that somebody will go through. -/
theorem Queries.get_asked (hq : Queries s) {peer : Peer}
    (hmissing : s.credentials.cached peer = none) :
    (s.credentials.get peer h).1.asked peer = s.credentials.asked peer ++ [h] := by
  have hself : (s.credentials.get peer h).1.pending peer =
      some (s.credentials.joined peer h) := by
    rw [CredentialsCache.get_missing h hmissing]
    exact Function.update_self ..
  unfold CredentialsCache.asked
  rw [hself]
  unfold CredentialsCache.joined
  cases hp : s.credentials.pending peer with
  | none => rfl
  | some q =>
    have hreplied : q.replied = false := Bool.eq_false_iff.mpr fun hr => by
      have hsome := hq.found peer ((hq.answered peer q hp).mp hr)
      rw [hmissing] at hsome
      cases hsome
    simp [hreplied]

/-- Nobody waits in a query whose callbacks have been called. -/
theorem Queries.asked_erased (hq : Queries s) {peer : Peer} (hpeer : peer ∈ s.erasures) :
    s.credentials.asked peer = [] := by
  unfold CredentialsCache.asked
  cases hp : s.credentials.pending peer with
  | none => rfl
  | some q => simp [(hq.answered peer q hp).mpr hpeer]

theorem Queries.new (apparmorEnabled : Bool) (maxDownloads maxExtractions : ℤ)
    (hd : 0 < maxDownloads) (he : 0 < maxExtractions) (thumbnailer : Thumbnailer) :
    Queries (new apparmorEnabled maxDownloads maxExtractions hd he thumbnailer) :=
  ⟨nofun,nofun,nofun⟩

end
end Service
end UnityThumbnailer
