import Mathlib
import UnityThumbnailer.CredentialsDelivery

/-! The size of the credentials cache. An answer of the bus starts a new generation when the
current one is full, but a find in the old generation moves to the current one whatever its
size. -/
namespace UnityThumbnailer

open EventSystem

namespace CredentialsCache

variable {Callback : Type*}

/-- Neither generation has more entries than the maximum. -/
def Bounded (c : CredentialsCache Callback) : Prop :=
  c.cache.entries.length ≤ maxCacheSize ∧ c.oldCache.entries.length ≤ maxCacheSize

/-- `get()` finds the peer in the old generation only. -/
def Moves (c : CredentialsCache Callback) (peer : Peer) : Prop :=
  peer ∉ c.cache ∧ peer ∈ c.oldCache

theorem maxCacheSize_pos : 0 < maxCacheSize := by decide

section Length

variable {entries : AList fun _ : Peer => Credentials} {c : CredentialsCache Callback}
  {peer : Peer} {credentials : Credentials}

theorem length_insert (h : peer ∉ entries) :
    (entries.insert peer credentials).entries.length = entries.entries.length+1 := by
  rw [AList.entries_insert_of_notMem h,List.length_cons]

theorem length_erase_le : (entries.erase peer).entries.length ≤ entries.entries.length :=
  List.Sublist.length_le (List.kerase_sublist peer entries.entries)

theorem get_of_moves (callback : Callback) (h : c.Moves peer) :
    (c.get peer callback).1.cache.entries.length = c.cache.entries.length+1 ∧
      (c.get peer callback).1.oldCache.entries.length ≤ c.oldCache.entries.length := by
  obtain ⟨hc,ho⟩ := h
  obtain ⟨credentials,hold⟩ := Option.isSome_iff_exists.mp (AList.lookup_isSome.mpr ho)
  unfold get
  rw [AList.lookup_eq_none.mpr hc]
  simp only [hold]
  exact ⟨length_insert hc,length_erase_le⟩

theorem get_of_not_moves (callback : Callback) (h : ¬ c.Moves peer) :
    (c.get peer callback).1.cache = c.cache ∧ (c.get peer callback).1.oldCache = c.oldCache := by
  unfold get
  cases hc : c.cache.lookup peer with
  | some credentials => exact ⟨rfl,rfl⟩
  | none =>
    cases ho : c.oldCache.lookup peer with
    | none => exact ⟨rfl,rfl⟩
    | some credentials =>
      refine absurd ⟨AList.lookup_eq_none.mp hc,?_⟩ h
      rw [← AList.lookup_isSome,ho]
      rfl

/-- A find keeps the bound if the entry that moves has room in the current generation. -/
theorem Bounded.get (callback : Callback) (h : c.Bounded)
    (hroom : c.Moves peer → c.cache.entries.length < maxCacheSize) :
    (c.get peer callback).1.Bounded := by
  by_cases hm : c.Moves peer
  · obtain ⟨hnew,hold⟩ := get_of_moves callback hm
    exact ⟨hnew.trans_le (hroom hm),hold.trans h.2⟩
  · obtain ⟨hnew,hold⟩ := get_of_not_moves callback hm
    rw [Bounded,hnew,hold]
    exact h

theorem newGeneration_of_full (h : maxCacheSize ≤ c.cache.entries.length) :
    c.newGeneration = { c with oldCache := c.cache, cache := ∅ } := if_pos h

theorem newGeneration_of_room (h : c.cache.entries.length < maxCacheSize) :
    c.newGeneration = c := if_neg (not_le.mpr h)

/-- After the check the current generation has room for the answer. -/
theorem Bounded.newGeneration (h : c.Bounded) :
    c.newGeneration.cache.entries.length < maxCacheSize ∧
      c.newGeneration.oldCache.entries.length ≤ maxCacheSize := by
  by_cases hfull : maxCacheSize ≤ c.cache.entries.length
  · rw [newGeneration_of_full hfull]
    exact ⟨maxCacheSize_pos,h.1⟩
  · rw [newGeneration_of_room (not_le.mp hfull)]
    exact ⟨not_le.mp hfull,h.2⟩

theorem emplace_length_le :
    (c.emplace peer credentials).cache.entries.length ≤ c.cache.entries.length+1 ∧
      (c.emplace peer credentials).oldCache = c.oldCache := by
  unfold emplace
  split_ifs with hsome
  · exact ⟨Nat.le_succ _,rfl⟩
  · have hmissing : peer ∉ c.cache := fun hmem => hsome (AList.lookup_isSome.mpr hmem)
    exact ⟨(length_insert hmissing).le,rfl⟩

theorem receivedCredentials_generations (reply : BusReply) :
    (c.receivedCredentials peer reply).1.cache =
        (c.newGeneration.emplace peer (reply.credentials c.apparmorEnabled)).cache ∧
      (c.receivedCredentials peer reply).1.oldCache =
        (c.newGeneration.emplace peer (reply.credentials c.apparmorEnabled)).oldCache := by
  simp only [receivedCredentials]
  split <;> exact ⟨rfl,rfl⟩

/-- The answer for a peer that is not cached adds an entry. -/
theorem receivedCredentials_missing (reply : BusReply) (h : c.cached peer = none) :
    (c.receivedCredentials peer reply).1.cache =
        c.newGeneration.cache.insert peer (reply.credentials c.apparmorEnabled) ∧
      (c.receivedCredentials peer reply).1.oldCache = c.newGeneration.oldCache := by
  obtain ⟨hcache,hold⟩ := @receivedCredentials_generations Callback c peer reply
  rw [emplace_missing (newGeneration_missing h)] at hcache hold
  exact ⟨hcache,hold⟩

theorem get_missing_generations (callback : Callback) (h : c.cached peer = none) :
    (c.get peer callback).1.newGeneration.cache = c.newGeneration.cache ∧
      (c.get peer callback).1.newGeneration.oldCache = c.newGeneration.oldCache := by
  rw [get_missing callback h]
  simp only [newGeneration]
  split <;> exact ⟨rfl,rfl⟩

/-- Answers always keep the bound. -/
theorem Bounded.receivedCredentials (reply : BusReply) (h : c.Bounded) :
    (c.receivedCredentials peer reply).1.Bounded := by
  obtain ⟨hcache,hold⟩ := @receivedCredentials_generations Callback c peer reply
  obtain ⟨hroom,hbound⟩ := h.newGeneration
  obtain ⟨hlength,hsame⟩ := @emplace_length_le Callback c.newGeneration peer
    (reply.credentials c.apparmorEnabled)
  rw [Bounded,hcache,hold,hsame]
  exact ⟨hlength.trans hroom,hbound⟩

end Length

end CredentialsCache

namespace CredentialsDelivery

/-- No entry moves to a generation that is full already. -/
def MovesInto (s : Delivery) : Event → Prop
  | .get peer => s.cache.Moves peer →
      s.cache.cache.entries.length < CredentialsCache.maxCacheSize
  | _ => True

section Steps

variable {s t : Delivery}

theorem step_bounded (s : Delivery) (e : Event) (t : Delivery) (h : s.cache.Bounded)
    (hroom : MovesInto s e) (ht : delivery.step s e = some t) : t.cache.Bounded := by
  cases e with
  | get peer =>
    obtain rfl := Option.some.inj ht
    exact h.get s.gets hroom
  | reply peer answer =>
    simp only [delivery] at ht
    split at ht
    · obtain ⟨-,ht⟩ := Option.ite_none_left_eq_some.mp ht
      obtain rfl := Option.some.inj ht
      exact h.receivedCredentials answer
    · cases ht
  | next =>
    simp only [delivery] at ht
    split at ht
    · obtain rfl := Option.some.inj ht
      exact h
    · cases ht
  | finish =>
    simp only [delivery] at ht
    split at ht
    · obtain rfl := Option.some.inj ht
      exact h
    · cases ht

/-- The entry that moves to a full generation is one too many. -/
theorem step_not_bounded (s : Delivery) (e : Event) (t : Delivery) (hfull : ¬ MovesInto s e)
    (ht : delivery.step s e = some t) : ¬ t.cache.Bounded := by
  cases e with
  | get peer =>
    obtain rfl := Option.some.inj ht
    obtain ⟨hmoves,hroom⟩ := Classical.not_imp.mp hfull
    intro hcon
    have hnew : s.cache.cache.entries.length+1 ≤ CredentialsCache.maxCacheSize :=
      (CredentialsCache.get_of_moves s.gets hmoves).1.ge.trans hcon.1
    exact hroom hnew
  | reply | next | finish => exact absurd trivial hfull

end Steps

/-- In every history, both generations keep to the maximum size in every state exactly when no
`get()` moves an entry to a generation that is full already. -/
theorem cacheBounded_iff (apparmorEnabled : Bool) (es : List Event) (t : Delivery)
    (hrun : delivery.run (new apparmorEnabled) es = some t) :
    delivery.Always (fun s => s.cache.Bounded) (new apparmorEnabled) es ↔
      delivery.AllSteps MovesInto (new apparmorEnabled) es :=
  Machine.always_iff_allSteps step_bounded (fun _ h => h)
    (fun s e t _ hfull ht => step_not_bounded s e t hfull ht)
    ⟨Nat.zero_le _,Nat.zero_le _⟩ hrun

theorem cacheBounded_iff_twoClients :
    (delivery.run (new false) twoClients).isSome ∧
      (delivery.Always (fun s => s.cache.Bounded) (new false) twoClients ↔
        delivery.AllSteps MovesInto (new false) twoClients) := by
  obtain ⟨t,ht⟩ : ∃ t, delivery.run (new false) twoClients = some t := ⟨_,rfl⟩
  exact ⟨by rw [ht]; rfl,cacheBounded_iff false twoClients t ht⟩

/-! ### A hundred clients -/

/-- The credentials of root, without a label. -/
def rootReply : BusReply := .map 0 []

/-- A client that is new to the cache asks, and gets its answer. -/
def introduce (peer : Peer) : List Event := [.get peer,.reply peer rootReply,.next,.finish]

/-- No query is under way. -/
structure Idle (s : Delivery) : Prop where
  frame : s.frame = none
  pending : ∀ p, s.cache.pending p = none

section Introduce

variable {s : Delivery} {peer : Peer}

/-- The answer is kept in the current generation, or in a new one if that is full. -/
theorem introduce_run (hs : Idle s) (hnew : s.cache.cached peer = none) :
    ∃ t credentials, delivery.run s (introduce peer) = some t ∧ Idle t ∧
      t.cache.cache = s.cache.newGeneration.cache.insert peer credentials ∧
      t.cache.oldCache = s.cache.newGeneration.oldCache := by
  let u : Delivery := s.get peer
  have hasked : u.cache.pending =
      Function.update s.cache.pending peer (some ⟨[s.gets],false⟩) := by
    simp only [u,Delivery.get,CredentialsCache.get_missing s.gets hnew,CredentialsCache.joined,
      hs.pending peer]
  have hquery : u.cache.pending peer = some ⟨[s.gets],false⟩ := by
    rw [hasked,Function.update_self]
  have hframe : u.frame = none := hs.frame
  obtain ⟨hloop,-,hpending⟩ := reply_eq rootReply hquery
  let v : Delivery := u.reply peer rootReply
  let credentials := rootReply.credentials u.cache.apparmorEnabled
  let w : Delivery := { v with
    frame := some ⟨peer,credentials,[s.gets],[]⟩, log := .invoked s.gets credentials::v.log }
  have hreply : delivery.step u (.reply peer rootReply) = some v := by
    simp only [delivery,hframe,hquery]
    rfl
  have hnext : delivery.step v .next = some w := by
    simp only [delivery,v,hloop]
    rfl
  have hmissing : u.cache.cached peer = none := by
    rw [get_cached]
    exact hnew
  obtain ⟨hcache,hold⟩ := CredentialsCache.receivedCredentials_missing rootReply hmissing
  obtain ⟨hcache',hold'⟩ := CredentialsCache.get_missing_generations s.gets hnew
  refine ⟨{ w with cache := w.cache.erasePending peer, frame := none },credentials,?_,
    ⟨rfl,fun p => ?_⟩,?_,?_⟩
  · have hget : delivery.step s (.get peer) = some u := rfl
    simp only [introduce,Machine.run_cons,hget,Option.bind_some,hreply,hnext]
    rfl
  · change Function.update v.cache.pending peer none p = none
    rw [hpending,hasked]
    by_cases hp : p = peer
    · rw [hp,Function.update_self]
    · rw [Function.update_of_ne hp,Function.update_of_ne hp,Function.update_of_ne hp]
      exact hs.pending p
  · exact hcache.trans (congrArg (AList.insert peer credentials) hcache')
  · exact hold.trans hold'

/-- Clients that are new to the cache fill the current generation as far as it has room. -/
theorem introduce_all (ps : List Peer) (hs : Idle s) (hnodup : ps.Nodup)
    (hnew : ∀ p ∈ ps, s.cache.cached p = none)
    (hroom : s.cache.cache.entries.length+ps.length ≤ CredentialsCache.maxCacheSize) :
    ∃ t, delivery.run s (ps.flatMap introduce) = some t ∧ Idle t ∧
      t.cache.cache.entries.length = s.cache.cache.entries.length+ps.length ∧
      (∀ p, p ∈ t.cache.cache ↔ p ∈ ps ∨ p ∈ s.cache.cache) ∧
      t.cache.oldCache = s.cache.oldCache := by
  induction ps generalizing s with
  | nil => exact ⟨s,rfl,hs,rfl,fun p => by simp,rfl⟩
  | cons p ps ih =>
    obtain ⟨hp,hnodup⟩ := List.nodup_cons.mp hnodup
    rw [List.length_cons] at hroom
    have hfresh := hnew p List.mem_cons_self
    have hmissing : p ∉ s.cache.cache := (CredentialsCache.cached_eq_none.mp hfresh).1
    obtain ⟨u,credentials,hrun,hu,hcache,hold⟩ := introduce_run hs hfresh
    rw [CredentialsCache.newGeneration_of_room (by omega)] at hcache hold
    have hlength : u.cache.cache.entries.length = s.cache.cache.entries.length+1 := by
      rw [hcache]
      exact CredentialsCache.length_insert hmissing
    have hkept : ∀ q ∈ ps, u.cache.cached q = none := by
      intro q hq
      have hne : q ≠ p := fun heq => hp (heq ▸ hq)
      obtain ⟨hc,ho⟩ := CredentialsCache.cached_eq_none.mp (hnew q (List.mem_cons_of_mem _ hq))
      rw [CredentialsCache.cached_eq_none,hcache,hold]
      exact ⟨fun hmem => ((AList.mem_insert _).mp hmem).elim hne hc,ho⟩
    obtain ⟨t,hrest,ht,hlen,hmem,hsame⟩ := ih hu hnodup hkept (by omega)
    refine ⟨t,?_,ht,by rw [hlen,hlength,List.length_cons]; omega,fun q => ?_,hsame.trans hold⟩
    · rw [List.flatMap_cons,Machine.run_append,hrun]
      exact hrest
    · rw [hmem,hcache,AList.mem_insert,List.mem_cons]
      tauto

/-- Clients that find the current generation full start the next one. -/
theorem introduce_next (p : Peer) (ps : List Peer) (hs : Idle s) (hnodup : (p::ps).Nodup)
    (hnew : ∀ q ∈ p::ps, s.cache.cached q = none)
    (hfull : CredentialsCache.maxCacheSize ≤ s.cache.cache.entries.length)
    (hroom : ps.length < CredentialsCache.maxCacheSize) :
    ∃ t, delivery.run s ((p::ps).flatMap introduce) = some t ∧
      t.cache.cache.entries.length = ps.length+1 ∧ (∀ q, q ∈ t.cache.cache ↔ q ∈ p::ps) ∧
      t.cache.oldCache = s.cache.cache := by
  obtain ⟨hp,hnodup⟩ := List.nodup_cons.mp hnodup
  obtain ⟨u,credentials,hrun,hu,hcache,hold⟩ := introduce_run hs (hnew p List.mem_cons_self)
  rw [CredentialsCache.newGeneration_of_full hfull] at hcache hold
  have hone : u.cache.cache.entries.length = 1 := by
    rw [hcache]
    exact CredentialsCache.length_insert (AList.notMem_empty p)
  have hmem : ∀ q, q ∈ u.cache.cache ↔ q = p := fun q => by
    rw [hcache]
    exact (AList.mem_insert _).trans (or_iff_left (AList.notMem_empty q))
  have hkept : ∀ q ∈ ps, u.cache.cached q = none := by
    intro q hq
    have hne : q ≠ p := fun heq => hp (heq ▸ hq)
    have hc := (CredentialsCache.cached_eq_none.mp (hnew q (List.mem_cons_of_mem _ hq))).1
    rw [CredentialsCache.cached_eq_none,hmem,hold]
    exact ⟨hne,hc⟩
  obtain ⟨t,hrest,-,hlen,hall,hsame⟩ := introduce_all ps hu hnodup hkept (by omega)
  refine ⟨t,?_,by omega,fun q => ?_,hsame.trans hold⟩
  · rw [List.flatMap_cons,Machine.run_append,hrun]
    exact hrest
  · rw [hall,hmem,List.mem_cons,or_comm]

end Introduce

/-- The unique bus name of a client. -/
def client (i : ℕ) : Peer := ":1." ++ toString i

def clients (first n : ℕ) : List Peer := (List.range' first n).map client

/-- A hundred clients ask one after the other, and the first one asks again. -/
def hundredClients : List Event :=
  (clients 0 50).flatMap introduce ++ (clients 50 50).flatMap introduce ++ [.get (client 0)]

@[simp] theorem clients_length (first n : ℕ) : (clients first n).length = n := by
  rw [clients,List.length_map,List.length_range']

theorem clients_succ (first n : ℕ) :
    clients first (n+1) = client first::clients (first+1) n := by
  rw [clients,clients,List.range'_succ,List.map_cons]

theorem client_injective : Function.Injective client := by
  intro i j h
  simpa [client,Nat.repr_inj] using h

theorem mem_clients {i first n : ℕ} : client i ∈ clients first n ↔ first ≤ i ∧ i < first+n := by
  rw [clients,List.mem_map_of_injective client_injective,List.mem_range'_1]

theorem clients_nodup (first n : ℕ) : (clients first n).Nodup :=
  List.Nodup.map client_injective List.nodup_range'

theorem clients_forall {first n : ℕ} {P : Peer → Prop}
    (h : ∀ i, first ≤ i → i < first+n → P (client i)) : ∀ p ∈ clients first n, P p := by
  intro p hp
  obtain ⟨i,hi,rfl⟩ := List.mem_map.mp hp
  obtain ⟨hle,hlt⟩ := List.mem_range'_1.mp hi
  exact h i hle hlt

/-- The first fifty clients fill one generation, and the others the next one. -/
theorem hundredClients_full : ∃ s, delivery.run (new false)
      ((clients 0 50).flatMap introduce ++ (clients 50 50).flatMap introduce) = some s ∧
    s.cache.cache.entries.length = CredentialsCache.maxCacheSize ∧
      s.cache.Moves (client 0) := by
  have hnew : Idle (new false) := ⟨rfl,fun _ => rfl⟩
  obtain ⟨s,hs,hidle,hlen,hmem,hold⟩ := introduce_all (clients 0 50) hnew (clients_nodup 0 50)
    (fun _ _ => rfl) (by rw [clients_length]; decide)
  rw [clients_length] at hlen
  have hfull : s.cache.cache.entries.length = CredentialsCache.maxCacheSize := hlen
  have hfresh : ∀ p ∈ clients 50 50, s.cache.cached p = none := by
    apply clients_forall
    intro i hle _
    rw [CredentialsCache.cached_eq_none,hmem,hold,mem_clients]
    exact ⟨not_or.mpr ⟨by omega,AList.notMem_empty _⟩,AList.notMem_empty _⟩
  have hnodup := clients_nodup 50 50
  have hsucc : clients 50 50 = client 50::clients 51 49 := clients_succ 50 49
  rw [hsucc] at hfresh hnodup
  obtain ⟨t,ht,hlen',hmem',hold'⟩ := introduce_next (client 50) (clients 51 49) hidle
    hnodup hfresh hfull.ge (by rw [clients_length]; decide)
  rw [clients_length] at hlen'
  rw [← hsucc] at ht hmem'
  refine ⟨t,?_,hlen',fun hcon => ?_,?_⟩
  · rw [Machine.run_append,hs,Option.bind_some]
    exact ht
  · have hlate : client 0 ∈ clients 50 50 := (hmem' _).mp hcon
    have hle := (mem_clients.mp hlate).1
    omega
  · rw [hold',hmem,mem_clients]
    exact Or.inl ⟨le_rfl,by decide⟩

/-- The entry of the first client moves to fifty others. -/
theorem hundredClients_not_bounded :
    ∃ t, delivery.run (new false) hundredClients = some t ∧ ¬ t.cache.Bounded := by
  obtain ⟨s,hs,hfull,hmoves⟩ := hundredClients_full
  refine ⟨s.get (client 0),?_,?_⟩
  · rw [hundredClients,Machine.run_append,hs,Option.bind_some,Machine.run_cons]
    rfl
  · exact step_not_bounded s (.get (client 0)) _ (fun hroom => (hroom hmoves).ne hfull) rfl

end CredentialsDelivery
end UnityThumbnailer
