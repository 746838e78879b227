import Mathlib.Data.List.AList
import Mathlib.Data.List.Basic

/-! The service's record of who its peers are. Credentials come from the bus daemon; they
are kept in two generations, and requests that ask while a query is under way share it. -/
namespace UnityThumbnailer

/-- The unique bus name of a client. -/
abbrev Peer := String

/-- A security label, as bytes. -/
abbrev Label := List Char

structure Credentials where
  valid : Bool
  user : ℕ
  label : Label
  deriving DecidableEq

/-- What `GetConnectionCredentials` returns; entries that are missing in the map read as
zero and as the empty label. -/
inductive BusReply
  | error
  | map (user : ℕ) (label : Label)
  deriving DecidableEq

def lastIndexOf (c : Char) (label : Label) : Option ℕ :=
  (label.reverse.idxOf? c).map fun i => label.length-1-i

/-- Trim the mode off the end of the label. -/
def trimMode (label : Label) : Label :=
  match lastIndexOf ' ' label with
  | some pos =>
    if 0 < pos ∧ label.getLast? = some ')' ∧ label[pos+1]? = some '(' then label.take pos else label
  | none => label

/-- The label is null terminated; without AppArmor every peer counts as unconfined. -/
def BusReply.credentials (apparmorEnabled : Bool) : BusReply → Credentials
  | .error => ⟨false,0,[]⟩
  | .map user label =>
    ⟨true,user,if apparmorEnabled then (if label = [] then [] else trimMode label.dropLast)
      else "unconfined".toList⟩

/-- The label consists of a name and, behind its last blank, of a mode in parentheses. -/
def HasMode (label name : Label) : Prop :=
  name ≠ [] ∧ ∃ mode, ' ' ∉ mode ∧ label = name ++ ' ' :: '(' :: mode ++ [')']

/-- The name that a null terminated label stands for. -/
def Stripped (raw name : Label) : Prop :=
  raw = [] ∧ name = [] ∨ ∃ label null, raw = label ++ [null] ∧
    (HasMode label name ∨ label = name ∧ ∀ name', ¬ HasMode label name')

/-- What the bus says about a peer: that nobody knows it, or its user and the name of its
label. -/
def BusReply.Says (apparmorEnabled : Bool) (c : Credentials) : BusReply → Prop
  | .error => c = ⟨false,0,[]⟩
  | .map user raw => c.valid = true ∧ c.user = user ∧
    if apparmorEnabled then Stripped raw c.label else c.label = "unconfined".toList

section Labels

variable {label name mode rest : Label}

theorem lastIndexOf_append {c : Char} (hrest : c ∉ rest) :
    lastIndexOf c (name ++ c::rest) = some name.length := by
  have hnone : rest.reverse.findIdx? (· == c) = none :=
    List.idxOf?_eq_none_iff.mpr fun hc => hrest (List.mem_reverse.mp hc)
  have hidx : (name ++ c::rest).reverse.idxOf? c = some rest.length := by
    rw [List.reverse_append,List.reverse_cons,List.append_assoc,List.idxOf?,List.findIdx?_append,
      hnone]
    simp [List.findIdx?_cons]
  rw [lastIndexOf,hidx,List.length_append,List.length_cons,Option.map_some]
  congr 1
  omega

theorem lastIndexOf_none {c : Char} (hlabel : c ∉ label) : lastIndexOf c label = none := by
  rw [lastIndexOf,List.idxOf?_eq_none_iff.mpr fun hc => hlabel (List.mem_reverse.mp hc)]
  rfl

/-- A label without blanks, or its last blank with what stands before and behind it. -/
theorem blank_cases (label : Label) : ' ' ∉ label ∨
    ∃ name rest, ' ' ∉ rest ∧ label = name ++ ' ' :: rest := by
  by_cases hblank : ' ' ∈ label
  · obtain ⟨rest,name,heq,hrest⟩ := List.eq_append_cons_of_mem (List.mem_reverse.mpr hblank)
    refine .inr ⟨name.reverse,rest.reverse,fun hc => hrest (List.mem_reverse.mp hc),?_⟩
    rw [← List.reverse_reverse label,heq]
    simp
  · exact .inl hblank

theorem HasMode.trimMode (h : HasMode label name) : trimMode label = name := by
  obtain ⟨hname,mode,hmode,rfl⟩ := h
  have hlast : lastIndexOf ' ' (name ++ ' ' :: '(' :: mode ++ [')']) = some name.length := by
    rw [List.append_assoc,List.cons_append]
    exact lastIndexOf_append (by simpa using hmode)
  rw [UnityThumbnailer.trimMode,hlast]
  have hpos : 0 < name.length := List.length_pos_iff.mpr hname
  have hend : (name ++ ' ' :: '(' :: mode ++ [')']).getLast? = some ')' := List.getLast?_concat
  simp only [hpos,hend]
  simp

theorem trimMode_eq (h : ∀ name, ¬ HasMode label name) : trimMode label = label := by
  rcases blank_cases label with hblank | ⟨name,rest,hrest,rfl⟩
  · rw [trimMode,lastIndexOf_none hblank]
  · rw [trimMode,lastIndexOf_append hrest]
    refine if_neg fun ⟨hpos,hend,hopen⟩ => h name ⟨List.length_pos_iff.mp hpos,?_⟩
    cases rest with
    | nil => simp at hend
    | cons c mode =>
      obtain rfl : c = '(' := by simpa using hopen
      rcases List.eq_nil_or_concat mode with rfl | ⟨mode,d,rfl⟩
      · simp at hend
      · have hlast : (name ++ ' ' :: '(' :: mode.concat d).getLast? = some d := by
          rw [List.concat_eq_append,← List.cons_append,← List.cons_append,← List.append_assoc]
          exact List.getLast?_concat
        obtain rfl := Option.some.inj (hlast.symm.trans hend)
        refine ⟨mode,fun hm => hrest ?_,by simp⟩
        simp [hm]

/-- The code strips a label of its end and of its mode, and of nothing else. -/
theorem stripped_iff {raw : Label} : Stripped raw name ↔
    name = if raw = [] then [] else trimMode raw.dropLast := by
  constructor
  · rintro (⟨rfl,rfl⟩ | ⟨label,null,rfl,hmode | ⟨rfl,hnone⟩⟩)
    · rfl
    · simp [hmode.trimMode]
    · simp [trimMode_eq hnone]
  · intro hname
    rcases List.eq_nil_or_concat raw with rfl | ⟨label,null,rfl⟩
    · exact .inl ⟨rfl,hname⟩
    · refine .inr ⟨label,null,List.concat_eq_append,?_⟩
      have hname : name = trimMode label := by simpa using hname
      by_cases hmode : ∃ name', HasMode label name'
      · obtain ⟨name',hname'⟩ := hmode
        exact .inl (hname.trans hname'.trimMode ▸ hname')
      · have hnone := not_exists.mp hmode
        exact .inr ⟨(hname.trans (trimMode_eq hnone)).symm,hnone⟩

/-- The credentials that are kept say what the bus said. -/
theorem BusReply.says_iff {apparmorEnabled : Bool} {c : Credentials} {reply : BusReply} :
    reply.Says apparmorEnabled c ↔ c = reply.credentials apparmorEnabled := by
  cases reply with
  | error => exact Iff.rfl
  | map user raw =>
    obtain ⟨valid,user',label⟩ := c
    cases apparmorEnabled <;> simp [Says,BusReply.credentials,stripped_iff]

end Labels
/-- A query that is under way; `replied` is set while the callbacks are being called. -/
structure Query (Callback : Type*) where
  callbacks : List Callback
  replied : Bool

structure CredentialsCache (Callback : Type*) where
  apparmorEnabled : Bool
  cache : AList fun _ : Peer => Credentials
  oldCache : AList fun _ : Peer => Credentials
  pending : Peer → Option (Query Callback)

namespace CredentialsCache

variable {Callback : Type*}

def maxCacheSize : ℕ := 50

def new (apparmorEnabled : Bool) : CredentialsCache Callback :=
  ⟨apparmorEnabled,∅,∅,fun _ => none⟩

/-- Credentials to call the callback with at once, if there are any; a find in the old
generation moves to the current one. -/
def get (c : CredentialsCache Callback) (peer : Peer) (callback : Callback) :
    CredentialsCache Callback × Option Credentials :=
  match c.cache.lookup peer with
  | some credentials => (c,some credentials)
  | none =>
    match c.oldCache.lookup peer with
    | some credentials =>
      ({ c with cache := c.cache.insert peer credentials, oldCache := c.oldCache.erase peer },
        some credentials)
    | none =>
      let query := match c.pending peer with
        | some q => { q with callbacks := q.callbacks ++ [callback] }
        | none => ⟨[callback],false⟩
      ({ c with pending := Function.update c.pending peer (some query) },none)

/-- If we've hit our maximum cache size, start a new generation. -/
def newGeneration (c : CredentialsCache Callback) : CredentialsCache Callback :=
  if maxCacheSize ≤ c.cache.entries.length then { c with oldCache := c.cache, cache := ∅ } else c

/-- `cache_.emplace()` keeps an entry that is already there. -/
def emplace (c : CredentialsCache Callback) (peer : Peer) (credentials : Credentials) :
    CredentialsCache Callback :=
  if (c.cache.lookup peer).isSome then c
  else { c with cache := c.cache.insert peer credentials }

/-- The bus daemon has answered: keep the credentials and return those waiting for them. -/
def receivedCredentials (c : CredentialsCache Callback) (peer : Peer) (reply : BusReply) :
    CredentialsCache Callback × Credentials × List Callback :=
  let credentials := reply.credentials c.apparmorEnabled
  let c := c.newGeneration.emplace peer credentials
  match c.pending peer with
  | some q =>
    ({ c with pending := Function.update c.pending peer (some { q with replied := true }) },
      credentials,q.callbacks)
  | none => (c,credentials,[])

def erasePending (c : CredentialsCache Callback) (peer : Peer) : CredentialsCache Callback :=
  { c with pending := Function.update c.pending peer none }

/-- What `get()` finds without asking the bus daemon. -/
def cached (c : CredentialsCache Callback) (peer : Peer) : Option Credentials :=
  (c.cache.lookup peer).or (c.oldCache.lookup peer)

/-- The callbacks that wait for the answer about a peer. -/
def asked (c : CredentialsCache Callback) (peer : Peer) : List Callback :=
  match c.pending peer with
  | some q => if q.replied then [] else q.callbacks
  | none => []

@[simp] theorem new_cached (b : Bool) (peer : Peer) :
    (new b : CredentialsCache Callback).cached peer = none := rfl
@[simp] theorem new_asked (b : Bool) (peer : Peer) :
    (new b : CredentialsCache Callback).asked peer = [] := rfl

theorem get_found (c : CredentialsCache Callback) (peer : Peer) (callback : Callback) :
    (c.get peer callback).2 = c.cached peer := by
  unfold get cached
  cases hc : c.cache.lookup peer with
  | some credentials => rfl
  | none => cases ho : c.oldCache.lookup peer <;> simp

/-- Looking up a peer changes nothing that is found, for this peer or another. -/
theorem get_cached (c : CredentialsCache Callback) (peer : Peer) (callback : Callback)
    (p : Peer) : (c.get peer callback).1.cached p = c.cached p := by
  unfold get
  cases hc : c.cache.lookup peer with
  | some credentials => rfl
  | none =>
    cases ho : c.oldCache.lookup peer with
    | none => rfl
    | some credentials =>
      by_cases hp : p = peer
      · subst hp
        simp [cached,hc,ho]
      · simp [cached,AList.lookup_insert_ne hp,AList.lookup_erase_ne hp]

/-- With an answer at hand nobody joins a query. -/
theorem get_asked_found {c : CredentialsCache Callback} {peer : Peer} (callback : Callback)
    (h : (c.cached peer).isSome) (p : Peer) : (c.get peer callback).1.asked p = c.asked p := by
  unfold get
  unfold cached at h
  cases hc : c.cache.lookup peer with
  | some credentials => rfl
  | none =>
    cases ho : c.oldCache.lookup peer with
    | some credentials => rfl
    | none => simp [hc,ho] at h

/-- Without one the callback joins the query, or is lost if that was just answered. -/
theorem get_asked_missing {c : CredentialsCache Callback} {peer : Peer} (callback : Callback)
    (h : c.cached peer = none) :
    (c.get peer callback).1.asked peer = c.asked peer ++ [callback] ∨
      (c.get peer callback).1.asked peer = c.asked peer := by
  unfold get
  unfold cached at h
  obtain ⟨hc,ho⟩ := Option.or_eq_none_iff.mp h
  simp only [hc,ho]
  cases hq : c.pending peer with
  | none => simp [asked,hq]
  | some q => cases hr : q.replied <;> simp [asked,hq,hr]

theorem get_asked_other (c : CredentialsCache Callback) (callback : Callback) {peer p : Peer}
    (h : p ≠ peer) : (c.get peer callback).1.asked p = c.asked p := by
  unfold get
  cases hc : c.cache.lookup peer with
  | some credentials => rfl
  | none =>
    cases ho : c.oldCache.lookup peer with
    | some credentials => rfl
    | none => simp [asked,Function.update_of_ne h]

/-- What is found after an answer is that answer, or was found before. -/
theorem receivedCredentials_cached {c : CredentialsCache Callback} {peer p : Peer}
    {reply : BusReply} {credentials : Credentials}
    (h : (c.receivedCredentials peer reply).1.cached p = some credentials) :
    (p = peer ∧ credentials = reply.credentials c.apparmorEnabled) ∨
      c.cached p = some credentials := by
  have hgen : ∀ {d : Credentials}, c.newGeneration.cached p = some d → c.cached p = some d := by
    intro d hd
    unfold newGeneration at hd
    split at hd
    · have hd : c.cache.lookup p = some d := by simpa [cached] using hd
      simp [cached,hd]
    · exact hd
  have hemp : (c.newGeneration.emplace peer (reply.credentials c.apparmorEnabled)).cached p
      = some credentials := by
    simp only [receivedCredentials] at h
    split at h <;> exact h
  unfold emplace at hemp
  split at hemp
  · exact Or.inr (hgen hemp)
  · by_cases hp : p = peer
    · subst hp
      have hins : reply.credentials c.apparmorEnabled = credentials := by
        simpa [cached] using hemp
      exact Or.inl ⟨rfl,hins.symm⟩
    · refine Or.inr (hgen ?_)
      simpa [cached,AList.lookup_insert_ne hp] using hemp

@[simp] theorem newGeneration_pending (c : CredentialsCache Callback) :
    c.newGeneration.pending = c.pending := by
  unfold newGeneration
  split <;> rfl

@[simp] theorem emplace_pending (c : CredentialsCache Callback) (peer : Peer)
    (credentials : Credentials) : (c.emplace peer credentials).pending = c.pending := by
  unfold emplace
  split <;> rfl

/-- The answer takes the callbacks of the peer, and of no other. -/
theorem receivedCredentials_asked {c : CredentialsCache Callback} {peer : Peer}
    (reply : BusReply) {callbacks : List Callback}
    (h : c.pending peer = some ⟨callbacks,false⟩) :
    (c.receivedCredentials peer reply).2 = (reply.credentials c.apparmorEnabled,callbacks) ∧
      c.asked peer = callbacks ∧
      (c.receivedCredentials peer reply).1.asked peer = [] ∧
      ∀ p, p ≠ peer → (c.receivedCredentials peer reply).1.asked p = c.asked p := by
  have hp : (c.newGeneration.emplace peer (reply.credentials c.apparmorEnabled)).pending
      = c.pending := by simp
  refine ⟨?_,by simp [asked,h],?_,fun p hne => ?_⟩ <;> simp only [receivedCredentials,hp,h]
  · simp [asked]
  · simp [asked,Function.update_of_ne hne]

/-- Dropping an answered query drops nobody who waits. -/
theorem erasePending_asked (c : CredentialsCache Callback) (peer p : Peer) :
    (c.erasePending peer).asked p = if p = peer then [] else c.asked p := by
  by_cases h : p = peer
  · simp [asked,erasePending,h]
  · simp [asked,erasePending,h]

@[simp] theorem erasePending_cached (c : CredentialsCache Callback) (peer p : Peer) :
    (c.erasePending peer).cached p = c.cached p := rfl

/-! ### Whether AppArmor is enabled -/

section Enabled

variable (c : CredentialsCache Callback) (peer : Peer)

@[simp] theorem get_apparmorEnabled (callback : Callback) :
    (c.get peer callback).1.apparmorEnabled = c.apparmorEnabled := by
  unfold get
  split
  · rfl
  · split <;> rfl

@[simp] theorem newGeneration_apparmorEnabled :
    c.newGeneration.apparmorEnabled = c.apparmorEnabled := by
  unfold newGeneration
  split <;> rfl

@[simp] theorem emplace_apparmorEnabled (credentials : Credentials) :
    (c.emplace peer credentials).apparmorEnabled = c.apparmorEnabled := by
  unfold emplace
  split <;> rfl

@[simp] theorem receivedCredentials_apparmorEnabled (reply : BusReply) :
    (c.receivedCredentials peer reply).1.apparmorEnabled = c.apparmorEnabled := by
  simp only [receivedCredentials]
  split <;> simp

end Enabled

/-! ### The keys of the maps -/

/-- No peer is in both generations. -/
def Separate (c : CredentialsCache Callback) : Prop := ∀ p, p ∈ c.cache → p ∉ c.oldCache

/-- The query that `get()` leaves for a peer that is not cached. -/
def joined (c : CredentialsCache Callback) (peer : Peer) (callback : Callback) : Query Callback :=
  match c.pending peer with
  | some q => { q with callbacks := q.callbacks ++ [callback] }
  | none => ⟨[callback],false⟩

section Keys

variable {c : CredentialsCache Callback} {peer p : Peer}

theorem cached_eq_none : c.cached peer = none ↔ peer ∉ c.cache ∧ peer ∉ c.oldCache := by
  rw [cached,Option.or_eq_none_iff,AList.lookup_eq_none,AList.lookup_eq_none]

theorem get_pending_found (callback : Callback) (h : (c.cached peer).isSome) :
    (c.get peer callback).1.pending = c.pending := by
  unfold get
  unfold cached at h
  cases hc : c.cache.lookup peer with
  | some credentials => rfl
  | none =>
    cases ho : c.oldCache.lookup peer with
    | some credentials => rfl
    | none => simp [hc,ho] at h

theorem get_missing (callback : Callback) (h : c.cached peer = none) :
    (c.get peer callback).1 =
      { c with pending := Function.update c.pending peer (some (c.joined peer callback)) } := by
  obtain ⟨hc,ho⟩ := Option.or_eq_none_iff.mp h
  simp only [get,hc,ho]
  rfl

/-- A find in the old generation moves, and stays in one of them. -/
theorem get_separate (callback : Callback) (h : c.Separate) :
    (c.get peer callback).1.Separate := by
  unfold get
  cases hc : c.cache.lookup peer with
  | some credentials => exact h
  | none =>
    cases ho : c.oldCache.lookup peer with
    | none => exact h
    | some credentials =>
      intro q hq hold
      obtain ⟨hne,hold⟩ := AList.mem_erase.mp hold
      exact h q ((AList.mem_insert _).mp hq |>.resolve_left hne) hold

theorem newGeneration_separate (h : c.Separate) : c.newGeneration.Separate := by
  unfold newGeneration
  split
  · exact fun q hq => absurd hq (AList.notMem_empty q)
  · exact h

theorem newGeneration_missing (h : c.cached peer = none) : c.newGeneration.cached peer = none := by
  obtain ⟨hc,ho⟩ := cached_eq_none.mp h
  rw [cached_eq_none]
  unfold newGeneration
  split
  · exact ⟨AList.notMem_empty peer,hc⟩
  · exact ⟨hc,ho⟩

variable (reply : BusReply)

theorem receivedCredentials_pending {q : Query Callback} (h : c.pending peer = some q) :
    (c.receivedCredentials peer reply).1 =
      { c.newGeneration.emplace peer (reply.credentials c.apparmorEnabled) with
        pending := Function.update c.pending peer (some { q with replied := true }) } := by
  have hp : (c.newGeneration.emplace peer (reply.credentials c.apparmorEnabled)).pending =
      c.pending := by
    simp
  simp only [receivedCredentials,hp,h]

/-- The credentials of a peer that was not cached go to the current generation. -/
theorem emplace_missing {credentials : Credentials} (h : c.cached peer = none) :
    c.emplace peer credentials = { c with cache := c.cache.insert peer credentials } := by
  have hnone : c.cache.lookup peer = none := (Option.or_eq_none_iff.mp h).1
  rw [emplace,hnone]
  rfl

variable {q : Query Callback} (hq : c.pending peer = some q) (hmissing : c.cached peer = none)
include hq hmissing

theorem receivedCredentials_separate (h : c.Separate) :
    (c.receivedCredentials peer reply).1.Separate := by
  have hnew := newGeneration_missing hmissing
  rw [receivedCredentials_pending reply hq,emplace_missing hnew]
  intro r hr hold
  rcases (AList.mem_insert _).mp hr with rfl | hr
  · exact (cached_eq_none.mp hnew).2 hold
  · exact newGeneration_separate h r hr hold

theorem receivedCredentials_cached_self : (c.receivedCredentials peer reply).1.cached peer =
    some (reply.credentials c.apparmorEnabled) := by
  rw [receivedCredentials_pending reply hq,emplace_missing (newGeneration_missing hmissing)]
  simp [cached,AList.lookup_insert]

end Keys

end CredentialsCache
end UnityThumbnailer
