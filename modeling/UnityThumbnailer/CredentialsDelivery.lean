import UnityThumbnailer.CredentialsCache
import UnityThumbnailer.EventSystem
import Mathlib.Data.List.Nodup
import Mathlib.Order.Basic
import Mathlib.Tactic.Common

/-! The callbacks of the credentials cache, over all orders of requests and answers. While
the callbacks of a query are being called, its request is still in the map, and they may ask
for credentials themselves. -/
namespace UnityThumbnailer

open EventSystem

namespace CredentialsDelivery

/-- Callbacks are numbered in the order they are passed to `get()`. -/
inductive Record
  | asked (n : ℕ) (peer : Peer)
  | sent (peer : Peer)
  | reported (peer : Peer) (reply : BusReply)
  | invoked (n : ℕ) (credentials : Credentials)
  deriving DecidableEq

/-! ### What a history says -/

def Record.invokes : Record → Option ℕ
  | .invoked n _ => some n
  | _ => none

def invokedCallbacks (log : List Record) : List ℕ := log.filterMap Record.invokes

/-- What the bus has said about the peer last. -/
def lastReported (peer : Peer) : List Record → Option BusReply
  | [] => none
  | .reported p reply::log => if p = peer then some reply else lastReported peer log
  | _::log => lastReported peer log

def queries (peer : Peer) (log : List Record) : ℕ := log.countP (· = .sent peer)

def Record.answers (peer : Peer) : Record → Bool
  | .reported p _ => p = peer
  | _ => false

def answers (peer : Peer) (log : List Record) : ℕ := log.countP (Record.answers peer)

/-- The bus has reported on the peer since the callback was passed. -/
def Answered (n : ℕ) (peer : Peer) (log : List Record) : Prop :=
  ∃ past reply, .reported peer reply::past <:+ log ∧ .asked n peer ∈ past

/-- A callback gets what the bus has said last about its peer, and a query is sent when
those before it are answered. -/
def Allowed (apparmorEnabled : Bool) (past : List Record) : Record → Prop
  | .invoked n credentials => ∃ peer reply, .asked n peer ∈ past ∧
    lastReported peer past = some reply ∧ reply.Says apparmorEnabled credentials
  | .sent peer => queries peer past = answers peer past
  | _ => True

/-! ### The cache with its clients and the bus -/

/-- The loop over the callbacks of an answered query, with those that are left. -/
structure Frame where
  peer : Peer
  credentials : Credentials
  callbacks : List ℕ
  rest : List ℕ

structure Delivery where
  cache : CredentialsCache ℕ
  gets : ℕ
  frame : Option Frame
  log : List Record

inductive Event
  | get (peer : Peer)
  | reply (peer : Peer) (reply : BusReply)
  /-- The loop calls the next callback. -/
  | next
  /-- The loop is over, and the request is removed. -/
  | finish

def new (apparmorEnabled : Bool) : Delivery := ⟨.new apparmorEnabled,0,none,[]⟩

namespace Delivery

/-- What `get()` does besides keeping the callback. -/
def response (s : Delivery) (peer : Peer) : List Record :=
  match (s.cache.get peer s.gets).2 with
  | some credentials => [.invoked s.gets credentials]
  | none => if (s.cache.pending peer).isNone then [.sent peer] else []

def get (s : Delivery) (peer : Peer) : Delivery :=
  { s with
    cache := (s.cache.get peer s.gets).1
    gets := s.gets+1
    log := s.response peer ++ .asked s.gets peer::s.log }

/-- The answer of the bus enters the loop. -/
def reply (s : Delivery) (peer : Peer) (reply : BusReply) : Delivery :=
  let r := s.cache.receivedCredentials peer reply
  { s with
    cache := r.1
    frame := some ⟨peer,r.2.1,r.2.2,r.2.2⟩
    log := .reported peer reply::s.log }

end Delivery

/-- All histories. Requests may also come from inside callbacks, while answers are handled
one after the other. -/
def delivery : Machine Delivery Event where
  step s
    | .get peer => some (s.get peer)
    | .reply peer reply =>
      match s.frame,s.cache.pending peer with
      | none,some q => if q.replied then none else some (s.reply peer reply)
      | _,_ => none
    | .next =>
      match s.frame with
      | some ⟨peer,credentials,callbacks,n::rest⟩ => some { s with
          frame := some ⟨peer,credentials,callbacks,rest⟩, log := .invoked n credentials::s.log }
      | _ => none
    | .finish =>
      match s.frame with
      | some ⟨peer,_,_,[]⟩ => some { s with cache := s.cache.erasePending peer, frame := none }
      | _ => none

/-- No query is sent for a peer that is cached. -/
def SendsIfMissing (s : Delivery) : Event → Prop
  | .get peer => .sent peer ∈ s.response peer → s.cache.cached peer = none
  | _ => True

/-- The query of the peer that is not answered yet is in the map. -/
def Waits (s : Delivery) (peer : Peer) : Prop :=
  ∃ q, s.cache.pending peer = some q ∧ q.replied = false

/-- The callbacks of the peer that are still to be called by the loop. -/
def rest (s : Delivery) (peer : Peer) : List ℕ :=
  match s.frame with
  | some f => if f.peer = peer then f.rest else []
  | none => []

/-- The callbacks that wait for credentials of the peer. -/
def waiting (s : Delivery) (peer : Peer) : List ℕ := s.cache.asked peer ++ rest s peer

/-! ### Histories -/

section History

variable {log : List Record} {n m : ℕ} {peer p : Peer} {credentials : Credentials}
  {reply : BusReply}

@[simp] theorem invokedCallbacks_asked :
    invokedCallbacks (.asked n peer::log) = invokedCallbacks log := rfl
@[simp] theorem invokedCallbacks_sent :
    invokedCallbacks (.sent peer::log) = invokedCallbacks log := rfl
@[simp] theorem invokedCallbacks_reported :
    invokedCallbacks (.reported peer reply::log) = invokedCallbacks log := rfl
@[simp] theorem invokedCallbacks_invoked :
    invokedCallbacks (.invoked n credentials::log) = n::invokedCallbacks log := rfl

@[simp] theorem lastReported_asked :
    lastReported p (.asked n peer::log) = lastReported p log := rfl
@[simp] theorem lastReported_sent : lastReported p (.sent peer::log) = lastReported p log := rfl
@[simp] theorem lastReported_invoked :
    lastReported p (.invoked n credentials::log) = lastReported p log := rfl
@[simp] theorem lastReported_self :
    lastReported peer (.reported peer reply::log) = some reply := if_pos rfl

theorem lastReported_other (h : p ≠ peer) :
    lastReported p (.reported peer reply::log) = lastReported p log := if_neg h.symm

@[simp] theorem queries_asked : queries p (.asked n peer::log) = queries p log := by
  simp [queries]
@[simp] theorem queries_reported :
    queries p (.reported peer reply::log) = queries p log := by
  simp [queries]
@[simp] theorem queries_invoked : queries p (.invoked n credentials::log) = queries p log := by
  simp [queries]
@[simp] theorem queries_self : queries peer (.sent peer::log) = queries peer log+1 := by
  simp [queries]

theorem queries_other (h : p ≠ peer) : queries p (.sent peer::log) = queries p log := by
  simp [queries,h.symm]

@[simp] theorem answers_asked : answers p (.asked n peer::log) = answers p log := by
  simp [answers,Record.answers]
@[simp] theorem answers_sent : answers p (.sent peer::log) = answers p log := by
  simp [answers,Record.answers]
@[simp] theorem answers_invoked : answers p (.invoked n credentials::log) = answers p log := by
  simp [answers,Record.answers]
@[simp] theorem answers_self :
    answers peer (.reported peer reply::log) = answers peer log+1 := by
  simp [answers,Record.answers]

theorem answers_other (h : p ≠ peer) :
    answers p (.reported peer reply::log) = answers p log := by
  simp [answers,Record.answers,h.symm]

/-- Only an answer on the peer is news for its callbacks. -/
theorem answered_cons {r : Record} : Answered n peer (r::log) ↔
    (∃ reply, r = .reported peer reply) ∧ .asked n peer ∈ log ∨
      Answered n peer log := by
  constructor
  · rintro ⟨past,reply,hsuffix,hasked⟩
    rcases List.suffix_cons_iff.mp hsuffix with heq | hsuffix
    · obtain ⟨rfl,rfl⟩ := List.cons.inj heq
      exact Or.inl ⟨⟨reply,rfl⟩,hasked⟩
    · exact Or.inr ⟨past,reply,hsuffix,hasked⟩
  · rintro (⟨⟨reply,rfl⟩,hasked⟩ | ⟨past,reply,hsuffix,hasked⟩)
    · exact ⟨log,reply,List.suffix_rfl,hasked⟩
    · exact ⟨past,reply,hsuffix.trans (List.suffix_cons _ _),hasked⟩

theorem answered_other {r : Record} (h : ∀ reply, r ≠ .reported peer reply) :
    Answered n peer (r::log) ↔ Answered n peer log :=
  answered_cons.trans (or_iff_right fun hr => h _ hr.1.choose_spec)

theorem Answered.asked (h : Answered n peer log) : .asked n peer ∈ log := by
  obtain ⟨past,reply,hsuffix,hasked⟩ := h
  exact hsuffix.mem (List.mem_cons_of_mem _ hasked)

end History

/-! ### The maps -/

/-- What holds of the maps, also while the loop is going on. -/
structure Maps (s : Delivery) : Prop where
  separate : s.cache.Separate
  missing : ∀ p, Waits s p → s.cache.cached p = none
  frame : ∀ f ∈ s.frame, s.cache.pending f.peer = some ⟨f.callbacks,true⟩ ∧
    s.cache.cached f.peer = some f.credentials
  replied : ∀ p q, s.cache.pending p = some q → q.replied = true → ∃ f ∈ s.frame, f.peer = p
  known : ∀ p credentials, s.cache.cached p = some credentials → ∃ reply,
    lastReported p s.log = some reply ∧ reply.Says s.cache.apparmorEnabled credentials
  waits : ∀ p, Waits s p → queries p s.log = answers p s.log+1
  idle : ∀ p, ¬ Waits s p → queries p s.log = answers p s.log

section Maps

variable {s t : Delivery} {peer p : Peer}

theorem new_maps (b : Bool) : Maps (new b) where
  separate _ hp := absurd hp (AList.notMem_empty _)
  missing _ _ := rfl
  frame _ hf := by cases hf
  replied _ _ hq := by cases hq
  known _ _ hc := by cases hc
  waits _ hw := by
    obtain ⟨q,hq,-⟩ := hw
    cases hq
  idle _ _ := rfl

/-- A request is answered at once, or joins the query for its peer, which is sent if there
is none. -/
theorem Maps.get_cases (h : Maps s) (peer : Peer) :
    (∃ credentials, s.cache.cached peer = some credentials ∧
      s.response peer = [.invoked s.gets credentials] ∧
        (s.get peer).cache.pending = s.cache.pending) ∨
    (s.cache.cached peer = none ∧ ∃ callbacks, (s.get peer).cache.pending =
        Function.update s.cache.pending peer (some ⟨callbacks ++ [s.gets],false⟩) ∧
      (s.response peer = [.sent peer] ∧ s.cache.pending peer = none ∧ callbacks = [] ∨
        s.response peer = [] ∧ s.cache.pending peer = some ⟨callbacks,false⟩)) := by
  have hfound := s.cache.get_found peer s.gets
  cases hc : s.cache.cached peer with
  | some credentials =>
    refine Or.inl ⟨credentials,rfl,?_,CredentialsCache.get_pending_found s.gets (by rw [hc]; rfl)⟩
    simp only [Delivery.response,hfound,hc]
  | none =>
    have hget := CredentialsCache.get_missing s.gets hc
    refine Or.inr ⟨rfl,?_⟩
    cases hq : s.cache.pending peer with
    | none =>
      refine ⟨[],?_,Or.inl ⟨?_,rfl,rfl⟩⟩
      · simp only [Delivery.get,hget,CredentialsCache.joined,hq,List.nil_append]
      · simp only [Delivery.response,hfound,hc,hq]
        rfl
    | some q =>
      obtain ⟨callbacks,replied⟩ := q
      have hreplied : replied = false := by
        cases replied with
        | false => rfl
        | true =>
          obtain ⟨f,hf,rfl⟩ := h.replied peer _ hq rfl
          rw [(h.frame f hf).2] at hc
          cases hc
      subst hreplied
      refine ⟨callbacks,?_,Or.inr ⟨?_,rfl⟩⟩
      · simp only [Delivery.get,hget,CredentialsCache.joined,hq]
      · simp only [Delivery.response,hfound,hc,hq]
        rfl

theorem get_cached (p : Peer) : (s.get peer).cache.cached p = s.cache.cached p :=
  s.cache.get_cached peer s.gets p

theorem get_enabled : (s.get peer).cache.apparmorEnabled = s.cache.apparmorEnabled :=
  s.cache.get_apparmorEnabled peer s.gets

theorem Maps.get_separate (h : Maps s) (peer : Peer) : (s.get peer).cache.Separate :=
  CredentialsCache.get_separate s.gets h.separate

theorem Maps.get_found (h : Maps s) {credentials : Credentials}
    (hresponse : s.response peer = [.invoked s.gets credentials])
    (hpending : (s.get peer).cache.pending = s.cache.pending) : Maps (s.get peer) := by
  have hlog : (s.get peer).log = .invoked s.gets credentials::.asked s.gets peer::s.log := by
    simp only [Delivery.get,hresponse]
    rfl
  have hwaits : ∀ p, Waits (s.get peer) p ↔ Waits s p := fun p => by
    rw [Waits,Waits,hpending]
  refine ⟨h.get_separate peer,fun p hp => ?_,fun f hf => ?_,fun p q hq => ?_,fun p cr hp => ?_,
    fun p hp => ?_,fun p hp => ?_⟩
  · rw [get_cached]
    exact h.missing p ((hwaits p).mp hp)
  · rw [hpending,get_cached]
    exact h.frame f hf
  · rw [hpending] at hq
    exact h.replied p q hq
  · rw [get_cached] at hp
    rw [hlog,get_enabled]
    exact h.known p cr hp
  · rw [hlog]
    simpa using h.waits p ((hwaits p).mp hp)
  · rw [hlog]
    simpa using h.idle p (fun hw => hp ((hwaits p).mpr hw))

theorem Maps.get_missing (h : Maps s) {callbacks : List ℕ} (hc : s.cache.cached peer = none)
    (hget : (s.get peer).cache.pending =
      Function.update s.cache.pending peer (some ⟨callbacks ++ [s.gets],false⟩))
    (hresponse : s.response peer = [.sent peer] ∧ s.cache.pending peer = none ∧ callbacks = [] ∨
      s.response peer = [] ∧ s.cache.pending peer = some ⟨callbacks,false⟩) :
    Maps (s.get peer) := by
  have hself : Waits (s.get peer) peer :=
    ⟨_,by rw [hget,Function.update_self],rfl⟩
  have hother : ∀ {p}, p ≠ peer → (s.get peer).cache.pending p = s.cache.pending p :=
    fun hne => by rw [hget,Function.update_of_ne hne]
  have hwaits : ∀ {p}, p ≠ peer → (Waits (s.get peer) p ↔ Waits s p) := fun hne => by
    rw [Waits,Waits,hother hne]
  have hlog : (s.get peer).log = s.response peer ++ .asked s.gets peer::s.log := rfl
  have hreported : ∀ p, lastReported p (s.get peer).log = lastReported p s.log ∧
      answers p (s.get peer).log = answers p s.log := by
    intro p
    rw [hlog]
    rcases hresponse with ⟨hresponse,-,-⟩ | ⟨hresponse,-⟩ <;> rw [hresponse] <;> simp
  have hqueries : ∀ {p}, p ≠ peer → queries p (s.get peer).log = queries p s.log := by
    intro p hne
    rw [hlog]
    rcases hresponse with ⟨hresponse,-,-⟩ | ⟨hresponse,-⟩ <;> rw [hresponse]
    · exact (queries_other hne).trans queries_asked
    · exact queries_asked
  have hone : queries peer (s.get peer).log = answers peer s.log+1 := by
    rw [hlog]
    rcases hresponse with ⟨hresponse,hnone,-⟩ | ⟨hresponse,hsome⟩ <;> rw [hresponse]
    · have hidle : ¬ Waits s peer := fun ⟨q,hq,_⟩ => by simp [hnone] at hq
      simpa using h.idle peer hidle
    · simpa using h.waits peer ⟨_,hsome,rfl⟩
  refine ⟨h.get_separate peer,fun p hp => ?_,fun f hf => ?_,fun p q hq hr => ?_,fun p cr hp => ?_,
    fun p hp => ?_,fun p hp => ?_⟩
  · rw [get_cached]
    by_cases hne : p = peer
    · rw [hne]
      exact hc
    · exact h.missing p ((hwaits hne).mp hp)
  · obtain ⟨hpending,hcr⟩ := h.frame f hf
    have hne : f.peer ≠ peer := fun heq => by simp [heq,hc] at hcr
    rw [hother hne,get_cached]
    exact ⟨hpending,hcr⟩
  · by_cases hne : p = peer
    · subst hne
      rw [hget,Function.update_self] at hq
      cases hq
      cases hr
    · rw [hother hne] at hq
      exact h.replied p q hq hr
  · rw [get_cached] at hp
    rw [(hreported p).1,get_enabled]
    exact h.known p cr hp
  · rw [(hreported p).2]
    by_cases hne : p = peer
    · rw [hne]
      exact hone
    · rw [hqueries hne]
      exact h.waits p ((hwaits hne).mp hp)
  · have hne : p ≠ peer := fun heq => hp (heq ▸ hself)
    rw [(hreported p).2,hqueries hne]
    exact h.idle p fun hw => hp ((hwaits hne).mpr hw)

theorem Maps.get (h : Maps s) (peer : Peer) : Maps (s.get peer) := by
  rcases h.get_cases peer with ⟨credentials,-,hresponse,hpending⟩ |
    ⟨hc,callbacks,hget,hresponse⟩
  · exact h.get_found hresponse hpending
  · exact h.get_missing hc hget hresponse

section Reply

variable {callbacks : List ℕ} (answer : BusReply)
  (hq : s.cache.pending peer = some ⟨callbacks,false⟩)
include hq

/-- The credentials that the bus reports enter the loop with the callbacks of the query. -/
theorem reply_eq : (s.reply peer answer).frame =
      some ⟨peer,answer.credentials s.cache.apparmorEnabled,callbacks,callbacks⟩ ∧
    (s.reply peer answer).log = .reported peer answer::s.log ∧
    (s.reply peer answer).cache.pending =
      Function.update s.cache.pending peer (some ⟨callbacks,true⟩) := by
  obtain ⟨hreceived,-⟩ := CredentialsCache.receivedCredentials_asked answer hq
  have hpending := CredentialsCache.receivedCredentials_pending answer hq
  simp only [Delivery.reply,hreceived,hpending]
  exact ⟨trivial,trivial,trivial⟩

omit hq in
theorem reply_enabled : (s.reply peer answer).cache.apparmorEnabled = s.cache.apparmorEnabled :=
  s.cache.receivedCredentials_apparmorEnabled peer answer

theorem Maps.reply (h : Maps s) (hframe : s.frame = none) : Maps (s.reply peer answer) := by
  have hmissing : s.cache.cached peer = none := h.missing peer ⟨_,hq,rfl⟩
  obtain ⟨hnew,hlog,hpending⟩ := reply_eq answer hq
  have hself := CredentialsCache.receivedCredentials_cached_self answer hq hmissing
  have hold : ∀ {p cr}, p ≠ peer → (s.reply peer answer).cache.cached p = some cr →
      s.cache.cached p = some cr :=
    fun hne hcr => (CredentialsCache.receivedCredentials_cached hcr).resolve_left fun hp => hne hp.1
  have hother : ∀ {p}, p ≠ peer → (s.reply peer answer).cache.pending p = s.cache.pending p :=
    fun hne => by rw [hpending,Function.update_of_ne hne]
  have hdone : ¬ Waits (s.reply peer answer) peer := by
    rintro ⟨q,hq,hreplied⟩
    rw [hpending,Function.update_self] at hq
    cases hq
    cases hreplied
  have hwaits : ∀ {p}, p ≠ peer → (Waits (s.reply peer answer) p ↔ Waits s p) := fun hne => by
    rw [Waits,Waits,hother hne]
  refine ⟨CredentialsCache.receivedCredentials_separate answer hq hmissing h.separate,
    fun p hp => ?_,fun f hf => ?_,fun p q hq hr => ?_,fun p cr hp => ?_,fun p hp => ?_,
    fun p hp => ?_⟩
  · have hne : p ≠ peer := fun heq => hdone (heq ▸ hp)
    have hnone := h.missing p ((hwaits hne).mp hp)
    cases hcr : (s.reply peer answer).cache.cached p with
    | none => rfl
    | some cr =>
      rw [hold hne hcr] at hnone
      cases hnone
  · rw [hnew] at hf
    cases hf
    exact ⟨by rw [hpending,Function.update_self],hself⟩
  · by_cases hne : p = peer
    · exact ⟨_,hnew,hne.symm⟩
    · rw [hother hne] at hq
      obtain ⟨f,hf,-⟩ := h.replied p q hq hr
      rw [hframe] at hf
      cases hf
  · rw [hlog,reply_enabled]
    by_cases hne : p = peer
    · subst hne
      exact ⟨answer,lastReported_self,
        BusReply.says_iff.mpr (Option.some.inj (hp.symm.trans hself))⟩
    · rw [lastReported_other hne]
      exact h.known p cr (hold hne hp)
  · have hne : p ≠ peer := fun heq => hdone (heq ▸ hp)
    rw [hlog,queries_reported,answers_other hne]
    exact h.waits p ((hwaits hne).mp hp)
  · rw [hlog,queries_reported]
    by_cases hne : p = peer
    · subst hne
      rw [answers_self]
      exact h.waits p ⟨_,hq,rfl⟩
    · rw [answers_other hne]
      exact h.idle p fun hw => hp ((hwaits hne).mpr hw)

end Reply

theorem Maps.next {f : Frame} {n : ℕ} {rest : List ℕ} (h : Maps s) (hf : s.frame = some f) :
    Maps { s with frame := some { f with rest := rest }, log := .invoked n f.credentials::s.log } where
  separate := h.separate
  missing := h.missing
  frame g hg := by
    cases hg
    exact h.frame f hf
  replied p q hq hr := by
    obtain ⟨g,hg,hpeer⟩ := h.replied p q hq hr
    cases hf.symm.trans hg
    exact ⟨_,rfl,hpeer⟩
  known := h.known
  waits p hp := by simpa using h.waits p hp
  idle p hp := by simpa using h.idle p hp

/-- When the loop is over, no answered query is left. -/
theorem Maps.finish {f : Frame} (h : Maps s) (hf : s.frame = some f) :
    Maps { s with cache := s.cache.erasePending f.peer, frame := none } := by
  obtain ⟨hpending,-⟩ := h.frame f hf
  have hother : ∀ {p}, p ≠ f.peer → (s.cache.erasePending f.peer).pending p = s.cache.pending p :=
    fun hne => Function.update_of_ne hne _ _
  have hself : (s.cache.erasePending f.peer).pending f.peer = none := Function.update_self _ _ _
  have hwaits : ∀ p, Waits { s with cache := s.cache.erasePending f.peer, frame := none } p ↔
      Waits s p := by
    intro p
    by_cases hne : p = f.peer
    · subst hne
      refine iff_of_false (fun ⟨q,hq,_⟩ => ?_) (fun ⟨q,hq,hr⟩ => ?_)
      · rw [hself] at hq
        cases hq
      · rw [hpending] at hq
        cases hq
        cases hr
    · simp only [Waits,hother hne]
  refine ⟨h.separate,fun p hp => h.missing p ((hwaits p).mp hp),fun g hg => (by cases hg),
    fun p q hq hr => ?_,h.known,fun p hp => h.waits p ((hwaits p).mp hp),
    fun p hp => h.idle p fun hw => hp ((hwaits p).mpr hw)⟩
  by_cases hne : p = f.peer
  · subst hne
    rw [hself] at hq
    cases hq
  · rw [hother hne] at hq
    obtain ⟨g,hg,hpeer⟩ := h.replied p q hq hr
    cases hf.symm.trans hg
    exact absurd hpeer.symm hne

end Maps

/-! ### The callbacks -/

/-- Every callback has been invoked or waits, and not both. -/
structure Calls (s : Delivery) : Prop where
  asked_lt : ∀ n p, .asked n p ∈ s.log → n < s.gets
  asked_inj : ∀ n p p', .asked n p ∈ s.log → .asked n p' ∈ s.log → p = p'
  invoked : ∀ n ∈ invokedCallbacks s.log, ∃ p, .asked n p ∈ s.log
  nodup : (invokedCallbacks s.log).Nodup
  waits : ∀ n p, n ∈ waiting s p → .asked n p ∈ s.log ∧ n ∉ invokedCallbacks s.log
  waiting_nodup : ∀ p, (waiting s p).Nodup
  unanswered : ∀ n p, n ∈ s.cache.asked p → ¬ Answered n p s.log
  served : ∀ n p, .asked n p ∈ s.log → n ∈ invokedCallbacks s.log ∨ n ∈ waiting s p

section Calls

variable {s : Delivery} {peer p : Peer} {n : ℕ}

theorem new_calls (b : Bool) : Calls (new b) where
  asked_lt _ _ hn := by cases hn
  asked_inj _ _ _ hn := by cases hn
  invoked _ hn := by cases hn
  nodup := List.nodup_nil
  waits _ _ hn := by cases hn
  waiting_nodup _ := List.nodup_nil
  unanswered _ _ hn := by cases hn
  served _ _ hn := by cases hn

theorem asked_congr {c d : CredentialsCache ℕ} (h : c.pending p = d.pending p) :
    c.asked p = d.asked p := by
  simp only [CredentialsCache.asked,h]

theorem asked_some {c : CredentialsCache ℕ} {callbacks : List ℕ} {replied : Bool}
    (h : c.pending p = some ⟨callbacks,replied⟩) :
    c.asked p = if replied then [] else callbacks := by
  simp only [CredentialsCache.asked,h]

theorem asked_none {c : CredentialsCache ℕ} (h : c.pending p = none) : c.asked p = [] := by
  simp only [CredentialsCache.asked,h]

theorem Calls.fresh (h : Calls s) : (∀ p, .asked s.gets p ∉ s.log) ∧
    s.gets ∉ invokedCallbacks s.log ∧ ∀ p, s.gets ∉ waiting s p := by
  have hasked : ∀ p, .asked s.gets p ∉ s.log := fun p hp => absurd (h.asked_lt _ p hp) (lt_irrefl _)
  refine ⟨hasked,fun hn => ?_,fun p hn => hasked p (h.waits _ p hn).1⟩
  obtain ⟨p,hp⟩ := h.invoked _ hn
  exact hasked p hp

theorem mem_response {r : Record} (hr : r ∈ s.response peer) :
    r = .sent peer ∨ ∃ credentials, r = .invoked s.gets credentials := by
  unfold Delivery.response at hr
  cases hfound : (s.cache.get peer s.gets).2 with
  | some credentials =>
    rw [hfound] at hr
    exact Or.inr ⟨credentials,List.mem_singleton.mp hr⟩
  | none =>
    simp only [hfound] at hr
    split_ifs at hr
    · exact Or.inl (List.mem_singleton.mp hr)
    · cases hr

/-- The request adds its callback to the history, and answers nobody else. -/
theorem get_log (s : Delivery) (peer : Peer) :
    (∀ n p, .asked n p ∈ (s.get peer).log ↔ n = s.gets ∧ p = peer ∨ .asked n p ∈ s.log) ∧
      ∀ n p, Answered n p (s.get peer).log ↔ Answered n p s.log := by
  refine ⟨fun n p => ?_,fun n p => ?_⟩
  · have hresponse : .asked n p ∉ s.response peer := fun hr => by
      rcases mem_response hr with hr | ⟨cr,hr⟩ <;> cases hr
    simp [Delivery.get,hresponse]
  · have hquiet : ∀ r ∈ s.response peer, ∀ cr, r ≠ .reported p cr := by
      intro r hr cr heq
      subst heq
      rcases mem_response hr with hr | ⟨cr',hr⟩ <;> cases hr
    change Answered n p (s.response peer ++ _) ↔ _
    generalize s.response peer = es at hquiet
    induction es with
    | nil => exact answered_other fun cr => by simp
    | cons r es ih =>
      exact (answered_other (hquiet r List.mem_cons_self)).trans
        (ih fun r hr => hquiet r (List.mem_cons_of_mem _ hr))

/-- The number of the new callback is higher than those before it. -/
theorem Calls.get_asked (h : Calls s) (peer : Peer) :
    (∀ n p, .asked n p ∈ (s.get peer).log → n < (s.get peer).gets) ∧
      ∀ n p p', .asked n p ∈ (s.get peer).log → .asked n p' ∈ (s.get peer).log → p = p' := by
  obtain ⟨hasked,-,-⟩ := h.fresh
  obtain ⟨hmem,-⟩ := get_log s peer
  refine ⟨fun n p hn => ?_,fun n p p' hn hn' => ?_⟩
  · rcases (hmem n p).mp hn with ⟨rfl,-⟩ | hn
    · exact Nat.lt_succ_self _
    · exact (h.asked_lt n p hn).trans (Nat.lt_succ_self _)
  · rcases (hmem n p).mp hn with ⟨rfl,rfl⟩ | hold <;>
      rcases (hmem _ p').mp hn' with ⟨heq,rfl⟩ | hold'
    · rfl
    · exact absurd hold' (hasked p')
    · exact absurd (heq ▸ hold) (hasked p)
    · exact h.asked_inj n p p' hold hold'

theorem Calls.get_found (h : Calls s) {credentials : Credentials}
    (hresponse : s.response peer = [.invoked s.gets credentials])
    (hpending : (s.get peer).cache.pending = s.cache.pending) : Calls (s.get peer) := by
  obtain ⟨hasked,hinvoked,hwaiting⟩ := h.fresh
  obtain ⟨hmem,hanswered⟩ := get_log s peer
  obtain ⟨hlt,hinj⟩ := h.get_asked peer
  have hinvokes : invokedCallbacks (s.get peer).log = s.gets::invokedCallbacks s.log := by
    simp only [Delivery.get,hresponse]
    rfl
  have hcongr : ∀ p, (s.get peer).cache.asked p = s.cache.asked p :=
    fun p => asked_congr (congrFun hpending p)
  have hwaits : ∀ p, waiting (s.get peer) p = waiting s p :=
    fun p => congrArg (· ++ rest s p) (hcongr p)
  refine ⟨hlt,hinj,fun n hn => ?_,?_,fun n p hn => ?_,fun p => ?_,fun n p hn => ?_,
    fun n p hn => ?_⟩
  · rw [hinvokes] at hn
    rcases List.mem_cons.mp hn with rfl | hn
    · exact ⟨peer,(hmem _ _).mpr (Or.inl ⟨rfl,rfl⟩)⟩
    · obtain ⟨p,hp⟩ := h.invoked n hn
      exact ⟨p,(hmem n p).mpr (Or.inr hp)⟩
  · rw [hinvokes]
    exact List.nodup_cons.mpr ⟨hinvoked,h.nodup⟩
  · rw [hwaits] at hn
    obtain ⟨hn',hnot⟩ := h.waits n p hn
    rw [hinvokes]
    refine ⟨(hmem n p).mpr (Or.inr hn'),List.not_mem_cons_of_ne_of_not_mem ?_ hnot⟩
    exact (h.asked_lt n p hn').ne
  · rw [hwaits]
    exact h.waiting_nodup p
  · rw [hcongr] at hn
    rw [hanswered]
    exact h.unanswered n p hn
  · rw [hinvokes,hwaits]
    rcases (hmem n p).mp hn with ⟨rfl,-⟩ | hn
    · exact Or.inl List.mem_cons_self
    · exact (h.served n p hn).imp (List.mem_cons_of_mem _) id

theorem Calls.get_missing (hm : Maps s) (h : Calls s) {callbacks : List ℕ}
    (hc : s.cache.cached peer = none) (hget : (s.get peer).cache.pending =
      Function.update s.cache.pending peer (some ⟨callbacks ++ [s.gets],false⟩))
    (hresponse : s.response peer = [.sent peer] ∧ s.cache.pending peer = none ∧ callbacks = [] ∨
      s.response peer = [] ∧ s.cache.pending peer = some ⟨callbacks,false⟩) :
    Calls (s.get peer) := by
  obtain ⟨hasked,hinvoked,hwaiting⟩ := h.fresh
  obtain ⟨hmem,hanswered⟩ := get_log s peer
  obtain ⟨hlt,hinj⟩ := h.get_asked peer
  have hinvokes : invokedCallbacks (s.get peer).log = invokedCallbacks s.log := by
    rcases hresponse with ⟨hresponse,-,-⟩ | ⟨hresponse,-⟩ <;>
      simp only [Delivery.get,hresponse] <;> rfl
  have hcongr : ∀ {p}, p ≠ peer → (s.get peer).cache.asked p = s.cache.asked p :=
    fun hne => asked_congr (by rw [hget,Function.update_of_ne hne])
  have hbefore : s.cache.asked peer = callbacks := by
    rcases hresponse with ⟨-,hnone,rfl⟩ | ⟨-,hsome⟩
    · exact asked_none hnone
    · exact asked_some hsome
  have hafter : (s.get peer).cache.asked peer = callbacks ++ [s.gets] :=
    asked_some (by rw [hget,Function.update_self])
  have hrest : rest s peer = [] := by
    unfold rest
    cases hf : s.frame with
    | none => rfl
    | some f =>
      refine if_neg fun heq => ?_
      have hcr := (hm.frame f hf).2
      rw [heq,hc] at hcr
      cases hcr
  have hself : waiting (s.get peer) peer = waiting s peer ++ [s.gets] := by
    change (s.get peer).cache.asked peer ++ rest s peer = s.cache.asked peer ++ rest s peer ++ _
    rw [hafter,hbefore,hrest,List.append_nil,List.append_nil]
  have hwaits : ∀ {p}, p ≠ peer → waiting (s.get peer) p = waiting s p :=
    fun {p} hne => congrArg (· ++ rest s p) (hcongr hne)
  have hfresh : ¬ Answered s.gets peer s.log := fun ha => hasked peer ha.asked
  refine ⟨hlt,hinj,fun n hn => ?_,hinvokes ▸ h.nodup,fun n p hn => ?_,fun p => ?_,fun n p hn => ?_,
    fun n p hn => ?_⟩
  · rw [hinvokes] at hn
    obtain ⟨p,hp⟩ := h.invoked n hn
    exact ⟨p,(hmem n p).mpr (Or.inr hp)⟩
  · rw [hinvokes,hmem]
    by_cases hne : p = peer
    · subst hne
      rw [hself] at hn
      rcases List.mem_append.mp hn with hn | hn
      · exact ⟨Or.inr (h.waits n p hn).1,(h.waits n p hn).2⟩
      · obtain rfl := List.mem_singleton.mp hn
        exact ⟨Or.inl ⟨rfl,rfl⟩,hinvoked⟩
    · rw [hwaits hne] at hn
      exact ⟨Or.inr (h.waits n p hn).1,(h.waits n p hn).2⟩
  · by_cases hne : p = peer
    · subst hne
      rw [hself,← List.concat_eq_append]
      exact (h.waiting_nodup p).concat (hwaiting p)
    · rw [hwaits hne]
      exact h.waiting_nodup p
  · rw [hanswered]
    by_cases hne : p = peer
    · subst hne
      rw [hafter,← hbefore] at hn
      rcases List.mem_append.mp hn with hn | hn
      · exact h.unanswered n p hn
      · obtain rfl := List.mem_singleton.mp hn
        exact hfresh
    · rw [hcongr hne] at hn
      exact h.unanswered n p hn
  · rw [hinvokes]
    rcases (hmem n p).mp hn with ⟨rfl,rfl⟩ | hold
    · rw [hself]
      exact Or.inr (List.mem_append_right _ (List.mem_singleton_self _))
    · refine (h.served n p hold).imp id fun hw => ?_
      by_cases hne : p = peer
      · subst hne
        rw [hself]
        exact List.mem_append_left _ hw
      · rw [hwaits hne]
        exact hw

theorem Calls.get (hm : Maps s) (h : Calls s) (peer : Peer) : Calls (s.get peer) := by
  rcases hm.get_cases peer with ⟨credentials,-,hresponse,hpending⟩ |
    ⟨hc,callbacks,hget,hresponse⟩
  · exact h.get_found hresponse hpending
  · exact h.get_missing hm hc hget hresponse

theorem Calls.reply {callbacks : List ℕ} (answer : BusReply) (h : Calls s)
    (hframe : s.frame = none) (hq : s.cache.pending peer = some ⟨callbacks,false⟩) :
    Calls (s.reply peer answer) := by
  obtain ⟨hnew,hlog,hpending⟩ := reply_eq answer hq
  have hself : (s.reply peer answer).cache.asked peer = [] :=
    asked_some (by rw [hpending,Function.update_self])
  have hother : ∀ {p}, p ≠ peer → (s.reply peer answer).cache.asked p = s.cache.asked p :=
    fun hne => asked_congr (by rw [hpending,Function.update_of_ne hne])
  -- the callbacks of the query go on waiting in the loop
  have hwaits : ∀ p, waiting (s.reply peer answer) p = waiting s p := by
    intro p
    unfold waiting rest
    rw [hnew,hframe]
    by_cases hne : p = peer
    · subst hne
      rw [hself,asked_some hq]
      simp
    · rw [hother hne]
      simp [Ne.symm hne]
  have hinvokes : invokedCallbacks (s.reply peer answer).log = invokedCallbacks s.log := by
    rw [hlog,invokedCallbacks_reported]
  have hmem : ∀ {n p}, .asked n p ∈ (s.reply peer answer).log ↔ .asked n p ∈ s.log := by
    intro n p
    rw [hlog]
    simp
  refine ⟨fun n p hn => h.asked_lt n p (hmem.mp hn),
    fun n p p' hn hn' => h.asked_inj n p p' (hmem.mp hn) (hmem.mp hn'),fun n hn => ?_,
    hinvokes ▸ h.nodup,fun n p hn => ?_,fun p => ?_,fun n p hn => ?_,fun n p hn => ?_⟩
  · obtain ⟨p,hp⟩ := h.invoked n (hinvokes ▸ hn)
    exact ⟨p,hmem.mpr hp⟩
  · rw [hwaits] at hn
    rw [hinvokes,hmem]
    exact h.waits n p hn
  · rw [hwaits]
    exact h.waiting_nodup p
  · have hne : p ≠ peer := by
      rintro rfl
      rw [hself] at hn
      cases hn
    rw [hother hne] at hn
    rw [hlog,answered_other fun cr heq => hne (Record.reported.inj heq).1.symm]
    exact h.unanswered n p hn
  · rw [hinvokes,hwaits]
    exact h.served n p (hmem.mp hn)

variable {f : Frame} {rest' : List ℕ}

theorem asked_looping (hm : Maps s) (hf : s.frame = some f) : s.cache.asked f.peer = [] :=
  asked_some (hm.frame f hf).1

/-- The loop invokes the callback that has waited longest. -/
theorem Calls.next (hm : Maps s) (h : Calls s) (hf : s.frame = some f) (hr : f.rest = n::rest') :
    .asked n f.peer ∈ s.log ∧ Calls { s with
      frame := some { f with rest := rest' }, log := .invoked n f.credentials::s.log } := by
  have hbefore : waiting s f.peer = n::rest' := by
    simp only [waiting,rest,asked_looping hm hf,hf,if_true,hr,List.nil_append]
  obtain ⟨hasked,hnot⟩ := h.waits n f.peer (hbefore ▸ List.mem_cons_self)
  have hnodup := h.waiting_nodup f.peer
  rw [hbefore,List.nodup_cons] at hnodup
  let t : Delivery := { s with
    frame := some { f with rest := rest' }, log := .invoked n f.credentials::s.log }
  have hafter : waiting t f.peer = rest' := by
    simp only [t,waiting,rest,asked_looping hm hf,if_true,List.nil_append]
  have hother : ∀ {p}, p ≠ f.peer → waiting t p = waiting s p := fun hne => by
    simp only [t,waiting,rest,hf,if_neg hne.symm]
  have hsub : ∀ m p, m ∈ waiting t p → m ∈ waiting s p ∧ m ≠ n := by
    intro m p hm
    by_cases hne : p = f.peer
    · subst hne
      rw [hafter] at hm
      rw [hbefore]
      exact ⟨List.mem_cons_of_mem _ hm,fun heq => hnodup.1 (heq ▸ hm)⟩
    · rw [hother hne] at hm
      refine ⟨hm,fun heq => hne ?_⟩
      exact h.asked_inj n p f.peer (heq ▸ (h.waits m p hm).1) hasked
  refine ⟨hasked,fun m p hp => ?_,fun m p p' hp hp' => ?_,fun m hp => ?_,
    List.nodup_cons.mpr ⟨hnot,h.nodup⟩,fun m p hp => ?_,fun p => ?_,fun m p hp => ?_,
    fun m p hp => ?_⟩
  · exact h.asked_lt m p (List.mem_of_ne_of_mem (by simp) hp)
  · exact h.asked_inj m p p' (List.mem_of_ne_of_mem (by simp) hp)
      (List.mem_of_ne_of_mem (by simp) hp')
  · rcases List.mem_cons.mp hp with rfl | hp
    · exact ⟨f.peer,List.mem_cons_of_mem _ hasked⟩
    · obtain ⟨p,hp⟩ := h.invoked m hp
      exact ⟨p,List.mem_cons_of_mem _ hp⟩
  · obtain ⟨hwaits,hne⟩ := hsub m p hp
    obtain ⟨hold,hinvoked⟩ := h.waits m p hwaits
    exact ⟨List.mem_cons_of_mem _ hold,List.not_mem_cons_of_ne_of_not_mem hne hinvoked⟩
  · change (waiting t p).Nodup
    by_cases hne : p = f.peer
    · subst hne
      rw [hafter]
      exact hnodup.2
    · rw [hother hne]
      exact h.waiting_nodup p
  · exact fun ha => h.unanswered m p hp ((answered_other fun cr => by simp).mp ha)
  · rcases h.served m p (List.mem_of_ne_of_mem (by simp) hp) with hinvoked | hwaits
    · exact Or.inl (List.mem_cons_of_mem _ hinvoked)
    · by_cases hne : p = f.peer
      · subst hne
        rw [hbefore] at hwaits
        rcases List.mem_cons.mp hwaits with rfl | hwaits
        · exact Or.inl List.mem_cons_self
        · exact Or.inr (hafter.symm ▸ hwaits)
      · exact Or.inr ((hother hne).symm ▸ hwaits)

theorem Calls.finish (hm : Maps s) (h : Calls s) (hf : s.frame = some f) (hr : f.rest = []) :
    Calls { s with cache := s.cache.erasePending f.peer, frame := none } := by
  have hasked : ∀ p, (s.cache.erasePending f.peer).asked p = s.cache.asked p := by
    intro p
    rw [CredentialsCache.erasePending_asked]
    split_ifs with hp
    · rw [hp,asked_looping hm hf]
    · rfl
  have hwaits : ∀ p, waiting { s with cache := s.cache.erasePending f.peer, frame := none } p =
      waiting s p := by
    intro p
    simp only [waiting,rest,hasked,hf,hr,ite_self]
  refine ⟨h.asked_lt,h.asked_inj,h.invoked,h.nodup,fun n p hn => ?_,fun p => ?_,fun n p hn => ?_,
    fun n p hn => ?_⟩
  · exact h.waits n p (hwaits p ▸ hn)
  · exact hwaits p ▸ h.waiting_nodup p
  · exact h.unanswered n p (hasked p ▸ hn)
  · exact (h.served n p hn).imp id fun hw => (hwaits p).symm ▸ hw

end Calls

/-! ### All histories -/

/-- What holds between operations: a callback has been invoked, unless the query for its peer
is not answered yet; and no peer is in two of the maps. -/
structure Settled (s : Delivery) : Prop where
  delivered : ∀ n p, .asked n p ∈ s.log → n ∈ invokedCallbacks s.log ∨
    ¬ Answered n p s.log ∧ queries p s.log = answers p s.log+1
  generations : ∀ p, p ∈ s.cache.cache → p ∉ s.cache.oldCache
  pending : ∀ p, (s.cache.pending p).isSome → p ∉ s.cache.cache ∧ p ∉ s.cache.oldCache

structure Inv (apparmorEnabled : Bool) (s : Delivery) : Prop where
  enabled : s.cache.apparmorEnabled = apparmorEnabled
  maps : Maps s
  calls : Calls s
  justified : Justified (Allowed apparmorEnabled) s.log

section Runs

variable {apparmorEnabled : Bool} {s t : Delivery}

theorem Inv.known {peer : Peer} {cr : Credentials} (h : Inv apparmorEnabled s)
    (hc : s.cache.cached peer = some cr) : ∃ reply, lastReported peer s.log = some reply ∧
      reply.Says apparmorEnabled cr :=
  h.enabled ▸ h.maps.known peer cr hc

theorem Inv.get (h : Inv apparmorEnabled s) (peer : Peer) : Inv apparmorEnabled (s.get peer) := by
  refine ⟨get_enabled.trans h.enabled,h.maps.get peer,h.calls.get h.maps peer,?_⟩
  have hlog : (s.get peer).log = s.response peer ++ .asked s.gets peer::s.log := rfl
  have hjustified : Justified (Allowed apparmorEnabled) (.asked s.gets peer::s.log) :=
    ⟨trivial,h.justified⟩
  rw [hlog]
  rcases h.maps.get_cases peer with ⟨cr,hc,hresponse,-⟩ |
    ⟨-,callbacks,-,⟨hresponse,hnone,-⟩ | ⟨hresponse,-⟩⟩ <;> rw [hresponse]
  · obtain ⟨reply,hlast,hsaid⟩ := h.known hc
    exact ⟨⟨peer,reply,List.mem_cons_self,hlast,hsaid⟩,hjustified⟩
  · have hidle : ¬ Waits s peer := fun ⟨q,hq,_⟩ => by simp [hnone] at hq
    exact ⟨by simpa [Allowed] using h.maps.idle peer hidle,hjustified⟩
  · exact hjustified

theorem step_inv (s : Delivery) (e : Event) (t : Delivery) (h : Inv apparmorEnabled s)
    (ht : delivery.step s e = some t) : Inv apparmorEnabled t := by
  cases e with
  | get peer =>
    obtain rfl := Option.some.inj ht
    exact h.get peer
  | reply peer answer =>
    simp only [delivery] at ht
    split at ht
    · rename_i q hframe hq
      obtain ⟨callbacks,replied⟩ := q
      cases replied with
      | true => cases ht
      | false =>
        obtain rfl := Option.some.inj ht
        refine ⟨(reply_enabled answer).trans h.enabled,h.maps.reply answer hq hframe,
          h.calls.reply answer hframe hq,?_⟩
        rw [(reply_eq answer hq).2.1]
        exact ⟨trivial,h.justified⟩
    · cases ht
  | next =>
    simp only [delivery] at ht
    split at ht
    · rename_i peer credentials callbacks n rest hf
      obtain rfl := Option.some.inj ht
      obtain ⟨hasked,hcalls⟩ := h.calls.next h.maps hf rfl
      obtain ⟨reply,hlast,hsaid⟩ := h.known (h.maps.frame _ hf).2
      exact ⟨h.enabled,h.maps.next hf,hcalls,⟨peer,reply,hasked,hlast,hsaid⟩,h.justified⟩
    · cases ht
  | finish =>
    simp only [delivery] at ht
    split at ht
    · rename_i peer credentials callbacks hf
      obtain rfl := Option.some.inj ht
      exact ⟨h.enabled,h.maps.finish hf,h.calls.finish h.maps hf rfl,h.justified⟩
    · cases ht

theorem sendsIfMissing (s : Delivery) (e : Event) : SendsIfMissing s e := by
  cases e with
  | get peer =>
    intro hsent
    rw [← s.cache.get_found peer s.gets]
    cases hfound : (s.cache.get peer s.gets).2 with
    | none => rfl
    | some credentials => simp [Delivery.response,hfound] at hsent
  | reply | next | finish => trivial

theorem Inv.settled (h : Inv apparmorEnabled s) (hframe : s.frame = none) : Settled s := by
  have hwaits : ∀ p q, s.cache.pending p = some q → Waits s p := by
    intro p q hq
    refine ⟨q,hq,?_⟩
    cases hr : q.replied with
    | false => rfl
    | true =>
      obtain ⟨f,hf,-⟩ := h.maps.replied p q hq hr
      rw [hframe] at hf
      cases hf
  refine ⟨fun n p hn => ?_,h.maps.separate,fun p hp => ?_⟩
  · refine (h.calls.served n p hn).imp id fun hw => ?_
    have hasked : n ∈ s.cache.asked p := by simpa [waiting,rest,hframe] using hw
    refine ⟨h.calls.unanswered n p hasked,h.maps.waits p ?_⟩
    cases hq : s.cache.pending p with
    | none =>
      rw [asked_none hq] at hasked
      cases hasked
    | some q => exact hwaits p q hq
  · obtain ⟨q,hq⟩ := Option.isSome_iff_exists.mp hp
    exact CredentialsCache.cached_eq_none.mp (h.maps.missing p (hwaits p q hq))

end Runs

/-- In every history, every callback is invoked at most once, with what the bus has said
last about its peer, and has been when the query it waits for is answered; there is one query
at a time for each peer, and none while the peer is cached; the list that the loop goes
through does not change; and between operations no peer is in two of the maps. -/
theorem deliversOnce (apparmorEnabled : Bool) (es : List Event) (t : Delivery)
    (hrun : delivery.run (new apparmorEnabled) es = some t) :
    (invokedCallbacks t.log).Nodup ∧ Justified (Allowed apparmorEnabled) t.log ∧
      (∀ p, queries p t.log ≤ answers p t.log+1) ∧
        delivery.AllSteps SendsIfMissing (new apparmorEnabled) es ∧
          (∀ f ∈ t.frame, t.cache.pending f.peer = some ⟨f.callbacks,true⟩) ∧
            (t.frame = none → Settled t) := by
  have hinit : Inv apparmorEnabled (new apparmorEnabled) := ⟨rfl,new_maps _,new_calls _,trivial⟩
  have h : Inv apparmorEnabled t := Machine.invariant_run step_inv hinit hrun
  refine ⟨h.calls.nodup,h.justified,fun p => ?_,Machine.allSteps_of_forall sendsIfMissing _ _,
    fun f hf => (h.maps.frame f hf).1,h.settled⟩
  by_cases hw : Waits t p
  · exact (h.maps.waits p hw).le
  · exact (h.maps.idle p hw).trans_le (Nat.le_succ _)

/-- Two clients ask for themselves, the first again from inside its callback and once more
later. -/
def twoClients : List Event :=
  [.get ":1.1",.get ":1.2",.get ":1.1",.reply ":1.1" (.map 1000 []),.next,.get ":1.1",.next,.finish,
    .reply ":1.2" .error,.next,.finish,.get ":1.1"]

theorem deliversOnce_twoClients : ∃ t, delivery.run (new false) twoClients = some t ∧
    t.frame = none ∧ (invokedCallbacks t.log).Nodup ∧ Settled t := by
  obtain ⟨t,ht,hframe⟩ : ∃ t, delivery.run (new false) twoClients = some t ∧ t.frame = none :=
    ⟨_,rfl,rfl⟩
  have h := deliversOnce false twoClients t ht
  exact ⟨t,ht,hframe,h.1,h.2.2.2.2.2 hframe⟩

end CredentialsDelivery
end UnityThumbnailer
