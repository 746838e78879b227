import UnityThumbnailer.EventSystem
import UnityThumbnailer.Service

/-! The downloader for album and artist art. A reply signals `finished` once, whichever way its
download ends, or is cut off by the timer, and from then on its status tells how. -/
namespace UnityThumbnailer

open EventSystem

namespace UbuntuServerDownloader

/-- The errors of a network reply that are told apart. -/
inductive NetworkError
  | noError | contentNotFound | contentGone | operationCanceled | other (code : ℤ)
  deriving DecidableEq

/-- What a network reply knows when it has finished. -/
structure NetworkResult where
  error : NetworkError
  errorString : String
  httpStatusCode : Option ℤ
  body : Bytes

structure UbuntuServerArtReply where
  urlString : String
  errorString : String
  data : Bytes
  status : ArtStatus
  /-- There is a network reply. -/
  reply : Bool
  timer : Bool

/-- The constructor for a device in flight mode. -/
def UbuntuServerArtReply.networkDown (url : String) : UbuntuServerArtReply :=
  ⟨url,"network down",none,.networkDown,false,false⟩

/-- The constructor with a network reply, which starts the timer. -/
def UbuntuServerArtReply.new (url : String) : UbuntuServerArtReply :=
  ⟨url,"",none,.notFinished,true,true⟩

namespace UbuntuServerArtReply

/-- `set_status()` -/
def setStatus (r : UbuntuServerArtReply) (result : NetworkResult) : UbuntuServerArtReply :=
  match result.error with
  | .noError => { r with status := .success, errorString := result.errorString }
  -- authoritative "no artwork available" response
  | .contentNotFound | .contentGone =>
    { r with status := .notFound, errorString := result.errorString }
  -- happens if `timeout` has aborted the reply
  | .operationCanceled => { r with status := .timeout, errorString := "Request timed out" }
  | .other _ =>
    match result.httpStatusCode with
    -- no chance of recovery with a retry
    | some 400 | some 403 => { r with status := .hardError, errorString := result.errorString }
    | _ => { r with status := .temporaryError, errorString := result.errorString }

/-- What the slots that are connected to `finished` see. -/
def artReply (r : UbuntuServerArtReply) : ArtReply := ⟨r.status,r.data⟩

end UbuntuServerArtReply

/-- A reply, and what can still happen to it. -/
structure Transfer where
  artReply : UbuntuServerArtReply
  /-- A queued call of `download_finished()`. -/
  posted : Bool
  /-- The network reply has not finished. -/
  running : Bool
  /-- What `finished` has signalled. -/
  finished : List ArtReply

namespace Transfer

def emitFinished (t : Transfer) : Transfer :=
  { t with finished := t.artReply.artReply::t.finished }

/-- `download_finished()`; without a network reply there is nothing to read. -/
def downloadFinished (t : Transfer) (result : NetworkResult) : Transfer :=
  if !t.artReply.reply then t.emitFinished
  else
    let r := { t.artReply with timer := false }.setStatus result
    let r := if r.status = .success then { r with data := result.body } else r
    { t with artReply := r }.emitFinished

/-- What a reply is left with that is aborted. -/
def canceled : NetworkResult := ⟨.operationCanceled,"Operation canceled",none,none⟩

/-- A network reply that has not finished finishes while it is aborted. -/
def abort (t : Transfer) : Transfer :=
  if t.running then { t with running := false }.downloadFinished canceled else t

/-- `timeout()` -/
def timeout (t : Transfer) : Transfer :=
  { t with artReply := { t.artReply with status := .timeout } }.abort

end Transfer

inductive Event
  | callPosted
  | networkFinished (result : NetworkResult)
  | timerFires

def machine : Machine Transfer Event where
  step t
    | .callPosted =>
      -- posted only without a network reply, so the result is not read
      if t.posted then some ({ t with posted := false }.downloadFinished Transfer.canceled)
      else none
    | .networkFinished result =>
      if t.running then some ({ t with running := false }.downloadFinished result) else none
    | .timerFires =>
      if t.artReply.timer then
        some ({ t with artReply := { t.artReply with timer := false } }).timeout
      else none

/-- The server is not alive any more, so no request is made. -/
def networkIsConnected (_domainName : String) : Bool := false

/-- `download_url()`, with the result of the check of the network. -/
def downloadUrl (connected : Bool) (url : String) : Transfer :=
  if connected then ⟨.new url,false,true,[]⟩ else ⟨.networkDown url,true,false,[]⟩

/-! ### One signal -/

/-- A reply that nobody has been told of yet has one thing to wait for at least: its network
reply, with the timer, or the call that was posted. -/
def Waiting (t : Transfer) : Prop :=
  t.finished = [] ∧ t.artReply.data = none ∧
    (t.artReply.reply = true ∧ t.running = true ∧ t.posted = false ∨
      t.artReply.reply = false ∧ t.running = false ∧ t.artReply.timer = false ∧
        t.posted = true ∧ t.artReply.status = .networkDown)

/-- What a reply signals: how the download has ended, with data only if it succeeded. -/
def Final (r : ArtReply) : Prop := r.status ≠ .notFinished ∧ (r.status ≠ .success → r.data = none)

/-- A reply that has finished stays as it was when it finished. -/
def Done (t : Transfer) : Prop :=
  t.finished = [t.artReply.artReply] ∧ Final t.artReply.artReply ∧ t.running = false ∧
    t.artReply.timer = false ∧ t.posted = false

section

variable {t u : Transfer} {e : Event} {connected : Bool} {url : String}

theorem waiting_downloadUrl (connected : Bool) (url : String) :
    Waiting (downloadUrl connected url) := by
  cases connected <;> simp [Waiting,downloadUrl,UbuntuServerArtReply.new,
    UbuntuServerArtReply.networkDown]

/-- There is a verdict on every network reply. -/
theorem setStatus_final (r : UbuntuServerArtReply) (result : NetworkResult) :
    (r.setStatus result).status ≠ .notFinished ∧ (r.setStatus result).data = r.data ∧
      (r.setStatus result).timer = r.timer := by
  unfold UbuntuServerArtReply.setStatus
  cases result.error with
  | noError | contentNotFound | contentGone | operationCanceled => exact ⟨nofun,rfl,rfl⟩
  | other code =>
    dsimp only
    split <;> exact ⟨nofun,rfl,rfl⟩

/-- The network reply of a download finishes. -/
theorem downloadFinished_done (result : NetworkResult) (hfinished : t.finished = [])
    (hdata : t.artReply.data = none) (hreply : t.artReply.reply = true)
    (hrunning : t.running = false) (hposted : t.posted = false) :
    Done (t.downloadFinished result) := by
  obtain ⟨hfinal,hkept,htimer⟩ := setStatus_final { t.artReply with timer := false } result
  unfold Transfer.downloadFinished
  rw [if_neg (by simp [hreply])]
  dsimp only
  split_ifs with hsuccess
  · exact ⟨by simp [Transfer.emitFinished,hfinished],
      ⟨hfinal,fun h => absurd hsuccess h⟩,hrunning,htimer,hposted⟩
  · exact ⟨by simp [Transfer.emitFinished,hfinished],
      ⟨hfinal,fun _ => hkept.trans hdata⟩,hrunning,htimer,hposted⟩

/-- Whatever happens first to a reply ends it. -/
theorem Waiting.step (h : Waiting t) (hu : machine.step t e = some u) : Done u := by
  obtain ⟨hfinished,hdata,⟨hreply,hrunning,hposted⟩ | ⟨hreply,hrunning,htimer,hposted,hstatus⟩⟩ := h
  · cases e with
    | callPosted =>
      simp only [machine,hposted,Bool.false_eq_true,if_false] at hu
      cases hu
    | networkFinished result =>
      simp only [machine,hrunning,if_true,Option.some.injEq] at hu
      rw [← hu]
      exact downloadFinished_done (t:={ t with running := false }) result hfinished hdata hreply
        rfl hposted
    | timerFires =>
      simp only [machine,Transfer.timeout,Transfer.abort,hrunning,if_true,
        Option.ite_none_right_eq_some,Option.some.injEq] at hu
      rw [← hu.2]
      exact downloadFinished_done _ hfinished hdata hreply rfl hposted
  · cases e with
    | callPosted =>
      simp only [machine,Transfer.downloadFinished,hposted,hreply,Bool.not_false,if_true,
        Option.some.injEq] at hu
      rw [← hu]
      refine ⟨by simp [Transfer.emitFinished,hfinished],⟨?_,fun _ => hdata⟩,hrunning,htimer,rfl⟩
      change t.artReply.status ≠ _
      rw [hstatus]
      nofun
    | networkFinished result =>
      simp only [machine,hrunning,Bool.false_eq_true,if_false] at hu
      cases hu
    | timerFires =>
      simp only [machine,htimer,Bool.false_eq_true,if_false] at hu
      cases hu

theorem Waiting.progress (h : Waiting t) : ∃ e, (machine.step t e).isSome = true := by
  obtain ⟨-,-,⟨-,hrunning,-⟩ | ⟨-,-,-,hposted,-⟩⟩ := h
  · exact ⟨.networkFinished Transfer.canceled,by simp [machine,hrunning]⟩
  · exact ⟨.callPosted,by simp [machine,hposted]⟩

theorem Done.rest (h : Done t) (e : Event) : machine.step t e = none := by
  obtain ⟨-,-,hrunning,htimer,hposted⟩ := h
  cases e <;> simp [machine,hrunning,htimer,hposted]

theorem waiting_or_done {es : List Event}
    (hrun : machine.run (downloadUrl connected url) es = some t) : Waiting t ∨ Done t := by
  have hstep : ∀ t e u, Waiting t ∨ Done t → machine.step t e = some u → Waiting u ∨ Done u := by
    rintro t e u (hwaiting | hdone) hu
    · exact .inr (hwaiting.step hu)
    · rw [hdone.rest e] at hu
      cases hu
  exact Machine.invariant_run hstep (.inl (waiting_downloadUrl connected url)) hrun

/-- What the slots of a download get to see in some run of it. -/
def Signals (connected : Bool) (r : ArtReply) : Prop :=
  ∃ url es t, machine.run (downloadUrl connected url) es = some t ∧ r ∈ t.finished

/-- `finished` is signalled once at most, and once when nothing is left to wait for. -/
theorem signals_once {es : List Event}
    (hrun : machine.run (downloadUrl connected url) es = some t) :
    t.finished.length ≤ 1 ∧ ((∀ e, machine.step t e = none) → ∃ r, t.finished = [r]) := by
  rcases waiting_or_done hrun with hwaiting | hdone
  · refine ⟨by simp [hwaiting.1],fun hrest => ?_⟩
    obtain ⟨e,he⟩ := hwaiting.progress
    rw [hrest e] at he
    cases he
  · exact ⟨by simp [hdone.1],fun _ => ⟨_,hdone.1⟩⟩

theorem Signals.final {r : ArtReply} (h : Signals connected r) : Final r := by
  obtain ⟨url,es,t,hrun,hr⟩ := h
  rcases waiting_or_done hrun with hwaiting | hdone
  · rw [hwaiting.1] at hr
    cases hr
  · rw [hdone.1] at hr
    obtain rfl := List.mem_singleton.mp hr
    exact hdone.2.1

/-- What is signalled completes a download of the service. -/
theorem Signals.completes {r : ArtReply} (h : Signals connected r) {m : Media}
    (hm : ∀ filename st, m ≠ .localFile filename st) :
    Service.Completes m (.artReply r) = true := by
  cases m with
  | localFile filename st => exact absurd rfl (hm filename st)
  | album | artist => exact decide_eq_true h.final.1

/-! ### Without the server -/

def down : ArtReply := ⟨.networkDown,none⟩

/-- There is no network reply that could change the first verdict. -/
def Down (t : Transfer) : Prop :=
  t.artReply.reply = false ∧ t.artReply.artReply = down ∧ t.running = false ∧
    t.artReply.timer = false ∧ ∀ r ∈ t.finished, r = down

theorem Down.step (h : Down t) (hu : machine.step t e = some u) : Down u := by
  obtain ⟨hreply,hdown,hrunning,htimer,hfinished⟩ := h
  cases e with
  | callPosted =>
    simp only [machine,Transfer.downloadFinished,hreply,Bool.not_false,if_true,
      Option.ite_none_right_eq_some,Option.some.injEq] at hu
    rw [← hu.2]
    refine ⟨hreply,hdown,hrunning,htimer,fun r hr => ?_⟩
    rcases List.mem_cons.mp hr with rfl | hr
    · exact hdown
    · exact hfinished r hr
  | networkFinished result =>
    simp only [machine,hrunning,Bool.false_eq_true,if_false] at hu
    cases hu
  | timerFires =>
    simp only [machine,htimer,Bool.false_eq_true,if_false] at hu
    cases hu

/-- As long as no request is made, all downloads end alike. -/
theorem signals_iff_down {domainName : String} {r : ArtReply} :
    Signals (networkIsConnected domainName) r ↔ r = down := by
  constructor
  · rintro ⟨url,es,t,hrun,hr⟩
    have hstart : Down (downloadUrl (networkIsConnected domainName) url) :=
      ⟨rfl,rfl,rfl,rfl,List.forall_mem_nil _⟩
    exact (Machine.invariant_run (fun _ _ _ => Down.step) hstart hrun).2.2.2.2 r hr
  · rintro rfl
    exact ⟨"",[.callPosted],_,rfl,List.mem_singleton.mpr rfl⟩

instance (domainName : String) (d : Download) :
    Decidable (∃ r, Signals (networkIsConnected domainName) r ∧ d = .artReply r) :=
  match d with
  | .artReply r => decidable_of_iff (r = down)
    ⟨fun h => ⟨r,signals_iff_down.mpr h,rfl⟩,fun ⟨_,hr,heq⟩ =>
      (Download.artReply.inj heq).trans (signals_iff_down.mp hr)⟩
  | .extractor _ => .isFalse fun ⟨_,_,heq⟩ => Download.noConfusion heq

end
end UbuntuServerDownloader
end UnityThumbnailer
