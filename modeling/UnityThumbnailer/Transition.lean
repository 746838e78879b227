import UnityThumbnailer.CallStack

/-! What a step can do. A handler that has a place is not cancelled, so the tests of
`cancelled` in its callbacks never succeed; what is left is listed here once, and every
invariant is proved along this list. -/
namespace UnityThumbnailer
namespace Service

/-- The credentials that a handler's check accepts. -/
def Cleared (cfg : Config) (x : Handler) (c : Credentials) : Prop :=
  c.valid = true ∧ (x.checkClientCredentials cfg c.user c.label).isOk = true

instance (cfg : Config) (x : Handler) (c : Credentials) : Decidable (Cleared cfg x c) :=
  inferInstanceAs (Decidable (_ ∧ _))

/-- A handler gets the credentials of its peer: from the bus, or in `begin()` if they are
already known. -/
inductive Received (s : Service) : Service → ℕ → Credentials → Prop
  | replied {h : ℕ} {c : Credentials} {rest : List Call}
    (hcalls : s.calls = .gotCredentials h c :: rest) : Received s (s.setCalls rest) h c
  | known {h : ℕ} {c : Credentials} {rest : List Call}
    (hcalls : s.calls = .begin h :: rest)
    (hknown : s.credentials.cached (s.handlers h).peer = some c) :
    Received s (((s.setCalls rest).note (.began h)).setCredentials
      (s.credentials.get (s.handlers h).peer h).1) h c

inductive Transition (cfg : Config) (s : Service) : Event → Service → Prop
  | refused {peer : Peer} {m : Method} {size : QSize} {error : String} (hidle : s.calls = []) :
    Transition cfg s (.request peer m size) (s.note (.refused peer error))
  | arrived {peer : Peer} {m : Method} {size : QSize} {media : Media} (hidle : s.calls = [])
    (hmedia : m.media = .ok media) :
    Transition cfg s (.request peer m size) (((s.register (.new peer m.limiter media size (m.details size))).note
      (.arrived s.next peer media)).queueRequest s.next)
  | reported {peer : Peer} {reply : BusReply} {callbacks : List ℕ} (hidle : s.calls = [])
    (hpending : s.credentials.pending peer = some ⟨callbacks,false⟩) :
    Transition cfg s (.credentialsReply peer reply) (s.receivedCredentials peer reply)
  | asked {o : DownloadCall} {h : ℕ} {rest : List Call} (hcalls : s.calls = .begin h :: rest)
    (hmissing : s.credentials.cached (s.handlers h).peer = none) :
    Transition cfg s (.call o) (((s.setCalls rest).note (.began h)).setCredentials
      (s.credentials.get (s.handlers h).peer h).1)
  | cleared {o : DownloadCall} {u : Service} {h : ℕ} {c : Credentials} (hr : Received s u h c)
    (hc : Cleared cfg (s.handlers h) c) :
    Transition cfg s (.call o) (u.modify h (·.setCheckWatcher .running))
  | denied {o : DownloadCall} {u : Service} {h : ℕ} {c : Credentials} {error : String}
    (hr : Received s u h c) (hc : ¬ Cleared cfg (s.handlers h) c) :
    Transition cfg s (.call o) (u.sendError h error)
  | pushed {o : DownloadCall} {h : ℕ} {ref : ℕ} {rest : List Call}
    (hcalls : s.calls = .pushBack h ref :: rest) :
    Transition cfg s (.call o) ((s.setCalls rest).pushBack h ref)
  | erased {o : DownloadCall} {peer : Peer} {rest : List Call}
    (hcalls : s.calls = .erasePending peer :: rest) :
    Transition cfg s (.call o) ((s.setCalls rest).setCredentials (s.credentials.erasePending peer))
  | returned {o : DownloadCall} {h : ℕ} {f : CancelFunc} {rest : List Call}
    (hcalls : s.calls = .scheduled h f :: rest) :
    Transition cfg s (.call o) ((s.setCalls rest).modify h (·.setCancelFunc f))
  | started {h : ℕ} {rest : List Call} (hcalls : s.calls = .job h :: rest) :
    Transition cfg s (.call .started) ((((s.setCalls rest).note (.calledDownload h)).modify h
      (·.setDownload (initialDownload (s.handlers h).request.media))).setDownloads
        (h :: s.downloads))
  | failed {h : ℕ} {what : String} {rest : List Call} {filename : String} {st : Stat}
    (hcalls : s.calls = .job h :: rest)
    (hmedia : (s.handlers h).request.media = .localFile filename st) :
    Transition cfg s (.call (.failedToStart what)) ((((s.setCalls rest).note (.calledDownload h)).modify h
      (·.setDownload (.extractor (.error what)))).push [.downloadFinished h])
  | caught {y h : ℕ} {what error : String} {rest below : List Call}
    (hcalls : s.calls = .job y :: rest) (hcatch : catcher rest = some (h,below)) :
    Transition cfg s (.call (.threw what)) (((((s.setCalls rest).note (.calledDownload y)).note
      (.threwDownload y what)).setCalls below).sendError h error)
  | uncaught {y : ℕ} {what : String} {rest : List Call}
    (hcalls : s.calls = .job y :: rest) (hcatch : catcher rest = none) :
    Transition cfg s (.call (.threw what)) ((((s.setCalls rest).note (.calledDownload y)).note
      (.threwDownload y what)).terminate)
  | released {o : DownloadCall} {h : ℕ} {rest : List Call}
    (hcalls : s.calls = .downloadFinished h :: rest) :
    Transition cfg s (.call o) ((s.setCalls rest).downloadFinished h)
  | creating {o : DownloadCall} {h : ℕ} {rest : List Call}
    (hcalls : s.calls = .startCreate h :: rest) :
    Transition cfg s (.call o) ((s.setCalls rest).modify h (·.setCreateWatcher .running))
  | checkAnswered {h : ℕ} {result : ByteArrayOrError} {e : Effect} (hidle : s.calls = [])
    (hw : (s.handlers h).checkWatcher = .finished result) (he : e.answers = some h) :
    Transition cfg s (.checkFinished h)
      (((s.modify h (·.setCheckWatcher .delivered)).note e).emitFinished h)
  | scheduled {h : ℕ} (hidle : s.calls = [])
    (hw : (s.handlers h).checkWatcher = .finished ⟨none,none⟩)
    (hs : (s.handlers h).request.status = .needsDownload) :
    Transition cfg s (.checkFinished h)
      ((s.modify h (·.setCheckWatcher .delivered)).schedule h)
  | completed {h : ℕ} {download : Download} (hidle : s.calls = [])
    (hd : h ∈ s.downloads) (hfits : Completes (s.handlers h).request.media download = true) :
    Transition cfg s (.downloadComplete h download)
      (((s.setDownloads (s.downloads.erase h)).modify h (·.setDownload download)).push
        [.downloadFinished h])
  | createAnswered {h : ℕ} {result : ByteArrayOrError} {e : Effect} (hidle : s.calls = [])
    (hw : (s.handlers h).createWatcher = .finished result) (he : e.answers = some h) :
    Transition cfg s (.createFinished h)
      (((s.modify h (·.setCreateWatcher .delivered)).note e).emitFinished h)
  | deleted {h : ℕ} (hidle : s.calls = []) (hd : h ∈ s.deletions) :
    Transition cfg s (.delete h) (s.delete h)
  | checked {h : ℕ} {w : World} {result : ByteArrayOrError}
    (hw : (s.handlers h).checkWatcher = .running)
    (hr : Handler.checkResult (s.thumbnail h w).1 = some result) :
    Transition cfg s (.check h w)
      ((s.thumbnail h w).2.modify h (·.setCheckWatcher (.finished result)))
  | created {h : ℕ} {w : World} {result : ByteArrayOrError}
    (hw : (s.handlers h).createWatcher = .running)
    (hr : ((s.thumbnail h w).2.handlers h).createResult (s.thumbnail h w).1 = some result) :
    Transition cfg s (.create h w)
      ((s.thumbnail h w).2.modify h (·.setCreateWatcher (.finished result)))
  | aborted {e : Event} {h : ℕ} {w : World}
    (hw : e = .check h w ∧ (s.handlers h).checkWatcher = .running ∨
      e = .create h w ∧ (s.handlers h).createWatcher = .running)
    (ha : (s.thumbnail h w).1 = .aborted) :
    Transition cfg s e (s.thumbnail h w).2.terminate
  | evicted {cache : Cache} {key : String} :
    Transition cfg s (.evict cache key) (s.setThumbnailer (s.thumbnailer.evict cache key))

section Inversion

variable {cfg : Config} {s t : Service} {h : ℕ}

theorem slot_some {enabled : Prop} [Decidable enabled] {u : Service}
    (hs : s.slot enabled u = some t) : s.calls = [] ∧ enabled ∧ u = t := by
  unfold slot at hs
  split at hs
  · rename_i hc
    exact ⟨List.isEmpty_iff.mp hc.1,hc.2,Option.some.inj hs⟩
  · cases hs

/-- A call on the stack carries its handler on. -/
theorem works_pos {c : Call} (hc : c ∈ s.calls) (hw : c.works = some h) : 0 < s.work h := by
  have hmem : h ∈ s.calls.filterMap Call.works := List.mem_filterMap.mpr ⟨c,hc,hw⟩
  have hpos := List.count_pos_iff.mpr hmem
  unfold work
  omega

theorem watched_pos (hw : 0 < (s.handlers h).watched) : 0 < s.work h := by
  unfold work
  omega

theorem checking_pos (hw : 0 < (s.handlers h).checkWatcher.active) : 0 < s.work h :=
  watched_pos (Nat.add_pos_left hw _)

theorem creating_pos (hw : 0 < (s.handlers h).createWatcher.active) : 0 < s.work h :=
  watched_pos (Nat.add_pos_right _ hw)

theorem begins_pos (hc : Call.begin h ∈ s.calls) : 0 < s.waiting h := by
  have hmem : h ∈ s.calls.filterMap Call.begins := List.mem_filterMap.mpr ⟨_,hc,rfl⟩
  have hpos := List.count_pos_iff.mpr hmem
  unfold waiting
  omega

theorem gotCredentials_transition {o : DownloadCall} {u : Service} {c : Credentials} (hr : Received s u h c)
    (hlive : (s.handlers h).cancelled = false) (hu : u.handlers = s.handlers) :
    Transition cfg s (.call o) (gotCredentials cfg u h c) := by
  unfold gotCredentials
  simp only [hu,hlive,Bool.false_eq_true,if_false]
  split
  · rename_i hv
    exact .denied hr fun hc => by simp [hc.1] at hv
  · rename_i hv
    split
    · rename_i what hcheck
      exact .denied hr fun hc => by
        have hok := hc.2
        rw [hcheck] at hok
        cases hok
    · rename_i hcheck
      refine .cleared hr ⟨by simpa using hv,?_⟩
      rw [hcheck]
      rfl

variable (hl : Lifecycle nothing s)
include hl

theorem begin_transition {o : DownloadCall} {rest : List Call}
    (hcalls : s.calls = .begin h :: rest) :
    Transition cfg s (.call o) (begin cfg (s.setCalls rest) h) := by
  have hbefore := hl.before (begins_pos (s:=s) (h:=h) (by simp [hcalls]))
  have hlive := hl.not_cancelled hbefore.2.1
  have hfound := s.credentials.get_found (s.handlers h).peer h
  unfold begin
  dsimp only
  split
  · rename_i c hget
    exact gotCredentials_transition (.known hcalls (hfound.symm.trans hget)) hlive rfl
  · rename_i hget
    exact .asked hcalls (hfound.symm.trans hget)

theorem job_transition {outcome : DownloadCall} {rest : List Call}
    (hcalls : s.calls = .job h :: rest) (ht : (s.setCalls rest).job h outcome = some t) :
    Transition cfg s (.call outcome) t := by
  have hpos : 0 < s.work h := works_pos (c:=.job h) (by simp [hcalls]) rfl
  have hlive : ((s.setCalls rest).handlers h).cancelled = false := hl.alive (by omega)
  simp only [job,hlive,Bool.false_eq_true,if_false] at ht
  cases outcome with
  | started =>
    obtain rfl := Option.some.inj ht
    exact .started hcalls
  | failedToStart what =>
    cases hm : (s.handlers h).request.media with
    | localFile filename st =>
      have hm' : ((s.setCalls rest).handlers h).request.media = .localFile filename st := hm
      simp only [hm'] at ht
      obtain rfl := Option.some.inj ht
      exact .failed hcalls hm
    | album | artist =>
      have hm' : ((s.setCalls rest).handlers h).request.media = _ := hm
      simp [hm'] at ht
  | threw what =>
    obtain rfl := Option.some.inj ht
    unfold unwind
    split
    · rename_i y below hcatch
      exact .caught hcalls hcatch
    · rename_i hcatch
      exact .uncaught hcalls hcatch

theorem call_transition {outcome : DownloadCall} {c : Call} {rest : List Call}
    (hcalls : s.calls = c :: rest) (ht : call cfg (s.setCalls rest) outcome c = some t) :
    Transition cfg s (.call outcome) t := by
  have hlive : ∀ x, c.works = some x → (s.handlers x).cancelled = false := fun x hx =>
    hl.alive (Nat.add_pos_left (works_pos (by simp [hcalls]) hx) _)
  cases c with
  | begin h =>
    obtain rfl := Option.some.inj ht
    exact begin_transition hl hcalls
  | pushBack h ref =>
    obtain rfl := Option.some.inj ht
    exact .pushed hcalls
  | gotCredentials h c =>
    obtain rfl := Option.some.inj ht
    exact gotCredentials_transition (.replied hcalls) (hlive h rfl) rfl
  | erasePending peer =>
    obtain rfl := Option.some.inj ht
    exact .erased hcalls
  | scheduled h f =>
    obtain rfl := Option.some.inj ht
    exact .returned hcalls
  | job h => exact job_transition hl hcalls ht
  | downloadFinished h =>
    obtain rfl := Option.some.inj ht
    exact .released hcalls
  | startCreate h =>
    have hh : ((s.setCalls rest).handlers h).cancelled = false := hlive h rfl
    simp only [call,startCreate,hh,Bool.false_eq_true,if_false,Option.some.injEq] at ht
    obtain rfl := ht
    exact .creating hcalls

theorem checkFinished_transition {result : ByteArrayOrError} (hidle : s.calls = [])
    (hw : (s.handlers h).checkWatcher = .finished result) :
    Transition cfg s (.checkFinished h)
      ((s.modify h (·.setCheckWatcher .delivered)).checkFinished h result) := by
  have hlive : (s.handlers h).cancelled = false :=
    hl.alive (Nat.add_pos_left (checking_pos (by simp [hw,Watcher.active])) _)
  have hlive' : ((s.modify h (·.setCheckWatcher .delivered)).handlers h).cancelled = false := by
    simpa [modify,Handler.setCheckWatcher] using hlive
  have hstatus : ((s.modify h (·.setCheckWatcher .delivered)).handlers h).request.status =
      (s.handlers h).request.status := by
    simp [modify,Handler.setCheckWatcher]
  obtain ⟨ba,error⟩ := result
  simp only [checkFinished,hlive',Bool.false_eq_true,if_false,hstatus]
  cases error with
  | some error => exact .checkAnswered hidle hw rfl
  | none =>
    cases ba with
    | some data => exact .checkAnswered hidle hw rfl
    | none =>
      by_cases hs : (s.handlers h).request.status = .needsDownload
      · simp only [hs,if_true]
        exact .scheduled hidle hw hs
      · simp only [hs,if_false]
        exact .checkAnswered hidle hw rfl

theorem createFinished_transition {result : ByteArrayOrError} (hidle : s.calls = [])
    (hw : (s.handlers h).createWatcher = .finished result) :
    Transition cfg s (.createFinished h)
      ((s.modify h (·.setCreateWatcher .delivered)).createFinished h result) := by
  have hlive : (s.handlers h).cancelled = false :=
    hl.alive (Nat.add_pos_left (creating_pos (by simp [hw,Watcher.active])) _)
  have hlive' : ((s.modify h (·.setCreateWatcher .delivered)).handlers h).cancelled = false := by
    simpa [modify,Handler.setCreateWatcher] using hlive
  simp only [createFinished,hlive',Bool.false_eq_true,if_false]
  split <;> exact .createAnswered hidle hw rfl

theorem check_transition {w : World} (hw : (s.handlers h).checkWatcher = .running) :
    Transition cfg s (.check h w) (s.check h w) := by
  have hlive : (s.handlers h).cancelled = false :=
    hl.alive (Nat.add_pos_left (checking_pos (by simp [hw,Watcher.active])) _)
  simp only [check,hlive,Bool.false_eq_true,if_false]
  cases hr : Handler.checkResult (s.thumbnail h w).1 with
  | some result => exact .checked hw hr
  | none =>
    refine .aborted (.inl ⟨rfl,hw⟩) ?_
    unfold Handler.checkResult at hr
    split at hr <;> simp_all

theorem create_transition {w : World} (hw : (s.handlers h).createWatcher = .running) :
    Transition cfg s (.create h w) (s.create h w) := by
  have hlive : (s.handlers h).cancelled = false :=
    hl.alive (Nat.add_pos_left (creating_pos (by simp [hw,Watcher.active])) _)
  simp only [create,hlive,Bool.false_eq_true,if_false]
  cases hr : ((s.thumbnail h w).2.handlers h).createResult (s.thumbnail h w).1 with
  | some result => exact .created hw hr
  | none =>
    refine .aborted (.inr ⟨rfl,hw⟩) ?_
    unfold Handler.createResult at hr
    split at hr <;> simp_all

theorem step_transition {e : Event} (ht : s.step cfg e = some t) : Transition cfg s e t := by
  cases e with
  | request peer m size =>
    obtain ⟨hidle,-,rfl⟩ := slot_some ht
    unfold request
    split
    · exact .refused hidle
    · rename_i media hmedia
      exact .arrived hidle hmedia
  | credentialsReply peer reply =>
    simp only [step] at ht
    split at ht
    · rename_i q hq
      obtain ⟨hidle,hreplied,rfl⟩ := slot_some ht
      obtain ⟨callbacks,replied⟩ := q
      obtain rfl : replied = false := hreplied
      exact .reported hidle hq
    · cases ht
  | checkFinished h =>
    simp only [step] at ht
    split at ht
    · rename_i result hw
      obtain ⟨hidle,-,rfl⟩ := slot_some ht
      exact checkFinished_transition hl hidle hw
    · cases ht
  | downloadComplete h download =>
    obtain ⟨hidle,⟨hd,hfits⟩,rfl⟩ := slot_some ht
    exact .completed hidle hd hfits
  | createFinished h =>
    simp only [step] at ht
    split at ht
    · rename_i result hw
      obtain ⟨hidle,-,rfl⟩ := slot_some ht
      exact createFinished_transition hl hidle hw
    · cases ht
  | delete h =>
    obtain ⟨hidle,hd,rfl⟩ := slot_some ht
    exact .deleted hidle hd
  | check h w =>
    simp only [step] at ht
    split at ht
    · rename_i hw
      obtain rfl := Option.some.inj ht
      exact check_transition hl hw
    · cases ht
  | create h w =>
    simp only [step] at ht
    split at ht
    · rename_i hw
      obtain rfl := Option.some.inj ht
      exact create_transition hl hw
    · cases ht
  | evict cache key =>
    obtain rfl := Option.some.inj ht
    exact .evicted
  | call outcome =>
    simp only [step] at ht
    split at ht
    · cases ht
    · rename_i c rest hcalls
      exact call_transition hl hcalls ht

end Inversion
end Service
end UnityThumbnailer
