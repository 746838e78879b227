import UnityThumbnailer.EndToEnd

/-! Whoever may not read a file is not shown it. The check that entitles a request is found in
its run, after the arrival of its call and before the reply. -/
namespace UnityThumbnailer
namespace SessionBus

open EventSystem

/-- In a step of the run the handler passes the check for the file. -/
def CheckedIn (cfg : Service.Config) (peer : Instance → Peer) (apparmorEnabled : Bool)
    (start : SessionBus) (es : List Event) (h : ℕ) (p : Peer) (filename : String) : Prop :=
  ∃ past o future b d, es = past ++ .service (.call o)::future ∧
    (machine cfg peer).run start past = some b ∧
    (machine cfg peer).step b (.service (.call o)) = some d ∧
    Service.PassesCheck cfg apparmorEnabled b.service h p filename ∧
    (d.service.handlers h).checkWatcher = .running

/-- What is shown for a file was sent by the one handler of the call, which was created for the
file that the name stood for, and has passed the check as the peer of the request. -/
def Entitled (cfg : Service.Config) (peer : Instance → Peer) (apparmorEnabled : Bool)
    (start : SessionBus) (es : List Event) (b : SessionBus) : Prop :=
  ∀ i r filename size, b.wanted (i,r) = (.thumbnail filename,size) →
    ((b.clients i).requests r).isValid = true →
      ∃ h canonical st, (∀ h', b.message h' = some (i,r) ↔ h' = h) ∧
        (b.service.handlers h).request.media = .localFile canonical st ∧
        (∃ link file, ((Wanted.thumbnail filename).method link file).media =
          .ok (.localFile canonical st)) ∧
        .sentThumbnail h ((b.clients i).requests r).image ∈ b.service.log ∧
        CheckedIn cfg peer apparmorEnabled start es h (peer i) canonical

/-- A state with the run that has led to it, in which everybody past the check has passed it. -/
structure Followed (cfg : Service.Config) (peer : Instance → Peer) (apparmorEnabled : Bool)
    (start : SessionBus) (es : List Event) (b : SessionBus) : Prop where
  run : (machine cfg peer).run start es = some b
  correlated : Correlated cfg peer b
  enabled : b.service.credentials.apparmorEnabled = apparmorEnabled
  cleared : ∀ x p filename st, Service.At b.service x p → p.cleared = true →
    (b.service.handlers x).request.media = .localFile filename st →
      CheckedIn cfg peer apparmorEnabled start es x (b.service.handlers x).peer filename
  sent : ∀ x image filename st, .sentThumbnail x image ∈ b.service.log →
    (b.service.handlers x).request.media = .localFile filename st →
      CheckedIn cfg peer apparmorEnabled start es x (b.service.handlers x).peer filename

section

variable {cfg : Service.Config} {peer : Instance → Peer} {apparmorEnabled : Bool}
  {start b d : SessionBus} {es : List Event} {e : Event} {h x : ℕ} {p : Peer} {filename : String}
  {st : Stat}

theorem CheckedIn.append (hc : CheckedIn cfg peer apparmorEnabled start es h p filename)
    (fs : List Event) : CheckedIn cfg peer apparmorEnabled start (es ++ fs) h p filename := by
  obtain ⟨past,o,future,a,d,rfl,hrest⟩ := hc
  exact ⟨past,o,future ++ fs,a,d,by simp,hrest⟩

namespace Followed

variable (hf : Followed cfg peer apparmorEnabled start es b)
include hf

theorem access : Service.Access cfg apparmorEnabled b.service :=
  hf.enabled ▸ hf.correlated.access

theorem run_step (hd : (machine cfg peer).step b e = some d) :
    (machine cfg peer).run start (es ++ [e]) = some d := by
  rw [Machine.run_append,hf.run]
  simp [hd]

/-- The callback that lets a handler past the check is the step of the run. -/
theorem checked {f : Service.Event} {q : Service.Place} (hserves : Serves peer b e f)
    (hd : (machine cfg peer).step b e = some d)
    (ht : (Service.machine cfg).step b.service f = some d.service)
    (hat : Service.At d.service x q) (hq : q.cleared = true)
    (hm : (b.service.handlers x).request.media = .localFile filename st) :
    CheckedIn cfg peer apparmorEnabled start (es ++ [e]) x (b.service.handlers x).peer filename := by
  have hs := hf.correlated.balanced.service
  have hplace := (hs.transition_of_step ht).place hs.lifecycle hat
  rcases hplace.before hq with ⟨q,hbefore,hq⟩ | ⟨rfl,⟨o,rfl⟩,u,c,hr,hc⟩
  · exact (hf.cleared x q filename st hbefore hq hm).append _
  · obtain rfl : e = .service (.call o) := by
      cases e with
      | service => exact congrArg Event.service hserves.symm
      | dispatch => cases hserves
      | _ => exact hserves.elim
    exact ⟨es,o,[],b,d,rfl,hf.run,hd,hf.access.passesCheck hs.lifecycle hr hc hm,hat⟩

theorem step (hd : (machine cfg peer).step b e = some d) :
    Followed cfg peer apparmorEnabled start (es ++ [e]) d := by
  have hcorrelated := hf.correlated.step hd
  rcases step_service hd with hsame | ⟨f,hserves,ht⟩
  · refine ⟨hf.run_step hd,hcorrelated,by rw [hsame]; exact hf.enabled,?_,?_⟩ <;> rw [hsame]
    · exact fun x q filename st hat hq hm => (hf.cleared x q filename st hat hq hm).append _
    · exact fun x image filename st hm hmedia => (hf.sent x image filename st hm hmedia).append _
  · have hs := hf.correlated.balanced.service
    have htr := hs.transition_of_step ht
    have hl := hs.lifecycle
    obtain ⟨new,hlog,hdue⟩ := htr.log
    -- the record of a handler that had arrived is for the same peer and the same file
    have hsame : ∀ {x}, x < b.service.next →
        (d.service.handlers x).peer = (b.service.handlers x).peer ∧
          (d.service.handlers x).request.media = (b.service.handlers x).request.media :=
      fun hx => ⟨(htr.rewritten hx).peer,(htr.rewritten hx).media⟩
    refine ⟨hf.run_step hd,hcorrelated,htr.enabled.trans hf.enabled,?_,?_⟩
    · intro x q filename st hat hq hm
      have hx : x < b.service.next := by
        rcases (htr.place hl hat).before hq with ⟨q,hbefore,-⟩ | ⟨-,-,u,c,hr,-⟩
        · exact (hbefore.unfinished hl).2.2
        · exact (hf.access.received hl hr).2
      obtain ⟨hpeer,hmedia⟩ := hsame hx
      rw [hpeer]
      exact hf.checked hserves hd ht hat hq (hmedia.symm.trans hm)
    · intro x image filename st hsent hm
      rw [hlog] at hsent
      rcases List.mem_append.mp hsent with hnew | hold
      · obtain ⟨result,hat⟩ := hdue _ hnew
        have hchecked : ∀ {q}, Service.At b.service x q → q.cleared = true →
            CheckedIn cfg peer apparmorEnabled start (es ++ [e]) x (d.service.handlers x).peer
              filename := by
          intro q hat hq
          obtain ⟨hpeer,hmedia⟩ := hsame (hat.unfinished hl).2.2
          rw [hpeer]
          exact (hf.cleared x q filename st hat hq (hmedia.symm.trans hm)).append _
        exact hat.elim (hchecked · rfl) (hchecked · rfl)
      · obtain ⟨hpeer,hmedia⟩ := hsame (hf.access.sent_lt hold)
        rw [hpeer]
        exact (hf.sent x image filename st hold (hmedia.symm.trans hm)).append _

end Followed

theorem Followed.entitled (hf : Followed cfg peer apparmorEnabled start es b) :
    Entitled cfg peer apparmorEnabled start es b := by
  intro i r filename size hwanted hv
  have hc := hf.correlated
  obtain ⟨h,hh,hsent⟩ := hc.shown i r hv
  obtain ⟨hpeer,-,canonical,file,hmedia⟩ := hc.handlers h _ hh
  rw [hwanted] at hmedia
  obtain ⟨name,st,hlocal⟩ := thumbnail_media hmedia
  refine ⟨h,name,st,fun _ => hc.message_iff hh,hlocal,⟨_,_,hlocal ▸ hmedia⟩,hsent,?_⟩
  rw [← show (b.service.handlers h).peer = peer i from hpeer]
  exact hf.sent h _ name st hsent hlocal

end

/-- No run lets a request show a local file whose owner may not read it, whoever else asks for
the same file at the same time: after the arrival of its call and before the reply, its
handler has passed the check with what the bus has said about its peer. -/
theorem files_entitled (cfg : Service.Config) (peer : Instance → Peer)
    (maxBacklog : Instance → { n : ℤ // 0 < n }) (apparmorEnabled : Bool)
    (maxDownloads maxExtractions : ℤ) (hd : 0 < maxDownloads) (he : 0 < maxExtractions)
    (thumbnailer : Thumbnailer) (es : List Event) (b : SessionBus)
    (hrun : (machine cfg peer).run (new maxBacklog
      (.new apparmorEnabled maxDownloads maxExtractions hd he thumbnailer)) es = some b) :
    Entitled cfg peer apparmorEnabled (new maxBacklog
      (.new apparmorEnabled maxDownloads maxExtractions hd he thumbnailer)) es b := by
  refine Followed.entitled (Machine.history_run (fun es s e t hf ht => hf.step ht) ?_ hrun)
  refine ⟨rfl,.new cfg peer maxBacklog (.new ..) (.new ..),rfl,fun x p _ _ hat => ?_,
    fun x image _ _ hsent => by cases hsent⟩
  exact absurd hat.work_pos (lt_irrefl 0)

theorem files_entitled_twoViewers : ∃ d,
    (machine Service.reader viewer).run desk twoViewers = some d ∧
      ((d.clients 1).requests 0).isValid = true ∧
        Entitled Service.reader viewer true desk twoViewers d := by
  have hrun : ((machine Service.reader viewer).run desk twoViewers).any
      (fun d => ((d.clients 1).requests 0).isValid) = true := by decide +kernel
  obtain ⟨d,hd,hv⟩ := (Option.any_eq_true ..).mp hrun
  exact ⟨d,hd,hv,files_entitled Service.reader viewer _ true 2 2 two_pos two_pos _ _ d hd⟩

end SessionBus
end UnityThumbnailer
