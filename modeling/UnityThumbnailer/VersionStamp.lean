import UnityThumbnailer.Startup

/-! The cache version on disk against the entries of the caches, over all runs of all
programs: an upgrade stamps the directory when it ends, and should not do so before the
entries of other versions are gone. -/
namespace UnityThumbnailer

open EventSystem Startup

namespace VersionStamp

/-- All entries were written under one cache version. -/
def Uniform (d : CacheDir) (version : ℤ) : Prop :=
  ∀ cache, ∀ e ∈ d.entries cache, e.writtenBy = version

/-- When the stored cache version is that of the program started last, no entry of another
version is left. -/
def StampHonest (s : Host) : Prop :=
  ∀ version ∈ s.program, Version.prevCacheVersion s.dir = version → Uniform s.dir version

/-- Whether an entry is still there after the caches were invalidated one by one. -/
def survives (io : Invalidation) : List Cache → Cache → Stored → Bool
  | [], _, _ => true
  | c::cs, cache, e =>
    match io c with
    | none => cache ≠ c && survives io cs cache e
    | some (_,kept) => if cache = c then kept e else true

/-- The destructor of the version object leaves the new cache version on disk. -/
def StampWritten (v : Version) (io : StartScript) (d : CacheDir) : Prop :=
  ¬ (v.updateVersion d = true ∧ io.versionWrite = .notOpened) ∧
    readNumber (io.cacheVersionWrite.apply [v.cacheVersion] d.cacheVersionFile) 0 0 = v.cacheVersion

/-- A start on a directory of the program's own version finds only entries of it; a start
on another one stamps it only if no entry of another version survives. -/
def StampsAfterWipe (s : Host) : Event → Prop
  | .start v settings io =>
    (Version.prevCacheVersion s.dir = v.cacheVersion → Uniform s.dir v.cacheVersion) ∧
      (Version.prevCacheVersion s.dir ≠ v.cacheVersion → (∃ m, prepare settings s.dir = .ok m) →
        StampWritten v io s.dir → ∀ cache, ∀ e ∈ s.dir.entries cache,
          survives io.invalidation (selectCaches .all) cache e = true →
            e.writtenBy = v.cacheVersion)
  | _ => True

/-- No wipe goes without its stamp: every upgrade empties the caches, and its stamp gets
written. -/
def UpgradesInFull (s : Host) : Event → Prop
  | .start v settings io =>
    Version.prevCacheVersion s.dir ≠ v.cacheVersion → (∃ m, prepare settings s.dir = .ok m) →
      (∀ cache, io.invalidation cache = none) ∧ StampWritten v io s.dir
  | _ => True

/-- The stamp is the version of all entries, and that of the program while it runs. -/
structure Stamped (s : Host) : Prop where
  entries : Uniform s.dir (Version.prevCacheVersion s.dir)
  running : ∀ version ∈ s.program, s.running ≠ none → Version.prevCacheVersion s.dir = version

/-! ### Invalidation -/

section Invalidate

variable {io : Invalidation} {d : CacheDir} {cache : Cache} {e : Stored}

/-- What the loop over the caches leaves. -/
theorem mem_invalidate (cs : List Cache) : e ∈ (invalidate io cs d).2.entries cache ↔
    e ∈ d.entries cache ∧ survives io cs cache e = true := by
  induction cs generalizing d with
  | nil => simp [invalidate,survives]
  | cons c cs ih =>
    cases hio : io c with
    | none =>
      simp only [invalidate,survives,hio,ih,CacheDir.mem_setEntries]
      by_cases hc : cache = c <;> simp [hc]
    | some r =>
      obtain ⟨what,kept⟩ := r
      simp only [invalidate,survives,hio,CacheDir.mem_keep]
      by_cases hc : cache = c <;> simp [hc]

/-- Nothing survives when all three caches are invalidated. -/
theorem survives_none (h : ∀ c, io c = none) :
    survives io (selectCaches .all) cache e = false := by
  simp only [selectCaches,survives,h]
  cases cache <;> rfl

end Invalidate

/-! ### The stamp -/

section Stamp

variable {v : Version} {io : StartScript} {d : CacheDir}

/-- Without a change of the cache version its file is left alone. -/
theorem destruct_same (u : Bool) (w1 w2 : FileWrite) :
    Version.prevCacheVersion (v.destruct u false w1 w2 d) = Version.prevCacheVersion d := by
  cases u <;> cases w1 <;> rfl

theorem destruct_changed (u : Bool) (w1 w2 : FileWrite) :
    Version.prevCacheVersion (v.destruct u true w1 w2 d) =
      if u = true ∧ w1 = .notOpened then Version.prevCacheVersion d
      else readNumber (w2.apply [v.cacheVersion] d.cacheVersionFile) 0 0 := by
  unfold Version.destruct
  cases u <;> cases w1 <;> simp [Version.prevCacheVersion]

/-- An upgrade stamps the directory exactly when the destructor gets to write the file. -/
theorem stamped_iff (hold : Version.prevCacheVersion d ≠ v.cacheVersion) {d' : CacheDir}
    (hfiles : d'.cacheVersionFile = d.cacheVersionFile) :
    Version.prevCacheVersion (v.destruct (v.updateVersion d) true io.versionWrite
      io.cacheVersionWrite d') = v.cacheVersion ↔ StampWritten v io d := by
  have hsame : Version.prevCacheVersion d' = Version.prevCacheVersion d := by
    simp only [Version.prevCacheVersion,hfiles]
  rw [destruct_changed,hsame,hfiles,StampWritten]
  split_ifs with hskip
  · exact iff_of_false hold fun h => h.1 hskip
  · exact (and_iff_right hskip).symm

theorem applyUpgradeActions_same (b : BackoffAdjuster)
    (h : Version.prevCacheVersion d = v.cacheVersion) :
    (applyUpgradeActions v io d b).2.entries = d.entries ∧
      Version.prevCacheVersion (applyUpgradeActions v io d b).2 = v.cacheVersion := by
  have hupdate : v.updateCacheVersion d = false := by simp [Version.updateCacheVersion,h]
  unfold applyUpgradeActions
  simp only [h,ne_eq,not_true_eq_false,if_false,hupdate,destruct_entries,true_and]
  rw [destruct_same,h]

theorem applyUpgradeActions_upgrade (b : BackoffAdjuster)
    (h : Version.prevCacheVersion d ≠ v.cacheVersion) :
    (∀ cache e, e ∈ (applyUpgradeActions v io d b).2.entries cache ↔
        e ∈ d.entries cache ∧ survives io.invalidation (selectCaches .all) cache e = true) ∧
      (Version.prevCacheVersion (applyUpgradeActions v io d b).2 = v.cacheVersion ↔
        StampWritten v io d) := by
  have hupdate : v.updateCacheVersion d = true := by simp [Version.updateCacheVersion,h]
  unfold applyUpgradeActions
  simp only [h,ne_eq,not_false_eq_true,if_true,hupdate,destruct_entries]
  refine ⟨fun cache e => ?_,stamped_iff h ?_⟩
  · rw [clear_snd]
    exact mem_invalidate _
  · rw [clear_snd]
    exact (invalidate_files _).1

end Stamp

/-! ### Runs -/

section Steps

variable {s t : Host} {e : Event}

/-- A start leaves an honest stamp exactly when it stamps after the wipe. -/
theorem start_honest_iff (v : Version) (settings : Settings) (io : StartScript) :
    StampHonest (s.start v settings io) ↔ StampsAfterWipe s (.start v settings io) := by
  simp only [StampHonest,start_program,start_dir,Option.mem_def,Option.some.injEq,forall_eq',
    StampsAfterWipe]
  by_cases hsame : Version.prevCacheVersion s.dir = v.cacheVersion
  · simp only [hsame,forall_const,ne_eq,not_true_eq_false,false_implies,and_true]
    cases hprepare : prepare settings s.dir with
    | error what => simp only [construct,hprepare,hsame,forall_const]
    | ok m =>
      obtain ⟨hentries,hstamp⟩ := @applyUpgradeActions_same v io s.dir m.backoff hsame
      simp only [construct,hprepare,hstamp,forall_const,Uniform,hentries]
  · simp only [hsame,false_implies,true_and,ne_eq,not_false_eq_true,forall_const]
    cases hprepare : prepare settings s.dir with
    | error what => simp [construct,hprepare,hsame]
    | ok m =>
      obtain ⟨hentries,hstamp⟩ := @applyUpgradeActions_upgrade v io s.dir m.backoff hsame
      simp only [construct,hprepare,hstamp,Uniform,hentries,Except.ok.injEq,exists_eq',
        forall_const,and_imp]

/-- A step that leaves the stamp alone, and adds no entry but of the program itself. -/
theorem StampHonest.of_entries (h : StampHonest s) (hprogram : t.program = s.program)
    (hstamp : t.dir.cacheVersionFile = s.dir.cacheVersionFile)
    (hentries : ∀ cache, ∀ e ∈ t.dir.entries cache,
      e ∈ s.dir.entries cache ∨ some e.writtenBy = s.program) : StampHonest t := by
  intro version hversion hprev cache e he
  rw [hprogram] at hversion
  rcases hentries cache e he with hold | hnew
  · refine h version hversion ?_ cache e hold
    simpa only [Version.prevCacheVersion,hstamp] using hprev
  · exact Option.some.inj (hnew.trans hversion)

theorem mem_storeNumber {version n : ℤ} {outcome : PutOutcome} {key : String} {d : CacheDir}
    {cache : Cache} {f : Stored} (h : f ∈ (storeNumber version outcome key n d).entries cache) :
    f.writtenBy = version ∨ f ∈ d.entries cache := by
  unfold storeNumber at h
  split_ifs at h
  · rcases CacheDir.mem_put h with rfl | hold
    · exact Or.inl rfl
    · exact Or.inr hold
  · exact Or.inr h

theorem storeNumber_stamp (version n : ℤ) (outcome : PutOutcome) (key : String) (d : CacheDir) :
    (storeNumber version outcome key n d).cacheVersionFile = d.cacheVersionFile := by
  unfold storeNumber
  split_ifs <;> rfl

/-- The destructor only adds entries of its own version. -/
theorem mem_destruct {version : ℤ} {b : BackoffAdjuster} {first second : PutOutcome}
    {d : CacheDir} {cache : Cache} {f : Stored}
    (h : f ∈ (Startup.destruct version b first second d).entries cache) :
    f.writtenBy = version ∨ f ∈ d.entries cache := by
  unfold Startup.destruct at h
  split_ifs at h
  · exact Or.inr h
  · rcases mem_storeNumber h with hnew | hold
    · exact Or.inl hnew
    · exact mem_storeNumber hold

theorem destruct_stamp (version : ℤ) (b : BackoffAdjuster) (first second : PutOutcome)
    (d : CacheDir) :
    (Startup.destruct version b first second d).cacheVersionFile = d.cacheVersionFile := by
  unfold Startup.destruct
  split_ifs
  · rfl
  · rw [storeNumber_stamp,storeNumber_stamp]

/-- What happens while a program runs leaves the stamp alone, and adds no entry but of its
version. -/
theorem serve_frame {version : ℤ} {b : BackoffAdjuster} (ht : s.serve version b e = some t) :
    t.program = s.program ∧ t.dir.cacheVersionFile = s.dir.cacheVersionFile ∧
      ∀ cache, ∀ f ∈ t.dir.entries cache, f ∈ s.dir.entries cache ∨ f.writtenBy = version := by
  cases e with
  | start v settings io | drop cache kept => cases ht
  | put c key value =>
    simp only [Host.serve,Option.ite_none_left_eq_some,Option.some.injEq] at ht
    obtain ⟨_,rfl⟩ := ht
    refine ⟨rfl,rfl,fun cache f hf => ?_⟩
    rcases CacheDir.mem_put hf with rfl | hold
    · exact Or.inr rfl
    · exact Or.inl hold
  | failed now | answered now | kill =>
    obtain rfl := Option.some.inj ht
    exact ⟨rfl,rfl,fun cache f hf => Or.inl hf⟩
  | clear selector io =>
    obtain rfl := Option.some.inj ht
    refine ⟨rfl,?_,fun cache f hf => Or.inl ?_⟩
    · simp only [clear_snd]
      exact (invalidate_files _).1
    · simp only [clear_snd] at hf
      exact ((mem_invalidate _).mp hf).1
  | stop first second =>
    obtain rfl := Option.some.inj ht
    refine ⟨rfl,destruct_stamp _ _ _ _ _,fun cache f hf => ?_⟩
    exact (mem_destruct hf).symm

theorem serve_honest {version : ℤ} {b : BackoffAdjuster} (h : StampHonest s)
    (hversion : s.program = some version) (ht : s.serve version b e = some t) :
    StampHonest t := by
  obtain ⟨hprogram,hstamp,hentries⟩ := serve_frame ht
  refine h.of_entries hprogram hstamp fun cache f hf => ?_
  exact (hentries cache f hf).imp_right fun hnew => by rw [hnew,hversion]

/-- Of all steps only a start can leave a dishonest stamp. -/
theorem step_honest_iff (h : StampHonest s) (ht : restarts.step s e = some t) :
    StampHonest t ↔ StampsAfterWipe s e := by
  cases e with
  | start v settings io =>
    simp only [restarts,Option.ite_none_right_eq_some,Option.some.injEq] at ht
    obtain ⟨_,rfl⟩ := ht
    exact start_honest_iff v settings io
  | drop c kept =>
    obtain rfl := Option.some.inj ht
    refine iff_of_true (h.of_entries rfl rfl fun cache f hf => Or.inl ?_) trivial
    exact (CacheDir.mem_keep.mp hf).1
  | put | failed | answered | clear | stop | kill =>
    refine iff_of_true ?_ trivial
    simp only [restarts] at ht
    split at ht
    · rename_i version b hprogram hrunning
      exact serve_honest h hprogram ht
    · cases ht

/-- When the stamp is the version of all entries, a start that upgrades in full stamps after
the wipe. -/
theorem Stamped.stampsAfterWipe (h : Stamped s) (hg : UpgradesInFull s e) :
    StampsAfterWipe s e := by
  cases e with
  | start v settings io =>
    refine ⟨fun hsame => hsame ▸ h.entries,fun hold hprepare _ cache f _ hsurvives => ?_⟩
    rw [survives_none (hg hold hprepare).1] at hsurvives
    cases hsurvives
  | drop | put | failed | answered | clear | stop | kill => trivial

/-- Nothing is touched when the settings or the stored backoff are not accepted. -/
theorem start_rejected {v : Version} {settings : Settings} (io : StartScript) {what : Failure}
    (h : prepare settings s.dir = .error what) :
    (s.start v settings io).dir = s.dir ∧ (s.start v settings io).running = none := by
  unfold Host.start construct
  rw [h]
  exact ⟨rfl,rfl⟩

theorem start_stamped {v : Version} {settings : Settings} {io : StartScript} (h : Stamped s)
    (hg : UpgradesInFull s (.start v settings io)) : Stamped (s.start v settings io) := by
  cases hprepare : prepare settings s.dir with
  | error what =>
    obtain ⟨hdir,hrunning⟩ := start_rejected (v:=v) io hprepare
    exact ⟨by rw [hdir]; exact h.entries,fun _ _ hb => absurd hrunning hb⟩
  | ok m =>
    have hdir : (s.start v settings io).dir = (applyUpgradeActions v io s.dir m.backoff).2 := by
      rw [start_dir,construct,hprepare]
    suffices hstamp : Version.prevCacheVersion (s.start v settings io).dir = v.cacheVersion ∧
        Uniform (s.start v settings io).dir v.cacheVersion by
      refine ⟨by rw [hstamp.1]; exact hstamp.2,fun version hversion _ => ?_⟩
      rw [start_program] at hversion
      exact hstamp.1.trans (Option.some.inj hversion)
    rw [hdir]
    by_cases hsame : Version.prevCacheVersion s.dir = v.cacheVersion
    · obtain ⟨hentries,hstamp⟩ := @applyUpgradeActions_same v io s.dir m.backoff hsame
      exact ⟨hstamp,by rw [Uniform,hentries]; exact hsame ▸ h.entries⟩
    · obtain ⟨hentries,hstamp⟩ := @applyUpgradeActions_upgrade v io s.dir m.backoff hsame
      obtain ⟨hwiped,hwritten⟩ := hg hsame ⟨m,hprepare⟩
      refine ⟨hstamp.mpr hwritten,fun cache f hf => ?_⟩
      have hsurvives := ((hentries cache f).mp hf).2
      rw [survives_none hwiped] at hsurvives
      cases hsurvives

/-- A step of a run in which the upgrades are done in full. -/
theorem step_stamped (s : Host) (e : Event) (t : Host) (h : Stamped s) (hg : UpgradesInFull s e)
    (ht : restarts.step s e = some t) : Stamped t := by
  cases e with
  | start v settings io =>
    simp only [restarts,Option.ite_none_right_eq_some,Option.some.injEq] at ht
    obtain ⟨_,rfl⟩ := ht
    exact start_stamped h hg
  | drop c kept =>
    obtain rfl := Option.some.inj ht
    exact ⟨fun cache f hf => h.entries cache f (CacheDir.mem_keep.mp hf).1,h.running⟩
  | put | failed | answered | clear | stop | kill =>
    simp only [restarts] at ht
    split at ht
    · rename_i version b hversion hrunning
      obtain ⟨hprogram,hfile,hentries⟩ := serve_frame ht
      have hstamp : Version.prevCacheVersion s.dir = version :=
        h.running version hversion (by simp [hrunning])
      have hsame : Version.prevCacheVersion t.dir = Version.prevCacheVersion s.dir := by
        simp only [Version.prevCacheVersion,hfile]
      refine ⟨fun cache f hf => ?_,fun w hw _ => ?_⟩
      · rw [hsame]
        exact (hentries cache f hf).elim (h.entries cache f) fun hnew => hnew.trans hstamp.symm
      · rw [hprogram,hversion] at hw
        rw [hsame,hstamp]
        exact Option.some.inj hw
    · cases ht

end Steps

/-- Along all constructions, services and destructions on a cache directory, the stamp is
honest in every state exactly when every start stamps the directory after the wipe; so it is
when every upgrade empties the caches and gets its stamp written. -/
theorem stampHonest_iff (s t : Host) (es : List Event) (hs : s.program = none)
    (hrun : restarts.run s es = some t) :
    (restarts.Always StampHonest s es ↔ restarts.AllSteps StampsAfterWipe s es) ∧
      (Uniform s.dir (Version.prevCacheVersion s.dir) →
        restarts.AllSteps UpgradesInFull s es → restarts.AllSteps StampsAfterWipe s es) := by
  have hinit : StampHonest s := by simp [StampHonest,hs]
  refine ⟨Machine.always_iff_allSteps (fun _ _ _ h hg ht => (step_honest_iff h ht).mpr hg)
    (fun _ h => h) (fun _ _ _ h hg ht hp => hg ((step_honest_iff h ht).mp hp)) hinit hrun,
    fun huniform => ?_⟩
  exact Machine.allSteps_of_guarded step_stamped (fun _ _ h hg => h.stampsAfterWipe hg)
    ⟨huniform,by simp [hs]⟩

/-- Two releases that differ in the cache version. -/
def release1 : Version := ⟨3,0,0,1⟩

def release2 : Version := ⟨3,0,1,2⟩

def smoothStart : StartScript := ⟨fun _ => none,.written,.written⟩

/-- The second of the three caches cannot be invalidated. -/
def stuckThumbnails : StartScript :=
  ⟨fun c => if c = .thumbnail then some ("IO error",fun _ => true) else none,.written,.written⟩

def smoothUpgrade : List Event :=
  [.start release1 defaultSettings smoothStart,.put .thumbnail "song" "art",.kill,
    .start release2 defaultSettings smoothStart]

def failedUpgrade : List Event :=
  [.start release1 defaultSettings smoothStart,.put .thumbnail "song" "art",.kill,
    .start release2 defaultSettings stuckThumbnails]

theorem smoothUpgrade_inFull (s : Host) : restarts.AllSteps UpgradesInFull s smoothUpgrade := by
  have hstart : ∀ (t : Host) (v : Version),
      UpgradesInFull t (.start v defaultSettings smoothStart) :=
    fun t v _ _ => ⟨fun _ => rfl,by simp [smoothStart],rfl⟩
  exact ⟨hstart s _,fun _ _ => ⟨trivial,fun _ _ => ⟨trivial,fun t _ => ⟨hstart t _,
    fun _ _ => trivial⟩⟩⟩⟩

theorem stampHonest_smoothUpgrade :
    emptyHost.program = none ∧ (∃ t, restarts.run emptyHost smoothUpgrade = some t ∧
      t.program = some 2) ∧ restarts.Always StampHonest emptyHost smoothUpgrade := by
  obtain ⟨t,hrun,hprogram⟩ : ∃ t, restarts.run emptyHost smoothUpgrade = some t ∧
      t.program = some 2 := ⟨_,rfl,rfl⟩
  have hiff := stampHonest_iff emptyHost t smoothUpgrade rfl hrun
  exact ⟨rfl,⟨t,hrun,hprogram⟩,hiff.1.mpr (hiff.2 (fun _ _ => nofun) (smoothUpgrade_inFull _))⟩

/-- The second release fails to start, but leaves its stamp over an entry of the first. -/
theorem failedUpgrade_dishonest : ¬ restarts.Always StampHonest emptyHost failedUpgrade := by
  intro h
  have hrun : ∃ t, restarts.run emptyHost failedUpgrade = some t ∧ t.program = some 2 ∧
      Version.prevCacheVersion t.dir = 2 ∧ ⟨"song","art",1⟩ ∈ t.dir.entries .thumbnail :=
    ⟨_,rfl,rfl,rfl,List.mem_cons_self⟩
  obtain ⟨t,ht,hprogram,hprev,hentry⟩ := hrun
  have hlast : StampHonest t := Machine.always_prefix [] (by rwa [List.append_nil]) ht
  have hversion := hlast 2 hprogram hprev .thumbnail _ hentry
  cases hversion

end VersionStamp
end UnityThumbnailer
