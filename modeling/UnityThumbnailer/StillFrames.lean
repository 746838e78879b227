import UnityThumbnailer.ThumbnailExtractor

/-! The mappings of a run of the extractor. Memory is read only while it is mapped if no frame
is extracted over one that still uses a mapping, and only then: the old frame unmaps the buffer of
the new one when it is destroyed. The program never does so. -/
namespace UnityThumbnailer
namespace ThumbnailExtractor

open LocalAlbumArt CoverArt EventSystem UnityThumbnailer.Orientation

/-- A buffer is mapped once, and unmapped once; in between its memory may be read. -/
def Allowed (past : List Effect) : Effect → Prop
  | .mapped m => .mapped m ∉ past
  | .unmapped m | .accessed m => .mapped m ∈ past ∧ .unmapped m ∉ past
  | .sought _ | .opened _ | .wrote .. => True

/-- The mapping that an effect is about. -/
def Effect.mapping : Effect → Option ℕ
  | .mapped m | .unmapped m | .accessed m => some m
  | .sought _ | .opened _ | .wrote .. => none

def StillFrame.mapping : StillFrame → Option ℕ
  | .borrowed m _ => some m
  | .owned _ => none

/-- The mapping that the still frame uses. -/
def uses (s : ThumbnailExtractor) : Option ℕ := s.stillFrame.bind StillFrame.mapping

/-- No memory was read that was not mapped, and that of the still frame is mapped. -/
structure Safe (s : ThumbnailExtractor) : Prop where
  justified : Justified Allowed s.log
  frame : ∀ m, s.uses = some m → .mapped m ∈ s.log ∧ .unmapped m ∉ s.log

/-- There is a frame with the dimensions that are needed. -/
def Playback.stores (w : Playback) : Bool :=
  match w.sample.bind VideoSample.caps with
  | some (width,height) => 0 < width ∧ 0 < height
  | none => false

/-- A video frame is extracted only when no frame with borrowed pixels is there. -/
def LetsGo (s : ThumbnailExtractor) : Event → Prop
  | .extractVideoFrame w => w.stores = true → s.uses = none
  | _ => True

/-- The account of the mappings: they are numbered, and some are held open. -/
structure Account (log : List Effect) (next : ℕ) (held : ℕ → Prop) : Prop where
  justified : Justified Allowed log
  old : ∀ m, .mapped m ∈ log → m < next
  held : ∀ m, held m ↔ .mapped m ∈ log ∧ .unmapped m ∉ log

def Books (s : ThumbnailExtractor) : Prop :=
  Account s.log s.next fun m => s.buffermap = some m

/-- What `buffermap_` holds is what the still frame uses. -/
structure Sound (s : ThumbnailExtractor) : Prop where
  books : Books s
  matched : s.uses = s.buffermap

/-- What was unmapped had been mapped. -/
theorem mapped_of_unmapped {log : List Effect} {m : ℕ} (h : Justified Allowed log)
    (hm : .unmapped m ∈ log) : .mapped m ∈ log := by
  obtain ⟨future,past,rfl⟩ := List.append_of_mem hm
  have hpast := h.split.1
  simp [hpast]

namespace Account

variable {log : List Effect} {next m : ℕ} {held held' : ℕ → Prop}

theorem congr (h : Account log next held) (hheld : ∀ m, held' m ↔ held m) :
    Account log next held' :=
  ⟨h.justified,h.old,fun m => (hheld m).trans (h.held m)⟩

/-- What is about no mapping leaves the account alone. -/
theorem other {a : Effect} (h : Account log next held) (ha : a.mapping = none) :
    Account (a::log) next held := by
  have hne : ∀ {b : Effect} {m}, b.mapping = some m → b ≠ a := by
    rintro b m hb rfl
    cases ha.symm.trans hb
  have hmem : ∀ {b : Effect} {m}, b.mapping = some m → (b ∈ a::log ↔ b ∈ log) := fun hb =>
    List.mem_cons.trans (or_iff_right (hne hb))
  refine ⟨⟨?_,h.justified⟩,fun m hm => h.old m ((hmem rfl).mp hm),fun m => ?_⟩
  · cases a <;> trivial
  · rw [hmem rfl,hmem rfl]
    exact h.held m

theorem accessed (h : Account log next held) (hm : held m) :
    Account (.accessed m::log) next held :=
  ⟨⟨(h.held m).mp hm,h.justified⟩,fun k hk => h.old k (by simpa using hk),
    fun k => by simpa using h.held k⟩

theorem mapped (h : Account log next held) :
    Account (.mapped next::log) (next+1) fun m => m = next ∨ held m := by
  have hnew : .mapped next ∉ log := fun hm => lt_irrefl _ (h.old _ hm)
  have hclosed : .unmapped next ∉ log := fun hm => hnew (mapped_of_unmapped h.justified hm)
  refine ⟨⟨hnew,h.justified⟩,fun k hk => ?_,fun k => ?_⟩
  · rcases List.mem_cons.mp hk with heq | hold
    · obtain rfl := Effect.mapped.inj heq
      exact Nat.lt_succ_self _
    · exact (h.old k hold).trans (Nat.lt_succ_self _)
  · by_cases hk : k = next
    · simpa [hk] using hclosed
    · simpa [hk] using h.held k

theorem unmapped (h : Account log next held) (hm : held m) :
    Account (.unmapped m::log) next fun k => k ≠ m ∧ held k := by
  refine ⟨⟨(h.held m).mp hm,h.justified⟩,fun k hk => h.old k (by simpa using hk),fun k => ?_⟩
  by_cases hk : k = m
  · simp [hk]
  · simpa [hk] using h.held k

end Account

section

variable {s t : ThumbnailExtractor} {e : Event} {m : ℕ}

theorem Sound.safe (h : Sound s) : Safe s :=
  ⟨h.books.justified,fun m hm => (h.books.held m).mp (h.matched.symm.trans hm)⟩

theorem unmap_some (hm : s.buffermap = some m) :
    s.unmap = { s with buffermap := none, log := .unmapped m::s.log } := by
  simp only [unmap,hm]

theorem unmap_none (hm : s.buffermap = none) : s.unmap = s := by
  simp only [unmap,hm]

@[simp] theorem unmap_buffermap : s.unmap.buffermap = none := by
  unfold unmap
  split
  · rfl
  · assumption

@[simp] theorem unmap_next : s.unmap.next = s.next := by
  unfold unmap
  split <;> rfl

@[simp] theorem unmap_stillFrame : s.unmap.stillFrame = s.stillFrame := by
  unfold unmap
  split <;> rfl

@[simp] theorem map_buffermap : s.map.buffermap = some s.next := congrArg some unmap_next

@[simp] theorem map_stillFrame : s.map.stillFrame = s.stillFrame := unmap_stillFrame

theorem Books.unmap (h : Books s) : Books s.unmap := by
  cases hb : s.buffermap with
  | none => rwa [unmap_none hb]
  | some m =>
    rw [unmap_some hb]
    refine (Account.unmapped h hb).congr fun k => ⟨nofun,fun ⟨hk,hheld⟩ => ?_⟩
    exact absurd (Option.some.inj (hheld.symm.trans hb)) hk

theorem Books.map (h : Books s) : Books s.map := by
  refine (Account.mapped h.unmap).congr fun k => ?_
  rw [unmap_buffermap]
  simp [eq_comm]

/-! ### Frames -/

theorem resetStillFrame_borrowed {frame : Option StillFrame} (hu : s.uses = some m) :
    s.resetStillFrame frame = { s with stillFrame := frame }.unmap := by
  unfold uses at hu
  unfold resetStillFrame
  split
  · rfl
  · rename_i hnot
    cases hf : s.stillFrame with
    | none => simp [hf] at hu
    | some f =>
      cases f with
      | borrowed n p => exact absurd hf (hnot n p)
      | owned p => simp [hf,StillFrame.mapping] at hu

theorem resetStillFrame_free {frame : Option StillFrame} (hu : s.uses = none) :
    s.resetStillFrame frame = { s with stillFrame := frame } := by
  unfold uses at hu
  unfold resetStillFrame
  split
  · rename_i hf
    simp [hf,StillFrame.mapping] at hu
  · rfl

/-- A frame that uses no mapping takes the place of any other. -/
theorem Sound.resetStillFrame {frame : Option StillFrame} (h : Sound s)
    (hframe : frame.bind StillFrame.mapping = none) : Sound (s.resetStillFrame frame) := by
  cases hu : s.uses with
  | none =>
    rw [resetStillFrame_free hu]
    exact ⟨h.books,hframe.trans (hu.symm.trans h.matched)⟩
  | some m =>
    rw [resetStillFrame_borrowed hu]
    have hbooks : Books { s with stillFrame := frame } := h.books
    refine ⟨hbooks.unmap,?_⟩
    rw [unmap_buffermap]
    unfold uses
    rw [unmap_stillFrame]
    exact hframe

theorem Sound.access {frame : StillFrame} (h : Sound s) (hframe : s.stillFrame = some frame) :
    Sound (s.access frame) := by
  cases frame with
  | owned => exact h
  | borrowed n p =>
    have hn : s.buffermap = some n := by
      rw [← h.matched,uses,hframe]
      rfl
    exact ⟨h.books.accessed hn,h.matched⟩

theorem Sound.rotateFrame {frame : StillFrame} (h : Sound s) (hframe : s.stillFrame = some frame)
    (w : Playback) : Sound (s.rotateFrame frame w) := by
  unfold ThumbnailExtractor.rotateFrame
  split
  · exact h
  · dsimp only
    split
    · exact (h.access hframe).resetStillFrame rfl
    · exact h.access hframe

/-- The frame of a new mapping, when the old one uses none. -/
theorem Sound.mapFrame {pixels : Raster Rgb} (h : Sound s) (hfree : s.uses = none) :
    Sound (s.map.resetStillFrame (some (.borrowed s.next pixels))) := by
  have hnone : s.map.uses = none := by
    unfold uses
    rwa [map_stillFrame]
  rw [resetStillFrame_free hnone]
  exact ⟨h.books.map,map_buffermap.symm⟩

theorem Sound.storeFrame {w : Playback} (h : Sound s) (hfree : s.uses = none) (buffer : Data)
    (width height : ℕ) : Sound (s.storeFrame buffer width height w) := by
  refine (h.mapFrame hfree).rotateFrame ?_ w
  have hnone : s.map.uses = none := by
    unfold uses
    rwa [map_stillFrame]
  rw [resetStillFrame_free hnone]

/-! ### Calls -/

/-- Calls leave the account as it is, but for what is noted otherwise. -/
theorem Sound.of_same (h : Sound s) (hlog : t.log = s.log) (hnext : t.next = s.next)
    (hbuffermap : t.buffermap = s.buffermap) (hframe : t.stillFrame = s.stillFrame) : Sound t := by
  refine ⟨?_,?_⟩
  · unfold Books
    rw [hlog,hnext,hbuffermap]
    exact h.books
  · rw [hbuffermap,← h.matched,uses,uses,hframe]

theorem Sound.note {a : Effect} (h : Sound s) (ha : a.mapping = none) : Sound (s.note a) :=
  ⟨h.books.other ha,h.matched⟩

theorem Sound.reset (h : Sound s) (toNull : StateChange) : Sound (s.reset toNull).2 := by
  unfold ThumbnailExtractor.reset
  split
  · exact h
  · have hs : Sound { s with sample := none } := h.of_same rfl rfl rfl rfl
    exact hs.resetStillFrame rfl

theorem Sound.setUrls (h : Sound s) (inUrl : String) (outUrl : OutUrl) (w : Opening) :
    Sound (s.setUrls inUrl outUrl w).2 := by
  have hr := h.reset w.toNull
  unfold ThumbnailExtractor.setUrls
  split
  · rename_i heq
    rwa [heq] at hr
  · rename_i heq
    rw [heq] at hr
    dsimp only
    split <;> exact hr.of_same rfl rfl rfl rfl

theorem Sound.extractVideoFrame {w : Playback} (h : Sound s) (hfree : w.stores = true →
    s.uses = none) : Sound (s.extractVideoFrame w).2 := by
  have hs : Sound (s.note (.sought (seekPoint s.duration))) := h.note rfl
  unfold ThumbnailExtractor.extractVideoFrame
  dsimp only
  split
  · exact hs
  · rename_i sample hsample
    split
    · exact hs.of_same rfl rfl rfl rfl
    · rename_i width height hcaps
      split
      · exact hs.of_same rfl rfl rfl rfl
      · rename_i hpos
        have hstores : w.stores = true := by
          unfold Playback.stores
          rw [hsample,Option.bind_some,hcaps]
          simp only [decide_eq_true_eq]
          omega
        have hsample : Sound { s.note (.sought (seekPoint s.duration)) with
            sample := some ⟨sample.buffer,none⟩ } := hs.of_same rfl rfl rfl rfl
        exact hsample.storeFrame (hfree hstores) ..

theorem Sound.save {msg : String} {output : Output} {w : Destination} (h : Sound s) :
    Sound (s.save msg output w).2 := by
  unfold ThumbnailExtractor.save
  split
  · exact h.note rfl
  · exact h.note rfl

theorem Sound.openDestination {w : Destination} (h : Sound s) : Sound (s.openDestination w).2 := by
  unfold ThumbnailExtractor.openDestination
  split
  · exact h
  · split
    · exact h
    · exact h.note rfl

/-- What `writeSample` can do. -/
theorem writeSample_state (s : ThumbnailExtractor) (data : Data) (w : Destination) :
    (s.writeSample data w).2 = s ∨
      ∃ output extent, (s.writeSample data w).2 = s.note (.wrote s.outUrl output extent) := by
  unfold writeSample save
  split
  · dsimp only
    split
    · exact .inl rfl
    · split
      · exact .inr ⟨_,_,rfl⟩
      · exact .inr ⟨_,_,rfl⟩
  · split
    · exact .inl rfl
    · exact .inl rfl
    · split
      · exact .inr ⟨_,_,rfl⟩
      · exact .inr ⟨_,_,rfl⟩

/-- The mapping of `writeImage` is made and unmapped within the call. -/
theorem Sound.writeMapped {w : Destination} (h : Sound s) (data : Data) :
    Sound (s.writeMapped data w).2 := by
  have hnot : s.buffermap ≠ some s.next := fun hb =>
    lt_irrefl _ (h.books.old _ ((h.books.held _).mp hb).1)
  have hopen := h.books.mapped.accessed (.inl rfl)
  have hclose : ∀ {log}, Account log (s.next+1) (fun m => m = s.next ∨ s.buffermap = some m) →
      Account (.unmapped s.next::log) (s.next+1) fun m => s.buffermap = some m := by
    intro log hlog
    refine (hlog.unmapped (.inl rfl)).congr fun k => ?_
    by_cases hk : k = s.next
    · simp [hk,hnot]
    · simp [hk]
  unfold ThumbnailExtractor.writeMapped
  dsimp only
  have hstate := writeSample_state
    { s with next := s.next+1, log := .accessed s.next::.mapped s.next::s.log } data w
  rcases hstate with hsame | ⟨output,extent,hwrote⟩
  · rw [hsame]
    exact ⟨hclose hopen,h.matched⟩
  · rw [hwrote]
    exact ⟨hclose (hopen.other rfl),h.matched⟩

theorem Sound.writeImage {w : Destination} (h : Sound s) : Sound (s.writeImage w).2 := by
  unfold ThumbnailExtractor.writeImage
  split
  · exact h
  · have ho := h.openDestination (w:=w)
    split
    · rename_i heq
      rwa [heq] at ho
    · rename_i heq
      rw [heq] at ho
      split
      · rename_i frame hframe
        exact (ho.access hframe).save
      · exact ho.writeMapped _

theorem Sound.new : Sound new := ⟨⟨trivial,nofun,fun _ => ⟨nofun,fun h => nomatch h.1⟩⟩,rfl⟩

theorem Sound.call (h : Sound s) (hgo : LetsGo s e) : Sound (s.call e).2 := by
  cases e with
  | setUrls inUrl outUrl w => exact h.setUrls ..
  | reset toNull => exact h.reset _
  | extractCoverArt tags => exact h.of_same rfl rfl rfl rfl
  | extractVideoFrame w => exact h.extractVideoFrame hgo
  | writeImage w => exact h.writeImage

theorem step_call (ht : machine.step s e = some t) : t = (s.call e).2 := by
  unfold machine at ht
  dsimp only at ht
  split_ifs at ht
  exact (Option.some.inj ht).symm

theorem Sound.step (h : Sound s) (hgo : LetsGo s e) (ht : machine.step s e = some t) : Sound t :=
  step_call ht ▸ h.call hgo

/-! ### A frame over a frame -/

theorem stores_caps {w : Playback} (h : w.stores = true) : ∃ sample width height,
    w.sample = some sample ∧ sample.caps = some (width,height) ∧ ¬ (width ≤ 0 ∨ height ≤ 0) := by
  unfold Playback.stores at h
  split at h
  · rename_i width height hcaps
    obtain ⟨sample,hsample,hc⟩ := Option.bind_eq_some_iff.mp hcaps
    simp only [decide_eq_true_eq] at h
    exact ⟨sample,width,height,hsample,hc,by omega⟩
  · cases h

/-- The old frame is destroyed after the new buffer was mapped, and unmaps that. -/
theorem map_resetStillFrame (frame : Option StillFrame) (hu : s.uses = some m) :
    (s.map.resetStillFrame frame).log = .unmapped s.next::s.map.log ∧
      (s.map.resetStillFrame frame).stillFrame = frame ∧
      (s.map.resetStillFrame frame).buffermap = none := by
  have huses : s.map.uses = some m := by
    unfold uses
    rwa [map_stillFrame]
  have hb : ({ s.map with stillFrame := frame } : ThumbnailExtractor).buffermap = some s.next :=
    map_buffermap
  rw [resetStillFrame_borrowed huses,unmap_some hb]
  exact ⟨rfl,rfl,rfl⟩

theorem storeFrame_unsafe {w : Playback} (hu : s.uses = some m) (buffer : Data)
    (width height : ℕ) : ¬ Safe (s.storeFrame buffer width height w) := by
  intro hsafe
  obtain ⟨hlog,hframe,hbuffermap⟩ := map_resetStillFrame
    (some (.borrowed s.next (framePixels buffer width height))) hu
  unfold storeFrame rotateFrame at hsafe
  dsimp only at hsafe
  split at hsafe
  · -- the frame that is left uses an unmapped buffer
    have hm := hsafe.frame s.next (by rw [uses,hframe]; rfl)
    rw [hlog] at hm
    exact hm.2 List.mem_cons_self
  · -- the rotation reads an unmapped buffer
    have hread : ¬ Justified Allowed (.accessed s.next::.unmapped s.next::s.map.log) :=
      fun h => h.1.2 List.mem_cons_self
    refine hread ?_
    have hj := hsafe.justified
    split at hj
    · rwa [resetStillFrame_borrowed (m:=s.next) (by rw [uses,access,note,hframe]; rfl),
        unmap_none (by exact hbuffermap),access,note,hlog] at hj
    · rwa [access,note,hlog] at hj

theorem extractVideoFrame_unsafe {w : Playback} (hu : s.uses = some m) (hw : w.stores = true) :
    ¬ Safe (s.extractVideoFrame w).2 := by
  obtain ⟨sample,width,height,hsample,hcaps,hpos⟩ := stores_caps hw
  unfold extractVideoFrame
  simp only [hsample,hcaps,if_neg hpos]
  have hsame : ThumbnailExtractor.uses { s.note (.sought (seekPoint s.duration)) with
      sample := some ⟨sample.buffer,none⟩ } = some m := hu
  exact storeFrame_unsafe hsame _ _ _

theorem step_unsafe (hgo : ¬ LetsGo s e) (ht : machine.step s e = some t) : ¬ Safe t := by
  rw [step_call ht]
  cases e with
  | extractVideoFrame w =>
    obtain ⟨hw,hu⟩ := Classical.not_imp.mp hgo
    obtain ⟨m,hm⟩ := Option.ne_none_iff_exists'.mp hu
    exact extractVideoFrame_unsafe hm hw
  | _ => exact absurd trivial hgo

/-- No buffer stays mapped behind the extractor. -/
def Released (log : List Effect) : Prop :=
  Justified Allowed log ∧ ∀ m, .mapped m ∈ log → .unmapped m ∈ log

theorem Sound.destruct {toNull : StateChange} (h : Sound s)
    (ht : s.destruct toNull = (.ok (),t)) : Released t.log := by
  have hr := h.reset toNull
  unfold ThumbnailExtractor.destruct at ht
  split at ht
  · cases ht
  · rename_i heq
    obtain ⟨-,rfl⟩ := Prod.mk.inj ht
    rw [heq] at hr
    refine ⟨hr.books.unmap.justified,fun m hm => ?_⟩
    by_contra hu
    have hheld := (hr.books.unmap.held m).mpr ⟨hm,hu⟩
    rw [unmap_buffermap] at hheld
    cases hheld

end

/-- In a run of any calls memory is read only while it is mapped, and the frame that is kept
stays readable, exactly if no video frame is extracted while the previous one still uses a
mapping; and then the extractor leaves nothing mapped. -/
theorem frames_mapped_iff (es : List Event) (hrun : (machine.run new es).isSome) :
    (machine.Always Safe new es ↔ machine.AllSteps LetsGo new es) ∧
    (machine.AllSteps LetsGo new es → ∀ s ∈ machine.run new es, ∀ toNull t,
      s.destruct toNull = (.ok (),t) → Released t.log) := by
  obtain ⟨u,hu⟩ := Option.isSome_iff_exists.mp hrun
  have hstep : ∀ s e t, Sound s → LetsGo s e → machine.step s e = some t → Sound t :=
    fun _ _ _ h hgo => h.step hgo
  refine ⟨Machine.always_iff_allSteps hstep (fun _ h => h.safe) (fun _ _ _ _ => step_unsafe) .new hu,
    fun hgo s hs toNull t ht => ?_⟩
  exact (Machine.guarded_run hstep .new hgo hs).destruct ht

/-- Two pixels, red and green. -/
def landscape : Playback := ⟨some ⟨[255,0,0,0,255,0,0,0],some (2,1)⟩,none,true⟩

/-- A second frame, without new URLs. -/
def twoFrames : List Event := [.extractVideoFrame landscape,.extractVideoFrame landscape]

theorem frames_mapped_iff_twoFrames :
    (machine.run new twoFrames).isSome = true ∧ ¬ machine.Always Safe new twoFrames := by
  have hgo : ¬ machine.AllSteps LetsGo new twoFrames := fun h =>
    Option.some_ne_none 0 ((h.2 _ rfl).1 rfl)
  exact ⟨rfl,fun h => hgo ((frames_mapped_iff twoFrames rfl).1.mp h)⟩

end ThumbnailExtractor
end UnityThumbnailer
