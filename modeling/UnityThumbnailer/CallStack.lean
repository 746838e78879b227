import Mathlib.Data.List.Chain
import UnityThumbnailer.Lifecycle

/-! The shapes of the call stack. Slots start on an empty stack, so `checkFinished()` with
its try block is always at the bottom, under the calls of the download that it starts. -/
namespace UnityThumbnailer
namespace Service

/-- Which call may stand directly above which. -/
def Above : Call → Call → Prop
  | .job y,.scheduled h _ | .downloadFinished y,.scheduled h _ | .startCreate y,.scheduled h _ =>
    y = h
  | .job _,.startCreate _ | .downloadFinished _,.startCreate _ | .startCreate _,.startCreate _ =>
    True
  | .begin _,.pushBack _ _ | .begin _,.begin _ | .begin _,.gotCredentials _ _
  | .begin _,.erasePending _ => True
  | .gotCredentials _ _,.gotCredentials _ _ | .gotCredentials _ _,.erasePending _ => True
  | _,_ => False

/-- The calls that take a download from its start to its end. -/
def Call.downloads : Call → Bool
  | .job _ | .downloadFinished _ | .startCreate _ => true
  | _ => false

theorem Above.begin_of_begin {h y : ℕ} {g : Call} (ha : Above (.begin h) g) :
    Above (.begin y) g := by
  cases g <;> exact ha

theorem Above.begin_of_gotCredentials {h y : ℕ} {c : Credentials} {g : Call}
    (ha : Above (.gotCredentials h c) g) : Above (.begin y) g := by
  cases g <;> trivial

theorem Above.downloadFinished_of_job {h : ℕ} {g : Call} (ha : Above (.job h) g) :
    Above (.downloadFinished h) g := by
  cases g <;> exact ha

theorem Above.startCreate_of_downloadFinished {h : ℕ} {g : Call}
    (ha : Above (.downloadFinished h) g) : Above (.startCreate h) g := by
  cases g <;> exact ha

theorem Above.below_download {f g : Call} (hf : f.downloads = true) (ha : Above f g) :
    g.downloads = true ∨ ∃ h c, g = .scheduled h c ∧ f.works = some h := by
  cases f with
  | job y | downloadFinished y | startCreate y =>
    cases g with
    | scheduled h c => exact Or.inr ⟨h,c,rfl,congrArg some ha⟩
    | startCreate z => exact Or.inl rfl
    | _ => exact ha.elim
  | _ => cases hf

theorem Above.not_scheduled {h : ℕ} {c : CancelFunc} {g : Call} :
    ¬ Above (.scheduled h c) g := by
  cases g <;> exact id

theorem Above.not_erasePending {peer : String} {g : Call} : ¬ Above (.erasePending peer) g := by
  cases g <;> exact id

/-- A call of a download neither begins a handler nor returns to `queueRequest()`. -/
theorem Call.downloads_pure {f : Call} (hf : f.downloads = true) :
    f.begins = none ∧ f.pushes = none := by
  cases f with
  | job | downloadFinished | startCreate => exact ⟨rfl,rfl⟩
  | _ => cases hf

theorem catcher_cons_of_downloads {g : Call} {rest : List Call} (hg : g.downloads = true) :
    catcher (g::rest) = catcher rest := by
  cases g with
  | job | downloadFinished | startCreate => rfl
  | _ => cases hg

def Stacked (calls : List Call) : Prop := calls.IsChain Above

namespace Stacked

variable {calls rest : List Call} {f g : Call}

theorem single (f : Call) : Stacked [f] := List.isChain_singleton f

theorem tail (h : Stacked (f::rest)) : Stacked rest := List.IsChain.tail h

theorem above (h : Stacked (f::g::rest)) : Above f g := (List.isChain_cons_cons.mp h).1

theorem cons (hr : Stacked rest) (h : ∀ g ∈ rest.head?, Above f g) : Stacked (f::rest) := by
  cases rest with
  | nil => exact single f
  | cons g rest => exact List.isChain_cons_cons.mpr ⟨h g rfl,hr⟩

theorem head_above (h : Stacked (f::rest)) : ∀ g ∈ rest.head?, Above f g := by
  intro g hg
  cases rest with
  | nil => simp at hg
  | cons a rest =>
    obtain rfl : a = g := by simpa using hg
    exact h.above

/-- The handlers that were chained begin in place of the call that finished their
predecessor. -/
theorem begins (hr : Stacked rest) (h : ∀ y, ∀ g ∈ rest.head?, Above (.begin y) g)
    (ys : List ℕ) : Stacked (ys.map Call.begin ++ rest) := by
  induction ys with
  | nil => exact hr
  | cons y ys ih =>
    refine ih.cons fun g hg => ?_
    cases ys with
    | nil => exact h y g hg
    | cons z zs =>
      obtain rfl : Call.begin z = g := by simpa using hg
      trivial

/-- Nothing is below the try block, and the call above it belongs to its handler. -/
theorem catcher_some {h : ℕ} {below : List Call} (hs : Stacked (f::rest))
    (hf : f.downloads = true) (hc : catcher rest = some (h,below)) :
    below = [] ∧ h ∈ (f::rest).filterMap Call.works ∧
      (f::rest).filterMap Call.begins = [] ∧ (f::rest).filterMap Call.pushes = [] := by
  have hpure := Call.downloads_pure hf
  induction rest generalizing f with
  | nil => simp [catcher] at hc
  | cons g rest ih =>
    rcases Above.below_download hf hs.above with hg | ⟨y,c,rfl,hw⟩
    · have hcg : catcher rest = some (h,below) := (catcher_cons_of_downloads hg).symm.trans hc
      obtain ⟨hb,hmem,hbegins,hpushes⟩ := ih hs.tail hg hcg (Call.downloads_pure hg)
      refine ⟨hb,?_,?_,?_⟩
      · cases hfw : f.works <;> simp [hfw,hmem]
      · simpa [hpure.1] using hbegins
      · simpa [hpure.2] using hpushes
    · obtain ⟨rfl,rfl⟩ : y = h ∧ rest = below := by simpa [catcher] using hc
      have hrest : rest = [] := by
        cases rest with
        | nil => rfl
        | cons a rest => exact absurd hs.tail.above Above.not_scheduled
      subst hrest
      have hbegins : (Call.scheduled y c).begins = none := rfl
      have hpushes : (Call.scheduled y c).pushes = none := rfl
      exact ⟨rfl,by simp [hw],by simp [hpure.1,hbegins],by simp [hpure.2,hpushes]⟩

theorem catcher_suffix {h : ℕ} {below : List Call} (hc : catcher rest = some (h,below)) :
    below <:+ rest := by
  induction rest with
  | nil => cases hc
  | cons g rest ih =>
    cases g with
    | scheduled y f =>
      obtain ⟨-,rfl⟩ : y = h ∧ rest = below := by simpa [catcher] using hc
      exact List.suffix_cons ..
    | _ => exact (ih hc).trans (List.suffix_cons ..)

/-- Below the callback of a query are only the rest of that query's callbacks. -/
theorem gotCredentials_pushes {h : ℕ} {c : Credentials}
    (hs : Stacked (.gotCredentials h c :: rest)) :
    (Call.gotCredentials h c :: rest).filterMap Call.pushes = [] := by
  induction rest generalizing h c with
  | nil => rfl
  | cons g rest ih =>
    cases g with
    | gotCredentials y d => exact ih hs.tail
    | erasePending peer =>
      cases rest with
      | nil => rfl
      | cons a rest => exact absurd hs.tail.above Above.not_erasePending
    | _ => exact hs.above.elim

end Stacked
end Service
end UnityThumbnailer
