import Mathlib.Logic.Function.Basic
import UnityThumbnailer.MachineInt

/-! Writing a file by way of a temporary one. The contents go to a new file in the directory of
the target, which then takes the name of the target. -/

/-- The files of a directory with their contents, by name. -/
abbrev Directory := String → Option (List UInt8)

namespace Directory

/-- Create a file, or give it other contents. -/
def store (d : Directory) (name : String) (contents : List UInt8) : Directory :=
  Function.update d name (some contents)

def unlink (d : Directory) (name : String) : Directory := Function.update d name none

/-- The file takes the other name, and replaces the file that has it. -/
def rename (d : Directory) (old new : String) : Directory :=
  Function.update (d.unlink old) new (d old)

section

variable {d : Directory} {name target : String} {contents other : List UInt8}

@[simp] theorem store_self : d.store name contents name = some contents :=
  Function.update_self ..

@[simp] theorem store_store : (d.store name contents).store name other = d.store name other :=
  Function.update_idem ..

/-- Unlinking a new file restores the directory. -/
theorem unlink_store (hnew : d name = none) : (d.store name contents).unlink name = d := by
  rw [unlink,store,Function.update_idem,← hnew,Function.update_eq_self]

/-- Renaming a new file stores its contents under the other name. -/
theorem rename_store (hnew : d name = none) :
    (d.store name contents).rename name target = d.store target contents := by
  rw [rename,unlink_store hnew,store_self]
  rfl

theorem store_ne (hnew : d name = none) : d.store name contents ≠ d := fun h => by
  have hsome := congrFun h name
  rw [store_self,hnew] at hsome
  cases hsome

end

end Directory

namespace UnityThumbnailer

namespace AtomicWrite

/-- The file to write: its name as it is passed, and where that is. -/
structure Target where
  filename : String
  directory : String
  name : String

/-- The name that `mkstemp()` makes of its template. -/
def tmpName (suffix : String) : String := "thumbnailer." ++ suffix

/-- One call transfers no more bytes than an `int` counts. -/
def maxTransfer : ℕ := 2147483647

/-- What the system calls return, or the text of their `errno`: `mkstemp()` finds a name that
is not in use, and `write()` may store less than it is given. -/
structure SystemCalls (d : Directory) (len : ℕ) where
  mkstemp : Except String { suffix : String // d (tmpName suffix) = none }
  write : Except String { stored : ℕ // stored ≤ len ∧ stored ≤ maxTransfer }
  rename : Except String Unit
  unlink : Except String Unit

variable {d : Directory}

/-- The value of `write()` as it is kept in an `int`. -/
def writeResult {len : ℕ} (calls : SystemCalls d len) : ℤ :=
  match calls.write with
  | .ok stored => MachineInt.narrow 32 stored
  | .error _ => -1

/-- The conversion to `size_t`. -/
def toSizeT (n : ℤ) : ℤ := n % 2^64

/-- What is in the temporary file after `write()`. -/
def stored {buf : List UInt8} (calls : SystemCalls d buf.length) : List UInt8 :=
  match calls.write with
  | .ok stored => buf.take stored
  | .error _ => []

/-- Rename the temporary file, or clean it up. -/
def moveIntoPlace {len : ℕ} (target : Target) (calls : SystemCalls d len) (tmp : String)
    (written : Directory) : Except String Unit × Directory :=
  match calls.rename with
  | .ok () => (.ok (),written.rename tmp target.name)
  | .error errno =>
    (.error ("write_file(): cannot rename " ++ target.directory ++ "/" ++ tmp ++ " to " ++
        target.filename ++ ": " ++ errno),
      match calls.unlink with
      | .ok () => written.unlink tmp
      | .error _ => written)

/-- What `write_file()` throws or returns, and the directory after it. -/
def writeFile (target : Target) (buf : List UInt8) (d : Directory)
    (calls : SystemCalls d buf.length) : Except String Unit × Directory :=
  match calls.mkstemp with
  | .error errno =>
    (.error ("write_file(): mkstemp() failed for " ++ target.directory ++
      "/thumbnailer.XXXXXX: " ++ errno),d)
  | .ok suffix =>
    let tmp := tmpName suffix
    let written := d.store tmp (stored calls)
    match calls.write with
    | .error errno =>
      (.error ("write_file(): cannot write to \"" ++ target.filename ++ "\": " ++ errno),written)
    | .ok _ =>
      if toSizeT (writeResult calls) ≠ buf.length then
        (.error ("write_file(): short write for \"" ++ target.filename ++ "\""),written)
      else moveIntoPlace target calls tmp written

/-- If it throws, the files are what they were; if it returns, the target holds exactly the
bytes, and the other files are what they were. -/
def Atomic (target : Target) (buf : List UInt8) (d : Directory)
    (calls : SystemCalls d buf.length) : Prop :=
  (∀ what, (writeFile target buf d calls).1 = .error what → (writeFile target buf d calls).2 = d) ∧
    ((writeFile target buf d calls).1 = .ok () →
      (writeFile target buf d calls).2 = d.store target.name buf)

/-- The call stores all bytes. -/
def StoresAll {len : ℕ} (calls : SystemCalls d len) : Prop :=
  ∃ n, calls.write = .ok n ∧ n.1 = len

section Cases

variable {target : Target} {buf : List UInt8} {calls : SystemCalls d buf.length}
  {suffix : { suffix : String // d (tmpName suffix) = none }}

/-- Neither conversion changes what `write()` returns. -/
theorem toSizeT_writeResult {n : { stored : ℕ // stored ≤ buf.length ∧ stored ≤ maxTransfer }}
    (h : calls.write = .ok n) : toSizeT (writeResult calls) = n.1 := by
  have hmax : n.1 ≤ 2147483647 := n.2.2
  have hfits : MachineInt.Fits 32 (n.1 : ℤ) := by
    have hlow : -(2^31 : ℤ) ≤ n.1 := by omega
    have hhigh : (n.1 : ℤ) < 2^31 := by omega
    exact ⟨hlow,hhigh⟩
  have hnarrow : MachineInt.narrow 32 (n.1 : ℤ) = n.1 :=
    (MachineInt.narrow_eq_self_iff (by decide)).mpr hfits
  rw [writeResult,h]
  simp only [hnarrow,toSizeT]
  exact Int.emod_eq_of_lt (by omega) (by omega)

theorem atomic_of_throw {what : String} (h : writeFile target buf d calls = (.error what,d)) :
    Atomic target buf d calls := by
  rw [Atomic,h]
  exact ⟨fun _ _ => rfl,fun hok => by cases hok⟩

theorem atomic_of_return (h : writeFile target buf d calls = (.ok (),d.store target.name buf)) :
    Atomic target buf d calls := by
  rw [Atomic,h]
  exact ⟨fun _ herror => (by cases herror),fun _ => rfl⟩

/-- A temporary file that is left behind. -/
theorem not_atomic_of_left {what : String} {contents : List UInt8}
    (h : writeFile target buf d calls = (.error what,d.store (tmpName suffix.1) contents)) :
    ¬ Atomic target buf d calls := by
  rw [Atomic,h]
  exact fun hatomic => Directory.store_ne suffix.2 (hatomic.1 what rfl)

/-- What happens once a temporary file is there and all bytes are in it. -/
theorem writeFile_stored (hm : calls.mkstemp = .ok suffix) (hall : StoresAll calls) :
    writeFile target buf d calls =
      moveIntoPlace target calls (tmpName suffix.1) (d.store (tmpName suffix.1) buf) := by
  obtain ⟨n,hw,hn⟩ := hall
  have hstored : stored calls = buf := by
    simp only [stored,hw,hn,List.take_length]
  simp only [writeFile,hm,hstored,hw,toSizeT_writeResult hw,hn,ne_eq,not_true_eq_false,if_false]

/-- A call that stores less throws, and leaves what it stored. -/
theorem writeFile_not_stored (hm : calls.mkstemp = .ok suffix) (hall : ¬ StoresAll calls) :
    ∃ what, writeFile target buf d calls =
      (.error what,d.store (tmpName suffix.1) (stored calls)) := by
  cases hw : calls.write with
  | error errno => exact ⟨_,by simp only [writeFile,hm,hw]; rfl⟩
  | ok n =>
    have hshort : ((n.1 : ℕ) : ℤ) ≠ buf.length := fun heq => hall ⟨n,hw,by exact_mod_cast heq⟩
    exact ⟨_,by simp only [writeFile,hm,hw,toSizeT_writeResult hw,if_pos hshort]; rfl⟩

theorem atomic_stored_iff (hm : calls.mkstemp = .ok suffix) (hall : StoresAll calls) :
    Atomic target buf d calls ↔ calls.rename = .ok () ∨ calls.unlink = .ok () := by
  have hmove := @writeFile_stored d target buf calls suffix hm hall
  unfold moveIntoPlace at hmove
  cases hr : calls.rename with
  | ok =>
    rw [hr,Directory.rename_store suffix.2] at hmove
    exact iff_of_true (atomic_of_return hmove) (Or.inl rfl)
  | error errno =>
    cases hu : calls.unlink with
    | ok =>
      simp only [hr,hu,Directory.unlink_store suffix.2] at hmove
      exact iff_of_true (atomic_of_throw hmove) (Or.inr rfl)
    | error errno' =>
      simp only [hr,hu] at hmove
      exact iff_of_false (not_atomic_of_left hmove) (by simp)

end Cases

/-- Writing a file is atomic exactly when there is no temporary file, or all bytes are stored in
it and the rename succeeds, or the cleanup after it. -/
theorem atomic_iff (target : Target) (buf : List UInt8) (d : Directory)
    (calls : SystemCalls d buf.length) : Atomic target buf d calls ↔
      (∃ errno, calls.mkstemp = .error errno) ∨
        StoresAll calls ∧ (calls.rename = .ok () ∨ calls.unlink = .ok ()) := by
  cases hm : calls.mkstemp with
  | error errno =>
    have hthrow : ∃ what, writeFile target buf d calls = (.error what,d) :=
      ⟨_,by simp only [writeFile,hm]; rfl⟩
    exact iff_of_true (atomic_of_throw hthrow.choose_spec) (Or.inl ⟨errno,rfl⟩)
  | ok suffix =>
    by_cases hall : StoresAll calls
    · rw [atomic_stored_iff hm hall]
      simp [hall]
    · obtain ⟨what,hleft⟩ := @writeFile_not_stored d target buf calls suffix hm hall
      exact iff_of_false (not_atomic_of_left hleft) (by simp [hall])

/-- A directory with an old cover. -/
def album : Directory := Directory.store (fun _ => none) "cover.jpg" [0xff]

def cover : Target := ⟨"album/cover.jpg","/music/album","cover.jpg"⟩

/-- The disk is full, and nothing else fails. -/
def diskFull : SystemCalls album [0xff,0xd8].length :=
  ⟨.ok ⟨"aX3k9Q",by decide⟩,.error "No space left on device",.ok (),.ok ()⟩

/-- The error of `write()` leaves the temporary file behind. -/
theorem diskFull_left : (writeFile cover [0xff,0xd8] album diskFull).1 =
      .error "write_file(): cannot write to \"album/cover.jpg\": No space left on device" ∧
    (writeFile cover [0xff,0xd8] album diskFull).2 "thumbnailer.aX3k9Q" = some [] ∧
      ¬ Atomic cover [0xff,0xd8] album diskFull :=
  ⟨by decide,by decide,fun h => absurd (h.1 _ rfl) (Directory.store_ne (by decide))⟩

end AtomicWrite
end UnityThumbnailer
