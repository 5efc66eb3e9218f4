import TapeMachine.Disk

-- What can be relied on where files are read and written by their paths, and that it holds of
-- disks.
namespace TapeMachine

namespace FileSystem

variable {State : Type} {system : FileSystem State} {state : State} {path : Path}

def Opens (system : FileSystem State) (state : State) (path : Path) : Prop :=
  ∃ bytes after, system.write state path bytes = (.ok (),after)

-- Under the path is a file, or room for one: what opens takes the whole of what is written and
-- holds it, and what does not open stays as it is.
inductive Takes (system : FileSystem State) (state : State) (path : Path) : Prop where
  | opens : (∀ bytes, ∃ after, system.write state path bytes = (.ok (),after) ∧
      system.read after path = .ok bytes) → Takes system state path
  | shut {cause : FileError} : (∀ bytes, system.write state path bytes = (.error cause,state)) →
      Takes system state path

theorem Takes.written_or (takes : system.Takes state path) (bytes : List UInt8) :
    (∃ after, system.Opens state path ∧ system.write state path bytes = (.ok (),after) ∧
      system.read after path = .ok bytes) ∨
    (∃ cause, ¬system.Opens state path ∧ system.write state path bytes = (.error cause,state)) := by
  cases takes with
  | opens written =>
    obtain ⟨after,wrote,holds⟩ := written bytes
    exact .inl ⟨after,⟨bytes,after,wrote⟩,wrote,holds⟩
  | @shut cause failed =>
    refine .inr ⟨cause,?_,failed bytes⟩
    rintro ⟨others,after,wrote⟩
    cases (failed others).symm.trans wrote

structure RefusesNul (system : FileSystem State) : Prop where
  read : ∀ state path, system.read state path = .error .nulCharacter ↔ '\x00' ∈ path.text.toList
  write : ∀ state path bytes, (system.write state path bytes).1 = .error .nulCharacter ↔
    '\x00' ∈ path.text.toList

end FileSystem

def Spot.name? : Spot → Option (List String)
  | file name _ => some name
  | vacant name => some name
  | directory => none
  | sink => none

namespace Disk

variable {disk : Disk} {path : Path} {name : List String} {spot : Spot}

theorem lookup_filter (keeps : List String → Bool) (name : List String)
    (files : List (List String × List UInt8)) : (files.filter (keeps ·.1)).lookup name =
      if keeps name then files.lookup name else none := by
  induction files with
  | nil => simp
  | cons file files ih =>
    obtain ⟨key,bytes⟩ := file
    rw [List.filter_cons,List.lookup_cons]
    by_cases here : name = key
    · subst here
      cases kept : keeps name <;> simp [ih,kept]
    · have passed : (name == key) = false := beq_eq_false_iff_ne.mpr here
      cases keeps key <;> simp [ih,passed,List.lookup_cons]

theorem lookup_put (disk : Disk) (name other : List String) (bytes : List UInt8) :
    (disk.put name bytes).files.lookup other =
      if other = name then some bytes else disk.files.lookup other := by
  have added : [(name,bytes)].lookup other = if other = name then some bytes else none := by
    by_cases same : other = name
    · simp [same]
    · simp [same,List.lookup_cons,beq_eq_false_iff_ne.mpr same]
  unfold put
  rw [List.lookup_append,added,lookup_filter (· ≠ name)]
  by_cases same : other = name <;> simp [same]

theorem lookup_put_self (disk : Disk) (name : List String) (bytes : List UInt8) :
    (disk.put name bytes).files.lookup name = some bytes := by
  simp [lookup_put]

theorem holdsDirectory_put (disk : Disk) (name other : List String) (bytes : List UInt8) :
    (disk.put name bytes).holdsDirectory other = disk.holdsDirectory other := rfl

theorem above_put {parts : List String} (leads : disk.above parts = .ok spot)
    (named : spot.name? = some name) (bytes : List UInt8) :
    (disk.put name bytes).above parts = .ok (.file name bytes) := by
  unfold above at leads ⊢
  cases up : parts.dropWhile (· = "..") with
  | nil =>
    rw [up] at leads
    cases leads
    cases named
  | cons part others =>
    simp only [up] at leads ⊢
    by_cases long : longestPart < byteCount part
    · simp [long] at leads
    · by_cases last : others = []
      · have same : parts = name := by
          cases found : disk.files.lookup parts <;>
            simp only [long,last,found,if_false,ne_eq,not_true_eq_false] at leads <;>
            cases leads <;> exact Option.some.inj named
        subst same
        simp [long,last,lookup_put_self]
      · simp [long,last] at leads

theorem follow_put {here parts : List String} (leads : disk.follow here parts = .ok spot)
    (named : spot.name? = some name) (bytes : List UInt8) :
    (disk.put name bytes).follow here parts = .ok (.file name bytes) := by
  fun_induction disk.follow here parts with
  | case1 =>
    cases leads
    cases named
  | case2 rest =>
    rw [follow]
    simpa using above_put leads named bytes
  | case3 here rest inside ih =>
    rw [follow]
    simpa [inside] using ih leads
  | case5 here part rest onward fits there holds ih =>
    rw [follow]
    simpa [onward,fits,holdsDirectory_put,there,holds] using ih leads
  | case6 here part onward fits there leaves | case8 here part onward fits there leaves =>
    cases leads
    have same : here ++ [part] = name := Option.some.inj named
    subst same
    rw [follow]
    have apart : disk.holdsDirectory (here ++ [part]) = false := Bool.eq_false_iff.mpr leaves
    simp [onward,fits,holdsDirectory_put,apart,lookup_put_self]
  | _ => cases leads

theorem followRoot_put {here parts : List String} (leads : disk.followRoot here parts = .ok spot)
    (named : spot.name? = some name) (bytes : List UInt8) :
    (disk.put name bytes).followRoot here parts = .ok (.file name bytes) := by
  fun_induction disk.followRoot here parts with
  | case1 | case5 =>
    cases leads
    cases named
  | case2 here rest ih =>
    rw [followRoot]
    simpa using ih leads
  | case4 here part rest onward fits there holds ih =>
    rw [followRoot]
    simpa [onward,fits,holdsDirectory_put,there,holds] using ih leads
  | case7 here part onward fits there leaves apart | case9 here part onward fits there leaves apart =>
    cases leads
    have same : "/" :: (here ++ [part]) = name := Option.some.inj named
    subst same
    have unheld : disk.holdsDirectory ("/" :: (here ++ [part])) = false := Bool.eq_false_iff.mpr leaves
    have unsunk : here ++ [part] ∉ sinks := apart
    rw [followRoot]
    simp [onward,fits,holdsDirectory_put,unheld,unsunk,lookup_put_self]
  | _ => cases leads

theorem find_put (leads : disk.find path = .ok spot) (named : spot.name? = some name)
    (bytes : List UInt8) : (disk.put name bytes).find path = .ok (.file name bytes) := by
  unfold find at leads ⊢
  by_cases nul : '\x00' ∈ path.text.toList
  · simp [nul] at leads
  · by_cases long : longestPath < byteCount path.text
    · simp [nul,long] at leads
    · simp only [nul,long,if_false] at leads ⊢
      by_cases relative : path.root = ""
      · simp only [relative,if_true] at leads ⊢
        exact follow_put leads named bytes
      · simp only [relative,if_false] at leads ⊢
        exact followRoot_put leads named bytes

theorem read_put (leads : disk.find path = .ok spot) (named : spot.name? = some name)
    (bytes : List UInt8) : (disk.put name bytes).read path = .ok bytes := by
  unfold read
  rw [find_put leads named]

theorem takes (kept : disk.find path ≠ .ok .sink) : system.Takes disk path := by
  cases leads : disk.find path with
  | error cause =>
    have failed (bytes : List UInt8) : disk.write path bytes = (.error cause,disk) := by
      simp only [write,leads]
    exact .shut failed
  | ok spot =>
    cases spot with
    | directory =>
      have failed (bytes : List UInt8) : disk.write path bytes = (.error .isDirectory,disk) := by
        simp only [write,leads]
      exact .shut failed
    | file name | vacant name =>
      refine .opens fun bytes => ⟨disk.put name bytes,?_,read_put leads rfl bytes⟩
      simp only [system,write,leads]
    | sink => exact absurd leads kept

theorem above_ne_nul (disk : Disk) (parts : List String) : disk.above parts ≠ .error .nulCharacter := by
  unfold above
  split
  · simp
  · split
    · simp
    · split
      · simp
      · split <;> simp

theorem follow_ne_nul (disk : Disk) (here parts : List String) :
    disk.follow here parts ≠ .error .nulCharacter := by
  fun_induction disk.follow here parts <;> simp_all [above_ne_nul]

theorem followRoot_ne_nul (disk : Disk) (here parts : List String) :
    disk.followRoot here parts ≠ .error .nulCharacter := by
  fun_induction disk.followRoot here parts <;> simp_all

theorem find_eq_nul_iff (disk : Disk) (path : Path) :
    disk.find path = .error .nulCharacter ↔ '\x00' ∈ path.text.toList := by
  unfold find
  split
  · simp [*]
  · split
    · simp [*]
    · split <;> simp [*,follow_ne_nul,followRoot_ne_nul]

theorem read_eq_nul_iff (disk : Disk) (path : Path) :
    disk.read path = .error .nulCharacter ↔ '\x00' ∈ path.text.toList := by
  rw [← find_eq_nul_iff disk]
  unfold read
  split <;> simp_all

theorem write_eq_nul_iff (disk : Disk) (path : Path) (bytes : List UInt8) :
    (disk.write path bytes).1 = .error .nulCharacter ↔ '\x00' ∈ path.text.toList := by
  rw [← find_eq_nul_iff disk]
  unfold write
  split <;> simp_all

theorem refusesNul : system.RefusesNul := ⟨read_eq_nul_iff,write_eq_nul_iff⟩

end Disk

end TapeMachine
