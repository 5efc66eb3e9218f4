import TapeMachine.Proofs.LevelNames
import TapeMachine.Settings.Document

-- Which documents are settings, and which settings they are.
namespace TapeMachine.Settings

open Yaml (Value)

variable {entries : Entries} {settings : Settings}

def inside (name : String) (entries : Entries) : Entries :=
  match Value.get? name entries with
  | some (.map inner) => inner
  | _ => []

-- Mappings in which nothing stands that may not stand there. Truth values are no whole numbers.
structure Acceptable (entries : Entries) : Prop where
  keys : ∀ entry ∈ entries, ∃ name ∈ ["interpreter","compiler","log_level"], entry.1 = .text name
  blocks : ∀ name ∈ ["interpreter","compiler"], ∀ found, Value.get? name entries = some found →
    found = .null ∨ ∃ inner, found = .map inner
  maxSteps : ∀ found, Value.get? "max_steps" (inside "interpreter" entries) = some found →
    found = .null ∨ ∃ n, found = .int n ∧ 0 < n
  captureSteps : ∀ found, Value.get? "capture_steps" (inside "interpreter" entries) = some found →
    ∃ keep, found = .bool keep
  tapeSize : ∀ found, Value.get? "tape_size" (inside "compiler" entries) = some found →
    ∃ n, found = .int n ∧ 0 < n ∧ n ≤ 256
  printBufferSize : ∀ found, Value.get? "print_buffer_size" (inside "compiler" entries) = some found →
    ∃ n, found = .int n ∧ 0 < n
  logLevel : ∀ found, Value.get? "log_level" entries = some found →
    ∃ name ∈ levelNames, found.Names name

structure Describes (entries : Entries) (settings : Settings) : Prop where
  maxSteps : settings.maxSteps = (Value.get? "max_steps" (inside "interpreter" entries)).getD .null
  captureSteps : settings.captureSteps =
    (Value.get? "capture_steps" (inside "interpreter" entries)).getD (.bool true)
  tapeSize : settings.tapeSize = (Value.get? "tape_size" (inside "compiler" entries)).getD (.int 256)
  printBufferSize : settings.printBufferSize =
    (Value.get? "print_buffer_size" (inside "compiler" entries)).getD (.int 256)
  logLevel : Value.get? "log_level" entries = none ∧ settings.logLevel = .text "WARNING" ∨
    ∃ found, Value.get? "log_level" entries = some found ∧
      ∃ name ∈ levelNames, found.Names name ∧ settings.logLevel = .text name

structure Sound (settings : Settings) : Prop where
  maxSteps : settings.maxSteps = .null ∨ ∃ n, settings.maxSteps = .int n ∧ 0 < n
  captureSteps : ∃ keep, settings.captureSteps = .bool keep
  tapeSize : ∃ n, settings.tapeSize = .int n ∧ 1 ≤ n ∧ n ≤ 256
  printBufferSize : ∃ n, settings.printBufferSize = .int n ∧ 0 < n
  logLevel : ∃ level : Log.Level, level.name ∈ levelNames ∧ settings.logLevel = .text level.name ∧
    settings.leastSeverity = .ok level.severity

def Bare (entries : Entries) : Prop := ∀ inner, Value.get? "turir" entries ≠ some (.map inner)

theorem wrapped_or_bare (entries : Entries) :
    (∃ inner, Value.get? "turir" entries = some (.map inner)) ∨ Bare entries := by
  by_cases wrapped : ∃ inner, Value.get? "turir" entries = some (.map inner)
  · exact .inl wrapped
  · exact .inr (not_exists.mp wrapped)

theorem unwrapped_of_wrapped {inner : Entries} (wrapped : Value.get? "turir" entries = some (.map inner)) :
    unwrapped entries = inner := by
  rw [unwrapped,wrapped]

theorem Bare.unwrapped (bare : Bare entries) : unwrapped entries = entries := by
  unfold Settings.unwrapped
  split
  · rename_i inner wrapped
    exact (bare inner wrapped).elim
  · rfl

-- The mapping that the settings stand in, which may be wrapped in another one.
inductive Holds (entries : Entries) : Entries → Prop where
  | wrapped {inner : Entries} : Value.get? "turir" entries = some (.map inner) → Holds entries inner
  | bare : Bare entries → Holds entries entries

theorem holds_iff {inner : Entries} : Holds entries inner ↔ unwrapped entries = inner := by
  constructor
  · rintro (wrapped | bare)
    · exact unwrapped_of_wrapped wrapped
    · exact bare.unwrapped
  · rintro rfl
    rcases wrapped_or_bare entries with ⟨inner,wrapped⟩ | bare
    · rw [unwrapped_of_wrapped wrapped]
      exact .wrapped wrapped
    · rw [bare.unwrapped]
      exact .bare bare

theorem bind_eq_ok_iff {ε α β : Type} {first : Except ε α} {later : α → Except ε β} {result : β} :
    (first >>= later) = .ok result ↔ ∃ found, first = .ok found ∧ later found = .ok result := by
  cases first <;> simp [bind,Except.bind]

theorem isText_iff (name : String) (key : Value) : key.isText name = true ↔ key = .text name := by
  cases key <;> simp [Value.isText]

theorem get?_cons (name : String) (key value : Value) (entries : Entries) :
    Value.get? name ((key,value) :: entries) =
      if key.isText name then some value else Value.get? name entries := by
  by_cases named : key.isText name <;> simp [Value.get?,named]

-- No key of a mapping occurs twice.
theorem get?_eq_some_iff (distinct : (entries.map (·.1)).Nodup) {name : String} {found : Value} :
    Value.get? name entries = some found ↔ (.text name,found) ∈ entries := by
  induction entries with
  | nil => simp [Value.get?]
  | cons entry entries ih =>
    obtain ⟨key,value⟩ := entry
    rw [List.map_cons,List.nodup_cons] at distinct
    obtain ⟨fresh,others⟩ := distinct
    rw [List.mem_cons,← ih others,get?_cons]
    by_cases named : key = .text name
    · subst named
      have absent : Value.get? name entries ≠ some found := by
        intro given
        exact fresh (List.mem_map.mpr ⟨_,(ih others).mp given,rfl⟩)
      simp [absent,Value.isText,eq_comm]
    · have unnamed : ¬key.isText name := fun same => named ((isText_iff name key).mp same)
      simp [unnamed,Ne.symm named]

theorem checkKeys_eq_ok_iff {checked : Unit} : checkKeys entries = .ok checked ↔
    ∀ entry ∈ entries, ∃ name ∈ knownKeys, entry.1 = .text name := by
  have known : (entries.map (·.1)).filter (fun key => knownKeys.all fun name => !key.isText name) = [] ↔
      ∀ entry ∈ entries, ∃ name ∈ knownKeys, entry.1 = .text name := by
    simp only [List.filter_eq_nil_iff,List.forall_mem_map,List.all_eq_true,Bool.not_eq_true',
      ← isText_iff]
    simp
  rw [← known]
  unfold checkKeys
  generalize (entries.map (·.1)).filter _ = unknown
  cases unknown with
  | nil => simp
  | cons first others => by_cases ordered : others.all (·.kind = first.kind) <;> simp [ordered]

theorem block_eq_ok_iff {name : String} {inner : Entries} : block name entries = .ok inner ↔
    (∀ found, Value.get? name entries = some found → found = .null ∨ ∃ inner, found = .map inner) ∧
      inside name entries = inner := by
  unfold block inside
  cases present : Value.get? name entries with
  | none => simp
  | some found => cases found <;> simp

theorem positive_eq_ok_iff {name : String} {found : Value} {n : Int} :
    positive name found = .ok n ↔ found = .int n ∧ 0 < n := by
  cases found with
  | int m =>
    by_cases above : 0 < m
    · simp only [positive,above,if_true,Except.ok.injEq,Value.int.injEq]
      constructor
      · rintro rfl
        exact ⟨rfl,above⟩
      · exact And.left
    · simp only [positive,above,if_false,reduceCtorEq,Value.int.injEq,false_iff]
      rintro ⟨rfl,positive⟩
      exact above positive
  | _ => simp [positive]

theorem readMaxSteps_eq_ok_iff {most : Option Int} : readMaxSteps entries = .ok most ↔
    (∀ found, Value.get? "max_steps" entries = some found →
      found = .null ∨ ∃ n, found = .int n ∧ 0 < n) ∧
      (Value.get? "max_steps" entries).getD .null = (most.map .int).getD .null := by
  unfold readMaxSteps
  cases present : Value.get? "max_steps" entries with
  | none => cases most <;> simp
  | some found =>
    cases found with
    | null => cases most <;> simp
    | int n =>
      by_cases above : 0 < n
      · cases most <;> simp [positive,above,Except.map]
      · simp [positive,above,Except.map]
    | _ => simp [positive,Except.map]

theorem readCaptureSteps_eq_ok_iff {keep : Bool} : readCaptureSteps entries = .ok keep ↔
    (∀ found, Value.get? "capture_steps" entries = some found → ∃ keep, found = .bool keep) ∧
      (Value.get? "capture_steps" entries).getD (.bool true) = .bool keep := by
  unfold readCaptureSteps
  cases present : Value.get? "capture_steps" entries with
  | none => simp
  | some found => cases found <;> simp

theorem readSize_eq_ok_iff {name : String} {n : Int} : readSize name entries = .ok n ↔
    (∀ found, Value.get? name entries = some found → ∃ n, found = .int n ∧ 0 < n) ∧
      (Value.get? name entries).getD (.int 256) = .int n := by
  unfold readSize
  cases present : Value.get? name entries with
  | none => simp [usualSize]
  | some found =>
    simp only [positive_eq_ok_iff,Option.some.injEq,forall_eq',Option.getD_some]
    constructor
    · rintro ⟨rfl,above⟩
      exact ⟨⟨n,rfl,above⟩,rfl⟩
    · rintro ⟨⟨m,rfl,above⟩,same⟩
      cases same
      exact ⟨rfl,above⟩

theorem readTapeSize_eq_ok_iff {n : Int} : readTapeSize entries = .ok n ↔
    (∀ found, Value.get? "tape_size" entries = some found → ∃ n, found = .int n ∧ 0 < n ∧ n ≤ 256) ∧
      (Value.get? "tape_size" entries).getD (.int 256) = .int n := by
  have fits : readTapeSize entries = .ok n ↔ readSize "tape_size" entries = .ok n ∧ n ≤ 256 := by
    unfold readTapeSize
    rw [bind_eq_ok_iff]
    constructor
    · rintro ⟨size,read,kept⟩
      by_cases large : greatestTapeSize < size
      · simp [large] at kept
      · simp only [large,if_false] at kept
        cases kept
        exact ⟨read,Int.not_lt.mp large⟩
    · rintro ⟨read,small⟩
      have fits : ¬greatestTapeSize < n := Int.not_lt.mpr small
      exact ⟨n,read,by simp only [fits,if_false]; rfl⟩
  rw [fits,readSize_eq_ok_iff]
  cases Value.get? "tape_size" entries with
  | none =>
    simp only [reduceCtorEq,false_implies,implies_true,true_and,Option.getD_none,Value.int.injEq]
    constructor
    · exact And.left
    · rintro rfl
      exact ⟨rfl,Int.le_refl 256⟩
  | some found =>
    simp only [Option.some.injEq,forall_eq',Option.getD_some]
    constructor
    · rintro ⟨⟨⟨m,rfl,above⟩,same⟩,small⟩
      cases same
      exact ⟨⟨n,rfl,above,small⟩,rfl⟩
    · rintro ⟨⟨m,rfl,above,small⟩,same⟩
      cases same
      exact ⟨⟨⟨n,rfl,above⟩,rfl⟩,small⟩

theorem readLevel_eq_ok_iff {level : Log.Level} : readLevel entries = .ok level ↔
    Value.get? "log_level" entries = none ∧ level = .warning ∨
      ∃ found, Value.get? "log_level" entries = some found ∧ found.Names level.name := by
  unfold readLevel
  cases present : Value.get? "log_level" entries with
  | none => simp [usualLevel,eq_comm]
  | some found =>
    simp only [reduceCtorEq,false_and,false_or,Option.some.injEq,exists_eq_left',
      ← Value.spells_plain_iff,← Log.Level.inAnyCase?_eq_some_iff]
    cases Log.Level.inAnyCase? found.plain <;> simp

theorem Describes.sound (describes : Describes entries settings) (acceptable : Acceptable entries) :
    Sound settings where
  maxSteps := by
    rw [describes.maxSteps]
    cases present : Value.get? "max_steps" (inside "interpreter" entries) with
    | none => exact .inl rfl
    | some found => exact acceptable.maxSteps found present
  captureSteps := by
    rw [describes.captureSteps]
    cases present : Value.get? "capture_steps" (inside "interpreter" entries) with
    | none => exact ⟨true,rfl⟩
    | some found => exact acceptable.captureSteps found present
  tapeSize := by
    rw [describes.tapeSize]
    cases present : Value.get? "tape_size" (inside "compiler" entries) with
    | none => exact ⟨256,rfl,by omega,by omega⟩
    | some found => exact acceptable.tapeSize found present
  printBufferSize := by
    rw [describes.printBufferSize]
    cases present : Value.get? "print_buffer_size" (inside "compiler" entries) with
    | none => exact ⟨256,rfl,by omega⟩
    | some found => exact acceptable.printBufferSize found present
  logLevel := by
    obtain ⟨level,named⟩ : ∃ level : Log.Level, settings.logLevel = .text level.name := by
      rcases describes.logLevel with ⟨_,usual⟩ | ⟨_,_,_,among,_,named⟩
      · exact ⟨.warning,usual⟩
      · obtain ⟨level,rfl⟩ := Log.Level.mem_levelNames_iff.mp among
        exact ⟨level,named⟩
    refine ⟨level,level.name_mem,named,?_⟩
    rw [leastSeverity,named]
    simp only [Log.severity?_name]

theorem Acceptable.describes (acceptable : Acceptable entries) : ∃ settings, Describes entries settings := by
  cases present : Value.get? "log_level" entries with
  | none => exact ⟨⟨_,_,_,_,_⟩,rfl,rfl,rfl,rfl,.inl ⟨present,rfl⟩⟩
  | some found =>
    obtain ⟨name,among,names⟩ := acceptable.logLevel found present
    exact ⟨⟨_,_,_,_,_⟩,rfl,rfl,rfl,rfl,.inr ⟨found,present,name,among,names,rfl⟩⟩

theorem ofEntries_eq_ok_iff : ofEntries entries = .ok settings ↔
    Acceptable (unwrapped entries) ∧ Describes (unwrapped entries) settings := by
  simp only [ofEntries,bind_eq_ok_iff,checkKeys_eq_ok_iff,block_eq_ok_iff,readMaxSteps_eq_ok_iff,
    readCaptureSteps_eq_ok_iff,readTapeSize_eq_ok_iff,readSize_eq_ok_iff,readLevel_eq_ok_iff]
  generalize unwrapped entries = entries
  constructor
  · rintro ⟨_,keys,_,⟨interpreter,rfl⟩,most,⟨maxSteps,given⟩,keep,⟨captureSteps,kept⟩,
      _,⟨compiler,rfl⟩,size,⟨tapeSize,sized⟩,length,⟨printBufferSize,long⟩,level,named,⟨⟩⟩
    refine ⟨⟨keys,?_,maxSteps,captureSteps,tapeSize,printBufferSize,?_⟩,
      ⟨given.symm,kept.symm,sized.symm,long.symm,?_⟩⟩
    · simp only [List.forall_mem_cons]
      exact ⟨interpreter,compiler,by simp⟩
    · intro found present
      rcases named with ⟨absent,_⟩ | ⟨_,present',names⟩
      · cases absent.symm.trans present
      · cases present'.symm.trans present
        exact ⟨level.name,level.name_mem,names⟩
    · rcases named with ⟨absent,rfl⟩ | ⟨found,present,names⟩
      · exact .inl ⟨absent,rfl⟩
      · exact .inr ⟨found,present,level.name,level.name_mem,names,rfl⟩
  · rintro ⟨acceptable,describes⟩
    have sound := describes.sound acceptable
    obtain ⟨most,given⟩ : ∃ most : Option Int, settings.maxSteps = (most.map .int).getD .null := by
      rcases sound.maxSteps with unset | ⟨n,set,_⟩
      · exact ⟨none,unset⟩
      · exact ⟨some n,set⟩
    obtain ⟨keep,kept⟩ := sound.captureSteps
    obtain ⟨size,sized,_⟩ := sound.tapeSize
    obtain ⟨length,long,_⟩ := sound.printBufferSize
    obtain ⟨level,named,which⟩ : ∃ level : Log.Level, settings.logLevel = .text level.name ∧
        (Value.get? "log_level" entries = none ∧ level = .warning ∨
          ∃ found, Value.get? "log_level" entries = some found ∧ found.Names level.name) := by
      rcases describes.logLevel with ⟨absent,usual⟩ | ⟨found,present,_,among,names,named⟩
      · exact ⟨.warning,usual,.inl ⟨absent,rfl⟩⟩
      · obtain ⟨level,rfl⟩ := Log.Level.mem_levelNames_iff.mp among
        exact ⟨level,named,.inr ⟨found,present,names⟩⟩
    refine ⟨(),acceptable.keys,_,⟨acceptable.blocks _ (by simp),rfl⟩,most,
      ⟨acceptable.maxSteps,describes.maxSteps.symm.trans given⟩,
      keep,⟨acceptable.captureSteps,describes.captureSteps.symm.trans kept⟩,
      _,⟨acceptable.blocks _ (by simp),rfl⟩,
      size,⟨acceptable.tapeSize,describes.tapeSize.symm.trans sized⟩,
      length,⟨acceptable.printBufferSize,describes.printBufferSize.symm.trans long⟩,level,which,?_⟩
    rw [← given,← kept,← sized,← long,← named]
    rfl

theorem describes_nil_iff : Describes [] settings ↔ settings = {} := by
  constructor
  · intro describes
    obtain ⟨maxSteps,captureSteps,tapeSize,printBufferSize,logLevel⟩ := settings
    obtain ⟨rfl,rfl,rfl,rfl,named⟩ := describes
    rcases named with ⟨_,rfl⟩ | ⟨_,present,_⟩
    · rfl
    · cases present
  · rintro rfl
    exact ⟨rfl,rfl,rfl,rfl,.inl ⟨rfl,rfl⟩⟩

theorem ofValue_eq_ok_iff {value : Value} : ofValue value = .ok settings ↔
    value = .null ∧ Describes [] settings ∨ ∃ entries, value = .map entries ∧
      Acceptable (unwrapped entries) ∧ Describes (unwrapped entries) settings := by
  cases value with
  | null => simp [ofValue,describes_nil_iff,eq_comm]
  | map entries =>
    simp only [ofValue,reduceCtorEq,false_and,false_or,Value.map.injEq,exists_eq_left',
      ← ofEntries_eq_ok_iff]
    cases ofEntries entries with
    | error cause => constructor <;> rintro ⟨⟩
    | ok found => rfl
  | _ => simp [ofValue]

theorem unwrapped_wrapped (entries : Entries) :
    unwrapped [(.text "turir",.map entries)] = entries := rfl

theorem bare_of_none (none : Value.get? "turir" entries = none) : Bare entries := by
  intro inner wrapped
  cases none.symm.trans wrapped

theorem ofValue_wrapped (bare : Bare entries) :
    ofValue (.map [(.text "turir",.map entries)]) = ofValue (.map entries) := by
  simp only [ofValue,ofEntries,unwrapped_wrapped,bare.unwrapped]

theorem sound_of_ofValue {value : Value} (taken : ofValue value = .ok settings) : Sound settings := by
  rcases ofValue_eq_ok_iff.mp taken with ⟨rfl,describes⟩ | ⟨entries,rfl,acceptable,describes⟩
  · cases describes_nil_iff.mp describes
    exact ⟨.inl rfl,⟨true,rfl⟩,⟨256,rfl,by omega,by omega⟩,⟨256,rfl,by omega⟩,
      ⟨.warning,Log.Level.warning.name_mem,rfl,rfl⟩⟩
  · exact describes.sound acceptable

section

variable {reader : Yaml.Reader} {bytes : List UInt8}

theorem load_of_read (name : String) (path : Path) {value : Value} (read : reader bytes = .ok value) :
    load reader name path (.ok bytes) = (ofValue value).mapError .settings := by
  unfold load
  simp only [read]

theorem read_of_load {name : String} {path : Path} {content : Except FileError (List UInt8)}
    (loaded : load reader name path content = .ok settings) : ∃ bytes value,
      content = .ok bytes ∧ reader bytes = .ok value ∧ ofValue value = .ok settings := by
  unfold load at loaded
  split at loaded
  · cases loaded
  · rename_i bytes
    split at loaded
    · cases loaded
    · cases loaded
    · rename_i value holds
      cases judged : ofValue value with
      | error cause =>
        rw [judged] at loaded
        cases loaded
      | ok found =>
        rw [judged] at loaded
        cases loaded
        exact ⟨bytes,value,rfl,holds,judged⟩

end

structure Configures (value : Value) : Prop where
  exact : ∀ settings, ofValue value = .ok settings ↔ value = .null ∧ Describes [] settings ∨
    ∃ entries inner, value = .map entries ∧ Holds entries inner ∧ Acceptable inner ∧
      Describes inner settings
  sound : ∀ settings, ofValue value = .ok settings → Sound settings
  accepted : ∀ entries inner, value = .map entries → Holds entries inner → Acceptable inner →
    ∃ settings, ofValue value = .ok settings
  bare : ∀ entries, value = .map entries → Value.get? "turir" entries = none →
    Holds entries entries ∧ ofValue (.map [(.text "turir",value)]) = ofValue value
  given : ∀ entries : Entries, (entries.map (·.1)).Nodup → ∀ name found,
    Value.get? name entries = some found ↔ (.text name,found) ∈ entries
  loaded : ∀ (reader : Yaml.Reader) name path bytes, reader bytes = .ok value →
    load reader name path (.ok bytes) = (ofValue value).mapError .settings

theorem configures (value : Value) : Configures value where
  exact := by
    intro settings
    simp only [ofValue_eq_ok_iff,holds_iff,exists_and_left,exists_eq_left']
  sound := fun _ => sound_of_ofValue
  accepted := by
    rintro entries inner rfl holds acceptable
    cases holds_iff.mp holds
    obtain ⟨settings,describes⟩ := acceptable.describes
    exact ⟨settings,ofValue_eq_ok_iff.mpr (.inr ⟨entries,rfl,acceptable,describes⟩)⟩
  bare := by
    rintro entries rfl none
    have bare := bare_of_none none
    exact ⟨.bare bare,ofValue_wrapped bare⟩
  given := fun _ distinct _ _ => get?_eq_some_iff distinct
  loaded := fun _ name path _ => load_of_read name path

example : ofValue (.map [(.text "compiler",.map [(.text "tape_size",.bool true)])]) =
    .error (.notPositive "compiler.tape_size" (.bool true)) := rfl

end TapeMachine.Settings
