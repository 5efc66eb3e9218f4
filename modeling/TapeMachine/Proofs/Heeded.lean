import TapeMachine.Proofs.Configured
import TapeMachine.Proofs.Documents

-- Which keys of a document are heeded. Only those are checked that stand where the blocks do:
-- what goes by another name inside a block, or stands beside the wrapped settings, is passed
-- over without a word.
namespace TapeMachine.Settings

open Yaml (Value)

variable {entries : Entries} {settings : Settings}

def Only (names : List String) (entries : Entries) : Prop :=
  ∀ entry ∈ entries, ∃ name ∈ names, entry.1 = .text name

def blockNames : Value → Option (List String)
  | .text "interpreter" => some ["max_steps","capture_steps"]
  | .text "compiler" => some ["tape_size","print_buffer_size"]
  | _ => none

structure AllKnown (entries : Entries) : Prop where
  outside : Only ["interpreter","compiler","log_level"] entries
  inside : ∀ block inner names, (block,Value.map inner) ∈ entries → blockNames block = some names →
    Only names inner

def Documented (entries : Entries) : Prop :=
  AllKnown entries ∨ ∃ inner, entries = [(.text "turir",.map inner)] ∧ AllKnown inner

def kept (names : List String) (entries : Entries) : Entries :=
  entries.filter fun entry => names.any fun name => entry.1.isText name

def tidied (key value : Value) : Value :=
  match blockNames key,value with
  | some names,.map inner => .map (kept names inner)
  | _,value => value

def tidy (entries : Entries) : Entries := entries.map fun entry => (entry.1,tidied entry.1 entry.2)

-- The document without what stands beside its wrapped settings, and its blocks without what
-- may not be set there.
def heeded (entries : Entries) : Entries :=
  match Value.get? "turir" entries with
  | some (.map inner) => [(.text "turir",.map (tidy inner))]
  | _ => tidy entries

theorem kept_only (names : List String) (entries : Entries) : Only names (kept names entries) := by
  intro entry member
  simpa [isText_iff] using (List.mem_filter.mp member).2

theorem kept_eq_self_iff {names : List String} : kept names entries = entries ↔ Only names entries := by
  simp [kept,List.filter_eq_self,isText_iff,Only]

theorem get?_kept {names : List String} {name : String} (among : name ∈ names) :
    Value.get? name (kept names entries) = Value.get? name entries := by
  have alike : (fun entry : Value × Value => names.any (entry.1.isText ·) && entry.1.isText name) =
      fun entry => entry.1.isText name := by
    funext entry
    by_cases named : entry.1.isText name
    · simp only [named,Bool.and_true]
      exact List.any_eq_true.mpr ⟨name,among,named⟩
    · simp [named]
  unfold Value.get? kept
  simp only [List.find?_filter,Bool.decide_and,Bool.decide_eq_true,alike]

theorem get?_tidy (name : String) :
    Value.get? name (tidy entries) = (Value.get? name entries).map (tidied (.text name)) := by
  have keys : (fun entry : Value × Value => entry.1.isText name) ∘
      (fun entry : Value × Value => (entry.1,tidied entry.1 entry.2)) = fun entry => entry.1.isText name := rfl
  unfold Value.get? tidy
  rw [List.find?_map,keys]
  cases found : entries.find? fun entry => entry.1.isText name with
  | none => rfl
  | some entry =>
    have named : entry.1 = .text name :=
      (isText_iff name _).mp (List.find?_some (p := fun entry : Value × Value => entry.1.isText name) found)
    simp [named]

theorem only_tidy {names : List String} : Only names (tidy entries) ↔ Only names entries := by
  simp only [Only,tidy,List.forall_mem_map]

theorem tidied_eq_self_iff {key value : Value} : tidied key value = value ↔
    ∀ inner names, value = .map inner → blockNames key = some names → Only names inner := by
  unfold tidied
  split
  · rename_i names inner named
    simp [named,kept_eq_self_iff]
  · rename_i others
    simp only [true_iff]
    intro inner names same named
    exact (others names inner named same).elim

theorem tidy_eq_self_iff : tidy entries = entries ↔ ∀ block inner names,
    (block,Value.map inner) ∈ entries → blockNames block = some names → Only names inner := by
  have each : tidy entries = entries ↔ ∀ entry ∈ entries, tidied entry.1 entry.2 = entry.2 := by
    have mapped : tidy entries = entries ↔ tidy entries = entries.map id := by rw [List.map_id]
    rw [mapped,tidy,List.map_inj_left]
    simp [Prod.ext_iff]
  simp only [each,tidied_eq_self_iff]
  constructor
  · intro inside block inner names member
    exact inside _ member inner names rfl
  · rintro inside ⟨block,value⟩ member inner names rfl
    exact inside block inner names member

theorem tidied_tidied (key value : Value) : tidied key (tidied key value) = tidied key value := by
  rw [tidied_eq_self_iff]
  intro inner names same named
  unfold tidied at same
  split at same
  · rename_i names' inner' named'
    cases same
    cases named'.symm.trans named
    exact kept_only names inner'
  · rename_i others
    exact (others names inner named same).elim

theorem tidy_tidy (entries : Entries) : tidy (tidy entries) = tidy entries := by
  simp only [tidy,List.map_map,Function.comp_def,tidied_tidied]

theorem allKnown_iff : AllKnown entries ↔ Only knownKeys entries ∧ tidy entries = entries := by
  rw [tidy_eq_self_iff]
  exact ⟨fun known => ⟨known.outside,known.inside⟩,fun ⟨outside,inside⟩ => ⟨outside,inside⟩⟩

theorem allKnown_tidy : AllKnown (tidy entries) ↔ Only knownKeys entries := by
  rw [allKnown_iff,only_tidy,tidy_tidy,and_iff_left rfl]

theorem heeded_of_wrapped {inner : Entries} (wrapped : Value.get? "turir" entries = some (.map inner)) :
    heeded entries = [(.text "turir",.map (tidy inner))] := by
  rw [heeded,wrapped]

namespace Bare

theorem heeded (bare : Bare entries) : heeded entries = tidy entries := by
  unfold Settings.heeded
  split
  · rename_i inner wrapped
    exact (bare inner wrapped).elim
  · rfl

theorem tidy (bare : Bare entries) : Bare (tidy entries) := by
  have same : Value.get? "turir" (Settings.tidy entries) = Value.get? "turir" entries := by
    rw [get?_tidy]
    cases Value.get? "turir" entries <;> rfl
  intro inner
  rw [same]
  exact bare inner

theorem of_only (known : Only knownKeys entries) : Bare entries := by
  intro inner wrapped
  obtain ⟨entry,found,_⟩ := Option.map_eq_some_iff.mp wrapped
  obtain ⟨name,among,same⟩ := known entry (List.mem_of_find?_eq_some found)
  have named := List.find?_some found
  rw [isText_iff,same] at named
  cases named
  simp [knownKeys] at among

end Bare

theorem unwrapped_heeded (entries : Entries) :
    unwrapped (heeded entries) = tidy (unwrapped entries) := by
  rcases wrapped_or_bare entries with ⟨inner,wrapped⟩ | bare
  · rw [heeded_of_wrapped wrapped,unwrapped_of_wrapped wrapped,unwrapped_wrapped]
  · rw [bare.heeded,bare.unwrapped,bare.tidy.unwrapped]

theorem heeded_heeded (entries : Entries) : heeded (heeded entries) = heeded entries := by
  rcases wrapped_or_bare entries with ⟨inner,wrapped⟩ | bare
  · rw [heeded_of_wrapped wrapped,heeded_of_wrapped rfl,tidy_tidy]
  · rw [bare.heeded,bare.tidy.heeded,tidy_tidy]

theorem documented_iff_heeded :
    Documented entries ↔ Only knownKeys (unwrapped entries) ∧ heeded entries = entries := by
  constructor
  · rintro (known | ⟨inner,rfl,known⟩)
    · obtain ⟨outside,same⟩ := allKnown_iff.mp known
      have bare := Bare.of_only outside
      rw [bare.unwrapped,bare.heeded]
      exact ⟨outside,same⟩
    · obtain ⟨outside,same⟩ := allKnown_iff.mp known
      rw [heeded_of_wrapped rfl,same]
      exact ⟨outside,rfl⟩
  · rintro ⟨known,whole⟩
    rcases wrapped_or_bare entries with ⟨inner,wrapped⟩ | bare
    · rw [unwrapped_of_wrapped wrapped] at known
      rw [← whole,heeded_of_wrapped wrapped]
      exact .inr ⟨_,rfl,allKnown_tidy.mpr known⟩
    · rw [bare.unwrapped] at known
      rw [bare.heeded] at whole
      exact .inl (allKnown_iff.mpr ⟨known,whole⟩)

theorem documented_heeded : Documented (heeded entries) ↔ Only knownKeys (unwrapped entries) := by
  rw [documented_iff_heeded,unwrapped_heeded,only_tidy,heeded_heeded,and_iff_left rfl]

theorem checkKeys_tidy (entries : Entries) : checkKeys (tidy entries) = checkKeys entries := by
  have keys : (tidy entries).map (·.1) = entries.map (·.1) := by simp [tidy]
  unfold checkKeys
  rw [keys]

theorem block_tidy (name : String) {names : List String}
    (named : blockNames (.text name) = some names) (entries : Entries) :
    block name (tidy entries) = (block name entries).map (kept names) := by
  unfold block
  rw [get?_tidy]
  cases Value.get? name entries with
  | none => rfl
  | some found => cases found <;> simp [tidied,named,Except.map,kept]

theorem readLevel_tidy (entries : Entries) : readLevel (tidy entries) = readLevel entries := by
  unfold readLevel
  rw [get?_tidy]
  cases Value.get? "log_level" entries <;> rfl

theorem bind_map_eq {ε α β γ : Type} (first : Except ε α) (f : α → β) (later : β → Except ε γ) :
    first.map f >>= later = first >>= fun found => later (f found) := by
  cases first <;> rfl

theorem ofEntries_heeded (entries : Entries) : ofEntries (heeded entries) = ofEntries entries := by
  have interpreter := block_tidy "interpreter" rfl
  have compiler := block_tidy "compiler" rfl
  unfold ofEntries
  simp only [unwrapped_heeded,checkKeys_tidy,readLevel_tidy,interpreter,compiler,bind_map_eq]
  simp [readMaxSteps,readCaptureSteps,readTapeSize,readSize,get?_kept]

def Unknown (entries : Entries) (key : Value) : Prop :=
  key ∈ entries.map (·.1) ∧ ∀ name ∈ knownKeys, key ≠ .text name

-- What is said about unknown keys. All of them are named, unless they cannot be put in order or
-- one of them cannot be shown.
inductive Reported (entries : Entries) : SettingsError → Prop where
  | named {keys : List Value} (all : ∀ key, key ∈ keys ↔ Unknown entries key) :
      Reported entries (.unknownKeys keys)
  | unordered {keys : List Value} (all : ∀ key, key ∈ keys ↔ Unknown entries key)
      (mixed : ∃ a ∈ keys, ∃ b ∈ keys, a.kind ≠ b.kind) : Reported entries (.unorderedKeys keys)
  | unshown {key : Value} {reason : String} (unknown : Unknown entries key)
      (failed : key.unshown? = some reason) : Reported entries (.unshowable reason)

theorem mem_unknown_iff (entries : Entries) (key : Value) : key ∈ ((entries.map (·.1)).filter fun key =>
    knownKeys.all fun name => !key.isText name) ↔ Unknown entries key := by
  simp [Unknown,← isText_iff]

theorem reported_of_checkKeys {cause : SettingsError} (failed : checkKeys entries = .error cause) :
    Reported entries cause := by
  have all := mem_unknown_iff entries
  unfold checkKeys at failed
  generalize (entries.map (·.1)).filter _ = unknown at failed all
  cases unknown with
  | nil => cases failed
  | cons first others =>
    dsimp only at failed
    split at failed
    · cases failed
      exact .named fun key => by rw [List.mem_mergeSort,all]
    · rename_i mixed
      cases failed
      obtain ⟨other,member,apart⟩ : ∃ other ∈ others, other.kind ≠ first.kind := by simpa using mixed
      exact .unordered all ⟨other,List.mem_cons_of_mem _ member,first,List.mem_cons_self,apart⟩

theorem Reported.told {cause : SettingsError} (reported : Reported entries cause) :
    Reported entries cause.told := by
  cases reported with
  | named all =>
    rename_i keys
    unfold SettingsError.told SettingsError.shows
    split
    · rename_i reason found
      obtain ⟨key,member,failed⟩ := List.exists_of_findSome?_eq_some found
      exact .unshown ((all key).mp member) failed
    · exact .named all
  | unordered all mixed => exact .unordered all mixed
  | unshown unknown failed => exact .unshown unknown failed

theorem ofValue_unknown (unknown : ¬Only knownKeys (unwrapped entries)) :
    ∃ cause, ofValue (.map entries) = .error cause ∧ Reported (unwrapped entries) cause := by
  cases checked : checkKeys (unwrapped entries) with
  | ok => exact (unknown (checkKeys_eq_ok_iff.mp checked)).elim
  | error cause =>
    have failed : ofEntries entries = .error cause := by
      simp only [ofEntries,checked]
      rfl
    refine ⟨cause.told,?_,(reported_of_checkKeys checked).told⟩
    rw [ofValue,failed]
    rfl

structure HeedsKnownKeys (entries : Entries) : Prop where
  refused : ¬Only knownKeys (unwrapped entries) →
    ∃ cause, ofValue (.map entries) = .error cause ∧ Reported (unwrapped entries) cause
  ignored : ofValue (.map (heeded entries)) = ofValue (.map entries)
  accepted : ∀ settings, ofValue (.map entries) = .ok settings →
    Documented (heeded entries) ∧ (Documented entries ↔ heeded entries = entries)
  loaded : ∀ (reader : Yaml.Reader) name path bytes, reader bytes = .ok (.map entries) →
    load reader name path (.ok bytes) = (ofValue (.map entries)).mapError .settings

theorem heeds_known_keys (entries : Entries) : HeedsKnownKeys entries where
  refused := ofValue_unknown
  ignored := by rw [ofValue,ofValue,ofEntries_heeded]
  accepted := by
    intro settings taken
    rcases ofValue_eq_ok_iff.mp taken with ⟨⟨⟩,_⟩ | ⟨_,⟨⟩,acceptable,_⟩
    have known : Only knownKeys (unwrapped entries) := acceptable.keys
    rw [documented_heeded,documented_iff_heeded]
    exact ⟨known,and_iff_right known⟩
  loaded := fun _ name path _ => load_of_read name path

structure PassedOver (bytes : List UInt8) (entries : Entries) : Prop where
  read : Yaml.shallowReader bytes = .ok (.map entries)
  taken : load Yaml.shallowReader "turir.yaml" (.of "turir.yaml") (.ok bytes) = .ok {}
  undocumented : ¬Documented entries

theorem passedOver_of {bytes : List UInt8} (described : Yaml.describes bytes (.map entries) = true)
    (taken : ofValue (.map entries) = .ok {}) (undocumented : ¬Documented entries) :
    PassedOver bytes entries := by
  have read := Yaml.read_of_describes described
  refine ⟨read,?_,undocumented⟩
  rw [load_of_read _ _ read,taken]
  rfl

def misspelt : List UInt8 := Utf8.encode "interpreter: \x7bmax_step: 5\x7d\n".toList
def misspeltEntries : Entries := [(.text "interpreter",.map [(.text "max_step",.int 5)])]

def besideWrapped : List UInt8 := Utf8.encode "turir: \x7b\x7d\nlog_level: LOUD\n".toList
def besideEntries : Entries := [(.text "turir",.map []),(.text "log_level",.text "LOUD")]

theorem unknown_keys_pass :
    PassedOver misspelt misspeltEntries ∧ PassedOver besideWrapped besideEntries := by
  refine ⟨passedOver_of (by decide +kernel) rfl ?_,passedOver_of (by decide +kernel) rfl ?_⟩
  · rintro (known | ⟨inner,same,_⟩)
    · have only := known.inside (.text "interpreter") _ _ (List.mem_singleton_self _) rfl
      simp [Only] at only
    · simp [misspeltEntries] at same
  · rintro (known | ⟨inner,same,_⟩)
    · have outside := known.outside
      simp [Only,besideEntries] at outside
    · simp [besideEntries] at same

end TapeMachine.Settings
