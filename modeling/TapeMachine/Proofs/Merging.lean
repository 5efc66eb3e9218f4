import TapeMachine.Settings

-- Values laid over settings by their fields' names, one layer over another. Of every field the
-- last value counts that is one.
namespace TapeMachine

open Yaml (Value)

theorem Field.named?_eq_some_iff {name : String} {field : Field} :
    Field.named? name = some field ↔ name = field.name := by
  constructor
  · intro found
    have same := List.find?_some found
    exact (of_decide_eq_true same).symm
  · rintro rfl
    cases field <;> rfl

theorem Field.named?_eq_none_iff {name : String} :
    Field.named? name = none ↔ ∀ field : Field, name ≠ field.name := by
  rw [Option.eq_none_iff_forall_ne_some]
  exact forall_congr' fun field => not_congr named?_eq_some_iff

namespace Settings

variable {settings other base : Settings} {field : Field} {value : Value}

theorem get_put (settings : Settings) (value : Value) (field other : Field) :
    (settings.put value field).get other = if other = field then value else settings.get other := by
  cases field <;> cases other <;> rfl

theorem ext_get (same : ∀ field, settings.get field = other.get field) : settings = other := by
  obtain ⟨_,_,_,_,_⟩ := settings
  obtain ⟨_,_,_,_,_⟩ := other
  cases same .maxSteps
  cases same .captureSteps
  cases same .tapeSize
  cases same .printBufferSize
  cases same .logLevel
  rfl

theorem get_putAll (values : List (Field × Value)) (settings : Settings) (field : Field) :
    (settings.putAll values).get field = (values.reverse.lookup field).getD (settings.get field) := by
  induction values generalizing settings with
  | nil => rfl
  | cons entry values ih =>
    obtain ⟨first,value⟩ := entry
    have put : settings.putAll ((first,value) :: values) = (settings.put value first).putAll values := rfl
    rw [put,ih,get_put,List.reverse_cons,List.lookup_append]
    cases values.reverse.lookup field with
    | some value => rfl
    | none =>
      by_cases same : field = first
      · simp [same]
      · have apart : (field == first) = false := beq_false_of_ne same
        simp [List.lookup_cons,same,apart]

def under (value? : String → Option Value) (base : Settings) : Settings :=
  let chosen (field : Field) := (value? field.name).getD (base.get field)
  ⟨chosen .maxSteps,chosen .captureSteps,chosen .tapeSize,chosen .printBufferSize,chosen .logLevel⟩

theorem get_under (value? : String → Option Value) (base : Settings) (field : Field) :
    (base.under value?).get field = (value? field.name).getD (base.get field) := by
  cases field <;> rfl

def fieldsNamed (values : List (String × Value)) : List (Field × Value) :=
  values.filterMap fun entry => (Field.named? entry.1).map (·,entry.2)

theorem lookup_fieldsNamed (values : List (String × Value)) (field : Field) :
    (fieldsNamed values).lookup field = values.lookup field.name := by
  induction values with
  | nil => rfl
  | cons entry values ih =>
    obtain ⟨name,value⟩ := entry
    unfold fieldsNamed at ih ⊢
    rw [List.lookup_cons]
    cases named : Field.named? name with
    | none =>
      have apart : (field.name == name) = false :=
        beq_false_of_ne (Field.named?_eq_none_iff.mp named field).symm
      simp [named,ih,apart]
    | some found =>
      obtain rfl := Field.named?_eq_some_iff.mp named
      have alike : (field == found) = (field.name == found.name) := by
        cases field <;> cases found <;> rfl
      simp [named,ih,List.lookup_cons,alike]

def unknown? (values : List (String × Value)) : Option String :=
  (values.map (·.1)).find? fun name => (Field.named? name).isNone

theorem resolve_eq (values : List (String × Value)) : resolve values =
    match unknown? values with
    | some name => .error ⟨name⟩
    | none => .ok (fieldsNamed values) := by
  induction values with
  | nil => rfl
  | cons entry values ih =>
    obtain ⟨name,value⟩ := entry
    unfold resolve
    cases named : Field.named? name with
    | none => simp [unknown?,named]
    | some field =>
      have rest : unknown? ((name,value) :: values) = unknown? values := by simp [unknown?,named]
      have fields : fieldsNamed ((name,value) :: values) = (field,value) :: fieldsNamed values := by
        simp [fieldsNamed,named]
      rw [rest,fields]
      simp only [ih]
      cases unknown? values <;> rfl

-- All that merging comes down to: the first name that means nothing, or the last value for
-- each name.
theorem putAll_resolved (values : List (String × Value)) (base : Settings) :
    (resolve values).map (base.putAll ·) =
      match unknown? values with
      | some name => .error ⟨name⟩
      | none => .ok (base.under (values.reverse.lookup ·)) := by
  rw [resolve_eq]
  cases unknown? values with
  | some name => rfl
  | none =>
    refine congrArg Except.ok (ext_get fun field => ?_)
    have reversed : (fieldsNamed values).reverse = fieldsNamed values.reverse := by
      simp [fieldsNamed,List.filterMap_reverse]
    rw [get_putAll,reversed,lookup_fieldsNamed,get_under]

theorem merged_eq {layer : List (String × Value)} (free : ∀ entry ∈ layer, entry.1 ≠ ownName)
    (base : Settings) : base.merged layer = (resolve (given layer)).map (base.putAll ·) := by
  have none : layer.any (·.1 = ownName) = false := by simpa using free
  rw [merged,none]
  rfl

theorem merged_own {layer : List (String × Value)} {entry : String × Value} (member : entry ∈ layer)
    (own : entry.1 = ownName) (base : Settings) : base.merged layer = .error ⟨ownName⟩ := by
  have any : layer.any (·.1 = ownName) = true := by
    rw [List.any_eq_true]
    exact ⟨entry,member,decide_eq_true own⟩
  rw [merged,if_pos any]

theorem resolve_named (values : List (Field × Value)) :
    resolve (values.map fun (field,value) => (field.name,value)) = .ok values := by
  induction values with
  | nil => rfl
  | cons entry values ih =>
    have named : Field.named? entry.1.name = some entry.1 := Field.named?_eq_some_iff.mpr rfl
    rw [List.map_cons,resolve]
    simp only [named,ih]
    rfl

theorem merged_named (values : List (Field × Value)) (base : Settings) :
    base.merged (values.map fun (field,value) => (field.name,value)) = .ok (base.laid values) := by
  have free : ∀ entry ∈ values.map fun (field,value) => (field.name,value), entry.1 ≠ ownName := by
    simp only [List.forall_mem_map]
    intro entry _
    cases entry.1 <;> decide
  have kept : given (values.map fun (field,value) => (field.name,value)) =
      (given values).map fun (field,value) => (field.name,value) := by
    simp [given,List.filter_map,Function.comp_def]
  rw [merged_eq free,kept,resolve_named]
  rfl

theorem resolve_append (first rest : List (String × Value)) : resolve (first ++ rest) =
    match resolve first with
    | .error unknown => .error unknown
    | .ok fields => (resolve rest).map (fields ++ ·) := by
  induction first with
  | nil => cases found : resolve rest <;> simp [resolve,found,Except.map]
  | cons entry first ih =>
    obtain ⟨name,value⟩ := entry
    rw [List.cons_append,resolve,resolve,ih]
    cases Field.named? name with
    | none => rfl
    | some field =>
      cases resolve first with
      | error unknown => rfl
      | ok fields => cases resolve rest <;> simp [Except.map]

def mergedAll (layers : List (List (String × Value))) (base : Settings) :
    Except UnknownField Settings := layers.foldlM (fun settings layer => settings.merged layer) base

def Free (layers : List (List (String × Value))) : Prop :=
  ∀ layer ∈ layers, ∀ entry ∈ layer, entry.1 ≠ ownName

theorem mergedAll_eq {layers : List (List (String × Value))} (free : Free layers) (base : Settings) :
    mergedAll layers base = (resolve (given layers.flatten)).map (base.putAll ·) := by
  induction layers generalizing base with
  | nil => rfl
  | cons layer layers ih =>
    have first := free layer List.mem_cons_self
    have others : Free layers := fun other member => free other (List.mem_cons_of_mem _ member)
    have step : mergedAll (layer :: layers) base = base.merged layer >>= (mergedAll layers ·) := rfl
    have entries : given (layer :: layers).flatten = given layer ++ given layers.flatten := by
      simp [given]
    rw [step,merged_eq first,entries,resolve_append]
    cases resolve (given layer) with
    | error unknown => rfl
    | ok fields =>
      simp only [Except.map,bind,Except.bind,ih others]
      cases resolve (given layers.flatten) with
      | error unknown => rfl
      | ok more => simp [putAll]

def replaced (entry known : String × Value) : String × Value :=
  if known.1 = entry.1 then entry else known

def update (entries : List (String × Value)) (entry : String × Value) : List (String × Value) :=
  if entry.1 ∈ entries.map (·.1) then entries.map (replaced entry) else entries ++ [entry]

def together (layers : List (List (String × Value))) : List (String × Value) :=
  (given layers.flatten).foldl update []

theorem replaced_name (entry known : String × Value) : (replaced entry known).1 = known.1 := by
  unfold replaced
  split
  · rename_i same
    exact same.symm
  · rfl

theorem names_update (entries : List (String × Value)) (entry : String × Value) :
    (update entries entry).map (·.1) =
      if entry.1 ∈ entries.map (·.1) then entries.map (·.1) else entries.map (·.1) ++ [entry.1] := by
  unfold update
  split
  · simp [Function.comp_def,replaced_name]
  · simp

theorem names_update_nodup {entries : List (String × Value)} (entry : String × Value)
    (unique : (entries.map (·.1)).Nodup) : ((update entries entry).map (·.1)).Nodup := by
  rw [names_update]
  split
  · exact unique
  · rename_i absent
    rw [List.nodup_append]
    refine ⟨unique,by simp,?_⟩
    rintro name member other last rfl
    exact absent (List.mem_singleton.mp last ▸ member)

theorem lookup_replaced_other {entry : String × Value} {name : String} (apart : name ≠ entry.1)
    (entries : List (String × Value)) :
    (entries.map (replaced entry)).lookup name = entries.lookup name := by
  induction entries with
  | nil => rfl
  | cons known entries ih =>
    rw [List.map_cons,List.lookup_cons,List.lookup_cons,ih,replaced_name]
    by_cases same : known.1 = entry.1
    · have other : (name == known.1) = false := beq_false_of_ne (same ▸ apart)
      simp [other]
    · simp [replaced,same]

theorem lookup_replaced_self {entry : String × Value} {entries : List (String × Value)}
    (known : entry.1 ∈ entries.map (·.1)) :
    (entries.map (replaced entry)).lookup entry.1 = some entry.2 := by
  induction entries with
  | nil => simp at known
  | cons first entries ih =>
    rw [List.map_cons,List.lookup_cons,replaced_name]
    by_cases same : first.1 = entry.1
    · simp [replaced,same]
    · have other : (entry.1 == first.1) = false := beq_false_of_ne (Ne.symm same)
      rw [List.map_cons,List.mem_cons] at known
      simp only [other]
      exact ih (known.resolve_left (Ne.symm same))

structure Agree (values other : List (String × Value)) : Prop where
  lookup : ∀ name, values.reverse.lookup name = other.reverse.lookup name
  unknown : unknown? values = unknown? other

theorem Agree.append {values other : List (String × Value)} (agree : Agree values other)
    (more : List (String × Value)) : Agree (values ++ more) (other ++ more) where
  lookup := by
    intro name
    simp only [List.reverse_append,List.lookup_append,agree.lookup]
  unknown := by
    have same := agree.unknown
    unfold unknown? at same ⊢
    simp only [List.map_append,List.find?_append,same]

theorem Agree.putAll_eq {values other : List (String × Value)} (agree : Agree values other)
    (base : Settings) :
    (resolve values).map (base.putAll ·) = (resolve other).map (base.putAll ·) := by
  simp only [putAll_resolved,agree.lookup,agree.unknown]

theorem lookup_update (entries : List (String × Value)) (entry : String × Value) (name : String) :
    (update entries entry).reverse.lookup name = (entries ++ [entry]).reverse.lookup name := by
  unfold update
  split
  · rename_i known
    rw [List.reverse_append,List.reverse_singleton,List.singleton_append,← List.map_reverse,
      List.lookup_cons]
    by_cases same : name = entry.1
    · have known : entry.1 ∈ entries.reverse.map (·.1) := by simpa using known
      rw [same,lookup_replaced_self known]
      simp
    · have other : (name == entry.1) = false := beq_false_of_ne same
      rw [lookup_replaced_other same,other]
  · rfl

theorem unknown?_update (entries : List (String × Value)) (entry : String × Value) :
    unknown? (update entries entry) = unknown? (entries ++ [entry]) := by
  unfold unknown?
  rw [names_update,List.map_append,List.find?_append]
  split
  · rename_i known
    cases found : (entries.map (·.1)).find? fun name => (Field.named? name).isNone with
    | some name => rfl
    | none =>
      have meant := List.find?_eq_none.mp found entry.1 known
      simp only [List.map_cons,List.map_nil,List.find?_singleton,meant]
      rfl
  · rw [List.find?_append]
    rfl

theorem agree_foldl_update (values entries : List (String × Value)) :
    Agree (values.foldl update entries) (entries ++ values) := by
  induction values generalizing entries with
  | nil => simpa using ⟨fun _ => rfl,rfl⟩
  | cons entry values ih =>
    have first : Agree (update entries entry) (entries ++ [entry]) :=
      ⟨lookup_update entries entry,unknown?_update entries entry⟩
    have rest := ih (update entries entry)
    have both := first.append values
    rw [List.append_assoc,List.singleton_append] at both
    exact ⟨fun name => (rest.lookup name).trans (both.lookup name),rest.unknown.trans both.unknown⟩

theorem agree_together (layers : List (List (String × Value))) :
    Agree (together layers) (given layers.flatten) := agree_foldl_update _ []

theorem foldl_update_nodup (values : List (String × Value)) {entries : List (String × Value)}
    (unique : (entries.map (·.1)).Nodup) : ((values.foldl update entries).map (·.1)).Nodup := by
  induction values generalizing entries with
  | nil => exact unique
  | cons entry values ih => exact ih (names_update_nodup entry unique)

theorem mem_update {entries : List (String × Value)} {entry other : String × Value}
    (member : other ∈ update entries entry) : other ∈ entries ∨ other = entry := by
  unfold update at member
  split at member
  · obtain ⟨known,kept,rfl⟩ := List.mem_map.mp member
    unfold replaced
    split
    · exact .inr rfl
    · exact .inl kept
  · simpa using member

theorem mem_foldl_update {values entries : List (String × Value)} {entry : String × Value}
    (member : entry ∈ values.foldl update entries) : entry ∈ entries ∨ entry ∈ values := by
  induction values generalizing entries with
  | nil => exact .inl member
  | cons first values ih =>
    rcases ih member with early | late
    · rcases mem_update early with before | rfl
      · exact .inl before
      · exact .inr List.mem_cons_self
    · exact .inr (List.mem_cons_of_mem _ late)

theorem merged_together {layers : List (List (String × Value))} (free : Free layers) (base : Settings) :
    base.merged (together layers) = mergedAll layers base := by
  have from_ (entry : String × Value) (member : entry ∈ together layers) :
      entry ∈ given layers.flatten := by
    rcases mem_foldl_update member with none | given
    · simp at none
    · exact given
  have whole : given (together layers) = together layers := by
    rw [given,List.filter_eq_self]
    exact fun entry member => (List.mem_filter.mp (from_ entry member)).2
  have alone : ∀ entry ∈ together layers, entry.1 ≠ ownName := by
    intro entry member
    obtain ⟨layer,among,inside⟩ := List.mem_flatten.mp (List.mem_filter.mp (from_ entry member)).1
    exact free layer among entry inside
  rw [merged_eq alone,whole,(agree_together layers).putAll_eq,mergedAll_eq free]

theorem unknown?_eq_none_iff {values : List (String × Value)} :
    unknown? values = none ↔ ∀ entry ∈ values, ∃ field : Field, entry.1 = field.name := by
  simp [unknown?,Field.named?_eq_none_iff]

theorem unknown?_eq_some_iff {values : List (String × Value)} {name : String} :
    unknown? values = some name ↔ ∃ before value after, values = before ++ (name,value) :: after ∧
      (∀ field : Field, name ≠ field.name) ∧
      ∀ entry ∈ before, ∃ field : Field, entry.1 = field.name := by
  constructor
  · intro found
    obtain ⟨meaningless,early,late,names,known⟩ := List.find?_eq_some_iff_append.mp found
    obtain ⟨before,rest,rfl,rfl,tail⟩ := List.map_eq_append_iff.mp names
    obtain ⟨⟨_,value⟩,after,rfl,rfl,_⟩ := List.map_eq_cons_iff.mp tail
    refine ⟨before,value,after,rfl,Field.named?_eq_none_iff.mp (Option.isNone_iff_eq_none.mp meaningless),?_⟩
    rw [← unknown?_eq_none_iff,unknown?,List.find?_eq_none]
    intro name among
    simpa [Option.isSome_iff_ne_none] using known name among
  · rintro ⟨before,value,after,rfl,meaningless,known⟩
    have none := unknown?_eq_none_iff.mpr known
    unfold unknown? at none ⊢
    rw [List.map_append,List.find?_append,none,Option.none_or]
    simp [Field.named?_eq_none_iff.mpr meaningless]

structure LayersCount (base : Settings) (layers : List (List (String × Value))) : Prop where
  exact : ∀ settings, mergedAll layers base = .ok settings ↔
    (∀ entry ∈ given layers.flatten, ∃ field : Field, entry.1 = field.name) ∧ ∀ field,
      settings.get field = ((given layers.flatten).reverse.lookup field.name).getD (base.get field)
  refused : ∀ name, mergedAll layers base = .error ⟨name⟩ ↔ ∃ before value after,
    given layers.flatten = before ++ (name,value) :: after ∧ (∀ field : Field, name ≠ field.name) ∧
      ∀ entry ∈ before, ∃ field : Field, entry.1 = field.name
  nothing : mergedAll (layers.map given) base = mergedAll layers base
  combined : base.merged (together layers) = mergedAll layers base
  unique : ((together layers).map (·.1)).Nodup

theorem layers_count {layers : List (List (String × Value))} (free : Free layers) (base : Settings) :
    LayersCount base layers where
  exact := by
    intro settings
    rw [mergedAll_eq free,putAll_resolved,← unknown?_eq_none_iff]
    cases unknown? (given layers.flatten) with
    | some name => simp
    | none =>
      simp only [Except.ok.injEq,true_and]
      constructor
      · rintro rfl
        exact get_under _ base
      · intro each
        refine ext_get fun field => ?_
        rw [each,get_under]
  refused := by
    intro name
    rw [mergedAll_eq free,putAll_resolved,← unknown?_eq_some_iff]
    cases unknown? (given layers.flatten) with
    | some other => simp
    | none => simp
  nothing := by
    have still : Free (layers.map given) := by
      simp only [Free,List.forall_mem_map]
      exact fun layer among entry member => free layer among entry (List.mem_filter.mp member).1
    have same : given (layers.map given).flatten = given layers.flatten := by
      have each : given ∘ given = (given : List (String × Value) → _) := by
        funext layer
        simp [given,List.filter_filter]
      have flat (layers : List (List (String × Value))) :
          given layers.flatten = (layers.map given).flatten := List.filter_flatten
      rw [flat,flat,List.map_map,each]
    rw [mergedAll_eq still,mergedAll_eq free,same]
  combined := merged_together free base
  unique := foldl_update_nodup _ (by simp)

end Settings

end TapeMachine
