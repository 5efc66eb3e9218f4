import Mathlib.Tactic.IntervalCases
import TapeMachine.Json
import TapeMachine.Proofs.Numerals
import TapeMachine.Text.Parts

-- A reader of JSON texts that knows nothing of how they are rendered. It takes one character
-- after another to lexemes, and lexemes to values, and reads back every value that is rendered.
namespace TapeMachine.JsonValue

inductive Lexeme where
  | listStart | listEnd | objectStart | objectEnd | comma | colon
  | text (content : List Char)
  | number (value : Int)
  deriving DecidableEq, Repr

inductive Mode where
  | between
  | text (before : List Char)
  | escape (before : List Char)
  | code (before : List Char) (left value : Nat)
  | sign
  | number (negative : Bool) (value : Nat)
  deriving DecidableEq, Repr

structure Scan where
  mode : Mode
  before : List Lexeme
  deriving DecidableEq, Repr

def isSpace (c : Char) : Bool := c ∈ [' ','\t','\n','\r']

def mark? (c : Char) : Option Lexeme :=
  [('[',.listStart),(']',.listEnd),('\x7b',.objectStart),('\x7d',.objectEnd),(',',.comma),
    (':',.colon)].lookup c

def escaped? (c : Char) : Option Char :=
  [('"','"'),('\\','\\'),('/','/'),('b','\x08'),('f','\x0c'),('n','\n'),('r','\r'),
    ('t','\t')].lookup c

def hexDigit? (c : Char) : Option Nat :=
  if c.isDigit then some (c.toNat - 48)
  else if 'a' ≤ c ∧ c ≤ 'f' then some (c.toNat - 87)
  else if 'A' ≤ c ∧ c ≤ 'F' then some (c.toNat - 55)
  else none

def signed (negative : Bool) (value : Nat) : Int := if negative then -value else value

namespace Scan

def fresh (before : List Lexeme) (c : Char) : Option Scan :=
  if isSpace c then some ⟨.between,before⟩
  else if c = '"' then some ⟨.text [],before⟩
  else if c = '-' then some ⟨.sign,before⟩
  else if c.isDigit then some ⟨.number false (c.toNat - 48),before⟩
  else (mark? c).map fun mark => ⟨.between,mark :: before⟩

-- Zero is followed by no other digit, and a text holds no control character as it is.
def step (scan : Scan) (c : Char) : Option Scan :=
  match scan with
  | ⟨.between,before⟩ => fresh before c
  | ⟨.sign,before⟩ => if c.isDigit then some ⟨.number true (c.toNat - 48),before⟩ else none
  | ⟨.number negative value,before⟩ =>
    if c.isDigit then
      if value = 0 then none else some ⟨.number negative (10*value+(c.toNat - 48)),before⟩
    else fresh (.number (signed negative value) :: before) c
  | ⟨.text content,before⟩ =>
    if c = '"' then some ⟨.between,.text content.reverse :: before⟩
    else if c = '\\' then some ⟨.escape content,before⟩
    else if c.toNat < 0x20 then none
    else some ⟨.text (c :: content),before⟩
  | ⟨.escape content,before⟩ =>
    if c = 'u' then some ⟨.code content 4 0,before⟩
    else (escaped? c).map fun meant => ⟨.text (meant :: content),before⟩
  | ⟨.code content left value,before⟩ =>
    match hexDigit? c with
    | none => none
    | some digit =>
      if 1 < left then some ⟨.code content (left-1) (16*value+digit),before⟩
      else if (16*value+digit).isValidChar then
        some ⟨.text (Char.ofNat (16*value+digit) :: content),before⟩
      else none

def closed? : Scan → Option (List Lexeme)
  | ⟨.between,before⟩ => some before
  | ⟨.number negative value,before⟩ => some (.number (signed negative value) :: before)
  | _ => none

variable {scan : Scan} {before : List Lexeme} {c : Char}

theorem step_of_closed (closed : scan.closed? = some before) (apart : c.isDigit = false) :
    scan.step c = step ⟨.between,before⟩ c := by
  obtain ⟨mode,lexemes⟩ := scan
  cases mode with
  | between =>
    cases closed
    rfl
  | number negative value =>
    cases Option.some.inj closed
    simp only [step,apart,Bool.false_eq_true,if_false]
  | _ => cases closed

theorem foldlM_escapedChar (c : Char) (content : List Char) (before : List Lexeme) :
    (escapedChar c).foldlM step ⟨.text content,before⟩ = some ⟨.text (c :: content),before⟩ := by
  by_cases named : c ∈ ['"','\\','\n','\r','\t','\x0c','\x08']
  · simp only [List.mem_cons,List.not_mem_nil,or_false] at named
    rcases named with rfl | rfl | rfl | rfl | rfl | rfl | rfl <;> rfl
  · simp only [List.mem_cons,List.not_mem_nil,or_false,not_or] at named
    obtain ⟨quotes,slash,newline,back,tab,feed,bell⟩ := named
    simp only [escapedChar,quotes,slash,newline,back,tab,feed,bell,or_self,if_false]
    by_cases control : c.toNat < 0x20
    · obtain ⟨n,small,rfl⟩ : ∃ n < 0x20, c = Char.ofNat n :=
        ⟨c.toNat,control,(Char.ofNat_toNat c).symm⟩
      rw [if_pos control]
      interval_cases n <;> rfl
    · rw [if_neg control,List.foldlM_cons,step]
      simp only [quotes,slash,control,if_false]
      rfl

theorem foldlM_escaped (text content : List Char) (before : List Lexeme) :
    (text.flatMap escapedChar).foldlM step ⟨.text content,before⟩ =
      some ⟨.text (text.reverse ++ content),before⟩ := by
  induction text generalizing content with
  | nil => rfl
  | cons c text ih =>
    rw [List.flatMap_cons,List.foldlM_append,foldlM_escapedChar,Option.bind_eq_bind,Option.bind_some,
      ih,List.reverse_cons,List.append_assoc]
    rfl

theorem foldlM_digits {mode : Mode} {negative : Bool} (begins : ∀ c : Char, c.isDigit = true →
      step ⟨mode,before⟩ c = some ⟨.number negative (c.toNat - 48),before⟩) (n : Nat) :
    (Nat.toDigits 10 n).foldlM step ⟨mode,before⟩ = some ⟨.number negative n,before⟩ := by
  have digit (d : Nat) (small : d < 10) :
      d.digitChar.isDigit = true ∧ d.digitChar.toNat - 48 = d := by
    revert d
    decide
  induction n using Nat.strongRecOn with
  | ind n ih =>
    by_cases small : n < 10
    · obtain ⟨isDigit,value⟩ := digit n small
      rw [Nat.toDigits_of_lt_base small,List.foldlM_cons,begins _ isDigit,value]
      rfl
    · have large : 10 ≤ n := Nat.not_lt.mp small
      obtain ⟨isDigit,value⟩ := digit (n % 10) (Nat.mod_lt n (by decide))
      have front := ih (n/10) (Nat.div_lt_self (by omega) (by decide))
      have more : n/10 ≠ 0 := by omega
      have whole : 10*(n/10) + n % 10 = n := Nat.div_add_mod n 10
      rw [Nat.toDigits_of_base_le (by decide) large,List.foldlM_append,front,Option.bind_eq_bind,
        Option.bind_some,List.foldlM_cons,step,if_pos isDigit,if_neg more,value,whole]
      rfl

theorem step_digit {c : Char} (digit : c.isDigit = true) (before : List Lexeme) :
    step ⟨.between,before⟩ c = some ⟨.number false (c.toNat - 48),before⟩ := by
  have apart (d : Char) (other : d.isDigit = false) : c ≠ d := Text.ne_of_isDigit digit other
  have solid : isSpace c = false := by
    simp [isSpace,apart ' ' rfl,apart '\t' rfl,apart '\n' rfl,apart '\r' rfl]
  simp only [step,fresh,solid,apart '"' rfl,apart '-' rfl,digit,Bool.false_eq_true,if_false,if_true]

end Scan

def lexemesOf? (text : List Char) : Option (List Lexeme) := do
  let scan ← text.foldlM Scan.step ⟨.between,[]⟩
  return (← scan.closed?).reverse

example : lexemesOf? "[ -12,\"\\u0041\\/\" ]".toList =
    some [.listStart,.number (-12),.comma,.text ['A','/'],.listEnd] := by decide +kernel

mutual

def value? : Nat → List Lexeme → Option (JsonValue × List Lexeme)
  | _+1,.text content :: rest => some (.text (String.ofList content),rest)
  | _+1,.number value :: rest => some (.number value,rest)
  | _+1,.listStart :: .listEnd :: rest => some (.list [],rest)
  | fuel+1,.listStart :: rest => do
    let (items,rest) ← items? fuel rest
    return (.list items,rest)
  | _+1,.objectStart :: .objectEnd :: rest => some (.object [],rest)
  | fuel+1,.objectStart :: rest => do
    let (fields,rest) ← fields? fuel rest
    return (.object fields,rest)
  | _,_ => none
termination_by structural fuel => fuel

def items? : Nat → List Lexeme → Option (List JsonValue × List Lexeme)
  | fuel+1,lexemes => do
    let (item,rest) ← value? fuel lexemes
    match rest with
    | .comma :: rest => do
      let (items,rest) ← items? fuel rest
      return (item :: items,rest)
    | .listEnd :: rest => return ([item],rest)
    | _ => none
  | 0,_ => none
termination_by structural fuel => fuel

def fields? : Nat → List Lexeme → Option (List (String × JsonValue) × List Lexeme)
  | fuel+1,.text name :: .colon :: lexemes => do
    let (value,rest) ← value? fuel lexemes
    match rest with
    | .comma :: rest => do
      let (fields,rest) ← fields? fuel rest
      return ((String.ofList name,value) :: fields,rest)
    | .objectEnd :: rest => return ([(String.ofList name,value)],rest)
    | _ => none
  | _,_ => none
termination_by structural fuel => fuel

end

def read? (text : String) : Option JsonValue := do
  let lexemes ← lexemesOf? text.toList
  match value? lexemes.length lexemes with
  | some (value,[]) => some value
  | _ => none

mutual

def lexemes : JsonValue → List Lexeme
  | text value => [.text value.toList]
  | number value => [.number value]
  | list items => .listStart :: ([.comma].intercalate (itemLexemes items) ++ [.listEnd])
  | object fields => .objectStart :: ([.comma].intercalate (fieldLexemes fields) ++ [.objectEnd])

def itemLexemes : List JsonValue → List (List Lexeme)
  | [] => []
  | item :: items => item.lexemes :: itemLexemes items

def fieldLexemes : List (String × JsonValue) → List (List Lexeme)
  | [] => []
  | (name,value) :: fields => (.text name.toList :: .colon :: value.lexemes) :: fieldLexemes fields

end

def Yields (text : List Char) (lexemes : List Lexeme) : Prop :=
  ∀ before, ∃ scan, text.foldlM Scan.step ⟨.between,before⟩ = some scan ∧
    scan.closed? = some (lexemes.reverse ++ before)

namespace Yields

variable {text others : List Char} {found more : List Lexeme} {c : Char}

theorem nil : Yields [] [] := fun before => ⟨⟨.between,before⟩,rfl,rfl⟩

theorem space (blank : isSpace c = true) (yields : Yields text found) : Yields (c :: text) found := by
  intro before
  obtain ⟨scan,scans,closed⟩ := yields before
  refine ⟨scan,?_,closed⟩
  have first : Scan.step ⟨.between,before⟩ c = some ⟨.between,before⟩ := if_pos blank
  rw [List.foldlM_cons,first]
  exact scans

theorem indented (count : Nat) (yields : Yields text found) :
    Yields (("\n".pushn ' ' count).toList ++ text) found := by
  have spaces : Yields (List.replicate count ' ' ++ text) found := by
    induction count with
    | zero => exact yields
    | succ count ih => exact ih.space rfl
  rw [Text.toList_pushn,List.append_assoc]
  exact spaces.space rfl

theorem mark {lexeme : Lexeme} (marks : ∀ before,
      Scan.step ⟨.between,before⟩ c = some ⟨.between,lexeme :: before⟩)
    (yields : Yields text found) : Yields (c :: text) (lexeme :: found) := by
  intro before
  obtain ⟨scan,scans,closed⟩ := yields (lexeme :: before)
  refine ⟨scan,?_,by simp [closed]⟩
  rw [List.foldlM_cons,marks]
  exact scans

-- What begins with no digit does not go on with a number.
theorem append (first : Yields text found) (second : Yields (c :: others) more)
    (apart : c.isDigit = false) : Yields (text ++ c :: others) (found ++ more) := by
  intro before
  obtain ⟨scan,scans,closed⟩ := first before
  obtain ⟨last,ends,done⟩ := second (found.reverse ++ before)
  refine ⟨last,?_,by simp [done]⟩
  rw [List.foldlM_cons] at ends
  rw [List.foldlM_append,scans,Option.bind_eq_bind,Option.bind_some,List.foldlM_cons,
    Scan.step_of_closed closed apart]
  exact ends

theorem quoted (content : String) : Yields (quotedText content).toList [.text content.toList] := by
  intro before
  refine ⟨⟨.between,.text content.toList :: before⟩,?_,rfl⟩
  have start : Scan.step ⟨.between,before⟩ '"' = some ⟨.text [],before⟩ := rfl
  have ends (scanned : List Char) : Scan.step ⟨.text scanned,before⟩ '"' =
      some ⟨.between,.text scanned.reverse :: before⟩ := rfl
  simp only [quotedText,String.toList_ofList,List.cons_append,List.foldlM_cons,start,Option.bind_eq_bind,
    Option.bind_some,List.foldlM_append,Scan.foldlM_escaped,ends,List.append_nil,List.reverse_reverse]
  rfl

theorem number (n : Int) : Yields (toString n).toList [.number n] := by
  intro before
  cases n with
  | ofNat n =>
    refine ⟨⟨.number false n,before⟩,?_,rfl⟩
    rw [Int.ofNat_eq_natCast,Text.toList_natural]
    exact Scan.foldlM_digits (fun c digit => Scan.step_digit digit before) n
  | negSucc n =>
    refine ⟨⟨.number true (n+1),before⟩,?_,rfl⟩
    have sign : Scan.step ⟨.between,before⟩ '-' = some ⟨.sign,before⟩ := rfl
    have begins (c : Char) (digit : c.isDigit = true) :
        Scan.step ⟨.sign,before⟩ c = some ⟨.number true (c.toNat - 48),before⟩ := if_pos digit
    rw [Text.toList_negative,List.foldlM_cons,sign]
    exact Scan.foldlM_digits begins (n+1)

end Yields

theorem yields_parts {parts : List String} {each : List (List Lexeme)} (depth : Nat)
    (yields : List.Forall₂ (fun part lexemes => Yields part.toList lexemes) parts each)
    {c : Char} {rest : List Char} {more : List Lexeme} (behind : Yields (c :: rest) more)
    (apart : c.isDigit = false) :
    Yields ((("," ++ "\n".pushn ' ' depth).intercalate parts).toList ++ c :: rest)
      ([Lexeme.comma].intercalate each ++ more) := by
  induction yields with
  | nil => exact behind
  | cons first others ih =>
    cases others with
    | nil =>
      rw [String.intercalate_singleton,List.intercalate_singleton]
      exact first.append behind apart
    | cons second others =>
      have next : Yields (',' :: _) (.comma :: _) := (ih.indented depth).mark fun _ => rfl
      have joined := first.append next rfl
      have comma : ",".toList = [','] := rfl
      rw [String.intercalate_cons_cons,List.intercalate_cons_cons]
      simpa only [String.toList_append,comma,List.append_assoc,List.cons_append,List.nil_append] using joined

structure Marks (text : String) (c : Char) (lexeme : Lexeme) : Prop where
  single : text.toList = [c]
  step : ∀ before, Scan.step ⟨.between,before⟩ c = some ⟨.between,lexeme :: before⟩

theorem yields_enclosed {parts : List String} {each : List (List Lexeme)} {first last : String}
    {a b : Char} {opening closing : Lexeme} (depth : Nat)
    (yields : List.Forall₂ (fun part lexemes => Yields part.toList lexemes) parts each)
    (opens : Marks first a opening) (closes : Marks last b closing) :
    Yields (enclosed first last depth parts).toList
      (opening :: ([Lexeme.comma].intercalate each ++ [closing])) := by
  have ends : Yields [b] [closing] := Yields.nil.mark closes.step
  cases yields with
  | nil =>
    have marks : (enclosed first last depth []).toList = [a,b] := by
      simp [enclosed,opens.single,closes.single]
    rw [marks]
    exact ends.mark opens.step
  | cons part others =>
    have outer := ends.indented (indentWidth*depth)
    rw [Text.toList_pushn] at outer
    have inside := (yields_parts (indentWidth*(depth+1)) (.cons part others) outer rfl).indented
      (indentWidth*(depth+1))
    have whole := inside.mark opens.step
    simp only [enclosed,List.isEmpty_cons,Bool.false_eq_true,if_false,String.toList_append,
      opens.single,closes.single,Text.toList_pushn,List.append_assoc,List.cons_append,
      List.nil_append] at whole ⊢
    exact whole

mutual

theorem yields_render (depth : Nat) : (value : JsonValue) → Yields (value.render depth).toList value.lexemes
  | .text value => by
    rw [render,lexemes]
    exact .quoted value
  | .number value => by
    rw [render,lexemes]
    exact .number value
  | .list items => by
    rw [render,lexemes]
    exact yields_enclosed depth (yields_items (depth+1) items) ⟨rfl,fun _ => rfl⟩ ⟨rfl,fun _ => rfl⟩
  | .object fields => by
    rw [render,lexemes]
    exact yields_enclosed depth (yields_fields (depth+1) fields) ⟨rfl,fun _ => rfl⟩ ⟨rfl,fun _ => rfl⟩

theorem yields_items (depth : Nat) : (items : List JsonValue) →
    List.Forall₂ (fun part lexemes => Yields part.toList lexemes) (renderItems depth items)
      (itemLexemes items)
  | [] => .nil
  | item :: items => .cons (yields_render depth item) (yields_items depth items)

theorem yields_fields (depth : Nat) : (fields : List (String × JsonValue)) →
    List.Forall₂ (fun part lexemes => Yields part.toList lexemes) (renderFields depth fields)
      (fieldLexemes fields)
  | [] => .nil
  | (name,value) :: fields => by
    refine .cons ?_ (yields_fields depth fields)
    have behind : Yields (':' :: ' ' :: (value.render depth).toList) (.colon :: value.lexemes) :=
      ((yields_render depth value).space rfl).mark fun _ => rfl
    have field := (Yields.quoted name).append behind rfl
    have colon : ": ".toList = [':',' '] := rfl
    simpa only [String.toList_append,colon,List.append_assoc,List.cons_append,List.nil_append] using field

end

theorem lexemes_eq_cons (value : JsonValue) :
    ∃ first others, value.lexemes = first :: others ∧ first ≠ .listEnd := by
  cases value with
  | text value => exact ⟨_,_,by rw [lexemes],Lexeme.noConfusion⟩
  | number value => exact ⟨_,_,by rw [lexemes],Lexeme.noConfusion⟩
  | list items => exact ⟨_,_,by rw [lexemes],Lexeme.noConfusion⟩
  | object fields => exact ⟨_,_,by rw [lexemes],Lexeme.noConfusion⟩

theorem value?_listStart {fuel : Nat} {first : Lexeme} {others : List Lexeme}
    (goesOn : first ≠ .listEnd) : value? (fuel+1) (.listStart :: first :: others) =
      (items? fuel (first :: others)).map fun (items,rest) => (.list items,rest) := by
  rw [value?]
  · cases items? fuel (first :: others) <;> rfl
  · rintro _ ⟨⟩
    exact goesOn rfl

theorem exists_joined (first : Lexeme) (others : List Lexeme) (each : List (List Lexeme)) :
    ∃ more, [Lexeme.comma].intercalate ((first :: others) :: each) = first :: more := by
  cases each with
  | nil => exact ⟨others,List.intercalate_singleton⟩
  | cons next each => exact ⟨_,List.intercalate_cons_cons⟩

mutual

theorem value?_lexemes : (value : JsonValue) → ∀ fuel rest, value.lexemes.length ≤ fuel →
    value? fuel (value.lexemes ++ rest) = some (value,rest)
  | .text _ | .number _ | .list [] | .object [] => by
    intro fuel rest enough
    simp only [lexemes,itemLexemes,fieldLexemes,List.length_cons] at enough ⊢
    obtain ⟨fuel,rfl⟩ := Nat.exists_eq_succ_of_ne_zero (Nat.ne_zero_of_lt enough)
    simp [value?]
  | .list (item :: items) => by
    intro fuel rest enough
    rw [lexemes,List.length_cons,List.length_append] at enough
    obtain ⟨fuel,rfl⟩ := Nat.exists_eq_succ_of_ne_zero (Nat.ne_zero_of_lt enough)
    have inside := items?_lexemes (item :: items) (List.cons_ne_nil _ _) fuel rest (Nat.le_of_succ_le_succ enough)
    obtain ⟨first,others,leading,goesOn⟩ := item.lexemes_eq_cons
    obtain ⟨more,begins⟩ := exists_joined first others (itemLexemes items)
    rw [lexemes]
    simp only [itemLexemes,leading,begins,List.cons_append,List.append_assoc,List.nil_append] at inside ⊢
    rw [value?_listStart goesOn,inside]
    rfl
  | .object (field :: fields) => by
    intro fuel rest enough
    rw [lexemes,List.length_cons,List.length_append] at enough
    obtain ⟨fuel,rfl⟩ := Nat.exists_eq_succ_of_ne_zero (Nat.ne_zero_of_lt enough)
    have inside := fields?_lexemes (field :: fields) (List.cons_ne_nil _ _) fuel rest (Nat.le_of_succ_le_succ enough)
    obtain ⟨name,value⟩ := field
    obtain ⟨more,begins⟩ := exists_joined (.text name.toList) (.colon :: value.lexemes) (fieldLexemes fields)
    rw [lexemes]
    simp only [fieldLexemes,begins,List.cons_append,List.append_assoc,List.nil_append] at inside ⊢
    rw [value?,inside]
    · rfl
    · rintro _ ⟨⟩

theorem items?_lexemes : (items : List JsonValue) → items ≠ [] → ∀ fuel rest,
    ([Lexeme.comma].intercalate (itemLexemes items)).length < fuel →
    items? fuel ([Lexeme.comma].intercalate (itemLexemes items) ++ .listEnd :: rest) =
      some (items,rest)
  | [] => fun none => absurd rfl none
  | [item] => by
    intro _ fuel rest enough
    obtain ⟨fuel,rfl⟩ := Nat.exists_eq_succ_of_ne_zero (Nat.ne_zero_of_lt enough)
    simp only [itemLexemes,List.intercalate_singleton] at enough ⊢
    rw [items?,value?_lexemes item fuel _ (Nat.le_of_lt_succ enough)]
    rfl
  | item :: next :: items => by
    intro _ fuel rest enough
    obtain ⟨fuel,rfl⟩ := Nat.exists_eq_succ_of_ne_zero (Nat.ne_zero_of_lt enough)
    simp only [itemLexemes,List.intercalate_cons_cons,List.length_append,List.append_assoc,
      List.length_singleton] at enough ⊢
    have others := items?_lexemes (next :: items) (List.cons_ne_nil _ _) fuel rest (by rw [itemLexemes]; omega)
    rw [itemLexemes] at others
    rw [items?,value?_lexemes item fuel _ (by omega)]
    simp only [Option.bind_eq_bind,Option.bind_some,List.cons_append,List.nil_append,others]
    rfl

theorem fields?_lexemes : (fields : List (String × JsonValue)) → fields ≠ [] → ∀ fuel rest,
    ([Lexeme.comma].intercalate (fieldLexemes fields)).length < fuel →
    fields? fuel ([Lexeme.comma].intercalate (fieldLexemes fields) ++ .objectEnd :: rest) =
      some (fields,rest)
  | [] => fun none => absurd rfl none
  | [(name,value)] => by
    intro _ fuel rest enough
    obtain ⟨fuel,rfl⟩ := Nat.exists_eq_succ_of_ne_zero (Nat.ne_zero_of_lt enough)
    simp only [fieldLexemes,List.intercalate_singleton,List.cons_append,List.length_cons] at enough ⊢
    rw [fields?,value?_lexemes value fuel _ (by omega),String.ofList_toList]
    rfl
  | (name,value) :: next :: fields => by
    intro _ fuel rest enough
    obtain ⟨fuel,rfl⟩ := Nat.exists_eq_succ_of_ne_zero (Nat.ne_zero_of_lt enough)
    simp only [fieldLexemes,List.intercalate_cons_cons,List.length_append,List.append_assoc,
      List.length_cons,List.cons_append] at enough ⊢
    have others := fields?_lexemes (next :: fields) (List.cons_ne_nil _ _) fuel rest (by rw [fieldLexemes]; omega)
    rw [fieldLexemes] at others
    rw [fields?,value?_lexemes value fuel _ (by omega),String.ofList_toList]
    simp only [Option.bind_eq_bind,Option.bind_some,List.nil_append,others]
    rfl

end

theorem read?_render (value : JsonValue) (depth : Nat) :
    read? (value.render depth ++ "\n") = some value := by
  have ends : Yields ['\n'] [] := Yields.nil.space rfl
  obtain ⟨scan,scans,closed⟩ := ((yields_render depth value).append ends rfl) []
  have lexed : lexemesOf? (value.render depth ++ "\n").toList = some value.lexemes := by
    rw [String.toList_append,lexemesOf?]
    have newline : "\n".toList = ['\n'] := rfl
    rw [newline,scans,Option.bind_eq_bind,Option.bind_some,closed]
    simp
  have whole := value?_lexemes value value.lexemes.length [] (Nat.le_refl _)
  rw [List.append_nil] at whole
  rw [read?,lexed,Option.bind_eq_bind,Option.bind_some,whole]

end TapeMachine.JsonValue
