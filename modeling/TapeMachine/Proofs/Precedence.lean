import TapeMachine.Proofs.Composition
import TapeMachine.Proofs.History

-- Among rules for the same state and symbol only the first one counts. It is what a table holds
-- that is filled in the rules' order, and programs with the same first rules run alike.
namespace TapeMachine

def Rule.pair (rule : Rule) : String × String := (rule.state,rule.read)

abbrev RuleTable := List ((String × String) × Rule)

def RuleTable.enter (table : RuleTable) (rule : Rule) : RuleTable :=
  if (table.lookup rule.pair).isSome then table else table ++ [(rule.pair,rule)]

def RuleTable.of (rules : List Rule) : RuleTable := rules.foldl enter []

namespace RuleTable

theorem lookup_enter (table : RuleTable) (rule : Rule) (pair : String × String) :
    (table.enter rule).lookup pair =
      (table.lookup pair).or (if rule.pair = pair then some rule else none) := by
  unfold enter
  split
  · rename_i taken
    by_cases same : rule.pair = pair
    · obtain ⟨first,found⟩ := Option.isSome_iff_exists.mp (same ▸ taken)
      simp [found]
    · simp [same]
  · rw [List.lookup_append]
    by_cases same : rule.pair = pair
    · simp [same]
    · have other : (pair == rule.pair) = false := beq_false_of_ne (Ne.symm same)
      simp [same,List.lookup_cons,other]

theorem lookup_enterAll (rules : List Rule) (table : RuleTable) (pair : String × String) :
    (rules.foldl enter table).lookup pair =
      (table.lookup pair).or (rules.find? fun rule => rule.pair = pair) := by
  induction rules generalizing table with
  | nil => simp
  | cons rule rules ih =>
    rw [List.foldl_cons,ih,lookup_enter,Option.or_assoc]
    by_cases same : rule.pair = pair <;> simp [same]

end RuleTable

namespace Program

variable {program other : Program} {state symbol : String}

theorem rule?_eq_find? (program : Program) (state symbol : String) :
    program.rule? state symbol = program.rules.find? fun rule => rule.pair = (state,symbol) := by
  simp [rule?,Rule.pair]

theorem table_lookup (program : Program) (state symbol : String) :
    (RuleTable.of program.rules).lookup (state,symbol) = program.rule? state symbol := by
  rw [rule?_eq_find?,RuleTable.of,RuleTable.lookup_enterAll,List.lookup_nil,Option.none_or]

theorem rule?_eq_some_iff {rule : Rule} :
    program.rule? state symbol = some rule ↔ program.Picks state symbol rule := by
  constructor
  · exact picks_of_rule?
  · intro picks
    obtain ⟨earlier,later,rules,none⟩ := picks.first
    refine List.find?_eq_some_iff_append.mpr ⟨?_,earlier,later,rules,?_⟩
    · simpa using ⟨picks.forState,picks.forSymbol⟩
    · intro other member
      simpa only [Bool.not_eq_true',decide_eq_false_iff_not] using none other member

theorem rule?_eq_none_iff : program.rule? state symbol = none ↔
    ∀ rule ∈ program.rules, ¬(rule.state = state ∧ rule.read = symbol) := by
  simp [rule?]

theorem find?_shadowed {earlier later : List Rule} {rule first : Rule} (before : first ∈ earlier)
    (same : first.pair = rule.pair) (pair : String × String) :
    (earlier ++ later).find? (fun rule => rule.pair = pair) =
      (earlier ++ rule :: later).find? (fun rule => rule.pair = pair) := by
  rw [List.find?_append,List.find?_append]
  by_cases fits : rule.pair = pair
  · have found : (earlier.find? fun rule => rule.pair = pair).isSome :=
      List.find?_isSome.mpr ⟨first,before,by simpa using same.trans fits⟩
    obtain ⟨picked,found⟩ := Option.isSome_iff_exists.mp found
    simp [found]
  · simp [fits]

-- Of two rules for different pairs at most one fits, wherever they stand.
theorem find?_neighbours {earlier later : List Rule} {first second : Rule}
    (different : first.pair ≠ second.pair) (pair : String × String) :
    (earlier ++ second :: first :: later).find? (fun rule => rule.pair = pair) =
      (earlier ++ first :: second :: later).find? (fun rule => rule.pair = pair) := by
  rw [List.find?_append,List.find?_append]
  by_cases fits : first.pair = pair
  · have other : second.pair ≠ pair := fun same => different (fits.trans same.symm)
    simp [fits,other]
  · simp [List.find?_cons,fits]

structure RunsAs (program other : Program) : Prop where
  step : ∀ machine : Machine, machine.step other = machine.step program
  advance : ∀ limit traces keepsHistory session,
    (Interpreter.mk other limit traces keepsHistory).advance session =
      (Interpreter.mk program limit traces keepsHistory).advance session
  executeAll : ∀ limit patience, other.executeAll limit patience = program.executeAll limit patience
  interpretAll : ∀ limit traces keepsHistory patience sink,
    (Interpreter.mk other limit traces keepsHistory).interpretAll patience sink =
      (Interpreter.mk program limit traces keepsHistory).interpretAll patience sink

theorem Alike.runsAs (alike : program.Alike other) (runs : other.runs = program.runs) :
    program.RunsAs other where
  step := by
    intro machine
    simp only [Machine.step,alike.lookup,alike.apply]
  advance := by
    intro limit traces keepsHistory session
    simp only [Interpreter.advance,alike.lookup,alike.apply]
    rfl
  executeAll := alike.executeAll runs
  interpretAll := by
    intro limit traces keepsHistory patience sink
    have same : (Interpreter.mk program limit traces keepsHistory).Alike
        ⟨other,limit,traces,keepsHistory⟩ := ⟨alike,rfl,rfl,rfl⟩
    unfold Interpreter.interpretAll
    rw [runs,same.interpretRuns]

theorem alike_of_picks (haltStates : other.haltStates = program.haltStates)
    (same : ∀ state symbol rule, other.Picks state symbol rule ↔ program.Picks state symbol rule) :
    program.Alike other where
  rule := by
    intro state symbol
    refine Option.ext fun rule => ?_
    rw [rule?_eq_some_iff,rule?_eq_some_iff]
    exact same state symbol rule
  halts := by simp [Program.halts,haltStates]

theorem alike_of_find? {rules : List Rule}
    (same : ∀ pair, rules.find? (fun rule => rule.pair = pair) =
      program.rules.find? fun rule => rule.pair = pair) :
    program.Alike { program with rules := rules } where
  rule := by
    intro state symbol
    rw [rule?_eq_find?,rule?_eq_find?]
    exact same (state,symbol)
  halts := fun _ => rfl

structure FirstCounts (program : Program) : Prop where
  found : ∀ state symbol rule,
    program.rule? state symbol = some rule ↔ program.Picks state symbol rule
  missing : ∀ state symbol, program.rule? state symbol = none ↔
    ∀ rule ∈ program.rules, ¬(rule.state = state ∧ rule.read = symbol)
  tabled : ∀ state symbol,
    (RuleTable.of program.rules).lookup (state,symbol) = program.rule? state symbol
  same : ∀ other : Program, other.runs = program.runs → other.haltStates = program.haltStates →
    (∀ state symbol rule, other.Picks state symbol rule ↔ program.Picks state symbol rule) →
    program.RunsAs other
  shadowed : ∀ earlier rule later, program.rules = earlier ++ rule :: later →
    (∃ first ∈ earlier, first.state = rule.state ∧ first.read = rule.read) →
    program.RunsAs { program with rules := earlier ++ later }
  neighbours : ∀ earlier first second later, program.rules = earlier ++ first :: second :: later →
    ¬(first.state = second.state ∧ first.read = second.read) →
    program.RunsAs { program with rules := earlier ++ second :: first :: later }

theorem firstCounts (program : Program) : program.FirstCounts where
  found := fun _ _ _ => rule?_eq_some_iff
  missing := fun _ _ => rule?_eq_none_iff
  tabled := program.table_lookup
  same := fun _ runs haltStates same => (alike_of_picks haltStates same).runsAs runs
  shadowed := by
    rintro earlier rule later rules ⟨first,before,same⟩
    refine (alike_of_find? fun pair => ?_).runsAs rfl
    rw [rules]
    exact find?_shadowed before (Prod.ext_iff.mpr same) pair
  neighbours := by
    intro earlier first second later rules different
    refine (alike_of_find? fun pair => ?_).runsAs rfl
    rw [rules]
    exact find?_neighbours (fun same => different (Prod.ext_iff.mp same)) pair

example : (RuleTable.of [⟨"A","0","1",.right,"B"⟩,⟨"A","1","1",.left,"A"⟩,
    ⟨"A","0","0",.left,"H"⟩]).lookup ("A","0") = some ⟨"A","0","1",.right,"B"⟩ := by decide

end Program

end TapeMachine
