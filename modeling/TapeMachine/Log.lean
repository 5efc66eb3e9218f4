-- What a program reports about its own work, beside its results.
namespace TapeMachine

namespace Log

inductive Level where
  | debug | info | warning | error | critical
  deriving DecidableEq, Repr

namespace Level

def all : List Level := [critical,error,warning,info,debug]

def name : Level → String
  | critical => "CRITICAL"
  | error => "ERROR"
  | warning => "WARNING"
  | info => "INFO"
  | debug => "DEBUG"

def severity : Level → Nat
  | debug => 10
  | info => 20
  | warning => 30
  | error => 40
  | critical => 50

def named? (name : String) : Option Level := all.find? (·.name = name)

theorem named?_eq_some_iff {name : String} {level : Level} :
    named? name = some level ↔ name = level.name := by
  constructor
  · intro found
    have same := List.find?_some found
    exact (of_decide_eq_true same).symm
  · rintro rfl
    cases level <;> rfl

end Level

def severity? (name : String) : Option Nat :=
  (Level.all.map (fun level => (level.name,level.severity)) ++
    [("FATAL",Level.critical.severity),("WARN",Level.warning.severity),("NOTSET",0)]).lookup name

theorem severity?_name (level : Level) : severity? level.name = some level.severity := by
  cases level <;> rfl

structure Record where
  level : Level
  origin : String
  message : String

def Record.text (record : Record) : String :=
  s!"{record.level.name} {record.origin}: {record.message}"

-- Records below the least severity are dropped; each of the others is a line.
def lines (least : Nat) (records : List Record) : String :=
  String.join ((records.filter (least ≤ ·.level.severity)).map (·.text ++ "\n"))

end Log

end TapeMachine
