import TapeMachine.Yaml.Node
import TapeMachine.Yaml.Reader
import TapeMachine.Yaml.Token.Layout

-- A reader of plain documents: of what stands in them by itself, without anchors, tags or blocks
-- of text.
namespace TapeMachine.Yaml

namespace Node

-- A mapping's entries with those of the mappings that it takes in. Taken entries come first,
-- so that the mapping's own ones replace them, and a list's earlier mappings its later ones.
-- There are none if something is to be taken in that is no mapping.
def mergeInto (own taken : List (Node × Node)) :
    List (Node × Node) → Option (List (Node × Node))
  | [] => some (taken.reverse ++ own.reverse)
  | (.scalar (.plain "<<"),.map entries) :: rest => mergeInto own (entries.reverse ++ taken) rest
  | (.scalar (.plain "<<"),.list items) :: rest => do
    let entries ← items.reverse.mapM fun item => match item with
      | .map entries => some entries
      | _ => none
    mergeInto own (entries.flatten.reverse ++ taken) rest
  | (.scalar (.plain "<<"),_) :: _ => none
  | entry :: rest => mergeInto (entry :: own) taken rest

mutual

def merged : Node → Node
  | .scalar content => .scalar content
  | .list items => .list (mergedItems items)
  | .map entries =>
    match mergeInto [] [] (mergedEntries entries) with
    | some entries => .map entries
    | none => .unmergeable
  | .unmergeable => .unmergeable

def mergedItems : List Node → List Node
  | [] => []
  | item :: items => merged item :: mergedItems items

def mergedEntries : List (Node × Node) → List (Node × Node)
  | [] => []
  | (key,value) :: entries => (merged key,merged value) :: mergedEntries entries

end

abbrev Faults := List (Nat × Fault)

def scalarValue (depth : Nat) (isKey : Bool) : Content → Value × Faults
  | .plain text =>
    match Meaning.ofPlain text with
    | .error fault => (.null,[(depth,fault)])
    | .ok (.value value) => (value,[])
    | .ok .defaultKey => if isKey then (.text text,[]) else (.null,[(depth,.malformed)])
    | .ok .mergeKey => (.null,[(depth,.malformed)])
  | .quoted text => (.text text,[])
  | .quotedNumbers numbers => (.rawText numbers,[])

mutual

def value (depth : Nat) : Node → Value × Faults
  | .scalar content => scalarValue depth false content
  | .list items =>
    let (values,faults) := itemValues (depth+1) items
    (.list values,faults)
  | .map entries =>
    let (values,faults) := entryValues (depth+1) [] entries
    (.map values,faults)
  | .unmergeable => (.null,[(depth+1,.malformed)])

def itemValues (depth : Nat) : List Node → List Value × Faults
  | [] => ([],[])
  | item :: items =>
    let (first,faults) := value depth item
    let (others,more) := itemValues depth items
    (first :: others,faults ++ more)

def entryValues (depth : Nat) (before : List (Value × Value)) :
    List (Node × Node) → List (Value × Value) × Faults
  | [] => (before,[])
  | (.scalar content,node) :: entries =>
    let (key,faults) := scalarValue depth true content
    let (found,more) := value depth node
    let (values,others) := entryValues depth (Value.put before key found) entries
    (values,faults ++ more ++ others)
  | _ :: _ => (before,[(depth,.malformed)])

end

-- Of several faults the least deep one counts, and among those as deep the first one.
def firstFault? (faults : Faults) : Option Fault :=
  let depth := faults.foldl (fun least (depth,_) => min least depth) ((faults.head?.map (·.1)).getD 0)
  faults.lookup depth

end Node

def Value.ofBytes (room : Nat) (bytes : List UInt8) : Except Fault Value := do
  let some node ← Node.ofTokens room (Token.read (.ofBytes bytes)) | return .null
  let (value,faults) := node.merged.value 0
  match Node.firstFault? faults with
  | some fault => .error fault
  | none => return value

def Fault.readError : Fault → ReadError
  | malformed => .malformed malformed.message
  | fault => .broken fault.message

def plainReader (room : Nat) : Reader := fun bytes =>
  (Value.ofBytes room bytes).mapError Fault.readError

end TapeMachine.Yaml
