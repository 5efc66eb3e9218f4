import TapeMachine.Assembly.Work

-- Listings made by hand: single operations in any order, also behind failures, and whole
-- compilations among them.
namespace TapeMachine.Assembly

inductive Operation where
  | declare (text : String) (name : Option String)
  | line (text : String)
  | reserve
  | storeTape (cells : List String)
  | callWrite (remark : String)
  | print (text : String)
  | printAddress (label : String) (length : Option Int)
  | exit (status : Int)
  | printer (length : Int)
  | accept (program : Program)
  | compile (program : Program)
  | write (program : Program)

inductive Found where
  | nothing
  | name (name : String)
  | run (run : Run)
  | text (text : String)
  | written (text : String) (flushes : Nat)
  deriving DecidableEq, Repr

def Work.bringing (work : Work α) (found : α → Found) (listing : Listing) :
    Except CompileError Found × Listing :=
  let (outcome,after) := work.on listing
  (outcome.map found,after)

def Work.silently (work : Work Unit) (listing : Listing) : Except CompileError Found × Listing :=
  work.bringing (fun _ => .nothing) listing

def Sizes.perform (sizes : Sizes) (operation : Operation) (listing : Listing) :
    Except CompileError Found × Listing :=
  match operation with
  | .declare text name => (Work.declare text name).bringing .name listing
  | .line text => (Work.emit [.verbatim text]).silently listing
  | .reserve => sizes.reserve.silently listing
  | .storeTape cells => (Work.add (tapeLines cells)).silently listing
  | .callWrite remark => (Work.emit (writeLines remark)).silently listing
  | .print text => (Work.print text).silently listing
  | .printAddress label length =>
    (Work.add (writable (printAddressLines label length))).silently listing
  | .exit status => (Work.add (writable (exitLines status))).silently listing
  | .printer length => (Work.add (writable (printerLines length))).silently listing
  | .accept program => (((sizes.accept program).mapError Refusal.error).map .run,listing)
  | .compile program => (sizes.translate program).bringing .text listing
  | .write program =>
    let (outcome,sink,after) := sizes.deliver program [] listing
    (outcome.map fun _ => .written (emittedText sink) (emittedFlushes sink),after)

def Sizes.performAll (sizes : Sizes) :
    List Operation → Listing → List (Except CompileError Found × Listing)
  | [],_ => []
  | operation :: operations,listing =>
    let outcome := sizes.perform operation listing
    outcome :: sizes.performAll operations outcome.2

end TapeMachine.Assembly
