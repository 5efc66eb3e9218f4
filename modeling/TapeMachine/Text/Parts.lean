-- Text taken apart at a mark, and text with more behind it.
namespace TapeMachine.Text

-- The parts between the marks, empty ones as well: always one more than there are marks.
def partsAt (mark : Char) : List Char → List (List Char)
  | [] => [[]]
  | c :: rest =>
    if c = mark then [] :: partsAt mark rest
    else match partsAt mark rest with
    | part :: parts => (c :: part) :: parts
    | [] => [[c]]

theorem toList_pushn (text : String) (c : Char) (count : Nat) :
    (text.pushn c count).toList = text.toList ++ List.replicate count c := by
  rw [String.pushn_eq_repeat_push]
  induction count with
  | zero => rw [Nat.repeat,List.replicate_zero,List.append_nil]
  | succ count ih =>
    rw [Nat.repeat,String.toList_push,ih,List.append_assoc,← List.replicate_succ']

end TapeMachine.Text
