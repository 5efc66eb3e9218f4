import TapeMachine.Token.Cursor

-- Text read by hand: single operations in any order.
namespace TapeMachine.Cursor

inductive Operation where
  | next
  | peek
  | position
  | exhausted
  | remaining
  deriving DecidableEq, Repr

inductive Found where
  | token (token : Token)
  | position (position : Position)
  | exhausted (ended : Bool)
  | tokens (tokens : List Token)
  deriving DecidableEq, Repr

def perform (operation : Operation) (cursor : Cursor) : Found × Cursor :=
  match operation with
  | .next => (.token cursor.token.1,cursor.token.2)
  | .peek => (.token cursor.token.1,cursor)
  | .position => (.position cursor.position,cursor)
  | .exhausted => (.exhausted cursor.exhausted,cursor)
  | .remaining => (.tokens cursor.tokens.1,cursor.tokens.2)

def performAll : List Operation → Cursor → List (Found × Cursor)
  | [],_ => []
  | operation :: operations,cursor =>
    let outcome := cursor.perform operation
    outcome :: performAll operations outcome.2

end TapeMachine.Cursor
