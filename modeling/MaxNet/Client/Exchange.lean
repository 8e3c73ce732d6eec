import MaxNet.Client.Output
import MaxNet.Session.Delivery

namespace MaxNet

namespace WebsocketClient

variable {E M X : Type} [DecidableEq E] [DecidableEq M] {p : Protobuf}

/-- What a message that was built is shown as at the other end: a text message arrives without its bytes. -/
def shown (p : Protobuf) (X : Type) (binary : Bool) (built : MaxMessage) : List Atom :=
  if binary then built.getAtoms else atoms (p.parser X) []

end WebsocketClient

end MaxNet
