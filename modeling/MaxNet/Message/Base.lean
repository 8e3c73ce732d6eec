import Mathlib.Data.List.Basic

namespace MaxNet

/-- `proto_message_base::from_const_buffers`: appends the buffers of a binary message, piece by piece,
    to the bytes `data` the message holds. A text message is left alone. -/
def fromConstBuffers (buffers : List (List UInt8)) (data : List UInt8) (text : Bool) : List UInt8 :=
  if !text then buffers.foldl (fun data buffer => data ++ buffer) data else data

theorem foldl_append_flatten (buffers : List (List UInt8)) (data : List UInt8) :
    buffers.foldl (fun data buffer => data ++ buffer) data = data ++ buffers.flatten := by
  induction buffers generalizing data with
  | nil => simp
  | cons buffer buffers ih => simp [ih]

theorem fromConstBuffers_binary (buffers : List (List UInt8)) (data : List UInt8) :
    fromConstBuffers buffers data false = data ++ buffers.flatten := by
  simp [fromConstBuffers, foldl_append_flatten]

theorem fromConstBuffers_text (buffers : List (List UInt8)) (data : List UInt8) :
    fromConstBuffers buffers data true = data := by
  simp [fromConstBuffers]

end MaxNet
