import Zape.Zig.Sha1

/-! The key an upgrade response has to show. -/
namespace ZapeModel

open Machine Zig

def wsGuid : List Byte := text "258EAFA5-E914-47DA-95CA-C5AB0DC85B11"

def wsHardcodedHeader : List Byte :=
  text "HTTP/1.1 101 Switching Protocols\r\nUpgrade: websocket\r\nConnection: Upgrade\r\n"

inductive AcceptError
  | keyTooLong
  | outOfMemory
  deriving DecidableEq, Repr

/-- `appendSliceBounded` on a list that lives in a buffer of fixed size. -/
def appendSliceBounded (capacity : Nat) (items slice : List Byte) : Except AcceptError (List Byte) :=
  if capacity - items.length < slice.length then .error .outOfMemory else .ok (items ++ slice)

def getSha1AcceptKey (key : List Byte) : Except AcceptError (List Byte) := do
  if key.length > 32 then throw .keyTooLong
  let buffer ← appendSliceBounded 64 [] key
  let buffer ← appendSliceBounded 64 buffer wsGuid
  pure (Sha1.hash buffer)

def getB64AcceptKey (key : List Byte) : Except AcceptError (List Byte) := do
  let shaHash ← getSha1AcceptKey key
  pure (Base64.encode shaHash)

end ZapeModel
