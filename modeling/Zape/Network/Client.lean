import Zape.Machine.Bytes

/-! What a connection asks of its transport socket. -/
namespace ZapeModel

open Machine

inductive ShutdownAction
  | queue
  | now
  deriving DecidableEq, Repr

inductive DataLifetime
  | static
  | own
  | copy
  deriving DecidableEq, Repr

/-- The calls that reach `apenetwork.Client`. -/
inductive TransportCall
  | write (data : List Byte) (lifetime : DataLifetime)
  | tcpBufferStart
  | tcpBufferEnd
  | close (action : ShutdownAction)
  deriving DecidableEq, Repr

end ZapeModel
