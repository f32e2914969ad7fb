import ObjectBus.CommandLine.Address
import ObjectBus.CommandLine.System
import ObjectBus.Guest.Basic
import Std.Async.DNS
import Std.Async.TCP
import Std.Sync.CancellationToken

/-!
# Sockets

Listening, connecting, and reading and writing the frames of a connection.
-/

namespace ObjectBus.CommandLine

open Std.Async (Selectable)
open Std.Net (SocketAddress IPAddr)

/-- The end of a connection. -/
abbrev Socket := Std.Async.TCP.Socket.Client

/-- A place where connections are accepted. -/
abbrev Listener := Std.Async.TCP.Socket.Server

/-- The address of a host on a machine. -/
def socketAddress (number : UInt16) : IPAddr → SocketAddress
  | .v4 machine => .v4 ⟨machine, number⟩
  | .v6 machine => .v6 ⟨machine, number⟩

/-- A machine number of 32 bits as the system takes it. -/
def shortAddress (n : UInt32) : IPAddr :=
  let byte (places : UInt32) := (n >>> places).toUInt8
  .v4 (.ofParts (byte 24) (byte 16) (byte 8) (byte 0))

/-- A machine number of 128 bits as the system takes it. -/
def longAddress (n : BitVec 128) : IPAddr :=
  let word (i : Nat) := UInt16.ofBitVec ((n >>> (16 * (7 - i))).setWidth 16)
  .v6 (.ofParts (word 0) (word 1) (word 2) (word 3) (word 4) (word 5) (word 6) (word 7))

/-- Every address that a text stands for. -/
def resolve (text : String) : IO (List SocketAddress) := do
  match Address.ofText? text with
  | .error fault => throw (IO.userError fault.message)
  | .ok ⟨.v4 n, number⟩ => pure [socketAddress number (shortAddress n)]
  | .ok ⟨.v6 n, number⟩ => pure [socketAddress number (longAddress n)]
  | .ok ⟨.named name, number⟩ =>
    -- No machine has an empty name.
    if name.isEmpty then throw (IO.userError ((numberedMessage? 3008).getD ""))
    let found ← (Std.Async.DNS.getAddrInfo name (toString number)).block
    pure (found.toList.map (socketAddress number))

/-- Try something with one address after the other until it works. -/
def tryEach (attempt : SocketAddress → IO α) : List SocketAddress → IO α
  | [] => throw (IO.userError "could not resolve to any addresses")
  | [address] => attempt address
  | address :: rest => try attempt address catch _ => tryEach attempt rest

/-- How many connections may wait to be accepted. -/
def backlog : UInt32 := 1024

/-- Listen on an address. -/
def listen (text : String) : IO Listener := do
  tryEach (fun address => do
    let listener ← Std.Async.TCP.Socket.Server.mk
    listener.bind address
    listener.listen backlog
    pure listener) (← resolve text)

/-- Connect to an address. -/
def connect (text : String) : IO Socket := do
  tryEach (fun address => do
    let socket ← Std.Async.TCP.Socket.Client.mk
    (socket.connect address).block
    socket.noDelay
    pure socket) (← resolve text)

/-- Send frames. -/
def sendFrames (socket : Socket) (ts : List Transmission) : IO Unit := do
  unless ts.isEmpty do
    let bytes := ts.flatMap fun t => Framing.frame t.encode
    (socket.send ⟨bytes.toArray⟩).block

/-- How many bytes are read at once. -/
def chunkSize : UInt64 := 262144

/-- Wait for bytes. Gives none at the end of the stream, and also as soon as reading is no longer
wanted. -/
def receive? (socket : Socket) (unwanted : Std.CancellationToken) : IO (Option ByteArray) := do
  (Selectable.one #[.case (socket.recvSelector chunkSize) pure,
    .case unwanted.selector fun _ => pure none]).block

/-- Take what arrives, behind bytes that have arrived before, for as long as it is wanted. -/
partial def forArrivals (socket : Socket) (unwanted : Std.CancellationToken)
    (take : Arrival → IO Bool) (bytes : List UInt8) : IO Unit := do
  match Framing.head bytes with
  | .frame body rest =>
    if ← take ((Transmission.decode body).mapError .codec) then
      forArrivals socket unwanted take rest
  | .ended .oversized => discard (take (.error Framing.oversizedError))
  | .ended unfinished =>
    match ← attempt (receive? socket unwanted) with
    | .ok (some more) => forArrivals socket unwanted take (bytes ++ more.toList)
    | .ok none =>
      unless ← unwanted.isCancelled do
        let truncated := unfinished = .truncated
        discard (take (.error (if truncated then Framing.truncatedError else .closed)))
    | .error e => discard (take (.error (.io (systemMessage e))))

end ObjectBus.CommandLine
