import ObjectBus.Protocol.Transmission
import ObjectBus.Wire.Schema

/-!
# Transmissions on the wire

A frame is the number of the format's version, of which there is one so far, and a
transmission. Main operations: `Transmission.encode` and `Transmission.decode`; what follows
the transmission in a frame is passed over.
-/

namespace ObjectBus

namespace Wire

instance : Wire MemberEvent where
  write
    | .join => [0]
    | .leave => [1]
    | .kill => [2]
  read := do
    match ← readNat 32 with
    | 0 => pure .join
    | 1 => pure .leave
    | 2 => pure .kill
    | _ => throw .badContent

/-- The bytes of a control message. -/
def writeControl : ControlMessage → List UInt8
  | .hello serverName challenge required =>
    0 :: (write serverName ++ write challenge ++ write required)
  | .connect clientName preload finished =>
    1 :: (write clientName ++ write preload ++ write finished)
  | .connectResponse serverName clientId accepted preload finished =>
    2 :: (write serverName ++ write clientId ++ write accepted ++ write preload ++ write finished)
  | .member groupName event => 3 :: (write groupName ++ write event)
  | .descriptorRequest whitelist blacklist => 4 :: (write whitelist ++ write blacklist)
  | .clearCache typeNames => 5 :: write typeNames
  | .cacheInfo typeName endTransmission endDescriptorRequest =>
    6 :: (write typeName ++ write endTransmission ++ write endDescriptorRequest)
  | .error code text => 7 :: (write code ++ write text)
  | .structSchema schema => 8 :: write schema
  | .enumSchema schema => 9 :: write schema

/-- Read a control message. -/
def readControl : Decoder ControlMessage := do
  match ← readNat 32 with
  | 0 => do
    let serverName ← read
    let challenge ← read
    let required ← read
    pure (.hello serverName challenge required)
  | 1 => do
    let clientName ← read
    let preload ← read
    let finished ← read
    pure (.connect clientName preload finished)
  | 2 => do
    let serverName ← read
    let clientId ← read
    let accepted ← read
    let preload ← read
    let finished ← read
    pure (.connectResponse serverName clientId accepted preload finished)
  | 3 => do
    let groupName ← read
    let event ← read
    pure (.member groupName event)
  | 4 => do
    let whitelist ← read
    let blacklist ← read
    pure (.descriptorRequest whitelist blacklist)
  | 5 => .clearCache <$> read
  | 6 => do
    let typeName ← read
    let endTransmission ← read
    let endDescriptorRequest ← read
    pure (.cacheInfo typeName endTransmission endDescriptorRequest)
  | 7 => do
    let code ← read
    let text ← read
    pure (.error code text)
  | 8 => .structSchema <$> read
  | 9 => .enumSchema <$> read
  | _ => throw .badContent

instance : Wire ControlMessage where
  write := writeControl
  read := readControl

instance : Wire Header where
  write h :=
    write h.typeName ++ write h.sender ++ write h.sentTime ++ write h.serverSentTime ++
      write h.attributes ++ write h.remove ++ write h.fromCache ++ write h.destinationGroup ++
      write h.nameSpace ++ write h.isFromMyself
  read := do
    let typeName ← read
    let sender ← read
    let sentTime ← read
    let serverSentTime ← read
    let attributes ← read
    let remove ← read
    let fromCache ← read
    let destinationGroup ← read
    let nameSpace ← read
    let isFromMyself ← read
    pure { typeName, sender, sentTime, serverSentTime, attributes, remove, fromCache,
           destinationGroup, nameSpace, isFromMyself }

instance : Wire Payload where
  write
    | .object o => 0 :: write o
    | .control message => 1 :: write message
  read := do
    match ← readNat 32 with
    | 0 => .object <$> read
    | 1 => .control <$> read
    | _ => throw .badContent

instance : Wire Transmission where
  write t := write t.header ++ write t.payload
  read := do
    let header ← read
    let payload ← read
    pure ⟨header, payload⟩

end Wire

namespace Transmission

/-- The number of the version of the format. -/
def formatVersion : Nat := 1

/-- The frame of a transmission. -/
def encode (t : Transmission) : List UInt8 := 0 :: Wire.write t

/-- Read a frame after the number of its version. -/
def readFrame : Decoder Transmission := do
  match ← Wire.readNat 32 with
  | 0 => Wire.read
  | _ => throw .badContent

/-- The transmission of a frame. -/
def decode (frame : List UInt8) : Except DecodeError Transmission :=
  (readFrame.run frame).map (·.1)

end Transmission

end ObjectBus
