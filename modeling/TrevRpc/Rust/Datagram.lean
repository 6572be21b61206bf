import TrevRpc.Rust.Framing

/-!
# Messages as datagrams (the sending half of `datagram.rs`)
-/

namespace TrevRpc.Rust

variable {Dict Stream : Type}

structure FlowSender (Dict : Type) where
  headerLen : Nat
  maxFrameSize : Nat
  compress : Option Dict

def messageFrameLen (payloadLen : Nat) : Nat := payloadLen + Varint.encodedLen payloadLen + 1

/-- The datagram being packed, what goes on the stream, what was sent, and the answers to come. -/
structure Packing where
  datagramLen : Nat := 0
  packed : List Bytes := []
  onStream : List Bytes := []
  sent : List (List Bytes) := []
  accepted : List Bool

def Packing.flush (p : Packing) : Packing :=
  if p.accepted.headD false then
    { p with datagramLen := 0, packed := [], sent := p.sent ++ [p.packed], accepted := p.accepted.tail }
  else { p with datagramLen := 0, packed := [], onStream := p.onStream ++ p.packed, accepted := p.accepted.tail }

def FlowSender.pack (wire : Wire Dict Stream) (sender : FlowSender Dict) (maxSize : Option Nat)
    (p : Packing) (message : Bytes) : Packing :=
  let payload := (sender.compress.bind fun dict => wire.compress dict message).getD message
  let frame := messageFrameLen payload.length
  match maxSize.filter fun max => message.length ≤ sender.maxFrameSize && sender.headerLen + frame ≤ max with
  | none => { p with onStream := p.onStream ++ [message] }
  | some max =>
    let p := if !p.packed.isEmpty && p.datagramLen + frame > max then p.flush else p
    let datagramLen := if p.packed.isEmpty then sender.headerLen else p.datagramLen
    { p with datagramLen := datagramLen + frame, packed := p.packed ++ [message] }

def FlowSender.sendBatch (wire : Wire Dict Stream) (sender : FlowSender Dict) (maxSize : Option Nat)
    (accepted : List Bool) (batch : List Bytes) : Packing :=
  let p := batch.foldl (sender.pack wire maxSize) { accepted }
  if p.packed.isEmpty then p else p.flush

end TrevRpc.Rust
