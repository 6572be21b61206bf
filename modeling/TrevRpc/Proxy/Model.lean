import Mathlib.Data.Vector.Defs
import TrevRpc.Rust.Framing

/-!
# The PROXY protocol (`proxy_protocol.rs`, `proxy_protocol.go` and `proxy_protocol_udp.go`)

The address of a client in front of a connection, as text or in binary, or of a datagram, in binary. Rust parses a
buffer again whenever it has grown; Go peeks and reads.
-/

open TrevRpc.Rust

namespace TrevRpc.Proxy

/-! ## Addresses and text -/

inductive Addr
  | v4 (octets : List.Vector UInt8 4)
  | v6 (octets : List.Vector UInt8 16)
  deriving DecidableEq

/-- An address and a port. -/
abbrev Source := Addr × Nat

def Addr.unmap : Addr → Addr
  | .v4 octets => .v4 octets
  | .v6 octets =>
    if octets.toList.take 12 = [0, 0, 0, 0, 0, 0, 0, 0, 0, 0, 0xff, 0xff] then
      .v4 ⟨octets.toList.drop 12, by simp⟩
    else .v6 octets

def Addr.isV4 : Addr → Bool
  | .v4 _ => true
  | .v6 _ => false

def ascii (text : String) : Bytes := text.toList.map fun c => UInt8.ofNat c.toNat

/-- The parsers of the standard libraries, which accept the same forms. `ParseAddr` also returns a zone. -/
structure AddressText where
  ipv4 : Bytes → Option (List.Vector UInt8 4)
  ipv6 : Bytes → Option (List.Vector UInt8 16)
  parseAddr : Bytes → Option (Addr × Bytes)
  parseAddr_v4 : ∀ text a, parseAddr text = some (.v4 a, []) ↔ ipv4 text = some a
  parseAddr_v6 : ∀ text a, parseAddr text = some (.v6 a, []) ↔ ipv6 text = some a
  ipv4_ascii : ∀ text a, ipv4 text = some a → ∀ byte ∈ text, 0x20 < byte ∧ byte < 0x7f
  ipv6_ascii : ∀ text a, ipv6 text = some a → ∀ byte ∈ text, 0x20 < byte ∧ byte < 0x7f

def isAsciiDigit (byte : UInt8) : Bool := 0x30 ≤ byte && byte ≤ 0x39

def parseDecimal (max : Nat) : Nat → Bytes → Option Nat
  | n, [] => some n
  | n, digit :: rest =>
    if isAsciiDigit digit then
      let n := n * 10 + (digit.toNat - 0x30)
      if n ≤ max then parseDecimal max n rest else none
    else none

def v1Prefix : Bytes := ascii "PROXY "
def v2Signature : Bytes := [0x0d, 0x0a, 0x0d, 0x0a, 0x00, 0x0d, 0x0a] ++ ascii "QUIT" ++ [0x0a]
def v1MaxLen : Nat := 107
def v2HeaderLen : Nat := 16

inductive Transport
  | stream
  | datagram
  deriving DecidableEq

def Transport.code : Transport → UInt8
  | .stream => 1
  | .datagram => 2

def bigEndian (high low : UInt8) : Nat := high.toNat * 256 + low.toNat

/-! ## Rust -/

namespace Rust

inductive Parsed
  | incomplete (atLeast : Nat)
  | complete (source : Option Source) (len : Nat)
  deriving DecidableEq

def isContinuation (byte : UInt8) : Bool := 0x80 ≤ byte && byte ≤ 0xbf

/-- `str::from_utf8` accepts the bytes. -/
def validUtf8 : Bytes → Bool
  | [] => true
  | a :: rest =>
    if a < 0x80 then validUtf8 rest
    else
      match rest with
      | [] => false
      | b :: rest =>
        if 0xc2 ≤ a && a ≤ 0xdf then isContinuation b && validUtf8 rest
        else
          match rest with
          | [] => false
          | c :: rest =>
            if 0xe0 ≤ a && a ≤ 0xef then
              isContinuation b && isContinuation c && (a != 0xe0 || 0xa0 ≤ b) && (a != 0xed || b ≤ 0x9f) &&
                validUtf8 rest
            else
              match rest with
              | [] => false
              | d :: rest =>
                0xf0 ≤ a && a ≤ 0xf4 && isContinuation b && isContinuation c && isContinuation d &&
                  (a != 0xf0 || 0x90 ≤ b) && (a != 0xf4 || b ≤ 0x8f) && validUtf8 rest

/-- Where the first CRLF is. -/
def findCrlf : Bytes → Option Nat
  | [] => none
  | [_] => none
  | a :: b :: rest => if a = 0x0d ∧ b = 0x0a then some 0 else (findCrlf (b :: rest)).map (· + 1)

/-- The next field, as an address. -/
def address {α : Type} (parse : Bytes → Option α) : List Bytes → Except String (α × List Bytes)
  | [] => .error "PROXY v1 header has an invalid address"
  | field :: fields =>
    match parse field with
    | some a => .ok (a, fields)
    | none => .error "PROXY v1 header has an invalid address"

def port : List Bytes → Except String (Nat × List Bytes)
  | [] => .error "PROXY v1 header has an invalid port"
  | field :: fields =>
    if field ≠ [] ∧ field.all isAsciiDigit ∧ (field.length = 1 ∨ field.head? ≠ some 0x30) then
      match parseDecimal 65535 0 field with
      | some port => .ok (port, fields)
      | none => .error "PROXY v1 header has an invalid port"
    else .error "PROXY v1 header has an invalid port"

def parseV1Addresses {α : Type} (parse : Bytes → Option α) (fields : List Bytes) : Except String (α × Nat) := do
  let (source, fields) ← address parse fields
  let (_, fields) ← address parse fields
  let (sourcePort, fields) ← port fields
  let (_, fields) ← port fields
  if fields = [] then return (source, sourcePort) else throw "PROXY v1 header has extra fields"

variable (text : AddressText)

/-- The source of a version 1 line. -/
def parseV1Line (line : Bytes) : Except String (Option Source) :=
  match (line.splitOn 0x20).drop 1 with
  | [] => .error "PROXY v1 header has an unknown protocol"
  | protocol :: fields =>
    if protocol = ascii "UNKNOWN" then .ok none
    else if protocol = ascii "TCP4" then
      (parseV1Addresses text.ipv4 fields).map fun (a, port) => some (.v4 a, port)
    else if protocol = ascii "TCP6" then
      (parseV1Addresses text.ipv6 fields).map fun (a, port) => some (.v6 a, port)
    else .error "PROXY v1 header has an unknown protocol"

def parseV1 (buf : Bytes) : Except String Parsed :=
  let searched := buf.take v1MaxLen
  match findCrlf searched with
  | none =>
    if v1MaxLen ≤ buf.length then .error "PROXY v1 header is too long" else .ok (.incomplete (buf.length + 1))
  | some stop =>
    let line := searched.take stop
    if validUtf8 line then (parseV1Line text line).map fun source => .complete source (stop + 2)
    else .error "PROXY v1 header is not ASCII"

def parseV2Source (family : UInt8) (addresses : Bytes) : Except String (Option Source) :=
  match (family >>> 4).toNat with
  | 1 =>
    match addresses.take 12 with
    | [a, b, c, d, _, _, _, _, portHigh, portLow, _, _] =>
      .ok (some (.v4 ⟨[a, b, c, d], rfl⟩, bigEndian portHigh portLow))
    | _ => .error "PROXY v2 IPv4 address block is too short"
  | 2 =>
    if h : 36 ≤ addresses.length then
      match (addresses.drop 32).take 2 with
      | [portHigh, portLow] => .ok (some (.v6 ⟨addresses.take 16, by simp; omega⟩, bigEndian portHigh portLow))
      | _ => .error "PROXY v2 IPv6 address block is too short"
    else .error "PROXY v2 IPv6 address block is too short"
  -- Unix sockets or unspecified.
  | _ => .ok none

/-- Parses a version 2 header that arrived over `transport`. Its TLVs are skipped. -/
def parseV2 (buf : Bytes) (transport : Transport) : Except String Parsed :=
  match (buf.drop 12).take 4 with
  | [versionCommand, family, lenHigh, lenLow] =>
    if versionCommand >>> 4 ≠ 2 then .error "PROXY v2 header has an unknown version"
    else if 1 < versionCommand &&& 0x0f then .error "PROXY v2 header has an unknown command"
    else
      let len := v2HeaderLen + bigEndian lenHigh lenLow
      if buf.length < len then .ok (.incomplete len)
      else if versionCommand &&& 0x0f = 0 then .ok (.complete none len)
      else if family &&& 0x0f ≠ transport.code then .ok (.complete none len)
      else (parseV2Source family ((buf.take len).drop v2HeaderLen)).map fun source => .complete source len
  | _ => .ok (.incomplete v2HeaderLen)

def parse (buf : Bytes) : Except String Parsed :=
  if v2Signature <+: buf then parseV2 buf .stream
  else if v1Prefix <+: buf then parseV1 text buf
  else if buf <+: v2Signature ∨ buf <+: v1Prefix then .ok (.incomplete (buf.length + 1))
  else .error "connection from a trusted proxy does not start with a PROXY header"

inductive ReadError
  | invalidData (message : String)
  | unexpectedEof

/-- `read_header` after `buf`: the source, what is past the header, and the reads left. An empty read is the end. -/
def readHeader (buf : Bytes) : List Bytes → Except ReadError (Option Source × Bytes × List Bytes)
  | [] =>
    match parse text buf with
    | .error message => .error (.invalidData message)
    | .ok (.complete source len) => .ok (source, buf.drop len, [])
    | .ok (.incomplete _) => .error .unexpectedEof
  | chunk :: chunks =>
    match parse text buf with
    | .error message => .error (.invalidData message)
    | .ok (.complete source len) => .ok (source, buf.drop len, chunk :: chunks)
    | .ok (.incomplete _) => if chunk = [] then .error .unexpectedEof else readHeader (buf ++ chunk) chunks

def parseDatagram (datagram : Bytes) : Except String (Option Source × Nat) :=
  if v2Signature <+: datagram then
    match parseV2 datagram .datagram with
    | .error message => .error message
    | .ok (.complete source len) => .ok (source, len)
    | .ok (.incomplete _) => .error "PROXY v2 header is longer than its datagram"
  else .error "datagram from a trusted proxy does not start with a PROXY v2 header"

end Rust

/-! ## Go -/

namespace Go

def proxyReadBuffer : Nat := 256

inductive Error
  | proxyHeader
  | bufferFull
  | eof
  deriving DecidableEq

def peek (n : Nat) (bytes : Bytes) : Except Error Bytes :=
  if n ≤ bytes.length then .ok (bytes.take n) else .error .eof

/-- `Reader.ReadSlice` of unread bytes: up to the delimiter, or before an error. -/
def readSlice (delim : UInt8) (bytes : Bytes) : Bytes × Option Error :=
  match (bytes.take proxyReadBuffer).findIdx? (· = delim) with
  | some i => (bytes.take (i + 1), none)
  | none =>
    if proxyReadBuffer ≤ bytes.length then (bytes.take proxyReadBuffer, some .bufferFull) else (bytes, some .eof)

def parseProxyPort (text : Bytes) : Option Nat :=
  match text with
  | [] => none
  | first :: _ =>
    if first < 0x30 ∨ 0x39 < first ∨ 1 < text.length ∧ first = 0x30 then none else parseDecimal 65535 0 text

def unmapAddrPort (source : Source) : Source := (source.1.unmap, source.2)

variable (text : AddressText)

def parseProxyV1 (line : Bytes) : Except Error (Option Source) :=
  let fields := line.splitOn 0x20
  if fields[1]? = some (ascii "UNKNOWN") then .ok none
  else
    match fields with
    | [_, protocol, source, destination, sourcePort, destinationPort] =>
      if protocol ≠ ascii "TCP4" ∧ protocol ≠ ascii "TCP6" then .error .proxyHeader
      else
        match text.parseAddr source, text.parseAddr destination, parseProxyPort sourcePort,
          parseProxyPort destinationPort with
        | some (source, sourceZone), some (destination, destinationZone), some sourcePort, some _ =>
          if sourceZone ≠ [] ∨ destinationZone ≠ [] ∨ source.isV4 ≠ decide (protocol = ascii "TCP4") ∨
              destination.isV4 ≠ source.isV4 then .error .proxyHeader
          else .ok (some (unmapAddrPort (source, sourcePort)))
        | _, _, _, _ => .error .proxyHeader
    | _ => .error .proxyHeader

/-- The source, and the bytes after the line. -/
def readProxyV1 (bytes : Bytes) : Except Error (Option Source × Bytes) :=
  let (line, err) := readSlice 0x0a bytes
  if err = some .bufferFull ∨ v1MaxLen < line.length then .error .proxyHeader
  else
    match err with
    | some err => .error err
    | none =>
      if [0x0d, 0x0a] <:+ line then
        (parseProxyV1 text (line.take (line.length - 2))).map fun source => (source, bytes.drop line.length)
      else .error .proxyHeader

/-- The length of the address block, 0 if there is none, and of the header. -/
def parseProxyV2Fixed (header : Bytes) (transport : Transport) : Except Error (Nat × Nat) :=
  if header.length < v2HeaderLen then .error .proxyHeader
  else
    match header.drop 12 with
    | versionCommand :: family :: lenHigh :: lenLow :: _ =>
      if header.take 12 ≠ v2Signature ∨ versionCommand >>> 4 ≠ 2 then .error .proxyHeader
      else
        let command := versionCommand &&& 0x0f
        let length := v2HeaderLen + bigEndian lenHigh lenLow
        if 1 < command then .error .proxyHeader
        else
          let addressLength :=
            if command = 1 ∧ family = 0x10 ||| transport.code then 12
            else if command = 1 ∧ family = 0x20 ||| transport.code then 36
            else 0
          if length < v2HeaderLen + addressLength then .error .proxyHeader else .ok (addressLength, length)
    | _ => .error .proxyHeader

def proxyV2Source (addresses : Bytes) : Option Source :=
  if h : 36 ≤ addresses.length then
    match addresses.drop 32 with
    | portHigh :: portLow :: _ =>
      some (unmapAddrPort (.v6 ⟨addresses.take 16, by simp; omega⟩, bigEndian portHigh portLow))
    | _ => none
  else
    match addresses with
    | a :: b :: c :: d :: _ :: _ :: _ :: _ :: portHigh :: portLow :: _ =>
      some (unmapAddrPort (.v4 ⟨[a, b, c, d], rfl⟩, bigEndian portHigh portLow))
    | _ => none

def readProxyV2 (bytes : Bytes) : Except Error (Option Source × Bytes) := do
  let header ← peek v2HeaderLen bytes
  let (addressLength, length) ← parseProxyV2Fixed header .stream
  let source ←
    if 0 < addressLength then
      (peek (v2HeaderLen + addressLength) bytes).map fun block => proxyV2Source (block.drop v2HeaderLen)
    else .ok none
  if length ≤ bytes.length then return (source, bytes.drop length) else throw .eof

def readProxyHeader (bytes : Bytes) : Except Error (Option Source × Bytes) :=
  match peek v1Prefix.length bytes with
  | .error err => .error err
  | .ok start =>
    if start = v1Prefix then readProxyV1 text bytes
    else if start = v2Signature.take v1Prefix.length then readProxyV2 bytes
    else .error .proxyHeader

def parseProxyV2Datagram (b : Bytes) : Except Error (Option Source × Nat) := do
  let (addressLength, length) ← parseProxyV2Fixed b .datagram
  if b.length < length then throw .proxyHeader
  let source := if 0 < addressLength then proxyV2Source ((b.take (v2HeaderLen + addressLength)).drop v2HeaderLen)
    else none
  return (source, length)

end Go

end TrevRpc.Proxy
