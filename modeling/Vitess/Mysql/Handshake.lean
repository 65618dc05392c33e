import Vitess.Mysql.Encoding

/-!
# The server's parse of the client's handshake response

`Listener.parseClientHandshakePacket` and `parseConnAttrs` of `go/mysql/server.go`:
the packet a client sends before it has authenticated, read field after field
with the helpers of `go/mysql/encoding.go`. The parse sets the connection's
capabilities and character set, may switch the connection to TLS, and returns the
username, the auth method and the auth response.

The connection is the four fields the parse writes (`HandshakeConn`), and whether
the listener has a TLS configuration is a parameter. The parse returns the
connection and either an error or the three values; a Go panic is the outer
`Except RuntimeError`.

After the character set the parse moves `pos` on by 23 with no check. A packet of
9 to 31 bytes with `CLIENT_PROTOCOL_41` set then reaches `readNullString` at a
position past its end, and the slice `data[pos:]` there panics
(`parseClientHandshakePacket_of_short`). With `CLIENT_PLUGIN_AUTH_LENENC_CLIENT_DATA`
the auth response's length is a length-encoded integer, and a length of `2^63` or
more gives `make` a negative size (`parseClientHandshakePacket_of_large_auth`).
-/

namespace Vitess.Mysql

open Vitess.Go

/-! ### Capability flags and errors -/

/-- `CapabilityClientFoundRows`. -/
def capabilityClientFoundRows : ℕ := 1 <<< 1

/-- `CapabilityClientConnectWithDB`. -/
def capabilityClientConnectWithDB : ℕ := 1 <<< 3

/-- `CapabilityClientProtocol41`. -/
def capabilityClientProtocol41 : ℕ := 1 <<< 9

/-- `CapabilityClientSSL`. -/
def capabilityClientSSL : ℕ := 1 <<< 11

/-- `CapabilityClientSecureConnection`. -/
def capabilityClientSecureConnection : ℕ := 1 <<< 15

/-- `CapabilityClientMultiStatements`. -/
def capabilityClientMultiStatements : ℕ := 1 <<< 16

/-- `CapabilityClientPluginAuth`. -/
def capabilityClientPluginAuth : ℕ := 1 <<< 19

/-- `CapabilityClientConnAttr`. -/
def capabilityClientConnAttr : ℕ := 1 <<< 20

/-- `CapabilityClientPluginAuthLenencClientData`. -/
def capabilityClientPluginAuthLenencClientData : ℕ := 1 <<< 21

/-- `CapabilityClientDeprecateEOF`. -/
def capabilityClientDeprecateEOF : ℕ := 1 <<< 24

/-- The bytes of `MysqlNativePassword`, `"mysql_native_password"`. -/
def mysqlNativePassword : List UInt8 :=
  [109, 121, 115, 113, 108, 95, 110, 97, 116, 105, 118, 101, 95, 112, 97, 115, 115, 119, 111, 114, 100]

/-- The errors of `parseClientHandshakePacket` and `parseConnAttrs`, all
`vtrpc.Code_INTERNAL`, with their texts in `HandshakeError.message`. -/
inductive HandshakeError where
  | cantReadClientFlags
  | onlyProtocol41
  | cantReadMaxPacketSize
  | cantReadCharacterSet
  | cantReadUsername
  | cantReadAuthResponseVariableLength
  | cantReadAuthResponseLength
  | cantReadAuthResponse
  | cantReadDbname
  | cantReadAuthMethod
  | cantReadConnAttrsLength
  | cantReadConnAttrKeyLength
  | cantReadConnAttrKey
  | cantReadConnAttrValueLength
  | cantReadConnAttrValue
  deriving DecidableEq, Repr

/-- The text of each error. -/
def HandshakeError.message : HandshakeError → String
  | .cantReadClientFlags => "parseClientHandshakePacket: can't read client flags"
  | .onlyProtocol41 => "parseClientHandshakePacket: only support protocol 4.1"
  | .cantReadMaxPacketSize => "parseClientHandshakePacket: can't read maxPacketSize"
  | .cantReadCharacterSet => "parseClientHandshakePacket: can't read characterSet"
  | .cantReadUsername => "parseClientHandshakePacket: can't read username"
  | .cantReadAuthResponseVariableLength =>
    "parseClientHandshakePacket: can't read auth-response variable length"
  | .cantReadAuthResponseLength => "parseClientHandshakePacket: can't read auth-response length"
  | .cantReadAuthResponse => "parseClientHandshakePacket: can't read auth-response"
  | .cantReadDbname => "parseClientHandshakePacket: can't read dbname"
  | .cantReadAuthMethod => "parseClientHandshakePacket: can't read authMethod"
  | .cantReadConnAttrsLength =>
    "parseClientHandshakePacket: can't read connection attributes variable length"
  | .cantReadConnAttrKeyLength => "parseClientHandshakePacket: can't read connection attribute key length"
  | .cantReadConnAttrKey => "parseClientHandshakePacket: can't read connection attribute key"
  | .cantReadConnAttrValueLength =>
    "parseClientHandshakePacket: can't read connection attribute value length"
  | .cantReadConnAttrValue => "parseClientHandshakePacket: can't read connection attribute value"

/-! ### Connection attributes -/

-- the names of the reads are used only by the termination proof
set_option linter.unusedVariables false in
/-- The loop of `parseConnAttrs`: while `attrLenRead < attrLen`, a key and a value,
each a one-byte length and that many bytes. `attrLenRead` is a `uint64`. The map
is the list of its assignments in order. -/
def parseConnAttrsLoop (data : List UInt8) (attrLen attrLenRead : ℕ) (pos : ℤ)
    (attrs : List (List UInt8 × List UInt8)) :
    Except RuntimeError (Except HandshakeError (List (List UInt8 × List UInt8) × ℤ)) :=
  if attrLenRead < attrLen then
    match keyLength : readByte data pos with
    | .error e => .error e
    | .ok (_, _, false) => .ok (.error .cantReadConnAttrKeyLength)
    | .ok (keyLen, pos1, true) =>
      let attrLenRead := (attrLenRead + keyLen.toNat + 1) % 2 ^ 64
      match key : readBytes data pos1 keyLen.toNat with
      | .error e => .error e
      | .ok (_, _, false) => .ok (.error .cantReadConnAttrKey)
      | .ok (connAttrKey, pos2, true) =>
        match valueLength : readByte data pos2 with
        | .error e => .error e
        | .ok (_, _, false) => .ok (.error .cantReadConnAttrValueLength)
        | .ok (valLen, pos3, true) =>
          let attrLenRead := (attrLenRead + valLen.toNat + 1) % 2 ^ 64
          match value : readBytes data pos3 valLen.toNat with
          | .error e => .error e
          | .ok (_, _, false) => .ok (.error .cantReadConnAttrValue)
          | .ok (connAttrVal, pos4, true) =>
            parseConnAttrsLoop data attrLen attrLenRead pos4 (attrs ++ [(connAttrKey, connAttrVal)])
  else .ok (.ok (attrs, pos))
termination_by (data.length - pos).toNat
decreasing_by
  -- each round reads two length bytes, so it moves at least two bytes on
  have first := readByte_ok keyLength
  have second := readBytes_ok key
  have third := readByte_ok valueLength
  have fourth := readBytes_ok value
  omega

/-- `parseConnAttrs`. -/
def parseConnAttrs (data : List UInt8) (pos : ℤ) :
    Except RuntimeError (Except HandshakeError (List (List UInt8 × List UInt8) × ℤ)) := do
  let (attrLen, pos, ok) ← readLenEncInt data pos
  if !ok then return .error .cantReadConnAttrsLength
  parseConnAttrsLoop data attrLen 0 pos []

/-! ### The handshake response -/

/-- The fields of `Conn` that the parse writes; `tls` is whether `c.conn` was
replaced by a TLS server on it. -/
structure HandshakeConn where
  capabilities : ℕ
  characterSet : ℕ
  schemaName : List UInt8
  tls : Bool
  deriving DecidableEq, Repr

/-- What the parse returns besides the error: the username, the auth method and
the auth response. -/
structure ClientHandshake where
  username : List UInt8
  authMethod : List UInt8
  authResponse : List UInt8
  deriving DecidableEq, Repr

/-- The three forms of the auth response in `parseClientHandshakePacket`: a
length-encoded length, a one-byte length, or a null-terminated string. -/
def readAuthResponse (clientFlags : ℕ) (data : List UInt8) (pos : ℤ) :
    Except RuntimeError (Except HandshakeError (List UInt8 × ℤ)) := do
  if clientFlags &&& capabilityClientPluginAuthLenencClientData ≠ 0 then
    let (l, pos, ok) ← readLenEncInt data pos
    if !ok then return .error .cantReadAuthResponseVariableLength
    let (authResponse, pos, ok) ← readBytesCopy data pos (toInt64 l)
    if !ok then return .error .cantReadAuthResponse
    return .ok (authResponse, pos)
  else if clientFlags &&& capabilityClientSecureConnection ≠ 0 then
    let (l, pos, ok) ← readByte data pos
    if !ok then return .error .cantReadAuthResponseLength
    let (authResponse, pos, ok) ← readBytesCopy data pos l.toNat
    if !ok then return .error .cantReadAuthResponse
    return .ok (authResponse, pos)
  else
    let (a, pos, ok) ← readNullString data pos
    if !ok then return .error .cantReadAuthResponse
    return .ok (a, pos)

/-- The end of `parseClientHandshakePacket`, after the auth response: the database
name, the auth method, and the connection attributes, whose errors are only
logged. -/
def readHandshakeTail (clientFlags : ℕ) (c : HandshakeConn) (data : List UInt8) (pos : ℤ)
    (username authResponse : List UInt8) :
    Except RuntimeError (HandshakeConn × Except HandshakeError ClientHandshake) := do
  let mut c := c
  let mut pos := pos
  if clientFlags &&& capabilityClientConnectWithDB ≠ 0 then
    let (dbname, pos', ok) ← readNullString data pos
    if !ok then return (c, .error .cantReadDbname)
    pos := pos'
    c := { c with schemaName := dbname }
  let mut authMethod := mysqlNativePassword
  if clientFlags &&& capabilityClientPluginAuth ≠ 0 then
    let (authMethodStr, pos', ok) ← readNullString data pos
    if !ok then return (c, .error .cantReadAuthMethod)
    pos := pos'
    if authMethodStr ≠ [] then authMethod := authMethodStr
  if clientFlags &&& capabilityClientConnAttr ≠ 0 then
    let _ ← parseConnAttrs data pos
  return (c, .ok ⟨username, authMethod, authResponse⟩)

/-- `Listener.parseClientHandshakePacket`, with `tlsConfigured` for
`l.TLSConfig.Load() != nil`. The TLS switch returns no error and empty values. -/
def parseClientHandshakePacket (tlsConfigured : Bool) (c : HandshakeConn) (firstTime : Bool)
    (data : List UInt8) : Except RuntimeError (HandshakeConn × Except HandshakeError ClientHandshake) := do
  let mut c := c
  let (clientFlags, pos, ok) ← readUint32 data 0
  if !ok then return (c, .error .cantReadClientFlags)
  if clientFlags &&& capabilityClientProtocol41 = 0 then return (c, .error .onlyProtocol41)
  if firstTime then
    c := { c with capabilities := clientFlags &&& (capabilityClientDeprecateEOF ||| capabilityClientFoundRows) }
  if clientFlags &&& capabilityClientMultiStatements > 0 then
    c := { c with capabilities := c.capabilities ||| capabilityClientMultiStatements }
  let (_, pos, ok) ← readUint32 data pos
  if !ok then return (c, .error .cantReadMaxPacketSize)
  let (characterSet, pos, ok) ← readByte data pos
  if !ok then return (c, .error .cantReadCharacterSet)
  c := { c with characterSet := characterSet.toNat }
  -- the 23 reserved bytes, skipped without a check
  let pos := pos + 23
  if firstTime && tlsConfigured && clientFlags &&& capabilityClientSSL > 0 then
    return ({ c with tls := true, capabilities := c.capabilities ||| capabilityClientSSL }, .ok ⟨[], [], []⟩)
  let (username, pos, ok) ← readNullString data pos
  if !ok then return (c, .error .cantReadUsername)
  match ← readAuthResponse clientFlags data pos with
  | .error e => return (c, .error e)
  | .ok (authResponse, pos) => readHandshakeTail clientFlags c data pos username authResponse

/-! ### Panics on client packets -/

/-- A packet of 9 to 31 bytes that asks for protocol 4.1 and no TLS switch: the
reserved bytes end past it, and reading the username panics. -/
theorem parseClientHandshakePacket_of_short (tlsConfigured : Bool) (c : HandshakeConn) (firstTime : Bool)
    {data : List UInt8} (long : 9 ≤ data.length) (short : data.length < 32)
    (protocol41 : LittleEndian.decode (data.take 4) &&& capabilityClientProtocol41 ≠ 0)
    (noSwitch : ¬ (firstTime = true ∧ tlsConfigured = true ∧
      LittleEndian.decode (data.take 4) &&& capabilityClientSSL > 0)) :
    parseClientHandshakePacket tlsConfigured c firstTime data = .error .sliceBoundsOutOfRange := by
  obtain ⟨b, _, charset⟩ := @readByte_of_room data (0 + (4 : ℕ) + (4 : ℕ)) (by omega) (by omega)
  have switch : (firstTime && tlsConfigured &&
      decide (LittleEndian.decode (data.take 4) &&& capabilityClientSSL > 0)) = false := by
    rw [Bool.eq_false_iff]
    intro on
    simp only [Bool.and_eq_true, decide_eq_true_eq] at on
    exact noSwitch ⟨on.1.1, on.1.2, on.2⟩
  have past : readNullString data (0 + (4 : ℕ) + (4 : ℕ) + 1 + 23) = .error .sliceBoundsOutOfRange :=
    readNullString_of_past (by omega)
  unfold parseClientHandshakePacket readUint32
  rw [readLittleEndian_of_room 4 le_rfl (by omega) (by omega)]
  dsimp only [bind, Except.bind]
  simp only [Int.toNat_zero, List.drop_zero]
  rw [if_neg protocol41]
  have second := @readLittleEndian_of_room 4 data (0 + (4 : ℕ)) (by omega) (by omega) (by omega)
  simp only [second, charset, switch, past, Bool.not_true, Bool.false_eq_true, if_false, ite_self]

/-- A length-encoded auth-response length of `2^63` or more: `int(l)` is negative and
`make` panics. -/
theorem readAuthResponse_of_large {clientFlags : ℕ} {data : List UInt8} {pos next : ℤ} {size : ℕ}
    (lenenc : clientFlags &&& capabilityClientPluginAuthLenencClientData ≠ 0) (start : 0 ≤ pos)
    (short : data.length < 2 ^ 63) (read : readLenEncInt data pos = .ok (size, next, true))
    (large : 2 ^ 63 ≤ size) :
    readAuthResponse clientFlags data pos = .error .makeSliceLenOutOfRange := by
  obtain ⟨after, within, uint⟩ := readLenEncInt_ok start read
  have negative := toInt64_of_large large uint
  rw [readAuthResponse, if_pos lenenc, read]
  dsimp only [bind, Except.bind]
  rw [readBytesCopy_of_negative data within (by omega) (by omega) (by omega)]
  rfl

/-- A handshake response with protocol 4.1 and length-encoded auth data, the
username `a`, and an auth-response length of `2^63`. -/
def longAuthPacket : List UInt8 :=
  [0x00, 0x02, 0x20, 0x00] ++ [0, 0, 0, 0] ++ [33] ++ List.replicate 23 0 ++ [97, 0] ++
    [0xfe, 0, 0, 0, 0, 0, 0, 0, 0x80]

theorem handshake_packets_panic (tlsConfigured : Bool) (c : HandshakeConn) (firstTime : Bool) :
    parseClientHandshakePacket tlsConfigured c firstTime [0, 2, 0, 0, 0, 0, 0, 0, 33] =
      .error .sliceBoundsOutOfRange ∧
    parseClientHandshakePacket tlsConfigured c firstTime longAuthPacket = .error .makeSliceLenOutOfRange := by
  cases tlsConfigured <;> cases firstTime <;> exact ⟨rfl, rfl⟩

end Vitess.Mysql
