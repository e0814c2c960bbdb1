import DocQuery.Document.Value

/-!
# Object ids

An object id is twelve bytes written as hexadecimal digits. The text is read byte by byte of its
UTF-8 form, and refusals count bytes.
-/

namespace DocQuery.Filter

/-- Why a text is no object id. -/
inductive ObjectIdError where
  /-- The text has a byte that is no hexadecimal digit. -/
  | digit (byte : Nat) (index : Nat) (text : String)
  /-- The text is not twenty-four bytes long. -/
  | length (text : String)
deriving DecidableEq

/-- The wording of a refusal. -/
def ObjectIdError.message : ObjectIdError → String
  | .digit byte index text =>
    "invalid character '" ++ String.ofList [Char.ofNat byte] ++ "' was found at index " ++
      Nat.repr index ++ " in the provided hex string: \"" ++ text ++ "\""
  | .length text =>
    "provided hex string representation must be exactly 12 bytes, instead got: \"" ++ text ++
      "\", length " ++ Nat.repr text.utf8ByteSize

/-- Whether a byte is a hexadecimal digit. -/
def isHexByte (byte : Nat) : Bool :=
  (0x30 ≤ byte && byte ≤ 0x39) || (0x41 ≤ byte && byte ≤ 0x46) || (0x61 ≤ byte && byte ≤ 0x66)

/-- The lower case of a hexadecimal digit. -/
def lowerHex (byte : Nat) : Char :=
  Char.ofNat (if 0x41 ≤ byte ∧ byte ≤ 0x46 then byte + 0x20 else byte)

/-- The bytes of the UTF-8 form of a text. -/
def utf8Bytes (s : String) : List Nat := s.toUTF8.data.toList.map UInt8.toNat

/-- The digits of an object id in lower case. An odd length is refused first, then the first byte
that is no digit, then any other wrong length. -/
def objectIdDigits (s : String) : Except ObjectIdError String :=
  let bytes := utf8Bytes s
  if bytes.length % 2 = 1 then .error (.length s)
  else match bytes.findIdx? (!isHexByte ·) with
    | some index => .error (.digit (bytes.getD index 0) index s)
    | none =>
      if bytes.length = 24 then .ok (String.ofList (bytes.map lowerHex)) else .error (.length s)

end DocQuery.Filter
