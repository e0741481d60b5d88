import CilLoader.Digest
import CilLoader.Error
import CilLoader.Text.Number

/-!
# Strong names

A signed assembly is told apart by its public key or by the token of that key: the last eight
bytes of the digest of the key, in reverse order.
-/

namespace CilLoader

/-- The eight bytes that stand for a public key. -/
structure KeyToken where
  bytes : List UInt8
  length_bytes : bytes.length = 8
deriving DecidableEq, Repr

namespace KeyToken

def ofList? (bytes : List UInt8) : Option KeyToken :=
  if length : bytes.length = 8 then some ⟨bytes, length⟩ else none

def ofKey [KeyDigest] (key : Bytes) : KeyToken :=
  ⟨(KeyDigest.digest key).toList.reverse.take 8, by simp⟩

def text (token : KeyToken) : String :=
  String.ofList (Hexadecimal.ofBytes token.bytes)

def readBytes? : List Char → Option (List UInt8)
  | [] => some []
  | [_] => none
  | high :: low :: rest => do
    let byte ← Number.readHexByte? [high, low]
    let bytes ← readBytes? rest
    return UInt8.ofNat byte :: bytes

/-- Reads the text of a token: sixteen characters, a hexadecimal number in every two. -/
def parse (text : List Char) : Except Error KeyToken :=
  if text.length = 16 ∧ text.all (·.toNat < 0x80) then
    match (readBytes? text).bind ofList? with
    | some token => .ok token
    | none => .error (.malformed (.keyTokenDigits (String.ofList text)))
  else
    .error (.malformed (.keyTokenLength (String.ofList text)))

end KeyToken

inductive StrongName where
  | publicKey (key : Bytes)
  | token (keyToken : KeyToken)
deriving DecidableEq, Repr

namespace StrongName

/-- The token of a strong name, computed from the key if the whole key is given. -/
def keyToken [KeyDigest] : StrongName → KeyToken
  | .publicKey key => KeyToken.ofKey key
  | .token keyToken => keyToken

/-- The strong name that a blob of key bytes stands for. Eight bytes are a token unless they are
marked as a whole key. -/
def ofBlob? (blob : Bytes) (isFullKey : Bool) : Option StrongName :=
  if blob.isEmpty then none
  else
    match isFullKey, KeyToken.ofList? blob.toList with
    | false, some keyToken => some (token keyToken)
    | _, _ => some (publicKey blob)

end StrongName

end CilLoader
