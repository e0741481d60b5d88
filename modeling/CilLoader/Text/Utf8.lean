import CilLoader.Bytes

/-!
# UTF-8
-/

namespace CilLoader.Utf8

def isText (bytes : Bytes) : Bool :=
  ByteArray.validateUTF8 ⟨bytes⟩

def decode? (bytes : Bytes) : Option String :=
  String.fromUTF8? ⟨bytes⟩

end CilLoader.Utf8
