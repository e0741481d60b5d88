import CilLoader.Bytes

/-!
# Digests of keys

The token of a public key is made of a digest of the key. The digest is a parameter: nothing in the
library depends on how it is computed, only on how many bytes it has.
-/

namespace CilLoader

class KeyDigest where
  digest : Bytes → Vector UInt8 20

end CilLoader
