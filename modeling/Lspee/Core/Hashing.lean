import Lspee.Core.Config
import Lspee.Lib.Lossy

/-!
# The Identity of Any Root

`hash_identity` for a root whose path is any sequence of bytes, as paths on Unix
are. `Core.Config` has it for paths that are texts, and there nothing is lost.

## Main definitions

* `hashInput`: What is digested.
* `hashIdentityBytes`: The digest.
-/

namespace Lspee

variable (x : Externals)

/-- The root as it is rendered, a zero byte, and the text of the configuration. -/
def hashInput (projectRoot : List UInt8) (mergedConfig : EffectiveConfig) : List UInt8 :=
  Utf8.lossy projectRoot ++ [0] ++ Utf8.encode (x.tomlToString mergedConfig).toList

def hashIdentityBytes (projectRoot : List UInt8) (mergedConfig : EffectiveConfig) : String :=
  x.sha256Hex (hashInput x projectRoot mergedConfig)

end Lspee
