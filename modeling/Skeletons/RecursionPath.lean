import Skeletons.Digest.Sha256
import Skeletons.Number.Rounding
import Skeletons.Value

namespace Skeletons

/-- Child indices from the root down. -/
abbrev RecursionPath := List UInt64

namespace RecursionPath

def child (path : RecursionPath) (index : UInt64) : RecursionPath := path ++ [index]

/-- The length of the path and then its indices, each as eight bytes. The length in front keeps a path
    apart from every path that continues it. -/
def bytes (path : RecursionPath) : List UInt8 :=
  (UInt64.ofNat path.length :: path).flatMap Sha256.bytes64

def wordOfBytes (bytes : List UInt8) : UInt64 :=
  bytes.foldl (fun word byte => word <<< 8 ||| byte.toUInt64) 0

def id (path : RecursionPath) : UInt64 := wordOfBytes ((Sha256.digest path.bytes).take 8)

def payload (path : RecursionPath) : Value :=
  .list (path.map fun index => .number (.ofNat index.toNat))

end RecursionPath

end Skeletons
